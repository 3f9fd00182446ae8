-- The tokens of JSON and how each is written. A string is written with an escape for the quote,
-- the backslash and the control characters alone; a number as its mantissa, with an exponent
-- unless that is zero.
import Rollout.Json.Value
import Rollout.Text.Decimal

namespace Rollout.Json

open Rollout.Text

inductive Token where
  | beginObject
  | endObject
  | beginArray
  | endArray
  | colon
  | comma
  | null
  | bool (value : Bool)
  | number (mantissa exponent : Int)
  | string (text : Literal)
  deriving DecidableEq, Inhabited

/-! ## Strings -/

/-- The hexadecimal digit of a number below sixteen. -/
def hexDigit (n : Nat) : Char := Nat.digitChar n

/-- The value of a hexadecimal digit in either case. -/
def hexValue? (c : Char) : Option Nat :=
  if '0' ≤ c ∧ c ≤ '9' then some (c.toNat - '0'.toNat)
  else if 'a' ≤ c ∧ c ≤ 'f' then some (c.toNat - 'a'.toNat + 10)
  else if 'A' ≤ c ∧ c ≤ 'F' then some (c.toNat - 'A'.toNat + 10)
  else none

/-- The control characters that have an escape of one letter, with that letter. -/
def shortEscapes : List (Char × Char) :=
  [('\x08', 'b'), ('\t', 't'), ('\n', 'n'), ('\x0c', 'f'), ('\r', 'r')]

/-- How a character stands between the quotes. -/
def escape (c : Char) : List Char :=
  if c = '"' then ['\\', '"']
  else if c = '\\' then ['\\', '\\']
  else if c.toNat < 0x20 then
    match shortEscapes.find? (·.1 = c) with
    | some (_, letter) => ['\\', letter]
    | none => ['\\', 'u', '0', '0', hexDigit (c.toNat / 16), hexDigit (c.toNat % 16)]
  else [c]

/-- A string literal; one that denotes no text is written as half of a surrogate pair. -/
def Literal.chars : Literal → List Char
  | some text => '"' :: text.toList.flatMap escape ++ ['"']
  | none => ['"', '\\', 'u', 'd', '8', '0', '0', '"']

/-! ## Numbers -/

/-- A whole number in decimal digits, with a minus sign if it is negative. -/
def signed : Int → List Char
  | .ofNat n => decimal n
  | .negSucc n => '-' :: decimal (n + 1)

/-- A number as its mantissa, with its exponent unless that is zero. -/
def numberChars (mantissa exponent : Int) : List Char :=
  if exponent = 0 then signed mantissa else signed mantissa ++ 'e' :: signed exponent

/-! ## Tokens -/

def Token.chars : Token → List Char
  | .beginObject => ['\x7b']
  | .endObject => ['\x7d']
  | .beginArray => ['[']
  | .endArray => [']']
  | .colon => [':']
  | .comma => [',']
  | .null => "null".toList
  | .bool true => "true".toList
  | .bool false => "false".toList
  | .number mantissa exponent => numberChars mantissa exponent
  | .string text => Literal.chars text

/-- The single characters that are tokens by themselves. -/
def Token.ofPunctuation? : Char → Option Token
  | '\x7b' => some .beginObject
  | '\x7d' => some .endObject
  | '[' => some .beginArray
  | ']' => some .endArray
  | ':' => some .colon
  | ',' => some .comma
  | _ => none

end Rollout.Json
