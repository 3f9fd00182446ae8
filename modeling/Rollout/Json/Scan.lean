-- From a text to JSON tokens, one character at a time. Between tokens stand space, tab, line
-- feed and carriage return alone. A run of letters, digits, signs and points is one word, and a
-- word is the name of a constant or a number; no JSON text has two words side by side.
import Rollout.Json.Token

namespace Rollout.Json

open Rollout.Text

/-! ## Words -/

/-- Tells whether a character can stand in the name of a constant or in a number. -/
def isWordChar (c : Char) : Bool :=
  c.isAlphanum || c = '+' || c = '-' || c = '.'

/-- A word without the minus sign at its start, and whether it had one. -/
def splitMinus : List Char → Bool × List Char
  | '-' :: cs => (true, cs)
  | cs => (false, cs)

/-- The fraction digits after the whole part of a number, and what follows them. -/
def fraction? : List Char → Option (List Char × List Char)
  | '.' :: cs =>
    let digits := cs.takeWhile Char.isDigit
    if digits.isEmpty then none else some (digits, cs.dropWhile Char.isDigit)
  | cs => some ([], cs)

/-- A word without the sign at its start, and whether that is a minus sign. -/
def splitSign : List Char → Bool × List Char
  | '+' :: cs => (false, cs)
  | '-' :: cs => (true, cs)
  | cs => (false, cs)

/-- The whole number that digits write, negative or not. -/
def integer? (negative : Bool) (digits : List Char) : Option Int :=
  if isNumeral digits then
    some (if negative then -(numeralValue digits : Int) else numeralValue digits)
  else none

/-- The exponent that ends a number. -/
def exponent? : List Char → Option Int
  | [] => some 0
  | e :: cs =>
    if e = 'e' ∨ e = 'E' then integer? (splitSign cs).1 (splitSign cs).2 else none

/-- Tells whether a row of digits can be the whole part of a number: a zero starts it only if it
is the one digit. -/
def isWholePart (digits : List Char) : Bool :=
  digits = ['0'] || (isNumeral digits && digits.head? ≠ some '0')

/-- Reads a word as a number: its mantissa and exponent. -/
def number? (word : List Char) : Option (Int × Int) := do
  let (negative, unsigned) := splitMinus word
  let whole := unsigned.takeWhile Char.isDigit
  if !isWholePart whole then failure
  let (decimals, tail) ← fraction? (unsigned.dropWhile Char.isDigit)
  let exponent ← exponent? tail
  let value : Int := numeralValue (whole ++ decimals)
  return (if negative then -value else value, exponent - decimals.length)

def Token.ofWord? (word : List Char) : Option Token :=
  if word = "null".toList then some .null
  else if word = "true".toList then some (.bool true)
  else if word = "false".toList then some (.bool false)
  else (number? word).map fun n => .number n.1 n.2

/-! ## Strings -/

/-- The character that a one-letter escape stands for. -/
def unescape? (letter : Char) : Option Char :=
  if letter = '"' ∨ letter = '\\' ∨ letter = '/' then some letter
  else (shortEscapes.find? (·.2 = letter)).map (·.1)

/-- Tells whether a code unit is the first half of a surrogate pair. -/
def isLead (unit : Nat) : Bool := 0xD800 ≤ unit && unit ≤ 0xDBFF

/-- Tells whether a code unit is the second half of a surrogate pair. -/
def isTrail (unit : Nat) : Bool := 0xDC00 ≤ unit && unit ≤ 0xDFFF

/-- The characters of a row of code units and code points, the halves of surrogate pairs put
together; none if a half stands alone. -/
def pairUp : List Nat → Option (List Char)
  | [] => some []
  | [unit] => if isLead unit || isTrail unit then none else some [Char.ofNat unit]
  | unit :: unit' :: units =>
    if isLead unit then
      if isTrail unit' then
        (pairUp units).map
          (Char.ofNat (0x10000 + (unit - 0xD800) * 0x400 + (unit' - 0xDC00)) :: ·)
      else none
    else if isTrail unit then none
    else (pairUp (unit' :: units)).map (Char.ofNat unit :: ·)

/-- What the units of a string literal denote. -/
def Literal.ofUnits (units : List Nat) : Literal :=
  (pairUp units).map String.ofList

/-! ## The scanner -/

/-- Where the scanner stands. What is read of a word or of a string is kept last character
first. -/
inductive Mode where
  | between
  | word (read : List Char)
  | quoted (read : List Nat)
  | escaped (read : List Nat)
  /-- Inside an escape of four digits: its value so far and the number of digits to come. -/
  | coded (read : List Nat) (value missing : Nat)

/-- The tokens read, last one first, and where the scanner stands. -/
structure Scanner where
  tokens : List Token := []
  mode : Mode := .between

namespace Scanner

/-- Reads a character that stands between tokens. -/
def start (tokens : List Token) (c : Char) : Option Scanner :=
  if c = ' ' ∨ c = '\t' ∨ c = '\n' ∨ c = '\r' then some ⟨tokens, .between⟩
  else if c = '"' then some ⟨tokens, .quoted []⟩
  else if isWordChar c then some ⟨tokens, .word [c]⟩
  else (Token.ofPunctuation? c).map fun t => ⟨t :: tokens, .between⟩

def step (s : Scanner) (c : Char) : Option Scanner :=
  match s.mode with
  | .between => start s.tokens c
  | .word read =>
    if isWordChar c then some ⟨s.tokens, .word (c :: read)⟩
    else do
      let token ← Token.ofWord? read.reverse
      start (token :: s.tokens) c
  | .quoted read =>
    if c = '"' then some ⟨.string (Literal.ofUnits read.reverse) :: s.tokens, .between⟩
    else if c = '\\' then some ⟨s.tokens, .escaped read⟩
    else if c.toNat < 0x20 then none
    else some ⟨s.tokens, .quoted (c.toNat :: read)⟩
  | .escaped read =>
    if c = 'u' then some ⟨s.tokens, .coded read 0 4⟩
    else (unescape? c).map fun e => ⟨s.tokens, .quoted (e.toNat :: read)⟩
  | .coded read value missing => do
    let digit ← hexValue? c
    let value := 16 * value + digit
    if missing ≤ 1 then return ⟨s.tokens, .quoted (value :: read)⟩
    else return ⟨s.tokens, .coded read value (missing - 1)⟩

/-- The tokens of a text that ends here. -/
def finish (s : Scanner) : Option (List Token) :=
  match s.mode with
  | .between => some s.tokens.reverse
  | .word read => (Token.ofWord? read.reverse).map fun t => (t :: s.tokens).reverse
  | _ => none

end Scanner

def scan? (cs : List Char) : Option (List Token) :=
  cs.foldlM Scanner.step {} >>= Scanner.finish

end Rollout.Json
