-- JSON values. Objects keep their members in the order in which they stand, repeated names
-- included; numbers are exact decimals; a string literal need not denote a text.

namespace Rollout

/-- What a string literal denotes. A literal whose escapes name one half of a surrogate pair is
well-formed JSON, but it denotes no text. -/
abbrev Literal := Option String

inductive Json where
  | null
  | bool (value : Bool)
  /-- The number `mantissa · 10 ^ exponent`. -/
  | number (mantissa exponent : Int)
  | string (text : Literal)
  | array (elements : List Json)
  | object (members : List (Literal × Json))
  deriving Inhabited

namespace Json

def ofText (s : String) : Json := .string (some s)

def ofNat (n : Nat) : Json := .number n 0

/-- An object with the given names and values. -/
def record (members : List (String × Json)) : Json :=
  .object (members.map fun m => (some m.1, m.2))

def text? : Json → Option String
  | .string text => text
  | _ => none

def bool? : Json → Option Bool
  | .bool value => some value
  | _ => none

def isNull : Json → Bool
  | .null => true
  | _ => false

end Json

end Rollout
