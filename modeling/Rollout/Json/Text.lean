-- JSON texts: the value that a text writes, and the compact text of a value. Reading walks over
-- the tokens once and keeps the open arrays and objects on a stack, so it ends with the tokens.
import Rollout.Json.Scan

namespace Rollout.Json

/-! ## Writing -/

mutual

def tokens : Json → List Token
  | .null => [.null]
  | .bool value => [.bool value]
  | .number mantissa exponent => [.number mantissa exponent]
  | .string text => [.string text]
  | .array elements => .beginArray :: elementTokens elements
  | .object members => .beginObject :: memberTokens members

/-- The tokens of the elements of an array, with the closing bracket. -/
def elementTokens : List Json → List Token
  | [] => [.endArray]
  | value :: rest => tokens value ++ laterElementTokens rest

/-- The tokens of further elements of an array, with the closing bracket. -/
def laterElementTokens : List Json → List Token
  | [] => [.endArray]
  | value :: rest => .comma :: tokens value ++ laterElementTokens rest

/-- The tokens of the members of an object, with the closing brace. -/
def memberTokens : List (Literal × Json) → List Token
  | [] => [.endObject]
  | (name, value) :: rest =>
    .string name :: .colon :: tokens value ++ laterMemberTokens rest

/-- The tokens of further members of an object, with the closing brace. -/
def laterMemberTokens : List (Literal × Json) → List Token
  | [] => [.endObject]
  | (name, value) :: rest =>
    .comma :: .string name :: .colon :: tokens value ++ laterMemberTokens rest

end

/-- The compact text of a value, as characters. -/
def chars (value : Json) : List Char :=
  (tokens value).flatMap Token.chars

def render (value : Json) : String :=
  String.ofList (chars value)

/-! ## Reading -/

/-- An array or object that is open around the place reached. What it holds so far is kept last
one first. -/
inductive Frame where
  | inArray (before : List Json)
  | inObject (before : List (Literal × Json)) (name : Literal)

/-- The place reached among the tokens, with the arrays and objects open around it, the innermost
one first. -/
inductive Place where
  | value (around : List Frame)
  /-- An array begins: its first element or its end stands next. -/
  | arrayStart (around : List Frame)
  /-- An object begins: its first name or its end stands next. -/
  | objectStart (around : List Frame)
  /-- After a comma in an object: a name stands next. -/
  | name (before : List (Literal × Json)) (around : List Frame)
  | colon (before : List (Literal × Json)) (name : Literal) (around : List Frame)
  | done (value : Json) (around : List Frame)

namespace Place

/-- Reads a token where a value stands. -/
def beginValue (around : List Frame) : Token → Option Place
  | .null => some (.done .null around)
  | .bool b => some (.done (.bool b) around)
  | .number mantissa exponent => some (.done (.number mantissa exponent) around)
  | .string text => some (.done (.string text) around)
  | .beginArray => some (.arrayStart around)
  | .beginObject => some (.objectStart around)
  | _ => none

/-- Reads a token after a complete value. -/
def endValue (v : Json) : List Frame → Token → Option Place
  | .inArray before :: around, .comma => some (.value (.inArray (v :: before) :: around))
  | .inArray before :: around, .endArray => some (.done (.array (v :: before).reverse) around)
  | .inObject before n :: around, .comma => some (.name ((n, v) :: before) around)
  | .inObject before n :: around, .endObject =>
    some (.done (.object ((n, v) :: before).reverse) around)
  | _, _ => none

def step : Place → Token → Option Place
  | .value around, token => beginValue around token
  | .arrayStart around, .endArray => some (.done (.array []) around)
  | .arrayStart around, token => beginValue (.inArray [] :: around) token
  | .objectStart around, .endObject => some (.done (.object []) around)
  | .objectStart around, .string n => some (.colon [] n around)
  | .objectStart _, _ => none
  | .name before around, .string n => some (.colon before n around)
  | .name _ _, _ => none
  | .colon before n around, .colon => some (.value (.inObject before n :: around))
  | .colon _ _ _, _ => none
  | .done v around, token => endValue v around token

/-- The value of tokens that end here. -/
def finish : Place → Option Json
  | .done v [] => some v
  | _ => none

end Place

/-- The value that tokens write. -/
def ofTokens? (ts : List Token) : Option Json :=
  ts.foldlM Place.step (.value []) >>= Place.finish

/-- The value that a text writes. -/
def parse? (text : String) : Option Json :=
  scan? text.toList >>= ofTokens?

/-! ## Laws -/

/-- A value never begins with the end of an array. -/
theorem step_arrayStart_tokens (around : List Frame) (v : Json) :
    (tokens v).foldlM Place.step (.arrayStart around) =
      (tokens v).foldlM Place.step (.value (.inArray [] :: around)) := by
  cases v <;> rfl

mutual

/-- The tokens of a value, read where a value stands, complete that value. -/
theorem foldlM_tokens (around : List Frame) : ∀ v : Json,
    (tokens v).foldlM Place.step (.value around) = some (.done v around)
  | .null => rfl
  | .bool _ => rfl
  | .number _ _ => rfl
  | .string _ => rfl
  | .array [] => rfl
  | .array (v :: rest) => by
    simp only [tokens, elementTokens, List.foldlM_cons]
    show List.foldlM Place.step (.arrayStart around) _ = _
    rw [List.foldlM_append, step_arrayStart_tokens, foldlM_tokens (.inArray [] :: around) v]
    exact foldlM_laterElementTokens around v [] rest
  | .object [] => rfl
  | .object ((n, v) :: rest) => by
    simp only [tokens, memberTokens, List.cons_append, List.foldlM_cons]
    show List.foldlM Place.step (.value (.inObject [] n :: around)) _ = _
    rw [List.foldlM_append, foldlM_tokens (.inObject [] n :: around) v]
    exact foldlM_laterMemberTokens around n v [] rest

/-- The tokens of further elements complete the array that is open. -/
theorem foldlM_laterElementTokens (around : List Frame) (v : Json) (before : List Json) :
    ∀ rest : List Json,
      (laterElementTokens rest).foldlM Place.step (.done v (.inArray before :: around)) =
        some (.done (.array (before.reverse ++ v :: rest)) around)
  | [] => by
    show some (Place.done (.array (v :: before).reverse) around) = _
    rw [List.reverse_cons]
  | w :: rest => by
    simp only [laterElementTokens, List.cons_append, List.foldlM_cons]
    show List.foldlM Place.step (.value (.inArray (v :: before) :: around)) _ = _
    rw [List.foldlM_append, foldlM_tokens (.inArray (v :: before) :: around) w]
    simpa using foldlM_laterElementTokens around w (v :: before) rest

/-- The tokens of further members complete the object that is open. -/
theorem foldlM_laterMemberTokens (around : List Frame) (n : Literal) (v : Json)
    (before : List (Literal × Json)) :
    ∀ rest : List (Literal × Json),
      (laterMemberTokens rest).foldlM Place.step (.done v (.inObject before n :: around)) =
        some (.done (.object (before.reverse ++ (n, v) :: rest)) around)
  | [] => by
    show some (Place.done (.object ((n, v) :: before).reverse) around) = _
    rw [List.reverse_cons]
  | (m, w) :: rest => by
    simp only [laterMemberTokens, List.cons_append, List.foldlM_cons]
    show List.foldlM Place.step (.value (.inObject ((n, v) :: before) m :: around)) _ = _
    rw [List.foldlM_append, foldlM_tokens (.inObject ((n, v) :: before) m :: around) w]
    simpa using foldlM_laterMemberTokens around m w ((n, v) :: before) rest

end

/-- The tokens of a value write that value. -/
@[simp] theorem ofTokens?_tokens (v : Json) : ofTokens? (tokens v) = some v := by
  rw [ofTokens?, foldlM_tokens]
  rfl

end Rollout.Json
