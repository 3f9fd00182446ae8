-- Values as JSON documents. A record is an object, whose members of other names do not count, or
-- an array of its fields in their order; a named value is a string or the only name in an object.
-- A field that is left out takes its default if it has one; `null` is no way to leave it out.
import Rollout.Json.Text
import Rollout.Properties.Basic

namespace Rollout

/-- Values that are written as JSON and read from it. -/
class Document (α : Type) where
  toJson : α → Json
  ofJson? : Json → Option α

namespace Document

def write {α : Type} [Document α] (a : α) : String := (toJson a).render

def read? {α : Type} [Document α] (text : String) : Option α :=
  Json.parse? text >>= ofJson?

/-! ## Records -/

/-- The values that members give a name. -/
def valuesOf (name : String) (members : List (Literal × Json)) : List Json :=
  (members.filter (·.1 = some name)).map (·.2)

/-- Tells whether every member has a name that denotes a text, and none of the given names stands
twice. -/
def wellNamed (names : List String) (members : List (Literal × Json)) : Bool :=
  members.all (·.1.isSome) && names.all fun name => (valuesOf name members).length ≤ 1

/-- The fields of a record in the order of the given names, each with its value if it is there. -/
def fields? (names : List String) : Json → Option (List (Option Json))
  | .object members =>
    if wellNamed names members then some (names.map fun name => (valuesOf name members).head?)
    else none
  | .array elements =>
    if elements.length ≤ names.length then
      some (elements.map some ++ List.replicate (names.length - elements.length) none)
    else none
  | _ => none

/-- Reads a field that must be there. -/
def required {α : Type} [Document α] : Option Json → Option α
  | some value => ofJson? value
  | none => none

/-- Reads a field that has a default. -/
def defaulted {α : Type} [Document α] (default : α) : Option Json → Option α
  | some value => ofJson? value
  | none => some default

/-! ## Named values -/

def named? {α : Type} (all : List α) (name : α → String) : Json → Option α
  | .string (some text) => all.find? (name · = text)
  | .object [(some text, .null)] => all.find? (name · = text)
  | _ => none

/-! ## Texts, truth values, lists and properties -/

instance : Document String := ⟨Json.ofText, Json.text?⟩

instance : Document Bool := ⟨.bool, Json.bool?⟩

instance {α : Type} [Document α] : Document (List α) where
  toJson as := .array (as.map toJson)
  ofJson?
    | .array elements => elements.mapM ofJson?
    | _ => none

/-- A member whose name and value both are texts. -/
def entry? : Literal × Json → Option (String × String)
  | (some key, .string (some value)) => some (key, value)
  | _ => none

/-- Properties are an object of texts; of members with the same name the last one counts. -/
instance : Document Properties where
  toJson p := .record (p.toList.map fun e => (e.1, .ofText e.2))
  ofJson?
    | .object members => (members.mapM entry?).map SortedMap.ofList
    | _ => none

end Document

end Rollout
