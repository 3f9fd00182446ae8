-- How stages refer to artifacts: by a name that the registry knows under the kind of the role,
-- and, for the libraries a stage includes, by coordinates or the name of a library.
import Rollout.Artifact.Registry

namespace Rollout

open Rollout.Text

namespace Registry

/-- Where the artifact of a stage with the given name and role is found. -/
def resolve (r : Registry) (name : String) (role : Role) : Except Fault Coordinates :=
  match r.coordinates? name role.kind with
  | some c => .ok c
  | none => .error (.notRegistered name role.kind)

/-- Where a library is found. Coordinates stand for themselves, whatever is registered. -/
def resolveLibrary (r : Registry) (token : String) : Except Fault Coordinates :=
  match Coordinates.parse? token with
  | some c => .ok c
  | none =>
    match r.coordinates? token .library with
    | some c => .ok c
    | none => .error (.unresolvedLibrary token)

end Registry

namespace Includes

/-- A piece of a list of libraries, without its spaces and tabs. -/
def strip (piece : List Char) : List Char :=
  piece.filter fun c => c ≠ ' ' ∧ c ≠ '\t'

/-- The libraries that a list names: what stands between its commas, where spaces and tabs do not
count and nothing names nothing. -/
def tokens (list : String) : List String :=
  (((pieces ',' list.toList).map strip).filter (· ≠ [])).map String.ofList

/-- The list of libraries that are found at the given places. -/
def text (places : List Coordinates) : String :=
  String.ofList (join ',' (places.map fun c => c.text.toList))

/-- A list of libraries with every library given by its coordinates. -/
def resolve (r : Registry) (list : String) : Except Fault String := do
  let places ← (tokens list).mapM r.resolveLibrary
  return text places

end Includes

end Rollout
