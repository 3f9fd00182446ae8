-- Coordinates of an artifact: `group:artifact[:extension[:classifier]]:version`. The canonical
-- text always names the extension, and the classifier unless it is empty.
import Rollout.Fault
import Rollout.Text.Pieces

namespace Rollout

open Rollout.Text

structure Coordinates where
  group : String
  artifact : String
  extension : String
  /-- Empty if there is none. -/
  classifier : String
  version : String
  deriving DecidableEq, Inhabited

namespace Coordinates

def defaultExtension : String := "jar"

/-- Coordinates with the default extension and no classifier. -/
def plain (group artifact version : String) : Coordinates :=
  ⟨group, artifact, defaultExtension, "", version⟩

def parts (c : Coordinates) : List String :=
  [c.group, c.artifact, c.extension] ++ (if c.classifier = "" then [] else [c.classifier]) ++
    [c.version]

/-- The canonical text: the parts with a colon between neighbours. -/
def text (c : Coordinates) : String :=
  String.ofList (join ':' (c.parts.map String.toList))

/-- Coordinates of parts cut at the colons. Group, artifact and version must not be empty, nor
the classifier if it is there; an empty extension counts as the default one. -/
def ofParts? : List (List Char) → Option Coordinates
  | [group, artifact, version] => make? group artifact [] [] version
  | [group, artifact, extension, version] => make? group artifact extension [] version
  | [group, artifact, extension, classifier, version] =>
    if classifier = [] then none else make? group artifact extension classifier version
  | _ => none
where
  /-- Coordinates of the given parts, where the last two but one may be empty. -/
  make? (group artifact extension classifier version : List Char) : Option Coordinates :=
    if group = [] ∨ artifact = [] ∨ version = [] then none
    else
      some
        { group := String.ofList group
          artifact := String.ofList artifact
          extension := if extension = [] then defaultExtension else String.ofList extension
          classifier := String.ofList classifier
          version := String.ofList version }

/-- Reads coordinates: a text without spaces, cut at the colons. -/
def parse? (s : String) : Option Coordinates :=
  if ' ' ∈ s.toList then none else ofParts? (pieces ':' s.toList)

/-- Reads coordinates, with the text in the fault if they are none. -/
def parse (s : String) : Except Fault Coordinates :=
  match parse? s with
  | some c => .ok c
  | none => .error (.invalidCoordinates s)

end Coordinates

end Rollout
