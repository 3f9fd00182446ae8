-- Pipelines in one line: a source, any number of processors, and a sink, each giving its data to
-- the next, with a registry that knows all of their artifacts.
import Rollout.Artifact.Registry
import Rollout.Pipeline.Basic
import Rollout.Text.Decimal
import Rollout.Text.Pieces

namespace Rollout

open Rollout.Text

/-- Why entries make no pipeline in one line. -/
inductive LinearFault where
  | tooFew (entries : Nat)
  | invalid (fault : PipelineFault)
  deriving DecidableEq, Inhabited

/-- A pipeline in one line with a registry for it. -/
structure Linear where
  pipeline : Pipeline
  registry : Registry
  deriving DecidableEq

namespace Linear

def group : String := "org.example.stages"

def version : String := "1.0.0"

/-- Where such a pipeline finds an artifact. -/
def coordinates (name : String) (kind : ArtifactKind) : Coordinates :=
  .plain group (name ++ "-" ++ kind.name) version

/-- The label and name of an entry: `label: name`, or the name alone. -/
def entry (written : String) : Option String × String :=
  match cut? ':' written.toList with
  | some (label, name) =>
    (some (String.ofList (trimChars label)), String.ofList (trimChars name))
  | none => (none, trim written)

/-- What carries data from the stage of the given number to the next one. -/
def destination (pipeline : String) (number : Nat) : String :=
  pipeline ++ "." ++ decimalText number

/-- The stage of an entry between the given destinations. -/
def stage (written : String) (input output : Option String) : Stage :=
  let (label, name) := entry written
  Stage.make name label ∅ input output

/-- The stages of entries, where the first one has the given number and input. The last one gives
no data. -/
def stagesFrom (pipeline : String) (number : Nat) (input : Option String) :
    List String → List Stage
  | [] => []
  | [last] => [stage last input none]
  | written :: rest =>
    let link := destination pipeline number
    stage written input (some link) :: stagesFrom pipeline (number + 1) (some link) rest

/-- The stages of a pipeline in one line, outside of a pipeline. -/
def stages (pipeline : String) (entries : List String) : Except LinearFault (List Stage) :=
  if entries.length < 2 then .error (.tooFew entries.length)
  else .ok (stagesFrom pipeline 0 none entries)

def registerStage (r : Registry) (s : Stage) : Registry :=
  match s.role with
  | .ok role => r.register ⟨s.name, role.kind, coordinates s.name role.kind⟩
  | .error _ => r

/-- Pipes between entries, as such a pipeline is written. -/
def text (entries : List String) : String := String.intercalate " | " entries

/-- The pipeline of entries in one line, with a registry of its artifacts. -/
def build (pipeline : String) (entries : List String) : Except LinearFault Linear := do
  let line ← stages pipeline entries
  match Pipeline.build pipeline (text entries) line with
  | .error fault => .error (.invalid fault)
  | .ok p => .ok ⟨p, p.stages.foldl registerStage ∅⟩

/-- The same pipeline with a registry that knows a library too. -/
def addLibrary (l : Linear) (name : String) : Linear :=
  { l with registry := l.registry.register ⟨name, .library, coordinates name .library⟩ }

/-- The entries of a pipeline that takes requests, changes them and writes them down. -/
def sampleEntries : List String := ["http", "transform", "log"]

end Linear

def LinearFault.message : LinearFault → String
  | .tooFew entries =>
    "a linear pipeline needs at least a source and a sink, got " ++ decimalText entries ++
      " stage(s)"
  | .invalid fault => fault.message

end Rollout
