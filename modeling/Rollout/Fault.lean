-- What can go wrong: in a pipeline as it is defined, at a deployer, and in planning as a whole.
-- Each fault is a cause; its wording and its code are functions of the cause.
import Rollout.Artifact.Kind

namespace Rollout

/-- Why stages under a name make no pipeline. -/
inductive PipelineFault where
  /-- The name is white space alone. -/
  | blankName
  /-- The named pipeline has no stages. -/
  | noStages (pipeline : String)
  /-- Two stages of the named pipeline share a label. -/
  | repeatedLabel (label pipeline : String)
  /-- A fault found elsewhere, in its own words, with the labels of the stages it is about. -/
  | other (reason : String) (labels : List String)
  deriving DecidableEq, Inhabited

/-- Why a deployer did not do what it was asked. -/
inductive DeployerFault where
  /-- The deployer could not be reached. -/
  | unavailable (reason : String)
  /-- The deployer refused a stage. -/
  | rejected (stage reason : String)
  deriving DecidableEq, Inhabited

/-- Why an operation on a pipeline failed. -/
inductive Fault where
  /-- Nothing is registered under the name and kind. -/
  | notRegistered (name : String) (kind : ArtifactKind)
  /-- A library reference is neither coordinates nor the name of a library. -/
  | unresolvedLibrary (token : String)
  /-- A stage neither takes nor gives data. -/
  | ambiguousRole (stage : String)
  /-- A text is not of the form of coordinates. -/
  | invalidCoordinates (text : String)
  /-- A property has a value that is of no use; the stage is empty if it concerns no single one. -/
  | invalidProperty (stage key value : String)
  | invalidPipeline (fault : PipelineFault)
  | deployer (fault : DeployerFault)
  deriving DecidableEq, Inhabited

namespace PipelineFault

def message : PipelineFault → String
  | .blankName => "Pipeline name cannot be empty or whitespace-only"
  | .noStages pipeline => "Pipeline '" ++ pipeline ++ "' has no stages"
  | .repeatedLabel label pipeline =>
    "Label '" ++ label ++ "' is used by more than one stage in pipeline '" ++ pipeline ++ "'"
  | .other reason _ => reason

/-- The labels of the stages that a fault is about. -/
def labels : PipelineFault → List String
  | .blankName => []
  | .noStages _ => []
  | .repeatedLabel label _ => [label]
  | .other _ labels => labels

end PipelineFault

def DeployerFault.message : DeployerFault → String
  | .unavailable reason => "Deployer unavailable: " ++ reason
  | .rejected stage reason => "Deployer rejected '" ++ stage ++ "': " ++ reason

namespace Fault

def message : Fault → String
  | .notRegistered name kind =>
    "Module " ++ name ++ " of type " ++ kind.name ++ " not found in registry"
  | .unresolvedLibrary token =>
    "'" ++ token ++ "' could not be parsed as artifact coordinates and is not a registered library"
  | .ambiguousRole stage => "Stage '" ++ stage ++ "' had neither input nor output binding set"
  | .invalidCoordinates text => "Invalid artifact coordinates: " ++ text
  | .invalidProperty stage key value =>
    "Invalid value '" ++ value ++ "' for property '" ++ key ++ "' of stage '" ++ stage ++ "'"
  | .invalidPipeline fault => fault.message
  | .deployer fault => fault.message

/-- The code of a fault, which stays the same when its wording changes. -/
def code : Fault → String
  | .notRegistered _ _ => "DEPLOY-001-NOT_REGISTERED"
  | .unresolvedLibrary _ => "DEPLOY-002-UNRESOLVED_LIBRARY"
  | .ambiguousRole _ => "DEPLOY-003-AMBIGUOUS_ROLE"
  | .invalidCoordinates _ => "DEPLOY-004-COORDINATES"
  | .invalidProperty _ _ _ => "DEPLOY-005-PROPERTY"
  | .invalidPipeline _ => "DEPLOY-006-PIPELINE"
  | .deployer _ => "DEPLOY-100-DEPLOYER"

/-- Tells whether a fault arose before anything reached the deployer. -/
def isPlanning : Fault → Bool
  | .deployer _ => false
  | _ => true

end Fault

end Rollout
