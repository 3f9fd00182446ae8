-- The states of single stages and of whole pipelines, and how the states of its stages make the
-- state of a pipeline. Only which states occur matters, not their order or number.

namespace Rollout

/-- What a deployer knows of a stage. -/
inductive StageState where
  | unknown
  | deploying
  | deployed
  | failed
  | error
  | undeployed
  deriving DecidableEq, Inhabited

inductive PipelineState where
  | unknown
  | deploying
  | deployed
  | failed
  | error
  | undeployed
  /-- Some stages are there and some are not. -/
  | mixed
  deriving DecidableEq, Inhabited

namespace StageState

def all : List StageState := [.unknown, .deploying, .deployed, .failed, .error, .undeployed]

def name : StageState → String
  | .unknown => "unknown"
  | .deploying => "deploying"
  | .deployed => "deployed"
  | .failed => "failed"
  | .error => "error"
  | .undeployed => "undeployed"

/-- Tells whether there is nothing to undeploy. -/
def isAbsent : StageState → Bool
  | .unknown => true
  | .undeployed => true
  | _ => false

/-- The state of a pipeline of the same name. -/
def lift : StageState → PipelineState
  | .unknown => .unknown
  | .deploying => .deploying
  | .deployed => .deployed
  | .failed => .failed
  | .error => .error
  | .undeployed => .undeployed

/-- The state of a pipeline whose stages all have the given state: a pipeline that nobody has
heard of counts as undeployed. -/
def agreed : StageState → PipelineState
  | .unknown => .undeployed
  | state => state.lift

theorem isAbsent_iff {s : StageState} : s.isAbsent = true ↔ s = .unknown ∨ s = .undeployed := by
  cases s <;> decide

theorem isAbsent_eq_false_iff {s : StageState} :
    s.isAbsent = false ↔ s ≠ .unknown ∧ s ≠ .undeployed := by
  cases s <;> decide

end StageState

namespace PipelineState

def all : List PipelineState :=
  [.unknown, .deploying, .deployed, .failed, .error, .undeployed, .mixed]

/-- The name of a state; stages that disagree without a failure make a partial deployment. -/
def name : PipelineState → String
  | .unknown => "unknown"
  | .deploying => "deploying"
  | .deployed => "deployed"
  | .failed => "failed"
  | .error => "error"
  | .undeployed => "undeployed"
  | .mixed => "partial"

/-- The state of a pipeline whose stages disagree: the gravest state decides. -/
def ofDisagreeing (states : List StageState) : PipelineState :=
  if .error ∈ states then .error
  else if .failed ∈ states then .failed
  else if .deploying ∈ states then .deploying
  else .mixed

/-- The state of a pipeline with the given states of its stages. A state that all share is the
state of the pipeline, and a pipeline without stages is in error. -/
def ofStages : List StageState → PipelineState
  | [] => .error
  | state :: rest =>
    if ∀ other ∈ rest, other = state then state.agreed else ofDisagreeing (state :: rest)

end PipelineState

end Rollout
