-- The state of a pipeline as the deployer tells it: each stage is asked for, and the answers make
-- the state of the whole.
import Rollout.Lifecycle

namespace Rollout

structure StatusReport where
  pipeline : String
  state : PipelineState
  stages : SortedMap StageId StageState
  deriving DecidableEq

namespace Status

variable {δ : Type} [Deployer δ]

/-- Asks for the states of stages in order and adds them to those known. -/
def ask : List StageId → SortedMap StageId StageState → δ →
    δ × Except Fault (SortedMap StageId StageState)
  | [], known, d => (d, .ok known)
  | id :: rest, known, d =>
    match Deployer.status d id with
    | (d', .error fault) => (d', .error (.deployer fault))
    | (d', .ok state) => ask rest (known.insert id state) d'

def byStage (p : Pipeline) (d : δ) : δ × Except Fault (SortedMap StageId StageState) :=
  ask p.ids ∅ d

def aggregate (p : Pipeline) (d : δ) : δ × Except Fault PipelineState :=
  let (d', states) := byStage p d
  (d', states.map fun m => PipelineState.ofStages m.values)

/-- The state of a pipeline and those of its stages; an event tells of it. -/
def query (p : Pipeline) (d : δ) : Outcome δ StatusReport :=
  let (d', states) := byStage p d
  let status := states.map fun m => ⟨p.name, PipelineState.ofStages m.values, m⟩
  Outcome.closing ⟨d', [], status⟩ fun s =>
    .ofPipeline .stateComputed p.name (.computed s.state)

end Status

end Rollout
