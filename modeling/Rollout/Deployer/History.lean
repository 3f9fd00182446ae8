-- The history of a deployer that only remembers: what was asked of it and changed in it, oldest
-- first. What a history says of a stage is told without a deployer: the last dealing that sets the
-- state of the stage decides the state, and the last start that was not refused the instruction.
-- The requests it tells of are those since the calls were forgotten last.
import Mathlib.Data.List.DropRight
import Rollout.Deployer.Memory

namespace Rollout

/-- What can be done with a deployer that only remembers. -/
inductive Dealing where
  | deploy (i : Instruction)
  | undeploy (id : StageId)
  | status (id : StageId)
  /-- Has the deployer refuse a stage from now on. -/
  | refuse (id : StageId) (reason : String)
  | overrideState (id : StageId) (state : StageState)
  | forgetCalls

namespace MemoryDeployer

/-- The deployer after a dealing, whatever it answered. -/
def deal (d : MemoryDeployer) : Dealing → MemoryDeployer
  | .deploy i => (d.deploy i).1
  | .undeploy id => (d.undeploy id).1
  | .status id => (d.status id).1
  | .refuse id reason => d.refuse id reason
  | .overrideState id state => d.overrideState id state
  | .forgetCalls => d.forgetCalls

/-- The deployer after a history. -/
def dealEach (d : MemoryDeployer) (history : List Dealing) : MemoryDeployer :=
  history.foldl deal d

end MemoryDeployer

namespace Dealing

/-- Tells whether a dealing sets the state of a stage. -/
def setsState (id : StageId) : Dealing → Bool
  | .deploy i => i.deploymentId = id
  | .undeploy other => other = id
  | .overrideState other _ => other = id
  | .status _ | .refuse _ _ | .forgetCalls => false

/-- Tells whether a dealing can make a difference to a stage: it sets its state, or has it refused
from then on. -/
def concerns (id : StageId) : Dealing → Bool
  | .refuse other _ => other = id
  | a => a.setsState id

/-- The request that the deployer receives by a dealing, if it does. -/
def request? : Dealing → Option Call
  | .deploy i => some ⟨.deploy, i.deploymentId⟩
  | .undeploy id => some ⟨.undeploy, id⟩
  | .status id => some ⟨.status, id⟩
  | .refuse _ _ | .overrideState _ _ | .forgetCalls => none

def isForgetting : Dealing → Bool
  | .forgetCalls => true
  | _ => false

end Dealing

/-! ## What a history says of requests -/

/-- The requests received since the calls were forgotten last, or from the start if they never
were, oldest first. -/
def received (history : List Dealing) : List Call :=
  (history.rtakeWhile fun a => !a.isForgetting).filterMap Dealing.request?

/-! ## What a history says of a stage -/

/-- The history has a stage refused. -/
def Refused (history : List Dealing) (id : StageId) : Prop :=
  ∃ reason, .refuse id reason ∈ history

/-- After the history, an instruction is one for the stage, and the stage is not refused. -/
def Accepts (history : List Dealing) (id : StageId) (i : Instruction) : Prop :=
  i.deploymentId = id ∧ ¬ Refused history id

/-- The state that a history leaves a stage in, where stages that are started get the given one. -/
inductive LeavesState (deployState : StageState) (id : StageId) :
    List Dealing → StageState → Prop
  | unheard {history : List Dealing} : (∀ a ∈ history, a.setsState id = false) →
      LeavesState deployState id history .unknown
  | deployed {before : List Dealing} {i : Instruction} {after : List Dealing} :
      Accepts before id i → (∀ a ∈ after, a.setsState id = false) →
      LeavesState deployState id (before ++ .deploy i :: after) deployState
  | refused {before : List Dealing} {i : Instruction} {after : List Dealing} :
      i.deploymentId = id → Refused before id → (∀ a ∈ after, a.setsState id = false) →
      LeavesState deployState id (before ++ .deploy i :: after) .failed
  | undeployed {before after : List Dealing} : (∀ a ∈ after, a.setsState id = false) →
      LeavesState deployState id (before ++ .undeploy id :: after) .undeployed
  | overridden {before : List Dealing} {state : StageState} {after : List Dealing} :
      (∀ a ∈ after, a.setsState id = false) →
      LeavesState deployState id (before ++ .overrideState id state :: after) state

/-- The instruction that a history leaves with a stage: the one that was accepted for it last, if
the stage was not taken down after that. -/
inductive LeavesInstruction (id : StageId) : List Dealing → Instruction → Prop
  | held {before : List Dealing} {i : Instruction} {after : List Dealing} :
      Accepts before id i →
      (∀ between j later, after = between ++ .deploy j :: later →
        ¬ Accepts (before ++ .deploy i :: between) id j) →
      .undeploy id ∉ after →
      LeavesInstruction id (before ++ .deploy i :: after) i

end Rollout
