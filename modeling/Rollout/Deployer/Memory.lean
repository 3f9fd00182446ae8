-- A deployer that starts nothing: it remembers the state and the instruction of each stage, the
-- stages it is to refuse, and the requests it received. Every stage has a state and an
-- instruction of its own, which requests about other stages leave as they are.
import Rollout.Deployer.Basic

namespace Rollout

structure MemoryDeployer where
  states : SortedMap StageId StageState := ∅
  instructions : SortedMap StageId Instruction := ∅
  /-- The stages to refuse, with the reasons. -/
  refusals : SortedMap StageId String := ∅
  log : CallLog := {}
  /-- The state of a stage that was started. -/
  deployState : StageState := .deployed
  deriving DecidableEq

namespace MemoryDeployer

instance : Inhabited MemoryDeployer := ⟨{}⟩

/-- A deployer that was asked nothing yet. -/
def new (deployState : StageState) (callLimit : Nat) : MemoryDeployer :=
  { deployState := deployState, log := { limit := callLimit } }

def state (d : MemoryDeployer) (id : StageId) : StageState :=
  (d.states.get? id).getD .unknown

/-- The instruction of a stage that was started and not taken down. -/
def instruction? (d : MemoryDeployer) (id : StageId) : Option Instruction :=
  d.instructions.get? id

/-- Why a stage is refused, if it is. -/
def refusal? (d : MemoryDeployer) (id : StageId) : Option String :=
  d.refusals.get? id

def calls (d : MemoryDeployer) : List Call := d.log.calls

/-- Refuses a stage from now on. -/
def refuse (d : MemoryDeployer) (id : StageId) (reason : String) : MemoryDeployer :=
  { d with refusals := d.refusals.insert id reason }

def overrideState (d : MemoryDeployer) (id : StageId) (state : StageState) : MemoryDeployer :=
  { d with states := d.states.insert id state }

def forgetCalls (d : MemoryDeployer) : MemoryDeployer := { d with log := d.log.clear }

def record (d : MemoryDeployer) (kind : CallKind) (id : StageId) : MemoryDeployer :=
  { d with log := d.log.record ⟨kind, id⟩ }

/-- Starts a stage. One that is refused has failed, and keeps the instruction it had. -/
def deploy (d : MemoryDeployer) (i : Instruction) : MemoryDeployer × Except DeployerFault Unit :=
  let noted := d.record .deploy i.deploymentId
  match d.refusal? i.deploymentId with
  | some reason =>
    (noted.overrideState i.deploymentId .failed, .error (.rejected i.deploymentId.text reason))
  | none =>
    ({ noted.overrideState i.deploymentId d.deployState with
        instructions := d.instructions.insert i.deploymentId i }, .ok ())

/-- Takes a stage down, whether it was started or not. -/
def undeploy (d : MemoryDeployer) (id : StageId) : MemoryDeployer × Except DeployerFault Unit :=
  ({ (d.record .undeploy id).overrideState id .undeployed with
      instructions := d.instructions.erase id }, .ok ())

def status (d : MemoryDeployer) (id : StageId) :
    MemoryDeployer × Except DeployerFault StageState :=
  (d.record .status id, .ok (d.state id))

instance : Deployer MemoryDeployer := ⟨deploy, undeploy, status⟩

/-! ## Laws -/

@[simp] theorem state_record (d : MemoryDeployer) (kind : CallKind) (id id' : StageId) :
    (d.record kind id).state id' = d.state id' := rfl

@[simp] theorem instruction?_record (d : MemoryDeployer) (kind : CallKind)
    (id id' : StageId) : (d.record kind id).instruction? id' = d.instruction? id' := rfl

theorem state_overrideState (d : MemoryDeployer) (id id' : StageId) (s : StageState) :
    (d.overrideState id s).state id' = if id' = id then s else d.state id' := by
  simp only [state, overrideState, SortedMap.get?_insert]
  split <;> rfl

@[simp] theorem instruction?_overrideState (d : MemoryDeployer) (id id' : StageId)
    (s : StageState) : (d.overrideState id s).instruction? id' = d.instruction? id' := rfl

theorem refusal?_refuse (d : MemoryDeployer) (id id' : StageId) (reason : String) :
    (d.refuse id reason).refusal? id' = if id' = id then some reason else d.refusal? id' := by
  simp [refusal?, refuse, SortedMap.get?_insert]

/-- What a request to start a stage does to the states. -/
theorem state_deploy (d : MemoryDeployer) (i : Instruction) (id : StageId) :
    (d.deploy i).1.state id =
      if id = i.deploymentId then
        if (d.refusal? i.deploymentId).isSome then .failed else d.deployState
      else d.state id := by
  unfold deploy
  split
  · next h => simp [state_overrideState, h]
  · next h =>
    show (overrideState _ i.deploymentId d.deployState).state id = _
    simp [state_overrideState, h]

theorem instruction?_deploy (d : MemoryDeployer) (i : Instruction) (id : StageId) :
    (d.deploy i).1.instruction? id =
      if id = i.deploymentId ∧ d.refusal? i.deploymentId = none then some i
      else d.instruction? id := by
  unfold deploy
  split
  · next h => simp [h]
  · next h => simp [instruction?, h, SortedMap.get?_insert]

/-- What a request to take a stage down does to the states. -/
theorem state_undeploy (d : MemoryDeployer) (id id' : StageId) :
    (d.undeploy id).1.state id' = if id' = id then .undeployed else d.state id' := by
  show (overrideState _ id .undeployed).state id' = _
  simp [state_overrideState]

theorem instruction?_undeploy (d : MemoryDeployer) (id id' : StageId) :
    (d.undeploy id).1.instruction? id' = if id' = id then none else d.instruction? id' := by
  simp [undeploy, instruction?, SortedMap.get?_erase]

end MemoryDeployer

end Rollout
