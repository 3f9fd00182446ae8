-- Starting the stages of a plan and taking down those of a pipeline, one request after the other.
-- The first failure ends the work; what was done before it stays done.
import Rollout.Event

namespace Rollout

/-- What work with a deployer leads to: what becomes of the deployer, the events, and the answer.
There can be events before a fault. -/
structure Outcome (δ α : Type) where
  deployer : δ
  events : List Event
  result : Except Fault α

/-- Which stages of a pipeline were taken down and which needed not to be. -/
structure Takedown where
  undeployed : List StageId := []
  skipped : List StageId := []
  deriving DecidableEq, Inhabited

def Takedown.count (r : Takedown) : Nat := r.undeployed.length

namespace Outcome

variable {δ α β : Type}

/-- Work that failed at the deployer. -/
def failed (d : δ) (fault : DeployerFault) : Outcome δ α :=
  ⟨d, [], .error (.deployer fault)⟩

/-- Work with an event before it and a change of its answer. -/
def after (o : Outcome δ α) (e : Event) (f : α → β) : Outcome δ β :=
  ⟨o.deployer, e :: o.events, o.result.map f⟩

/-- Work with an event at its end, unless it failed. -/
def closing (o : Outcome δ α) (e : α → Event) : Outcome δ α :=
  match o.result with
  | .ok a => { o with events := o.events ++ [e a] }
  | .error _ => o

theorem deployer_closing (o : Outcome δ α) (e : α → Event) :
    (o.closing e).deployer = o.deployer := by
  unfold closing
  split <;> rfl

end Outcome

namespace Lifecycle

variable {δ : Type} [Deployer δ]

/-- Starts stages in order; the answer lists them. -/
def issue (plan : PlanId) : List Instruction → δ → Outcome δ (List StageId)
  | [], d => ⟨d, [], .ok []⟩
  | i :: rest, d =>
    match Deployer.deploy d i with
    | (d', .error fault) => .failed d' fault
    | (d', .ok ()) =>
      (issue plan rest d').after
        (.ofStage .deployRequested i.deploymentId (.deployed plan i.role i.coordinates))
        (i.deploymentId :: ·)

def deploy (plan : Plan) (d : δ) : Outcome δ (List StageId) :=
  (issue plan.id plan.instructions d).closing fun ids =>
    .ofPipeline .pipelineDeployed plan.pipeline (.planDone plan.id ids.length)

/-- Takes down those of the stages, in order, that the deployer says are there. -/
def withdraw : List StageId → δ → Outcome δ Takedown
  | [], d => ⟨d, [], .ok {}⟩
  | id :: rest, d =>
    match Deployer.status d id with
    | (d', .error fault) => .failed d' fault
    | (d', .ok state) =>
      if state.isAbsent then
        (withdraw rest d').after (.ofStage .undeploySkipped id (.skipped state)) fun r =>
          { r with skipped := id :: r.skipped }
      else
        match Deployer.undeploy d' id with
        | (d'', .error fault) => .failed d'' fault
        | (d'', .ok ()) =>
          (withdraw rest d'').after (.ofStage .undeployRequested id (.takenDown state)) fun r =>
            { r with undeployed := id :: r.undeployed }

/-- Takes down the stages of a pipeline that are there, in the order in which data flows. -/
def undeploy (p : Pipeline) (d : δ) : Outcome δ Takedown :=
  (withdraw p.ids d).closing fun r =>
    .ofPipeline .pipelineUndeployed p.name (.tally r.undeployed.length r.skipped.length)

end Lifecycle

end Rollout
