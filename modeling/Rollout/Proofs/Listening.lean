-- A deployer that is listened to: every request that reaches it is noted, with the answer. It
-- answers as it would unheard, so that all work over it comes to the same; and what is noted of a
-- deployer that only remembers is what that deployer logs.
import Rollout.Proofs.SideBySide
import Rollout.Proofs.Starting

namespace Rollout

/-- A request that reached a deployer, with the answer. -/
inductive Exchange where
  | deploy (id : StageId) (answer : Except DeployerFault Unit)
  | undeploy (id : StageId) (answer : Except DeployerFault Unit)
  | status (id : StageId) (answer : Except DeployerFault StageState)

namespace Exchange

/-- The request without its answer. -/
def call : Exchange → Call
  | .deploy id _ => ⟨.deploy, id⟩
  | .undeploy id _ => ⟨.undeploy, id⟩
  | .status id _ => ⟨.status, id⟩

/-- The stage that the deployer started, if it started one. -/
def started? : Exchange → Option StageId
  | .deploy id (.ok _) => some id
  | _ => none

/-- The stage that the deployer was asked to take down, if it was asked that. -/
def undeploy? : Exchange → Option StageId
  | .undeploy id _ => some id
  | _ => none

/-- The stage of which the deployer said that there is nothing to take down, if it said that. -/
def absent? : Exchange → Option StageId
  | .status id (.ok state) => if state.isAbsent then some id else none
  | _ => none

end Exchange

/-- A deployer with the requests that reached it, oldest first. -/
structure Heard (δ : Type) where
  deployer : δ
  exchanges : List Exchange := []

namespace Heard

variable {δ α : Type}

/-- Puts a request to the deployer and notes it. -/
def note (h : Heard δ) (ask : δ → δ × Except DeployerFault α)
    (exchange : Except DeployerFault α → Exchange) : Heard δ × Except DeployerFault α :=
  (⟨(ask h.deployer).1, h.exchanges ++ [exchange (ask h.deployer).2]⟩, (ask h.deployer).2)

variable [Deployer δ]

instance : Deployer (Heard δ) where
  deploy h i := h.note (Deployer.deploy · i) (.deploy i.deploymentId)
  undeploy h id := h.note (Deployer.undeploy · id) (.undeploy id)
  status h id := h.note (Deployer.status · id) (.status id)

/-- The requests that work puts to a deployer. -/
def requests (work : Heard δ → Outcome (Heard δ) α) (d : δ) : List Call :=
  (work ⟨d, []⟩).deployer.exchanges.map Exchange.call

/-! ## Laws -/

theorem deploy_eq (h : Heard δ) (i : Instruction) :
    Deployer.deploy h i =
      (⟨(Deployer.deploy h.deployer i).1,
          h.exchanges ++ [.deploy i.deploymentId (Deployer.deploy h.deployer i).2]⟩,
        (Deployer.deploy h.deployer i).2) := rfl

/-- A deployer that is listened to answers as it would unheard. -/
theorem tandem : Tandem fun (h : Heard δ) (d : δ) => h.deployer = d where
  deploy := by
    rintro h _ rfl i
    exact ⟨_, _, _, rfl, rfl, rfl⟩
  undeploy := by
    rintro h _ rfl id
    exact ⟨_, _, _, rfl, rfl, rfl⟩
  status := by
    rintro h _ rfl id
    exact ⟨_, _, _, rfl, rfl, rfl⟩

theorem status_eq (h : Heard MemoryDeployer) (id : StageId) :
    Deployer.status h id =
      (⟨h.deployer.record .status id, h.exchanges ++ [.status id (.ok (h.deployer.state id))]⟩,
        .ok (h.deployer.state id)) := rfl

/-- The log is that of the requests noted, after an earlier log. -/
def Logs (before : CallLog) (h : Heard MemoryDeployer) : Prop :=
  h.deployer.log = (h.exchanges.map Exchange.call).foldl CallLog.record before

theorem logs_note {before : CallLog} {h : Heard MemoryDeployer} (hlogs : Logs before h)
    {ask : MemoryDeployer → MemoryDeployer × Except DeployerFault α}
    {exchange : Except DeployerFault α → Exchange}
    (hask : ∀ d, (ask d).1.log = d.log.record (exchange (ask d).2).call) :
    Logs before (h.note ask exchange).1 := by
  unfold Logs note
  rw [hask, List.map_append, List.foldl_append, ← hlogs]
  rfl

theorem logs_kept (before : CallLog) : Kept (Logs before) where
  deploy := by
    intro h hlogs i
    exact logs_note hlogs fun d => d.log_deploy i
  undeploy := by
    intro h hlogs id
    exact logs_note hlogs fun _ => rfl
  status := by
    intro h hlogs id
    exact logs_note hlogs fun _ => rfl

end Heard

/-- The site with its deployer listened to from now on. -/
def Site.listened {δ : Type} (s : Site δ) : Site (Heard δ) :=
  ⟨⟨s.deployer, []⟩, s.sink, s.events, s.plans⟩

theorem Site.listened_matches {δ : Type} (s : Site δ) :
    s.listened.Matches (fun h d => h.deployer = d) s :=
  ⟨rfl, rfl, rfl, rfl⟩

end Rollout
