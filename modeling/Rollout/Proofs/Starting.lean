-- Starting stages, one request after the other, at a deployer that only remembers. The deployer
-- is left as by the requests it received, and it received all up to the first one it refused.
import Rollout.Deployer.Memory
import Rollout.Lifecycle
import Rollout.Proofs.Traversal

namespace Rollout

namespace MemoryDeployer

/-! ## One request -/

theorem refusals_deploy (d : MemoryDeployer) (i : Instruction) :
    (d.deploy i).1.refusals = d.refusals := by
  unfold deploy
  split <;> rfl

theorem deployState_deploy (d : MemoryDeployer) (i : Instruction) :
    (d.deploy i).1.deployState = d.deployState := by
  unfold deploy
  split <;> rfl

theorem log_deploy (d : MemoryDeployer) (i : Instruction) :
    (d.deploy i).1.log = d.log.record ⟨.deploy, i.deploymentId⟩ := by
  unfold deploy
  split <;> rfl

theorem refusal?_deploy (d : MemoryDeployer) (i : Instruction) (id : StageId) :
    (d.deploy i).1.refusal? id = d.refusal? id := by
  unfold refusal?
  rw [refusals_deploy]

theorem deploy_of_accepted {d : MemoryDeployer} {i : Instruction}
    (h : d.refusal? i.deploymentId = none) : d.deploy i = ((d.deploy i).1, .ok ()) := by
  unfold deploy
  rw [h]

theorem deploy_of_refused {d : MemoryDeployer} {i : Instruction} {reason : String}
    (h : d.refusal? i.deploymentId = some reason) :
    d.deploy i = ((d.deploy i).1, .error (.rejected i.deploymentId.text reason)) := by
  unfold deploy
  rw [h]

/-! ## Many requests -/

/-- The deployer after requests to start stages, whatever it answered to them. -/
def deployEach (d : MemoryDeployer) (is : List Instruction) : MemoryDeployer :=
  is.foldl (fun d i => (d.deploy i).1) d

theorem deployEach_cons (d : MemoryDeployer) (i : Instruction) (is : List Instruction) :
    d.deployEach (i :: is) = (d.deploy i).1.deployEach is := rfl

theorem deployEach_concat (d : MemoryDeployer) (is : List Instruction) (i : Instruction) :
    d.deployEach (is ++ [i]) = ((d.deployEach is).deploy i).1 := by
  unfold deployEach
  rw [List.foldl_append]
  rfl

theorem refusals_deployEach (d : MemoryDeployer) (is : List Instruction) :
    (d.deployEach is).refusals = d.refusals :=
  Traversal.foldl_unchanged refusals_deploy d is

theorem deployState_deployEach (d : MemoryDeployer) (is : List Instruction) :
    (d.deployEach is).deployState = d.deployState :=
  Traversal.foldl_unchanged deployState_deploy d is

theorem refusal?_deployEach (d : MemoryDeployer) (is : List Instruction) (id : StageId) :
    (d.deployEach is).refusal? id = d.refusal? id := by
  unfold refusal?
  rw [refusals_deployEach]

theorem log_deployEach (d : MemoryDeployer) (is : List Instruction) :
    (d.deployEach is).log =
      ((is.map Instruction.deploymentId).map (Call.mk .deploy)).foldl CallLog.record d.log := by
  induction is generalizing d with
  | nil => rfl
  | cons i is ih =>
    rw [deployEach_cons, ih, log_deploy]
    rfl

/-- The state of a stage is told by whether a request was about it and whether it is refused. -/
theorem state_deployEach (d : MemoryDeployer) (is : List Instruction) (id : StageId) :
    (d.deployEach is).state id =
      if id ∈ is.map Instruction.deploymentId then
        if (d.refusal? id).isSome then .failed else d.deployState
      else d.state id := by
  induction is generalizing d with
  | nil => rfl
  | cons i is ih =>
    rw [deployEach_cons, ih, refusal?_deploy, deployState_deploy, state_deploy, List.map_cons]
    by_cases hlater : id ∈ is.map Instruction.deploymentId
    · rw [if_pos hlater, if_pos (List.mem_cons_of_mem _ hlater)]
    · rw [if_neg hlater]
      by_cases hid : id = i.deploymentId
      · subst hid
        rw [if_pos rfl, if_pos List.mem_cons_self]
      · rw [if_neg hid, if_neg]
        intro hmem
        rcases List.mem_cons.1 hmem with h | h
        · exact hid h
        · exact hlater h

/-- A stage keeps its instruction if no request was about it. -/
theorem instruction?_deployEach_of_notMem (d : MemoryDeployer) {is : List Instruction}
    {id : StageId} (h : id ∉ is.map Instruction.deploymentId) :
    (d.deployEach is).instruction? id = d.instruction? id := by
  induction is generalizing d with
  | nil => rfl
  | cons i is ih =>
    rw [List.map_cons, List.mem_cons, not_or] at h
    rw [deployEach_cons, ih _ h.2, instruction?_deploy, if_neg]
    intro hid
    exact h.1 hid.1

/-- A stage keeps its instruction if it is refused. -/
theorem instruction?_deployEach_of_refused (d : MemoryDeployer) (is : List Instruction)
    {id : StageId} (h : d.refusal? id ≠ none) :
    (d.deployEach is).instruction? id = d.instruction? id := by
  induction is generalizing d with
  | nil => rfl
  | cons i is ih =>
    rw [deployEach_cons, ih]
    · rw [instruction?_deploy, if_neg]
      rintro ⟨rfl, hnone⟩
      exact h hnone
    · rw [refusal?_deploy]
      exact h

/-- A stage that is not refused has the instruction of the one request about it. -/
theorem instruction?_deployEach_of_mem {d : MemoryDeployer} {is : List Instruction}
    (hnodup : (is.map Instruction.deploymentId).Nodup) {i : Instruction} (hi : i ∈ is)
    (h : d.refusal? i.deploymentId = none) :
    (d.deployEach is).instruction? i.deploymentId = some i := by
  induction is generalizing d with
  | nil => cases hi
  | cons j is ih =>
    rw [List.map_cons, List.nodup_cons] at hnodup
    rw [deployEach_cons]
    rcases List.mem_cons.1 hi with rfl | hi
    · rw [instruction?_deployEach_of_notMem _ hnodup.1, instruction?_deploy, if_pos ⟨rfl, h⟩]
    · apply ih hnodup.2 hi
      rw [refusal?_deploy]
      exact h

/-- All stages are accepted, or some stage is the first that is refused. -/
theorem accepted_or_first_refused (d : MemoryDeployer) (is : List Instruction) :
    (∀ i ∈ is, d.refusal? i.deploymentId = none) ∨
      ∃ before i after reason, is = before ++ i :: after ∧
        (∀ b ∈ before, d.refusal? b.deploymentId = none) ∧
        d.refusal? i.deploymentId = some reason := by
  induction is with
  | nil => exact Or.inl (by simp)
  | cons i is ih =>
    cases hi : d.refusal? i.deploymentId with
    | some reason => exact Or.inr ⟨[], i, is, reason, rfl, by simp, hi⟩
    | none =>
      rcases ih with hall | ⟨before, j, after, reason, rfl, hbefore, hj⟩
      · exact Or.inl (List.forall_mem_cons.2 ⟨hi, hall⟩)
      · exact Or.inr
          ⟨i :: before, j, after, reason, rfl, List.forall_mem_cons.2 ⟨hi, hbefore⟩, hj⟩

end MemoryDeployer

namespace Lifecycle

open MemoryDeployer

/-! ## The work on a plan -/

/-- The event of a stage that was started. -/
def requested (plan : PlanId) (i : Instruction) : Event :=
  .ofStage .deployRequested i.deploymentId (.deployed plan i.role i.coordinates)

/-- Stages that are accepted are started before the work goes on with the others. -/
theorem issue_append_of_accepted (plan : PlanId) {before : List Instruction}
    (rest : List Instruction) {d : MemoryDeployer}
    (h : ∀ b ∈ before, d.refusal? b.deploymentId = none) :
    issue plan (before ++ rest) d =
      ⟨(issue plan rest (d.deployEach before)).deployer,
        before.map (requested plan) ++ (issue plan rest (d.deployEach before)).events,
        (issue plan rest (d.deployEach before)).result.map
          (before.map Instruction.deploymentId ++ ·)⟩ := by
  induction before generalizing d with
  | nil =>
    rw [List.nil_append]
    cases hrest : issue plan rest d with
    | mk d' events result => cases result <;> simp [deployEach, hrest, Except.map]
  | cons b before ih =>
    have hb : Deployer.deploy d b = ((d.deploy b).1, .ok ()) :=
      deploy_of_accepted (h b List.mem_cons_self)
    have hbefore : ∀ j ∈ before, (d.deploy b).1.refusal? j.deploymentId = none := by
      intro j hj
      rw [refusal?_deploy]
      exact h j (List.mem_cons_of_mem b hj)
    rw [List.cons_append, deployEach_cons]
    conv => lhs; unfold issue
    rw [hb]
    simp only
    rw [ih hbefore]
    cases hrest : issue plan rest ((d.deploy b).1.deployEach before) with
    | mk d' events result => cases result <;> rfl

/-- If no stage is refused, all of them are started. -/
theorem issue_of_accepted (plan : PlanId) {is : List Instruction} {d : MemoryDeployer}
    (h : ∀ i ∈ is, d.refusal? i.deploymentId = none) :
    issue plan is d =
      ⟨d.deployEach is, is.map (requested plan), .ok (is.map Instruction.deploymentId)⟩ := by
  have happend := issue_append_of_accepted plan [] h
  simpa [issue, Except.map] using happend

/-- The first stage that is refused is the last one the deployer is asked about. -/
theorem issue_of_refused (plan : PlanId) {before after : List Instruction} {i : Instruction}
    {d : MemoryDeployer} {reason : String}
    (hbefore : ∀ b ∈ before, d.refusal? b.deploymentId = none)
    (hi : d.refusal? i.deploymentId = some reason) :
    issue plan (before ++ i :: after) d =
      ⟨d.deployEach (before ++ [i]), before.map (requested plan),
        .error (.deployer (.rejected i.deploymentId.text reason))⟩ := by
  have hlast : (d.deployEach before).refusal? i.deploymentId = some reason := by
    rw [refusal?_deployEach]
    exact hi
  have hrefused : Deployer.deploy (d.deployEach before) i =
      (d.deployEach (before ++ [i]), .error (.rejected i.deploymentId.text reason)) := by
    rw [deployEach_concat]
    exact deploy_of_refused hlast
  rw [issue_append_of_accepted plan (i :: after) hbefore]
  unfold issue
  rw [hrefused]
  simp [Outcome.failed, Except.map]

end Lifecycle

end Rollout
