-- Taking stages down, one after the other, at a deployer that only remembers. Each stage is asked
-- for, and it is taken down if the deployer says that it is there. The deployer answers all of it,
-- so that taking down never fails.
import Rollout.Coordinator
import Rollout.Deployer.Memory
import Rollout.Proofs.Traversal

namespace Rollout

namespace MemoryDeployer

/-! ## One stage -/

/-- The deployer after one stage was asked for, and taken down if it was there. -/
def sweep (d : MemoryDeployer) (id : StageId) : MemoryDeployer :=
  if (d.state id).isAbsent then d.record .status id else ((d.record .status id).undeploy id).1

theorem refusals_sweep (d : MemoryDeployer) (id : StageId) :
    (d.sweep id).refusals = d.refusals := by
  unfold sweep
  split <;> rfl

theorem deployState_sweep (d : MemoryDeployer) (id : StageId) :
    (d.sweep id).deployState = d.deployState := by
  unfold sweep
  split <;> rfl

/-- The requests about a stage that is to be taken down. -/
def sweepCalls (d : MemoryDeployer) (id : StageId) : List Call :=
  if (d.state id).isAbsent then [⟨.status, id⟩] else [⟨.status, id⟩, ⟨.undeploy, id⟩]

/-- What becomes of a state: one of a stage that was there is undeployed, others stay. -/
theorem state_sweep (d : MemoryDeployer) (id id' : StageId) :
    (d.sweep id).state id' =
      if id' = id ∧ (d.state id').isAbsent = false then .undeployed else d.state id' := by
  unfold sweep
  by_cases hid : id' = id
  · subst hid
    cases habsent : (d.state id').isAbsent <;> simp [state_undeploy]
  · split
    · simp [hid]
    · simp [state_undeploy, hid]

theorem instruction?_sweep (d : MemoryDeployer) (id id' : StageId) :
    (d.sweep id).instruction? id' =
      if id' = id ∧ (d.state id').isAbsent = false then none else d.instruction? id' := by
  unfold sweep
  by_cases hid : id' = id
  · subst hid
    cases habsent : (d.state id').isAbsent <;> simp [instruction?_undeploy]
  · split
    · simp [hid]
    · simp [instruction?_undeploy, hid]

theorem state_sweep_of_ne (d : MemoryDeployer) {id id' : StageId} (h : id' ≠ id) :
    (d.sweep id).state id' = d.state id' := by
  rw [state_sweep, if_neg]
  exact fun hid => h hid.1

/-! ## Many stages -/

/-- The deployer after stages were asked for, and taken down where they were there. -/
def sweepEach (d : MemoryDeployer) (ids : List StageId) : MemoryDeployer := ids.foldl sweep d

theorem sweepEach_cons (d : MemoryDeployer) (id : StageId) (ids : List StageId) :
    d.sweepEach (id :: ids) = (d.sweep id).sweepEach ids := rfl

theorem refusals_sweepEach (d : MemoryDeployer) (ids : List StageId) :
    (d.sweepEach ids).refusals = d.refusals :=
  Traversal.foldl_unchanged refusals_sweep d ids

theorem deployState_sweepEach (d : MemoryDeployer) (ids : List StageId) :
    (d.sweepEach ids).deployState = d.deployState :=
  Traversal.foldl_unchanged deployState_sweep d ids

/-- What one sweep leaves of a stage that is there is left after many. A second one changes
nothing, because the stage is no longer there. -/
theorem view_sweepEach {α : Type} (view : MemoryDeployer → α) (left : α) {id : StageId}
    (hview : ∀ d id', view (d.sweep id') =
      if id = id' ∧ (d.state id).isAbsent = false then left else view d)
    (d : MemoryDeployer) (ids : List StageId) :
    view (d.sweepEach ids) =
      if id ∈ ids ∧ (d.state id).isAbsent = false then left else view d := by
  induction ids generalizing d with
  | nil => simp [sweepEach]
  | cons id' ids ih =>
    have hdown : StageState.undeployed.isAbsent = true := rfl
    rw [sweepEach_cons, ih, state_sweep, hview]
    by_cases hthere : (d.state id).isAbsent = false
    · by_cases hid : id = id'
      · subst hid
        simp [hthere, hdown]
      · simp [hid, hthere]
    · simp [hthere]

theorem state_sweepEach (d : MemoryDeployer) (ids : List StageId) (id : StageId) :
    (d.sweepEach ids).state id =
      if id ∈ ids ∧ (d.state id).isAbsent = false then .undeployed else d.state id :=
  view_sweepEach (·.state id) .undeployed (fun d id' => d.state_sweep id' id) d ids

theorem instruction?_sweepEach (d : MemoryDeployer) (ids : List StageId) (id : StageId) :
    (d.sweepEach ids).instruction? id =
      if id ∈ ids ∧ (d.state id).isAbsent = false then none else d.instruction? id :=
  view_sweepEach (·.instruction? id) none (fun d id' => d.instruction?_sweep id' id) d ids

end MemoryDeployer

namespace Lifecycle

open MemoryDeployer

/-! ## The work on a pipeline -/

/-- The event of a stage that was asked for. -/
def sweepEvent (d : MemoryDeployer) (id : StageId) : Event :=
  if (d.state id).isAbsent then .ofStage .undeploySkipped id (.skipped (d.state id))
  else .ofStage .undeployRequested id (.takenDown (d.state id))

/-- Which of the stages are there and which are not. -/
def takedown (d : MemoryDeployer) (ids : List StageId) : Takedown where
  undeployed := ids.filter fun id => !(d.state id).isAbsent
  skipped := ids.filter fun id => (d.state id).isAbsent

theorem sweepEvent_congr {d d' : MemoryDeployer} {id : StageId} (h : d'.state id = d.state id) :
    sweepEvent d' id = sweepEvent d id := by
  unfold sweepEvent
  rw [h]

theorem takedown_congr {d d' : MemoryDeployer} {ids : List StageId}
    (h : ∀ id ∈ ids, d'.state id = d.state id) : takedown d' ids = takedown d ids := by
  unfold takedown
  congr 1
  · apply List.filter_congr
    intro id hid
    rw [h id hid]
  · apply List.filter_congr
    intro id hid
    rw [h id hid]

/-- One stage is asked for and the work goes on. -/
theorem withdraw_cons (id : StageId) (ids : List StageId) (d : MemoryDeployer) :
    withdraw (id :: ids) d =
      (withdraw ids (d.sweep id)).after (sweepEvent d id) fun r =>
        if (d.state id).isAbsent then { r with skipped := id :: r.skipped }
        else { r with undeployed := id :: r.undeployed } := by
  have hstatus : Deployer.status d id = (d.record .status id, .ok (d.state id)) := rfl
  have hundeploy : Deployer.undeploy (d.record .status id) id =
      (((d.record .status id).undeploy id).1, .ok ()) := rfl
  conv => lhs; unfold withdraw
  rw [hstatus]
  simp only
  unfold sweep sweepEvent
  cases (d.state id).isAbsent with
  | true => rfl
  | false =>
    rw [hundeploy]
    rfl

/-- Different stages are told apart by their states before the work. -/
theorem withdraw_eq {ids : List StageId} (hnodup : ids.Nodup) (d : MemoryDeployer) :
    withdraw ids d = ⟨d.sweepEach ids, ids.map (sweepEvent d), .ok (takedown d ids)⟩ := by
  induction ids generalizing d with
  | nil => rfl
  | cons id ids ih =>
    rw [List.nodup_cons] at hnodup
    have hsame : ∀ id' ∈ ids, (d.sweep id).state id' = d.state id' := by
      intro id' hid'
      apply state_sweep_of_ne
      rintro rfl
      exact hnodup.1 hid'
    have hevents : ids.map (sweepEvent (d.sweep id)) = ids.map (sweepEvent d) :=
      List.map_congr_left fun id' hid' => sweepEvent_congr (hsame id' hid')
    rw [withdraw_cons, ih hnodup.2, hevents, takedown_congr hsame]
    unfold Outcome.after takedown
    rw [sweepEach_cons, List.filter_cons, List.filter_cons]
    cases (d.state id).isAbsent <;> rfl

/-- Taking a pipeline down always comes to its end. -/
theorem undeploy_eq (p : Pipeline) (d : MemoryDeployer) :
    Lifecycle.undeploy p d =
      ⟨d.sweepEach p.ids,
        p.ids.map (sweepEvent d) ++ [.ofPipeline .pipelineUndeployed p.name
          (.tally (takedown d p.ids).undeployed.length (takedown d p.ids).skipped.length)],
        .ok (takedown d p.ids)⟩ := by
  unfold Lifecycle.undeploy
  rw [withdraw_eq p.ids_nodup]
  rfl

end Lifecycle

namespace Coordinator

/-- What taking a pipeline down does to the site and what it answers. -/
theorem undeploy_eq (p : Pipeline) (s : Site MemoryDeployer) :
    undeploy p s =
      ({ s with
          deployer := s.deployer.sweepEach p.ids
          events := s.events.receive s.sink (Lifecycle.undeploy p s.deployer).events },
        .ok (Lifecycle.takedown s.deployer p.ids)) := by
  unfold undeploy Site.work Site.settle
  rw [Lifecycle.undeploy_eq]

end Coordinator

end Rollout
