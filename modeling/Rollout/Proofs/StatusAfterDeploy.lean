-- What the state of a pipeline tells right after deploying it. If all stages were started it is
-- the state of a started stage; if the deployer refused one it is that of a failure, whatever
-- became of the other stages before; and if planning failed nothing has changed.
import Mathlib.Data.List.Nodup
import Mathlib.Data.List.Perm.Basic
import Rollout.Proofs.Asking
import Rollout.Proofs.DeployEndings

namespace Rollout

/-! ## One entry for each stage -/

theorem SortedMap.nodup_toList {κ ν : Type} [Ord κ] [Std.TransOrd κ] [Std.LawfulEqOrd κ]
    (m : SortedMap κ ν) : m.toList.Nodup := by
  rw [List.nodup_iff_pairwise_ne]
  apply m.sorted.imp
  rintro a _ hlt rfl
  have heq : compare a.1 a.1 = .eq := Std.ReflCmp.compare_self
  rw [heq] at hlt
  cases hlt

namespace MemoryDeployer

/-- The states of different stages are kept apart: there is one entry for each of them. -/
theorem toList_statesOf_perm (d : MemoryDeployer) {ids : List StageId} (h : ids.Nodup) :
    (d.statesOf ids).toList.Perm (ids.map fun id => (id, d.state id)) := by
  rw [List.perm_ext_iff_of_nodup (SortedMap.nodup_toList _)]
  · rintro ⟨id, state⟩
    rw [← SortedMap.get?_eq_some_iff, get?_statesOf, List.mem_map]
    constructor
    · intro hget
      split at hget
      · next hid =>
        cases hget
        exact ⟨id, hid, rfl⟩
      · cases hget
    · rintro ⟨id', hid, heq⟩
      cases heq
      rw [if_pos hid]
  · apply List.Nodup.map _ h
    intro a b hab
    exact congrArg Prod.fst hab

theorem state_askEach (d : MemoryDeployer) (ids : List StageId) (id : StageId) :
    (d.askEach ids).state id = d.state id :=
  Traversal.foldl_unchanged (f := fun d asked => d.record .status asked) (g := (·.state id))
    (fun _ _ => rfl) d ids

theorem instruction?_askEach (d : MemoryDeployer) (ids : List StageId) (id : StageId) :
    (d.askEach ids).instruction? id = d.instruction? id :=
  Traversal.foldl_unchanged (f := fun d asked => d.record .status asked) (g := (·.instruction? id))
    (fun _ _ => rfl) d ids

end MemoryDeployer

/-- Asking for a pipeline leads from one site to the other, with a report that has one entry for
each stage: the state that the deployer knows of it. Asking changes no stage. -/
structure Tells (p : Pipeline) (s s' : Site MemoryDeployer) (report : StatusReport) : Prop where
  pipeline_eq : report.pipeline = p.name
  stages_perm : report.stages.toList.Perm (p.stages.map fun stage =>
    (⟨p.name, stage.label⟩, s.deployer.state ⟨p.name, stage.label⟩))
  unchanged : ∀ id, s'.deployer.state id = s.deployer.state id ∧
    s'.deployer.instruction? id = s.deployer.instruction? id

theorem Pipeline.ids_eq_map_label (p : Pipeline) :
    p.ids = p.stages.map fun stage => ⟨p.name, stage.label⟩ := by
  apply List.map_congr_left
  intro stage hstage
  rw [← p.group_eq stage hstage]
  rfl

theorem tells_of_status {p : Pipeline} {s s' : Site MemoryDeployer} {report : StatusReport}
    (h : Coordinator.status p s = (s', .ok report)) : Tells p s s' report := by
  rw [Coordinator.status_eq] at h
  obtain ⟨rfl, hreport⟩ := Prod.mk.inj h
  cases hreport
  refine ⟨rfl, ?_, fun id => ⟨?_, ?_⟩⟩
  · have hperm := s.deployer.toList_statesOf_perm p.ids_nodup
    rw [p.ids_eq_map_label, List.map_map] at hperm
    rw [p.ids_eq_map_label]
    exact hperm
  · exact s.deployer.state_askEach p.ids id
  · exact s.deployer.instruction?_askEach p.ids id

/-! ## A stage that failed -/

theorem PipelineState.ofStages_of_failed {states : List StageState} (h : .failed ∈ states) :
    ofStages states = if .error ∈ states then .error else .failed := by
  rw [ofStages_of_grave h (Or.inr (Or.inl rfl))]
  unfold ofDisagreeing
  rw [if_pos h]

theorem Status.told_of_failed {p : Pipeline} {d : MemoryDeployer} {id : StageId}
    (hid : id ∈ p.ids) (h : d.state id = .failed) :
    told p d = if .error ∈ p.ids.map d.state then .error else .failed := by
  have hvalues : ∀ state, state ∈ (d.statesOf p.ids).values ↔ state ∈ p.ids.map d.state := by
    intro state
    rw [MemoryDeployer.mem_values_statesOf, List.mem_map]
  unfold told
  rw [PipelineState.ofStages_of_failed]
  · simp only [hvalues]
  · rw [hvalues]
    exact List.mem_map.2 ⟨id, hid, h⟩

/-! ## The law -/

/-- What the report on a pipeline says of how deploying it ended, which led from one site to the
other. -/
def Reflects (p : Pipeline) (s s' : Site MemoryDeployer) (report : StatusReport) :
    Except Fault Plan → Prop
  | .ok _ =>
    report.state =
      if s.deployer.deployState = .unknown then .undeployed else s.deployer.deployState.lift
  | .error (.deployer _) =>
    report.state = if .error ∈ p.ids.map s'.deployer.state then .error else .failed
  | .error _ => (Coordinator.status p s).2 = .ok report

theorem StageState.agreed_eq (s : StageState) :
    s.agreed = if s = .unknown then .undeployed else s.lift := by
  cases s <;> rfl

/-- Asking for a pipeline right after deploying it always succeeds, and the answer reflects how
deploying ended. -/
theorem status_reflects_how_deploying_ended (c : Coordinator) (p : Pipeline)
    (overrides : Properties) (s : Site MemoryDeployer) :
    ∃ s' report, Coordinator.status p (c.deploy p overrides s).1 = (s', .ok report) ∧
      Tells p (c.deploy p overrides s).1 s' report ∧
      Reflects p s (c.deploy p overrides s).1 report (c.deploy p overrides s).2 := by
  have hstatus := Coordinator.status_eq p (c.deploy p overrides s).1
  refine ⟨_, _, hstatus, tells_of_status hstatus, ?_⟩
  obtain ⟨ending, hends⟩ := exists_ends c p overrides s
  cases ending with
  | unplanned fault =>
    obtain ⟨_, hplanning, hdeploy⟩ := hends
    rw [hdeploy]
    cases fault with
    | deployer fault => cases hplanning
    | _ => exact congrArg Prod.snd (Coordinator.status_eq p s)
  | complete made =>
    obtain ⟨_, hids, hcomplete⟩ := hends
    rw [hcomplete.answer_eq]
    have hstarted : ∀ id ∈ p.ids,
        (c.deploy p overrides s).1.deployer.state id = s.deployer.deployState := by
      intro id hid
      rw [← List.mem_reverse, ← hids] at hid
      obtain ⟨i, hi, rfl⟩ := List.mem_map.1 hid
      exact (hcomplete.leaves.started i hi).1
    exact (Status.told_of_agree hstarted).trans (StageState.agreed_eq _)
  | stopped made place id reason =>
    obtain ⟨_, hids, hstopped, _⟩ := hends
    rw [hstopped.answer_eq]
    have hid : id ∈ p.ids := by
      rw [← List.mem_reverse, ← hids]
      exact List.mem_of_getElem? hstopped.at_place
    exact Status.told_of_failed hid hstopped.failed

end Rollout
