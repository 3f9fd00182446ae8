-- The state of a pipeline that was taken down. Taking down leaves a stage that the deployer never
-- heard of as it is, and undeploys the others; so the pipeline counts as undeployed unless the
-- deployer had heard of some of its stages and not of others.
import Rollout.Linear
import Rollout.Proofs.Asking
import Rollout.Proofs.TakingDown
import Rollout.Proofs.Traversal

namespace Rollout

/-! ## The stages -/

theorem MemoryDeployer.state_sweepEach_of_mem (d : MemoryDeployer) {ids : List StageId}
    {id : StageId} (h : id ∈ ids) :
    (d.sweepEach ids).state id = if d.state id = .unknown then .unknown else .undeployed := by
  rw [state_sweepEach]
  cases hstate : d.state id <;> simp [h, StageState.isAbsent]

/-! ## The pipeline -/

/-- The deployer has heard of all stages of the pipeline or of none. -/
def HeardAlike (p : Pipeline) (d : MemoryDeployer) : Prop :=
  (∀ id ∈ p.ids, d.state id = .unknown) ∨ ∀ id ∈ p.ids, d.state id ≠ .unknown

theorem told_of_heardAlike {p : Pipeline} {d : MemoryDeployer} (h : HeardAlike p d) :
    Status.told p (d.sweepEach p.ids) = .undeployed := by
  rcases h with hnone | hall
  · have hstates : ∀ id ∈ p.ids, (d.sweepEach p.ids).state id = .unknown := by
      intro id hid
      rw [d.state_sweepEach_of_mem hid, if_pos (hnone id hid)]
    exact Status.told_of_agree hstates
  · have hstates : ∀ id ∈ p.ids, (d.sweepEach p.ids).state id = .undeployed := by
      intro id hid
      rw [d.state_sweepEach_of_mem hid, if_neg (hall id hid)]
    exact Status.told_of_agree hstates

theorem told_of_not_heardAlike {p : Pipeline} {d : MemoryDeployer} (h : ¬ HeardAlike p d) :
    Status.told p (d.sweepEach p.ids) = .mixed := by
  unfold HeardAlike at h
  simp only [not_or, Classical.not_forall, Classical.not_not, exists_prop] at h
  obtain ⟨⟨id, hid, hheard⟩, id', hid', hunheard⟩ := h
  have hstate : (d.sweepEach p.ids).state id = .undeployed := by
    rw [d.state_sweepEach_of_mem hid, if_neg hheard]
  have hstate' : (d.sweepEach p.ids).state id' = .unknown := by
    rw [d.state_sweepEach_of_mem hid', if_pos hunheard]
  rw [Status.told_of_disagree hid hid' (by rw [hstate, hstate']; decide)]
  -- No stage is in a state that would decide for the whole.
  have hleft : ∀ state, state ≠ .unknown → state ≠ .undeployed →
      state ∉ ((d.sweepEach p.ids).statesOf p.ids).values := by
    intro state hne hne' hmem
    obtain ⟨other, hother, rfl⟩ := MemoryDeployer.mem_values_statesOf.1 hmem
    rw [d.state_sweepEach_of_mem hother] at hne hne'
    split at hne
    · exact hne rfl
    · exact hne' (by rw [if_neg (by assumption)])
  unfold PipelineState.ofDisagreeing
  rw [if_neg (hleft .error (by decide) (by decide)),
    if_neg (hleft .failed (by decide) (by decide)),
    if_neg (hleft .deploying (by decide) (by decide))]

/-- Taking a pipeline down and asking for it right after always succeeds. The pipeline counts as
undeployed exactly if the deployer had heard of all its stages or of none, and else as partial. -/
theorem torn_down_counts_as_undeployed_if_heard_alike (p : Pipeline) (s : Site MemoryDeployer) :
    ∃ s₁ takedown s₂ report,
      Coordinator.undeploy p s = (s₁, .ok takedown) ∧
      Coordinator.status p s₁ = (s₂, .ok report) ∧
      (report.state = .undeployed ↔ HeardAlike p s.deployer) ∧
      (report.state ≠ .undeployed → report.state = .mixed) := by
  refine ⟨_, _, _, _, Coordinator.undeploy_eq p s, Coordinator.status_eq p _, ?_⟩
  by_cases h : HeardAlike p s.deployer
  · have htold := told_of_heardAlike h
    exact ⟨⟨fun _ => h, fun _ => htold⟩, fun hne => absurd htold hne⟩
  · have htold := told_of_not_heardAlike h
    refine ⟨⟨?_, fun hheard => absurd hheard h⟩, fun _ => htold⟩
    intro hreport
    exact absurd (htold.symm.trans hreport) (by decide)

/-- A site whose deployer has no room for the last stage of a pipeline. -/
def fullSite : Site MemoryDeployer where
  deployer := (default : MemoryDeployer).refuse ⟨"ticktock", "log"⟩ "no room"

/-- Deploying asks for the last stage first; that one is refused, and the deployer never hears of
the first one. So the pipeline counts as partial even when it is taken down. -/
theorem refused_and_torn_down_counts_as_partial :
    ∃ (l : Linear) (s₁ s₂ s₃ : Site MemoryDeployer) (fault : Fault) (takedown : Takedown)
      (report : StatusReport),
      Linear.build "ticktock" ["time", "log"] = .ok l ∧
      Coordinator.deploy ⟨l.registry, {}⟩ l.pipeline ∅ fullSite = (s₁, .error fault) ∧
      Coordinator.undeploy l.pipeline s₁ = (s₂, .ok takedown) ∧
      Coordinator.status l.pipeline s₂ = (s₃, .ok report) ∧
      report.state = .mixed ∧ report.state ≠ .undeployed := by
  have hrun : ((Linear.build "ticktock" ["time", "log"]).toOption.map fun l =>
      let answer := Coordinator.deploy ⟨l.registry, {}⟩ l.pipeline ∅ fullSite
      (answer.2.toOption.isNone,
        Status.told l.pipeline (answer.1.deployer.sweepEach l.pipeline.ids))) =
      some (true, .mixed) := by
    decide +kernel
  obtain ⟨l, hl, hanswer⟩ := Option.map_eq_some_iff.1 hrun
  rw [Traversal.toOption_eq_some_iff] at hl
  obtain ⟨hfails, htold⟩ := Prod.mk.inj hanswer
  cases hdeploy : Coordinator.deploy ⟨l.registry, {}⟩ l.pipeline ∅ fullSite with
  | mk s₁ result =>
    rw [hdeploy] at hfails htold
    cases result with
    | ok made => cases hfails
    | error fault =>
      have hundeploy := Coordinator.undeploy_eq l.pipeline s₁
      refine ⟨l, s₁, _, _, fault, _, _, hl, hdeploy, hundeploy,
        Coordinator.status_eq l.pipeline _, htold, ?_⟩
      intro hreport
      exact absurd (htold.symm.trans hreport) (by decide)

end Rollout
