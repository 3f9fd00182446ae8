-- Taking a pipeline down is exact. The states before the work tell which stages are taken down,
-- which requests are made and what is reported; every other stage stays as it is. So to take a
-- pipeline down again right after is to ask for its stages and to do nothing.
import Rollout.Proofs.Listening
import Rollout.Proofs.TakingDown

namespace Rollout

/-! ## The requests -/

namespace MemoryDeployer

/-- The requests about a stage that is to be taken down, with the answers. -/
def sweepExchanges (d : MemoryDeployer) (id : StageId) : List Exchange :=
  if (d.state id).isAbsent then [.status id (.ok (d.state id))]
  else [.status id (.ok (d.state id)), .undeploy id (.ok ())]

theorem sweepExchanges_congr {d d' : MemoryDeployer} {id : StageId}
    (h : d'.state id = d.state id) : d'.sweepExchanges id = d.sweepExchanges id := by
  unfold sweepExchanges
  rw [h]

theorem map_call_sweepExchanges (d : MemoryDeployer) (id : StageId) :
    (d.sweepExchanges id).map Exchange.call = d.sweepCalls id := by
  unfold sweepExchanges sweepCalls
  split <;> rfl

end MemoryDeployer

namespace Lifecycle

theorem deployer_withdraw_cons (id : StageId) (ids : List StageId)
    (h : Heard MemoryDeployer) :
    (withdraw (id :: ids) h).deployer =
      (withdraw ids
        ⟨h.deployer.sweep id, h.exchanges ++ h.deployer.sweepExchanges id⟩).deployer := by
  conv => lhs; unfold withdraw
  rw [Heard.status_eq]
  unfold MemoryDeployer.sweep MemoryDeployer.sweepExchanges
  simp only
  cases (h.deployer.state id).isAbsent with
  | true => rfl
  | false =>
    simp only [Bool.false_eq_true, if_false]
    rw [List.append_cons h.exchanges _ [.undeploy id (.ok ())]]
    rfl

/-- Different stages are asked for, and taken down, by their states before the work. -/
theorem exchanges_withdraw {ids : List StageId} (hnodup : ids.Nodup) (h : Heard MemoryDeployer) :
    (withdraw ids h).deployer.exchanges =
      h.exchanges ++ ids.flatMap h.deployer.sweepExchanges := by
  induction ids generalizing h with
  | nil => exact (List.append_nil h.exchanges).symm
  | cons id ids ih =>
    rw [List.nodup_cons] at hnodup
    have hsame : ids.flatMap (h.deployer.sweep id).sweepExchanges =
        ids.flatMap h.deployer.sweepExchanges := by
      apply List.flatMap_congr
      intro id' hid'
      apply MemoryDeployer.sweepExchanges_congr
      apply MemoryDeployer.state_sweep_of_ne
      rintro rfl
      exact hnodup.1 hid'
    rw [deployer_withdraw_cons, ih hnodup.2, hsame, List.append_assoc, List.flatMap_cons]

theorem exchanges_undeploy (p : Pipeline) (h : Heard MemoryDeployer) :
    (Lifecycle.undeploy p h).deployer.exchanges =
      h.exchanges ++ p.ids.flatMap h.deployer.sweepExchanges := by
  unfold Lifecycle.undeploy
  rw [Outcome.deployer_closing, exchanges_withdraw p.ids_nodup]

theorem requests_undeploy (p : Pipeline) (d : MemoryDeployer) :
    Heard.requests (Lifecycle.undeploy p) d = p.ids.flatMap d.sweepCalls := by
  unfold Heard.requests
  rw [exchanges_undeploy, List.nil_append, List.map_flatMap]
  exact List.flatMap_congr fun id _ => d.map_call_sweepExchanges id

/-- The deployer logs the requests that taking down puts to it. -/
theorem log_undeploy (p : Pipeline) (d : MemoryDeployer) :
    (Lifecycle.undeploy p d).deployer.log =
      (Heard.requests (Lifecycle.undeploy p) d).foldl CallLog.record d.log := by
  have hlogs : Heard.Logs d.log ⟨d, []⟩ := rfl
  have hkept := undeploy_matches (Heard.logs_kept d.log).tandem p ⟨rfl, hlogs⟩
  have hheard : (⟨d, []⟩ : Heard MemoryDeployer).deployer = d := rfl
  have hsame := undeploy_matches Heard.tandem p hheard
  rw [← hsame.deployer]
  exact hkept.deployer.2

end Lifecycle

/-! ## Once and again -/

/-- Taking a pipeline down leads from one deployer to the other, with the given report and
requests: both are told by the states at the first one. -/
structure Clears (p : Pipeline) (d d' : MemoryDeployer) (report : Takedown) (calls : List Call) :
    Prop where
  undeployed_eq : report.undeployed =
    p.ids.filter fun id => d.state id ≠ .unknown ∧ d.state id ≠ .undeployed
  skipped_eq : report.skipped =
    p.ids.filter fun id => d.state id = .unknown ∨ d.state id = .undeployed
  calls_eq : calls = p.ids.flatMap fun id =>
    if id ∈ report.undeployed then [⟨.status, id⟩, ⟨.undeploy, id⟩] else [⟨.status, id⟩]
  logged : d'.log = calls.foldl CallLog.record d.log
  gone : ∀ id ∈ report.undeployed, d'.state id = .undeployed ∧ d'.instruction? id = none
  untouched : ∀ id ∉ report.undeployed,
    d'.state id = d.state id ∧ d'.instruction? id = d.instruction? id
  settings : d'.refusals = d.refusals ∧ d'.deployState = d.deployState

theorem mem_undeployed_takedown {d : MemoryDeployer} {ids : List StageId} {id : StageId} :
    id ∈ (Lifecycle.takedown d ids).undeployed ↔ id ∈ ids ∧ (d.state id).isAbsent = false := by
  simp [Lifecycle.takedown]

theorem clears_undeploy (p : Pipeline) (d : MemoryDeployer) :
    Clears p d (d.sweepEach p.ids) (Lifecycle.takedown d p.ids)
      (Heard.requests (Lifecycle.undeploy p) d) where
  undeployed_eq := by
    apply List.filter_congr
    intro id _
    rw [Bool.eq_iff_iff, Bool.not_eq_true', decide_eq_true_iff]
    exact StageState.isAbsent_eq_false_iff
  skipped_eq := by
    apply List.filter_congr
    intro id _
    rw [Bool.eq_iff_iff, decide_eq_true_iff]
    exact StageState.isAbsent_iff
  calls_eq := by
    rw [Lifecycle.requests_undeploy]
    apply List.flatMap_congr
    intro id hid
    unfold MemoryDeployer.sweepCalls
    cases habsent : (d.state id).isAbsent with
    | true => simp [mem_undeployed_takedown, habsent]
    | false => simp [mem_undeployed_takedown, habsent, hid]
  logged := by
    rw [← Lifecycle.log_undeploy, Lifecycle.undeploy_eq]
  gone := by
    intro id hid
    rw [mem_undeployed_takedown] at hid
    rw [MemoryDeployer.state_sweepEach, MemoryDeployer.instruction?_sweepEach]
    exact ⟨if_pos hid, if_pos hid⟩
  untouched := by
    intro id hid
    rw [mem_undeployed_takedown] at hid
    rw [MemoryDeployer.state_sweepEach, MemoryDeployer.instruction?_sweepEach]
    exact ⟨if_neg hid, if_neg hid⟩
  settings := ⟨d.refusals_sweepEach p.ids, d.deployState_sweepEach p.ids⟩

namespace Clears

variable {p : Pipeline} {d d₁ d₂ : MemoryDeployer} {report report' : Takedown}
  {calls calls' : List Call}

/-- Nothing is left of a pipeline that was taken down. -/
theorem isAbsent (h : Clears p d d₁ report calls) {id : StageId} (hid : id ∈ p.ids) :
    d₁.state id = .unknown ∨ d₁.state id = .undeployed := by
  by_cases hmem : id ∈ report.undeployed
  · exact Or.inr (h.gone id hmem).1
  · rw [(h.untouched id hmem).1, ← StageState.isAbsent_iff, ← Bool.not_eq_false]
    intro hthere
    rw [h.undeployed_eq, List.mem_filter, decide_eq_true_iff,
      ← StageState.isAbsent_eq_false_iff] at hmem
    exact hmem ⟨hid, hthere⟩

/-- To take a pipeline down again is to ask for its stages. -/
theorem again (h : Clears p d d₁ report calls) (h' : Clears p d₁ d₂ report' calls') :
    report' = { undeployed := [], skipped := p.ids } ∧ calls' = p.ids.map (Call.mk .status) ∧
      ∀ id, d₂.state id = d₁.state id ∧ d₂.instruction? id = d₁.instruction? id := by
  have hundeployed : report'.undeployed = [] := by
    rw [h'.undeployed_eq, List.filter_eq_nil_iff]
    intro id hid
    rw [decide_eq_true_iff, ← StageState.isAbsent_eq_false_iff, Bool.not_eq_false,
      StageState.isAbsent_iff]
    exact h.isAbsent hid
  have hskipped : report'.skipped = p.ids := by
    rw [h'.skipped_eq, List.filter_eq_self]
    intro id hid
    rw [decide_eq_true_iff]
    exact h.isAbsent hid
  refine ⟨?_, ?_, fun id => ?_⟩
  · cases report'
    simp only at hundeployed hskipped
    rw [hundeployed, hskipped]
  · rw [h'.calls_eq, hundeployed, List.map_eq_flatMap]
    rfl
  · apply h'.untouched
    rw [hundeployed]
    exact List.not_mem_nil

end Clears

/-- Taking a pipeline down always succeeds and is exact, and doing it a second time takes down
nothing, skips every stage and changes no stage. -/
theorem taking_down_is_exact_and_idempotent (p : Pipeline) (d : MemoryDeployer) :
    ∃ d₁ events₁ report d₂ events₂,
      Lifecycle.undeploy p d = ⟨d₁, events₁, .ok report⟩ ∧
      Clears p d d₁ report (Heard.requests (Lifecycle.undeploy p) d) ∧
      Lifecycle.undeploy p d₁ =
        ⟨d₂, events₂, .ok { undeployed := [], skipped := p.ids }⟩ ∧
      Heard.requests (Lifecycle.undeploy p) d₁ = p.ids.map (Call.mk .status) ∧
      ∀ id, d₂.state id = d₁.state id ∧ d₂.instruction? id = d₁.instruction? id := by
  have hfirst := clears_undeploy p d
  have hsecond := clears_undeploy p (d.sweepEach p.ids)
  obtain ⟨hreport, hcalls, hstages⟩ := hfirst.again hsecond
  have hagain := Lifecycle.undeploy_eq p (d.sweepEach p.ids)
  rw [hreport] at hagain
  exact ⟨_, _, _, _, _, Lifecycle.undeploy_eq p d, hfirst, hagain, hcalls, hstages⟩

end Rollout
