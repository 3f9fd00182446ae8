-- Taking many pipelines down. They may share stages and stand more than once: what one of them
-- took down is gone when the next one asks for it, so that every stage counts once, wherever its
-- pipelines stand. To take them all down again is to ask for their stages.
import Mathlib.Data.Finset.Card
import Rollout.Linear
import Rollout.Proofs.ExactTakedown

namespace Rollout

namespace MemoryDeployer

/-! ## The stages that are there -/

/-- Those of the stages that are there to be taken down, each of them once. -/
def active (d : MemoryDeployer) (ids : List StageId) : Finset StageId :=
  ids.toFinset.filter fun id => d.state id ≠ .unknown ∧ d.state id ≠ .undeployed

variable {d : MemoryDeployer} {ids ids' : List StageId}

theorem mem_active {id : StageId} :
    id ∈ d.active ids ↔ id ∈ ids ∧ (d.state id).isAbsent = false := by
  unfold active
  rw [Finset.mem_filter, List.mem_toFinset, StageState.isAbsent_eq_false_iff]

theorem active_congr (d : MemoryDeployer) (h : ∀ id, id ∈ ids ↔ id ∈ ids') :
    d.active ids = d.active ids' := by
  ext id
  rw [mem_active, mem_active, h]

theorem active_eq_empty (h : ∀ id ∈ ids, (d.state id).isAbsent = true) : d.active ids = ∅ := by
  rw [Finset.eq_empty_iff_forall_notMem]
  intro id hmem
  obtain ⟨hid, hthere⟩ := mem_active.1 hmem
  rw [h id hid] at hthere
  cases hthere

/-- What was swept is not there any more. -/
theorem active_sweepEach (d : MemoryDeployer) (ids ids' : List StageId) :
    (d.sweepEach ids).active ids' = d.active ids' \ d.active ids := by
  ext id
  rw [Finset.mem_sdiff, mem_active, mem_active, mem_active, state_sweepEach]
  have hdown : StageState.undeployed.isAbsent = true := rfl
  split
  · next h => simp [h, hdown]
  · next h => simp [h]

theorem sweepEach_append (d : MemoryDeployer) (ids ids' : List StageId) :
    d.sweepEach (ids ++ ids') = (d.sweepEach ids).sweepEach ids' :=
  List.foldl_append

/-- Stages are counted one after the other, those that were swept no more. -/
theorem card_active_append (d : MemoryDeployer) (ids ids' : List StageId) :
    (d.active (ids ++ ids')).card =
      (d.active ids).card + ((d.sweepEach ids).active ids').card := by
  have hunion : d.active (ids ++ ids') = d.active ids ∪ d.active ids' := by
    unfold active
    rw [List.toFinset_append, Finset.filter_union]
  rw [hunion, ← Finset.union_sdiff_self_eq_union,
    Finset.card_union_of_disjoint Finset.disjoint_sdiff, active_sweepEach]

theorem count_takedown (h : ids.Nodup) :
    (Lifecycle.takedown d ids).count = (d.active ids).card := by
  have hnodup : (Lifecycle.takedown d ids).undeployed.Nodup := h.filter _
  have hactive : (Lifecycle.takedown d ids).undeployed.toFinset = d.active ids := by
    ext id
    rw [List.mem_toFinset, mem_undeployed_takedown, mem_active]
  rw [← hactive, List.toFinset_card_of_nodup hnodup]
  rfl

/-! ## What becomes of the stages -/

/-- A deployer without the given stages is another one: these are undeployed and have no
instruction there, and every other stage is as it was. -/
structure Without (d : MemoryDeployer) (gone : Finset StageId) (d' : MemoryDeployer) : Prop where
  state_eq : ∀ id, d'.state id = if id ∈ gone then .undeployed else d.state id
  instruction?_eq : ∀ id, d'.instruction? id = if id ∈ gone then none else d.instruction? id

theorem without_sweepEach (d : MemoryDeployer) (ids : List StageId) :
    d.Without (d.active ids) (d.sweepEach ids) where
  state_eq id := by
    rw [state_sweepEach]
    simp only [mem_active]
  instruction?_eq id := by
    rw [instruction?_sweepEach]
    simp only [mem_active]

theorem without_empty (d : MemoryDeployer) : d.Without ∅ d :=
  ⟨fun _ => (if_neg (Finset.notMem_empty _)).symm, fun _ => (if_neg (Finset.notMem_empty _)).symm⟩

/-- Nothing is there any more once all that was there is gone. -/
theorem Without.isAbsent {d' : MemoryDeployer} (h : d.Without (d.active ids) d') {id : StageId}
    (hid : id ∈ ids) : (d'.state id).isAbsent = true := by
  rw [h.state_eq]
  split
  · rfl
  · next hmem =>
    rw [← Bool.not_eq_false]
    intro hthere
    exact hmem (mem_active.2 ⟨hid, hthere⟩)

theorem Without.unique {gone : Finset StageId} {d₁ d₂ : MemoryDeployer} (h₁ : d.Without gone d₁)
    (h₂ : d.Without gone d₂) (id : StageId) :
    d₂.state id = d₁.state id ∧ d₂.instruction? id = d₁.instruction? id := by
  rw [h₁.state_eq, h₂.state_eq, h₁.instruction?_eq, h₂.instruction?_eq]
  exact ⟨rfl, rfl⟩

end MemoryDeployer

namespace Coordinator

open MemoryDeployer

/-! ## One pipeline after the other -/

/-- Every pipeline is swept at the deployer that the ones before it left, and the counts add up
to the number of stages that were there at first. -/
theorem undeployEach_eq (ps : List Pipeline) (s : Site MemoryDeployer) :
    ∃ events, undeployEach ps s =
      ({ s with deployer := s.deployer.sweepEach (ps.flatMap Pipeline.ids), events := events },
        .ok (s.deployer.active (ps.flatMap Pipeline.ids)).card) := by
  induction ps generalizing s with
  | nil => exact ⟨s.events, rfl⟩
  | cons p ps ih =>
    -- The later pipelines are counted at the deployer that the first one leaves.
    obtain ⟨events, hlater⟩ := ih (undeploy p s).1
    rw [undeploy_eq] at hlater
    refine ⟨events, ?_⟩
    unfold undeployEach
    rw [undeploy_eq]
    simp only [hlater, Except.map, count_takedown p.ids_nodup]
    rw [List.flatMap_cons, sweepEach_append, card_active_append]

/-- Taking down many pipelines takes away the stages of theirs that are there. -/
theorem undeployEach_without (ps : List Pipeline) (s : Site MemoryDeployer) :
    ∃ s', undeployEach ps s =
        (s', .ok (s.deployer.active (ps.flatMap Pipeline.ids)).card) ∧
      s.deployer.Without (s.deployer.active (ps.flatMap Pipeline.ids)) s'.deployer := by
  obtain ⟨events, heq⟩ := undeployEach_eq ps s
  exact ⟨_, heq, without_sweepEach _ _⟩

/-! ## The requests -/

/-- A deployer that is listened to is swept as it would be unheard. -/
theorem undeploy_heard (p : Pipeline) (s : Site (Heard MemoryDeployer)) :
    ∃ s' report, undeploy p s = (s', .ok report) ∧
      s'.deployer.deployer = s.deployer.deployer.sweepEach p.ids ∧
      s'.deployer.exchanges =
        s.deployer.exchanges ++ p.ids.flatMap s.deployer.deployer.sweepExchanges := by
  have hsame := Lifecycle.undeploy_matches Heard.tandem p (Eq.refl s.deployer.deployer)
  have hresult := hsame.result_eq
  have hdeployer := hsame.deployer
  rw [Lifecycle.undeploy_eq] at hresult hdeployer
  exact ⟨_, _, Prod.ext rfl hresult, hdeployer, Lifecycle.exchanges_undeploy p s.deployer⟩

/-- Where nothing is there, the deployer is asked for every stage, and for nothing else. -/
theorem requests_undeployEach_of_absent {ps : List Pipeline} {s : Site (Heard MemoryDeployer)}
    (h : ∀ id ∈ ps.flatMap Pipeline.ids, (s.deployer.deployer.state id).isAbsent = true) :
    (undeployEach ps s).1.deployer.exchanges.map Exchange.call =
      s.deployer.exchanges.map Exchange.call ++
        (ps.flatMap Pipeline.ids).map (Call.mk .status) := by
  induction ps generalizing s with
  | nil => exact (List.append_nil _).symm
  | cons p ps ih =>
    rw [List.flatMap_cons] at h ⊢
    obtain ⟨s', report, hfirst, hdeployer, hexchanges⟩ := undeploy_heard p s
    have hcalls : (p.ids.flatMap s.deployer.deployer.sweepExchanges).map Exchange.call =
        p.ids.map (Call.mk .status) := by
      rw [List.map_flatMap, List.map_eq_flatMap]
      apply List.flatMap_congr
      intro id hid
      rw [map_call_sweepExchanges, sweepCalls, if_pos (h id (List.mem_append_left _ hid))]
    have hlater : ∀ id ∈ ps.flatMap Pipeline.ids,
        (s'.deployer.deployer.state id).isAbsent = true := by
      intro id hid
      have habsent := h id (List.mem_append_right _ hid)
      rw [hdeployer, state_sweepEach, if_neg]
      · exact habsent
      · simp [habsent]
    unfold undeployEach
    rw [hfirst]
    show (undeployEach ps s').1.deployer.exchanges.map Exchange.call = _
    rw [ih hlater, hexchanges, List.map_append, hcalls, List.map_append, List.append_assoc]

/-- The deployer logs the requests that taking down many pipelines puts to it. -/
theorem log_undeployEach (ps : List Pipeline) (s : Site MemoryDeployer) :
    (undeployEach ps s).1.deployer.log =
      ((undeployEach ps s.listened).1.deployer.exchanges.map Exchange.call).foldl CallLog.record
        s.deployer.log := by
  have hlogs : s.listened.Matches (fun h h' => h = h' ∧ Heard.Logs s.deployer.log h)
      s.listened := ⟨⟨rfl, rfl⟩, rfl, rfl, rfl⟩
  have hkept := (undeployEach_matched (Heard.logs_kept _).tandem ps hlogs).fst.deployer.2
  have hsame := (undeployEach_matched Heard.tandem ps s.listened_matches).fst.deployer
  rw [← hsame]
  exact hkept

/-! ## The law -/

/-- Taking down many pipelines always succeeds. It takes down those of their stages that are
there, each of them once, however the pipelines are ordered or repeated; and to do it again is to
ask for the stages in turn and to change nothing. -/
theorem every_stage_is_taken_down_once (ps : List Pipeline) (s : Site MemoryDeployer) :
    ∃ s', undeployEach ps s =
        (s', .ok (s.deployer.active (ps.flatMap Pipeline.ids)).card) ∧
      s.deployer.Without (s.deployer.active (ps.flatMap Pipeline.ids)) s'.deployer ∧
      (∀ ps' : List Pipeline, (∀ p, p ∈ ps' ↔ p ∈ ps) →
        ∃ t, undeployEach ps' s =
            (t, .ok (s.deployer.active (ps.flatMap Pipeline.ids)).card) ∧
          ∀ id, t.deployer.state id = s'.deployer.state id ∧
            t.deployer.instruction? id = s'.deployer.instruction? id) ∧
      ∃ t, undeployEach ps s' = (t, .ok 0) ∧
        (∀ id, t.deployer.state id = s'.deployer.state id ∧
          t.deployer.instruction? id = s'.deployer.instruction? id) ∧
        (undeployEach ps s'.listened).1.deployer.exchanges.map Exchange.call =
          (ps.flatMap Pipeline.ids).map (Call.mk .status) ∧
        t.deployer.log =
          ((ps.flatMap Pipeline.ids).map (Call.mk .status)).foldl CallLog.record
            s'.deployer.log := by
  obtain ⟨s', hfirst, hwithout⟩ := undeployEach_without ps s
  refine ⟨s', hfirst, hwithout, ?_, ?_⟩
  · intro ps' hps'
    have hactive : s.deployer.active (ps'.flatMap Pipeline.ids) =
        s.deployer.active (ps.flatMap Pipeline.ids) := by
      apply active_congr
      intro id
      simp only [List.mem_flatMap, hps']
    obtain ⟨t, ht, hwithout'⟩ := undeployEach_without ps' s
    rw [hactive] at ht hwithout'
    exact ⟨t, ht, hwithout.unique hwithout'⟩
  · have habsent : ∀ id ∈ ps.flatMap Pipeline.ids,
        (s'.deployer.state id).isAbsent = true := fun _ => hwithout.isAbsent
    have hnone : s'.deployer.active (ps.flatMap Pipeline.ids) = ∅ :=
      active_eq_empty habsent
    have hcalls : (undeployEach ps s'.listened).1.deployer.exchanges.map Exchange.call =
        (ps.flatMap Pipeline.ids).map (Call.mk .status) :=
      requests_undeployEach_of_absent habsent
    have hlog := log_undeployEach ps s'
    obtain ⟨t, ht, hwithout'⟩ := undeployEach_without ps s'
    rw [hnone] at ht hwithout'
    rw [ht, hcalls] at hlog
    exact ⟨t, ht, (without_empty _).unique hwithout', hcalls, hlog⟩

/-- A deployer where two of the stages of a line are there. -/
def halfDeployed : MemoryDeployer :=
  ((({} : MemoryDeployer).overrideState ⟨"line", "time"⟩ .deployed).overrideState
    ⟨"line", "log"⟩ .failed).overrideState ⟨"line", "split"⟩ .undeployed

theorem overlapping_pipelines_are_counted_once :
    ∃ (short long : Linear) (s' t : Site MemoryDeployer),
      Linear.build "line" ["time", "log"] = .ok short ∧
      Linear.build "line" ["time", "split", "log"] = .ok long ∧
      undeployEach [short.pipeline, long.pipeline, short.pipeline] ⟨halfDeployed, .collect, {}, 0⟩ =
        (s', .ok 2) ∧
      undeployEach [long.pipeline, short.pipeline] ⟨halfDeployed, .collect, {}, 0⟩ = (t, .ok 2) ∧
      ∀ id, t.deployer.state id = s'.deployer.state id ∧
        t.deployer.instruction? id = s'.deployer.instruction? id := by
  have hrun : ((Linear.build "line" ["time", "log"]).toOption.bind fun short =>
      (Linear.build "line" ["time", "split", "log"]).toOption.bind fun long =>
      (undeployEach [short.pipeline, long.pipeline, short.pipeline]
        ⟨halfDeployed, .collect, {}, 0⟩).2.toOption) = some 2 := by
    decide +kernel
  simp only [Option.bind_eq_some_iff, Traversal.toOption_eq_some_iff] at hrun
  obtain ⟨short, hshort, long, hlong, hcount⟩ := hrun
  obtain ⟨s', hfirst, _, hreordered, _⟩ :=
    every_stage_is_taken_down_once [short.pipeline, long.pipeline, short.pipeline]
      ⟨halfDeployed, .collect, {}, 0⟩
  have hsame : ∀ p, p ∈ [long.pipeline, short.pipeline] ↔
      p ∈ [short.pipeline, long.pipeline, short.pipeline] := by
    intro p
    simp only [List.mem_cons, List.not_mem_nil, or_false]
    tauto
  obtain ⟨t, ht, hstages⟩ := hreordered [long.pipeline, short.pipeline] hsame
  rw [hfirst] at hcount
  rw [Except.ok.inj hcount] at hfirst ht
  exact ⟨short, long, s', t, hshort, hlong, hfirst, ht, hstages⟩

end Coordinator

end Rollout
