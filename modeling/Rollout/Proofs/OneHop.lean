-- How far overrides reach. What is written for a stage has a part in the instructions of that
-- stage and of its neighbours, and in no other, although propagation goes through the whole
-- pipeline. What is written for every stage has a part in all of them.
import Rollout.Linear
import Rollout.Proofs.OverrideScopes
import Rollout.Proofs.PlanContents

namespace Rollout

/-! ## Places next to each other -/

/-- Two places are the same or next to each other. -/
def WithinOneHop (i j : Nat) : Prop := i ≤ j + 1 ∧ j ≤ i + 1

namespace Partition

variable {flow flow' : List (Stage × Properties)} {i : Nat}

theorem takesAt_congr (hhere : flow[i]? = flow'[i]?) (hnext : flow[i + 1]? = flow'[i + 1]?) :
    takesAt flow i = takesAt flow' i := by
  unfold takesAt
  rw [hhere, hnext]

theorem partsAt_congr (h : ∀ j, WithinOneHop i j → flow[j]? = flow'[j]?) :
    partsAt flow i = partsAt flow' i := by
  cases i with
  | zero => rfl
  | succ i =>
    have hbefore := h i ⟨by omega, by omega⟩
    have hhere := h (i + 1) ⟨by omega, by omega⟩
    simp only [partsAt, takesAt_congr hbefore hhere, hbefore]

/-- What the properties at a place come to is told by the place and its neighbours. -/
theorem settleAt_congr (defaultKey : String) (h : ∀ j, WithinOneHop i j → flow[j]? = flow'[j]?)
    (e : Stage × Properties) : settleAt defaultKey flow i e = settleAt defaultKey flow' i e := by
  have htakes : takesAt flow i = takesAt flow' i :=
    takesAt_congr (h i ⟨by omega, by omega⟩) (h (i + 1) ⟨by omega, by omega⟩)
  unfold settleAt
  rw [htakes, partsAt_congr h]

end Partition

/-! ## Planning -/

namespace Planning

variable {r : Registry} {config : Config} {overrides overrides' : Properties}

/-- A stage and its settled properties have one instruction. -/
theorem Instructs.unique {s : Stage} {properties : Properties} {i i' : Instruction}
    (h : Instructs r config s properties i) (h' : Instructs r config s properties i') : i = i' := by
  obtain ⟨id, stage, role, coordinates, _⟩ := i
  obtain ⟨id', stage', role', coordinates', _⟩ := i'
  obtain ⟨hplaced, hsettled, hid, hproperties⟩ := h
  obtain ⟨hplaced', hsettled', hid', hproperties'⟩ := h'
  have hplace := Except.ok.inj (hplaced.symm.trans hplaced')
  have hstage := Except.ok.inj (hsettled.symm.trans hsettled')
  simp only [Prod.mk.injEq] at hplace hid hid' hproperties hproperties' hstage
  rw [hid, hid', hplace.1, hplace.2, hproperties, hproperties', hstage]

/-- Two plans for the same stages have the same instruction at a place if the same overrides apply
there and next to it. -/
theorem getElem?_instructions_congr {stages : List Stage} {is is' : List Instruction}
    (h : instructions r config overrides stages = .ok is)
    (h' : instructions r config overrides' stages = .ok is') {place : Nat}
    (hmerged : ∀ j, WithinOneHop place j → ∀ t, stages[j]? = some t →
      overrides.merge config.propertyLead t.label = overrides'.merge config.propertyLead t.label)
    {s : Stage} (hs : stages[place]? = some s) :
    ∃ i, is[place]? = some i ∧ is'[place]? = some i := by
  obtain ⟨i, hi, hmade⟩ := (instructions_of_ok h).2 place s hs
  obtain ⟨i', hi', hmade'⟩ := (instructions_of_ok h').2 place s hs
  have hflow : ∀ j, WithinOneHop place j →
      (mergeAll config overrides stages)[j]? = (mergeAll config overrides' stages)[j]? := by
    intro j hj
    rw [getElem?_mergeAll, getElem?_mergeAll]
    refine Option.map_congr fun t ht => ?_
    rw [hmerged j hj t ht]
  rw [Partition.settleAt_congr _ hflow, hmerged place ⟨by omega, by omega⟩ s hs] at hmade
  rw [hmade.unique hmade'] at hi
  exact ⟨i', hi, hi'⟩

end Planning

namespace Pipeline

variable {p : Pipeline} {r : Registry} {config : Config} {overrides overrides' : Properties}
  {id id' : PlanId} {made made' : Plan}

/-! ## The law -/

/-- Overrides reach one hop. Two maps of overrides that say the same of every stage, and of each
stage that is at most one place away, lead to the same instruction, whatever else they say. -/
theorem overrides_act_within_one_hop
    (h : p.plan r config overrides id = .ok made)
    (h' : p.plan r config overrides' id' = .ok made') {i : Nat} {s : Stage}
    (hs : p.stages[i]? = some s)
    (hwildcard : Scope.Agree config.propertyLead Scope.wildcard overrides overrides')
    (hlabels : ∀ j t, WithinOneHop i j → p.stages[j]? = some t →
      Scope.Agree config.propertyLead t.label overrides overrides') :
    ∃ instruction, instruction.deploymentId = s.id ∧
      made.instruction? s.label = some instruction ∧
      made'.instruction? s.label = some instruction := by
  obtain ⟨his, _, _⟩ := plan_eq_ok_iff.1 h
  obtain ⟨his', _, _⟩ := plan_eq_ok_iff.1 h'
  have hi : i < p.size := (List.getElem?_eq_some_iff.1 hs).1
  have hplace : p.deployOrder[p.size - 1 - i]? = some s := by
    rw [getElem?_deployOrder p (by omega), ← hs]
    congr 1
    omega
  have hmerged : ∀ j, WithinOneHop (p.size - 1 - i) j → ∀ t, p.deployOrder[j]? = some t →
      overrides.merge config.propertyLead t.label =
        overrides'.merge config.propertyLead t.label := by
    intro j hj t ht
    have hjsize : j < p.size := by
      have hlt := (List.getElem?_eq_some_iff.1 ht).1
      rwa [deployOrder, List.length_reverse] at hlt
    -- Counted from the other end, neighbours are neighbours still.
    have hnear : WithinOneHop i (p.size - 1 - j) := by
      unfold WithinOneHop at hj ⊢
      omega
    rw [getElem?_deployOrder p hjsize] at ht
    exact Properties.merge_congr hwildcard (hlabels _ t hnear ht)
  obtain ⟨instruction, hmade, hmade'⟩ :=
    Planning.getElem?_instructions_congr his his' hmerged hplace
  obtain ⟨covering, hcovering, hcovers⟩ := exists_covers h hplace
  rw [hmade] at hcovering
  cases hcovering
  have hid : s.id = ⟨p.name, s.label⟩ := by
    unfold Stage.id
    rw [p.group_eq s (List.mem_of_getElem? hs)]
  exact ⟨instruction, hcovers.id_eq.trans hid.symm,
    (instruction?_eq_some_iff h).2 ⟨List.mem_of_getElem? hmade, hcovers.id_eq⟩,
    (instruction?_eq_some_iff h').2 ⟨List.mem_of_getElem? hmade', hcovers.id_eq⟩⟩

/-- Four stages, where data is partitioned for the third one in the first case only. -/
def hopEntries : List String := ["time", "split", "join", "log"]

def hopOverrides : Properties :=
  .ofList
    [("stage.*.zone", "eu"), ("stage.time.rate", "5"), ("stage.join.count", "2"),
      ("stage.join.partitioned", "true"), ("stage.log.count", "3")]

def hopOverrides' : Properties :=
  .ofList [("stage.*.zone", "eu"), ("stage.time.rate", "5"), ("stage.log.level", "warn")]

theorem partitions_two_hops_away_do_not_count :
    ∃ (l : Linear) (s : Stage) (made made' : Plan) (instruction : Instruction),
      Linear.build "line" hopEntries = .ok l ∧
      l.pipeline.plan l.registry {} hopOverrides ⟨0⟩ = .ok made ∧
      l.pipeline.plan l.registry {} hopOverrides' ⟨1⟩ = .ok made' ∧
      l.pipeline.stages[0]? = some s ∧ instruction.deploymentId = s.id ∧
      made.instruction? s.label = some instruction ∧
      made'.instruction? s.label = some instruction ∧
      made.instruction? "split" ≠ made'.instruction? "split" := by
  have hrun : ((Linear.build "line" hopEntries).toOption.bind fun l =>
      (l.pipeline.plan l.registry {} hopOverrides ⟨0⟩).toOption.bind fun made =>
      (l.pipeline.plan l.registry {} hopOverrides' ⟨1⟩).toOption.bind fun made' =>
      l.pipeline.stages[0]?.bind fun s => l.pipeline.stages[1]?.map fun t =>
        decide (s.label = "time" ∧ t.label = "split" ∧
          made.instruction? "split" ≠ made'.instruction? "split")) = some true := by
    decide +kernel
  simp only [Option.bind_eq_some_iff, Option.map_eq_some_iff, Traversal.toOption_eq_some_iff,
    decide_eq_true_eq] at hrun
  obtain ⟨l, hl, made, hmade, made', hmade', s, hs, t, ht, htime, hsplit, hdiffer⟩ := hrun
  have hlabels : ∀ j t, WithinOneHop 0 j → l.pipeline.stages[j]? = some t →
      Scope.Agree Scope.defaultLead t.label hopOverrides hopOverrides' := by
    rintro j t' ⟨_, hj⟩ ht'
    have hcases : j = 0 ∨ j = 1 := by omega
    rcases hcases with rfl | rfl
    · rw [hs] at ht'
      cases ht'
      rw [htime]
      exact Scope.agree_of_pick_eq (by decide +kernel)
    · rw [ht] at ht'
      cases ht'
      rw [hsplit]
      exact Scope.agree_of_pick_eq (by decide +kernel)
  obtain ⟨instruction, hid, hfound, hfound'⟩ := overrides_act_within_one_hop hmade hmade' hs
    (Scope.agree_of_pick_eq (by decide +kernel)) hlabels
  exact ⟨l, s, made, made', instruction, hl, hmade, hmade', hs, hid, hfound, hfound', hdiffer⟩

end Pipeline

end Rollout
