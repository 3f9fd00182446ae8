-- What a plan consists of: an instruction for every stage, in the order of deployment, with the
-- role and place of the stage, its settled libraries and its settled properties.
import Mathlib.Data.List.Nodup
import Rollout.Plan
import Rollout.Proofs.Neighbours
import Rollout.Proofs.Traversal

namespace Rollout.Planning

open Rollout.Partition

/-! ## One stage -/

/-- The instruction is what planning makes of a stage and its settled properties. -/
structure Instructs (r : Registry) (config : Config) (s : Stage) (properties : Properties)
    (i : Instruction) : Prop where
  placed : place r s = .ok (i.role, i.coordinates)
  settled : settleIncludes r config s = .ok i.stage
  id_eq : i.deploymentId = s.id
  properties_eq : i.properties = properties

theorem settleIncludes_frame {r : Registry} {config : Config} {s s' : Stage}
    (h : settleIncludes r config s = .ok s') :
    s'.name = s.name ∧ s'.label = s.label ∧ s'.group = s.group := by
  unfold settleIncludes at h
  split at h
  · cases h
    exact ⟨rfl, rfl, rfl⟩
  · next list _ =>
    cases hlist : Includes.resolve r list with
    | error fault =>
      rw [hlist] at h
      cases h
    | ok text =>
      rw [hlist] at h
      cases h
      exact ⟨rfl, rfl, rfl⟩

theorem settleIncludes_id {r : Registry} {config : Config} {s s' : Stage}
    (h : settleIncludes r config s = .ok s') : s'.id = s.id := by
  obtain ⟨_, hlabel, hgroup⟩ := settleIncludes_frame h
  unfold Stage.id
  rw [hlabel, hgroup]

theorem Instructs.label_eq {r : Registry} {config : Config} {s : Stage} {properties : Properties}
    {i : Instruction} (h : Instructs r config s properties i) : i.stage.label = s.label :=
  (settleIncludes_frame h.settled).2.1

/-! ## All stages -/

theorem getElem?_instructAll (stages : List Stage) (places : List (Role × Coordinates))
    (properties : List Properties) (k : Nat) :
    (instructAll stages places properties)[k]? =
      (stages[k]?.bind fun s => places[k]?.bind fun p => properties[k]?.map fun m =>
        instruct s p m) := by
  induction stages generalizing places properties k with
  | nil => simp [instructAll]
  | cons s stages ih =>
    cases places with
    | nil => simp [instructAll]
    | cons p places =>
      cases properties with
      | nil => simp [instructAll]
      | cons m properties =>
        cases k with
        | zero => simp [instructAll]
        | succ k => simpa [instructAll] using ih places properties k

theorem length_instructAll (stages : List Stage) (places : List (Role × Coordinates))
    (properties : List Properties) (hplaces : places.length = stages.length)
    (hproperties : properties.length = stages.length) :
    (instructAll stages places properties).length = stages.length := by
  induction stages generalizing places properties with
  | nil => rfl
  | cons s stages ih =>
    obtain ⟨p, places, rfl⟩ := List.exists_cons_of_length_eq_add_one hplaces
    obtain ⟨m, properties, rfl⟩ := List.exists_cons_of_length_eq_add_one hproperties
    simp only [List.length_cons, Nat.add_right_cancel_iff] at hplaces hproperties
    simp only [instructAll, List.length_cons, ih places properties hplaces hproperties]

/-- Planning succeeds by success of its three phases. -/
theorem instructions_eq_ok_iff {r : Registry} {config : Config} {overrides : Properties}
    {stages : List Stage} {is : List Instruction} :
    instructions r config overrides stages = .ok is ↔
      ∃ places settled, stages.mapM (place r) = .ok places ∧
        (propagate config.defaultKey (mergeAll config overrides stages)).2 = .ok () ∧
        stages.mapM (settleIncludes r config) = .ok settled ∧
        is = instructAll settled places
          (propagate config.defaultKey (mergeAll config overrides stages)).1 := by
  unfold instructions
  cases hplaces : stages.mapM (place r) with
  | error fault => simp [bind, Except.bind]
  | ok places =>
    cases hwalk : (propagate config.defaultKey (mergeAll config overrides stages)).2 with
    | error fault => simp [bind, Except.bind, hwalk]
    | ok _ =>
      cases hsettled : stages.mapM (settleIncludes r config) with
      | error fault => simp [bind, Except.bind, hwalk]
      | ok settled => simp [bind, Except.bind, pure, Except.pure, hwalk, eq_comm]

/-- The merged properties of a stage at a place. -/
theorem getElem?_mergeAll (config : Config) (overrides : Properties) (stages : List Stage)
    (k : Nat) :
    (mergeAll config overrides stages)[k]? =
      stages[k]?.map fun s => (s, overrides.merge config.propertyLead s.label) := by
  simp [mergeAll]

/-- A plan has an instruction for every stage, and that is made of the stage. -/
theorem instructions_of_ok {r : Registry} {config : Config} {overrides : Properties}
    {stages : List Stage} {is : List Instruction}
    (h : instructions r config overrides stages = .ok is) :
    is.length = stages.length ∧ ∀ (k : Nat) (s : Stage), stages[k]? = some s →
      ∃ i, is[k]? = some i ∧
        Instructs r config s
          (settleAt config.defaultKey (mergeAll config overrides stages) k
            (s, overrides.merge config.propertyLead s.label)) i := by
  obtain ⟨places, settled, hplaces, hwalk, hsettled, rfl⟩ := instructions_eq_ok_iff.1 h
  obtain ⟨_, hproperties⟩ := propagate_of_ok hwalk
  have hplaced := Traversal.mapM_eq_ok_iff.1 hplaces
  have hsettle := Traversal.mapM_eq_ok_iff.1 hsettled
  have hlen : places.length = stages.length := by
    simpa using (congrArg List.length hplaced).symm
  have hlen' : settled.length = stages.length := by
    simpa using (congrArg List.length hsettle).symm
  refine ⟨?_, ?_⟩
  · rw [length_instructAll, hlen']
    · rw [hlen, hlen']
    · rw [length_propagate, mergeAll, List.length_map, hlen']
  · intro k s hs
    have hp : some (place r s) = places[k]?.map .ok := by
      simpa [hs] using congrArg (·[k]?) hplaced
    have ht : some (settleIncludes r config s) = settled[k]?.map .ok := by
      simpa [hs] using congrArg (·[k]?) hsettle
    obtain ⟨p, hp, hplace⟩ := Option.map_eq_some_iff.1 hp.symm
    obtain ⟨t, ht, hincludes⟩ := Option.map_eq_some_iff.1 ht.symm
    refine ⟨instruct t p _, ?_, hplace.symm, hincludes.symm, settleIncludes_id hincludes.symm,
      rfl⟩
    rw [getElem?_instructAll, ht, hp, hproperties, List.getElem?_mapIdx, getElem?_mergeAll, hs]
    rfl

/-- Every instruction of a plan is made of the stage at its place. -/
theorem instructs_of_ok {r : Registry} {config : Config} {overrides : Properties}
    {stages : List Stage} {is : List Instruction}
    (h : instructions r config overrides stages = .ok is) {k : Nat} {i : Instruction}
    (hi : is[k]? = some i) :
    ∃ s, stages[k]? = some s ∧
      Instructs r config s
        (settleAt config.defaultKey (mergeAll config overrides stages) k
          (s, overrides.merge config.propertyLead s.label)) i := by
  obtain ⟨hlen, hall⟩ := instructions_of_ok h
  have hk : k < stages.length := by
    rw [← hlen]
    exact (List.getElem?_eq_some_iff.1 hi).1
  have hs : stages[k]? = some stages[k] := List.getElem?_eq_getElem hk
  obtain ⟨i', hi', hmade⟩ := hall k _ hs
  rw [hi] at hi'
  cases hi'
  exact ⟨_, hs, hmade⟩

theorem counted_of_ok {r : Registry} {config : Config} {overrides : Properties}
    {stages : List Stage} {is : List Instruction}
    (h : instructions r config overrides stages = .ok is) :
    Counted (mergeAll config overrides stages) := by
  obtain ⟨_, _, _, hwalk, _⟩ := instructions_eq_ok_iff.1 h
  exact (propagate_of_ok hwalk).1

/-- The instructions are for the stages, one for each and in their order. -/
theorem ids_of_ok {r : Registry} {config : Config} {overrides : Properties}
    {stages : List Stage} {is : List Instruction}
    (h : instructions r config overrides stages = .ok is) :
    is.map Instruction.deploymentId = stages.map Stage.id := by
  obtain ⟨hlen, hall⟩ := instructions_of_ok h
  apply List.ext_getElem?
  intro k
  rw [List.getElem?_map, List.getElem?_map]
  cases hs : stages[k]? with
  | none =>
    have : is[k]? = none := by
      rw [List.getElem?_eq_none_iff] at hs ⊢
      omega
    rw [this]
    rfl
  | some s =>
    obtain ⟨i, hi, hmade⟩ := hall k s hs
    rw [hi, Option.map_some, Option.map_some, hmade.id_eq]

end Rollout.Planning

namespace Rollout.Pipeline

/-! ## The plan of a pipeline -/

theorem plan_eq_ok_iff {p : Pipeline} {r : Registry} {config : Config} {overrides : Properties}
    {id : PlanId} {made : Plan} :
    p.plan r config overrides id = .ok made ↔
      Planning.instructions r config overrides p.deployOrder = .ok made.instructions ∧
        made.id = id ∧ made.pipeline = p.name := by
  unfold plan instructions
  cases h : Planning.instructions r config overrides p.deployOrder with
  | error fault => simp [Except.map]
  | ok is =>
    obtain ⟨id', name, is'⟩ := made
    simp only [Except.map, Except.ok.injEq, Plan.mk.injEq]
    constructor
    · rintro ⟨rfl, rfl, rfl⟩
      exact ⟨rfl, rfl, rfl⟩
    · rintro ⟨rfl, rfl, rfl⟩
      exact ⟨rfl, rfl, rfl⟩

theorem plan_eq_error_iff {p : Pipeline} {r : Registry} {config : Config}
    {overrides : Properties} {id : PlanId} {fault : Fault} :
    p.plan r config overrides id = .error fault ↔
      Planning.instructions r config overrides p.deployOrder = .error fault := by
  unfold plan instructions
  cases h : Planning.instructions r config overrides p.deployOrder <;> simp [Except.map]

/-- Deployment goes against the flow, so places count from the other end. -/
theorem getElem?_deployOrder (p : Pipeline) {i : Nat} (h : i < p.size) :
    p.deployOrder[i]? = p.stages[p.size - 1 - i]? := by
  unfold deployOrder
  exact List.getElem?_reverse h

theorem lt_size_of_getElem?_deployOrder {p : Pipeline} {i : Nat} {s : Stage}
    (h : p.deployOrder[i]? = some s) : i < p.size := by
  have hlt := (List.getElem?_eq_some_iff.1 h).1
  rwa [deployOrder, List.length_reverse] at hlt

theorem deployOrder_ids (p : Pipeline) : p.deployOrder.map Stage.id = p.ids.reverse := by
  unfold deployOrder ids
  rw [List.map_reverse]

/-- A plan deploys the stages of its pipeline against the flow. -/
theorem plan_ids {p : Pipeline} {r : Registry} {config : Config} {overrides : Properties}
    {id : PlanId} {made : Plan} (h : p.plan r config overrides id = .ok made) :
    made.ids = p.ids.reverse := by
  obtain ⟨his, _, _⟩ := plan_eq_ok_iff.1 h
  unfold Plan.ids
  rw [Planning.ids_of_ok his, deployOrder_ids]

theorem plan_ids_nodup {p : Pipeline} {r : Registry} {config : Config} {overrides : Properties}
    {id : PlanId} {made : Plan} (h : p.plan r config overrides id = .ok made) :
    made.ids.Nodup := by
  rw [plan_ids h]
  exact List.nodup_reverse.2 p.ids_nodup

end Rollout.Pipeline
