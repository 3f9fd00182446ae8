-- What a plan holds, stage by stage. Every stage of the pipeline has one instruction, at its place
-- in the order of deployment. The instruction knows the stage with its libraries settled, which
-- has all the parameters it had and so the role it had, whatever parameter lists the libraries.
import Rollout.Proofs.PlanShape

namespace Rollout

/-! ## One parameter set -/

namespace Stage

theorem parameter?_setParameter (s : Stage) (key value key' : String) :
    (s.setParameter key value).parameter? key' =
      if key' = key then some value else s.parameter? key' :=
  SortedMap.get?_insert s.parameters key key' value

/-- Setting a parameter that is there leaves the same parameters there. -/
theorem contains_setParameter {s : Stage} {key : String} (value : String)
    (h : (s.parameter? key).isSome) (key' : String) :
    (s.setParameter key value).parameters.contains key' = s.parameters.contains key' := by
  show ((s.setParameter key value).parameter? key').isSome = (s.parameter? key').isSome
  rw [parameter?_setParameter]
  by_cases hkey : key' = key
  · subst hkey
    simp [h]
  · simp [hkey]

/-- A stage has its role by the presence of its bindings alone. -/
theorem role_eq_ok_of_contains {s s' : Stage} {role : Role} (hrole : s.role = .ok role)
    (h : ∀ key, s'.parameters.contains key = s.parameters.contains key) :
    s'.role = .ok role := by
  obtain ⟨hinput, houtput⟩ := role_eq_ok_iff.1 hrole
  apply role_eq_ok_iff.2
  constructor
  · rw [← hinput]
    exact h Key.input
  · rw [← houtput]
    exact h Key.output

end Stage

/-! ## The settled stage -/

namespace Planning

/-- A stage that lists no libraries is settled as it is; one that lists some has the list with
their coordinates in its place. -/
theorem settleIncludes_eq_ok_iff {r : Registry} {config : Config} {s s' : Stage} :
    settleIncludes r config s = .ok s' ↔
      (s.parameter? config.includesParameter = none ∧ s' = s) ∨
      ∃ list text, s.parameter? config.includesParameter = some list ∧
        Includes.resolve r list = .ok text ∧
        s' = s.setParameter config.includesParameter text := by
  unfold settleIncludes
  cases s.parameter? config.includesParameter with
  | none => simp [eq_comm]
  | some list => cases hlist : Includes.resolve r list <;> simp [Except.map, hlist, eq_comm]

theorem settleIncludes_contains {r : Registry} {config : Config} {s s' : Stage}
    (h : settleIncludes r config s = .ok s') (key : String) :
    s'.parameters.contains key = s.parameters.contains key := by
  rcases settleIncludes_eq_ok_iff.1 h with ⟨_, rfl⟩ | ⟨list, text, hlist, _, rfl⟩
  · rfl
  · apply Stage.contains_setParameter
    rw [hlist]
    rfl

/-- Settling touches no parameter but the one that lists libraries. -/
theorem settleIncludes_parameter? {r : Registry} {config : Config} {s s' : Stage}
    (h : settleIncludes r config s = .ok s') {key : String}
    (hkey : key ≠ config.includesParameter) : s'.parameter? key = s.parameter? key := by
  rcases settleIncludes_eq_ok_iff.1 h with ⟨_, rfl⟩ | ⟨list, text, _, _, rfl⟩
  · rfl
  · rw [Stage.parameter?_setParameter, if_neg hkey]

theorem settleIncludes_rewrites {r : Registry} {config : Config} {s s' : Stage} {list : String}
    (h : settleIncludes r config s = .ok s')
    (hlist : s.parameter? config.includesParameter = some list) :
    ∃ text, Includes.resolve r list = .ok text ∧
      s'.parameter? config.includesParameter = some text := by
  rcases settleIncludes_eq_ok_iff.1 h with ⟨hnone, _⟩ | ⟨list', text, hlist', htext, rfl⟩
  · rw [hnone] at hlist
    cases hlist
  · rw [hlist'] at hlist
    cases hlist
    exact ⟨text, htext, by rw [Stage.parameter?_setParameter, if_pos rfl]⟩

/-- A stage is placed by its role, at what is registered for its name and that role. -/
theorem place_eq_ok_iff {r : Registry} {s : Stage} {role : Role} {coordinates : Coordinates} :
    place r s = .ok (role, coordinates) ↔
      s.role = .ok role ∧ r.coordinates? s.name role.kind = some coordinates := by
  unfold place Registry.resolve
  cases hrole : s.role with
  | error fault => simp [bind, Except.bind]
  | ok role' =>
    cases hfound : r.coordinates? s.name role'.kind with
    | none =>
      simp only [bind, Except.bind, hfound, reduceCtorEq, Except.ok.injEq, false_iff, not_and]
      rintro rfl
      rw [hfound]
      simp
    | some c =>
      simp only [bind, Except.bind, hfound, pure, Except.pure, Except.ok.injEq, Prod.mk.injEq]
      constructor
      · rintro ⟨rfl, rfl⟩
        exact ⟨rfl, hfound⟩
      · rintro ⟨rfl, hc⟩
        rw [hfound] at hc
        cases hc
        exact ⟨rfl, rfl⟩

/-! ## One stage of a plan -/

/-- The instruction is what the plan of the pipeline has for the stage at a place. -/
structure Covers (r : Registry) (config : Config) (overrides : Properties) (p : Pipeline)
    (place : Nat) (s : Stage) (i : Instruction) : Prop where
  id_eq : i.deploymentId = ⟨p.name, s.label⟩
  role_eq : s.role = .ok i.role
  settled_role_eq : i.stage.role = .ok i.role
  found : r.coordinates? s.name i.role.kind = some i.coordinates
  name_eq : i.stage.name = s.name
  label_eq : i.stage.label = s.label
  group_eq : i.stage.group = s.group
  same_keys : ∀ key, i.stage.parameters.contains key = s.parameters.contains key
  kept : ∀ key, key ≠ config.includesParameter → i.stage.parameter? key = s.parameter? key
  rewritten : ∀ list, s.parameter? config.includesParameter = some list →
    ∃ text, Includes.resolve r list = .ok text ∧
      i.stage.parameter? config.includesParameter = some text
  properties_at :
    (Partition.propagate config.defaultKey (mergeAll config overrides p.deployOrder)).1[place]? =
      some i.properties

theorem covers_of_instructs {r : Registry} {config : Config} {overrides : Properties}
    {p : Pipeline} {place : Nat} {s : Stage} {i : Instruction}
    (hwalk : (Partition.propagate config.defaultKey
      (mergeAll config overrides p.deployOrder)).2 = .ok ())
    (hs : p.deployOrder[place]? = some s)
    (h : Instructs r config s
      (Partition.settleAt config.defaultKey (mergeAll config overrides p.deployOrder) place
        (s, overrides.merge config.propertyLead s.label)) i) :
    Covers r config overrides p place s i := by
  obtain ⟨hname, hlabel, hgroup⟩ := settleIncludes_frame h.settled
  obtain ⟨hrole, hfound⟩ := place_eq_ok_iff.1 h.placed
  have hsame := settleIncludes_contains h.settled
  have hmem : s ∈ p.stages := List.mem_reverse.1 (List.mem_of_getElem? hs)
  refine ⟨?_, hrole, Stage.role_eq_ok_of_contains hrole hsame, hfound, hname, hlabel, hgroup,
    hsame, fun key hkey => settleIncludes_parameter? h.settled hkey,
    fun list hlist => settleIncludes_rewrites h.settled hlist, ?_⟩
  · rw [h.id_eq, Stage.id, p.group_eq s hmem]
  · rw [(Partition.propagate_of_ok hwalk).2, List.getElem?_mapIdx, getElem?_mergeAll, hs,
      h.properties_eq]
    rfl

end Planning

/-! ## Identities and labels -/

/-- Identities of one group are told apart by what they look like. -/
theorem StageId.eq_of_text {a b : StageId} (hgroup : a.group = b.group) (h : a.text = b.text) :
    a = b := by
  unfold text at h
  rw [hgroup, String.append_right_inj] at h
  cases a
  cases b
  simp_all

/-! ## The plan of a pipeline -/

namespace Pipeline

variable {p : Pipeline} {r : Registry} {config : Config} {overrides : Properties} {id : PlanId}
  {made : Plan}

theorem group_eq_of_mem_ids {stage : StageId} (h : stage ∈ p.ids) : stage.group = p.name := by
  obtain ⟨s, hs, rfl⟩ := List.mem_map.1 h
  exact p.group_eq s hs

/-- The stages of one pipeline do not look alike. -/
theorem ids_text_nodup (p : Pipeline) : (p.ids.map StageId.text).Nodup := by
  apply List.Nodup.map_on _ p.ids_nodup
  intro a ha b hb htext
  apply StageId.eq_of_text _ htext
  rw [group_eq_of_mem_ids ha, group_eq_of_mem_ids hb]

/-- Every stage has an instruction at its place. -/
theorem exists_covers (h : p.plan r config overrides id = .ok made) {place : Nat} {s : Stage}
    (hs : p.deployOrder[place]? = some s) :
    ∃ i, made.instructions[place]? = some i ∧
      Planning.Covers r config overrides p place s i := by
  obtain ⟨his, _, _⟩ := plan_eq_ok_iff.1 h
  obtain ⟨_, _, _, hwalk, _, _⟩ := Planning.instructions_eq_ok_iff.1 his
  obtain ⟨i, hi, hmade⟩ := (Planning.instructions_of_ok his).2 place s hs
  exact ⟨i, hi, Planning.covers_of_instructs hwalk hs hmade⟩

/-- Every instruction is for the stage at its place. -/
theorem covers_of_getElem? (h : p.plan r config overrides id = .ok made) {place : Nat}
    {i : Instruction} (hi : made.instructions[place]? = some i) :
    ∃ s, p.deployOrder[place]? = some s ∧
      Planning.Covers r config overrides p place s i := by
  obtain ⟨his, _, _⟩ := plan_eq_ok_iff.1 h
  obtain ⟨s, hs, _⟩ := Planning.instructs_of_ok his hi
  obtain ⟨i', hi', hcovers⟩ := exists_covers h hs
  rw [hi] at hi'
  cases hi'
  exact ⟨s, hs, hcovers⟩

/-- An instruction is known by the label of its stage in its identity too. -/
theorem deploymentId_eq_of_mem (h : p.plan r config overrides id = .ok made) {i : Instruction}
    (hi : i ∈ made.instructions) : i.deploymentId = ⟨p.name, i.stage.label⟩ := by
  obtain ⟨place, hplace⟩ := List.mem_iff_getElem?.1 hi
  obtain ⟨s, _, hcovers⟩ := covers_of_getElem? h hplace
  rw [hcovers.id_eq, hcovers.label_eq]

theorem plan_labels (h : p.plan r config overrides id = .ok made) :
    made.instructions.map (·.stage.label) = p.deployOrder.map Stage.label := by
  obtain ⟨his, _, _⟩ := plan_eq_ok_iff.1 h
  have hids := congrArg (List.map StageId.label) (Planning.ids_of_ok his)
  rw [List.map_map, List.map_map] at hids
  refine Eq.trans (List.map_congr_left fun i hi => ?_) hids
  rw [Function.comp_apply, deploymentId_eq_of_mem h hi]

/-- A search by a label finds the instruction of the stage of that label. -/
theorem instruction?_eq_some_iff (h : p.plan r config overrides id = .ok made) {label : String}
    {i : Instruction} :
    made.instruction? label = some i ↔
      i ∈ made.instructions ∧ i.deploymentId = ⟨p.name, label⟩ := by
  have hnodup : (made.instructions.map (·.stage.label)).Nodup := by
    rw [plan_labels h, deployOrder, List.map_reverse, List.nodup_reverse]
    exact p.labels_nodup
  unfold Plan.instruction?
  rw [Traversal.find?_eq_some_iff_of_nodup hnodup]
  apply and_congr_right
  intro hi
  rw [deploymentId_eq_of_mem h hi]
  simp

theorem instruction?_eq_none_iff (h : p.plan r config overrides id = .ok made) {label : String} :
    made.instruction? label = none ↔ p.stage? label = none := by
  have hmem : (∃ i ∈ made.instructions, i.stage.label = label) ↔
      ∃ s ∈ p.stages, s.label = label := by
    rw [← List.mem_map, plan_labels h, deployOrder, List.map_reverse, List.mem_reverse,
      List.mem_map]
  unfold Plan.instruction? stage?
  rw [List.find?_eq_none, List.find?_eq_none]
  simpa using not_congr hmem

/-- A plan has one instruction for each stage of its pipeline, against the flow, and that is what
the stage, the registry and the overrides make it. No two instructions are for stages that are the
same or look the same, and each is found by the label of its stage. -/
theorem every_stage_has_its_instruction (h : p.plan r config overrides id = .ok made) :
    made.pipeline = p.name ∧ made.instructions.length = p.stages.length ∧
    (∀ (place : Nat) (s : Stage), p.stages.reverse[place]? = some s →
      ∃ i, made.instructions[place]? = some i ∧
        Planning.Covers r config overrides p place s i ∧
        made.instruction? s.label = some i) ∧
    made.ids.Nodup ∧ (made.ids.map StageId.text).Nodup ∧
    (∀ label i, made.instruction? label = some i ↔
      i ∈ made.instructions ∧ i.deploymentId = ⟨p.name, label⟩) ∧
    ∀ label, made.instruction? label = none ↔ p.stage? label = none := by
  have hlength : made.ids.length = p.ids.length := by
    rw [plan_ids h, List.length_reverse]
  refine ⟨(plan_eq_ok_iff.1 h).2.2, by simpa [Plan.ids, ids] using hlength, ?_, plan_ids_nodup h,
    ?_, fun label i => instruction?_eq_some_iff h, fun label => instruction?_eq_none_iff h⟩
  · intro place s hs
    obtain ⟨i, hi, hcovers⟩ := exists_covers h hs
    refine ⟨i, hi, hcovers, (instruction?_eq_some_iff h).2 ⟨?_, hcovers.id_eq⟩⟩
    exact List.mem_of_getElem? hi
  · rw [plan_ids h, List.map_reverse, List.nodup_reverse]
    exact p.ids_text_nodup

/-- Two stages, of which the second one takes its data from what reads as a list of libraries. -/
def boundStages : List Stage :=
  [.make "time" none ∅ none (some "x"), .make "log" none ∅ (some "jdbc, com.acme:util:2.0") none]

/-- Settings by which the input of a stage lists its libraries. -/
def boundConfig : Config := { includesParameter := Key.input }

/-- A registry of a source, a sink and a library. -/
def boundRegistry : Registry :=
  .ofList
    [⟨"time", .source, .plain "org.example" "time-source" "1.0.0"⟩,
      ⟨"log", .sink, .plain "org.example" "log-sink" "1.0.0"⟩,
      ⟨"jdbc", .library, .plain "org.example" "jdbc" "4.2"⟩]

theorem sink_with_rewritten_input_has_its_instruction :
    ∃ (p : Pipeline) (made : Plan) (s : Stage) (i : Instruction),
      build "line" "time | log" boundStages = .ok p ∧
      p.plan boundRegistry boundConfig ∅ ⟨0⟩ = .ok made ∧
      p.stages.reverse[0]? = some s ∧ made.instructions[0]? = some i ∧
      Planning.Covers boundRegistry boundConfig ∅ p 0 s i ∧
      made.instruction? s.label = some i ∧ i.role = .sink ∧
      i.stage.parameter? Key.input =
        some "org.example:jdbc:jar:4.2,com.acme:util:jar:2.0" := by
  have hrun : ((build "line" "time | log" boundStages).toOption.bind fun p =>
      (p.plan boundRegistry boundConfig ∅ ⟨0⟩).toOption.bind fun made =>
      p.stages.reverse[0]?.bind fun s => made.instructions[0]?.map fun i =>
        decide (i.role = .sink ∧ i.stage.parameter? Key.input =
          some "org.example:jdbc:jar:4.2,com.acme:util:jar:2.0")) = some true := by
    decide +kernel
  simp only [Option.bind_eq_some_iff, Option.map_eq_some_iff, Traversal.toOption_eq_some_iff,
    decide_eq_true_eq] at hrun
  obtain ⟨p, hp, made, hplan, s, hs, i, hi, hsink, hinput⟩ := hrun
  obtain ⟨_, _, hcovered, _⟩ := every_stage_has_its_instruction hplan
  obtain ⟨i', hi', hcovers, hfound⟩ := hcovered 0 s hs
  rw [hi] at hi'
  cases hi'
  exact ⟨p, made, s, i, hp, hplan, hs, hi, hcovers, hfound, hsink, hinput⟩

end Pipeline

end Rollout
