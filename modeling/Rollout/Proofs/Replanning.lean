-- Planning what was planned. A plan settles the libraries of its stages, and settled stages are
-- placed, counted and settled as they were; so a pipeline of the settled stages has the same plan.
import Rollout.Proofs.PlanContents
import Rollout.Proofs.SettledLibraries

namespace Rollout

/-! ## Settled stages -/

/-- Setting what is set changes nothing. -/
theorem SortedMap.insert_of_get? {κ ν : Type} [Ord κ] [Std.TransOrd κ] [Std.LawfulEqOrd κ]
    {m : SortedMap κ ν} {k : κ} {v : ν} (h : m.get? k = some v) : m.insert k v = m := by
  classical
  apply ext_get?
  intro k'
  rw [get?_insert]
  split
  · next heq => rw [heq, h]
  · rfl

theorem Stage.setParameter_of_parameter? {s : Stage} {key value : String}
    (h : s.parameter? key = some value) : s.setParameter key value = s := by
  unfold setParameter
  rw [SortedMap.insert_of_get? h]

namespace Planning

variable {r : Registry} {config : Config} {overrides : Properties}

theorem settleIncludes_of_settleIncludes (hlibraries : r.ListsLibraries) {s s' : Stage}
    (h : settleIncludes r config s = .ok s') : settleIncludes r config s' = .ok s' := by
  rcases settleIncludes_eq_ok_iff.1 h with ⟨_, rfl⟩ | ⟨list, text, _, htext, rfl⟩
  · exact h
  · have hset : (s.setParameter config.includesParameter text).parameter?
        config.includesParameter = some text := by
      rw [Stage.parameter?_setParameter, if_pos rfl]
    refine settleIncludes_eq_ok_iff.2 (Or.inr ⟨text, text, hset, ?_, ?_⟩)
    · exact Includes.resolve_of_resolve hlibraries htext
    · exact (Stage.setParameter_of_parameter? hset).symm

/-- A settled stage has the role it had, and is placed where it was. -/
theorem place_of_settleIncludes {s s' : Stage} (h : settleIncludes r config s = .ok s') :
    place r s' = place r s := by
  obtain ⟨hname, hlabel, _⟩ := settleIncludes_frame h
  have hinput : s'.hasInput = s.hasInput := settleIncludes_contains h Key.input
  have houtput : s'.hasOutput = s.hasOutput := settleIncludes_contains h Key.output
  unfold place Stage.role
  rw [hname, hlabel, hinput, houtput]

/-! ## Settled counts -/

/-- Stages that the walk does not tell apart: they have one label, an input both or none, and
the same properties. -/
def WalkedAlike (e e' : Stage × Properties) : Prop :=
  e'.1.label = e.1.label ∧ e'.1.hasInput = e.1.hasInput ∧ e'.2 = e.2

theorem nextHasKey_congr {flow flow' : List (Stage × Properties)}
    (h : List.Forall₂ WalkedAlike flow flow') :
    Partition.nextHasKey flow' = Partition.nextHasKey flow := by
  cases h with
  | nil => rfl
  | cons hhead _ => exact congrArg Partition.hasKey hhead.2.2

theorem properties_congr {flow flow' : List (Stage × Properties)}
    (h : List.Forall₂ WalkedAlike flow flow') : flow'.map (·.2) = flow.map (·.2) := by
  induction h with
  | nil => rfl
  | cons hhead _ ih => rw [List.map_cons, List.map_cons, hhead.2.2, ih]

/-- The walk over stages that it does not tell apart is the same. -/
theorem propagateFrom_congr (defaultKey : String) {flow flow' : List (Stage × Properties)}
    (h : List.Forall₂ WalkedAlike flow flow') (down : Partition.Downstream) :
    Partition.propagateFrom defaultKey down flow' =
      Partition.propagateFrom defaultKey down flow := by
  induction h generalizing down with
  | nil => rfl
  | @cons e e' rest rest' hhead htail ih =>
    obtain ⟨s, m⟩ := e
    obtain ⟨s', m'⟩ := e'
    obtain ⟨hlabel, hinput, hm⟩ := hhead
    simp only at hlabel hinput hm
    subst hm
    have hstep : Partition.step defaultKey down s' m' (Partition.nextHasKey rest') =
        Partition.step defaultKey down s m' (Partition.nextHasKey rest) := by
      unfold Partition.step Partition.isConsumer Partition.instances
      rw [nextHasKey_congr htail, hinput, hlabel]
    unfold Partition.propagateFrom
    simp only [hstep, properties_congr htail, ih]

theorem propagate_of_settled {stages settled : List Stage}
    (h : stages.mapM (settleIncludes r config) = .ok settled) :
    Partition.propagate config.defaultKey (mergeAll config overrides settled) =
      Partition.propagate config.defaultKey (mergeAll config overrides stages) := by
  apply propagateFrom_congr
  unfold mergeAll
  rw [List.forall₂_map_left_iff, List.forall₂_map_right_iff]
  refine (Traversal.mapM_eq_ok_iff_forall₂.1 h).imp fun s s' hs => ?_
  have hlabel : s'.label = s.label := (settleIncludes_frame hs).2.1
  exact ⟨hlabel, settleIncludes_contains hs Key.input, by rw [hlabel]⟩

/-! ## All stages -/

theorem map_stage_instructAll {settled : List Stage} {places : List (Role × Coordinates)}
    {properties : List Properties} (hplaces : places.length = settled.length)
    (hproperties : properties.length = settled.length) :
    (instructAll settled places properties).map Instruction.stage = settled := by
  induction settled generalizing places properties with
  | nil => rfl
  | cons s settled ih =>
    obtain ⟨placed, places, rfl⟩ := List.exists_cons_of_length_eq_add_one hplaces
    obtain ⟨m, properties, rfl⟩ := List.exists_cons_of_length_eq_add_one hproperties
    simp only [List.length_cons, Nat.add_right_cancel_iff] at hplaces hproperties
    rw [instructAll, List.map_cons, ih hplaces hproperties]
    rfl

/-- The stages that instructions settled are given the same instructions. -/
theorem instructions_of_instructions (hlibraries : r.ListsLibraries) {stages : List Stage}
    {is : List Instruction} (h : instructions r config overrides stages = .ok is) :
    instructions r config overrides (is.map Instruction.stage) = .ok is := by
  obtain ⟨places, settled, hplaces, hwalk, hsettled, rfl⟩ := instructions_eq_ok_iff.1 h
  have hplacesAll := Traversal.mapM_eq_ok_iff_forall₂.1 hplaces
  have hsettledAll := Traversal.mapM_eq_ok_iff_forall₂.1 hsettled
  have hstages : (instructAll settled places (Partition.propagate config.defaultKey
      (mergeAll config overrides stages)).1).map Instruction.stage = settled := by
    apply map_stage_instructAll
    · rw [← hplacesAll.length_eq, hsettledAll.length_eq]
    · rw [Partition.length_propagate, mergeAll, List.length_map, hsettledAll.length_eq]
  have hplacesAgain : settled.mapM (place r) = stages.mapM (place r) :=
    Traversal.mapM_congr_forall₂ (hsettledAll.imp fun _ _ hs => place_of_settleIncludes hs)
  have hsettledAgain :
      settled.mapM (settleIncludes r config) = stages.mapM (settleIncludes r config) := by
    refine Traversal.mapM_congr_forall₂ (hsettledAll.imp fun _ _ hs => ?_)
    rw [settleIncludes_of_settleIncludes hlibraries hs, hs]
  rw [hstages]
  refine instructions_eq_ok_iff.2 ⟨places, settled, ?_, ?_, ?_, ?_⟩
  · rw [hplacesAgain, hplaces]
  · rw [propagate_of_settled hsettled, hwalk]
  · rw [hsettledAgain, hsettled]
  · rw [propagate_of_settled hsettled]

end Planning

/-! ## The plan of a plan -/

namespace Pipeline

variable {p : Pipeline} {r : Registry} {config : Config} {overrides : Properties} {id : PlanId}
  {made : Plan}

/-- The stages of a plan, put back into the order in which data flows, make a pipeline. -/
theorem exists_build_of_plan (h : p.plan r config overrides id = .ok made) (text : String) :
    ∃ again, build p.name text (made.instructions.map Instruction.stage).reverse = .ok again ∧
      again.name = p.name ∧ again.deployOrder = made.instructions.map Instruction.stage := by
  have hlabels : (made.instructions.map Instruction.stage).map Stage.label =
      (p.stages.map Stage.label).reverse := by
    rw [List.map_map, ← List.map_reverse]
    exact plan_labels h
  have hgroup : ∀ s ∈ (made.instructions.map Instruction.stage).reverse, s.group = p.name := by
    intro s hs
    obtain ⟨i, hi, rfl⟩ := List.mem_map.1 (List.mem_reverse.1 hs)
    obtain ⟨place, hplace⟩ := List.mem_iff_getElem?.1 hi
    obtain ⟨s, hs, hcovers⟩ := covers_of_getElem? h hplace
    rw [hcovers.group_eq]
    exact p.group_eq s (List.mem_reverse.1 (List.mem_of_getElem? hs))
  have hne : (made.instructions.map Instruction.stage).reverse ≠ [] := by
    intro hnil
    rw [List.reverse_eq_nil_iff] at hnil
    rw [hnil, List.map_nil, List.nil_eq, List.reverse_eq_nil_iff, List.map_eq_nil_iff] at hlabels
    exact p.stages_ne_nil hlabels
  have hnodup : ((made.instructions.map Instruction.stage).reverse.map Stage.label).Nodup := by
    rw [List.map_reverse, hlabels, List.reverse_reverse]
    exact p.labels_nodup
  let again : Pipeline :=
    { name := p.name
      text := text
      stages := (made.instructions.map Instruction.stage).reverse
      name_visible := p.name_visible
      stages_ne_nil := hne
      labels_nodup := hnodup
      group_eq := hgroup }
  exact ⟨again, build_self again, rfl, List.reverse_reverse _⟩

/-- Planning what was planned changes nothing. Where the libraries of a registry can stand in a
list, a settled list is settled as it is, and the settled stages of a plan make a pipeline that is
planned with the same instructions. -/
theorem replanning_gives_the_same_instructions {r : Registry} (hlibraries : r.ListsLibraries) :
    (∀ list settled, Includes.resolve r list = .ok settled →
      Includes.resolve r settled = .ok settled) ∧
    ∀ (p : Pipeline) (config : Config) (overrides : Properties) (id : PlanId) (made : Plan),
      p.plan r config overrides id = .ok made → ∀ (text : String) (id' : PlanId),
        ∃ again,
          build p.name text (made.instructions.map Instruction.stage).reverse = .ok again ∧
          again.plan r config overrides id' = .ok { made with id := id' } := by
  constructor
  · intro list settled h
    exact Includes.resolve_of_resolve hlibraries h
  · intro p config overrides id made h text id'
    obtain ⟨his, _, hname⟩ := plan_eq_ok_iff.1 h
    obtain ⟨again, hbuild, hsame, horder⟩ := exists_build_of_plan h text
    refine ⟨again, hbuild, plan_eq_ok_iff.2 ⟨?_, rfl, ?_⟩⟩
    · rw [horder]
      exact Planning.instructions_of_instructions hlibraries his
    · rw [hsame]
      exact hname

/-- Two stages, of which the second one lists a library by name and two by coordinates. -/
def listedStages : List Stage :=
  [.make "time" none ∅ none (some "x"),
    .make "log" none
      (.ofList [(Key.includes, " jdbc ,\tcom.acme:util::2.0,,com.acme:x:zip:all:1")])
      (some "x") none]

theorem boundRegistry_listsLibraries : boundRegistry.ListsLibraries := by
  intro name c h
  have hc : c = .plain "org.example" "jdbc" "4.2" := by
    simp only [boundRegistry, Registry.ofList, List.foldl_cons, List.foldl_nil,
      Registry.coordinates?_register, reduceCtorEq, and_false, and_true, if_false] at h
    split at h
    · exact (Option.some.inj h).symm
    · cases h
  subst hc
  exact ⟨⟨by decide, by decide, by decide, by decide, by decide, by decide⟩, by decide, by decide⟩

theorem listed_stages_are_replanned :
    boundRegistry.ListsLibraries ∧
    ∃ (p again : Pipeline) (made : Plan) (i : Instruction),
      build "line" "time | log" listedStages = .ok p ∧
      p.plan boundRegistry {} ∅ ⟨0⟩ = .ok made ∧
      build p.name "again" (made.instructions.map Instruction.stage).reverse = .ok again ∧
      again.plan boundRegistry {} ∅ ⟨1⟩ = .ok { made with id := ⟨1⟩ } ∧
      made.instructions[0]? = some i ∧
      i.stage.parameter? Key.includes =
        some "org.example:jdbc:jar:4.2,com.acme:util:jar:2.0,com.acme:x:zip:all:1" := by
  have hrun : ((build "line" "time | log" listedStages).toOption.bind fun p =>
      (p.plan boundRegistry {} ∅ ⟨0⟩).toOption.bind fun made =>
      made.instructions[0]?.map fun i => i.stage.parameter? Key.includes) =
      some (some "org.example:jdbc:jar:4.2,com.acme:util:jar:2.0,com.acme:x:zip:all:1") := by
    decide +kernel
  simp only [Option.bind_eq_some_iff, Option.map_eq_some_iff,
    Traversal.toOption_eq_some_iff] at hrun
  obtain ⟨p, hp, made, hplan, i, hi, hincludes⟩ := hrun
  obtain ⟨_, hagain⟩ := replanning_gives_the_same_instructions boundRegistry_listsLibraries
  obtain ⟨again, hbuild, hreplan⟩ := hagain p {} ∅ ⟨0⟩ made hplan "again" ⟨1⟩
  exact ⟨boundRegistry_listsLibraries, p, again, made, i, hp, hplan, hbuild, hreplan, hi,
    hincludes⟩

end Pipeline

end Rollout
