-- Plans of pipelines in one line. Every stage but the first takes what the stage before it gives,
-- and the registry knows every stage in its role, so that a plan fails by a count alone. The two
-- stages at the ends are told nothing of a side that they lack.
import Rollout.Proofs.InstanceCounts
import Rollout.Proofs.PlanContents

namespace Rollout

/-! ## The stages of a line -/

namespace Linear

/-- What the stage at a place takes. -/
def inputAt (pipeline : String) : Nat → Option String
  | 0 => none
  | k + 1 => some (destination pipeline k)

/-- What the stage at a place gives, in a line of a given length. -/
def outputAt (pipeline : String) (size k : Nat) : Option String :=
  if k + 1 = size then none else some (destination pipeline k)

/-- The role that a place has, in a line of a given length. -/
def roleAt (size k : Nat) : Role :=
  if k = 0 then .source else if k + 1 = size then .sink else .processor

theorem consumes_roleAt_eq_false_iff {size k : Nat} :
    (roleAt size k).consumes = false ↔ k = 0 := by
  unfold roleAt
  split
  · simp [*, Role.consumes]
  · split <;> simp [*, Role.consumes]

theorem add_one_eq_of_produces_roleAt {size k : Nat} (h : (roleAt size k).produces = false) :
    k + 1 = size := by
  unfold roleAt at h
  split at h
  · cases h
  · split at h
    · assumption
    · cases h

/-- A stage has no parameters but its bindings. -/
theorem parameter?_stage (written : String) (input output : Option String) (key : String) :
    (stage written input output).parameter? key =
      if key = Key.output then output else if key = Key.input then input else none := by
  show (((∅ : Properties).insertSome Key.input input).insertSome Key.output output).get? key = _
  have hbindings : Key.output ≠ Key.input := by decide
  rw [SortedMap.get?_insertSome, SortedMap.get?_insertSome, SortedMap.get?_empty, Option.or_none]
  split
  · next h => rw [h, if_neg hbindings, Option.or_none]
  · rfl

theorem stagesFrom_eq (pipeline : String) (number : Nat) (entries : List String) :
    stagesFrom pipeline number (inputAt pipeline number) entries =
      entries.mapIdx fun k written => stage written (inputAt pipeline (number + k))
        (outputAt pipeline (number + entries.length) (number + k)) := by
  induction entries generalizing number with
  | nil => rfl
  | cons written rest ih =>
    cases rest with
    | nil => simp [stagesFrom, outputAt]
    | cons next rest =>
      have hsize : number + 1 + (next :: rest).length =
          number + (written :: next :: rest).length := by
        simp only [List.length_cons]
        omega
      have hplace : ∀ k, number + 1 + k = number + (k + 1) := fun k => by omega
      have hlater := ih (number + 1)
      simp only [hsize, hplace] at hlater
      have hgives : some (destination pipeline number) =
          outputAt pipeline (number + (written :: next :: rest).length) (number + 0) := by
        simp [outputAt]
      rw [List.mapIdx_cons, ← hlater, ← hgives]
      rfl

theorem build_eq_ok {pipeline : String} {entries : List String} {l : Linear}
    (h : build pipeline entries = .ok l) :
    2 ≤ entries.length ∧
      l.pipeline.stages = (stagesFrom pipeline 0 none entries).map (·.regroup pipeline) ∧
      l.registry = l.pipeline.stages.foldl registerStage ∅ := by
  unfold build stages at h
  by_cases hfew : entries.length < 2
  · rw [if_pos hfew] at h
    cases h
  · rw [if_neg hfew] at h
    simp only [bind, Except.bind] at h
    split at h
    · cases h
    · next p hp =>
      cases h
      exact ⟨by omega, (Pipeline.build_eq_ok_iff.1 hp).2.2, rfl⟩

section Built

variable {pipeline : String} {entries : List String} {l : Linear}
  (h : build pipeline entries = .ok l)

include h

/-- The stages are those of the entries, each bound to its neighbours. -/
theorem stages_eq :
    l.pipeline.stages = entries.mapIdx fun k written =>
      (stage written (inputAt pipeline k) (outputAt pipeline entries.length k)).regroup
        pipeline := by
  have hstages := stagesFrom_eq pipeline 0 entries
  simp only [Nat.zero_add] at hstages
  rw [(build_eq_ok h).2.1]
  show (stagesFrom pipeline 0 (inputAt pipeline 0) entries).map _ = _
  rw [hstages]
  exact List.ext_getElem? fun k => by simp [Function.comp_def]

theorem length_stages : l.pipeline.stages.length = entries.length := by
  rw [stages_eq h, List.length_mapIdx]

theorem parameter?_of_getElem? {k : Nat} {s : Stage} (hs : l.pipeline.stages[k]? = some s)
    (key : String) :
    s.parameter? key = if key = Key.output then outputAt pipeline entries.length k
      else if key = Key.input then inputAt pipeline k else none := by
  rw [stages_eq h, List.getElem?_mapIdx] at hs
  obtain ⟨written, _, rfl⟩ := Option.map_eq_some_iff.1 hs
  exact parameter?_stage written _ _ key

theorem input_of_getElem? {k : Nat} {s : Stage} (hs : l.pipeline.stages[k]? = some s) :
    s.parameter? Key.input = inputAt pipeline k := by
  rw [parameter?_of_getElem? h hs, if_neg (by decide), if_pos rfl]

theorem output_of_getElem? {k : Nat} {s : Stage} (hs : l.pipeline.stages[k]? = some s) :
    s.parameter? Key.output = outputAt pipeline entries.length k := by
  rw [parameter?_of_getElem? h hs, if_pos rfl]

theorem role_of_getElem? {k : Nat} {s : Stage} (hs : l.pipeline.stages[k]? = some s) :
    s.role = .ok (roleAt entries.length k) := by
  have hsize := (build_eq_ok h).1
  have hinput : s.hasInput = (inputAt pipeline k).isSome :=
    congrArg Option.isSome (input_of_getElem? h hs)
  have houtput : s.hasOutput = (outputAt pipeline entries.length k).isSome :=
    congrArg Option.isSome (output_of_getElem? h hs)
  rw [Stage.role_eq_ok_iff, hinput, houtput]
  unfold roleAt outputAt
  cases k with
  | zero =>
    rw [if_pos rfl, if_neg (by omega)]
    exact ⟨rfl, rfl⟩
  | succ k =>
    rw [if_neg (by omega)]
    split <;> exact ⟨rfl, rfl⟩

/-- What a stage gives is what the next one takes. -/
theorem output_eq_input {k : Nat} {s t : Stage} (hs : l.pipeline.stages[k]? = some s)
    (ht : l.pipeline.stages[k + 1]? = some t) :
    s.parameter? Key.output = some (destination pipeline k) ∧
      t.parameter? Key.input = some (destination pipeline k) := by
  have hk : k + 1 < entries.length := by
    rw [← length_stages h]
    exact (List.getElem?_eq_some_iff.1 ht).1
  constructor
  · rw [output_of_getElem? h hs, outputAt, if_neg (by omega)]
  · rw [input_of_getElem? h ht, inputAt]

end Built

/-! ## The registry of a line -/

theorem coordinates?_registerStage {r : Registry} {s : Stage} {role : Role}
    (hrole : s.role = .ok role) (name : String) (kind : ArtifactKind) :
    (registerStage r s).coordinates? name kind =
      if name = s.name ∧ kind = role.kind then some (coordinates name kind)
      else r.coordinates? name kind := by
  unfold registerStage
  rw [hrole]
  show (r.register _).coordinates? name kind = _
  rw [Registry.coordinates?_register]
  split
  · next hsame => rw [hsame.1, hsame.2]
  · rfl

/-- Registering further stages keeps what stands where a line has it. -/
theorem coordinates?_foldl_of_coordinates? {stages : List Stage}
    (hroles : ∀ s ∈ stages, ∃ role, s.role = .ok role) {r : Registry} {name : String}
    {kind : ArtifactKind} (hr : r.coordinates? name kind = some (coordinates name kind)) :
    (stages.foldl registerStage r).coordinates? name kind = some (coordinates name kind) := by
  induction stages generalizing r with
  | nil => exact hr
  | cons s stages ih =>
    obtain ⟨role, hrole⟩ := hroles s List.mem_cons_self
    refine ih (fun t ht => hroles t (List.mem_cons_of_mem _ ht)) ?_
    rw [coordinates?_registerStage hrole, hr, ite_self]

/-- All stages that are registered one after the other stand where a line has them. -/
theorem coordinates?_foldl {stages : List Stage}
    (hroles : ∀ s ∈ stages, ∃ role, s.role = .ok role) (r : Registry) {s : Stage} {role : Role}
    (hs : s ∈ stages) (hrole : s.role = .ok role) :
    (stages.foldl registerStage r).coordinates? s.name role.kind =
      some (coordinates s.name role.kind) := by
  induction stages generalizing r with
  | nil => cases hs
  | cons first rest ih =>
    have hrest : ∀ t ∈ rest, ∃ role, t.role = .ok role :=
      fun t ht => hroles t (List.mem_cons_of_mem _ ht)
    rcases List.mem_cons.1 hs with rfl | hs
    · refine coordinates?_foldl_of_coordinates? hrest ?_
      rw [coordinates?_registerStage hrole, if_pos ⟨rfl, rfl⟩]
    · exact ih hrest (registerStage r first) hs

end Linear

/-! ## The stages at the ends -/

namespace Partition

variable {defaultKey : String} {m : Properties}

theorem writtenAt_of_not_takes {parts : Option Nat} {k : String} (hk : k ∉ Key.producerKeys) :
    writtenAt defaultKey m false parts k = none := by
  simp only [Key.producerKeys, List.mem_cons, List.not_mem_nil, or_false, not_or] at hk
  obtain ⟨h1, h2, h3, h4, h5⟩ := hk
  simp only [writtenAt, h1, h2, h3, h4, h5, if_false, Bool.false_eq_true, ite_self]

theorem writtenAt_of_no_parts {takes : Bool} {k : String} (hk : k ∉ Key.consumerKeys) :
    writtenAt defaultKey m takes none k = none := by
  simp only [Key.consumerKeys, List.mem_cons, List.not_mem_nil, or_false, not_or] at hk
  obtain ⟨h1, h2⟩ := hk
  simp only [writtenAt, h1, h2, if_false, Option.map_none, Option.bind_none, ite_self]

variable {flow : List (Stage × Properties)} {e : Stage × Properties}

/-- The stage that is visited last has no stage to take partitioned data from. -/
theorem get?_settleAt_last {i : Nat} (he : flow[i]? = some e) (hlast : i + 1 = flow.length)
    (hinput : e.1.hasInput = false) {k : String} (hk : k ∉ Key.producerKeys) :
    (settleAt defaultKey flow i e).get? k = e.2.get? k := by
  have htakes : takesAt flow i = false := by
    unfold takesAt
    rw [he, List.getElem?_eq_none (by omega)]
    simp [hinput]
  unfold settleAt
  rw [get?_settle, htakes, writtenAt_of_not_takes hk, Option.none_or]

/-- The stage that is visited first has no stage to give partitioned data to. -/
theorem get?_settleAt_first {k : String} (hk : k ∉ Key.consumerKeys) :
    (settleAt defaultKey flow 0 e).get? k = e.2.get? k := by
  show (settle defaultKey e.2 (takesAt flow 0) none).get? k = _
  rw [get?_settle, writtenAt_of_no_parts hk, Option.none_or]

end Partition

theorem Key.output_partition_notMem_consumerKeys (rest : String) :
    "bindings.output.partition" ++ rest ∉ Key.consumerKeys := by
  intro h
  simp only [Key.consumerKeys, List.mem_cons, List.not_mem_nil, or_false] at h
  rcases h with h | h
  · have hchar := congrArg (fun t => t.toList[9]?) h
    simp [Key.inputPartitioned] at hchar
  · have hchar := congrArg (fun t => t.toList[0]?) h
    simp [Key.inputInstances] at hchar

theorem Key.consumerKeys_notMem_producerKeys {k : String} (h : k ∈ consumerKeys) :
    k ∉ producerKeys := by
  have : ∀ k ∈ consumerKeys, k ∉ producerKeys := by decide
  exact this k h

/-! ## The plan of a line -/

namespace Planning

/-- A stage is counted if its count, where it has one, writes a positive number within the
limit. -/
theorem not_uncounted_iff {config : Config} {overrides : Properties} {s : Stage} :
    ¬ Uncounted config overrides s ↔
      ∀ written, (overrides.merge config.propertyLead s.label).get? Key.count = some written →
        ∃ n, Partition.WritesCount written n ∧ 1 ≤ n ∧ n ≤ 2 ^ 32 - 1 := by
  unfold Uncounted Miscounted
  simp only [Partition.denotes_iff_writesCount]
  constructor
  · intro hcounted written hwritten
    exact Classical.byContradiction fun hnone => hcounted ⟨written, hwritten, hnone⟩
  · rintro hall ⟨written, hwritten, hnone⟩
    exact hnone (hall written hwritten)

end Planning

namespace Linear

open Rollout.Partition Rollout.Planning

/-- An instruction is what the plan of a line has for the stage at a place in the order of
deployment. -/
structure Serves (l : Linear) (overrides : Properties) (place : Nat) (s : Stage)
    (i : Instruction) : Prop where
  deployed : l.pipeline.deployOrder[place]? = some s
  role_eq : s.role = .ok i.role
  role_at : i.role = roleAt l.pipeline.size (l.pipeline.size - 1 - place)
  name_eq : i.stage.name = s.name
  label_eq : i.stage.label = s.label
  coordinates_eq : i.coordinates = coordinates s.name i.role.kind
  properties_eq : i.properties =
    settleAt payload (mergeAll {} overrides l.pipeline.deployOrder) place
      (s, overrides.merge Scope.defaultLead s.label)

section Built

variable {pipeline : String} {entries : List String} {l : Linear}
  (h : build pipeline entries = .ok l)

include h

theorem exists_role {s : Stage} (hs : s ∈ l.pipeline.stages) : ∃ role, s.role = .ok role := by
  obtain ⟨k, hk⟩ := List.mem_iff_getElem?.1 hs
  exact ⟨_, role_of_getElem? h hk⟩

theorem coordinates?_registry {s : Stage} {role : Role} (hs : s ∈ l.pipeline.stages)
    (hrole : s.role = .ok role) :
    l.registry.coordinates? s.name role.kind = some (coordinates s.name role.kind) := by
  rw [(build_eq_ok h).2.2]
  exact coordinates?_foldl (fun _ ht => exists_role h ht) ∅ hs hrole

theorem not_unplaced {s : Stage} (hs : s ∈ l.pipeline.stages) : ¬ Unplaced l.registry s := by
  obtain ⟨role, hrole⟩ := exists_role h hs
  have hplace : place l.registry s = .ok (role, coordinates s.name role.kind) :=
    place_eq_ok_iff.2 ⟨hrole, coordinates?_registry h hs hrole⟩
  rw [← fails_place_iff]
  rintro ⟨fault, hfault⟩
  rw [hplace] at hfault
  cases hfault

theorem parameter?_includes {s : Stage} (hs : s ∈ l.pipeline.stages) :
    s.parameter? Key.includes = none := by
  obtain ⟨k, hk⟩ := List.mem_iff_getElem?.1 hs
  rw [parameter?_of_getElem? h hk, if_neg (by decide), if_neg (by decide)]

theorem not_unsettled {s : Stage} (hs : s ∈ l.pipeline.stages) :
    ¬ Unsettled l.registry {} s := by
  rintro ⟨list, hlist, _⟩
  rw [parameter?_includes h hs] at hlist
  cases hlist

/-- A line can be planned exactly if all of its stages are counted. -/
theorem exists_plan_iff {overrides : Properties} {id : PlanId} :
    (∃ made, l.pipeline.plan l.registry {} overrides id = .ok made) ↔
      ∀ s ∈ l.pipeline.stages, ¬ Uncounted {} overrides s := by
  have hfails : Traversal.Fails (fun p => p.plan l.registry {} overrides id) l.pipeline ↔
      ∃ s ∈ l.pipeline.stages, Uncounted {} overrides s := by
    unfold Traversal.Fails
    simp only [Pipeline.plan_eq_error_iff]
    refine fails_instructions_iff.trans (exists_congr fun s => ?_)
    rw [Pipeline.deployOrder, List.mem_reverse]
    refine and_congr_right fun hs => ?_
    simp only [not_unplaced h hs, not_unsettled h hs, false_or, or_false]
  refine Traversal.not_fails_iff.symm.trans ((not_congr hfails).trans ?_)
  simp only [not_exists, not_and]

variable {overrides : Properties} {id : PlanId} {made : Plan} {i : Instruction}
  (hmade : l.pipeline.plan l.registry {} overrides id = .ok made)
  (hi : i ∈ made.instructions)

include hmade hi

theorem exists_serves : ∃ place s, Serves l overrides place s i := by
  obtain ⟨place, hplace⟩ := List.mem_iff_getElem?.1 hi
  obtain ⟨his, _, _⟩ := Pipeline.plan_eq_ok_iff.1 hmade
  obtain ⟨s, hs, instructs⟩ := instructs_of_ok his hplace
  obtain ⟨hname, hlabel, _⟩ := settleIncludes_frame instructs.settled
  obtain ⟨hrole, hfound⟩ := place_eq_ok_iff.1 instructs.placed
  have hmem : s ∈ l.pipeline.stages := List.mem_reverse.1 (List.mem_of_getElem? hs)
  rw [coordinates?_registry h hmem hrole, Option.some.injEq] at hfound
  -- Places are counted from the other end in the order of deployment.
  have hstage := hs
  rw [Pipeline.getElem?_deployOrder _ (Pipeline.lt_size_of_getElem?_deployOrder hs)] at hstage
  have hat := role_of_getElem? h hstage
  rw [← length_stages h] at hat
  exact ⟨place, s, hs, hrole, Except.ok.inj (hrole.symm.trans hat), hname, hlabel, hfound.symm,
    instructs.properties_eq⟩

theorem coordinates_eq : i.coordinates = coordinates i.stage.name i.role.kind := by
  obtain ⟨place, s, serves⟩ := exists_serves h hmade hi
  rw [serves.coordinates_eq, serves.name_eq]

/-- What planning writes for takers of data is not written for a stage that takes none. -/
theorem get?_of_not_consumes (hconsumes : i.role.consumes = false) {k : String}
    (hk : k ∉ Key.producerKeys) :
    i.properties.get? k = (overrides.merge Scope.defaultLead i.stage.label).get? k := by
  obtain ⟨place, s, serves⟩ := exists_serves h hmade hi
  have hflow : (mergeAll {} overrides l.pipeline.deployOrder)[place]? =
      some (s, overrides.merge Scope.defaultLead s.label) := by
    rw [getElem?_mergeAll, serves.deployed]
    rfl
  have hinput : s.hasInput = false :=
    (Stage.role_eq_ok_iff.1 serves.role_eq).1.trans hconsumes
  have hlast : place + 1 = (mergeAll {} overrides l.pipeline.deployOrder).length := by
    rw [serves.role_at, consumes_roleAt_eq_false_iff] at hconsumes
    have hbound := Pipeline.lt_size_of_getElem?_deployOrder serves.deployed
    rw [mergeAll, List.length_map, Pipeline.deployOrder, List.length_reverse]
    unfold Pipeline.size at hconsumes hbound
    omega
  rw [serves.properties_eq, serves.label_eq]
  exact get?_settleAt_last hflow hlast hinput hk

/-- What planning writes for givers of data is not written for a stage that gives none. -/
theorem get?_of_not_produces (hproduces : i.role.produces = false) {k : String}
    (hk : k ∉ Key.consumerKeys) :
    i.properties.get? k = (overrides.merge Scope.defaultLead i.stage.label).get? k := by
  obtain ⟨place, s, serves⟩ := exists_serves h hmade hi
  have hfirst : place = 0 := by
    rw [serves.role_at] at hproduces
    have hend := add_one_eq_of_produces_roleAt hproduces
    have hbound := Pipeline.lt_size_of_getElem?_deployOrder serves.deployed
    omega
  rw [serves.properties_eq, serves.label_eq, hfirst]
  exact get?_settleAt_first hk

end Built

/-! ## The law -/

/-- In a line the first stage is a source, the last one a sink and every other one a processor, and
what a stage gives the next one takes. Under the defaults it can be planned exactly if the count of
every stage, where the overrides set one, writes a positive number within the limit. Then every
artifact is found where a line has it, and neither end is told of partitions on a side that it
lacks. -/
theorem lines_are_planned_by_their_counts {pipeline : String} {entries : List String}
    {l : Linear} (h : build pipeline entries = .ok l) :
    (2 ≤ entries.length ∧ l.pipeline.stages.length = entries.length ∧
      (∀ (k : Nat) (s : Stage), l.pipeline.stages[k]? = some s →
        s.role = .ok (roleAt entries.length k)) ∧
      ∀ (k : Nat) (s t : Stage), l.pipeline.stages[k]? = some s →
        l.pipeline.stages[k + 1]? = some t →
        ∃ link, s.parameter? Key.output = some link ∧ t.parameter? Key.input = some link) ∧
    ∀ (overrides : Properties) (id : PlanId),
      ((∃ made, l.pipeline.plan l.registry {} overrides id = .ok made) ↔
        ∀ s ∈ l.pipeline.stages, ∀ written,
          (overrides.merge Scope.defaultLead s.label).get? Key.count = some written →
          ∃ n, WritesCount written n ∧ 1 ≤ n ∧ n ≤ 2 ^ 32 - 1) ∧
      ∀ made, l.pipeline.plan l.registry {} overrides id = .ok made →
        ∀ i ∈ made.instructions,
          i.coordinates = coordinates i.stage.name i.role.kind ∧
          (i.role.consumes = false → ∀ k ∈ Key.consumerKeys,
            i.properties.get? k = (overrides.merge Scope.defaultLead i.stage.label).get? k) ∧
          (i.role.produces = false → ∀ rest,
            i.properties.get? ("bindings.output.partition" ++ rest) =
              (overrides.merge Scope.defaultLead i.stage.label).get?
                ("bindings.output.partition" ++ rest)) := by
  refine ⟨⟨(build_eq_ok h).1, length_stages h, fun k s hs => role_of_getElem? h hs,
    fun k s t hs ht => ⟨_, output_eq_input h hs ht⟩⟩, fun overrides id => ⟨?_, ?_⟩⟩
  · rw [exists_plan_iff h]
    simp only [not_uncounted_iff]
  · intro made hmade i hi
    refine ⟨coordinates_eq h hmade hi, fun hconsumes k hk => ?_, fun hproduces rest => ?_⟩
    · exact get?_of_not_consumes h hmade hi hconsumes (Key.consumerKeys_notMem_producerKeys hk)
    · exact get?_of_not_produces h hmade hi hproduces
        (Key.output_partition_notMem_consumerKeys rest)

/-- Entries of one artifact in all three roles. -/
def echoEntries : List String := ["file", "f: file", "out: file"]

/-- Overrides by which all stages ask for partitioned input, in two instances each. -/
def echoOverrides : Properties :=
  .ofList [("stage.*.partitioned", "true"), ("stage.*.count", " +02 ")]

theorem echo_is_planned :
    ∃ (l : Linear) (made : Plan) (sink source : Instruction),
      build "line" echoEntries = .ok l ∧
      l.pipeline.plan l.registry {} echoOverrides ⟨0⟩ = .ok made ∧
      made.instructions[0]? = some sink ∧ made.instructions[2]? = some source ∧
      sink.role.produces = false ∧ source.role.consumes = false ∧
      sink.coordinates = coordinates sink.stage.name sink.role.kind ∧
      sink.properties.get? Key.outputCount =
        (echoOverrides.merge Scope.defaultLead sink.stage.label).get? Key.outputCount ∧
      source.properties.get? Key.inputPartitioned =
        (echoOverrides.merge Scope.defaultLead source.stage.label).get? Key.inputPartitioned := by
  have hrun : ((build "line" echoEntries).toOption.bind fun l =>
      (l.pipeline.plan l.registry {} echoOverrides ⟨0⟩).toOption.bind fun made =>
      made.instructions[0]?.bind fun sink => made.instructions[2]?.map fun source =>
        decide (sink.role.produces = false ∧ source.role.consumes = false)) = some true := by
    decide +kernel
  simp only [Option.bind_eq_some_iff, Option.map_eq_some_iff, Traversal.toOption_eq_some_iff,
    decide_eq_true_eq] at hrun
  obtain ⟨l, hl, made, hmade, sink, hsink, source, hsource, hproduces, hconsumes⟩ := hrun
  have hall := ((lines_are_planned_by_their_counts hl).2 echoOverrides ⟨0⟩).2 made hmade
  obtain ⟨hcoordinates, _, hgives⟩ := hall sink (List.mem_of_getElem? hsink)
  obtain ⟨_, htakes, _⟩ := hall source (List.mem_of_getElem? hsource)
  exact ⟨l, made, sink, source, hl, hmade, hsink, hsource, hproduces, hconsumes, hcoordinates,
    hgives hproduces "Count", htakes hconsumes _ (by decide)⟩

end Linear

end Rollout
