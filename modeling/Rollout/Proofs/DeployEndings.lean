-- How deploying a pipeline can end. Either planning fails and nothing happens at all, or every
-- stage of the plan is started, or the deployer refuses a stage, and then it has started the
-- stages before that one and was asked nothing about the stages after it.
import Mathlib.Logic.ExistsUnique
import Rollout.Coordinator
import Rollout.Proofs.PlanFaults
import Rollout.Proofs.Starting

namespace Rollout

open MemoryDeployer

/-! ## The ways to end -/

/-- How deploying a pipeline ends. -/
inductive Ending where
  | unplanned (fault : Fault)
  | complete (made : Plan)
  /-- The deployer refused the stage at a place of the plan. -/
  | stopped (made : Plan) (place : Nat) (id : StageId) (reason : String)

/-- What becomes of a deployer that is asked to start some stages and starts some of them. -/
structure Leaves (d d' : MemoryDeployer) (started : List Instruction) (asked : List StageId) :
    Prop where
  started : ∀ i ∈ started,
    d'.state i.deploymentId = d.deployState ∧ d'.instruction? i.deploymentId = some i
  untouched : ∀ id ∉ asked,
    d'.state id = d.state id ∧ d'.instruction? id = d.instruction? id
  settings : d'.refusals = d.refusals ∧ d'.deployState = d.deployState
  calls : d'.log = (asked.map (Call.mk .deploy)).foldl CallLog.record d.log

/-- Deploying a plan started all of its stages. -/
structure Complete (s : Site MemoryDeployer) (answer : Site MemoryDeployer × Except Fault Plan)
    (made : Plan) : Prop where
  accepted : ∀ id ∈ made.ids, s.deployer.refusal? id = none
  answer_eq : answer.2 = .ok made
  leaves : Leaves s.deployer answer.1.deployer made.instructions made.ids
  events_eq : answer.1.events = s.events.receive s.sink
    (made.instructions.map (Lifecycle.requested made.id) ++
      [.ofPipeline .pipelineDeployed made.pipeline (.planDone made.id made.size)])

/-- Deploying a plan ended at the first stage that the deployer refuses. -/
structure Stopped (s : Site MemoryDeployer) (answer : Site MemoryDeployer × Except Fault Plan)
    (made : Plan) (place : Nat) (id : StageId) (reason : String) : Prop where
  at_place : made.ids[place]? = some id
  refused : s.deployer.refusal? id = some reason
  accepted : ∀ earlier ∈ made.ids.take place, s.deployer.refusal? earlier = none
  answer_eq : answer.2 = .error (.deployer (.rejected id.text reason))
  leaves : Leaves s.deployer answer.1.deployer (made.instructions.take place)
    (made.ids.take (place + 1))
  failed : answer.1.deployer.state id = .failed
  kept : answer.1.deployer.instruction? id = s.deployer.instruction? id
  later : ∀ other ∈ made.ids.drop (place + 1),
    answer.1.deployer.state other = s.deployer.state other ∧
      answer.1.deployer.instruction? other = s.deployer.instruction? other
  events_eq : answer.1.events = s.events.receive s.sink
    ((made.instructions.take place).map (Lifecycle.requested made.id))

/-- Deploying a pipeline at a site ends in the given way. -/
def Ends (c : Coordinator) (p : Pipeline) (overrides : Properties) (s : Site MemoryDeployer) :
    Ending → Prop
  | .unplanned fault =>
    p.plan c.registry c.config overrides ⟨s.plans⟩ = .error fault ∧ fault.isPlanning = true ∧
      c.deploy p overrides s = (s, .error fault)
  | .complete made =>
    p.plan c.registry c.config overrides ⟨s.plans⟩ = .ok made ∧ made.ids = p.ids.reverse ∧
      Complete s (c.deploy p overrides s) made
  | .stopped made place id reason =>
    p.plan c.registry c.config overrides ⟨s.plans⟩ = .ok made ∧ made.ids = p.ids.reverse ∧
      Stopped s (c.deploy p overrides s) made place id reason ∧
      (Fault.deployer (.rejected id.text reason)).isPlanning = false

/-! ## The deployer at the end -/

theorem Leaves.of_deployEach {d : MemoryDeployer} {started is : List Instruction}
    (hnodup : (is.map Instruction.deploymentId).Nodup)
    (hstarted : ∀ i ∈ started, i ∈ is ∧ d.refusal? i.deploymentId = none) :
    Leaves d (d.deployEach is) started (is.map Instruction.deploymentId) where
  started := by
    intro i hi
    obtain ⟨hmem, haccepted⟩ := hstarted i hi
    refine ⟨?_, instruction?_deployEach_of_mem hnodup hmem haccepted⟩
    rw [state_deployEach, if_pos (List.mem_map_of_mem hmem), haccepted]
    rfl
  untouched := by
    intro id hid
    refine ⟨?_, instruction?_deployEach_of_notMem d hid⟩
    rw [state_deployEach, if_neg hid]
  settings := ⟨refusals_deployEach d is, deployState_deployEach d is⟩
  calls := log_deployEach d is

namespace Lifecycle

theorem deploy_of_accepted {made : Plan} {d : MemoryDeployer}
    (h : ∀ i ∈ made.instructions, d.refusal? i.deploymentId = none) :
    Lifecycle.deploy made d =
      ⟨d.deployEach made.instructions,
        made.instructions.map (requested made.id) ++
          [.ofPipeline .pipelineDeployed made.pipeline (.planDone made.id made.size)],
        .ok made.ids⟩ := by
  unfold Lifecycle.deploy
  rw [issue_of_accepted made.id h]
  simp only [Outcome.closing, List.length_map]
  rfl

theorem deploy_of_refused {made : Plan} {before after : List Instruction} {i : Instruction}
    {d : MemoryDeployer} {reason : String} (hmade : made.instructions = before ++ i :: after)
    (hbefore : ∀ b ∈ before, d.refusal? b.deploymentId = none)
    (hi : d.refusal? i.deploymentId = some reason) :
    Lifecycle.deploy made d =
      ⟨d.deployEach (before ++ [i]), before.map (requested made.id),
        .error (.deployer (.rejected i.deploymentId.text reason))⟩ := by
  unfold Lifecycle.deploy
  rw [hmade, issue_of_refused made.id hbefore hi]
  rfl

end Lifecycle

namespace Coordinator

/-- Nothing happens at a site where planning fails. -/
theorem deploy_of_error {δ : Type} [Deployer δ] {c : Coordinator} {p : Pipeline}
    {overrides : Properties} {s : Site δ} {fault : Fault}
    (h : p.plan c.registry c.config overrides ⟨s.plans⟩ = .error fault) :
    c.deploy p overrides s = (s, .error fault) := by
  unfold deploy plan Site.newPlan
  simp only [h]

/-- What is planned is put to work. -/
theorem deploy_of_ok {δ : Type} [Deployer δ] {c : Coordinator} {p : Pipeline}
    {overrides : Properties} {s : Site δ} {made : Plan}
    (h : p.plan c.registry c.config overrides ⟨s.plans⟩ = .ok made) :
    c.deploy p overrides s =
      ({ s with
          deployer := (Lifecycle.deploy made s.deployer).deployer
          events := s.events.receive s.sink (Lifecycle.deploy made s.deployer).events
          plans := s.plans + 1 },
        (Lifecycle.deploy made s.deployer).result.map fun _ => made) := by
  unfold deploy plan Site.newPlan
  simp only [h]
  rfl

theorem complete_of_accepted {c : Coordinator} {p : Pipeline} {overrides : Properties}
    {s : Site MemoryDeployer} {made : Plan}
    (hplan : p.plan c.registry c.config overrides ⟨s.plans⟩ = .ok made)
    (h : ∀ i ∈ made.instructions, s.deployer.refusal? i.deploymentId = none) :
    Complete s (c.deploy p overrides s) made := by
  rw [deploy_of_ok hplan, Lifecycle.deploy_of_accepted h]
  refine ⟨?_, rfl, ?_, rfl⟩
  · intro id hid
    obtain ⟨i, hi, rfl⟩ := List.mem_map.1 hid
    exact h i hi
  · exact .of_deployEach (Pipeline.plan_ids_nodup hplan) fun i hi => ⟨hi, h i hi⟩

theorem stopped_of_refused {c : Coordinator} {p : Pipeline} {overrides : Properties}
    {s : Site MemoryDeployer} {made : Plan} {before after : List Instruction} {i : Instruction}
    {reason : String} (hplan : p.plan c.registry c.config overrides ⟨s.plans⟩ = .ok made)
    (hmade : made.instructions = before ++ i :: after)
    (hbefore : ∀ b ∈ before, s.deployer.refusal? b.deploymentId = none)
    (hi : s.deployer.refusal? i.deploymentId = some reason) :
    Stopped s (c.deploy p overrides s) made before.length i.deploymentId reason := by
  have hids : made.ids = before.map Instruction.deploymentId ++
      i.deploymentId :: after.map Instruction.deploymentId := by
    unfold Plan.ids
    rw [hmade, List.map_append, List.map_cons]
  have hasked : made.ids.take (before.length + 1) =
      (before ++ [i]).map Instruction.deploymentId := by
    rw [hids]
    simp [List.take_append, List.take_of_length_le]
  have hnodup := Pipeline.plan_ids_nodup hplan
  have hleaves : Leaves s.deployer (s.deployer.deployEach (before ++ [i])) before
      ((before ++ [i]).map Instruction.deploymentId) := by
    apply Leaves.of_deployEach
    · rw [← hasked]
      exact hnodup.sublist (List.take_sublist _ _)
    · exact fun b hb => ⟨List.mem_append_left _ hb, hbefore b hb⟩
  have htake : made.instructions.take before.length = before := by
    rw [hmade, List.take_left]
  rw [deploy_of_ok hplan, Lifecycle.deploy_of_refused hmade hbefore hi]
  refine ⟨?_, hi, ?_, rfl, ?_, ?_, ?_, ?_, ?_⟩
  · rw [hids]
    simp
  · rw [hids]
    simpa [List.take_append] using hbefore
  · rw [htake, hasked]
    exact hleaves
  · simp [state_deployEach, hi]
  · apply instruction?_deployEach_of_refused
    rw [hi]
    exact Option.some_ne_none reason
  · intro other hother
    apply hleaves.untouched
    rw [← hasked]
    intro hearlier
    rw [← List.take_append_drop (before.length + 1) made.ids, List.nodup_append] at hnodup
    exact hnodup.2.2 other hearlier other hother rfl
  · rw [htake]

end Coordinator

/-! ## No two ways at once -/

theorem Complete.not_stopped {s : Site MemoryDeployer}
    {answer answer' : Site MemoryDeployer × Except Fault Plan} {made : Plan} {place : Nat}
    {id : StageId} {reason : String} (h : Complete s answer made) :
    ¬ Stopped s answer' made place id reason := by
  intro h'
  have haccepted := h.accepted id (List.mem_of_getElem? h'.at_place)
  rw [h'.refused] at haccepted
  cases haccepted

theorem Stopped.place_le {s : Site MemoryDeployer}
    {answer answer' : Site MemoryDeployer × Except Fault Plan} {made : Plan}
    {place place' : Nat} {id id' : StageId} {reason reason' : String}
    (h : Stopped s answer made place id reason)
    (h' : Stopped s answer' made place' id' reason') : place' ≤ place := by
  apply Nat.le_of_not_lt
  intro hlt
  have hmem : id ∈ made.ids.take place' := by
    rw [List.mem_iff_getElem?]
    refine ⟨place, ?_⟩
    rw [List.getElem?_take, if_pos hlt]
    exact h.at_place
  have haccepted := h'.accepted id hmem
  rw [h.refused] at haccepted
  cases haccepted

/-- There is one first stage that is refused. -/
theorem Stopped.unique {s : Site MemoryDeployer}
    {answer answer' : Site MemoryDeployer × Except Fault Plan} {made : Plan}
    {place place' : Nat} {id id' : StageId} {reason reason' : String}
    (h : Stopped s answer made place id reason)
    (h' : Stopped s answer' made place' id' reason') :
    place = place' ∧ id = id' ∧ reason = reason' := by
  have hplace : place = place' := Nat.le_antisymm (h'.place_le h) (h.place_le h')
  subst hplace
  have hid := h.at_place
  rw [h'.at_place] at hid
  cases hid
  have hreason := h.refused
  rw [h'.refused] at hreason
  cases hreason
  exact ⟨rfl, rfl, rfl⟩

/-- What planning comes to where deploying ends in a given way. -/
def Ending.planned : Ending → Except Fault Plan
  | .unplanned fault => .error fault
  | .complete made => .ok made
  | .stopped made _ _ _ => .ok made

theorem Ends.plan_eq {c : Coordinator} {p : Pipeline} {overrides : Properties}
    {s : Site MemoryDeployer} {e : Ending} (h : Ends c p overrides s e) :
    p.plan c.registry c.config overrides ⟨s.plans⟩ = e.planned := by
  cases e <;> exact h.1

theorem Ends.unique {c : Coordinator} {p : Pipeline} {overrides : Properties}
    {s : Site MemoryDeployer} {e e' : Ending} (h : Ends c p overrides s e)
    (h' : Ends c p overrides s e') : e = e' := by
  have hplanned : e.planned = e'.planned := h.plan_eq.symm.trans h'.plan_eq
  cases e with
  | unplanned fault =>
    cases e' <;> cases hplanned
    rfl
  | complete made =>
    cases e' <;> cases hplanned
    · rfl
    · exact absurd h'.2.2.1 h.2.2.not_stopped
  | stopped made place id reason =>
    cases e' <;> cases hplanned
    · exact absurd h.2.2.1 h'.2.2.not_stopped
    · obtain ⟨rfl, rfl, rfl⟩ := h.2.2.1.unique h'.2.2.1
      rfl

/-! ## The law -/

theorem exists_ends (c : Coordinator) (p : Pipeline) (overrides : Properties)
    (s : Site MemoryDeployer) : ∃ e, Ends c p overrides s e := by
  cases hplan : p.plan c.registry c.config overrides ⟨s.plans⟩ with
  | error fault =>
    exact ⟨.unplanned fault, hplan, Pipeline.isPlanning_of_plan hplan,
      Coordinator.deploy_of_error hplan⟩
  | ok made =>
    have hids := Pipeline.plan_ids hplan
    rcases accepted_or_first_refused s.deployer made.instructions with
      hall | ⟨before, i, after, reason, hmade, hbefore, hi⟩
    · exact ⟨.complete made, hplan, hids, Coordinator.complete_of_accepted hplan hall⟩
    · exact ⟨.stopped made before.length i.deploymentId reason, hplan, hids,
        Coordinator.stopped_of_refused hplan hmade hbefore hi, rfl⟩

/-- Deploying ends in exactly one of the three ways, whatever the site. Overrides given as a
list are read first; a list that cannot be read ends the work with nothing done. -/
theorem deploying_ends_in_one_way (c : Coordinator) (p : Pipeline) (s : Site MemoryDeployer) :
    (∀ overrides, ∃! e, Ends c p overrides s e) ∧
    ∀ text,
      (∃ fault, Properties.ofListing text = .error fault ∧ fault.isPlanning = true ∧
        c.deployListing p text s = (s, .error fault)) ∨
      ∃ overrides, Properties.ofListing text = .ok overrides ∧
        c.deployListing p text s = c.deploy p overrides s := by
  constructor
  · intro overrides
    obtain ⟨e, he⟩ := exists_ends c p overrides s
    exact ⟨e, he, fun e' he' => he'.unique he⟩
  · intro text
    unfold Coordinator.deployListing
    cases hread : Properties.ofListing text with
    | error fault => exact Or.inl ⟨fault, rfl, Properties.isPlanning_of_ofListing hread, rfl⟩
    | ok overrides => exact Or.inr ⟨overrides, rfl, rfl⟩

end Rollout
