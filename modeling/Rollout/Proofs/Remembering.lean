-- A deployer that only remembers is told by its history: what it says of a stage is what the
-- history says of that stage, however many requests it keeps and whatever else was done with it.
import Mathlib.Data.List.Induction
import Rollout.Deployer.History
import Rollout.Proofs.Starting

namespace Rollout

variable {id : StageId} {history : List Dealing} {a : Dealing}

/-! ## Histories -/

theorem refused_concat_iff :
    Refused (history ++ [a]) id ↔ Refused history id ∨ ∃ reason, a = .refuse id reason := by
  unfold Refused
  simp only [List.mem_append, List.mem_singleton, exists_or, eq_comm]

/-- Either no dealing sets the state of a stage, or one is the last that does. -/
theorem unset_or_last_set (id : StageId) (history : List Dealing) :
    (∀ a ∈ history, a.setsState id = false) ∨
      ∃ before a after, history = before ++ a :: after ∧ a.setsState id = true ∧
        ∀ b ∈ after, b.setsState id = false := by
  induction history with
  | nil => exact Or.inl (by simp)
  | cons a history ih =>
    rcases ih with hnone | ⟨before, b, after, rfl, hb, hafter⟩
    · cases ha : a.setsState id with
      | false => exact Or.inl (List.forall_mem_cons.2 ⟨ha, hnone⟩)
      | true => exact Or.inr ⟨[], a, history, rfl, ha, hnone⟩
    · exact Or.inr ⟨a :: before, b, after, rfl, hb, hafter⟩

/-- Every history leaves every stage in some state. -/
theorem exists_leavesState (deployState : StageState) (id : StageId) (history : List Dealing) :
    ∃ s, LeavesState deployState id history s := by
  rcases unset_or_last_set id history with hnone | ⟨before, a, after, rfl, ha, hafter⟩
  · exact ⟨_, .unheard hnone⟩
  · cases a with
    | deploy i =>
      have hi : i.deploymentId = id := by simpa [Dealing.setsState] using ha
      by_cases hrefused : Refused before id
      · exact ⟨_, .refused hi hrefused hafter⟩
      · exact ⟨_, .deployed ⟨hi, hrefused⟩ hafter⟩
    | undeploy other =>
      obtain rfl : other = id := by simpa [Dealing.setsState] using ha
      exact ⟨_, .undeployed hafter⟩
    | overrideState other state =>
      obtain rfl : other = id := by simpa [Dealing.setsState] using ha
      exact ⟨_, .overridden hafter⟩
    | status other => cases ha
    | refuse other reason => cases ha
    | forgetCalls => cases ha

/-- One more dealing leaves its own instruction if that is accepted, and otherwise the one that was
there, unless it takes the stage down. -/
theorem leavesInstruction_concat_iff {i : Instruction} :
    LeavesInstruction id (history ++ [a]) i ↔
      (a = .deploy i ∧ Accepts history id i) ∨
      (LeavesInstruction id history i ∧ a ≠ .undeploy id ∧
        ∀ j, a = .deploy j → ¬ Accepts history id j) := by
  constructor
  · intro h
    generalize hwhole : history ++ [a] = whole at h
    cases h with
    | @held before _ after hi hlast hup =>
      rcases List.eq_nil_or_concat after with rfl | ⟨after, b, rfl⟩
      · obtain ⟨rfl, hlastEq⟩ := List.append_inj' hwhole rfl
        cases hlastEq
        exact Or.inl ⟨rfl, hi⟩
      · rw [List.concat_eq_append, ← List.cons_append, ← List.append_assoc] at hwhole
        obtain ⟨rfl, hb⟩ := List.append_inj' hwhole rfl
        cases hb
        simp only [List.concat_eq_append, List.mem_append, List.mem_singleton, not_or] at hup
        refine Or.inr ⟨.held hi ?_ hup.1, Ne.symm hup.2, ?_⟩
        · rintro between j later rfl
          exact hlast between j (later ++ [a]) (by simp)
        · rintro j rfl
          exact hlast after j [] (by simp)
  · rintro (⟨rfl, hi⟩ | ⟨h, hup, hlast⟩)
    · exact .held hi (by simp) (by simp)
    · cases h with
      | @held before _ after hi hbetween hafter =>
        rw [List.append_assoc, List.cons_append]
        refine .held hi ?_ (by simp [hafter, Ne.symm hup])
        intro between j later hsplit
        rcases List.eq_nil_or_concat later with rfl | ⟨later, b, rfl⟩
        · obtain ⟨rfl, hj⟩ := List.append_inj' hsplit rfl
          cases hj
          exact hlast j rfl
        · rw [List.concat_eq_append, ← List.cons_append, ← List.append_assoc] at hsplit
          obtain ⟨rfl, _⟩ := List.append_inj' hsplit rfl
          exact hbetween between j later rfl

namespace MemoryDeployer

/-! ## One dealing -/

theorem deployState_deal (d : MemoryDeployer) (a : Dealing) :
    (d.deal a).deployState = d.deployState := by
  cases a with
  | deploy i => exact deployState_deploy d i
  | _ => rfl

theorem refusal?_deal_ne_none_iff (d : MemoryDeployer) (a : Dealing) (id : StageId) :
    (d.deal a).refusal? id ≠ none ↔ d.refusal? id ≠ none ∨ ∃ reason, a = .refuse id reason := by
  cases a with
  | deploy i =>
    show (d.deploy i).1.refusal? id ≠ none ↔ _
    simp [refusal?_deploy]
  | refuse other reason =>
    show (d.refuse other reason).refusal? id ≠ none ↔ _
    rw [refusal?_refuse]
    by_cases hid : id = other
    · simp [hid]
    · simp [hid, Ne.symm hid]
  | _ =>
    show d.refusal? id ≠ none ↔ _
    simp

/-- A dealing that does not set the state of a stage leaves it as it is. -/
theorem state_deal_of_not_setsState (d : MemoryDeployer) (h : a.setsState id = false) :
    (d.deal a).state id = d.state id := by
  cases a with
  | deploy i =>
    have hne : id ≠ i.deploymentId := by simpa [Dealing.setsState, eq_comm] using h
    show (d.deploy i).1.state id = _
    rw [state_deploy, if_neg hne]
  | undeploy other =>
    have hne : id ≠ other := by simpa [Dealing.setsState, eq_comm] using h
    show (d.undeploy other).1.state id = _
    rw [state_undeploy, if_neg hne]
  | overrideState other state =>
    have hne : id ≠ other := by simpa [Dealing.setsState, eq_comm] using h
    show (d.overrideState other state).state id = _
    rw [state_overrideState, if_neg hne]
  | _ => rfl

/-- A stage has the instruction it is started with, and keeps it until it is taken down or started
with another one. -/
theorem instruction?_deal_eq_some_iff (d : MemoryDeployer) (a : Dealing) {i : Instruction} :
    (d.deal a).instruction? id = some i ↔
      (a = .deploy i ∧ i.deploymentId = id ∧ d.refusal? id = none) ∨
      (d.instruction? id = some i ∧ a ≠ .undeploy id ∧
        ∀ j, a = .deploy j → ¬ (j.deploymentId = id ∧ d.refusal? id = none)) := by
  cases a with
  | deploy j =>
    have haccepted : (id = j.deploymentId ∧ d.refusal? j.deploymentId = none) ↔
        (j.deploymentId = id ∧ d.refusal? id = none) := by
      constructor <;> rintro ⟨rfl, hrefusal⟩ <;> exact ⟨rfl, hrefusal⟩
    show (d.deploy j).1.instruction? id = some i ↔ _
    rw [instruction?_deploy]
    by_cases hj : j.deploymentId = id ∧ d.refusal? id = none
    · rw [if_pos (haccepted.2 hj)]
      constructor
      · rintro ⟨⟩
        exact Or.inl ⟨rfl, hj⟩
      · rintro (⟨⟨⟩, _⟩ | ⟨_, _, hnot⟩)
        · rfl
        · exact absurd hj (hnot j rfl)
    · rw [if_neg fun h => hj (haccepted.1 h)]
      constructor
      · intro hi
        refine Or.inr ⟨hi, by simp, ?_⟩
        rintro _ ⟨⟩
        exact hj
      · rintro (⟨⟨⟩, hi⟩ | ⟨hi, _, _⟩)
        · exact absurd hi hj
        · exact hi
  | undeploy other =>
    show (d.undeploy other).1.instruction? id = some i ↔ _
    rw [instruction?_undeploy]
    by_cases hid : id = other
    · simp [hid]
    · simp [hid, Ne.symm hid]
  | _ =>
    show d.instruction? id = some i ↔ _
    simp

/-! ## A history -/

theorem dealEach_concat (d : MemoryDeployer) (history : List Dealing) (a : Dealing) :
    d.dealEach (history ++ [a]) = (d.dealEach history).deal a := by
  unfold dealEach
  rw [List.foldl_append]
  rfl

theorem dealEach_append_cons (d : MemoryDeployer) (before : List Dealing) (a : Dealing)
    (after : List Dealing) :
    d.dealEach (before ++ a :: after) = ((d.dealEach before).deal a).dealEach after := by
  unfold dealEach
  rw [List.foldl_append]
  rfl

theorem deployState_dealEach (d : MemoryDeployer) (history : List Dealing) :
    (d.dealEach history).deployState = d.deployState :=
  Traversal.foldl_unchanged deployState_deal d history

theorem state_dealEach_of_not_setsState (d : MemoryDeployer)
    (h : ∀ a ∈ history, a.setsState id = false) : (d.dealEach history).state id = d.state id := by
  induction history generalizing d with
  | nil => rfl
  | cons a history ih =>
    rw [List.forall_mem_cons] at h
    show ((d.deal a).dealEach history).state id = _
    rw [ih _ h.2, state_deal_of_not_setsState d h.1]

section New

variable {deployState : StageState} {limit : Nat}

theorem refusal?_dealEach_new_ne_none_iff (deployState : StageState) (limit : Nat) :
    ((new deployState limit).dealEach history).refusal? id ≠ none ↔ Refused history id := by
  induction history using List.reverseRecOn with
  | nil => simp [dealEach, new, refusal?, Refused]
  | append_singleton history a ih =>
    rw [dealEach_concat, refused_concat_iff, ← ih]
    exact refusal?_deal_ne_none_iff _ a id

theorem refusal?_dealEach_new_eq_none_iff (deployState : StageState) (limit : Nat) :
    ((new deployState limit).dealEach history).refusal? id = none ↔ ¬ Refused history id := by
  rw [← refusal?_dealEach_new_ne_none_iff deployState limit, not_not]

/-- A new deployer knows of a stage the state that its history leaves it in. -/
theorem state_dealEach_new {s : StageState} (h : LeavesState deployState id history s) :
    ((new deployState limit).dealEach history).state id = s := by
  cases h with
  | unheard hnone => exact state_dealEach_of_not_setsState _ hnone
  | @deployed before i after hi hafter =>
    obtain ⟨rfl, hrefused⟩ := hi
    rw [dealEach_append_cons, state_dealEach_of_not_setsState _ hafter]
    show (deploy _ i).1.state i.deploymentId = _
    rw [state_deploy, if_pos rfl, (refusal?_dealEach_new_eq_none_iff _ _).2 hrefused,
      deployState_dealEach]
    rfl
  | @refused before i after hi hrefused hafter =>
    subst hi
    rw [dealEach_append_cons, state_dealEach_of_not_setsState _ hafter]
    show (deploy _ i).1.state i.deploymentId = _
    have hrefusal := (refusal?_dealEach_new_ne_none_iff deployState limit).2 hrefused
    rw [state_deploy, if_pos rfl, if_pos (Option.isSome_iff_ne_none.2 hrefusal)]
  | @undeployed before after hafter =>
    rw [dealEach_append_cons, state_dealEach_of_not_setsState _ hafter]
    show (undeploy _ id).1.state id = _
    rw [state_undeploy, if_pos rfl]
  | @overridden before state after hafter =>
    rw [dealEach_append_cons, state_dealEach_of_not_setsState _ hafter]
    show (overrideState _ id s).state id = _
    rw [state_overrideState, if_pos rfl]

theorem state_dealEach_new_eq_iff {s : StageState} :
    ((new deployState limit).dealEach history).state id = s ↔
      LeavesState deployState id history s := by
  refine ⟨fun h => ?_, state_dealEach_new⟩
  obtain ⟨s', hs'⟩ := exists_leavesState deployState id history
  rw [state_dealEach_new hs'] at h
  exact h ▸ hs'

theorem instruction?_dealEach_new_eq_some_iff {i : Instruction} :
    ((new deployState limit).dealEach history).instruction? id = some i ↔
      LeavesInstruction id history i := by
  induction history using List.reverseRecOn generalizing i with
  | nil =>
    refine ⟨fun h => (by cases h), fun h => ?_⟩
    generalize hnil : [] = history at h
    cases h
    simp at hnil
  | append_singleton history a ih =>
    rw [dealEach_concat, instruction?_deal_eq_some_iff, leavesInstruction_concat_iff, ih]
    simp only [Accepts, refusal?_dealEach_new_eq_none_iff]

/-- A new deployer accepts an instruction exactly if its history does. -/
theorem deploy_dealEach_new_eq_ok_iff {i : Instruction} :
    (((new deployState limit).dealEach history).deploy i).2 = .ok () ↔
      Accepts history i.deploymentId i := by
  unfold Accepts
  rw [← refusal?_dealEach_new_eq_none_iff deployState limit, eq_self, true_and]
  cases hrefusal : ((new deployState limit).dealEach history).refusal? i.deploymentId with
  | none => exact iff_of_true (congrArg Prod.snd (deploy_of_accepted hrefusal)) rfl
  | some reason =>
    rw [congrArg Prod.snd (deploy_of_refused hrefusal)]
    simp

end New

/-! ## What makes no difference -/

/-- Two deployers know the same of a stage, and start stages in the same state. -/
structure AgreeOn (id : StageId) (d d' : MemoryDeployer) : Prop where
  state_eq : d.state id = d'.state id
  instruction?_eq : d.instruction? id = d'.instruction? id
  refusal?_eq : d.refusal? id = d'.refusal? id
  deployState_eq : d.deployState = d'.deployState

namespace AgreeOn

variable {d d' : MemoryDeployer}

/-- The same dealing keeps two deployers in agreement. -/
theorem deal (h : AgreeOn id d d') (a : Dealing) : AgreeOn id (d.deal a) (d'.deal a) := by
  obtain ⟨hstate, hinstruction, hrefusal, hdeployState⟩ := h
  cases a with
  | deploy i =>
    show AgreeOn id (d.deploy i).1 (d'.deploy i).1
    constructor
    · rw [state_deploy, state_deploy, hstate, hdeployState]
      by_cases hid : id = i.deploymentId
      · rw [← hid, hrefusal]
      · rw [if_neg hid, if_neg hid]
    · rw [instruction?_deploy, instruction?_deploy, hinstruction]
      by_cases hid : id = i.deploymentId
      · rw [← hid, hrefusal]
      · rw [if_neg fun hboth => hid hboth.1, if_neg fun hboth => hid hboth.1]
    · rw [refusal?_deploy, refusal?_deploy, hrefusal]
    · rw [deployState_deploy, deployState_deploy, hdeployState]
  | undeploy other =>
    show AgreeOn id (d.undeploy other).1 (d'.undeploy other).1
    refine ⟨?_, ?_, hrefusal, hdeployState⟩
    · rw [state_undeploy, state_undeploy, hstate]
    · rw [instruction?_undeploy, instruction?_undeploy, hinstruction]
  | refuse other reason =>
    refine ⟨hstate, hinstruction, ?_, hdeployState⟩
    show (d.refuse other reason).refusal? id = (d'.refuse other reason).refusal? id
    rw [refusal?_refuse, refusal?_refuse, hrefusal]
  | overrideState other state =>
    refine ⟨?_, hinstruction, hrefusal, hdeployState⟩
    show (d.overrideState other state).state id = (d'.overrideState other state).state id
    rw [state_overrideState, state_overrideState, hstate]
  | _ => exact ⟨hstate, hinstruction, hrefusal, hdeployState⟩

/-- A dealing that does not concern a stage makes no difference to what is known of it. -/
theorem deal_left (h : AgreeOn id d d') (ha : a.concerns id = false) :
    AgreeOn id (d.deal a) d' := by
  obtain ⟨hstate, hinstruction, hrefusal, hdeployState⟩ := h
  cases a with
  | deploy i =>
    have hid : id ≠ i.deploymentId := by
      simpa [Dealing.concerns, Dealing.setsState, eq_comm] using ha
    show AgreeOn id (d.deploy i).1 d'
    constructor
    · rw [state_deploy, if_neg hid, hstate]
    · rw [instruction?_deploy, if_neg fun hboth => hid hboth.1, hinstruction]
    · rw [refusal?_deploy, hrefusal]
    · rw [deployState_deploy, hdeployState]
  | undeploy other =>
    have hid : id ≠ other := by
      simpa [Dealing.concerns, Dealing.setsState, eq_comm] using ha
    show AgreeOn id (d.undeploy other).1 d'
    refine ⟨?_, ?_, hrefusal, hdeployState⟩
    · rw [state_undeploy, if_neg hid, hstate]
    · rw [instruction?_undeploy, if_neg hid, hinstruction]
  | refuse other reason =>
    have hid : id ≠ other := by simpa [Dealing.concerns, eq_comm] using ha
    refine ⟨hstate, hinstruction, ?_, hdeployState⟩
    show (d.refuse other reason).refusal? id = _
    rw [refusal?_refuse, if_neg hid, hrefusal]
  | overrideState other state =>
    have hid : id ≠ other := by
      simpa [Dealing.concerns, Dealing.setsState, eq_comm] using ha
    refine ⟨?_, hinstruction, hrefusal, hdeployState⟩
    show (d.overrideState other state).state id = _
    rw [state_overrideState, if_neg hid, hstate]
  | _ => exact ⟨hstate, hinstruction, hrefusal, hdeployState⟩

theorem dealEach_filter (h : AgreeOn id d d') (history : List Dealing) :
    AgreeOn id (d.dealEach history) (d'.dealEach (history.filter (·.concerns id))) := by
  induction history generalizing d d' with
  | nil => exact h
  | cons a history ih =>
    cases ha : a.concerns id with
    | true =>
      rw [List.filter_cons_of_pos ha]
      exact ih (h.deal a)
    | false =>
      rw [List.filter_cons_of_neg (by simp [ha])]
      exact ih (h.deal_left ha)

end AgreeOn

/-! ## The law -/

/-- What a new deployer knows of a stage is what its history says of that stage: its state is set
by the last dealing that sets it, and its instruction is the last one that was accepted, unless the
stage was taken down since. Accepted is what was not refused before. Neither the number of requests
it keeps nor a dealing that does not concern the stage makes a difference. -/
theorem history_decides_state_and_instruction (deployState : StageState) (limit : Nat)
    (history : List Dealing) (id : StageId) :
    (∀ s, ((new deployState limit).dealEach history).state id = s ↔
      LeavesState deployState id history s) ∧
    (∀ i, ((new deployState limit).dealEach history).instruction? id = some i ↔
      LeavesInstruction id history i) ∧
    (∀ i, (((new deployState limit).dealEach history).deploy i).2 = .ok () ↔
      Accepts history i.deploymentId i) ∧
    ∀ limit',
      ((new deployState limit).dealEach history).state id =
          ((new deployState limit').dealEach (history.filter (·.concerns id))).state id ∧
        ((new deployState limit).dealEach history).instruction? id =
          ((new deployState limit').dealEach (history.filter (·.concerns id))).instruction? id := by
  refine ⟨fun s => state_dealEach_new_eq_iff, fun i => instruction?_dealEach_new_eq_some_iff,
    fun i => deploy_dealEach_new_eq_ok_iff, fun limit' => ?_⟩
  have hnew : AgreeOn id (new deployState limit) (new deployState limit') := ⟨rfl, rfl, rfl, rfl⟩
  have hhistory := hnew.dealEach_filter history
  exact ⟨hhistory.state_eq, hhistory.instruction?_eq⟩

end MemoryDeployer

end Rollout
