-- Propagating again changes nothing. Propagation decides by keys it never writes, so a second walk
-- comes to the same decisions, writes the same texts over the first ones and stops at the same
-- stage. No key is lost on the way, and only the keys that propagation writes get other values.
import Mathlib.Data.List.Forall2
import Rollout.Proofs.Neighbours

namespace Rollout

namespace Partition

variable {defaultKey : String} {down down' : Downstream} {s : Stage} {m m' changed : Properties}
  {rest : List (Stage × Properties)}

/-! ## What is kept -/

/-- Properties that came from others without the loss of a key, and say the same under every key
that propagation does not write. -/
structure Keeps (m m' : Properties) : Prop where
  contains : ∀ k, m.contains k = true → m'.contains k = true
  get?_eq : ∀ k, k ∉ Key.injected → m'.get? k = m.get? k

theorem Keeps.refl (m : Properties) : Keeps m m := ⟨fun _ h => h, fun _ _ => rfl⟩

theorem keeps_settle (defaultKey : String) (m : Properties) (takes : Bool) (parts : Option Nat) :
    Keeps m (settle defaultKey m takes parts) where
  contains k hk := by
    unfold SortedMap.contains at hk ⊢
    rw [get?_settle, Option.isSome_or, hk, Bool.or_true]
  get?_eq k hk := by rw [get?_settle, writtenAt_of_notMem _ _ _ _ hk, Option.none_or]

theorem Keeps.get?_planned (h : Keeps m m') {k : String} (hk : k ∈ Key.planned) :
    m'.get? k = m.get? k :=
  h.get?_eq k (Key.planned_notMem_injected hk)

theorem Keeps.hasKey_eq (h : Keeps m m') : hasKey m' = hasKey m := by
  unfold hasKey SortedMap.contains
  rw [h.get?_planned (by decide), h.get?_planned (by decide)]

/-- Whether a stage takes partitioned data is not changed by what is written. -/
theorem Keeps.isConsumer_eq (h : Keeps m m') (s : Stage) (giverHasKey : Bool) :
    isConsumer s m' giverHasKey = isConsumer s m giverHasKey := by
  unfold isConsumer asksPartitioned
  rw [h.get?_planned (by decide)]

theorem Keeps.writtenAt_eq (h : Keeps m m') (defaultKey : String) (takes : Bool)
    (parts : Option Nat) (k : String) :
    writtenAt defaultKey m' takes parts k = writtenAt defaultKey m takes parts k := by
  unfold writtenAt
  rw [h.get?_planned (k := Key.count) (by decide),
    h.get?_planned (k := Key.keyExpression) (by decide),
    h.get?_planned (k := Key.keyExtractor) (by decide),
    h.get?_planned (k := Key.selector) (by decide),
    h.get?_planned (k := Key.selectorExpression) (by decide)]

/-- Settling properties for the second time writes the same again. -/
theorem settle_settle (defaultKey : String) (m : Properties) (takes : Bool) (parts : Option Nat) :
    settle defaultKey (settle defaultKey m takes parts) takes parts =
      settle defaultKey m takes parts := by
  apply SortedMap.ext_get?
  intro k
  rw [get?_settle, (keeps_settle defaultKey m takes parts).writtenAt_eq, get?_settle]
  cases writtenAt defaultKey m takes parts k <;> rfl

/-! ## One step -/

theorem keeps_step (defaultKey : String) (down : Downstream) (s : Stage) (m : Properties)
    (giverHasKey : Bool) : Keeps m (step defaultKey down s m giverHasKey).1 := by
  rw [step_eq]
  exact keeps_settle defaultKey m _ _

/-- Visiting a stage with the properties that the first visit left changes nothing and finds out
the same. -/
theorem step_again (defaultKey : String) (down : Downstream) (s : Stage) (m : Properties)
    (giverHasKey : Bool) :
    step defaultKey down s (step defaultKey down s m giverHasKey).1 giverHasKey =
      step defaultKey down s m giverHasKey := by
  have hkeeps := keeps_step defaultKey down s m giverHasKey
  have hcount := instances_congr s (hkeeps.get?_planned (k := Key.count) (by decide))
  rw [step_eq _ _ _ (step defaultKey down s m giverHasKey).1, hkeeps.isConsumer_eq, hcount,
    step_eq, settle_settle]

/-! ## The walk -/

theorem propagateFrom_cons_of_error {giverHasKey : Bool} {fault : Fault}
    (hnext : nextHasKey rest = giverHasKey)
    (h : step defaultKey down s m giverHasKey = (changed, .error fault)) :
    propagateFrom defaultKey down ((s, m) :: rest) =
      (changed :: rest.map (·.2), .error fault) := by
  unfold propagateFrom
  rw [hnext, h]

theorem propagateFrom_cons_of_ok {giverHasKey : Bool} (hnext : nextHasKey rest = giverHasKey)
    (h : step defaultKey down s m giverHasKey = (changed, .ok down')) :
    propagateFrom defaultKey down ((s, m) :: rest) =
      (changed :: (propagateFrom defaultKey down' rest).1,
        (propagateFrom defaultKey down' rest).2) := by
  conv => lhs; unfold propagateFrom
  rw [hnext, h]

/-- Wherever the walk stops, every entry keeps what it had. -/
theorem keeps_propagateFrom (defaultKey : String) (down : Downstream)
    (flow : List (Stage × Properties)) :
    List.Forall₂ Keeps (flow.map (·.2)) (propagateFrom defaultKey down flow).1 := by
  induction flow generalizing down with
  | nil => exact .nil
  | cons e rest ih =>
    obtain ⟨s, m⟩ := e
    have hkeeps := keeps_step defaultKey down s m (nextHasKey rest)
    cases hstep : step defaultKey down s m (nextHasKey rest) with
    | mk changed found =>
      rw [hstep] at hkeeps
      cases found with
      | error fault =>
        rw [propagateFrom_cons_of_error rfl hstep]
        exact .cons hkeeps (List.forall₂_same.2 fun m _ => Keeps.refl m)
      | ok down' =>
        rw [propagateFrom_cons_of_ok rfl hstep]
        exact .cons hkeeps (ih down')

theorem nextHasKey_zip_of_keeps {properties : List Properties}
    (h : List.Forall₂ Keeps (rest.map (·.2)) properties) :
    nextHasKey ((rest.map (·.1)).zip properties) = nextHasKey rest := by
  cases rest with
  | nil => rfl
  | cons giver rest =>
    cases h with
    | cons hgiver _ => exact hgiver.hasKey_eq

/-- The walk over what an earlier walk left, from the same start, is that walk again. -/
theorem propagateFrom_again (defaultKey : String) (down : Downstream)
    (flow : List (Stage × Properties)) :
    propagateFrom defaultKey down
        ((flow.map (·.1)).zip (propagateFrom defaultKey down flow).1) =
      propagateFrom defaultKey down flow := by
  induction flow generalizing down with
  | nil => rfl
  | cons e rest ih =>
    obtain ⟨s, m⟩ := e
    have hagain := step_again defaultKey down s m (nextHasKey rest)
    cases hstep : step defaultKey down s m (nextHasKey rest) with
    | mk changed found =>
      rw [hstep] at hagain
      cases found with
      | error fault =>
        -- The stages after the one at fault were not visited.
        have hrest : (rest.map (·.1)).zip (rest.map (·.2)) = rest :=
          (List.zip_of_prod rfl rfl).symm
        rw [propagateFrom_cons_of_error rfl hstep, List.map_cons, List.zip_cons_cons, hrest]
        exact propagateFrom_cons_of_error rfl hagain
      | ok down' =>
        have hnext := nextHasKey_zip_of_keeps (keeps_propagateFrom defaultKey down' rest)
        rw [propagateFrom_cons_of_ok rfl hstep, List.map_cons, List.zip_cons_cons,
          propagateFrom_cons_of_ok hnext hagain, ih]

/-! ## The law -/

/-- Propagating over what propagation left comes to the same outcome and changes no entry any more.
And whatever the outcome of the first time, no entry loses a key, and every entry says what it said
under every key but the seven that propagation writes. -/
theorem propagating_again_changes_nothing (defaultKey : String)
    (flow : List (Stage × Properties)) :
    propagate defaultKey ((flow.map (·.1)).zip (propagate defaultKey flow).1) =
        propagate defaultKey flow ∧
      List.Forall₂ Keeps (flow.map (·.2)) (propagate defaultKey flow).1 :=
  ⟨propagateFrom_again defaultKey {} flow, keeps_propagateFrom defaultKey {} flow⟩

end Partition

end Rollout
