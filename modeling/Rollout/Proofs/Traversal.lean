-- Work on the entries of a list, one after the other: what it leaves as it was, and how it ends
-- at the first entry it fails on.
import Mathlib.Data.List.Forall2
import Mathlib.Data.List.Nodup
import Rollout.SortedMap

namespace Rollout.Traversal

variable {α β γ ε : Type}

/-- What no entry of a list changes is the same after all of them. -/
theorem foldl_unchanged {f : β → α → β} {g : β → γ} (h : ∀ b x, g (f b x) = g b) (b : β)
    (xs : List α) : g (xs.foldl f b) = g b := by
  induction xs generalizing b with
  | nil => rfl
  | cons x xs ih => rw [List.foldl_cons, ih, h]

/-- If each entry is made into pieces of which it alone can be taken, then what is taken of the
pieces of a list are the entries that it is taken of. -/
theorem filterMap_flatMap_eq_filter {f : α → List β} {g : β → Option α} {P : α → Bool}
    (h : ∀ x, (f x).filterMap g = if P x then [x] else []) (xs : List α) :
    (xs.flatMap f).filterMap g = xs.filter P := by
  induction xs with
  | nil => rfl
  | cons x xs ih =>
    rw [List.flatMap_cons, List.filterMap_append, ih, h, List.filter_cons]
    split <;> rfl

theorem toOption_eq_some_iff {x : Except ε α} {a : α} : x.toOption = some a ↔ x = .ok a := by
  cases x <;> simp [Except.toOption]

/-- The work succeeds exactly when it does on every entry. -/
theorem mapM_eq_ok_iff {f : α → Except ε β} {xs : List α} {ys : List β} :
    xs.mapM f = .ok ys ↔ xs.map f = ys.map .ok := by
  induction xs generalizing ys with
  | nil => cases ys <;> simp [pure, Except.pure]
  | cons x xs ih =>
    rw [List.mapM_cons]
    cases hx : f x with
    | error e => cases ys <;> simp [bind, Except.bind, hx]
    | ok y =>
      cases hxs : xs.mapM f with
      | error e =>
        have hne : ∀ zs : List β, xs.map f ≠ zs.map .ok := by
          intro zs hz
          rw [ih.2 hz] at hxs
          cases hxs
        cases ys with
        | nil => simp [bind, Except.bind]
        | cons z zs => simp [bind, Except.bind, hne zs]
      | ok zs =>
        cases ys with
        | nil => simp [bind, Except.bind, pure, Except.pure]
        | cons w ws =>
          have hws : xs.mapM f = .ok ws ↔ xs.map f = ws.map .ok := ih
          rw [hxs] at hws
          simp [bind, Except.bind, pure, Except.pure, hx, ← hws]

theorem mapM_eq_ok_iff_forall₂ {f : α → Except ε β} {xs : List α} {ys : List β} :
    xs.mapM f = .ok ys ↔ List.Forall₂ (fun x y => f x = .ok y) xs ys := by
  rw [mapM_eq_ok_iff, ← List.forall₂_eq_eq_eq, List.forall₂_map_left_iff,
    List.forall₂_map_right_iff]

/-- Work on a list is told by what it comes to on each entry. -/
theorem mapM_eq_some_iff_forall₂ {f : α → Option β} {xs : List α} {ys : List β} :
    xs.mapM f = some ys ↔ List.Forall₂ (fun x y => f x = some y) xs ys := by
  induction xs generalizing ys with
  | nil => simp [eq_comm]
  | cons x xs ih =>
    simp only [List.mapM_cons, Option.bind_eq_bind, Option.bind_eq_some_iff, ih, Option.pure_def,
      Option.some.injEq]
    constructor
    · rintro ⟨y, hy, zs, hzs, rfl⟩
      exact .cons hy hzs
    · intro h
      cases h with
      | cons hy hzs => exact ⟨_, hy, _, hzs, rfl⟩

theorem exists_mem_of_forall₂ {R : α → β → Prop} {xs : List α} {ys : List β}
    (h : List.Forall₂ R xs ys) {y : β} (hy : y ∈ ys) : ∃ x ∈ xs, R x y := by
  induction h with
  | nil => cases hy
  | cons hhead _ ih =>
    rcases List.mem_cons.1 hy with rfl | hy
    · exact ⟨_, List.mem_cons_self, hhead⟩
    · obtain ⟨x, hx, hxy⟩ := ih hy
      exact ⟨x, List.mem_cons_of_mem _ hx, hxy⟩

theorem forall₂_congr_of_mem {R S : α → β → Prop} {xs : List α} {ys : List β}
    (h : ∀ x ∈ xs, ∀ y, R x y ↔ S x y) : List.Forall₂ R xs ys ↔ List.Forall₂ S xs ys := by
  induction xs generalizing ys with
  | nil => simp
  | cons x xs ih =>
    rw [List.forall_mem_cons] at h
    cases ys with
    | nil => simp
    | cons y ys => rw [List.forall₂_cons, List.forall₂_cons, h.1 y, ih h.2]

theorem mapM_congr_forall₂ {f : α → Except ε γ} {g : β → Except ε γ} {xs : List α} {ys : List β}
    (h : List.Forall₂ (fun x y => g y = f x) xs ys) : ys.mapM g = xs.mapM f := by
  induction h with
  | nil => rfl
  | cons hhead _ ih => rw [List.mapM_cons, List.mapM_cons, hhead, ih]

theorem mapM_congr {f g : α → Except ε β} {xs : List α} (h : ∀ x ∈ xs, f x = g x) :
    xs.mapM f = xs.mapM g :=
  mapM_congr_forall₂ (List.forall₂_same.2 fun x hx => h x hx)

/-- The work fails exactly when it does on some entry, after success on all before it. -/
theorem mapM_eq_error_iff {f : α → Except ε β} {xs : List α} {e : ε} :
    xs.mapM f = .error e ↔ ∃ before x after, xs = before ++ x :: after ∧
      (∀ b ∈ before, ∃ y, f b = .ok y) ∧ f x = .error e := by
  constructor
  · intro h
    induction xs with
    | nil => cases h
    | cons x xs ih =>
      rw [List.mapM_cons] at h
      cases hx : f x with
      | error e' =>
        rw [hx] at h
        cases h
        exact ⟨[], x, xs, rfl, by simp, hx⟩
      | ok y =>
        cases hxs : xs.mapM f with
        | ok ys =>
          rw [hx, hxs] at h
          cases h
        | error e' =>
          rw [hx, hxs] at h
          cases h
          obtain ⟨before, bad, after, rfl, hbefore, hbad⟩ := ih hxs
          refine ⟨x :: before, bad, after, rfl, ?_, hbad⟩
          intro b hb
          rcases List.mem_cons.1 hb with rfl | hb
          · exact ⟨y, hx⟩
          · exact hbefore b hb
  · rintro ⟨before, x, after, rfl, hbefore, hx⟩
    induction before with
    | nil =>
      rw [List.nil_append, List.mapM_cons, hx]
      rfl
    | cons b before ih =>
      obtain ⟨y, hy⟩ := hbefore b List.mem_cons_self
      rw [List.cons_append, List.mapM_cons, hy,
        ih fun b' hb' => hbefore b' (List.mem_cons_of_mem b hb')]
      rfl

/-! ## The first entry of its kind -/

/-- The entry is the first of a list that has a property. -/
def IsFirst (P : α → Prop) (xs : List α) (x : α) : Prop :=
  ∃ before after, xs = before ++ x :: after ∧ P x ∧ ∀ b ∈ before, ¬ P b

theorem IsFirst.mem {P : α → Prop} {xs : List α} {x : α} (h : IsFirst P xs x) : x ∈ xs := by
  obtain ⟨before, after, rfl, _, _⟩ := h
  simp

theorem IsFirst.holds {P : α → Prop} {xs : List α} {x : α} (h : IsFirst P xs x) : P x := by
  obtain ⟨_, _, _, hx, _⟩ := h
  exact hx

theorem IsFirst.congr {P Q : α → Prop} {xs : List α} {x : α} (h : ∀ y ∈ xs, P y ↔ Q y) :
    IsFirst P xs x ↔ IsFirst Q xs x := by
  unfold IsFirst
  refine exists_congr fun before => exists_congr fun after => and_congr_right fun hxs => ?_
  subst hxs
  refine and_congr (h x (by simp)) (forall₂_congr fun b hb => ?_)
  rw [h b (by simp [hb])]

/-- Work on the entry fails. -/
def Fails (f : α → Except ε β) (x : α) : Prop := ∃ e, f x = .error e

theorem not_fails_iff {f : α → Except ε β} {x : α} : ¬ Fails f x ↔ ∃ y, f x = .ok y := by
  unfold Fails
  cases f x <;> simp

/-- Work on a list fails as it does on the first entry that it fails on. -/
theorem mapM_eq_error_iff_isFirst {f : α → Except ε β} {xs : List α} {e : ε} :
    xs.mapM f = .error e ↔ ∃ x, IsFirst (Fails f) xs x ∧ f x = .error e := by
  rw [mapM_eq_error_iff]
  constructor
  · rintro ⟨before, x, after, hxs, hbefore, hx⟩
    refine ⟨x, ⟨before, after, hxs, ⟨e, hx⟩, fun b hb => ?_⟩, hx⟩
    exact not_fails_iff.2 (hbefore b hb)
  · rintro ⟨x, ⟨before, after, hxs, _, hbefore⟩, hx⟩
    refine ⟨before, x, after, hxs, fun b hb => ?_, hx⟩
    exact not_fails_iff.1 (hbefore b hb)

/-- Work on a list reports what is known to be reported of the first entry that is known to be at
fault. -/
theorem mapM_eq_error_iff_reports {f : α → Except ε β} {P : α → Prop} {Reports : α → ε → Prop}
    (hfails : ∀ x, Fails f x ↔ P x) (hreports : ∀ x e, f x = .error e ↔ Reports x e)
    {xs : List α} {e : ε} :
    xs.mapM f = .error e ↔ ∃ x, IsFirst P xs x ∧ Reports x e := by
  have hP : Fails f = P := funext fun x => propext (hfails x)
  simp only [mapM_eq_error_iff_isFirst, hP, hreports]

/-- Work on a list fails exactly if it does on some entry. -/
theorem fails_mapM_iff {f : α → Except ε β} {xs : List α} :
    Fails (List.mapM f) xs ↔ ∃ x ∈ xs, Fails f x := by
  constructor
  · rintro ⟨e, hxs⟩
    obtain ⟨x, hfirst, hx⟩ := mapM_eq_error_iff_isFirst.1 hxs
    exact ⟨x, hfirst.mem, e, hx⟩
  · rintro ⟨x, hx, hfails⟩
    cases hxs : xs.mapM f with
    | error e => exact ⟨e, hxs⟩
    | ok ys =>
      have hmem : f x ∈ ys.map Except.ok := by
        rw [← mapM_eq_ok_iff.1 hxs]
        exact List.mem_map_of_mem hx
      obtain ⟨y, _, hy⟩ := List.mem_map.1 hmem
      exact absurd hfails (not_fails_iff.2 ⟨y, hy.symm⟩)

/-! ## Entries told apart by a key -/

/-- Of entries told apart by a key, a search for a key finds the entry that has it. -/
theorem find?_eq_some_iff_of_nodup {α κ : Type} [DecidableEq κ] {key : α → κ}
    {xs : List α} (h : (xs.map key).Nodup) {k : κ} {x : α} :
    xs.find? (fun x => decide (key x = k)) = some x ↔ x ∈ xs ∧ key x = k := by
  constructor
  · intro hfind
    exact ⟨List.mem_of_find?_eq_some hfind, by simpa using List.find?_some hfind⟩
  · rintro ⟨hx, hkey⟩
    cases hfind : xs.find? (fun x => decide (key x = k)) with
    | none => exact absurd hkey (by simpa using List.find?_eq_none.1 hfind x hx)
    | some y =>
      have hy : key y = k := by simpa using List.find?_some hfind
      have hyx : y = x :=
        List.inj_on_of_nodup_map h (List.mem_of_find?_eq_some hfind) hx (hy.trans hkey.symm)
      rw [hyx]

end Rollout.Traversal
