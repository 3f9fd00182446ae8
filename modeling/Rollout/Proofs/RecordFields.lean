-- Records told by their fields. An object gives a field the value of the member of that name, an
-- array the element in that place; a JSON value is read as a record exactly if it is one of the
-- given names, and then each field is read from what is given for it.
import Rollout.Proofs.ReadingBack
import Rollout.Proofs.Traversal

namespace Rollout.Document

/-! ## What is given for a field -/

/-- A JSON value that is a record of the given names: an object whose names all denote texts, none
of the given ones twice, or an array that is not longer than the names are. -/
inductive IsRecord (names : List String) : Json → Prop where
  | object {members : List (Literal × Json)} (denoted : ∀ m ∈ members, m.1 ≠ none)
      (once : ∀ name ∈ names, (valuesOf name members).length ≤ 1) :
      IsRecord names (.object members)
  | array {elements : List Json} (short : elements.length ≤ names.length) :
      IsRecord names (.array elements)

/-- A JSON value, seen as a record of the given names, gives a field a value. -/
inductive Gives (names : List String) (name : String) : Json → Json → Prop where
  | member {members : List (Literal × Json)} {value : Json} (h : (some name, value) ∈ members) :
      Gives names name (.object members) value
  | element {elements : List Json} {value : Json}
      (h : elements[names.idxOf name]? = some value) :
      Gives names name (.array elements) value

/-- A field is there and is read as a value. -/
def HasField {α : Type} [Document α] (names : List String) (name : String) (j : Json) (a : α) :
    Prop :=
  ∃ value, Gives names name j value ∧ ofJson? value = some a

/-- A field is there and is read as a value, or it is left out and the value is the default. -/
def HasFieldOr {α : Type} [Document α] (default : α) (names : List String) (name : String) (j : Json)
    (a : α) : Prop :=
  HasField names name j a ∨ (∀ value, ¬ Gives names name j value) ∧ a = default

/-- The value that a record gives a field, if it gives one. -/
def field? (names : List String) (name : String) : Json → Option Json
  | .object members => (valuesOf name members).head?
  | .array elements => elements[names.idxOf name]?
  | _ => none

/-! ## Fields one by one -/

theorem mem_valuesOf_iff {name : String} {members : List (Literal × Json)} {value : Json} :
    value ∈ valuesOf name members ↔ (some name, value) ∈ members := by
  unfold valuesOf
  rw [List.mem_map]
  constructor
  · rintro ⟨⟨name', _⟩, hmem, rfl⟩
    rw [List.mem_filter, decide_eq_true_iff] at hmem
    obtain ⟨hmem, rfl⟩ := hmem
    exact hmem
  · exact fun h => ⟨(some name, value), List.mem_filter.2 ⟨h, decide_eq_true rfl⟩, rfl⟩

theorem wellNamed_eq_true_iff {names : List String} {members : List (Literal × Json)} :
    wellNamed names members = true ↔ IsRecord names (.object members) := by
  unfold wellNamed
  rw [Bool.and_eq_true, List.all_eq_true, List.all_eq_true]
  constructor
  · rintro ⟨hdenoted, honce⟩
    refine .object (fun m hm => ?_) fun name hname => of_decide_eq_true (honce name hname)
    exact Option.isSome_iff_ne_none.1 (hdenoted m hm)
  · rintro ⟨hdenoted, honce⟩
    refine ⟨fun m hm => ?_, fun name hname => decide_eq_true (honce name hname)⟩
    exact Option.isSome_iff_ne_none.2 (hdenoted m hm)

/-- Of a record, the value that is looked up for a field is the one that is given. -/
theorem field?_eq_some_iff {names : List String} {name : String} {j value : Json}
    (h : IsRecord names j) (hname : name ∈ names) :
    field? names name j = some value ↔ Gives names name j value := by
  cases h with
  | @object members _ honce =>
    constructor
    · intro hvalue
      exact .member (mem_valuesOf_iff.1 (List.mem_of_mem_head? hvalue))
    · rintro ⟨hmem⟩
      have hvalue := mem_valuesOf_iff.2 hmem
      have hlength := honce name hname
      show (valuesOf name members).head? = some value
      match hvalues : valuesOf name members with
      | [] =>
        rw [hvalues] at hvalue
        cases hvalue
      | [other] =>
        rw [hvalues, List.mem_singleton] at hvalue
        rw [hvalue, List.head?_cons]
      | _ :: _ :: _ =>
        rw [hvalues] at hlength
        simp at hlength
  | array _ =>
    constructor
    · exact .element
    · rintro ⟨⟩
      assumption

theorem field?_eq_none_iff {names : List String} {name : String} {j : Json}
    (h : IsRecord names j) (hname : name ∈ names) :
    field? names name j = none ↔ ∀ value, ¬ Gives names name j value := by
  rw [Option.eq_none_iff_forall_ne_some]
  exact forall_congr' fun value => not_congr (field?_eq_some_iff h hname)

theorem required_eq_some_iff {α : Type} [Document α] {names : List String} {name : String}
    {j : Json} {a : α} (h : IsRecord names j) (hname : name ∈ names) :
    required (field? names name j) = some a ↔ HasField names name j a := by
  unfold HasField
  simp only [← field?_eq_some_iff h hname]
  cases field? names name j with
  | none => simp [required]
  | some value => simp [required]

theorem defaulted_eq_some_iff {α : Type} [Document α] {default : α} {names : List String}
    {name : String} {j : Json} {a : α} (h : IsRecord names j) (hname : name ∈ names) :
    defaulted default (field? names name j) = some a ↔ HasFieldOr default names name j a := by
  unfold HasFieldOr HasField
  rw [← field?_eq_none_iff h hname]
  simp only [← field?_eq_some_iff h hname]
  cases field? names name j with
  | none => simp [defaulted, eq_comm]
  | some value => simp [defaulted]

/-! ## All fields of a record -/

/-- The elements of an array that is not longer than the names are, each found by its name. -/
theorem map_getElem?_idxOf {names : List String} (h : names.Nodup) {elements : List Json}
    (hlength : elements.length ≤ names.length) :
    elements.map some ++ List.replicate (names.length - elements.length) none =
      names.map fun name => elements[names.idxOf name]? := by
  apply List.ext_getElem
  · simp only [List.length_append, List.length_map, List.length_replicate]
    omega
  · intro i _ hi
    rw [List.length_map] at hi
    rw [List.getElem_map, h.idxOf_getElem i hi]
    by_cases hmem : i < elements.length
    · rw [List.getElem_append_left (by simpa using hmem), List.getElem_map,
        List.getElem?_eq_getElem hmem]
    · rw [List.getElem_append_right (by simpa using hmem), List.getElem_replicate,
        List.getElem?_eq_none (Nat.le_of_not_lt hmem)]

theorem fields?_eq_some_iff {names : List String} (h : names.Nodup) {j : Json}
    {values : List (Option Json)} :
    fields? names j = some values ↔ IsRecord names j ∧ values = names.map (field? names · j) := by
  cases j with
  | object members =>
    rw [← wellNamed_eq_true_iff]
    simp only [fields?]
    split
    · next hnamed => simp [hnamed, field?, eq_comm]
    · next hnamed => simp [hnamed]
  | array elements =>
    simp only [fields?]
    split
    · next hlength =>
      rw [map_getElem?_idxOf h hlength, Option.some.injEq]
      constructor
      · exact fun hvalues => ⟨.array hlength, hvalues.symm⟩
      · exact fun h => h.2.symm
    · next hlength =>
      constructor
      · intro hvalues
        cases hvalues
      · rintro ⟨hrecord, _⟩
        cases hrecord with
        | array hshort => exact absurd hshort hlength
  | _ =>
    constructor
    · intro hvalues
      cases hvalues
    · rintro ⟨hrecord, _⟩
      cases hrecord

/-- A JSON value is read as a record exactly if it is one and its fields are. -/
theorem fields?_bind_eq_some_iff {α : Type} {names : List String} (h : names.Nodup) {j : Json}
    {f : List (Option Json) → Option α} {a : α} :
    (fields? names j >>= f) = some a ↔
      IsRecord names j ∧ f (names.map (field? names · j)) = some a := by
  simp only [Option.bind_eq_bind, Option.bind_eq_some_iff, fields?_eq_some_iff h]
  constructor
  · rintro ⟨_, ⟨hrecord, rfl⟩, ha⟩
    exact ⟨hrecord, ha⟩
  · rintro ⟨hrecord, ha⟩
    exact ⟨_, ⟨hrecord, rfl⟩, ha⟩

/-- A list is read from an array whose elements are read as its entries. -/
theorem ofJson?_list_eq_some_iff {α : Type} [Document α] {j : Json} {as : List α} :
    ofJson? j = some as ↔
      ∃ elements, j = .array elements ∧
        List.Forall₂ (fun e a => ofJson? e = some a) elements as := by
  cases j with
  | array elements =>
    show elements.mapM ofJson? = some as ↔ _
    rw [Traversal.mapM_eq_some_iff_forall₂]
    constructor
    · exact fun h => ⟨elements, rfl, h⟩
    · rintro ⟨_, ⟨⟩, h⟩
      exact h
  | _ =>
    constructor
    · intro h
      cases h
    · rintro ⟨_, ⟨⟩, _⟩

end Rollout.Document
