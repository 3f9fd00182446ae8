-- Finite maps kept as a list of entries in strictly increasing key order. The order is the
-- one answers show, and two maps that answer every question alike are equal
-- (`SortedMap.ext_get?`). The laws say what each operation does to `get?`.

namespace Rollout

open Std (TransOrd LawfulEqOrd)

/-- A finite map whose entries stand in strictly increasing key order. -/
structure SortedMap (κ ν : Type) [Ord κ] where
  toList : List (κ × ν)
  sorted : toList.Pairwise fun a b => compare a.1 b.1 = .lt

namespace SortedMap

variable {κ ν : Type}

/-! ## The last pair of a key -/

/-- The last pair with a key gives it a value. -/
def IsLastPair (pairs : List (κ × ν)) (k : κ) (v : ν) : Prop :=
  ∃ before after, pairs = before ++ (k, v) :: after ∧ ∀ e ∈ after, e.1 ≠ k

theorem IsLastPair.mem {pairs : List (κ × ν)} {k : κ} {v : ν} (h : IsLastPair pairs k v) :
    (k, v) ∈ pairs := by
  obtain ⟨before, after, rfl, _⟩ := h
  simp

/-- A key of some pair has a last pair. -/
theorem exists_isLastPair {pairs : List (κ × ν)} {k : κ} (h : ∃ v, (k, v) ∈ pairs) :
    ∃ v, IsLastPair pairs k v := by
  classical
  induction pairs with
  | nil => simp at h
  | cons e pairs ih =>
    by_cases hlater : ∃ v, (k, v) ∈ pairs
    · obtain ⟨v, before, after, rfl, hafter⟩ := ih hlater
      exact ⟨v, e :: before, after, rfl, hafter⟩
    · obtain ⟨v, hv⟩ := h
      rcases List.mem_cons.1 hv with rfl | hv
      · refine ⟨v, [], pairs, rfl, ?_⟩
        rintro ⟨k', v'⟩ hmem rfl
        exact hlater ⟨v', hmem⟩
      · exact absurd ⟨v, hv⟩ hlater

variable [Ord κ]

/-! ## Entries -/

def lookup (k : κ) : List (κ × ν) → Option ν
  | [] => none
  | (k', v) :: rest => if compare k k' = .eq then some v else lookup k rest

/-- Puts an entry at its place, over an entry of the same key. -/
def insertEntry (k : κ) (v : ν) : List (κ × ν) → List (κ × ν)
  | [] => [(k, v)]
  | (k', v') :: rest =>
    match compare k k' with
    | .lt => (k, v) :: (k', v') :: rest
    | .eq => (k, v) :: rest
    | .gt => (k', v') :: insertEntry k v rest

def eraseEntry (k : κ) (entries : List (κ × ν)) : List (κ × ν) :=
  entries.filter fun e => compare k e.1 ≠ .eq

theorem mem_insertEntry {k : κ} {v : ν} {e : κ × ν} {l : List (κ × ν)}
    (h : e ∈ insertEntry k v l) : e = (k, v) ∨ e ∈ l := by
  induction l with
  | nil => simpa [insertEntry] using h
  | cons a rest ih =>
    unfold insertEntry at h
    split at h <;> grind

theorem sorted_insertEntry [TransOrd κ] [LawfulEqOrd κ] (k : κ) (v : ν) {l : List (κ × ν)}
    (h : l.Pairwise fun a b => compare a.1 b.1 = .lt) :
    (insertEntry k v l).Pairwise fun a b => compare a.1 b.1 = .lt := by
  induction l with
  | nil => simp [insertEntry]
  | cons a rest ih =>
    obtain ⟨k', v'⟩ := a
    rw [List.pairwise_cons] at h
    unfold insertEntry
    split
    · next hlt =>
      refine List.pairwise_cons.2 ⟨fun e he => ?_, List.pairwise_cons.2 h⟩
      rcases List.mem_cons.1 he with rfl | he
      · exact hlt
      · exact Std.TransCmp.lt_trans hlt (h.1 e he)
    · next heq =>
      obtain rfl := Std.LawfulEqCmp.eq_of_compare heq
      exact List.pairwise_cons.2 h
    · next hgt =>
      refine List.pairwise_cons.2 ⟨fun e he => ?_, ih h.2⟩
      rcases mem_insertEntry he with rfl | he
      · exact Std.OrientedCmp.lt_of_gt hgt
      · exact h.1 e he

theorem lookup_insertEntry [TransOrd κ] [LawfulEqOrd κ] [DecidableEq κ] (k k' : κ) (v : ν)
    (l : List (κ × ν)) :
    lookup k' (insertEntry k v l) = if k' = k then some v else lookup k' l := by
  induction l with
  | nil => by_cases h : k' = k <;> simp [insertEntry, lookup, h]
  | cons a rest ih =>
    obtain ⟨j, w⟩ := a
    unfold insertEntry
    split
    · by_cases h : k' = k <;> simp [lookup, h]
    · next heq =>
      obtain rfl := Std.LawfulEqCmp.eq_of_compare heq
      by_cases h : k' = k <;> simp [lookup, h]
    · next hgt =>
      by_cases h : k' = j
      · subst h
        have hne : k' ≠ k := by
          rintro rfl
          simp at hgt
        simp [lookup, hne]
      · simp [lookup, h, ih]

theorem lookup_eraseEntry [TransOrd κ] [LawfulEqOrd κ] [DecidableEq κ] (k k' : κ)
    (l : List (κ × ν)) :
    lookup k' (eraseEntry k l) = if k' = k then none else lookup k' l := by
  induction l with
  | nil => simp [eraseEntry, lookup]
  | cons a rest ih =>
    obtain ⟨j, w⟩ := a
    simp only [eraseEntry, Std.LawfulEqCmp.compare_eq_iff_eq, ne_eq, decide_not] at ih ⊢
    by_cases hj : k = j
    · subst hj
      by_cases h : k' = k <;> simp_all [lookup]
    · by_cases h : k' = j
      · subst h
        simp [lookup, hj, Ne.symm hj]
      · simp [lookup, hj, h, ih]

theorem lookup_eq_some_iff [TransOrd κ] [LawfulEqOrd κ] {k : κ} {v : ν} {l : List (κ × ν)}
    (h : l.Pairwise fun a b => compare a.1 b.1 = .lt) :
    lookup k l = some v ↔ (k, v) ∈ l := by
  induction l with
  | nil => simp [lookup]
  | cons a rest ih =>
    obtain ⟨j, w⟩ := a
    rw [List.pairwise_cons] at h
    by_cases hk : k = j
    · subst hk
      have hout : ∀ u, (k, u) ∉ rest := fun u hu => by
        simpa using h.1 _ hu
      simp [lookup, hout, eq_comm]
    · simp [lookup, hk, ih h.2]

/-! ## Entries with what stood in their place -/

/-- Puts an entry at its place, with the value that its key had before. -/
def swapEntry (k : κ) (v : ν) : List (κ × ν) → Option ν × List (κ × ν)
  | [] => (none, [(k, v)])
  | (k', v') :: rest =>
    match compare k k' with
    | .lt => (none, (k, v) :: (k', v') :: rest)
    | .eq => (some v', (k, v) :: rest)
    | .gt =>
      let (found, entries) := swapEntry k v rest
      (found, (k', v') :: entries)

/-- Takes an entry away, with the value that its key had. No later entry is looked at than the
place of the key. -/
def takeEntry (k : κ) : List (κ × ν) → Option ν × List (κ × ν)
  | [] => (none, [])
  | (k', v) :: rest =>
    match compare k k' with
    | .lt => (none, (k', v) :: rest)
    | .eq => (some v, rest)
    | .gt =>
      let (found, entries) := takeEntry k rest
      (found, (k', v) :: entries)

/-- A key that comes before all others is not there. -/
theorem lookup_eq_none_of_lt {k : κ} {l : List (κ × ν)} (h : ∀ e ∈ l, compare k e.1 = .lt) :
    lookup k l = none := by
  induction l with
  | nil => rfl
  | cons a rest ih =>
    rw [List.forall_mem_cons] at h
    simp [lookup, h.1, ih h.2]

theorem eraseEntry_eq_self_of_lt {k : κ} {l : List (κ × ν)} (h : ∀ e ∈ l, compare k e.1 = .lt) :
    eraseEntry k l = l := by
  refine List.filter_eq_self.2 fun e he => ?_
  simp [h e he]

theorem swapEntry_eq [TransOrd κ] {k : κ} {l : List (κ × ν)} (v : ν)
    (h : l.Pairwise fun a b => compare a.1 b.1 = .lt) :
    swapEntry k v l = (lookup k l, insertEntry k v l) := by
  induction l with
  | nil => rfl
  | cons a rest ih =>
    obtain ⟨j, w⟩ := a
    rw [List.pairwise_cons] at h
    cases hk : compare k j with
    | lt =>
      have hrest : ∀ e ∈ rest, compare k e.1 = .lt :=
        fun e he => Std.TransCmp.lt_trans hk (h.1 e he)
      simp [swapEntry, insertEntry, lookup, hk, lookup_eq_none_of_lt hrest]
    | eq => simp [swapEntry, insertEntry, lookup, hk]
    | gt => simp [swapEntry, insertEntry, lookup, hk, ih h.2]

theorem takeEntry_eq [TransOrd κ] {k : κ} {l : List (κ × ν)}
    (h : l.Pairwise fun a b => compare a.1 b.1 = .lt) :
    takeEntry k l = (lookup k l, eraseEntry k l) := by
  induction l with
  | nil => rfl
  | cons a rest ih =>
    obtain ⟨j, w⟩ := a
    rw [List.pairwise_cons] at h
    cases hk : compare k j with
    | lt =>
      have hrest : ∀ e ∈ rest, compare k e.1 = .lt :=
        fun e he => Std.TransCmp.lt_trans hk (h.1 e he)
      have hkept : eraseEntry k ((j, w) :: rest) = (j, w) :: rest :=
        eraseEntry_eq_self_of_lt (List.forall_mem_cons.2 ⟨hk, hrest⟩)
      simp [takeEntry, lookup, hk, lookup_eq_none_of_lt hrest, hkept]
    | eq =>
      -- No later entry has the key, so the filter leaves them all.
      have hrest : ∀ e ∈ rest, compare k e.1 = .lt :=
        fun e he => Std.TransCmp.lt_of_eq_of_lt hk (h.1 e he)
      have hkept : eraseEntry k ((j, w) :: rest) = rest := by
        rw [eraseEntry, List.filter_cons_of_neg (by simp [hk])]
        exact eraseEntry_eq_self_of_lt hrest
      simp [takeEntry, lookup, hk, hkept]
    | gt =>
      have hkept : eraseEntry k ((j, w) :: rest) = (j, w) :: eraseEntry k rest :=
        List.filter_cons_of_pos (by simp [hk])
      simp [takeEntry, lookup, hk, ih h.2, hkept]

/-! ## Operations -/

def get? (m : SortedMap κ ν) (k : κ) : Option ν := lookup k m.toList

def contains (m : SortedMap κ ν) (k : κ) : Bool := (m.get? k).isSome

def empty : SortedMap κ ν := ⟨[], List.Pairwise.nil⟩

instance : EmptyCollection (SortedMap κ ν) := ⟨empty⟩

instance : Inhabited (SortedMap κ ν) := ⟨empty⟩

/-- The values in the order of their keys. -/
def values (m : SortedMap κ ν) : List ν := m.toList.map (·.2)

def size (m : SortedMap κ ν) : Nat := m.toList.length

def isEmpty (m : SortedMap κ ν) : Bool := m.toList.isEmpty

def erase (m : SortedMap κ ν) (k : κ) : SortedMap κ ν :=
  ⟨eraseEntry k m.toList, m.sorted.sublist List.filter_sublist⟩

def insert [TransOrd κ] [LawfulEqOrd κ] (m : SortedMap κ ν) (k : κ) (v : ν) : SortedMap κ ν :=
  ⟨insertEntry k v m.toList, sorted_insertEntry k v m.sorted⟩

/-- Sets the value of a key, after looking up the one it has. -/
def getThenInsert [TransOrd κ] [LawfulEqOrd κ] (m : SortedMap κ ν) (k : κ) (v : ν) :
    Option ν × SortedMap κ ν :=
  let swapped := swapEntry k v m.toList
  (swapped.1, ⟨swapped.2, by
    show (swapEntry k v m.toList).2.Pairwise _
    rw [swapEntry_eq v m.sorted]
    exact sorted_insertEntry k v m.sorted⟩)

/-- Erases a key, after looking up its value. -/
def getThenErase [TransOrd κ] (m : SortedMap κ ν) (k : κ) : Option ν × SortedMap κ ν :=
  let taken := takeEntry k m.toList
  (taken.1, ⟨taken.2, by
    show (takeEntry k m.toList).2.Pairwise _
    rw [takeEntry_eq m.sorted]
    exact (m.erase k).sorted⟩)

/-- Sets the value of a key if there is one to set. -/
def insertSome [TransOrd κ] [LawfulEqOrd κ] (m : SortedMap κ ν) (k : κ) :
    Option ν → SortedMap κ ν
  | some v => m.insert k v
  | none => m

/-- Inserts pairs one after the other, so that of equal keys the last pair stays. -/
def insertAll [TransOrd κ] [LawfulEqOrd κ] (m : SortedMap κ ν) (pairs : List (κ × ν)) :
    SortedMap κ ν :=
  pairs.foldl (fun m e => m.insert e.1 e.2) m

/-- The map of a list of pairs; of equal keys the last pair stays. -/
def ofList [TransOrd κ] [LawfulEqOrd κ] (pairs : List (κ × ν)) : SortedMap κ ν :=
  (∅ : SortedMap κ ν).insertAll pairs

/-! ## Laws -/

theorem ext_toList {m n : SortedMap κ ν} (h : m.toList = n.toList) : m = n := by
  cases m; cases n; cases h; rfl

instance [DecidableEq κ] [DecidableEq ν] : DecidableEq (SortedMap κ ν) := fun m n =>
  if h : m.toList = n.toList then isTrue (ext_toList h) else isFalse fun e => h (e ▸ rfl)

@[simp] theorem get?_empty (k : κ) : (∅ : SortedMap κ ν).get? k = none := rfl

@[simp] theorem insertAll_nil [TransOrd κ] [LawfulEqOrd κ] (m : SortedMap κ ν) :
    m.insertAll [] = m := rfl

@[simp] theorem insertAll_cons [TransOrd κ] [LawfulEqOrd κ] (m : SortedMap κ ν) (e : κ × ν)
    (pairs : List (κ × ν)) : m.insertAll (e :: pairs) = (m.insert e.1 e.2).insertAll pairs := rfl

theorem insertAll_append [TransOrd κ] [LawfulEqOrd κ] (m : SortedMap κ ν)
    (pairs more : List (κ × ν)) :
    m.insertAll (pairs ++ more) = (m.insertAll pairs).insertAll more := by
  simp [insertAll, List.foldl_append]

theorem getThenInsert_eq [TransOrd κ] [LawfulEqOrd κ] (m : SortedMap κ ν) (k : κ)
    (v : ν) : m.getThenInsert k v = (m.get? k, m.insert k v) := by
  have h := swapEntry_eq (k := k) v m.sorted
  refine Prod.ext ?_ (ext_toList ?_)
  · exact (congrArg Prod.fst h :)
  · exact (congrArg Prod.snd h :)

theorem getThenErase_eq [TransOrd κ] (m : SortedMap κ ν) (k : κ) :
    m.getThenErase k = (m.get? k, m.erase k) := by
  have h := takeEntry_eq (k := k) m.sorted
  refine Prod.ext ?_ (ext_toList ?_)
  · exact (congrArg Prod.fst h :)
  · exact (congrArg Prod.snd h :)

section Lawful

variable [TransOrd κ] [LawfulEqOrd κ]

theorem get?_eq_some_iff {m : SortedMap κ ν} {k : κ} {v : ν} :
    m.get? k = some v ↔ (k, v) ∈ m.toList :=
  lookup_eq_some_iff m.sorted

theorem get?_insert [DecidableEq κ] (m : SortedMap κ ν) (k k' : κ) (v : ν) :
    (m.insert k v).get? k' = if k' = k then some v else m.get? k' :=
  lookup_insertEntry k k' v m.toList

@[simp] theorem get?_insert_self (m : SortedMap κ ν) (k : κ) (v : ν) :
    (m.insert k v).get? k = some v := by
  classical rw [get?_insert, if_pos rfl]

theorem get?_erase [DecidableEq κ] (m : SortedMap κ ν) (k k' : κ) :
    (m.erase k).get? k' = if k' = k then none else m.get? k' :=
  lookup_eraseEntry k k' m.toList

theorem get?_insertSome [DecidableEq κ] (m : SortedMap κ ν) (k k' : κ) (v? : Option ν) :
    (m.insertSome k v?).get? k' = if k' = k then v?.or (m.get? k') else m.get? k' := by
  cases v? with
  | none => simp [insertSome]
  | some v => simp [insertSome, get?_insert]

/-- Maps that answer every question alike are equal. -/
theorem ext_get? {m n : SortedMap κ ν} (h : ∀ k, m.get? k = n.get? k) : m = n := by
  have hmem : ∀ e, e ∈ m.toList ↔ e ∈ n.toList := fun e => by
    rw [← get?_eq_some_iff (m := m), ← get?_eq_some_iff (m := n), h]
  obtain ⟨l, hl⟩ := m
  obtain ⟨r, hr⟩ := n
  refine ext_toList ?_
  simp only at hmem ⊢
  clear h
  induction l generalizing r with
  | nil =>
    cases r with
    | nil => rfl
    | cons b r => exact absurd ((hmem b).2 List.mem_cons_self) List.not_mem_nil
  | cons a l ih =>
    cases r with
    | nil => exact absurd ((hmem a).1 List.mem_cons_self) List.not_mem_nil
    | cons b r =>
      rw [List.pairwise_cons] at hl hr
      have hab : a = b := by
        rcases List.mem_cons.1 ((hmem a).1 List.mem_cons_self) with h | h
        · exact h
        · rcases List.mem_cons.1 ((hmem b).2 List.mem_cons_self) with h' | h'
          · exact h'.symm
          · have h1 := hr.1 a h
            have h2 := hl.1 b h'
            simpa using Std.TransCmp.lt_trans h1 h2
      subst hab
      have hfresh : ∀ {t : List (κ × ν)}, (∀ e ∈ t, compare a.1 e.1 = .lt) → a ∉ t :=
        fun ht hm => by simpa using ht a hm
      congr 1
      refine ih hl.2 r hr.2 fun e => ⟨fun he => ?_, fun he => ?_⟩
      · rcases List.mem_cons.1 ((hmem e).1 (List.mem_cons_of_mem a he)) with rfl | h
        · exact absurd he (hfresh hl.1)
        · exact h
      · rcases List.mem_cons.1 ((hmem e).2 (List.mem_cons_of_mem a he)) with rfl | h
        · exact absurd he (hfresh hr.1)
        · exact h

/-! ## Pairs -/

/-- Of the pairs with a key one decides; a key without a pair is left as it was. -/
theorem get?_insertAll (m : SortedMap κ ν) (pairs : List (κ × ν)) (k : κ) :
    (∃ v, (k, v) ∈ pairs ∧ (m.insertAll pairs).get? k = some v) ∨
      (∀ v, (k, v) ∉ pairs) ∧ (m.insertAll pairs).get? k = m.get? k := by
  classical
  induction pairs generalizing m with
  | nil => exact Or.inr ⟨fun _ => List.not_mem_nil, rfl⟩
  | cons e pairs ih =>
    obtain ⟨j, w⟩ := e
    rw [insertAll_cons]
    rcases ih (m.insert j w) with ⟨v, hv, hget⟩ | ⟨hout, hget⟩
    · exact Or.inl ⟨v, List.mem_cons_of_mem _ hv, hget⟩
    · rw [get?_insert] at hget
      by_cases hk : k = j
      · subst hk
        rw [if_pos rfl] at hget
        exact Or.inl ⟨w, List.mem_cons_self, hget⟩
      · rw [if_neg hk] at hget
        refine Or.inr ⟨fun v hv => ?_, hget⟩
        rcases List.mem_cons.1 hv with heq | hv
        · exact hk (congrArg Prod.fst heq)
        · exact hout v hv

/-- Pairs that have one value for each of their keys put these values over those of a map. -/
theorem get?_insertAll_of_iff {pairs : List (κ × ν)} {value? : κ → Option ν}
    (h : ∀ k v, (k, v) ∈ pairs ↔ value? k = some v) (m : SortedMap κ ν) (k : κ) :
    (m.insertAll pairs).get? k = (value? k).or (m.get? k) := by
  rcases get?_insertAll m pairs k with ⟨v, hv, hget⟩ | ⟨hout, hget⟩
  · rw [hget, (h k v).1 hv, Option.some_or]
  · have hnone : value? k = none :=
      Option.eq_none_iff_forall_ne_some.2 fun v hv => hout v ((h k v).2 hv)
    rw [hget, hnone, Option.none_or]

/-- The entries of a map make that map, in whatever order and however often they are inserted. -/
theorem ofList_of_mem_iff {m : SortedMap κ ν} {pairs : List (κ × ν)}
    (h : ∀ e, e ∈ pairs ↔ e ∈ m.toList) : ofList pairs = m := by
  have hentry : ∀ k v, (k, v) ∈ pairs ↔ m.get? k = some v :=
    fun k v => (h (k, v)).trans get?_eq_some_iff.symm
  apply ext_get?
  intro k
  unfold ofList
  rw [get?_insertAll_of_iff hentry, get?_empty, Option.or_none]

@[simp] theorem ofList_toList (m : SortedMap κ ν) : ofList m.toList = m :=
  ofList_of_mem_iff fun _ => Iff.rfl

/-- Of the pairs with a key the last one decides. -/
theorem get?_ofList_eq_some_iff {pairs : List (κ × ν)} {k : κ} {v : ν} :
    (ofList pairs).get? k = some v ↔ IsLastPair pairs k v := by
  have hlast : ∀ {v}, IsLastPair pairs k v → (ofList pairs).get? k = some v := by
    rintro v ⟨before, after, rfl, hafter⟩
    unfold ofList
    rw [insertAll_append, insertAll_cons]
    rcases get?_insertAll (((∅ : SortedMap κ ν).insertAll before).insert k v) after k with
      ⟨w, hw, _⟩ | ⟨_, hget⟩
    · exact absurd rfl (hafter (k, w) hw)
    · rw [hget, get?_insert_self]
  refine ⟨fun h => ?_, hlast⟩
  rcases get?_insertAll (∅ : SortedMap κ ν) pairs k with ⟨w, hw, _⟩ | ⟨_, hget⟩
  · obtain ⟨v', hv'⟩ := exists_isLastPair ⟨w, hw⟩
    have heq : some v' = some v := (hlast hv').symm.trans h
    cases heq
    exact hv'
  · rw [ofList, hget] at h
    cases h

end Lawful

end SortedMap

end Rollout
