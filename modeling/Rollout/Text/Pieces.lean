-- Texts cut at a separator: all pieces between separators, the two sides of the first
-- separator, and what follows a given beginning. Joining the pieces gives the text back.

namespace Rollout.Text

/-- The pieces of a text between the separators: one more than there are separators. -/
def pieces (sep : Char) : List Char → List (List Char)
  | [] => [[]]
  | c :: cs =>
    if c = sep then [] :: pieces sep cs
    else
      match pieces sep cs with
      | [] => [[c]]
      | p :: ps => (c :: p) :: ps

/-- The pieces of a text in a row, with a separator between neighbours. -/
def join (sep : Char) : List (List Char) → List Char
  | [] => []
  | [p] => p
  | p :: ps => p ++ sep :: join sep ps

/-- The two sides of the first separator of a text, if it has one. -/
def cut? (sep : Char) (cs : List Char) : Option (List Char × List Char) :=
  match cs.dropWhile (· ≠ sep) with
  | [] => none
  | _ :: rest => some (cs.takeWhile (· ≠ sep), rest)

/-- What follows a given beginning of a text. -/
def after? : List Char → List Char → Option (List Char)
  | [], cs => some cs
  | _ :: _, [] => none
  | b :: bs, c :: cs => if b = c then after? bs cs else none

/-! ## Laws -/

theorem pieces_ne_nil (sep : Char) (cs : List Char) : pieces sep cs ≠ [] := by
  cases cs with
  | nil => simp [pieces]
  | cons c cs =>
    unfold pieces
    split
    · simp
    · split <;> simp

@[simp] theorem join_cons_cons (sep : Char) (p q : List Char) (ps : List (List Char)) :
    join sep (p :: q :: ps) = p ++ sep :: join sep (q :: ps) := rfl

/-- The pieces of a text, joined, are the text. -/
@[simp] theorem join_pieces (sep : Char) (cs : List Char) : join sep (pieces sep cs) = cs := by
  induction cs with
  | nil => rfl
  | cons c cs ih =>
    unfold pieces
    split
    · next h =>
      subst h
      cases hp : pieces c cs with
      | nil => exact absurd hp (pieces_ne_nil c cs)
      | cons p ps => rw [join_cons_cons, ← hp, ih]; rfl
    · cases hp : pieces sep cs with
      | nil => exact absurd hp (pieces_ne_nil sep cs)
      | cons p ps =>
        rw [hp] at ih
        cases ps with
        | nil => simpa [join] using ih
        | cons q ps => simpa [join] using ih

/-- No piece holds the separator. -/
theorem sep_notMem_of_mem_pieces {sep : Char} {cs p : List Char} (h : p ∈ pieces sep cs) :
    sep ∉ p := by
  induction cs generalizing p with
  | nil => simp_all [pieces]
  | cons c cs ih =>
    unfold pieces at h
    split at h
    · rcases List.mem_cons.1 h with rfl | h
      · simp
      · exact ih h
    · next hc =>
      cases hp : pieces sep cs with
      | nil => exact absurd hp (pieces_ne_nil sep cs)
      | cons q qs =>
        rw [hp] at h ih
        rcases List.mem_cons.1 h with rfl | h
        · simpa [Ne.symm hc] using ih List.mem_cons_self
        · exact ih (List.mem_cons_of_mem q h)

theorem pieces_of_notMem {sep : Char} {p : List Char} (h : sep ∉ p) : pieces sep p = [p] := by
  induction p with
  | nil => rfl
  | cons c cs ih =>
    rw [List.mem_cons, not_or] at h
    rw [pieces, if_neg (Ne.symm h.1), ih h.2]

/-- A text is cut at each separator. -/
theorem pieces_append_cons (sep : Char) (a b : List Char) :
    pieces sep (a ++ sep :: b) = pieces sep a ++ pieces sep b := by
  induction a with
  | nil => simp [pieces]
  | cons c a ih =>
    by_cases hc : c = sep
    · simp [pieces, hc, ih]
    · cases ha : pieces sep a with
      | nil => exact absurd ha (pieces_ne_nil sep a)
      | cons p ps => simp [pieces, hc, ih, ha]

theorem pieces_append {sep : Char} {p : List Char} (rest : List Char) (h : sep ∉ p) :
    pieces sep (p ++ sep :: rest) = p :: pieces sep rest := by
  rw [pieces_append_cons, pieces_of_notMem h, List.singleton_append]

/-- What has no separator goes to the first piece of what follows. -/
theorem pieces_append_of_notMem {sep : Char} {a b p : List Char} {ps : List (List Char)}
    (h : sep ∉ a) (hb : pieces sep b = p :: ps) : pieces sep (a ++ b) = (a ++ p) :: ps := by
  induction a with
  | nil => exact hb
  | cons c a ih =>
    rw [List.mem_cons, not_or] at h
    rw [List.cons_append, pieces, if_neg (Ne.symm h.1), ih h.2]
    rfl

/-- Pieces without the separator, joined, are cut apart again. -/
theorem pieces_join {sep : Char} {ps : List (List Char)} (hne : ps ≠ [])
    (h : ∀ p ∈ ps, sep ∉ p) : pieces sep (join sep ps) = ps := by
  induction ps with
  | nil => exact absurd rfl hne
  | cons p ps ih =>
    have hp : sep ∉ p := h p List.mem_cons_self
    cases ps with
    | nil => exact pieces_of_notMem hp
    | cons q ps =>
      rw [join_cons_cons, pieces_append _ hp,
        ih (List.cons_ne_nil q ps) fun p' hp' => h p' (List.mem_cons_of_mem p hp')]

/-- Joined texts have the pieces of each of them. -/
theorem pieces_join_eq_flatMap {sep : Char} {ps : List (List Char)} (hne : ps ≠ []) :
    pieces sep (join sep ps) = ps.flatMap (pieces sep) := by
  induction ps with
  | nil => exact absurd rfl hne
  | cons p ps ih =>
    cases ps with
    | nil => simp [join]
    | cons q ps =>
      rw [join_cons_cons, pieces_append_cons, ih (List.cons_ne_nil q ps)]
      rfl

theorem join_cons_of_ne_nil (sep : Char) (p : List Char) {ps : List (List Char)} (h : ps ≠ []) :
    join sep (p :: ps) = p ++ sep :: join sep ps := by
  cases ps with
  | nil => exact absurd rfl h
  | cons q ps => rfl

theorem join_append {sep : Char} {ps qs : List (List Char)} (hps : ps ≠ []) (hqs : qs ≠ []) :
    join sep (ps ++ qs) = join sep ps ++ sep :: join sep qs := by
  induction ps with
  | nil => exact absurd rfl hps
  | cons p ps ih =>
    rw [List.cons_append, join_cons_of_ne_nil sep p (by simp [hqs])]
    by_cases h : ps = []
    · simp [h, join]
    · rw [ih h, join_cons_of_ne_nil sep p h, List.append_assoc, List.cons_append]

theorem join_append_cons (sep : Char) (a p : List Char) (ps : List (List Char)) :
    join sep ((a ++ p) :: ps) = a ++ join sep (p :: ps) := by
  cases ps with
  | nil => rfl
  | cons q ps => rw [join_cons_cons, join_cons_cons, List.append_assoc]

/-- Pieces may be joined group by group. -/
theorem join_map_join {sep : Char} {gs : List (List (List Char))} (h : ∀ g ∈ gs, g ≠ []) :
    join sep (gs.map (join sep)) = join sep gs.flatten := by
  induction gs with
  | nil => rfl
  | cons g gs ih =>
    rw [List.forall_mem_cons] at h
    rw [List.map_cons, List.flatten_cons]
    by_cases hgs : gs = []
    · simp [hgs, join]
    · have hflat : gs.flatten ≠ [] := by
        obtain ⟨g', hg'⟩ := List.exists_mem_of_ne_nil gs hgs
        intro hnil
        exact h.2 g' hg' (List.flatten_eq_nil_iff.1 hnil g' hg')
      rw [join_cons_of_ne_nil sep _ (by simpa using hgs), ih h.2, join_append h.1 hflat]

/-- What stands in joined pieces is the separator or stands in a piece. -/
theorem mem_join {sep c : Char} {ps : List (List Char)} (h : c ∈ join sep ps) :
    c = sep ∨ ∃ p ∈ ps, c ∈ p := by
  induction ps with
  | nil => cases h
  | cons p ps ih =>
    cases ps with
    | nil => exact Or.inr ⟨p, List.mem_cons_self, h⟩
    | cons q ps =>
      rw [join_cons_cons, List.mem_append, List.mem_cons] at h
      rcases h with h | h | h
      · exact Or.inr ⟨p, List.mem_cons_self, h⟩
      · exact Or.inl h
      · rcases ih h with h | ⟨p', hp', hc⟩
        · exact Or.inl h
        · exact Or.inr ⟨p', List.mem_cons_of_mem p hp', hc⟩

theorem mem_join_of_mem {sep c : Char} {ps : List (List Char)} {p : List Char} (h : p ∈ ps)
    (hc : c ∈ p) : c ∈ join sep ps := by
  induction ps with
  | nil => cases h
  | cons q ps ih =>
    cases ps with
    | nil =>
      rw [List.mem_singleton] at h
      subst h
      exact hc
    | cons q' ps =>
      rw [join_cons_cons, List.mem_append, List.mem_cons]
      rcases List.mem_cons.1 h with rfl | h
      · exact Or.inl hc
      · exact Or.inr (Or.inr (ih h))

/-- What stands in a piece stands in the text. -/
theorem mem_of_mem_pieces {sep c : Char} {cs p : List Char} (h : p ∈ pieces sep cs)
    (hc : c ∈ p) : c ∈ cs := by
  rw [← join_pieces sep cs]
  exact mem_join_of_mem h hc

/-- A text is cut where the first separator stands. -/
theorem cut?_append_cons {sep : Char} {a : List Char} (b : List Char) (h : sep ∉ a) :
    cut? sep (a ++ sep :: b) = some (a, b) := by
  have hne : ∀ c ∈ a, c ≠ sep := by
    rintro c hc rfl
    exact h hc
  unfold cut?
  rw [List.dropWhile_append_of_pos (by simpa using hne),
    List.takeWhile_append_of_pos (by simpa using hne)]
  simp

/-- A text has one first separator. -/
theorem sides_unique {sep : Char} {a a' b b' : List Char} (ha : sep ∉ a) (ha' : sep ∉ a')
    (h : a ++ sep :: b = a' ++ sep :: b') : a = a' ∧ b = b' := by
  have hcut := congrArg (cut? sep) h
  rw [cut?_append_cons b ha, cut?_append_cons b' ha'] at hcut
  simpa using hcut

theorem after?_eq_some_iff {bs cs rest : List Char} :
    after? bs cs = some rest ↔ cs = bs ++ rest := by
  induction bs generalizing cs with
  | nil => simp [after?]
  | cons b bs ih =>
    cases cs with
    | nil => simp [after?]
    | cons c cs =>
      by_cases h : b = c
      · simp [after?, h, ih]
      · simp [after?, h, Ne.symm h]

end Rollout.Text
