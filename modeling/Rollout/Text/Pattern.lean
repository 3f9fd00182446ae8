-- Patterns of texts and the parts they keep. A pattern can fit the beginning of a text in several
-- ways, and all of them are listed, the preferred one first: a run takes as many characters as it
-- can, and what is optional is rather there than not. Each law says which fits a pattern has.

namespace Rollout.Text

inductive Pattern where
  | char (c : Char)
  /-- At least so many characters, none of which is among the given ones. -/
  | run (least : Nat) (stops : List Char)
  | append (p q : Pattern)
  /-- The pattern, or nothing. -/
  | optional (p : Pattern)
  /-- The pattern, with the text it takes kept under a number. -/
  | keep (number : Nat) (p : Pattern)
  /-- Nothing, where the text ends. -/
  | atEnd
  deriving DecidableEq, Inhabited

/-- A way in which a pattern fits the beginning of a text. -/
structure Fit where
  taken : List Char
  /-- The texts that are kept, with their numbers. -/
  kept : List (Nat × List Char)
  rest : List Char
  deriving DecidableEq, Inhabited

namespace Pattern

instance : Append Pattern := ⟨append⟩

/-- The cuts of a text into characters before the first stop and what follows, the latest cut
first. -/
def cuts (stops : List Char) : List Char → List (List Char × List Char)
  | [] => [([], [])]
  | c :: cs =>
    (if c ∈ stops then [] else (cuts stops cs).map fun x => (c :: x.1, x.2)) ++ [([], c :: cs)]

/-- The ways in which a pattern fits the beginning of a text, the preferred one first. -/
def fits : Pattern → List Char → List Fit
  | .char _, [] => []
  | .char c, c' :: cs => if c' = c then [⟨[c], [], cs⟩] else []
  | .run least stops, cs =>
    ((cuts stops cs).filter fun x => least ≤ x.1.length).map fun x => ⟨x.1, [], x.2⟩
  | .append p q, cs =>
    (p.fits cs).flatMap fun f =>
      (q.fits f.rest).map fun g => ⟨f.taken ++ g.taken, f.kept ++ g.kept, g.rest⟩
  | .optional p, cs => p.fits cs ++ [⟨[], [], cs⟩]
  | .keep number p, cs => (p.fits cs).map fun f => { f with kept := (number, f.taken) :: f.kept }
  | .atEnd, cs => if cs = [] then [⟨[], [], []⟩] else []

/-- The preferred way in which a pattern fits the beginning of a text. -/
def fit? (p : Pattern) (cs : List Char) : Option Fit := (p.fits cs).head?

/-- A pattern takes a text and keeps parts of it, with a rest after it. -/
def Takes : Pattern → List Char → List (Nat × List Char) → List Char → Prop
  | .char c, taken, kept, _ => taken = [c] ∧ kept = []
  | .run least stops, taken, kept, _ =>
    (least ≤ taken.length ∧ ∀ c ∈ taken, c ∉ stops) ∧ kept = []
  | .append p q, taken, kept, rest =>
    ∃ t u k l, taken = t ++ u ∧ kept = k ++ l ∧ p.Takes t k (u ++ rest) ∧ q.Takes u l rest
  | .optional p, taken, kept, rest => p.Takes taken kept rest ∨ taken = [] ∧ kept = []
  | .keep number p, taken, kept, rest => ∃ k, kept = (number, taken) :: k ∧ p.Takes taken k rest
  | .atEnd, taken, kept, rest => taken = [] ∧ kept = [] ∧ rest = []

/-! ## Laws -/

theorem Takes.append {p q : Pattern} {t u rest : List Char} {k l : List (Nat × List Char)}
    (hp : p.Takes t k (u ++ rest)) (hq : q.Takes u l rest) :
    (p ++ q).Takes (t ++ u) (k ++ l) rest :=
  ⟨t, u, k, l, rfl, rfl, hp, hq⟩

theorem Takes.keep {p : Pattern} {t rest : List Char} {k : List (Nat × List Char)}
    (number : Nat) (h : p.Takes t k rest) :
    (Pattern.keep number p).Takes t ((number, t) :: k) rest :=
  ⟨k, rfl, h⟩

theorem Takes.optional {p : Pattern} {t rest : List Char} {k : List (Nat × List Char)}
    (h : p.Takes t k rest) : (Pattern.optional p).Takes t k rest :=
  Or.inl h

theorem takes_optional_nil (p : Pattern) (rest : List Char) :
    (Pattern.optional p).Takes [] [] rest :=
  Or.inr ⟨rfl, rfl⟩

theorem takes_char (c : Char) (rest : List Char) : (char c).Takes [c] [] rest := ⟨rfl, rfl⟩

theorem takes_atEnd : atEnd.Takes [] [] [] := ⟨rfl, rfl, rfl⟩

theorem mem_cuts_iff {stops cs t r : List Char} :
    (t, r) ∈ cuts stops cs ↔ cs = t ++ r ∧ ∀ c ∈ t, c ∉ stops := by
  induction cs generalizing t with
  | nil =>
    rw [cuts, List.mem_singleton, Prod.mk.injEq, List.nil_eq_append_iff]
    constructor
    · rintro ⟨rfl, rfl⟩
      simp
    · exact fun h => h.1
  | cons c cs ih =>
    cases t with
    | nil =>
      by_cases hc : c ∈ stops
      · simp [cuts, hc, eq_comm]
      · simp [cuts, hc, eq_comm]
    | cons b t =>
      have hcuts : (b :: t, r) ∈ cuts stops (c :: cs) ↔
          c ∉ stops ∧ c = b ∧ (t, r) ∈ cuts stops cs := by
        by_cases hc : c ∈ stops
        · simp [cuts, hc]
        · rw [cuts, if_neg hc, List.mem_append, List.mem_map]
          constructor
          · rintro (⟨_, hmem, ⟨⟩⟩ | hmem)
            · exact ⟨hc, rfl, hmem⟩
            · simp at hmem
          · rintro ⟨_, rfl, hmem⟩
            exact Or.inl ⟨(t, r), hmem, rfl⟩
      rw [hcuts, ih, List.cons_append, List.cons.injEq, List.forall_mem_cons]
      constructor
      · rintro ⟨hc, rfl, hcs, ht⟩
        exact ⟨⟨rfl, hcs⟩, hc, ht⟩
      · rintro ⟨⟨rfl, hcs⟩, hc, ht⟩
        exact ⟨hc, rfl, hcs, ht⟩

/-- The fits of a pattern are the ways in which it takes what the text begins with. -/
theorem mem_fits_iff {p : Pattern} {cs : List Char} {f : Fit} :
    f ∈ p.fits cs ↔ cs = f.taken ++ f.rest ∧ p.Takes f.taken f.kept f.rest := by
  obtain ⟨taken, kept, rest⟩ := f
  induction p generalizing cs taken kept rest with
  | char c =>
    constructor
    · intro h
      cases cs with
      | nil => cases h
      | cons c' cs =>
        by_cases hc : c' = c
        · rw [fits, if_pos hc, List.mem_singleton] at h
          obtain ⟨rfl, rfl, rfl⟩ := Fit.mk.inj h
          exact ⟨congrArg (· :: rest) hc, rfl, rfl⟩
        · rw [fits, if_neg hc] at h
          cases h
    · rintro ⟨rfl, rfl, rfl⟩
      show _ ∈ fits (.char c) (c :: rest)
      rw [fits, if_pos rfl, List.mem_singleton]
  | run least stops =>
    simp only [fits, List.mem_map, List.mem_filter, decide_eq_true_eq, Prod.exists, mem_cuts_iff,
      Fit.mk.injEq, Takes]
    constructor
    · rintro ⟨t, r, ⟨⟨hcs, hstops⟩, hleast⟩, rfl, rfl, rfl⟩
      exact ⟨hcs, ⟨hleast, hstops⟩, rfl⟩
    · rintro ⟨hcs, ⟨hleast, hstops⟩, rfl⟩
      exact ⟨taken, rest, ⟨⟨hcs, hstops⟩, hleast⟩, rfl, rfl, rfl⟩
  | append p q ihp ihq =>
    simp only [fits, List.mem_flatMap, List.mem_map, Takes]
    constructor
    · rintro ⟨⟨t, k, r⟩, hp, ⟨u, l, r'⟩, hq, hf⟩
      obtain ⟨rfl, rfl, rfl⟩ := Fit.mk.inj hf
      obtain ⟨rfl, htakes⟩ := (ihp t k r).1 hp
      obtain ⟨hr, htakes'⟩ := (ihq u l r').1 hq
      subst hr
      exact ⟨(List.append_assoc t u r').symm, t, u, k, l, rfl, rfl, htakes, htakes'⟩
    · rintro ⟨rfl, t, u, k, l, rfl, rfl, htakes, htakes'⟩
      exact ⟨⟨t, k, u ++ rest⟩, (ihp t k _).2 ⟨List.append_assoc t u rest, htakes⟩, ⟨u, l, rest⟩,
        (ihq u l rest).2 ⟨rfl, htakes'⟩, rfl⟩
  | optional p ih =>
    rw [fits, List.mem_append, List.mem_singleton, ih, Fit.mk.injEq]
    constructor
    · rintro (⟨hcs, htakes⟩ | ⟨rfl, rfl, rfl⟩)
      · exact ⟨hcs, Or.inl htakes⟩
      · exact ⟨rfl, Or.inr ⟨rfl, rfl⟩⟩
    · rintro ⟨hcs, htakes | ⟨rfl, rfl⟩⟩
      · exact Or.inl ⟨hcs, htakes⟩
      · exact Or.inr ⟨rfl, rfl, hcs.symm⟩
  | keep number p ih =>
    simp only [fits, List.mem_map, Takes]
    constructor
    · rintro ⟨⟨t, k, r⟩, hp, hf⟩
      obtain ⟨rfl, rfl, rfl⟩ := Fit.mk.inj hf
      obtain ⟨hcs, htakes⟩ := (ih t k r).1 hp
      exact ⟨hcs, k, rfl, htakes⟩
    · rintro ⟨hcs, k, rfl, htakes⟩
      exact ⟨⟨taken, k, rest⟩, (ih taken k rest).2 ⟨hcs, htakes⟩, rfl⟩
  | atEnd =>
    rw [fits]
    constructor
    · intro h
      split at h
      · next hcs =>
        obtain ⟨rfl, rfl, rfl⟩ := Fit.mk.inj (List.mem_singleton.1 h)
        exact ⟨hcs, rfl, rfl, rfl⟩
      · cases h
    · rintro ⟨rfl, rfl, rfl, rfl⟩
      exact List.mem_singleton_self _

end Pattern

end Rollout.Text
