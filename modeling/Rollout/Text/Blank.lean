-- White space, in the sense of the Unicode property White_Space, and texts freed of it at both
-- ends. A text that is already trimmed stays as it is.

namespace Rollout.Text

/-- The ranges of code points with the property White_Space, ends included. -/
def blankRanges : List (Nat × Nat) :=
  [(0x9, 0xD), (0x20, 0x20), (0x85, 0x85), (0xA0, 0xA0), (0x1680, 0x1680), (0x2000, 0x200A),
    (0x2028, 0x2029), (0x202F, 0x202F), (0x205F, 0x205F), (0x3000, 0x3000)]

def isBlank (c : Char) : Bool :=
  blankRanges.any fun r => r.1 ≤ c.toNat && c.toNat ≤ r.2

/-- The text without the white space at its end. -/
def trimEnd (cs : List Char) : List Char :=
  (cs.reverse.dropWhile isBlank).reverse

/-- The text without the white space at its start and at its end. -/
def trimChars (cs : List Char) : List Char :=
  trimEnd (cs.dropWhile isBlank)

/-- The text without the white space at its start and at its end. -/
def trim (s : String) : String :=
  String.ofList (trimChars s.toList)

def isBlankText (s : String) : Bool :=
  s.toList.all isBlank

/-! ## Laws -/

theorem dropBlank_eq_nil_iff {cs : List Char} :
    cs.dropWhile isBlank = [] ↔ ∀ c ∈ cs, isBlank c := by
  induction cs with
  | nil => simp
  | cons c cs ih => by_cases h : isBlank c <;> simp [h, ih]

theorem trimEnd_eq_nil_iff {cs : List Char} : trimEnd cs = [] ↔ ∀ c ∈ cs, isBlank c := by
  rw [trimEnd, List.reverse_eq_nil_iff, dropBlank_eq_nil_iff]
  simp

theorem trimChars_eq_nil_iff {cs : List Char} : trimChars cs = [] ↔ ∀ c ∈ cs, isBlank c := by
  rw [trimChars, trimEnd_eq_nil_iff]
  induction cs with
  | nil => simp
  | cons c cs ih => by_cases h : isBlank c <;> simp [h, ih]

/-- A text is white space alone exactly when trimming leaves nothing of it. -/
theorem trim_eq_empty_iff {s : String} : trim s = "" ↔ isBlankText s := by
  rw [trim, isBlankText, List.all_eq_true, ← trimChars_eq_nil_iff]
  constructor
  · intro h
    simpa using congrArg String.toList h
  · intro h
    rw [h]

theorem trim_ne_empty_iff {s : String} : trim s ≠ "" ↔ isBlankText s = false := by
  rw [ne_eq, trim_eq_empty_iff, Bool.not_eq_true]

/-! ### Trimming twice -/

theorem dropBlank_dropBlank (cs : List Char) :
    (cs.dropWhile isBlank).dropWhile isBlank = cs.dropWhile isBlank := by
  induction cs with
  | nil => rfl
  | cons c cs ih => by_cases h : isBlank c <;> simp [h, ih]

theorem trimEnd_trimEnd (cs : List Char) : trimEnd (trimEnd cs) = trimEnd cs := by
  unfold trimEnd
  rw [List.reverse_reverse, dropBlank_dropBlank]

theorem dropBlank_append_cons {c : Char} (hc : isBlank c = false) (l r : List Char) :
    (l ++ c :: r).dropWhile isBlank = l.dropWhile isBlank ++ c :: r := by
  induction l with
  | nil => simp [hc]
  | cons a l ih =>
    by_cases ha : isBlank a
    · simp [ha, ih]
    · simp [ha]

theorem trimEnd_append_cons {c : Char} (hc : isBlank c = false) (l r : List Char) :
    trimEnd (l ++ c :: r) = l ++ c :: trimEnd r := by
  unfold trimEnd
  rw [List.reverse_append, List.reverse_cons, List.append_assoc, List.singleton_append,
    dropBlank_append_cons hc]
  simp

/-- What stands before a character that is no white space is trimmed at its start alone, and what
stands after it at its end alone. -/
theorem trimChars_append_cons {c : Char} (hc : isBlank c = false) (l r : List Char) :
    trimChars (l ++ c :: r) = l.dropWhile isBlank ++ c :: trimEnd r := by
  rw [trimChars, dropBlank_append_cons hc, trimEnd_append_cons hc]

theorem trimChars_dropBlank (cs : List Char) : trimChars (cs.dropWhile isBlank) = trimChars cs := by
  rw [trimChars, dropBlank_dropBlank, trimChars]

theorem trimChars_trimEnd (cs : List Char) : trimChars (trimEnd cs) = trimChars cs := by
  by_cases h : ∀ c ∈ cs, isBlank c
  · rw [trimEnd_eq_nil_iff.2 h, trimChars_eq_nil_iff.2 h]
    rfl
  · simp only [Classical.not_forall, Bool.not_eq_true] at h
    obtain ⟨c, hmem, hc⟩ := h
    obtain ⟨l, r, rfl⟩ := List.append_of_mem hmem
    rw [trimEnd_append_cons hc, trimChars_append_cons hc, trimChars_append_cons hc,
      trimEnd_trimEnd]

theorem trimChars_trimChars (cs : List Char) : trimChars (trimChars cs) = trimChars cs := by
  show trimChars (trimEnd (cs.dropWhile isBlank)) = trimChars cs
  rw [trimChars_trimEnd, trimChars_dropBlank]

/-! ### White space around a text -/

/-- A text is another one with white space around it. -/
def Surrounds (core cs : List Char) : Prop :=
  ∃ before after, cs = before ++ core ++ after ∧ (∀ c ∈ before, isBlank c) ∧
    ∀ c ∈ after, isBlank c

theorem surrounds_trimEnd (cs : List Char) :
    ∃ after, cs = trimEnd cs ++ after ∧ ∀ c ∈ after, isBlank c := by
  refine ⟨(cs.reverse.takeWhile isBlank).reverse, ?_, fun c hc => ?_⟩
  · rw [trimEnd, ← List.reverse_append, List.takeWhile_append_dropWhile, List.reverse_reverse]
  · exact List.all_eq_true.1 List.all_takeWhile c (List.mem_reverse.1 hc)

theorem surrounds_trimChars (cs : List Char) : Surrounds (trimChars cs) cs := by
  obtain ⟨after, hafter, hblank⟩ := surrounds_trimEnd (cs.dropWhile isBlank)
  refine ⟨cs.takeWhile isBlank, after, ?_, List.all_eq_true.1 List.all_takeWhile, hblank⟩
  rw [trimChars, List.append_assoc, ← hafter, List.takeWhile_append_dropWhile]

/-- What has no white space is left by trimming exactly what is white space around it. -/
theorem trimChars_eq_iff_surrounds {core cs : List Char} (h : ∀ c ∈ core, isBlank c = false) :
    trimChars cs = core ↔ Surrounds core cs := by
  constructor
  · rintro rfl
    exact surrounds_trimChars cs
  · rintro ⟨before, after, rfl, hbefore, hafter⟩
    cases core with
    | nil =>
      rw [trimChars_eq_nil_iff, List.append_nil, List.forall_mem_append]
      exact ⟨hbefore, hafter⟩
    | cons c core =>
      rw [List.forall_mem_cons] at h
      have hend : trimEnd (core ++ after) = core := by
        rcases List.eq_nil_or_concat core with rfl | ⟨front, last, rfl⟩
        · exact trimEnd_eq_nil_iff.2 hafter
        · have hlast : isBlank last = false := h.2 last (by simp)
          rw [List.concat_eq_append, List.append_assoc, List.singleton_append,
            trimEnd_append_cons hlast, trimEnd_eq_nil_iff.2 hafter]
      rw [List.append_assoc, List.cons_append, trimChars_append_cons h.1,
        dropBlank_eq_nil_iff.2 hbefore, hend, List.nil_append]

theorem mem_of_mem_trimEnd {c : Char} {cs : List Char} (h : c ∈ trimEnd cs) : c ∈ cs := by
  rw [trimEnd, List.mem_reverse] at h
  exact List.mem_reverse.1 ((List.dropWhile_sublist _).mem h)

/-- Trimming adds nothing. -/
theorem mem_of_mem_trimChars {c : Char} {cs : List Char} (h : c ∈ trimChars cs) : c ∈ cs :=
  (List.dropWhile_sublist _).mem (mem_of_mem_trimEnd h)

@[simp] theorem toList_trim (s : String) : (trim s).toList = trimChars s.toList := by
  rw [trim, String.toList_ofList]

theorem trim_trim (s : String) : trim (trim s) = trim s := by
  rw [trim, toList_trim, trimChars_trimChars, trim]

end Rollout.Text
