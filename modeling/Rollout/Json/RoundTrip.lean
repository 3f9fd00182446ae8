-- Writing JSON and reading it again. Every token that is written is read back, whatever follows
-- it in the text of a value, so the text of a value writes that value.
import Mathlib.Tactic.IntervalCases
import Rollout.Json.Text

namespace Rollout.Json

open Rollout.Text

/-! ## Strings -/

/-- The escape of a character is read as that character. -/
theorem foldlM_escape (ts : List Token) (read : List Nat) (c : Char) :
    (escape c).foldlM Scanner.step ⟨ts, .quoted read⟩ = some ⟨ts, .quoted (c.toNat :: read)⟩ := by
  by_cases hquote : c = '"'
  · subst hquote; rfl
  by_cases hslash : c = '\\'
  · subst hslash; rfl
  by_cases hcontrol : c.toNat < 0x20
  · obtain ⟨n, hn⟩ : ∃ n, c.toNat = n := ⟨_, rfl⟩
    have hc : c = Char.ofNat n := by rw [← hn, Char.ofNat_toNat]
    subst hc
    rw [hn] at hcontrol ⊢
    clear hquote hslash hn
    interval_cases n <;> rfl
  · have hstep : Scanner.step ⟨ts, .quoted read⟩ c = some ⟨ts, .quoted (c.toNat :: read)⟩ := by
      simp only [Scanner.step]
      rw [if_neg hquote, if_neg hslash, if_neg hcontrol]
    have hescape : escape c = [c] := by
      unfold escape
      rw [if_neg hquote, if_neg hslash, if_neg hcontrol]
    rw [hescape, List.foldlM_cons, hstep]
    rfl

theorem foldlM_flatMap_escape (ts : List Token) (read : List Nat) (cs : List Char) :
    (cs.flatMap escape).foldlM Scanner.step ⟨ts, .quoted read⟩ =
      some ⟨ts, .quoted ((cs.map Char.toNat).reverse ++ read)⟩ := by
  induction cs generalizing read with
  | nil => rfl
  | cons c cs ih =>
    rw [List.flatMap_cons, List.foldlM_append, foldlM_escape]
    simpa using ih (c.toNat :: read)

theorem isLead_toNat (c : Char) : isLead c.toNat = false := by
  have h : c.toNat < 0xD800 ∨ 0xDFFF < c.toNat ∧ c.toNat < 0x110000 := c.valid
  unfold isLead
  rw [Bool.and_eq_false_iff, decide_eq_false_iff_not, decide_eq_false_iff_not]
  omega

theorem isTrail_toNat (c : Char) : isTrail c.toNat = false := by
  have h : c.toNat < 0xD800 ∨ 0xDFFF < c.toNat ∧ c.toNat < 0x110000 := c.valid
  unfold isTrail
  rw [Bool.and_eq_false_iff, decide_eq_false_iff_not, decide_eq_false_iff_not]
  omega

/-- Characters are no halves of surrogate pairs. -/
theorem pairUp_map_toNat (cs : List Char) : pairUp (cs.map Char.toNat) = some cs := by
  induction cs with
  | nil => rfl
  | cons c cs ih =>
    cases cs with
    | nil => simp [pairUp, isLead_toNat, isTrail_toNat]
    | cons d cs =>
      simp only [List.map_cons] at ih ⊢
      simp [pairUp, isLead_toNat, isTrail_toNat, ih]

/-- A string literal is read back. -/
theorem foldlM_literal (ts : List Token) (t : Literal) :
    (Literal.chars t).foldlM Scanner.step ⟨ts, .between⟩ = some ⟨.string t :: ts, .between⟩ := by
  cases t with
  | none => rfl
  | some s =>
    show ((s.toList.flatMap escape) ++ ['"']).foldlM Scanner.step ⟨ts, .quoted []⟩ = _
    rw [List.foldlM_append, foldlM_flatMap_escape]
    simp only [List.append_nil, Option.bind_eq_bind, Option.bind_some]
    show some (Scanner.mk (.string (Literal.ofUnits ((s.toList.map Char.toNat).reverse.reverse)) ::
      ts) .between) = _
    rw [List.reverse_reverse, Literal.ofUnits, pairUp_map_toNat]
    simp

/-! ## Numbers -/

theorem head?_decimal_ne_zero {n : Nat} (h : n ≠ 0) : (decimal n).head? ≠ some '0' := by
  induction n using Nat.strongRecOn with
  | ind n ih =>
    by_cases hn : n < 10
    · interval_cases n <;> first | exact absurd rfl h | decide
    · rw [decimal, Nat.toDigits_of_base_le (by decide) (by omega)]
      have hne : Nat.toDigits 10 (n / 10) ≠ [] := decimal_ne_nil (n / 10)
      have hhead := ih (n / 10) (by omega) (by omega)
      rw [decimal] at hhead
      cases hd : Nat.toDigits 10 (n / 10) with
      | nil => exact absurd hd hne
      | cons d ds =>
        rw [hd] at hhead
        simpa using hhead

theorem isWholePart_decimal (n : Nat) : isWholePart (decimal n) := by
  by_cases h : n = 0
  · subst h; rfl
  · simp [isWholePart, isNumeral_decimal, head?_decimal_ne_zero h]

theorem takeWhile_decimal_append (n : Nat) {tail : List Char}
    (h : ∀ c ∈ tail.head?, c.isDigit = false) :
    (decimal n ++ tail).takeWhile Char.isDigit = decimal n ∧
      (decimal n ++ tail).dropWhile Char.isDigit = tail := by
  have hall : ∀ c ∈ decimal n, c.isDigit := fun c hc => isDigit_of_mem_decimal hc
  rw [List.takeWhile_append_of_pos hall, List.dropWhile_append_of_pos hall]
  cases tail with
  | nil => simp
  | cons c tail =>
    have hc := h c rfl
    simp [hc]

/-- How the exponent of a number is written. -/
def exponentChars (e : Int) : List Char := if e = 0 then [] else 'e' :: signed e

theorem ne_sign_of_decimal {n : Nat} {d : Char} {ds : List Char} (h : decimal n = d :: ds) :
    d ≠ '+' ∧ d ≠ '-' := by
  have hd : d.isDigit := isDigit_of_mem_decimal (n := n) (by rw [h]; exact List.mem_cons_self)
  constructor <;> rintro rfl <;> revert hd <;> decide

theorem splitSign_decimal (n : Nat) : splitSign (decimal n) = (false, decimal n) := by
  cases hd : decimal n with
  | nil => exact absurd hd (decimal_ne_nil n)
  | cons d ds =>
    obtain ⟨hplus, hminus⟩ := ne_sign_of_decimal hd
    unfold splitSign
    split
    · next heq => exact absurd (List.cons.inj heq).1 hplus
    · next heq => exact absurd (List.cons.inj heq).1 hminus
    · rfl

theorem splitMinus_decimal_append (n : Nat) (tail : List Char) :
    splitMinus (decimal n ++ tail) = (false, decimal n ++ tail) := by
  cases hd : decimal n with
  | nil => exact absurd hd (decimal_ne_nil n)
  | cons d ds =>
    obtain ⟨_, hminus⟩ := ne_sign_of_decimal hd
    unfold splitMinus
    split
    · next heq => exact absurd (List.cons.inj heq).1 hminus
    · rfl

theorem integer?_decimal (negative : Bool) (n : Nat) :
    integer? negative (decimal n) = some (if negative then -(n : Int) else n) := by
  rw [integer?, if_pos (isNumeral_decimal n), numeralValue_decimal]

theorem integer?_signed (i : Int) :
    integer? (splitSign (signed i)).1 (splitSign (signed i)).2 = some i := by
  cases i with
  | ofNat n =>
    rw [signed, splitSign_decimal, integer?_decimal]
    rfl
  | negSucc n =>
    show integer? true (decimal (n + 1)) = _
    rw [integer?_decimal]
    rfl

theorem exponent?_exponentChars (e : Int) : exponent? (exponentChars e) = some e := by
  unfold exponentChars
  split
  · next h => rw [h]; rfl
  · exact integer?_signed e

theorem numberChars_eq (m e : Int) : numberChars m e = signed m ++ exponentChars e := by
  unfold numberChars exponentChars
  split <;> simp

theorem head?_exponentChars (e : Int) : ∀ c ∈ (exponentChars e).head?, c.isDigit = false := by
  intro c hc
  unfold exponentChars at hc
  split at hc
  · simp at hc
  · simp only [List.head?_cons, Option.mem_def, Option.some.injEq] at hc
    subst hc
    decide

theorem fraction?_exponentChars (e : Int) :
    fraction? (exponentChars e) = some ([], exponentChars e) := by
  unfold exponentChars
  split <;> rfl

/-- The text of a number is read as that number. -/
theorem number?_numberChars (m e : Int) : number? (numberChars m e) = some (m, e) := by
  have hread : ∀ (negative : Bool) (n : Nat) (word : List Char),
      splitMinus word = (negative, decimal n ++ exponentChars e) →
      number? word = some (if negative then -(n : Int) else n, e) := by
    intro negative n word hword
    obtain ⟨htake, hdrop⟩ := takeWhile_decimal_append n (head?_exponentChars e)
    unfold number?
    rw [hword]
    simp [htake, hdrop, isWholePart_decimal, fraction?_exponentChars, exponent?_exponentChars]
  rw [numberChars_eq]
  cases m with
  | ofNat n => exact hread false n _ (splitMinus_decimal_append n _)
  | negSucc n => exact hread true (n + 1) _ rfl

/-! ## Words -/

theorem isWordChar_of_isDigit {c : Char} (h : c.isDigit) : isWordChar c := by
  simp [isWordChar, Char.isAlphanum, h]

theorem isWordChar_of_mem_signed {i : Int} {c : Char} (h : c ∈ signed i) : isWordChar c := by
  cases i with
  | ofNat n => exact isWordChar_of_isDigit (isDigit_of_mem_decimal h)
  | negSucc n =>
    rcases List.mem_cons.1 h with rfl | h
    · decide
    · exact isWordChar_of_isDigit (isDigit_of_mem_decimal h)

theorem isWordChar_of_mem_numberChars {m e : Int} {c : Char} (h : c ∈ numberChars m e) :
    isWordChar c := by
  unfold numberChars at h
  split at h
  · exact isWordChar_of_mem_signed h
  · rcases List.mem_append.1 h with h | h
    · exact isWordChar_of_mem_signed h
    · rcases List.mem_cons.1 h with rfl | h
      · decide
      · exact isWordChar_of_mem_signed h

/-- The text of a number is no name of a constant. -/
theorem ofWord?_numberChars (m e : Int) :
    Token.ofWord? (numberChars m e) = some (.number m e) := by
  have hread := number?_numberChars m e
  have hname : ∀ name : List Char, number? name = none → numberChars m e ≠ name := by
    intro name hnone heq
    rw [heq, hnone] at hread
    cases hread
  unfold Token.ofWord?
  rw [if_neg (hname _ rfl), if_neg (hname _ rfl), if_neg (hname _ rfl), hread]
  rfl

theorem numberChars_ne_nil (m e : Int) : numberChars m e ≠ [] := by
  intro h
  have hread := number?_numberChars m e
  rw [h] at hread
  cases hread

theorem start_word (ts : List Token) {c : Char} (h : isWordChar c) :
    Scanner.start ts c = some ⟨ts, .word [c]⟩ := by
  have hblank : ¬(c = ' ' ∨ c = '\t' ∨ c = '\n' ∨ c = '\r') := by
    rintro (rfl | rfl | rfl | rfl) <;> revert h <;> decide
  have hquote : c ≠ '"' := by rintro rfl; revert h; decide
  rw [Scanner.start, if_neg hblank, if_neg hquote, if_pos h]

theorem foldlM_word_more (ts : List Token) (read word : List Char)
    (h : ∀ c ∈ word, isWordChar c) :
    word.foldlM Scanner.step ⟨ts, .word read⟩ = some ⟨ts, .word (word.reverse ++ read)⟩ := by
  induction word generalizing read with
  | nil => rfl
  | cons c word ih =>
    have hstep : Scanner.step ⟨ts, .word read⟩ c = some ⟨ts, .word (c :: read)⟩ := by
      simp [Scanner.step, h c List.mem_cons_self]
    rw [List.foldlM_cons, hstep]
    simpa using ih (c :: read) fun d hd => h d (List.mem_cons_of_mem c hd)

theorem foldlM_word (ts : List Token) {word : List Char} (hne : word ≠ [])
    (h : ∀ c ∈ word, isWordChar c) :
    word.foldlM Scanner.step ⟨ts, .between⟩ = some ⟨ts, .word word.reverse⟩ := by
  cases word with
  | nil => exact absurd rfl hne
  | cons c word =>
    rw [List.foldlM_cons]
    show (Scanner.start ts c >>= _) = _
    rw [start_word ts (h c List.mem_cons_self)]
    simpa using foldlM_word_more ts [c] word fun d hd => h d (List.mem_cons_of_mem c hd)

/-! ## Tokens of a value -/

/-- Tokens are read, but for the end of the last one if that is a word. -/
def Settled (ts : List Token) (s : Scanner) : Prop :=
  s = ⟨ts, .between⟩ ∨
    ∃ read t rest, s = ⟨rest, .word read⟩ ∧ Token.ofWord? read.reverse = some t ∧ ts = t :: rest

theorem settled_between (ts : List Token) : Settled ts ⟨ts, .between⟩ := Or.inl rfl

theorem settled_word {ts : List Token} {word : List Char} {t : Token}
    (h : Token.ofWord? word = some t) : Settled (t :: ts) ⟨ts, .word word.reverse⟩ :=
  Or.inr ⟨_, t, ts, rfl, by rwa [List.reverse_reverse], rfl⟩

/-- At its end a text whose tokens are read has these tokens. -/
theorem finish_of_settled {ts : List Token} {s : Scanner} (h : Settled ts s) :
    s.finish = some ts.reverse := by
  rcases h with rfl | ⟨read, t, rest, rfl, hword, rfl⟩
  · rfl
  · simp [Scanner.finish, hword]

/-- A character that is a token by itself ends a word before it. -/
theorem step_punctuation {ts : List Token} {s : Scanner} (h : Settled ts s) {c : Char} {t : Token}
    (hc : Token.ofPunctuation? c = some t) : s.step c = some ⟨t :: ts, .between⟩ := by
  have hplain : isWordChar c = false ∧ ¬(c = ' ' ∨ c = '\t' ∨ c = '\n' ∨ c = '\r') ∧ c ≠ '"' := by
    unfold Token.ofPunctuation? at hc
    split at hc <;> first | decide | cases hc
  obtain ⟨hword, hblank, hquote⟩ := hplain
  have hstart : ∀ ts, Scanner.start ts c = some ⟨t :: ts, .between⟩ := by
    intro ts
    simp [Scanner.start, hblank, hquote, hword, hc]
  rcases h with rfl | ⟨read, u, rest, rfl, hread, rfl⟩
  · exact hstart ts
  · simp [Scanner.step, hword, hread, hstart]

/-- The text of a token that is a word. -/
theorem foldlM_wordToken (ts : List Token) {word : List Char} {t : Token} (hne : word ≠ [])
    (h : ∀ c ∈ word, isWordChar c) (ht : Token.ofWord? word = some t) :
    ∃ s, word.foldlM Scanner.step ⟨ts, .between⟩ = some s ∧ Settled (t :: ts) s :=
  ⟨_, foldlM_word ts hne h, settled_word ht⟩

mutual

/-- The text of a value is read as its tokens. -/
theorem foldlM_chars (ts : List Token) : ∀ v : Json,
    ∃ s, (chars v).foldlM Scanner.step ⟨ts, .between⟩ = some s ∧
      Settled ((tokens v).reverse ++ ts) s
  | .null => foldlM_wordToken ts (List.cons_ne_nil _ _) (List.all_eq_true.1 rfl) rfl
  | .bool true => foldlM_wordToken ts (List.cons_ne_nil _ _) (List.all_eq_true.1 rfl) rfl
  | .bool false => foldlM_wordToken ts (List.cons_ne_nil _ _) (List.all_eq_true.1 rfl) rfl
  | .number m e => by
    have hchars : chars (.number m e) = numberChars m e := by simp [chars, tokens, Token.chars]
    rw [hchars]
    exact foldlM_wordToken ts (numberChars_ne_nil m e)
      (fun c hc => isWordChar_of_mem_numberChars hc) (ofWord?_numberChars m e)
  | .string t => by
    have hchars : chars (.string t) = Literal.chars t := by simp [chars, tokens, Token.chars]
    rw [hchars]
    exact ⟨_, foldlM_literal ts t, settled_between _⟩
  | .array [] => ⟨_, rfl, settled_between _⟩
  | .array (v :: rest) => by
    obtain ⟨s, hs, hsettled⟩ := foldlM_chars (.beginArray :: ts) v
    have hchars : chars (.array (v :: rest)) =
        '[' :: (chars v ++ (laterElementTokens rest).flatMap Token.chars) := by
      simp [chars, tokens, elementTokens, Token.chars]
    rw [hchars, List.foldlM_cons]
    refine ⟨_, ?_, settled_between _⟩
    show List.foldlM Scanner.step ⟨.beginArray :: ts, .between⟩ _ = _
    rw [List.foldlM_append, hs]
    simpa [tokens, elementTokens] using foldlM_laterElements hsettled rest
  | .object [] => ⟨_, rfl, settled_between _⟩
  | .object ((n, v) :: rest) => by
    obtain ⟨s, hs, hsettled⟩ := foldlM_chars (.colon :: .string n :: .beginObject :: ts) v
    have hchars : chars (.object ((n, v) :: rest)) =
        '\x7b' :: (Literal.chars n ++ ':' :: (chars v ++
          (laterMemberTokens rest).flatMap Token.chars)) := by
      simp [chars, tokens, memberTokens, Token.chars]
    rw [hchars, List.foldlM_cons]
    refine ⟨_, ?_, settled_between _⟩
    show List.foldlM Scanner.step ⟨.beginObject :: ts, .between⟩ _ = _
    rw [List.foldlM_append, foldlM_literal]
    show List.foldlM Scanner.step ⟨.colon :: .string n :: .beginObject :: ts, .between⟩ _ = _
    rw [List.foldlM_append, hs]
    simpa [tokens, memberTokens] using foldlM_laterMembers hsettled rest

/-- The text of further elements is read as their tokens. -/
theorem foldlM_laterElements {ts : List Token} {s : Scanner} (h : Settled ts s) :
    ∀ rest : List Json, ((laterElementTokens rest).flatMap Token.chars).foldlM Scanner.step s =
      some ⟨(laterElementTokens rest).reverse ++ ts, .between⟩
  | [] => by
    have hstep := step_punctuation h (c := ']') rfl
    simp [laterElementTokens, Token.chars, hstep]
  | v :: rest => by
    have hstep := step_punctuation h (c := ',') rfl
    obtain ⟨s', hs, hsettled⟩ := foldlM_chars (.comma :: ts) v
    have hchars : (laterElementTokens (v :: rest)).flatMap Token.chars =
        ',' :: (chars v ++ (laterElementTokens rest).flatMap Token.chars) := by
      simp [chars, laterElementTokens, Token.chars]
    rw [hchars, List.foldlM_cons, hstep]
    show List.foldlM Scanner.step ⟨.comma :: ts, .between⟩ _ = _
    rw [List.foldlM_append, hs]
    simpa [laterElementTokens] using foldlM_laterElements hsettled rest

/-- The text of further members is read as their tokens. -/
theorem foldlM_laterMembers {ts : List Token} {s : Scanner} (h : Settled ts s) :
    ∀ rest : List (Literal × Json),
      ((laterMemberTokens rest).flatMap Token.chars).foldlM Scanner.step s =
        some ⟨(laterMemberTokens rest).reverse ++ ts, .between⟩
  | [] => by
    have hstep := step_punctuation h (c := '\x7d') rfl
    simp [laterMemberTokens, Token.chars, hstep]
  | (n, v) :: rest => by
    have hstep := step_punctuation h (c := ',') rfl
    obtain ⟨s', hs, hsettled⟩ := foldlM_chars (.colon :: .string n :: .comma :: ts) v
    have hchars : (laterMemberTokens ((n, v) :: rest)).flatMap Token.chars =
        ',' :: (Literal.chars n ++ ':' :: (chars v ++
          (laterMemberTokens rest).flatMap Token.chars)) := by
      simp [chars, laterMemberTokens, Token.chars]
    rw [hchars, List.foldlM_cons, hstep]
    show List.foldlM Scanner.step ⟨.comma :: ts, .between⟩ _ = _
    rw [List.foldlM_append, foldlM_literal]
    show List.foldlM Scanner.step ⟨.colon :: .string n :: .comma :: ts, .between⟩ _ = _
    rw [List.foldlM_append, hs]
    simpa [laterMemberTokens] using foldlM_laterMembers hsettled rest

end

/-- The text of a value has the tokens of that value. -/
theorem scan?_chars (v : Json) : scan? (chars v) = some (tokens v) := by
  obtain ⟨s, hs, hsettled⟩ := foldlM_chars [] v
  show ((chars v).foldlM Scanner.step ⟨[], .between⟩ >>= Scanner.finish) = _
  rw [hs]
  simpa using finish_of_settled hsettled

/-- The text of a value writes that value. -/
@[simp] theorem parse?_render (v : Json) : parse? (render v) = some v := by
  rw [parse?, render, String.toList_ofList, scan?_chars]
  exact ofTokens?_tokens v

end Rollout.Json
