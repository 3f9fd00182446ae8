-- The value that a text begins with. A text is read only as far as that value goes, so whatever
-- follows an array, an object or a string makes no difference to it.
import Rollout.Json.Text

namespace Rollout.Json

/-- Reads on in the middle of a text, up to the character that completes its first value. -/
def leadingFrom (mode : Mode) (place : Place) : List Char → Option Json
  | [] => none
  | c :: cs => do
    let s ← Scanner.step ⟨[], mode⟩ c
    let next ← s.tokens.reverse.foldlM Place.step place
    match next.finish with
    | some v => some v
    | none => leadingFrom s.mode next cs

/-- The array, object or string that a text begins with. A number or a constant is found only if
something ends it that can stand between tokens. -/
def leading? (text : String) : Option Json :=
  leadingFrom .between (.value []) text.toList

/-- Tells whether the last character of a value ends it, whatever follows. -/
def isDelimited : Json → Bool
  | .string _ => true
  | .array _ => true
  | .object _ => true
  | _ => false

/-! ## The scanner from the middle of a text -/

/-- The tokens of the rest of a text. -/
def scanFrom (mode : Mode) (cs : List Char) : Option (List Token) :=
  cs.foldlM Scanner.step ⟨[], mode⟩ >>= Scanner.finish

theorem start_tokens (ts : List Token) (c : Char) :
    Scanner.start ts c =
      (Scanner.start [] c).map fun s => ⟨s.tokens ++ ts, s.mode⟩ := by
  unfold Scanner.start
  split
  · rfl
  · split
    · rfl
    · split
      · rfl
      · cases Token.ofPunctuation? c <;> rfl

/-- What a scanner has read already has no part in what it does next. -/
theorem step_tokens (ts : List Token) (mode : Mode) (c : Char) :
    Scanner.step ⟨ts, mode⟩ c =
      (Scanner.step ⟨[], mode⟩ c).map fun s => ⟨s.tokens ++ ts, s.mode⟩ := by
  cases mode with
  | between => exact start_tokens ts c
  | word read =>
    simp only [Scanner.step]
    split
    · rfl
    · cases Token.ofWord? read.reverse with
      | none => rfl
      | some t =>
        show Scanner.start (t :: ts) c = (Scanner.start [t] c).map _
        rw [start_tokens (t :: ts), start_tokens [t], Option.map_map]
        simp [Function.comp_def]
  | quoted read =>
    simp only [Scanner.step]
    split
    · rfl
    · split
      · rfl
      · split <;> rfl
  | escaped read =>
    simp only [Scanner.step]
    split
    · rfl
    · cases unescape? c <;> rfl
  | coded read value missing =>
    simp only [Scanner.step]
    cases hexValue? c with
    | none => rfl
    | some digit =>
      simp only [Option.bind_eq_bind, Option.bind_some]
      split <;> rfl

theorem finish_tokens (ts : List Token) (mode : Mode) :
    Scanner.finish ⟨ts, mode⟩ = (Scanner.finish ⟨[], mode⟩).map (ts.reverse ++ ·) := by
  cases mode with
  | between => simp [Scanner.finish]
  | word read => cases h : Token.ofWord? read.reverse <;> simp [Scanner.finish, h]
  | quoted read => rfl
  | escaped read => rfl
  | coded read value missing => rfl

theorem foldlM_finish_tokens (ts : List Token) (mode : Mode) (cs : List Char) :
    (cs.foldlM Scanner.step ⟨ts, mode⟩ >>= Scanner.finish) =
      (scanFrom mode cs).map (ts.reverse ++ ·) := by
  induction cs generalizing ts mode with
  | nil => exact finish_tokens ts mode
  | cons c cs ih =>
    rw [scanFrom, List.foldlM_cons, List.foldlM_cons, step_tokens]
    cases Scanner.step ⟨[], mode⟩ c with
    | none => rfl
    | some s =>
      have h1 := ih (s.tokens ++ ts) s.mode
      have h2 := ih s.tokens s.mode
      show (cs.foldlM Scanner.step ⟨s.tokens ++ ts, s.mode⟩ >>= Scanner.finish) =
        (cs.foldlM Scanner.step ⟨s.tokens, s.mode⟩ >>= Scanner.finish).map (ts.reverse ++ ·)
      rw [h1, h2, Option.map_map]
      congr 1
      funext us
      simp

/-- The tokens of a rest are those that its first character completes and those of what is left
after it. -/
theorem scanFrom_cons_eq_some {mode : Mode} {c : Char} {cs : List Char} {ts : List Token}
    (h : scanFrom mode (c :: cs) = some ts) :
    ∃ s us, Scanner.step ⟨[], mode⟩ c = some s ∧ scanFrom s.mode cs = some us ∧
      ts = s.tokens.reverse ++ us := by
  rw [scanFrom, List.foldlM_cons] at h
  cases hs : Scanner.step ⟨[], mode⟩ c with
  | none => simp [hs] at h
  | some s =>
    rw [hs] at h
    have h' : (cs.foldlM Scanner.step ⟨s.tokens, s.mode⟩ >>= Scanner.finish) = some ts := h
    rw [foldlM_finish_tokens] at h'
    obtain ⟨us, hus, rfl⟩ := Option.map_eq_some_iff.1 h'
    exact ⟨s, us, rfl, hus, rfl⟩

/-! ## Complete values -/

/-- No token can follow a complete value. -/
theorem eq_nil_of_foldlM_finished {p q : Place} {v : Json} {ts : List Token}
    (hp : p.finish = some v) (h : ts.foldlM Place.step p = some q) : ts = [] := by
  cases ts with
  | nil => rfl
  | cons t ts =>
    have hstep : p.step t = none := by
      unfold Place.finish at hp
      split at hp
      · rfl
      · cases hp
    simp [hstep] at h

/-- A word is the name of a constant or a number. -/
theorem cases_of_ofWord? {word : List Char} {t : Token} (h : Token.ofWord? word = some t) :
    t = .null ∨ (∃ b, t = .bool b) ∨ ∃ m e, t = .number m e := by
  unfold Token.ofWord? at h
  split at h
  · simp_all
  · split at h
    · simp_all
    · split at h
      · simp_all
      · obtain ⟨n, _, rfl⟩ := Option.map_eq_some_iff.1 h
        simp

/-- A word completes no array, no object and no string. -/
theorem isDelimited_of_word {word : List Char} {t : Token} {p q : Place} {v : Json}
    (ht : Token.ofWord? word = some t) (hstep : p.step t = some q) (hq : q.finish = some v) :
    v.isDelimited = false := by
  have hdone : ∃ w around, q = .done w around ∧ w.isDelimited = false := by
    rcases cases_of_ofWord? ht with rfl | ⟨b, rfl⟩ | ⟨m, e, rfl⟩ <;>
    cases p with
    | value around =>
      cases hstep
      exact ⟨_, _, rfl, rfl⟩
    | arrayStart around =>
      cases hstep
      exact ⟨_, _, rfl, rfl⟩
    | done w around =>
      rcases around with _ | ⟨⟨before⟩ | ⟨before, name⟩, around⟩ <;> cases hstep
    | _ => cases hstep
  obtain ⟨w, around, rfl, hw⟩ := hdone
  cases around with
  | nil =>
    cases hq
    exact hw
  | cons frame around => cases hq

/-- A value that ends itself is found before what follows is looked at. -/
theorem leadingFrom_append {cs : List Char} {mode : Mode} {p q : Place} {ts : List Token} {v : Json}
    (hopen : p.finish = none) (hscan : scanFrom mode cs = some ts)
    (hread : ts.foldlM Place.step p = some q) (hq : q.finish = some v)
    (hv : v.isDelimited = true) (rest : List Char) :
    leadingFrom mode p (cs ++ rest) = some v := by
  induction cs generalizing mode p ts with
  | nil =>
    exfalso
    have hfin : Scanner.finish ⟨[], mode⟩ = some ts := hscan
    unfold Scanner.finish at hfin
    split at hfin
    · cases hfin
      cases hread
      rw [hopen] at hq
      cases hq
    · obtain ⟨t, ht, rfl⟩ := Option.map_eq_some_iff.1 hfin
      have hstep : p.step t = some q := by simpa using hread
      rw [isDelimited_of_word ht hstep hq] at hv
      cases hv
    · cases hfin
  | cons c cs ih =>
    obtain ⟨s, us, hs, hus, rfl⟩ := scanFrom_cons_eq_some hscan
    rw [List.foldlM_append] at hread
    cases hnext : s.tokens.reverse.foldlM Place.step p with
    | none => simp [hnext] at hread
    | some next =>
      have hrest : us.foldlM Place.step next = some q := by simpa [hnext] using hread
      rw [List.cons_append, leadingFrom, hs]
      simp only [Option.bind_eq_bind, Option.bind_some, hnext]
      cases hdone : next.finish with
      | some w =>
        cases eq_nil_of_foldlM_finished hdone hrest
        cases hrest
        rw [← hdone, hq]
      | none => exact ih hdone hus hrest

/-- Whatever follows an array, an object or a string, a text that begins with it has it as its
leading value. -/
theorem leading?_append {text : String} {v : Json} (h : parse? text = some v)
    (hv : v.isDelimited = true) (rest : String) : leading? (text ++ rest) = some v := by
  obtain ⟨ts, hscan, hts⟩ := Option.bind_eq_some_iff.1 h
  obtain ⟨q, hread, hq⟩ := Option.bind_eq_some_iff.1 hts
  rw [leading?, String.toList_append]
  exact leadingFrom_append rfl hscan hread hq hv rest.toList

theorem eq_of_leadingFrom {cs : List Char} {mode : Mode} {p q : Place} {ts : List Token}
    {v w : Json} (hscan : scanFrom mode cs = some ts) (hread : ts.foldlM Place.step p = some q)
    (hq : q.finish = some v) (h : leadingFrom mode p cs = some w) : w = v := by
  induction cs generalizing mode p ts with
  | nil => cases h
  | cons c cs ih =>
    obtain ⟨s, us, hs, hus, rfl⟩ := scanFrom_cons_eq_some hscan
    rw [List.foldlM_append] at hread
    cases hnext : s.tokens.reverse.foldlM Place.step p with
    | none => simp [hnext] at hread
    | some next =>
      have hrest : us.foldlM Place.step next = some q := by simpa [hnext] using hread
      rw [leadingFrom, hs] at h
      simp only [Option.bind_eq_bind, Option.bind_some, hnext] at h
      cases hdone : next.finish with
      | some u =>
        cases eq_nil_of_foldlM_finished hdone hrest
        cases hrest
        rw [hdone] at h hq
        cases h
        cases hq
        rfl
      | none =>
        rw [hdone] at h
        exact ih hus hrest h

/-- A text that is a value as a whole begins with no other. -/
theorem eq_of_leading? {text : String} {v w : Json} (h : parse? text = some v)
    (hleading : leading? text = some w) : w = v := by
  obtain ⟨ts, hscan, hts⟩ := Option.bind_eq_some_iff.1 h
  obtain ⟨q, hread, hq⟩ := Option.bind_eq_some_iff.1 hts
  exact eq_of_leadingFrom hscan hread hq hleading

end Rollout.Json
