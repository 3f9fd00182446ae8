-- Which texts are read as instance counts, and as which. A count is written in decimal digits, with
-- a plus sign or not and with any white space around it, and it must be from one to the limit. So
-- is every number of partitions that propagation writes, and it is read back as the same number.
import Mathlib.Data.List.Induction
import Mathlib.Tactic.IntervalCases
import Rollout.Proofs.FirstFault

namespace Rollout

/-! ## Rows of digits -/

namespace Text

/-- A character is the digit of a number. -/
def IsDigitOf (d : Char) (k : Nat) : Prop := "0123456789".toList[k]? = some d

/-- A row of digits stands for a number: a digit for its own, and a row with one digit more for ten
times as much and the number of that digit. -/
inductive StandsFor : List Char → Nat → Prop
  | digit {d : Char} {k : Nat} : IsDigitOf d k → StandsFor [d] k
  | more {ds : List Char} {n : Nat} {d : Char} {k : Nat} :
      StandsFor ds n → IsDigitOf d k → StandsFor (ds ++ [d]) (10 * n + k)

theorem toNat_of_isDigit {c : Char} (h : c.isDigit) : 48 ≤ c.toNat ∧ c.toNat ≤ 57 :=
  Char.isDigit_iff_toNat.1 h

theorem isDigitOf_iff {d : Char} {k : Nat} :
    IsDigitOf d k ↔ d.isDigit ∧ d.toNat - '0'.toNat = k := by
  unfold IsDigitOf
  constructor
  · intro h
    have hk : k < 10 := (List.getElem?_eq_some_iff.1 h).1
    interval_cases k <;> cases h <;> decide
  · rintro ⟨hd, rfl⟩
    obtain ⟨hlow, hhigh⟩ := toNat_of_isDigit hd
    rw [← Char.ofNat_toNat d]
    generalize d.toNat = n at hlow hhigh
    interval_cases n <;> decide

theorem isNumeral_iff {ds : List Char} : isNumeral ds ↔ ds ≠ [] ∧ ∀ d ∈ ds, d.isDigit := by
  simp [isNumeral]

theorem numeralValue_concat (ds : List Char) (d : Char) :
    numeralValue (ds ++ [d]) = 10 * numeralValue ds + (d.toNat - '0'.toNat) := by
  simp only [numeralValue, Nat.ofDigitChars_append, Nat.ofDigitChars_cons, Nat.ofDigitChars_nil]

/-- The value of a numeral, read from its front, is the number it stands for. -/
theorem standsFor_numeralValue {ds : List Char} (h : isNumeral ds) :
    StandsFor ds (numeralValue ds) := by
  obtain ⟨hne, hdigits⟩ := isNumeral_iff.1 h
  clear h
  induction ds using List.reverseRecOn with
  | nil => exact absurd rfl hne
  | append_singleton ds d ih =>
    have hd : IsDigitOf d (d.toNat - '0'.toNat) := isDigitOf_iff.2 ⟨hdigits d (by simp), rfl⟩
    rw [numeralValue_concat]
    rcases List.eq_nil_or_concat ds with rfl | ⟨front, last, rfl⟩
    · simpa [numeralValue] using StandsFor.digit hd
    · exact .more (ih (by simp) fun c hc => hdigits c (List.mem_append_left _ hc)) hd

theorem standsFor_iff {ds : List Char} {n : Nat} :
    StandsFor ds n ↔ isNumeral ds ∧ numeralValue ds = n := by
  constructor
  · intro h
    rw [isNumeral_iff]
    induction h with
    | digit hd =>
      obtain ⟨hdigit, rfl⟩ := isDigitOf_iff.1 hd
      exact ⟨by simpa using hdigit, by simp [numeralValue, Nat.ofDigitChars_cons]⟩
    | more _ hd ih =>
      obtain ⟨⟨_, hdigits⟩, rfl⟩ := ih
      obtain ⟨hdigit, rfl⟩ := isDigitOf_iff.1 hd
      refine ⟨⟨by simp, fun c hc => ?_⟩, numeralValue_concat _ _⟩
      rcases List.mem_append.1 hc with hc | hc
      · exact hdigits c hc
      · rw [List.mem_singleton.1 hc]
        exact hdigit
  · rintro ⟨hnum, rfl⟩
    exact standsFor_numeralValue hnum

end Text

namespace Partition

open Rollout.Text

/-! ## What is read as a count -/

/-- A text writes a number: in decimal digits, with one plus sign before them or none, and with
white space around it or none. -/
def WritesCount (written : String) (n : Nat) : Prop :=
  ∃ sign digits, (sign = [] ∨ sign = ['+']) ∧ StandsFor digits n ∧
    Surrounds (sign ++ digits) written.toList

theorem isBlank_of_isDigit {c : Char} (h : c.isDigit) : isBlank c = false := by
  obtain ⟨hlow, hhigh⟩ := toNat_of_isDigit h
  simp only [isBlank, blankRanges, List.any_cons, List.any_nil, Bool.or_false,
    Bool.or_eq_false_iff, Bool.and_eq_false_iff, decide_eq_false_iff_not]
  omega

theorem unsigned_of_isNumeral {ds : List Char} (h : isNumeral ds) : unsigned ds = ds := by
  unfold unsigned
  split
  · exact absurd ((isNumeral_iff.1 h).2 '+' (by simp)) (by decide)
  · rfl

/-- What stands after the sign, and the sign. -/
theorem exists_sign (cs : List Char) :
    ∃ sign, (sign = [] ∨ sign = ['+']) ∧ cs = sign ++ unsigned cs := by
  unfold unsigned
  split
  · exact ⟨['+'], Or.inr rfl, rfl⟩
  · exact ⟨[], Or.inl rfl, rfl⟩

theorem denotes_iff_writesCount {written : String} {n : Nat} :
    Denotes written n ↔ WritesCount written n := by
  unfold Denotes WritesCount
  rw [← standsFor_iff]
  constructor
  · intro h
    obtain ⟨sign, hsign, heq⟩ := exists_sign (trimChars written.toList)
    refine ⟨sign, _, hsign, h, ?_⟩
    rw [← heq]
    exact surrounds_trimChars _
  · rintro ⟨sign, digits, hsign, hstands, hsurrounds⟩
    have hnum : isNumeral digits := (standsFor_iff.1 hstands).1
    have hfull : ∀ c ∈ sign ++ digits, isBlank c = false := by
      intro c hc
      rcases List.mem_append.1 hc with hc | hc
      · rcases hsign with rfl | rfl
        · cases hc
        · rw [List.mem_singleton.1 hc]
          decide
      · exact isBlank_of_isDigit ((isNumeral_iff.1 hnum).2 c hc)
    rw [(trimChars_eq_iff_surrounds hfull).2 hsurrounds]
    rcases hsign with rfl | rfl
    · rw [List.nil_append, unsigned_of_isNumeral hnum]
      exact hstands
    · exact hstands

/-- A text writes a count of use. -/
def WritesUsable (written : String) (n : Nat) : Prop :=
  WritesCount written n ∧ 1 ≤ n ∧ n ≤ 2 ^ 32 - 1

theorem count?_eq_some_iff_writesUsable {written : String} {n : Nat} :
    count? written.toList = some n ↔ WritesUsable written n := by
  rw [count?_eq_some_iff, denotes_iff_writesCount]
  rfl

theorem instances_eq_ok_iff_written {s : Stage} {m : Properties} {n : Nat} :
    instances s m = .ok n ↔
      (m.get? Key.count = none ∧ n = 1) ∨
        ∃ written, m.get? Key.count = some written ∧ WritesUsable written n := by
  rw [instances_eq_ok_iff]
  unfold countOf?
  cases hm : m.get? Key.count with
  | none => simp [eq_comm]
  | some written => simp [count?_eq_some_iff_writesUsable]

theorem instances_eq_error_iff_written {s : Stage} {m : Properties} {fault : Fault} :
    instances s m = .error fault ↔
      ∃ written, m.get? Key.count = some written ∧ (¬ ∃ n, WritesUsable written n) ∧
        fault = .invalidProperty s.label Key.count written := by
  rw [instances_eq_error_iff]
  simp only [Option.eq_none_iff_forall_ne_some, ne_eq, count?_eq_some_iff_writesUsable, not_exists]

/-- The digits of a count within the limit are read as that count. -/
theorem instances_of_get?_decimalText {s : Stage} {m : Properties} {n : Nat} (hpos : 1 ≤ n)
    (hmax : n ≤ 2 ^ 32 - 1) (hm : m.get? Key.count = some (decimalText n)) :
    instances s m = .ok n := by
  have hstands : StandsFor (decimal n) n :=
    standsFor_iff.2 ⟨isNumeral_decimal n, numeralValue_decimal n⟩
  refine instances_eq_ok_iff_written.2 (Or.inr ⟨_, hm, ⟨[], decimal n, Or.inl rfl, hstands, ?_⟩,
    hpos, hmax⟩)
  exact ⟨[], [], by simp [decimalText], by simp, by simp⟩

/-! ## What is written as a number of partitions -/

/-- The walk comes to a place: the counts of all places before it are of use. -/
def Reaches (flow : List (Stage × Properties)) (i : Nat) : Prop :=
  ∀ e ∈ flow.take i, ∃ n, instances e.1 e.2 = .ok n

/-- The stage at a place receives a number of partitions: the walk comes to it, and the stage
before it takes partitioned data in that many instances. -/
def Receives (flow : List (Stage × Properties)) (i n : Nat) : Prop :=
  Reaches flow i ∧ ∃ j taker, i = j + 1 ∧ flow[j]? = some taker ∧ takesAt flow j ∧
    instances taker.1 taker.2 = .ok n

theorem partsAt_eq_some_iff {flow : List (Stage × Properties)} {i n : Nat} :
    partsAt flow i = some n ↔
      ∃ j taker, i = j + 1 ∧ flow[j]? = some taker ∧ takesAt flow j ∧
        instances taker.1 taker.2 = .ok n := by
  simp only [instances_eq_ok_iff]
  cases i with
  | zero => simp [partsAt]
  | succ j =>
    simp only [partsAt, Option.ite_none_right_eq_some, Option.bind_eq_some_iff]
    constructor
    · rintro ⟨htakes, taker, htaker, hn⟩
      exact ⟨j, taker, rfl, htaker, htakes, hn⟩
    · rintro ⟨_, taker, heq, htaker, htakes, hn⟩
      cases heq
      exact ⟨htakes, taker, htaker, hn⟩

theorem reaches_of_counted {flow : List (Stage × Properties)} (h : Counted flow) (i : Nat) :
    Reaches flow i :=
  fun e he => h e (List.mem_of_mem_take he)

theorem StopsAt.reaches_iff {flow : List (Stage × Properties)} {f i : Nat} {fault : Fault}
    (h : StopsAt flow f fault) : Reaches flow i ↔ i ≤ f := by
  obtain ⟨⟨bad, hbad, hfault⟩, hbefore⟩ := h
  constructor
  · intro hreaches
    refine Nat.le_of_not_lt fun hlt => ?_
    have hmem : bad ∈ flow.take i :=
      List.mem_of_getElem? (by rw [List.getElem?_take_of_lt hlt, hbad])
    obtain ⟨n, hn⟩ := hreaches bad hmem
    rw [hn] at hfault
    cases hfault
  · intro hle e he
    obtain ⟨j, hj⟩ := List.mem_iff_getElem?.1 he
    rw [List.getElem?_take, Option.ite_none_right_eq_some] at hj
    exact hbefore j (by omega) e hj.2

open Classical in
/-- The walk settles the places that it comes to, and it leaves the other ones as they were. -/
theorem getElem?_propagate (defaultKey : String) (flow : List (Stage × Properties)) (i : Nat) :
    (propagate defaultKey flow).1[i]? =
      flow[i]?.map fun e => if Reaches flow i then settleAt defaultKey flow i e else e.2 := by
  rcases propagate_eq defaultKey flow with ⟨hall, heq⟩ | ⟨f, fault, hstops, heq⟩
  · rw [heq, List.getElem?_mapIdx]
    simp only [reaches_of_counted hall i, if_true]
  · rw [heq, List.getElem?_mapIdx]
    simp only [hstops.reaches_iff]

theorem get?_outputCount_of_partsAt {defaultKey : String} {flow : List (Stage × Properties)}
    {i : Nat} {e : Stage × Properties} :
    (settleAt defaultKey flow i e).get? Key.outputCount =
      ((partsAt flow i).map decimalText).or (e.2.get? Key.outputCount) := by
  unfold settleAt
  rw [get?_settle]
  rfl

/-- A stage that receives a number of partitions has its digits written, and no other stage has
anything written. -/
theorem get?_outputCount_propagate {defaultKey : String} {flow : List (Stage × Properties)}
    {i : Nat} {giver : Stage × Properties} {changed : Properties} (hgiver : flow[i]? = some giver)
    (hchanged : (propagate defaultKey flow).1[i]? = some changed) :
    (∀ n, Receives flow i n → changed.get? Key.outputCount = some (decimalText n)) ∧
      ((¬ ∃ n, Receives flow i n) →
        changed.get? Key.outputCount = giver.2.get? Key.outputCount) := by
  rw [getElem?_propagate, hgiver, Option.map_some, Option.some.injEq] at hchanged
  unfold Receives
  simp only [← partsAt_eq_some_iff]
  by_cases hreaches : Reaches flow i
  · rw [if_pos hreaches] at hchanged
    rw [← hchanged, get?_outputCount_of_partsAt]
    constructor
    · rintro n ⟨_, hn⟩
      rw [hn]
      rfl
    · intro hnone
      cases hparts : partsAt flow i with
      | none => rfl
      | some n => exact absurd ⟨n, hreaches, hparts⟩ hnone
  · rw [if_neg hreaches] at hchanged
    rw [← hchanged]
    exact ⟨fun n hn => absurd hn.1 hreaches, fun _ => rfl⟩

/-! ## The law -/

/-- A stage has the number of instances that its count writes, or one if it has none, and a count
that writes no number from one to the limit is a fault. A number of partitions that propagation
writes is such a number, and it is read back as the same. -/
theorem counts_are_read_as_written_and_read_back :
    (∀ (s : Stage) (m : Properties) (n : Nat), instances s m = .ok n ↔
      (m.get? Key.count = none ∧ n = 1) ∨
        ∃ written, m.get? Key.count = some written ∧ WritesCount written n ∧ 1 ≤ n ∧
          n ≤ 2 ^ 32 - 1) ∧
    (∀ (s : Stage) (m : Properties) (fault : Fault), instances s m = .error fault ↔
      ∃ written, m.get? Key.count = some written ∧
        (¬ ∃ n, WritesCount written n ∧ 1 ≤ n ∧ n ≤ 2 ^ 32 - 1) ∧
        fault = .invalidProperty s.label Key.count written) ∧
    ∀ (defaultKey : String) (flow : List (Stage × Properties)) (i : Nat)
      (giver : Stage × Properties) (changed : Properties), flow[i]? = some giver →
      (propagate defaultKey flow).1[i]? = some changed →
      ((¬ ∃ n, Receives flow i n) →
        changed.get? Key.outputCount = giver.2.get? Key.outputCount) ∧
      ∀ n, Receives flow i n →
        1 ≤ n ∧ n ≤ 2 ^ 32 - 1 ∧ changed.get? Key.outputCount = some (decimalText n) ∧
        ∀ (s : Stage) (m : Properties), m.get? Key.count = some (decimalText n) →
          instances s m = .ok n := by
  refine ⟨fun s m n => instances_eq_ok_iff_written, fun s m fault =>
    instances_eq_error_iff_written, ?_⟩
  intro defaultKey flow i giver changed hgiver hchanged
  obtain ⟨hreceives, hnot⟩ := get?_outputCount_propagate hgiver hchanged
  refine ⟨hnot, fun n hn => ?_⟩
  obtain ⟨_, j, taker, _, _, _, htaker⟩ := id hn
  obtain ⟨⟨hpos, hmax⟩, _⟩ := countOf?_eq_some (instances_eq_ok_iff.1 htaker)
  exact ⟨hpos, hmax, hreceives n hn, fun s m hm => instances_of_get?_decimalText hpos hmax hm⟩

/-- Two stages against the flow. The one that takes the data asks for three parts, in a text with
blanks, a sign and leading zeros. -/
def sampleFlow : List (Stage × Properties) :=
  [(.make "log" none ∅ (some "x") none,
      .ofList [(Key.partitioned, "TRUE"), (Key.count, " +0003\t")]),
    (.make "time" none ∅ none (some "x"), ∅)]

theorem sample_count_read_back :
    ∃ giver changed, sampleFlow[1]? = some giver ∧
      (propagate payload sampleFlow).1[1]? = some changed ∧ Receives sampleFlow 1 3 ∧
      changed.get? Key.outputCount = some (decimalText 3) ∧
      ∀ (s : Stage) (m : Properties), m.get? Key.count = some (decimalText 3) →
        instances s m = .ok 3 := by
  have hgiver : sampleFlow[1]? = some (.make "time" none ∅ none (some "x"), ∅) := rfl
  have hchanged : ((propagate payload sampleFlow).1[1]?).isSome := by decide +kernel
  obtain ⟨changed, hchanged⟩ := Option.isSome_iff_exists.1 hchanged
  have hcount : instances sampleFlow[0].1 sampleFlow[0].2 = .ok 3 := by decide +kernel
  have hreceives : Receives sampleFlow 1 3 := by
    refine ⟨fun e he => ⟨3, ?_⟩, 0, sampleFlow[0], rfl, rfl, by decide +kernel, hcount⟩
    rw [List.mem_singleton.1 he]
    exact hcount
  obtain ⟨_, hthen⟩ := counts_are_read_as_written_and_read_back.2.2 payload sampleFlow 1 _ changed
    hgiver hchanged
  obtain ⟨_, _, hwritten, hback⟩ := hthen 3 hreceives
  exact ⟨_, changed, hgiver, hchanged, hreceives, hwritten, hback⟩

end Partition

end Rollout
