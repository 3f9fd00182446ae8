-- The two ends of partitioned data agree in every plan: the stage that takes it and the stage
-- that gives it are told of it together, and of the same number of parts.
import Rollout.Linear
import Rollout.Proofs.PlanShape

namespace Rollout

open Rollout.Text

namespace Partition

/-! ## What a count is worth -/

/-- A text stands for a number, by decimal digits after an optional plus sign. -/
def Denotes (written : String) (n : Nat) : Prop :=
  isNumeral (unsigned (trimChars written.toList)) ∧
    numeralValue (unsigned (trimChars written.toList)) = n

theorem count?_eq_some_iff {written : String} {n : Nat} :
    count? written.toList = some n ↔ Denotes written n ∧ 0 < n ∧ n ≤ maxCount := by
  unfold count? Denotes
  simp only [Option.ite_none_right_eq_some, Option.some.injEq]
  constructor
  · rintro ⟨⟨hnum, hpos, hmax⟩, rfl⟩
    exact ⟨⟨hnum, rfl⟩, hpos, hmax⟩
  · rintro ⟨⟨hnum, rfl⟩, hpos, hmax⟩
    exact ⟨⟨hnum, hpos, hmax⟩, rfl⟩

/-- The count of a stage is one if none is written, and else what is written. -/
theorem countOf?_eq_some {m : Properties} {n : Nat} (h : countOf? m = some n) :
    (0 < n ∧ n ≤ maxCount) ∧
      match m.get? Key.count with
      | none => n = 1
      | some written => Denotes written n := by
  unfold countOf? at h
  cases hm : m.get? Key.count with
  | none =>
    simp only [hm, Option.some.injEq] at h
    subst h
    exact ⟨⟨by decide, by decide⟩, rfl⟩
  | some written =>
    simp only [hm] at h
    obtain ⟨hden, hpos, hmax⟩ := count?_eq_some_iff.1 h
    exact ⟨⟨hpos, hmax⟩, hden⟩

/-! ## Two places next to each other -/

/-- A giver gives in as many parts as the count of its taker says, if that takes any. -/
theorem partsAt_succ {flow : List (Stage × Properties)} {i : Nat} {e : Stage × Properties}
    (hall : Counted flow) (he : flow[i]? = some e) :
    ∃ n, countOf? e.2 = some n ∧
      partsAt flow (i + 1) = if takesAt flow i then some n else none := by
  obtain ⟨n, hn⟩ := hall e (List.mem_of_getElem? he)
  have hcount := instances_eq_ok_iff.1 hn
  refine ⟨n, hcount, ?_⟩
  simp only [partsAt, he, Option.bind_some, hcount]

section Free

variable {defaultKey : String} {flow : List (Stage × Properties)} {i : Nat}
  {e : Stage × Properties} (free : ∀ k ∈ Key.injected, e.2.get? k = none)

include free

/-- Where nothing was merged under a key that planning writes, there is what it writes. -/
theorem get?_settleAt_of_free {k : String} (hk : k ∈ Key.injected) :
    (settleAt defaultKey flow i e).get? k =
      writtenAt defaultKey e.2 (takesAt flow i) (partsAt flow i) k := by
  unfold settleAt
  rw [get?_settle, free k hk, Option.or_none]

theorem get?_inputPartitioned_settleAt :
    (settleAt defaultKey flow i e).get? Key.inputPartitioned =
      if takesAt flow i then some "true" else none := by
  rw [get?_settleAt_of_free free (by decide)]
  rfl

theorem get?_inputInstances_settleAt :
    (settleAt defaultKey flow i e).get? Key.inputInstances =
      if takesAt flow i then e.2.get? Key.count else none := by
  rw [get?_settleAt_of_free free (by decide)]
  rfl

theorem get?_outputCount_settleAt :
    (settleAt defaultKey flow i e).get? Key.outputCount =
      (partsAt flow i).map decimalText := by
  rw [get?_settleAt_of_free free (by decide)]
  rfl

theorem get?_outputKeyExpression_settleAt :
    (settleAt defaultKey flow i e).get? Key.outputKeyExpression =
      (partsAt flow i).map fun _ => (e.2.get? Key.keyExpression).getD defaultKey := by
  rw [get?_settleAt_of_free free (by decide)]
  rfl

/-- The stage at the first place gives nothing to a stage before it. -/
theorem get?_settleAt_zero {k : String} (hk : k ∈ Key.producerKeys) :
    (settleAt defaultKey flow 0 e).get? k = none := by
  rw [get?_settleAt_of_free free (List.mem_append_right _ hk)]
  simp only [Key.producerKeys, List.mem_cons, List.not_mem_nil, or_false] at hk
  rcases hk with rfl | rfl | rfl | rfl | rfl <;> rfl

end Free

/-- What a taker and its giver are told, where nothing was merged under the keys. -/
theorem settleAt_agree (defaultKey : String) {flow : List (Stage × Properties)} {i : Nat}
    {taker : Stage × Properties} (giver : Stage × Properties) (hall : Counted flow)
    (htaker : flow[i]? = some taker)
    (freeTaker : ∀ k ∈ Key.injected, taker.2.get? k = none)
    (freeGiver : ∀ k ∈ Key.injected, giver.2.get? k = none) :
    ((settleAt defaultKey flow i taker).contains Key.inputPartitioned =
      (settleAt defaultKey flow (i + 1) giver).contains Key.outputCount) ∧
    ((settleAt defaultKey flow i taker).contains Key.inputPartitioned →
      (settleAt defaultKey flow i taker).get? Key.inputPartitioned = some "true" ∧
      (settleAt defaultKey flow (i + 1) giver).contains Key.outputKeyExpression ∧
      (settleAt defaultKey flow i taker).get? Key.inputInstances =
        (settleAt defaultKey flow i taker).get? Key.count ∧
      ∃ n, countOf? (settleAt defaultKey flow i taker) = some n ∧
        (settleAt defaultKey flow (i + 1) giver).get? Key.outputCount =
          some (decimalText n)) := by
  obtain ⟨n, hn, hparts⟩ := partsAt_succ hall htaker
  have hcount : (settleAt defaultKey flow i taker).get? Key.count = taker.2.get? Key.count :=
    get?_settle_of_planned defaultKey taker.2 _ _ (by decide)
  unfold SortedMap.contains
  rw [get?_inputPartitioned_settleAt freeTaker, get?_outputCount_settleAt freeGiver,
    get?_outputKeyExpression_settleAt freeGiver, get?_inputInstances_settleAt freeTaker, hcount,
    hparts]
  cases takesAt flow i with
  | false => simp
  | true =>
    refine ⟨rfl, fun _ => ⟨rfl, rfl, rfl, n, ?_, rfl⟩⟩
    unfold countOf?
    rw [hcount]
    exact hn

end Partition

namespace Planning

open Rollout.Partition

/-! ## The law -/

/-- The overrides for the stage of an instruction set none of the keys that planning writes. -/
def LeavesFree (config : Config) (overrides : Properties) (i : Instruction) : Prop :=
  ∀ k ∈ Key.injected, (overrides.merge config.propertyLead i.stage.label).get? k = none

instance (config : Config) (overrides : Properties) (i : Instruction) :
    Decidable (LeavesFree config overrides i) :=
  inferInstanceAs (Decidable (∀ k ∈ Key.injected, _))

/-- In a plan, the instruction of a stage that takes data and that of the stage that gives it,
which comes next, agree on whether the data is partitioned and into how many parts. The first
instruction has no stage to give data to. -/
theorem takers_and_givers_agree {p : Pipeline} {r : Registry} {config : Config}
    {overrides : Properties} {id : PlanId} {made : Plan}
    (h : p.plan r config overrides id = .ok made) :
    (∀ (i : Nat) (taker giver : Instruction), made.instructions[i]? = some taker →
      made.instructions[i + 1]? = some giver → LeavesFree config overrides taker →
      LeavesFree config overrides giver →
      (taker.properties.contains Key.inputPartitioned ↔
        giver.properties.contains Key.outputCount) ∧
      (taker.properties.contains Key.inputPartitioned →
        taker.properties.get? Key.inputPartitioned = some "true" ∧
        giver.properties.contains Key.outputKeyExpression ∧
        (taker.properties.contains Key.inputInstances ↔ taker.properties.contains Key.count) ∧
        ∃ n, giver.properties.get? Key.outputCount = some (decimalText n) ∧
          1 ≤ n ∧ n ≤ maxCount ∧
          match taker.properties.get? Key.inputInstances with
          | none => n = 1
          | some written => Denotes written n)) ∧
    ∀ first, made.instructions[0]? = some first → LeavesFree config overrides first →
      ∀ k ∈ Key.producerKeys, first.properties.get? k = none := by
  obtain ⟨his, _, _⟩ := Pipeline.plan_eq_ok_iff.1 h
  have hall := counted_of_ok his
  constructor
  · intro i taker giver htaker hgiver freeTaker freeGiver
    obtain ⟨s, hs, made⟩ := instructs_of_ok his htaker
    obtain ⟨t, ht, made'⟩ := instructs_of_ok his hgiver
    unfold LeavesFree at freeTaker freeGiver
    rw [made.label_eq] at freeTaker
    rw [made'.label_eq] at freeGiver
    have hflow : (mergeAll config overrides p.deployOrder)[i]? =
        some (s, overrides.merge config.propertyLead s.label) := by
      rw [getElem?_mergeAll, hs]
      rfl
    obtain ⟨hiff, hthen⟩ := settleAt_agree config.defaultKey
      (t, overrides.merge config.propertyLead t.label) hall hflow freeTaker freeGiver
    rw [made.properties_eq, made'.properties_eq]
    refine ⟨by rw [hiff], fun htakes => ?_⟩
    obtain ⟨htrue, hexpression, hcopied, n, hn, hparts⟩ := hthen htakes
    obtain ⟨⟨hpos, hmax⟩, hdenotes⟩ := countOf?_eq_some hn
    refine ⟨htrue, hexpression, ?_, n, hparts, hpos, hmax, ?_⟩
    · unfold SortedMap.contains
      rw [hcopied]
    · rw [hcopied]
      exact hdenotes
  · intro first hfirst free k hk
    obtain ⟨s, _, made⟩ := instructs_of_ok his hfirst
    unfold LeavesFree at free
    rw [made.label_eq] at free
    rw [made.properties_eq]
    exact get?_settleAt_zero free hk

/-- Overrides by which the stage in the middle of three shares its input among four. -/
def sampleOverrides : Properties :=
  SortedMap.ofList [("stage.transform.partitioned", "true"), ("stage.transform.count", "4")]

theorem sample_takers_and_givers_agree :
    ∃ (l : Linear) (made : Plan) (taker giver : Instruction),
      Linear.build "line" Linear.sampleEntries = .ok l ∧
      l.pipeline.plan l.registry {} sampleOverrides ⟨0⟩ = .ok made ∧
      made.instructions[1]? = some taker ∧ made.instructions[2]? = some giver ∧
      LeavesFree {} sampleOverrides taker ∧ LeavesFree {} sampleOverrides giver ∧
      taker.properties.contains Key.inputPartitioned ∧
      ∃ n, giver.properties.get? Key.outputCount = some (decimalText n) ∧ 1 ≤ n ∧
        n ≤ maxCount ∧
        match taker.properties.get? Key.inputInstances with
        | none => n = 1
        | some written => Denotes written n := by
  have hrun : ((Linear.build "line" Linear.sampleEntries).toOption.bind fun l =>
      (l.pipeline.plan l.registry {} sampleOverrides ⟨0⟩).toOption.bind fun made =>
      made.instructions[1]?.bind fun taker => made.instructions[2]?.map fun giver =>
        decide (LeavesFree {} sampleOverrides taker ∧ LeavesFree {} sampleOverrides giver ∧
          taker.properties.contains Key.inputPartitioned)) = some true := by
    decide +kernel
  simp only [Option.bind_eq_some_iff, Option.map_eq_some_iff, Traversal.toOption_eq_some_iff,
    decide_eq_true_eq] at hrun
  obtain ⟨l, hl, made, hplan, taker, htaker, giver, hgiver, freeTaker, freeGiver, htakes⟩ := hrun
  obtain ⟨_, hthen⟩ :=
    (takers_and_givers_agree hplan).1 1 taker giver htaker hgiver freeTaker freeGiver
  obtain ⟨_, _, _, hparts⟩ := hthen htakes
  exact ⟨l, made, taker, giver, hl, hplan, htaker, hgiver, freeTaker, freeGiver, htakes, hparts⟩

end Planning

end Rollout
