-- Propagation looks no further than the next stage. What becomes of the properties of a stage is
-- told by its own merged properties and those of its two neighbours, although the walk carries
-- what it knows from stage to stage and writes into the maps it reads.
import Rollout.Partition

namespace Rollout

namespace Key

/-! ## The keys that are read and the keys that are written -/

/-- What planning reads of the properties of a stage. -/
def planned : List String :=
  [count, partitioned, keyExpression, keyExtractor, selector, selectorExpression]

def consumerKeys : List String := [inputPartitioned, inputInstances]

def producerKeys : List String :=
  [outputCount, outputKeyExpression, outputKeyExtractor, outputSelector, outputSelectorExpression]

/-- What planning writes into the properties of a stage. -/
def injected : List String := consumerKeys ++ producerKeys

theorem planned_notMem_injected {k : String} (h : k ∈ planned) : k ∉ injected := by
  have : ∀ k ∈ planned, k ∉ injected := by decide
  exact this k h

end Key

namespace Partition

open Rollout.Text

/-! ## The change of one stage -/

/-- The merged properties of a stage with what is written into them: of a stage that takes
partitioned data, and of one that gives it in some number of parts. Every value is read from the
merged properties. -/
def settle (defaultKey : String) (m : Properties) (takes : Bool) (parts : Option Nat) :
    Properties :=
  let taking :=
    if takes then (m.insert Key.inputPartitioned "true").insertSome Key.inputInstances
      (m.get? Key.count)
    else m
  match parts with
  | none => taking
  | some n =>
    ((((taking.insert Key.outputCount (decimalText n)).insert Key.outputKeyExpression
      ((m.get? Key.keyExpression).getD defaultKey)).insertSome Key.outputKeyExtractor
      (m.get? Key.keyExtractor)).insertSome Key.outputSelector
      (m.get? Key.selector)).insertSome Key.outputSelectorExpression
      (m.get? Key.selectorExpression)

/-- What is written under a key. -/
def writtenAt (defaultKey : String) (m : Properties) (takes : Bool) (parts : Option Nat)
    (k : String) : Option String :=
  if k = Key.inputPartitioned then if takes then some "true" else none
  else if k = Key.inputInstances then if takes then m.get? Key.count else none
  else if k = Key.outputCount then parts.map decimalText
  else if k = Key.outputKeyExpression then
    parts.map fun _ => (m.get? Key.keyExpression).getD defaultKey
  else if k = Key.outputKeyExtractor then parts.bind fun _ => m.get? Key.keyExtractor
  else if k = Key.outputSelector then parts.bind fun _ => m.get? Key.selector
  else if k = Key.outputSelectorExpression then parts.bind fun _ => m.get? Key.selectorExpression
  else none

theorem writtenAt_of_notMem (defaultKey : String) (m : Properties) (takes : Bool)
    (parts : Option Nat) {k : String} (h : k ∉ Key.injected) :
    writtenAt defaultKey m takes parts k = none := by
  simp only [Key.injected, Key.consumerKeys, Key.producerKeys, List.cons_append, List.nil_append,
    List.mem_cons, List.not_mem_nil, or_false, not_or] at h
  obtain ⟨h1, h2, h3, h4, h5, h6, h7⟩ := h
  simp only [writtenAt, h1, h2, h3, h4, h5, h6, h7, if_false]

/-- The settled properties hold what is written, and where nothing is, what was merged. -/
theorem get?_settle (defaultKey : String) (m : Properties) (takes : Bool) (parts : Option Nat)
    (k : String) :
    (settle defaultKey m takes parts).get? k =
      (writtenAt defaultKey m takes parts k).or (m.get? k) := by
  by_cases hk : k ∈ Key.injected
  · simp only [Key.injected, Key.consumerKeys, Key.producerKeys, List.cons_append,
      List.nil_append, List.mem_cons, List.not_mem_nil, or_false] at hk
    rcases hk with rfl | rfl | rfl | rfl | rfl | rfl | rfl
    all_goals
      cases takes <;> cases parts <;>
        simp [settle, writtenAt, SortedMap.get?_insert, SortedMap.get?_insertSome,
          Key.inputPartitioned, Key.inputInstances, Key.outputCount, Key.outputKeyExpression,
          Key.outputKeyExtractor, Key.outputSelector, Key.outputSelectorExpression]
  · rw [writtenAt_of_notMem _ _ _ _ hk]
    simp only [Key.injected, Key.consumerKeys, Key.producerKeys, List.cons_append,
      List.nil_append, List.mem_cons, List.not_mem_nil, or_false, not_or] at hk
    obtain ⟨h1, h2, h3, h4, h5, h6, h7⟩ := hk
    unfold settle
    cases takes <;> cases parts <;>
      simp [SortedMap.get?_insert, SortedMap.get?_insertSome, h1, h2, h3, h4, h5, h6, h7]

/-- What planning reads is not changed by what it writes. -/
theorem get?_settle_of_planned (defaultKey : String) (m : Properties) (takes : Bool)
    (parts : Option Nat) {k : String} (h : k ∈ Key.planned) :
    (settle defaultKey m takes parts).get? k = m.get? k := by
  rw [get?_settle, writtenAt_of_notMem _ _ _ _ (Key.planned_notMem_injected h), Option.none_or]

theorem instances_congr (s : Stage) {p q : Properties}
    (h : p.get? Key.count = q.get? Key.count) : instances s p = instances s q := by
  unfold instances
  rw [h]

/-- A giver copies its own properties, which being a taker left as they were. -/
theorem asProducer_settle (defaultKey : String) (m : Properties) (takes : Bool) (n : Nat) :
    asProducer (settle defaultKey m takes none) n defaultKey =
      settle defaultKey m takes (some n) := by
  have read : ∀ k ∈ Key.planned, (settle defaultKey m takes none).get? k = m.get? k :=
    fun k hk => get?_settle_of_planned defaultKey m takes none hk
  unfold asProducer
  rw [read Key.keyExpression (by decide), read Key.keyExtractor (by decide),
    read Key.selector (by decide), read Key.selectorExpression (by decide)]
  rfl

/-- One step of the walk. Nothing it reads is something it wrote. -/
theorem step_eq (defaultKey : String) (down : Downstream) (s : Stage) (m : Properties)
    (giverHasKey : Bool) :
    step defaultKey down s m giverHasKey =
      (settle defaultKey m (isConsumer s m giverHasKey)
          (if down.partitioned then some down.instances else none),
        (instances s m).map fun n => ⟨n, isConsumer s m giverHasKey⟩) := by
  have taken : (if isConsumer s m giverHasKey then asConsumer m else m) =
      settle defaultKey m (isConsumer s m giverHasKey) none := by
    cases isConsumer s m giverHasKey <;> rfl
  have changed : (if down.partitioned then
        asProducer (settle defaultKey m (isConsumer s m giverHasKey) none) down.instances
          defaultKey
      else settle defaultKey m (isConsumer s m giverHasKey) none) =
      settle defaultKey m (isConsumer s m giverHasKey)
        (if down.partitioned then some down.instances else none) := by
    cases down.partitioned
    · rfl
    · exact asProducer_settle defaultKey m _ down.instances
  unfold step
  simp only [taken, changed]
  rw [instances_congr s (get?_settle_of_planned defaultKey m _ _ (by decide))]

/-! ## A place and its neighbours -/

/-- The instance count that properties ask for, if it is of use. -/
def countOf? (m : Properties) : Option Nat :=
  match m.get? Key.count with
  | none => some 1
  | some written => count? written.toList

/-- Tells whether the stage at a place takes partitioned data: the stage that gives to it says how
its output is partitioned, or it has an input and asks for it. -/
def takesAt (flow : List (Stage × Properties)) (i : Nat) : Bool :=
  (flow[i + 1]?.any fun giver =>
    giver.2.contains Key.keyExpression || giver.2.contains Key.keyExtractor) ||
  (flow[i]?.any fun e =>
    e.1.hasInput && (e.2.get? Key.partitioned).any fun v => lowerAscii v = "true".toList)

/-- In how many parts the stage at a place gives its data to the stage before it. -/
def partsAt (flow : List (Stage × Properties)) : Nat → Option Nat
  | 0 => none
  | i + 1 => if takesAt flow i then flow[i]?.bind fun e => countOf? e.2 else none

/-- What the merged properties at a place come to. -/
def settleAt (defaultKey : String) (flow : List (Stage × Properties)) (i : Nat)
    (e : Stage × Properties) : Properties :=
  settle defaultKey e.2 (takesAt flow i) (partsAt flow i)

theorem instances_eq_ok_iff {s : Stage} {m : Properties} {n : Nat} :
    instances s m = .ok n ↔ countOf? m = some n := by
  unfold instances countOf?
  cases h : m.get? Key.count with
  | none => simp
  | some written => cases hn : count? written.toList <;> simp [hn]

/-- The fault of a count names the stage, the key and what was written. -/
theorem instances_eq_error_iff {s : Stage} {m : Properties} {fault : Fault} :
    instances s m = .error fault ↔
      ∃ written, m.get? Key.count = some written ∧ count? written.toList = none ∧
        fault = .invalidProperty s.label Key.count written := by
  unfold instances
  split
  · next h => simp [h]
  · next written h =>
    split
    · next n hn => simp [h, hn]
    · next hn => simp [h, hn, eq_comm]

theorem isConsumer_eq_takesAt {flow rest : List (Stage × Properties)} {i : Nat} {s : Stage}
    {m : Properties} (h : flow.drop i = (s, m) :: rest) :
    isConsumer s m (nextHasKey rest) = takesAt flow i := by
  have here : flow[i]? = some (s, m) := by
    rw [← List.head?_drop, h]
    rfl
  have next : flow[i + 1]? = rest.head? := by
    rw [← List.head?_drop, ← List.tail_drop, h]
    rfl
  unfold isConsumer takesAt asksPartitioned
  rw [here, next]
  cases rest with
  | nil => cases h : m.get? Key.partitioned <;> simp [nextHasKey, h]
  | cons giver rest => cases h : m.get? Key.partitioned <;> simp [nextHasKey, hasKey, h]

/-! ## The walk -/

/-- The walk knows of the stage before a place what the place itself tells. -/
def Knows (flow : List (Stage × Properties)) (i : Nat) (down : Downstream) : Prop :=
  (if down.partitioned then some down.instances else none) = partsAt flow i

theorem knows_start (flow : List (Stage × Properties)) : Knows flow 0 {} := rfl

theorem knows_step {flow rest : List (Stage × Properties)} {i n : Nat} {s : Stage}
    {m : Properties} (h : flow.drop i = (s, m) :: rest) (hn : instances s m = .ok n) :
    Knows flow (i + 1) ⟨n, takesAt flow i⟩ := by
  have here : flow[i]? = some (s, m) := by
    rw [← List.head?_drop, h]
    rfl
  unfold Knows
  simp only [partsAt, here, Option.bind_some, instances_eq_ok_iff.1 hn]

/-- Every count in a list is of use. -/
def Counted (flow : List (Stage × Properties)) : Prop :=
  ∀ e ∈ flow, ∃ n, instances e.1 e.2 = .ok n

/-- The count at a place is the first one that is of no use. -/
def StopsAt (flow : List (Stage × Properties)) (f : Nat) (fault : Fault) : Prop :=
  (∃ e, flow[f]? = some e ∧ instances e.1 e.2 = .error fault) ∧
    ∀ j < f, ∀ e, flow[j]? = some e → ∃ n, instances e.1 e.2 = .ok n

theorem stopsAt_cons {e : Stage × Properties} {rest : List (Stage × Properties)} {f n : Nat}
    {fault : Fault} (hn : instances e.1 e.2 = .ok n) (h : StopsAt rest f fault) :
    StopsAt (e :: rest) (f + 1) fault := by
  obtain ⟨⟨bad, hbad, hfault⟩, before⟩ := h
  refine ⟨⟨bad, hbad, hfault⟩, ?_⟩
  intro j hj x hx
  cases j with
  | zero =>
    cases hx
    exact ⟨n, hn⟩
  | succ j => exact before j (by omega) x hx

/-- The walk from a place on, by what it knows there: it settles every place it comes to, and it
comes to all of them or to the first whose count is of no use. -/
theorem propagateFrom_eq (defaultKey : String) (flow : List (Stage × Properties)) :
    ∀ (rest : List (Stage × Properties)) (i : Nat) (down : Downstream),
      flow.drop i = rest → Knows flow i down →
      (Counted rest ∧ propagateFrom defaultKey down rest =
        (rest.mapIdx fun j e => settleAt defaultKey flow (i + j) e, .ok ())) ∨
      ∃ f fault, StopsAt rest f fault ∧ propagateFrom defaultKey down rest =
        (rest.mapIdx fun j e => if j ≤ f then settleAt defaultKey flow (i + j) e else e.2,
          .error fault) := by
  intro rest
  induction rest with
  | nil => exact fun i down _ _ => Or.inl ⟨by simp [Counted], rfl⟩
  | cons e rest ih =>
    intro i down hdrop hknows
    obtain ⟨s, m⟩ := e
    have hstep : step defaultKey down s m (nextHasKey rest) =
        (settleAt defaultKey flow i (s, m),
          (instances s m).map fun n => ⟨n, takesAt flow i⟩) := by
      rw [step_eq, isConsumer_eq_takesAt hdrop, hknows]
      rfl
    have hrest : flow.drop (i + 1) = rest := by
      rw [← List.tail_drop, hdrop]
      rfl
    have hshift : ∀ j, i + 1 + j = i + (j + 1) := fun j => by omega
    cases hn : instances s m with
    | error fault =>
      refine Or.inr ⟨0, fault, ⟨⟨(s, m), rfl, hn⟩, fun j hj => by omega⟩, ?_⟩
      unfold propagateFrom
      rw [hstep, hn]
      have hkept : rest.map (·.2) = rest.mapIdx fun _ e => e.2 :=
        List.ext_getElem? fun j => by simp
      simp [Except.map, List.mapIdx_cons, hkept]
    | ok n =>
      have hdown := knows_step hdrop hn
      rcases ih (i + 1) ⟨n, takesAt flow i⟩ hrest hdown with ⟨hall, heq⟩ | ⟨f, fault, hbad, heq⟩
      · refine Or.inl ⟨?_, ?_⟩
        · intro x hx
          rcases List.mem_cons.1 hx with rfl | hx
          · exact ⟨n, hn⟩
          · exact hall x hx
        · unfold propagateFrom
          rw [hstep, hn]
          simp only [Except.map, heq, List.mapIdx_cons, hshift, Nat.add_zero]
      · refine Or.inr ⟨f + 1, fault, stopsAt_cons hn hbad, ?_⟩
        unfold propagateFrom
        rw [hstep, hn]
        simp only [Except.map, heq, List.mapIdx_cons, hshift, Nat.add_zero, Nat.zero_le, if_true,
          Nat.add_le_add_iff_right]

/-- The walk from the start settles all places, or those up to the first whose count is of no
use. -/
theorem propagate_eq (defaultKey : String) (flow : List (Stage × Properties)) :
    (Counted flow ∧ propagate defaultKey flow =
      (flow.mapIdx fun i e => settleAt defaultKey flow i e, .ok ())) ∨
    ∃ f fault, StopsAt flow f fault ∧ propagate defaultKey flow =
      (flow.mapIdx fun i e => if i ≤ f then settleAt defaultKey flow i e else e.2,
        .error fault) := by
  have hwalk := propagateFrom_eq defaultKey flow flow 0 {} rfl (knows_start flow)
  simp only [Nat.zero_add] at hwalk
  exact hwalk

/-- A walk that succeeds settles every place. -/
theorem propagate_of_ok {defaultKey : String} {flow : List (Stage × Properties)}
    (h : (propagate defaultKey flow).2 = .ok ()) :
    Counted flow ∧
      (propagate defaultKey flow).1 = flow.mapIdx fun i e => settleAt defaultKey flow i e := by
  rcases propagate_eq defaultKey flow with ⟨hall, heq⟩ | ⟨f, fault, _, heq⟩
  · rw [heq]
    exact ⟨hall, rfl⟩
  · rw [heq] at h
    cases h

/-! ## The laws -/

/-- What propagation makes of the properties at a place is told by the place and its neighbours,
as they were merged. If every count is of use, all places are settled so; else those up to the
first count that is of no use, which is the fault, and the later ones stay as they were. -/
theorem propagation_looks_no_further_than_the_neighbours (defaultKey : String)
    (flow : List (Stage × Properties)) :
    ((∀ e ∈ flow, ∃ n, countOf? e.2 = some n) ∧
      propagate defaultKey flow =
        (flow.mapIdx fun i e => settleAt defaultKey flow i e, .ok ())) ∨
    ∃ f s m written, flow[f]? = some (s, m) ∧ m.get? Key.count = some written ∧
      count? written.toList = none ∧
      (∀ j < f, ∀ e, flow[j]? = some e → ∃ n, countOf? e.2 = some n) ∧
      propagate defaultKey flow =
        (flow.mapIdx fun i e => if i ≤ f then settleAt defaultKey flow i e else e.2,
          .error (.invalidProperty s.label Key.count written)) := by
  rcases propagate_eq defaultKey flow with
    ⟨hall, heq⟩ | ⟨f, fault, ⟨⟨⟨s, m⟩, hbad, hfault⟩, hbefore⟩, heq⟩
  · left
    refine ⟨fun e he => ?_, heq⟩
    obtain ⟨n, hn⟩ := hall e he
    exact ⟨n, instances_eq_ok_iff.1 hn⟩
  · right
    obtain ⟨written, hget, hcount, rfl⟩ := instances_eq_error_iff.1 hfault
    refine ⟨f, s, m, written, hbad, hget, hcount, fun j hj e he => ?_, heq⟩
    obtain ⟨n, hn⟩ := hbefore j hj e he
    exact ⟨n, instances_eq_ok_iff.1 hn⟩

end Partition

end Rollout
