-- Partitioned data between neighbours. Stages are visited against the flow of data, so that what
-- a taker of data asks for is known when its giver is visited. What a giver says about its output
-- is read before anything is written, and nothing that is written is ever read.
import Rollout.Pipeline.Stage
import Rollout.Text.Blank
import Rollout.Text.Decimal

namespace Rollout

open Rollout.Text

namespace Partition

/-! ## Instance counts -/

def maxCount : Nat := 4294967295

/-- Digits after a plus sign, if there is one. -/
def unsigned : List Char → List Char
  | '+' :: digits => digits
  | digits => digits

/-- Reads an instance count: a positive number within the limit, in decimal digits after an
optional plus sign, with white space around it. -/
def count? (cs : List Char) : Option Nat :=
  let digits := unsigned (trimChars cs)
  if isNumeral digits ∧ 0 < numeralValue digits ∧ numeralValue digits ≤ maxCount then
    some (numeralValue digits)
  else none

/-- How many instances of a stage run: one unless its properties say otherwise. -/
def instances (s : Stage) (p : Properties) : Except Fault Nat :=
  match p.get? Key.count with
  | none => .ok 1
  | some written =>
    match count? written.toList with
    | some n => .ok n
    | none => .error (.invalidProperty s.label Key.count written)

/-! ## Takers and givers -/

/-- Tells whether properties say how the output of a stage is partitioned. -/
def hasKey (p : Properties) : Bool :=
  p.contains Key.keyExpression || p.contains Key.keyExtractor

/-- A text with its ASCII capitals made small. -/
def lowerAscii (s : String) : List Char := s.toList.map Char.toLower

def asksPartitioned (p : Properties) : Bool :=
  match p.get? Key.partitioned with
  | some v => lowerAscii v = "true".toList
  | none => false

/-- Tells whether a stage takes partitioned data: the stage before it partitions its output, or it
has an input and asks for it. -/
def isConsumer (s : Stage) (p : Properties) (giverHasKey : Bool) : Bool :=
  giverHasKey || (s.hasInput && asksPartitioned p)

/-- The properties of a stage that takes partitioned data. -/
def asConsumer (p : Properties) : Properties :=
  (p.insert Key.inputPartitioned "true").insertSome Key.inputInstances (p.get? Key.count)

/-- The properties of a stage that gives data in the given number of partitions. -/
def asProducer (p : Properties) (count : Nat) (defaultKey : String) : Properties :=
  ((((p.insert Key.outputCount (decimalText count)).insert Key.outputKeyExpression
    ((p.get? Key.keyExpression).getD defaultKey)).insertSome Key.outputKeyExtractor
    (p.get? Key.keyExtractor)).insertSome Key.outputSelector
    (p.get? Key.selector)).insertSome Key.outputSelectorExpression
    (p.get? Key.selectorExpression)

/-! ## Propagation -/

/-- What is known of the stage visited before: the one that takes the data of the next one. -/
structure Downstream where
  instances : Nat := 1
  partitioned : Bool := false
  deriving DecidableEq, Inhabited

/-- Visits one stage. The properties are changed even if the instance count is then of no use. -/
def step (defaultKey : String) (down : Downstream) (s : Stage) (p : Properties)
    (giverHasKey : Bool) : Properties × Except Fault Downstream :=
  let consumer := isConsumer s p giverHasKey
  let taking := if consumer then asConsumer p else p
  let changed :=
    if down.partitioned then asProducer taking down.instances defaultKey else taking
  (changed, (instances s changed).map fun n => ⟨n, consumer⟩)

/-- Tells whether the next stage to visit, which gives its data to the one at hand, says how its
output is partitioned. -/
def nextHasKey : List (Stage × Properties) → Bool
  | [] => false
  | (_, p) :: _ => hasKey p

/-- Visits stages in the order of deployment up to the first whose instance count is of no use;
that one is changed too, and the later ones stay as they are. -/
def propagateFrom (defaultKey : String) (down : Downstream) :
    List (Stage × Properties) → List Properties × Except Fault Unit
  | [] => ([], .ok ())
  | (s, p) :: rest =>
    match step defaultKey down s p (nextHasKey rest) with
    | (changed, .error fault) => (changed :: rest.map (·.2), .error fault)
    | (changed, .ok down') =>
      let (later, outcome) := propagateFrom defaultKey down' rest
      (changed :: later, outcome)

/-- The properties of stages in the order of deployment, with what partitioned data between
neighbours asks for. -/
def propagate (defaultKey : String) (stages : List (Stage × Properties)) :
    List Properties × Except Fault Unit :=
  propagateFrom defaultKey {} stages

/-- The key expression for givers of partitioned data that name none. -/
def payload : String := "payload"

/-! ## Laws -/

theorem length_propagateFrom (defaultKey : String) (down : Downstream)
    (stages : List (Stage × Properties)) :
    (propagateFrom defaultKey down stages).1.length = stages.length := by
  induction stages generalizing down with
  | nil => rfl
  | cons a rest ih =>
    obtain ⟨s, p⟩ := a
    unfold propagateFrom
    split
    · simp
    · simp [ih]

theorem length_propagate (defaultKey : String) (stages : List (Stage × Properties)) :
    (propagate defaultKey stages).1.length = stages.length :=
  length_propagateFrom defaultKey {} stages

end Partition

end Rollout
