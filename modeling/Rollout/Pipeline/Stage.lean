-- Stages of a pipeline, their identities, and the role that the bindings of a stage give it.
import Rollout.Fault
import Rollout.Properties.Basic

namespace Rollout

/-- A stage: an artifact under a label, with parameters. -/
structure Stage where
  /-- The name of the artifact. -/
  name : String
  /-- What the stage is called in its pipeline. -/
  label : String
  /-- The name of the pipeline, empty outside of one. -/
  group : String
  parameters : Properties
  deriving DecidableEq, Inhabited

/-- What a deployer knows a stage by. -/
structure StageId where
  group : String
  label : String
  deriving DecidableEq, Inhabited

namespace StageId

/-- Identities are ordered by group and then by label. -/
instance : Ord StageId := ⟨compareLex (compareOn group) (compareOn label)⟩

instance : Std.TransOrd StageId :=
  inferInstanceAs (Std.TransCmp (compareLex (compareOn group) (compareOn label)))

instance : Std.LawfulEqOrd StageId where
  eq_of_compare {a b} h := by
    have h' : (compare a.group b.group).then (compare a.label b.label) = .eq := h
    rw [Ordering.then_eq_eq, Std.LawfulEqCmp.compare_eq_iff_eq,
      Std.LawfulEqCmp.compare_eq_iff_eq] at h'
    cases a; cases b
    simp_all

/-- The written form of an identity. Identities of different groups can share it. -/
def text (id : StageId) : String := id.group ++ "." ++ id.label

end StageId

namespace Stage

/-- A stage outside of a pipeline. The label is the name unless one is given, and the ends of its
bindings, if given, take the place of parameters of the same key. -/
def make (name : String) (label : Option String) (parameters : Properties)
    (input output : Option String) : Stage where
  name := name
  label := label.getD name
  group := ""
  parameters := (parameters.insertSome Key.input input).insertSome Key.output output

def parameter? (s : Stage) (key : String) : Option String := s.parameters.get? key

def hasInput (s : Stage) : Bool := s.parameters.contains Key.input

def hasOutput (s : Stage) : Bool := s.parameters.contains Key.output

def setParameter (s : Stage) (key value : String) : Stage :=
  { s with parameters := s.parameters.insert key value }

/-- The stage as part of a pipeline. -/
def regroup (s : Stage) (group : String) : Stage := { s with group := group }

/-- How a stage is shown: by its label and name, or by its name alone if they are the same. -/
def title (s : Stage) : String :=
  if s.label = s.name then s.name else s.label ++ ": " ++ s.name

def id (s : Stage) : StageId := ⟨s.group, s.label⟩

/-- The role of a stage, told by its bindings. -/
def role (s : Stage) : Except Fault Role :=
  match Role.ofFlow? s.hasInput s.hasOutput with
  | some r => .ok r
  | none => .error (.ambiguousRole s.label)

/-! ## Laws -/

@[simp] theorem regroup_label (s : Stage) (g : String) : (s.regroup g).label = s.label := rfl

@[simp] theorem regroup_group (s : Stage) (g : String) : (s.regroup g).group = g := rfl

theorem regroup_self (s : Stage) : s.regroup s.group = s := rfl

theorem role_eq_ok_iff {s : Stage} {r : Role} :
    s.role = .ok r ↔ s.hasInput = r.consumes ∧ s.hasOutput = r.produces := by
  rw [← Role.ofFlow?_eq_some_iff, role]
  split <;> simp_all

end Stage

end Rollout
