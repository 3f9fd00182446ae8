-- What an artifact can be and what a stage can do. Every role has one kind of artifact that
-- fills it; a library fills none, stages include it.

namespace Rollout

inductive ArtifactKind where
  | source
  | processor
  | sink
  | library
  deriving DecidableEq, Inhabited

/-- What a stage does with data: make it, change it, or take it. -/
inductive Role where
  | source
  | processor
  | sink
  deriving DecidableEq, Inhabited

namespace ArtifactKind

def all : List ArtifactKind := [.source, .processor, .sink, .library]

def name : ArtifactKind → String
  | .source => "source"
  | .processor => "processor"
  | .sink => "sink"
  | .library => "library"

def rank : ArtifactKind → Nat
  | .source => 0
  | .processor => 1
  | .sink => 2
  | .library => 3

instance : Ord ArtifactKind := ⟨compareOn rank⟩

instance : Std.TransOrd ArtifactKind :=
  inferInstanceAs (Std.TransCmp (compareOn rank))

instance : Std.LawfulEqOrd ArtifactKind where
  eq_of_compare {a b} := by cases a <;> cases b <;> decide

end ArtifactKind

namespace Role

def all : List Role := [.source, .processor, .sink]

/-- The kind of the artifact that fills a role. -/
def kind : Role → ArtifactKind
  | .source => .source
  | .processor => .processor
  | .sink => .sink

/-- The name of a role is that of its artifact kind. -/
def name (r : Role) : String := r.kind.name

/-- Tells whether a stage of the role takes data. -/
def consumes : Role → Bool
  | .source => false
  | .processor => true
  | .sink => true

/-- Tells whether a stage of the role gives data. -/
def produces : Role → Bool
  | .source => true
  | .processor => true
  | .sink => false

/-- The role of a stage that takes data or not and gives data or not. -/
def ofFlow? (takes gives : Bool) : Option Role :=
  match takes, gives with
  | true, true => some .processor
  | true, false => some .sink
  | false, true => some .source
  | false, false => none

theorem kind_ne_library (r : Role) : r.kind ≠ .library := by
  cases r <;> decide

theorem ofFlow?_eq_some_iff {takes gives : Bool} {r : Role} :
    ofFlow? takes gives = some r ↔ takes = r.consumes ∧ gives = r.produces := by
  cases takes <;> cases gives <;> cases r <;> decide

end Role

end Rollout
