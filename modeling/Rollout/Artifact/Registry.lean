-- The registry of artifacts, as it answers. It knows at most one place for each name and kind, and
-- lists what it knows by name and then by kind. How registrations are kept in memory is told by
-- `ArtifactStore`.
import Rollout.Artifact.Coordinates
import Rollout.SortedMap

namespace Rollout

/-- What an artifact is registered under. -/
structure ArtifactKey where
  name : String
  kind : ArtifactKind
  deriving DecidableEq, Inhabited

namespace ArtifactKey

/-- Keys are ordered by name and then by kind. -/
instance : Ord ArtifactKey := ⟨compareLex (compareOn name) (compareOn kind)⟩

instance : Std.TransOrd ArtifactKey :=
  inferInstanceAs (Std.TransCmp (compareLex (compareOn name) (compareOn kind)))

instance : Std.LawfulEqOrd ArtifactKey where
  eq_of_compare {a b} h := by
    have h' : (compare a.name b.name).then (compare a.kind b.kind) = .eq := h
    rw [Ordering.then_eq_eq, Std.LawfulEqCmp.compare_eq_iff_eq,
      Std.LawfulEqCmp.compare_eq_iff_eq] at h'
    cases a; cases b
    simp_all

end ArtifactKey

structure Registration where
  name : String
  kind : ArtifactKind
  coordinates : Coordinates
  deriving DecidableEq, Inhabited

structure Registry where
  entries : SortedMap ArtifactKey Coordinates
  deriving DecidableEq

namespace Registry

def empty : Registry := ⟨∅⟩

instance : EmptyCollection Registry := ⟨empty⟩

instance : Inhabited Registry := ⟨empty⟩

/-- Where the artifact of a name and kind is found. -/
def coordinates? (r : Registry) (name : String) (kind : ArtifactKind) : Option Coordinates :=
  r.entries.get? ⟨name, kind⟩

def find? (r : Registry) (name : String) (kind : ArtifactKind) : Option Registration :=
  (r.coordinates? name kind).map fun c => ⟨name, kind, c⟩

/-- Registers an artifact, in place of what its name and kind stood for. -/
def register (r : Registry) (entry : Registration) : Registry :=
  ⟨r.entries.insert ⟨entry.name, entry.kind⟩ entry.coordinates⟩

/-- Forgets what a name and kind stand for. -/
def unregister (r : Registry) (name : String) (kind : ArtifactKind) : Registry :=
  ⟨r.entries.erase ⟨name, kind⟩⟩

/-- Registers an artifact, and gives the registration that it takes the place of. -/
def replace (r : Registry) (entry : Registration) : Option Registration × Registry :=
  let (found, entries) := r.entries.getThenInsert ⟨entry.name, entry.kind⟩ entry.coordinates
  (found.map fun c => ⟨entry.name, entry.kind, c⟩, ⟨entries⟩)

/-- Forgets what a name and kind stand for, and gives it. -/
def remove (r : Registry) (name : String) (kind : ArtifactKind) :
    Option Registration × Registry :=
  let (found, entries) := r.entries.getThenErase ⟨name, kind⟩
  (found.map fun c => ⟨name, kind, c⟩, ⟨entries⟩)

def toList (r : Registry) : List Registration :=
  r.entries.toList.map fun e => ⟨e.1.name, e.1.kind, e.2⟩

/-- Everything registered, of one kind if one is given, by name and then by kind. -/
def list (r : Registry) : Option ArtifactKind → List Registration
  | none => r.toList
  | some kind => r.toList.filter (·.kind = kind)

def size (r : Registry) : Nat := r.entries.size

def isEmpty (r : Registry) : Bool := r.entries.isEmpty

/-- The registry of artifacts registered one after the other. -/
def ofList (entries : List Registration) : Registry :=
  entries.foldl register ∅

/-! ## Laws -/

theorem coordinates?_register (r : Registry) (entry : Registration) (name : String)
    (kind : ArtifactKind) :
    (r.register entry).coordinates? name kind =
      if name = entry.name ∧ kind = entry.kind then some entry.coordinates
      else r.coordinates? name kind := by
  simp [coordinates?, register, SortedMap.get?_insert]

theorem coordinates?_unregister (r : Registry) (name name' : String) (kind kind' : ArtifactKind) :
    (r.unregister name' kind').coordinates? name kind =
      if name = name' ∧ kind = kind' then none else r.coordinates? name kind := by
  simp [coordinates?, unregister, SortedMap.get?_erase]

theorem replace_eq (r : Registry) (entry : Registration) :
    r.replace entry = (r.find? entry.name entry.kind, r.register entry) := by
  unfold replace
  rw [SortedMap.getThenInsert_eq]
  rfl

theorem remove_eq (r : Registry) (name : String) (kind : ArtifactKind) :
    r.remove name kind = (r.find? name kind, r.unregister name kind) := by
  unfold remove
  rw [SortedMap.getThenErase_eq]
  rfl

end Registry

end Rollout
