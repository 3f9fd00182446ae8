-- Overrides for the stages of a pipeline. A key with the scope of a label speaks to the stage of
-- that label, one with the scope of the wildcard to every stage; the label has the last word.
import Rollout.Properties.Basic
import Rollout.Text.Pieces

namespace Rollout

open Rollout.Text

namespace Scope

/-- What stands for every label. -/
def wildcard : String := "*"

/-- How the keys of overrides begin, unless the configuration says otherwise. -/
def defaultLead : String := "stage"

def opening (lead label : String) : String := lead ++ "." ++ label ++ "."

/-- The key of an override without the scope, if it has that scope. -/
def key? (lead label : String) (key : String) : Option String :=
  (after? (opening lead label).toList key.toList).map String.ofList

/-- The overrides of one scope, under keys without the scope. -/
def pick (lead label : String) (overrides : Properties) : List (String × String) :=
  overrides.toList.filterMap fun e => (key? lead label e.1).map fun k => (k, e.2)

end Scope

/-- The overrides that apply to the stage of a label. -/
def Properties.merge (lead label : String) (overrides : Properties) : Properties :=
  SortedMap.ofList (Scope.pick lead Scope.wildcard overrides ++ Scope.pick lead label overrides)

/-! ## Laws -/

namespace Scope

/-- A key has a scope exactly if it is the opening of that scope with what is left after it. -/
theorem key?_eq_some_iff {lead label key rest : String} :
    key? lead label key = some rest ↔ key = opening lead label ++ rest := by
  unfold key?
  rw [Option.map_eq_some_iff, ← String.toList_inj, String.toList_append]
  constructor
  · rintro ⟨cs, hcs, rfl⟩
    rw [String.toList_ofList]
    exact after?_eq_some_iff.1 hcs
  · intro h
    exact ⟨rest.toList, after?_eq_some_iff.2 h, String.ofList_toList⟩

/-- An override is picked for a scope under what is left of its key after the opening. -/
theorem mem_pick {lead label : String} {overrides : Properties} {k v : String} :
    (k, v) ∈ pick lead label overrides ↔ overrides.get? (opening lead label ++ k) = some v := by
  unfold pick
  rw [List.mem_filterMap, SortedMap.get?_eq_some_iff]
  constructor
  · rintro ⟨⟨key, value⟩, hmem, hpicked⟩
    obtain ⟨rest, hrest, heq⟩ := Option.map_eq_some_iff.1 hpicked
    cases heq
    rw [← key?_eq_some_iff.1 hrest]
    exact hmem
  · intro hmem
    refine ⟨_, hmem, Option.map_eq_some_iff.2 ⟨k, ?_, rfl⟩⟩
    exact key?_eq_some_iff.2 rfl

end Scope

/-- What applies to a stage under a key is what its label says of that key, and else what the
wildcard says of it. -/
theorem Properties.get?_merge (lead label : String) (overrides : Properties) (k : String) :
    (overrides.merge lead label).get? k =
      (overrides.get? (Scope.opening lead label ++ k)).or
        (overrides.get? (Scope.opening lead Scope.wildcard ++ k)) := by
  unfold merge SortedMap.ofList
  rw [SortedMap.insertAll_append, SortedMap.get?_insertAll_of_iff (fun _ _ => Scope.mem_pick),
    SortedMap.get?_insertAll_of_iff (fun _ _ => Scope.mem_pick), SortedMap.get?_empty,
    Option.or_none]

end Rollout
