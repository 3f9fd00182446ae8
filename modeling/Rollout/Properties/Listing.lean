-- Properties written as a list: `key=value`, with a comma between neighbours. A piece between
-- commas that has no equals sign goes on with the value before it, so values may hold commas.
-- The white space around keys and values does not count.
import Rollout.Fault
import Rollout.Properties.Basic
import Rollout.Text.Blank
import Rollout.Text.Pieces

namespace Rollout.Properties

open Rollout.Text

/-- The pieces before the first one with an equals sign, and then the groups of pieces: each
begins at a piece with an equals sign and goes on with the pieces without one. -/
def groups : List (List Char) → List (List Char) × List (List (List Char))
  | [] => ([], [])
  | piece :: rest =>
    let (lead, later) := groups rest
    if '=' ∈ piece then ([], (piece :: lead) :: later) else (piece :: lead, later)

/-- The trimmed key and value of an entry, cut at its first equals sign. The fault of an entry
without a key gives the entry. -/
def entry (written : List Char) : Except Fault (String × String) :=
  let trimmed := trimChars written
  let (key, value) := (cut? '=' trimmed).getD (trimmed, [])
  if trimChars key = [] then .error (.invalidProperty "" "" (String.ofList trimmed))
  else .ok (String.ofList (trimChars key), String.ofList (trimChars value))

/-- Reads a list of properties. Of entries with the same key the last one counts. -/
def ofListing (text : String) : Except Fault Properties :=
  if isBlankText text then .ok ∅
  else
    match groups (pieces ',' text.toList) with
    | (stray :: _, _) => .error (.invalidProperty "" (trim (String.ofList stray)) "")
    | ([], entries) => do
      let pairs ← entries.mapM fun group => entry (join ',' group)
      return SortedMap.ofList pairs

def listing (pairs : List (String × String)) : String :=
  String.ofList (join ',' (pairs.map fun e => e.1.toList ++ '=' :: e.2.toList))

/-! ## Laws -/

/-- No piece is lost, and the pieces stay in order. -/
theorem groups_flatten (ps : List (List Char)) :
    (groups ps).1 ++ (groups ps).2.flatten = ps := by
  induction ps with
  | nil => rfl
  | cons p ps ih =>
    unfold groups
    split
    next lead later h =>
    rw [h] at ih
    split <;> simp_all

/-- The leading pieces have no equals sign. -/
theorem notMem_of_mem_groups_lead {ps : List (List Char)} {p : List Char}
    (h : p ∈ (groups ps).1) : '=' ∉ p := by
  induction ps with
  | nil => simp [groups] at h
  | cons q ps ih =>
    unfold groups at h
    split at h
    next lead later hg =>
    rw [hg] at ih
    split at h
    · simp at h
    · rcases List.mem_cons.1 h with rfl | h
      · assumption
      · exact ih h

end Rollout.Properties
