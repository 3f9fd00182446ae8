-- What it takes to make a pipeline, and what is made. A name one can see, some stage and a label of
-- its own for each are all that is asked; whatever is wrong is told in this order, and of several
-- stages whose label came before, the earliest is told.
import Rollout.Pipeline.Basic
import Rollout.Proofs.Traversal

namespace Rollout

open Rollout.Text

namespace Pipeline

variable {name text : String} {stages : List Stage} {p : Pipeline} {fault : PipelineFault}

/-! ## What is made -/

/-- A pipeline is what stages make under a name: it has them all, in their order and each as it was
but for its group, and it finds every one of them by its label. -/
structure IsBuiltOf (p : Pipeline) (name text : String) (stages : List Stage) : Prop where
  name_eq : p.name = name
  text_eq : p.text = text
  stages_eq : p.stages = stages.map fun s => { s with group := name }
  deployOrder_eq : p.deployOrder = p.stages.reverse
  stage?_eq_some_iff : ∀ label s, p.stage? label = some s ↔ s ∈ p.stages ∧ s.label = label

theorem isBuiltOf_of_build (h : build name text stages = .ok p) : IsBuiltOf p name text stages := by
  obtain ⟨hname, htext, hstages⟩ := build_eq_ok_iff.1 h
  exact
    { name_eq := hname
      text_eq := htext
      stages_eq := hstages
      deployOrder_eq := rfl
      stage?_eq_some_iff := fun _ _ => Traversal.find?_eq_some_iff_of_nodup p.labels_nodup }

theorem exists_build_iff :
    (∃ p, build name text stages = .ok p) ↔
      trim name ≠ "" ∧ stages ≠ [] ∧ (stages.map Stage.label).Nodup := by
  constructor
  · rintro ⟨p, hp⟩
    obtain ⟨rfl, _, hstages⟩ := build_eq_ok_iff.1 hp
    have hlabels : stages.map Stage.label = p.stages.map Stage.label := by
      rw [hstages, List.map_map]
      rfl
    refine ⟨trim_ne_empty_iff.2 p.name_visible, ?_, hlabels ▸ p.labels_nodup⟩
    rintro rfl
    exact p.stages_ne_nil hstages
  · rintro ⟨hname, hstages, hlabels⟩
    cases hbuild : build name text stages with
    | ok p => exact ⟨p, rfl⟩
    | error fault =>
      rcases build_eq_error_iff.1 hbuild with ⟨hblank, _⟩ | ⟨_, ⟨hnil, _⟩ | ⟨label, hrepeat, _⟩⟩
      · exact absurd (trim_eq_empty_iff.2 hblank) hname
      · exact absurd hnil hstages
      · have hnone := firstRepeat?_eq_none_iff.2 ⟨hlabels, fun _ _ => List.not_mem_nil⟩
        rw [hnone] at hrepeat
        cases hrepeat

/-! ## What is wrong -/

/-- The stage is the earliest whose label a stage before it has. -/
def IsFirstRepeat (stages : List Stage) (s : Stage) : Prop :=
  ∃ before after, stages = before ++ s :: after ∧ (∃ t ∈ before, t.label = s.label) ∧
    (before.map Stage.label).Nodup

theorem firstRepeat?_labels_eq_some_iff {label : String} :
    firstRepeat? [] (stages.map Stage.label) = some label ↔
      ∃ s, IsFirstRepeat stages s ∧ s.label = label := by
  rw [firstRepeat?_eq_some_iff]
  constructor
  · rintro ⟨before, after, hlabels, hmem, hnodup, _⟩
    obtain ⟨early, late, rfl, rfl, hlate⟩ := List.map_eq_append_iff.1 hlabels
    obtain ⟨s, later, rfl, rfl, rfl⟩ := List.map_eq_cons_iff.1 hlate
    have hearlier : ∃ t ∈ early, t.label = s.label := by simpa using hmem
    exact ⟨s, ⟨early, later, rfl, hearlier, hnodup⟩, rfl⟩
  · rintro ⟨s, ⟨before, after, rfl, hearlier, hnodup⟩, rfl⟩
    have hmem : s.label ∈ before.map Stage.label := List.mem_map.2 hearlier
    exact ⟨before.map Stage.label, after.map Stage.label, by simp, Or.inr hmem, hnodup, by simp⟩

theorem IsFirstRepeat.ne_nil {s : Stage} (h : IsFirstRepeat stages s) : stages ≠ [] := by
  obtain ⟨before, after, rfl, _, _⟩ := h
  simp

theorem build_eq_error_iff_isFirstRepeat :
    build name text stages = .error fault ↔
      (trim name = "" ∧ fault = .blankName) ∨
      (trim name ≠ "" ∧ stages = [] ∧ fault = .noStages name) ∨
      (trim name ≠ "" ∧ stages ≠ [] ∧
        ∃ s, IsFirstRepeat stages s ∧ fault = .repeatedLabel s.label name) := by
  rw [build_eq_error_iff, ← trim_ne_empty_iff, ← trim_eq_empty_iff]
  refine or_congr_right ?_
  rw [← and_or_left]
  refine and_congr_right fun _ => or_congr_right ?_
  constructor
  · rintro ⟨label, hlabel, rfl⟩
    obtain ⟨s, hs, rfl⟩ := firstRepeat?_labels_eq_some_iff.1 hlabel
    exact ⟨hs.ne_nil, s, hs, rfl⟩
  · rintro ⟨_, s, hs, rfl⟩
    exact ⟨s.label, firstRepeat?_labels_eq_some_iff.2 ⟨s, hs, rfl⟩, rfl⟩

/-! ## The law -/

/-- Stages make a pipeline under a name exactly if the name is more than white space, there is a
stage, and no two stages share a label; the pipeline has all of them as they were. If not, a blank
name is told before a lack of stages, and that before a label that is used again: the label of the
earliest stage that has the label of one before it. The message names that label, and the fault
lists it alone. -/
theorem building_needs_name_stages_and_labels (name text : String) (stages : List Stage) :
    ((∃ p, build name text stages = .ok p) ↔
      trim name ≠ "" ∧ stages ≠ [] ∧ (stages.map Stage.label).Nodup) ∧
    (∀ p, build name text stages = .ok p → IsBuiltOf p name text stages) ∧
    ∀ fault, build name text stages = .error fault ↔
      (trim name = "" ∧ fault = .blankName) ∨
      (trim name ≠ "" ∧ stages = [] ∧ fault = .noStages name) ∨
      (trim name ≠ "" ∧ stages ≠ [] ∧ ∃ s, IsFirstRepeat stages s ∧
        fault = .repeatedLabel s.label name ∧ fault.labels = [s.label] ∧
        fault.message = "Label '" ++ s.label ++
          "' is used by more than one stage in pipeline '" ++ name ++ "'") := by
  refine ⟨exists_build_iff, fun p => isBuiltOf_of_build, fun fault => ?_⟩
  rw [build_eq_error_iff_isFirstRepeat]
  refine or_congr_right (or_congr_right (and_congr_right fun _ => and_congr_right fun _ => ?_))
  refine exists_congr fun s => and_congr_right fun _ => ?_
  constructor
  · rintro rfl
    exact ⟨rfl, rfl, rfl⟩
  · exact fun h => h.1

end Pipeline

end Rollout
