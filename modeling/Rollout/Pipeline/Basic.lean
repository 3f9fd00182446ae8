-- Pipelines: stages in the order in which data flows, under a name. A pipeline has a name one can
-- see, at least one stage, and a label of its own for each stage, and its stages know its name.
-- Stages are deployed against the flow, so that whoever takes data is there before it comes.
import Rollout.Pipeline.Stage
import Rollout.Text.Blank

namespace Rollout

open Rollout.Text

structure Pipeline where
  name : String
  /-- What the pipeline was written as. -/
  text : String
  /-- The stages, in the order in which data flows. -/
  stages : List Stage
  name_visible : isBlankText name = false
  stages_ne_nil : stages ≠ []
  labels_nodup : (stages.map Stage.label).Nodup
  group_eq : ∀ s ∈ stages, s.group = name
  deriving DecidableEq

namespace Pipeline

/-- The first entry of a list that is among those seen or stood in the list before. -/
def firstRepeat? {α : Type} [DecidableEq α] (seen : List α) : List α → Option α
  | [] => none
  | x :: xs => if x ∈ seen then some x else firstRepeat? (x :: seen) xs

theorem firstRepeat?_eq_none_iff {α : Type} [DecidableEq α] {seen xs : List α} :
    firstRepeat? seen xs = none ↔ xs.Nodup ∧ ∀ x ∈ xs, x ∉ seen := by
  induction xs generalizing seen with
  | nil => simp [firstRepeat?]
  | cons x xs ih =>
    by_cases h : x ∈ seen
    · simp [firstRepeat?, h]
    · simp only [firstRepeat?, h, if_false, ih, List.nodup_cons, List.mem_cons, not_or]
      grind

/-- What is found is the first entry that is among those seen or stands in the list before it. -/
theorem firstRepeat?_eq_some_iff {α : Type} [DecidableEq α] {seen xs : List α} {x : α} :
    firstRepeat? seen xs = some x ↔
      ∃ before after, xs = before ++ x :: after ∧ (x ∈ seen ∨ x ∈ before) ∧ before.Nodup ∧
        ∀ y ∈ before, y ∉ seen := by
  induction xs generalizing seen with
  | nil => simp [firstRepeat?]
  | cons a xs ih =>
    by_cases h : a ∈ seen
    · simp only [firstRepeat?, h, if_true]
      constructor
      · rintro ⟨⟩
        exact ⟨[], xs, rfl, Or.inl h, List.nodup_nil, by simp⟩
      · rintro ⟨before, after, hxs, _, _, hfresh⟩
        cases before with
        | nil =>
          cases hxs
          rfl
        | cons b before =>
          cases hxs
          exact absurd h (hfresh a List.mem_cons_self)
    · simp only [firstRepeat?, h, if_false, ih]
      constructor
      · rintro ⟨before, after, rfl, hx, hnodup, hfresh⟩
        exact ⟨a :: before, after, rfl, by grind, by grind, by grind⟩
      · rintro ⟨before, after, hxs, hx, hnodup, hfresh⟩
        cases before with
        | nil =>
          cases hxs
          simp [h] at hx
        | cons b before =>
          cases hxs
          exact ⟨before, after, rfl, by grind, by grind, by grind⟩

example : firstRepeat? [] ["time", "log", "log", "time"] = some "log" := by decide

/-- The pipeline of the given name and stages, whatever groups these stages were in. A name that
cannot be seen is reported before a lack of stages, and that before a repeated label. -/
def build (name text : String) (stages : List Stage) : Except PipelineFault Pipeline :=
  if visible : isBlankText name then .error .blankName
  else if some_stage : stages = [] then .error (.noStages name)
  else
    match fresh : firstRepeat? [] (stages.map Stage.label) with
    | some label => .error (.repeatedLabel label name)
    | none =>
      .ok
        { name := name
          text := text
          stages := stages.map (·.regroup name)
          name_visible := by simpa using visible
          stages_ne_nil := by simpa using some_stage
          labels_nodup := by
            simpa [Function.comp_def] using (firstRepeat?_eq_none_iff.1 fresh).1
          group_eq := by simp +contextual }

/-- The stages in the order of deployment: against the flow of data. -/
def deployOrder (p : Pipeline) : List Stage := p.stages.reverse

def size (p : Pipeline) : Nat := p.stages.length

def stage? (p : Pipeline) (label : String) : Option Stage :=
  p.stages.find? (·.label = label)

/-- The identities of the stages, in the order in which data flows. -/
def ids (p : Pipeline) : List StageId := p.stages.map Stage.id

/-! ## Laws -/

theorem ext_fields {p q : Pipeline} (hname : p.name = q.name) (htext : p.text = q.text)
    (hstages : p.stages = q.stages) : p = q := by
  cases p; cases q
  simp_all

/-- The stages of a pipeline are in its group already. -/
theorem regroup_stages (p : Pipeline) : p.stages.map (·.regroup p.name) = p.stages := by
  conv => rhs; rw [← List.map_id p.stages]
  refine List.map_congr_left fun s hs => ?_
  rw [← p.group_eq s hs]
  exact s.regroup_self

/-- What is built has the given name and text, and the given stages in its own group. As it is a
pipeline, nothing else can be built of them, and something is. -/
theorem build_eq_ok_iff {name text : String} {stages : List Stage} {p : Pipeline} :
    build name text stages = .ok p ↔
      p.name = name ∧ p.text = text ∧ p.stages = stages.map (·.regroup name) := by
  constructor
  · intro h
    unfold build at h
    split at h
    · cases h
    · split at h
      · cases h
      · split at h
        · cases h
        · cases h
          exact ⟨rfl, rfl, rfl⟩
  · rintro ⟨rfl, rfl, hstages⟩
    have hne : stages ≠ [] := by
      rintro rfl
      exact p.stages_ne_nil hstages
    have hlabels : stages.map Stage.label = p.stages.map Stage.label := by
      rw [hstages, List.map_map]
      rfl
    have hfresh : firstRepeat? [] (stages.map Stage.label) = none :=
      firstRepeat?_eq_none_iff.2 ⟨hlabels ▸ p.labels_nodup, by simp⟩
    unfold build
    rw [dif_neg (by simp [p.name_visible]), dif_neg hne]
    split
    · next label h => rw [hfresh] at h; cases h
    · exact congrArg Except.ok (ext_fields rfl rfl hstages.symm)

theorem build_eq_error_iff {name text : String} {stages : List Stage} {fault : PipelineFault} :
    build name text stages = .error fault ↔
      (isBlankText name = true ∧ fault = .blankName) ∨
        isBlankText name = false ∧
          ((stages = [] ∧ fault = .noStages name) ∨
            ∃ label, firstRepeat? [] (stages.map Stage.label) = some label ∧
              fault = .repeatedLabel label name) := by
  unfold build
  by_cases hname : isBlankText name = true
  · simp [hname, eq_comm]
  · by_cases hstages : stages = []
    · simp [hname, hstages, firstRepeat?, eq_comm]
    · rw [dif_neg hname, dif_neg hstages]
      split
      · next label h => simp [hname, hstages, h, eq_comm]
      · next h => simp [hname, hstages, h]

/-- The groups that stages were in before make no difference. -/
theorem build_regroup (name text group : String) (stages : List Stage) :
    build name text (stages.map (·.regroup group)) = build name text stages := by
  cases h : build name text stages with
  | error fault =>
    rw [build_eq_error_iff] at h ⊢
    simpa [Function.comp_def] using h
  | ok p =>
    rw [build_eq_ok_iff] at h ⊢
    simpa [Function.comp_def, Stage.regroup] using h

/-- Building a pipeline anew from its own parts changes nothing. -/
theorem build_self (p : Pipeline) : build p.name p.text p.stages = .ok p :=
  build_eq_ok_iff.2 ⟨rfl, rfl, p.regroup_stages.symm⟩

theorem ids_nodup (p : Pipeline) : p.ids.Nodup := by
  have h := p.labels_nodup
  rw [List.nodup_iff_pairwise_ne] at h ⊢
  rw [ids, List.pairwise_map]
  rw [List.pairwise_map] at h
  exact h.imp fun hne heq => hne (congrArg StageId.label heq)

end Pipeline

end Rollout
