-- Pipelines that documents give. What a document says of a name, a text and stages is told field by
-- field; the document is read as the pipeline that is built of them, or with the fault of building
-- it, and in no other way does it give a pipeline or such a fault.
import Rollout.Proofs.RecordFields

namespace Rollout

open Document Rollout.Text

/-! ## What a document gives -/

def Stage.fieldNames : List String := ["name", "label", "group", "parameters"]

def PipelineDraft.fieldNames : List String := ["name", "text", "stages"]

/-- A JSON value gives a stage. Its name and its label are there; a group that is left out is
empty, and so are parameters. -/
structure GivesStage (j : Json) (s : Stage) : Prop where
  record : IsRecord Stage.fieldNames j
  name : HasField Stage.fieldNames "name" j s.name
  label : HasField Stage.fieldNames "label" j s.label
  group : HasFieldOr "" Stage.fieldNames "group" j s.group
  parameters : HasFieldOr ∅ Stage.fieldNames "parameters" j s.parameters

/-- A JSON value gives a name, a text and stages. The name and an array of stages are there; a text
that is left out is empty. -/
structure GivesDraft (j : Json) (d : PipelineDraft) : Prop where
  record : IsRecord PipelineDraft.fieldNames j
  name : HasField PipelineDraft.fieldNames "name" j d.name
  text : HasFieldOr "" PipelineDraft.fieldNames "text" j d.text
  stages : ∃ elements, Gives PipelineDraft.fieldNames "stages" j (.array elements) ∧
    List.Forall₂ GivesStage elements d.stages

theorem ofJson?_stage_eq_some_iff {j : Json} {s : Stage} : ofJson? j = some s ↔ GivesStage j s := by
  have hnames : Stage.fieldNames.Nodup := by decide
  refine (fields?_bind_eq_some_iff hnames).trans ?_
  show IsRecord Stage.fieldNames j ∧
    (do
      let name ← required (field? Stage.fieldNames "name" j)
      let label ← required (field? Stage.fieldNames "label" j)
      let group ← defaulted "" (field? Stage.fieldNames "group" j)
      let parameters ← defaulted ∅ (field? Stage.fieldNames "parameters" j)
      return (⟨name, label, group, parameters⟩ : Stage)) = some s ↔ GivesStage j s
  constructor
  · rintro ⟨hrecord, hs⟩
    simp only [Option.bind_eq_bind, Option.bind_eq_some_iff, Option.pure_def, Option.some.injEq]
      at hs
    obtain ⟨name, hname, label, hlabel, group, hgroup, parameters, hparameters, rfl⟩ := hs
    exact ⟨hrecord, (required_eq_some_iff hrecord (by decide)).1 hname,
      (required_eq_some_iff hrecord (by decide)).1 hlabel,
      (defaulted_eq_some_iff hrecord (by decide)).1 hgroup,
      (defaulted_eq_some_iff hrecord (by decide)).1 hparameters⟩
  · rintro ⟨hrecord, hname, hlabel, hgroup, hparameters⟩
    refine ⟨hrecord, ?_⟩
    rw [(required_eq_some_iff hrecord (by decide)).2 hname,
      (required_eq_some_iff hrecord (by decide)).2 hlabel,
      (defaulted_eq_some_iff hrecord (by decide)).2 hgroup,
      (defaulted_eq_some_iff hrecord (by decide)).2 hparameters]
    rfl

theorem hasField_stages_iff {j : Json} {stages : List Stage} :
    HasField PipelineDraft.fieldNames "stages" j stages ↔
      ∃ elements, Gives PipelineDraft.fieldNames "stages" j (.array elements) ∧
        List.Forall₂ GivesStage elements stages := by
  unfold HasField
  simp only [ofJson?_list_eq_some_iff, ofJson?_stage_eq_some_iff]
  constructor
  · rintro ⟨_, hgives, elements, rfl, hstages⟩
    exact ⟨elements, hgives, hstages⟩
  · rintro ⟨elements, hgives, hstages⟩
    exact ⟨_, hgives, elements, rfl, hstages⟩

theorem ofJson?_draft_eq_some_iff {j : Json} {d : PipelineDraft} :
    ofJson? j = some d ↔ GivesDraft j d := by
  have hnames : PipelineDraft.fieldNames.Nodup := by decide
  refine (fields?_bind_eq_some_iff hnames).trans ?_
  show IsRecord PipelineDraft.fieldNames j ∧
    (do
      let name ← required (field? PipelineDraft.fieldNames "name" j)
      let text ← defaulted "" (field? PipelineDraft.fieldNames "text" j)
      let stages ← required (field? PipelineDraft.fieldNames "stages" j)
      return (⟨name, text, stages⟩ : PipelineDraft)) = some d ↔ GivesDraft j d
  constructor
  · rintro ⟨hrecord, hd⟩
    simp only [Option.bind_eq_bind, Option.bind_eq_some_iff, Option.pure_def, Option.some.injEq]
      at hd
    obtain ⟨name, hname, text, htext, stages, hstages, rfl⟩ := hd
    exact ⟨hrecord, (required_eq_some_iff hrecord (by decide)).1 hname,
      (defaulted_eq_some_iff hrecord (by decide)).1 htext,
      hasField_stages_iff.1 ((required_eq_some_iff hrecord (by decide)).1 hstages)⟩
  · rintro ⟨hrecord, hname, htext, hstages⟩
    refine ⟨hrecord, ?_⟩
    rw [(required_eq_some_iff hrecord (by decide)).2 hname,
      (defaulted_eq_some_iff hrecord (by decide)).2 htext,
      (required_eq_some_iff hrecord (by decide)).2 (hasField_stages_iff.2 hstages)]
    rfl

/-! ## What a pipeline is read from -/

namespace Pipeline

theorem mapError_eq_ok_iff {ε ε' α : Type} {x : Except ε α} {f : ε → ε'} {a : α} :
    x.mapError f = .ok a ↔ x = .ok a := by
  cases x <;> simp [Except.mapError]

theorem mapError_invalid_iff {x : Except PipelineFault Pipeline} {fault : PipelineFault} :
    x.mapError DocumentFault.invalid = .error (.invalid fault) ↔ x = .error fault := by
  cases x <;> simp [Except.mapError]

theorem ofJson_of_givesDraft {j : Json} {d : PipelineDraft} (h : GivesDraft j d) :
    ofJson j = (build d.name d.text d.stages).mapError .invalid := by
  unfold ofJson ofDraft
  rw [ofJson?_draft_eq_some_iff.2 h]
  cases hbuild : build d.name d.text d.stages with
  | error fault => simp only [hbuild, Except.mapError]
  | ok p => simp only [hbuild, Except.mapError]

/-- A JSON value gives a name, a text and stages, or it is malformed, whatever else is in it. -/
theorem ofJson_cases (j : Json) :
    ofJson j = .error .malformed ∨
      ∃ d, GivesDraft j d ∧ ofJson j = (build d.name d.text d.stages).mapError .invalid := by
  cases hd : (ofJson? j : Option PipelineDraft) with
  | none =>
    left
    unfold ofJson
    rw [hd]
  | some d =>
    have hgives := ofJson?_draft_eq_some_iff.1 hd
    exact Or.inr ⟨d, hgives, ofJson_of_givesDraft hgives⟩

theorem ofJson_eq_ok_iff {j : Json} {p : Pipeline} :
    ofJson j = .ok p ↔ ∃ d, GivesDraft j d ∧ build d.name d.text d.stages = .ok p := by
  constructor
  · intro h
    rcases ofJson_cases j with hj | ⟨d, hd, hj⟩
    · rw [hj] at h
      cases h
    · rw [hj] at h
      exact ⟨d, hd, mapError_eq_ok_iff.1 h⟩
  · rintro ⟨d, hd, hbuild⟩
    rw [ofJson_of_givesDraft hd]
    exact mapError_eq_ok_iff.2 hbuild

theorem ofJson_eq_invalid_iff {j : Json} {fault : PipelineFault} :
    ofJson j = .error (.invalid fault) ↔
      ∃ d, GivesDraft j d ∧ build d.name d.text d.stages = .error fault := by
  constructor
  · intro h
    rcases ofJson_cases j with hj | ⟨d, hd, hj⟩
    · rw [hj] at h
      cases h
    · rw [hj] at h
      exact ⟨d, hd, mapError_invalid_iff.1 h⟩
  · rintro ⟨d, hd, hbuild⟩
    rw [ofJson_of_givesDraft hd]
    exact mapError_invalid_iff.2 hbuild

theorem ofDocument_eq_ok_iff {text : String} {p : Pipeline} :
    ofDocument text = .ok p ↔
      ∃ j d, Json.parse? text = some j ∧ GivesDraft j d ∧
        build d.name d.text d.stages = .ok p := by
  constructor
  · intro h
    unfold ofDocument at h
    split at h
    · next j hj =>
      obtain ⟨d, hd, hbuild⟩ := ofJson_eq_ok_iff.1 h
      exact ⟨j, d, hj, hd, hbuild⟩
    · split at h
      · cases h
      · split at h
        · cases h
        · cases h
  · rintro ⟨j, d, hj, hd, hbuild⟩
    unfold ofDocument
    rw [hj]
    exact ofJson_eq_ok_iff.2 ⟨d, hd, hbuild⟩

/-- A record is an array or an object, so a text that is one also begins with it. -/
theorem leading?_of_isRecord {text : String} {names : List String} {j : Json}
    (h : Json.parse? text = some j) (hrecord : IsRecord names j) : Json.leading? text = some j := by
  have hdelimited : j.isDelimited = true := by
    cases hrecord <;> rfl
  have hleading := Json.leading?_append h hdelimited ""
  rwa [String.append_empty] at hleading

theorem ofDocument_eq_invalid_iff {text : String} {fault : PipelineFault} :
    ofDocument text = .error (.invalid fault) ↔
      ∃ j d, Json.leading? text = some j ∧ GivesDraft j d ∧
        build d.name d.text d.stages = .error fault := by
  constructor
  · intro h
    unfold ofDocument at h
    split at h
    · next j hj =>
      obtain ⟨d, hd, hbuild⟩ := ofJson_eq_invalid_iff.1 h
      exact ⟨j, d, leading?_of_isRecord hj hd.record, hd, hbuild⟩
    · split at h
      · cases h
      · next j hj =>
        split at h
        · next hfault =>
          cases h
          obtain ⟨d, hd, hbuild⟩ := ofJson_eq_invalid_iff.1 hfault
          exact ⟨j, d, hj, hd, hbuild⟩
        · cases h
  · rintro ⟨j, d, hj, hd, hbuild⟩
    have hfault := ofJson_eq_invalid_iff.2 ⟨d, hd, hbuild⟩
    unfold ofDocument
    cases hparse : Json.parse? text with
    | some j' =>
      rw [← Json.eq_of_leading? hparse hj]
      exact hfault
    | none => simp only [hj, hfault]

/-! ## The law -/

/-- A document is read as a pipeline exactly if it gives a name, a text and stages of which one is
built, and then as that one: the name can be seen, there are stages, their labels differ, and the
stages are in the group of that name, in whichever groups the document has them. What building
reports of what a document gives is the fault of the document, and only so does a document have
such a fault, also if something follows what it begins with. -/
theorem documents_are_read_by_building (text : String) :
    (∀ p, ofDocument text = .ok p ↔
      ∃ j d, Json.parse? text = some j ∧ GivesDraft j d ∧
        build d.name d.text d.stages = .ok p) ∧
    (∀ p, ofDocument text = .ok p →
      isBlankText p.name = false ∧
      ∃ j d, Json.parse? text = some j ∧ GivesDraft j d ∧
        d.stages ≠ [] ∧ (d.stages.map Stage.label).Nodup ∧
        p.name = d.name ∧ p.text = d.text ∧ p.stages = d.stages.map (·.regroup p.name)) ∧
    (∀ j d, Json.parse? text = some j → GivesDraft j d →
      ∀ group, ofDocument text =
        (build d.name d.text (d.stages.map (·.regroup group))).mapError .invalid) ∧
    ∀ fault, ofDocument text = .error (.invalid fault) ↔
      ∃ j d, Json.leading? text = some j ∧ GivesDraft j d ∧
        build d.name d.text d.stages = .error fault := by
  refine ⟨fun p => ofDocument_eq_ok_iff, fun p hp => ⟨p.name_visible, ?_⟩,
    fun j d hj hd group => ?_, fun fault => ofDocument_eq_invalid_iff⟩
  · obtain ⟨j, d, hj, hd, hbuild⟩ := ofDocument_eq_ok_iff.1 hp
    obtain ⟨hname, htext, hstages⟩ := build_eq_ok_iff.1 hbuild
    have hne : d.stages ≠ [] := by
      intro hnil
      rw [hnil] at hstages
      exact p.stages_ne_nil hstages
    have hlabels := p.labels_nodup
    rw [hstages, List.map_map] at hlabels
    rw [← hname] at hstages
    exact ⟨j, d, hj, hd, hne, hlabels, hname, htext, hstages⟩
  · rw [build_regroup, ofDocument, hj]
    exact ofJson_of_givesDraft hd

example :
    (ofDocument "[\"line\",\"\",[[\"time\",\"t\",\"elsewhere\"]]]").toOption.map stages =
      some [⟨"time", "t", "line", ∅⟩] := by
  decide +kernel

end Pipeline

end Rollout
