-- Documents read back. Whatever is written is read again as the value that it was written of, be
-- its texts as they may. A pipeline that is read is built anew from what the document gives, and
-- for a document that was written of a pipeline this changes nothing.
import Rollout.Document.Values
import Rollout.Json.RoundTrip

namespace Rollout

open Document

/-- Values that are read back from the JSON value they are written as. -/
class LawfulDocument (α : Type) [Document α] : Prop where
  ofJson?_toJson : ∀ a : α, ofJson? (toJson a) = some a

namespace Document

attribute [simp] LawfulDocument.ofJson?_toJson

/-- A lawful value is read back from its text. -/
theorem read?_write {α : Type} [Document α] [LawfulDocument α] (a : α) :
    read? (write a) = some a := by
  unfold read? write
  rw [Json.parse?_render]
  exact LawfulDocument.ofJson?_toJson a

/-! ## Records -/

theorem valuesOf_cons (name : String) (m : Literal × Json) (members : List (Literal × Json)) :
    valuesOf name (m :: members) =
      if m.1 = some name then m.2 :: valuesOf name members else valuesOf name members := by
  unfold valuesOf
  rw [List.filter_cons]
  by_cases h : m.1 = some name <;> simp [h]

/-- The members of a record with the given names and values. -/
def members (names : List String) (values : List Json) : List (Literal × Json) :=
  (names.zip values).map fun m => (some m.1, m.2)

theorem valuesOf_of_notMem {name : String} {names : List String} (h : name ∉ names)
    (values : List Json) : valuesOf name (members names values) = [] := by
  unfold valuesOf members
  rw [List.map_eq_nil_iff, List.filter_eq_nil_iff]
  intro m hm
  obtain ⟨⟨other, value⟩, hmem, rfl⟩ := List.mem_map.1 hm
  rw [decide_eq_true_iff, Option.some.injEq]
  rintro rfl
  exact h (List.of_mem_zip hmem).1

/-- A record of different names has the value of each name in its place. -/
theorem map_valuesOf_members {names : List String} (h : names.Nodup) {values : List Json}
    (hlength : names.length = values.length) :
    names.map (valuesOf · (members names values)) = values.map fun value => [value] := by
  induction names generalizing values with
  | nil =>
    rw [List.eq_nil_of_length_eq_zero hlength.symm]
    rfl
  | cons name names ih =>
    obtain ⟨value, values, rfl⟩ := List.exists_cons_of_length_eq_add_one hlength.symm
    rw [List.nodup_cons] at h
    have hmembers : members (name :: names) (value :: values) =
        (some name, value) :: members names values := rfl
    -- The names differ, so no later name finds the first member.
    have hlater : ∀ other ∈ names, valuesOf other (members (name :: names) (value :: values)) =
        valuesOf other (members names values) := by
      intro other hother
      rw [hmembers, valuesOf_cons, if_neg]
      rw [Option.some.injEq]
      rintro rfl
      exact h.1 hother
    rw [List.map_cons, List.map_cons, List.map_congr_left hlater,
      ih h.2 (Nat.succ.inj hlength), hmembers, valuesOf_cons, if_pos rfl,
      valuesOf_of_notMem h.1]

/-- The fields of a record of different names are its values. -/
theorem fields?_record (names : List String) (values : List Json) (h : names.Nodup)
    (hlength : names.length = values.length) :
    fields? names (.record (names.zip values)) = some (values.map some) := by
  have hvalues := map_valuesOf_members h hlength
  have hnamed : wellNamed names (members names values) := by
    unfold wellNamed
    rw [Bool.and_eq_true, List.all_eq_true, List.all_eq_true]
    constructor
    · intro m hm
      obtain ⟨_, _, rfl⟩ := List.mem_map.1 hm
      rfl
    · intro name hname
      have hmem : valuesOf name (members names values) ∈ values.map fun value => [value] := by
        rw [← hvalues]
        exact List.mem_map_of_mem hname
      obtain ⟨value, _, hvalue⟩ := List.mem_map.1 hmem
      rw [← hvalue]
      rfl
  show (if wellNamed names (members names values) then
    some (names.map fun name => (valuesOf name (members names values)).head?) else none) = _
  rw [if_pos hnamed]
  have hheads := congrArg (List.map List.head?) hvalues
  rw [List.map_map, List.map_map] at hheads
  exact congrArg some hheads

/-- A record of different names is read from its values. -/
theorem fields?_record_bind {α : Type} (names : List String) (values : List Json)
    (h : names.Nodup) (hlength : names.length = values.length)
    (f : List (Option Json) → Option α) :
    (fields? names (.record (names.zip values)) >>= f) = f (values.map some) := by
  rw [fields?_record names values h hlength]
  rfl

/-! ## Texts, truth values, lists and properties -/

instance : LawfulDocument String := ⟨fun _ => rfl⟩

instance : LawfulDocument Bool := ⟨fun _ => rfl⟩

instance {α : Type} [Document α] [LawfulDocument α] : LawfulDocument (List α) where
  ofJson?_toJson as := by
    show (as.map toJson).mapM ofJson? = some as
    induction as with
    | nil => rfl
    | cons a as ih => simp [ih]

theorem mapM_entry?_map (entries : List (String × String)) :
    (entries.map fun e => (some e.1, Json.ofText e.2)).mapM entry? = some entries := by
  induction entries with
  | nil => rfl
  | cons e entries ih =>
    rw [List.map_cons, List.mapM_cons, ih]
    rfl

instance : LawfulDocument Properties where
  ofJson?_toJson p := by
    show (((p.toList.map _).map _).mapM entry?).map SortedMap.ofList = some p
    rw [List.map_map]
    show ((p.toList.map fun e => (some e.1, Json.ofText e.2)).mapM entry?).map _ = _
    rw [mapM_entry?_map, Option.map_some, SortedMap.ofList_toList]

/-! ## Artifacts -/

instance : LawfulDocument ArtifactKind where
  ofJson?_toJson kind := by cases kind <;> decide

instance : LawfulDocument Role where
  ofJson?_toJson role := by cases role <;> decide

instance : LawfulDocument Coordinates where
  ofJson?_toJson c := by
    refine (fields?_record_bind ["group_id", "artifact_id", "extension", "classifier", "version"]
      [toJson c.group, toJson c.artifact, toJson c.extension, toJson c.classifier,
        toJson c.version] (by decide) rfl _).trans ?_
    simp [required, defaulted]

instance : LawfulDocument Registration where
  ofJson?_toJson r := by
    refine (fields?_record_bind ["name", "artifact_type", "coordinates"]
      [toJson r.name, toJson r.kind, toJson r.coordinates] (by decide) rfl _).trans ?_
    simp [required]

/-! ## Settings -/

instance : LawfulDocument Logging where
  ofJson?_toJson l := by
    refine (fields?_record_bind ["level", "json"] [toJson l.level, toJson l.json] (by decide) rfl
      _).trans ?_
    simp [defaulted]

instance : LawfulDocument Config where
  ofJson?_toJson c := by
    refine (fields?_record_bind
      ["property_prefix", "default_partition_key_expression", "includes_parameter", "logging"]
      [toJson c.propertyLead, toJson c.defaultKey, toJson c.includesParameter, toJson c.logging]
      (by decide) rfl _).trans ?_
    simp [defaulted]

/-! ## Stages, instructions and pipelines -/

instance : LawfulDocument StageId where
  ofJson?_toJson id := by
    refine (fields?_record_bind ["group", "label"] [toJson id.group, toJson id.label] (by decide)
      rfl _).trans ?_
    simp [required]

instance : LawfulDocument Stage where
  ofJson?_toJson s := by
    refine (fields?_record_bind ["name", "label", "group", "parameters"]
      [toJson s.name, toJson s.label, toJson s.group, toJson s.parameters] (by decide) rfl
      _).trans ?_
    simp [required, defaulted]

instance : LawfulDocument Instruction where
  ofJson?_toJson i := by
    refine (fields?_record_bind ["deployment_id", "stage", "role", "coordinates", "properties"]
      [toJson i.deploymentId, toJson i.stage, toJson i.role, toJson i.coordinates,
        toJson i.properties] (by decide) rfl _).trans ?_
    simp [required]

instance : LawfulDocument PipelineDraft where
  ofJson?_toJson p := by
    refine (fields?_record_bind ["name", "text", "stages"]
      [toJson p.name, toJson p.text, toJson p.stages] (by decide) rfl _).trans ?_
    simp [required, defaulted]

end Document

namespace Pipeline

/-- What was written of a pipeline makes that pipeline. -/
theorem ofJson_draft (p : Pipeline) : ofJson (toJson p.draft) = .ok p := by
  have hbuild : ofDraft p.draft = .ok p := p.build_self
  unfold ofJson
  rw [LawfulDocument.ofJson?_toJson]
  simp only [hbuild]

instance : LawfulDocument Pipeline where
  ofJson?_toJson p := by
    show (ofJson (toJson p.draft)).toOption = some p
    rw [ofJson_draft]
    rfl

theorem ofDocument_write (p : Pipeline) : ofDocument (write p) = .ok p := by
  unfold ofDocument write
  rw [Json.parse?_render]
  exact p.ofJson_draft

end Pipeline

theorem Config.ofDocument_write (c : Config) (complaint : String → String) :
    Config.ofDocument complaint (write c) = .ok c := by
  unfold Config.ofDocument
  rw [read?_write]

/-! ## The law -/

/-- Reading undoes writing. Of a pipeline, which building has made, the name, text and stages are
read first; they make the pipeline again, which leaves every stage in the group it was in. -/
theorem Document.reading_undoes_writing :
    (∀ s : Stage, read? (write s) = some s) ∧
    (∀ c : Coordinates, read? (write c) = some c) ∧
    (∀ id : StageId, read? (write id) = some id) ∧
    (∀ r : Registration, read? (write r) = some r) ∧
    (∀ i : Instruction, read? (write i) = some i) ∧
    (∀ l : Logging, read? (write l) = some l) ∧
    (∀ c : Config, read? (write c) = some c ∧
      ∀ complaint, Config.ofDocument complaint (write c) = .ok c) ∧
    ∀ p : Pipeline,
      read? (write p) = some p ∧ Pipeline.ofDocument (write p) = .ok p ∧
      ∃ draft : PipelineDraft,
        read? (write p) = some draft ∧ Pipeline.ofDraft draft = .ok p ∧
        draft.stages = p.stages ∧ draft.stages.map (·.regroup draft.name) = p.stages := by
  refine ⟨read?_write, read?_write, read?_write, read?_write, read?_write, read?_write,
    fun c => ⟨read?_write c, c.ofDocument_write⟩, fun p => ?_⟩
  exact ⟨read?_write p, p.ofDocument_write, p.draft, read?_write p.draft, p.build_self, rfl,
    p.regroup_stages⟩

end Rollout
