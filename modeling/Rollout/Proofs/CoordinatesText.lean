-- Coordinates and their canonical text. Coordinates that are well formed are read back from their
-- text, and all that are read from some text are well formed, so a canonical text stays as it is.
import Rollout.Artifact.Coordinates

namespace Rollout.Coordinates

open Rollout.Text

theorem parse_eq_ok_iff {s : String} {c : Coordinates} : parse s = .ok c ↔ parse? s = some c := by
  unfold parse
  cases parse? s <;> simp

theorem parse_eq_error_iff {s : String} {fault : Fault} :
    parse s = .error fault ↔ parse? s = none ∧ fault = .invalidCoordinates s := by
  unfold parse
  cases parse? s <;> simp [eq_comm]

/-! ## Well-formed coordinates -/

def fields (c : Coordinates) : List String :=
  [c.group, c.artifact, c.extension, c.classifier, c.version]

/-- No field has a character of the text between fields, and only the classifier may be empty. -/
structure WellFormed (c : Coordinates) : Prop where
  group_ne : c.group ≠ ""
  artifact_ne : c.artifact ≠ ""
  extension_ne : c.extension ≠ ""
  version_ne : c.version ≠ ""
  no_colon : ∀ field ∈ c.fields, ':' ∉ field.toList
  no_space : ∀ field ∈ c.fields, ' ' ∉ field.toList

theorem mem_fields_of_mem_parts {c : Coordinates} {part : String} (h : part ∈ c.parts) :
    part ∈ c.fields := by
  unfold parts at h
  unfold fields
  split at h <;> grind

theorem toList_text (c : Coordinates) :
    c.text.toList = join ':' (c.parts.map String.toList) := by
  rw [text, String.toList_ofList]

/-- What stands in no field stands in no text, unless it is a colon. -/
theorem notMem_text {c : Coordinates} {ch : Char} (hcolon : ch ≠ ':')
    (h : ∀ field ∈ c.fields, ch ∉ field.toList) : ch ∉ c.text.toList := by
  rw [toList_text]
  intro hmem
  rcases mem_join hmem with heq | ⟨part, hpart, hch⟩
  · exact hcolon heq
  · obtain ⟨field, hfield, rfl⟩ := List.mem_map.1 hpart
    exact h field (mem_fields_of_mem_parts hfield) hch

theorem text_ne (c : Coordinates) : c.text ≠ "" := by
  intro h
  have hcolon : ':' ∈ c.text.toList := by
    rw [toList_text, parts]
    simp
  rw [h] at hcolon
  cases hcolon

/-! ## Text and back -/

theorem pieces_text {c : Coordinates} (h : c.WellFormed) :
    pieces ':' c.text.toList = c.parts.map String.toList := by
  rw [toList_text]
  apply pieces_join
  · simp [parts]
  · intro part hpart
    obtain ⟨field, hfield, rfl⟩ := List.mem_map.1 hpart
    exact h.no_colon field (mem_fields_of_mem_parts hfield)

theorem space_notMem_text {c : Coordinates} (h : c.WellFormed) : ' ' ∉ c.text.toList :=
  notMem_text (by decide) h.no_space

/-- Well-formed coordinates are read back from their text. -/
theorem parse?_text {c : Coordinates} (h : c.WellFormed) : parse? c.text = some c := by
  have hparts : ofParts? (c.parts.map String.toList) = some c := by
    obtain ⟨group, artifact, extension, classifier, version⟩ := c
    obtain ⟨hgroup, hartifact, hextension, hversion, _, _⟩ := h
    by_cases hclassifier : classifier = ""
    · simp_all [parts, ofParts?, ofParts?.make?]
    · simp_all [parts, ofParts?, ofParts?.make?]
  rw [parse?, if_neg (space_notMem_text h), pieces_text h, hparts]

/-! ## What is read -/

theorem of_make? {group artifact extension classifier version : List Char}
    {ps : List (List Char)} {c : Coordinates}
    (hsub : [group, artifact, extension, classifier, version] ⊆ [] :: ps)
    (h : ofParts?.make? group artifact extension classifier version = some c) :
    (c.group ≠ "" ∧ c.artifact ≠ "" ∧ c.extension ≠ "" ∧ c.version ≠ "") ∧
      ∀ field ∈ c.fields, field = defaultExtension ∨ field.toList ∈ [] :: ps := by
  unfold ofParts?.make? at h
  split at h
  · cases h
  · next hne =>
    simp only [not_or] at hne
    obtain ⟨hgroup, hartifact, hversion⟩ := hne
    cases h
    by_cases hextension : extension = []
    · simp_all [fields, defaultExtension]
    · simp_all [fields]

/-- A field of coordinates that are read is one of the parts, or is what stands for none. -/
theorem of_ofParts? {ps : List (List Char)} {c : Coordinates} (h : ofParts? ps = some c) :
    (c.group ≠ "" ∧ c.artifact ≠ "" ∧ c.extension ≠ "" ∧ c.version ≠ "") ∧
      ∀ field ∈ c.fields, field = defaultExtension ∨ field.toList ∈ [] :: ps := by
  unfold ofParts? at h
  split at h
  · exact of_make? (by simp) h
  · exact of_make? (by simp) h
  · split at h
    · cases h
    · exact of_make? (by simp) h
  · cases h

/-- What stands in a field of coordinates that are read stands in a part of what was read, or in
the default extension. -/
theorem mem_of_parse? {s : String} {c : Coordinates} (h : parse? s = some c) {field : String}
    (hfield : field ∈ c.fields) {ch : Char} (hch : ch ∈ field.toList) :
    ch ∈ defaultExtension.toList ∨ ∃ part ∈ pieces ':' s.toList, ch ∈ part := by
  unfold parse? at h
  split at h
  · cases h
  · rcases (of_ofParts? h).2 field hfield with rfl | hpart
    · exact Or.inl hch
    · rcases List.mem_cons.1 hpart with hnil | hpart
      · rw [hnil] at hch
        cases hch
      · exact Or.inr ⟨_, hpart, hch⟩

/-- Coordinates that are read have nothing that was not there to read. -/
theorem notMem_of_parse? {s : String} {c : Coordinates} (h : parse? s = some c) {ch : Char}
    (hdefault : ch ∉ defaultExtension.toList) (hs : ch ∉ s.toList) :
    ∀ field ∈ c.fields, ch ∉ field.toList := by
  intro field hfield hch
  rcases mem_of_parse? h hfield hch with hmem | ⟨part, hpart, hmem⟩
  · exact hdefault hmem
  · exact hs (mem_of_mem_pieces hpart hmem)

/-- Coordinates that are read are well formed. -/
theorem wellFormed_of_parse? {s : String} {c : Coordinates} (h : parse? s = some c) :
    c.WellFormed := by
  have hspace : ' ' ∉ s.toList := by
    intro hmem
    rw [parse?, if_pos hmem] at h
    cases h
  have hparts : ofParts? (pieces ':' s.toList) = some c := by
    rw [parse?, if_neg hspace] at h
    exact h
  obtain ⟨⟨hgroup, hartifact, hextension, hversion⟩, _⟩ := of_ofParts? hparts
  refine ⟨hgroup, hartifact, hextension, hversion, ?_, notMem_of_parse? h (by decide) hspace⟩
  intro field hfield hcolon
  rcases mem_of_parse? h hfield hcolon with hdefault | ⟨part, hpart, hmem⟩
  · exact absurd hdefault (by decide)
  · exact sep_notMem_of_mem_pieces hpart hmem

theorem parse_text_eq_ok_iff {c : Coordinates} : parse c.text = .ok c ↔ c.WellFormed := by
  rw [parse_eq_ok_iff]
  exact ⟨wellFormed_of_parse?, parse?_text⟩

-- A colon in a field moves what follows it to other fields.
example : parse? (text ⟨"g", "a:zip", "exec", "", "1"⟩) = some ⟨"g", "a", "zip", "exec", "1"⟩ := by
  decide

/-! ## The law -/

/-- Coordinates are read back from their text exactly if they are well formed, and those are the
coordinates that are read from some text. The text of what was read is read as the same again, and
stays as it is when it is read and written. -/
theorem reading_back_is_being_wellFormed :
    (∀ c : Coordinates, parse c.text = .ok c ↔ c.WellFormed) ∧
    (∀ s c, parse s = .ok c → c.WellFormed) ∧
    ∀ s c, parse s = .ok c → parse c.text = .ok c ∧ (parse c.text).map text = .ok c.text := by
  have hread : ∀ s c, parse s = .ok c → c.WellFormed :=
    fun s c h => wellFormed_of_parse? (parse_eq_ok_iff.1 h)
  refine ⟨fun c => parse_text_eq_ok_iff, hread, fun s c h => ?_⟩
  have hback : parse c.text = .ok c := parse_text_eq_ok_iff.2 (hread s c h)
  exact ⟨hback, by rw [hback]; rfl⟩

end Rollout.Coordinates
