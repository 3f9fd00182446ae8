-- Settings of which some are left out. A document that holds any of the fields of settings, in any
-- order and with fields of other names among them, is read as these settings, with the defaults for
-- what it leaves out; so nothing is lost if what has its default is left out.
import Mathlib.Data.List.Count
import Mathlib.Data.List.Perm.Basic
import Rollout.Proofs.RecordFields

namespace Rollout

/-! ## Fields among others -/

namespace Document

/-- An object holds fields: its members are these, each once, and further ones of names that are not
among the given ones, in any order. -/
def Holds (names : List String) (fields : List (String × Json)) (members : List (Literal × Json)) :
    Prop :=
  ∃ others : List (String × Json), (∀ o ∈ others, o.1 ∉ names) ∧
    members.Perm ((fields ++ others).map fun f => (some f.1, f.2))

variable {names : List String} {fields : List (String × Json)} {members : List (Literal × Json)}

/-- Of the names given, an object has the members that it holds. -/
theorem Holds.gives_iff (h : Holds names fields members) {name : String} (hname : name ∈ names)
    {value : Json} : Gives names name (.object members) value ↔ (name, value) ∈ fields := by
  obtain ⟨others, hothers, hperm⟩ := h
  have hmem : (some name, value) ∈ members ↔ (name, value) ∈ fields ++ others := by
    rw [hperm.mem_iff, List.mem_map]
    constructor
    · rintro ⟨⟨name', value'⟩, hf, heq⟩
      cases heq
      exact hf
    · exact fun hf => ⟨(name, value), hf, rfl⟩
  constructor
  · rintro ⟨hmember⟩
    rcases List.mem_append.1 (hmem.1 hmember) with hfield | hother
    · exact hfield
    · exact absurd hname (hothers _ hother)
  · exact fun hfield => .member (hmem.2 (List.mem_append_left _ hfield))

theorem length_valuesOf (name : String) (members : List (Literal × Json)) :
    (valuesOf name members).length = (members.map (·.1)).count (some name) := by
  rw [valuesOf, List.length_map, List.count, List.countP_map, List.countP_eq_length_filter]
  simp only [Function.comp_def, beq_eq_decide]

/-- An object that holds different fields is a record, whatever else it has. -/
theorem Holds.isRecord (h : Holds names fields members) (hnodup : (fields.map (·.1)).Nodup) :
    IsRecord names (.object members) := by
  obtain ⟨others, hothers, hperm⟩ := h
  refine .object (fun m hm => ?_) fun name hname => ?_
  · obtain ⟨f, _, rfl⟩ := List.mem_map.1 (hperm.mem_iff.1 hm)
    exact Option.some_ne_none _
  · have hother : name ∉ others.map (·.1) := by
      rw [List.mem_map]
      rintro ⟨o, ho, rfl⟩
      exact hothers o ho hname
    have hmembers : (members.map (·.1)).Perm (((fields ++ others).map (·.1)).map some) := by
      simpa [Function.comp_def] using hperm.map (·.1)
    calc (valuesOf name members).length
        = ((fields ++ others).map (·.1)).count name := by
          rw [length_valuesOf, hmembers.count_eq,
            List.count_map_of_injective _ _ (Option.some_injective _)]
      _ = (fields.map (·.1)).count name := by
          rw [List.map_append, List.count_append, List.count_eq_zero_of_not_mem hother,
            Nat.add_zero]
      _ ≤ 1 := List.nodup_iff_count_le_one.1 hnodup name

variable {all : List (String × Json)} {left : List String}

theorem nodup_filter_notMem (h : (all.map (·.1)).Nodup) :
    ((all.filter (·.1 ∉ left)).map (·.1)).Nodup :=
  h.sublist (List.filter_sublist.map _)

/-- Of all fields of a record, each is there or left out. -/
theorem Holds.hasFieldOr {α : Type} [Document α]
    (h : Holds names (all.filter (·.1 ∉ left)) members) {name : String} (hname : name ∈ names)
    {value : Json} (hvalue : (name, value) ∈ all) {a : α} (ha : ofJson? value = some a)
    (default : α) :
    HasFieldOr default names name (.object members) (if name ∈ left then default else a) := by
  by_cases hleft : name ∈ left
  · rw [if_pos hleft]
    refine Or.inr ⟨fun other hother => ?_, rfl⟩
    rw [h.gives_iff hname, List.mem_filter, decide_eq_true_iff] at hother
    exact hother.2 hleft
  · rw [if_neg hleft]
    refine Or.inl ⟨value, (h.gives_iff hname).2 ?_, ha⟩
    exact List.mem_filter.2 ⟨hvalue, decide_eq_true hleft⟩

end Document

open Document

/-! ## Fields of settings -/

namespace Logging

def fieldNames : List String := ["level", "json"]

/-- The fields of settings of logging, with their values. -/
def fields (l : Logging) : List (String × Json) :=
  [("level", toJson l.level), ("json", toJson l.json)]

example (l : Logging) : toJson l = .record l.fields := rfl

/-- Settings of logging with the defaults in place of the fields of the given names. -/
def reset (l : Logging) (left : List String) : Logging where
  level := if "level" ∈ left then ({} : Logging).level else l.level
  json := if "json" ∈ left then ({} : Logging).json else l.json

/-- The names of the fields that have their defaults. -/
def atDefault (l : Logging) : List String :=
  (if l.level = ({} : Logging).level then ["level"] else []) ++
    if l.json = ({} : Logging).json then ["json"] else []

end Logging

namespace Config

def fieldNames : List String :=
  ["property_prefix", "default_partition_key_expression", "includes_parameter", "logging"]

/-- The fields of settings with their values, where the given one stands for logging. -/
def fields (c : Config) (logging : Json) : List (String × Json) :=
  [("property_prefix", toJson c.propertyLead),
    ("default_partition_key_expression", toJson c.defaultKey),
    ("includes_parameter", toJson c.includesParameter), ("logging", logging)]

example (c : Config) : toJson c = .record (c.fields (toJson c.logging)) := rfl

/-- Settings with the defaults in place of the fields of the given names, and of those of the given
names in the settings of logging. -/
def reset (c : Config) (left leftOfLogging : List String) : Config where
  propertyLead := if "property_prefix" ∈ left then ({} : Config).propertyLead else c.propertyLead
  defaultKey :=
    if "default_partition_key_expression" ∈ left then ({} : Config).defaultKey else c.defaultKey
  includesParameter :=
    if "includes_parameter" ∈ left then ({} : Config).includesParameter else c.includesParameter
  logging := if "logging" ∈ left then {} else c.logging.reset leftOfLogging

/-- The names of the fields that have their defaults. -/
def atDefault (c : Config) : List String :=
  (if c.propertyLead = ({} : Config).propertyLead then ["property_prefix"] else []) ++
    (if c.defaultKey = ({} : Config).defaultKey then ["default_partition_key_expression"]
      else []) ++
    (if c.includesParameter = ({} : Config).includesParameter then ["includes_parameter"]
      else []) ++
    if c.logging = ({} : Config).logging then ["logging"] else []

end Config

/-! ## Settings from their fields -/

theorem Logging.ofJson?_of_fields {j : Json} {l : Logging} (hrecord : IsRecord fieldNames j)
    (hlevel : HasFieldOr defaultLevel fieldNames "level" j l.level)
    (hjson : HasFieldOr false fieldNames "json" j l.json) : ofJson? j = some l := by
  have hnames : fieldNames.Nodup := by decide
  refine (fields?_bind_eq_some_iff hnames).2 ⟨hrecord, ?_⟩
  show (do
    let level ← defaulted defaultLevel (field? fieldNames "level" j)
    let json ← defaulted false (field? fieldNames "json" j)
    return (⟨level, json⟩ : Logging)) = some l
  rw [(defaulted_eq_some_iff hrecord (by decide)).2 hlevel,
    (defaulted_eq_some_iff hrecord (by decide)).2 hjson]
  rfl

theorem Config.ofJson?_of_fields {j : Json} {c : Config} (hrecord : IsRecord fieldNames j)
    (hlead : HasFieldOr Scope.defaultLead fieldNames "property_prefix" j c.propertyLead)
    (hkey : HasFieldOr Partition.payload fieldNames "default_partition_key_expression" j
      c.defaultKey)
    (hincludes : HasFieldOr Key.includes fieldNames "includes_parameter" j c.includesParameter)
    (hlogging : HasFieldOr {} fieldNames "logging" j c.logging) : ofJson? j = some c := by
  have hnames : fieldNames.Nodup := by decide
  refine (fields?_bind_eq_some_iff hnames).2 ⟨hrecord, ?_⟩
  show (do
    let lead ← defaulted Scope.defaultLead (field? fieldNames "property_prefix" j)
    let key ← defaulted Partition.payload
      (field? fieldNames "default_partition_key_expression" j)
    let includes ← defaulted Key.includes (field? fieldNames "includes_parameter" j)
    let logging ← defaulted {} (field? fieldNames "logging" j)
    return (⟨lead, key, includes, logging⟩ : Config)) = some c
  rw [(defaulted_eq_some_iff hrecord (by decide)).2 hlead,
    (defaulted_eq_some_iff hrecord (by decide)).2 hkey,
    (defaulted_eq_some_iff hrecord (by decide)).2 hincludes,
    (defaulted_eq_some_iff hrecord (by decide)).2 hlogging]
  rfl

/-! ## What a document with fields left out is read as -/

theorem Logging.ofJson?_of_holds {l : Logging} {left : List String}
    {members : List (Literal × Json)}
    (h : Holds fieldNames (l.fields.filter (·.1 ∉ left)) members) :
    ofJson? (.object members) = some (l.reset left) := by
  have hnodup : (l.fields.map (·.1)).Nodup := (by decide : fieldNames.Nodup)
  exact ofJson?_of_fields (h.isRecord (nodup_filter_notMem hnodup))
    (h.hasFieldOr (by decide) (by simp [fields]) (LawfulDocument.ofJson?_toJson l.level) _)
    (h.hasFieldOr (by decide) (by simp [fields]) (LawfulDocument.ofJson?_toJson l.json) _)

theorem Config.ofJson?_of_holds {c : Config} {left leftOfLogging : List String}
    {members inner : List (Literal × Json)}
    (h : Holds fieldNames ((c.fields (.object inner)).filter (·.1 ∉ left)) members)
    (hinner : Holds Logging.fieldNames (c.logging.fields.filter (·.1 ∉ leftOfLogging)) inner) :
    ofJson? (.object members) = some (c.reset left leftOfLogging) := by
  have hnodup : ((c.fields (.object inner)).map (·.1)).Nodup := (by decide : fieldNames.Nodup)
  exact ofJson?_of_fields (h.isRecord (nodup_filter_notMem hnodup))
    (h.hasFieldOr (by decide) (by simp [fields]) (LawfulDocument.ofJson?_toJson c.propertyLead) _)
    (h.hasFieldOr (by decide) (by simp [fields]) (LawfulDocument.ofJson?_toJson c.defaultKey) _)
    (h.hasFieldOr (by decide) (by simp [fields])
      (LawfulDocument.ofJson?_toJson c.includesParameter) _)
    (h.hasFieldOr (by decide) (by simp [fields]) (Logging.ofJson?_of_holds hinner) _)

/-- Defaults in place of defaults change nothing. -/
theorem Logging.reset_of_subset_atDefault {l : Logging} {left : List String}
    (h : left ⊆ l.atDefault) : l.reset left = l := by
  have hlevel : "level" ∈ left → l.level = ({} : Logging).level :=
    fun hmem => by simpa [atDefault] using h hmem
  have hjson : "json" ∈ left → l.json = ({} : Logging).json :=
    fun hmem => by simpa [atDefault] using h hmem
  unfold reset
  rw [ite_eq_right_iff.2 fun hmem => (hlevel hmem).symm,
    ite_eq_right_iff.2 fun hmem => (hjson hmem).symm]

theorem Config.reset_of_subset_atDefault {c : Config} {left leftOfLogging : List String}
    (h : left ⊆ c.atDefault) (hinner : leftOfLogging ⊆ c.logging.atDefault) :
    c.reset left leftOfLogging = c := by
  have hlead : "property_prefix" ∈ left → c.propertyLead = ({} : Config).propertyLead :=
    fun hmem => by simpa [atDefault] using h hmem
  have hkey : "default_partition_key_expression" ∈ left →
      c.defaultKey = ({} : Config).defaultKey :=
    fun hmem => by simpa [atDefault] using h hmem
  have hincludes : "includes_parameter" ∈ left →
      c.includesParameter = ({} : Config).includesParameter :=
    fun hmem => by simpa [atDefault] using h hmem
  have hlogging : "logging" ∈ left → c.logging = ({} : Config).logging :=
    fun hmem => by simpa [atDefault] using h hmem
  unfold reset
  rw [Logging.reset_of_subset_atDefault hinner,
    ite_eq_right_iff.2 fun hmem => (hlead hmem).symm,
    ite_eq_right_iff.2 fun hmem => (hkey hmem).symm,
    ite_eq_right_iff.2 fun hmem => (hincludes hmem).symm,
    ite_eq_right_iff.2 fun hmem => (hlogging hmem).symm]

theorem Config.ofDocument_of_parse? {complaint : String → String} {text : String} {j : Json}
    {c : Config} (h : Json.parse? text = some j) (hj : ofJson? j = some c) :
    ofDocument complaint text = .ok c := by
  unfold ofDocument read?
  rw [h, Option.bind_eq_bind, Option.bind_some, hj]

/-! ## The law -/

/-- Settings are read from an object that holds some of their fields, and some of those of the
settings of logging, in any order and among fields of any other names. What is left out has its
default, and the settings are the same again if it had that before. -/
theorem Config.left_out_fields_have_their_defaults (complaint : String → String) {c : Config}
    {left leftOfLogging : List String} {members inner : List (Literal × Json)}
    (h : Holds fieldNames ((c.fields (.object inner)).filter (·.1 ∉ left)) members)
    (hinner : Holds Logging.fieldNames (c.logging.fields.filter (·.1 ∉ leftOfLogging)) inner) :
    ofDocument complaint (Json.object members).render = .ok (c.reset left leftOfLogging) ∧
    ∀ text, Json.parse? text = some (.object members) →
      ofDocument complaint text = .ok (c.reset left leftOfLogging) ∧
      (left ⊆ c.atDefault → leftOfLogging ⊆ c.logging.atDefault →
        ofDocument complaint text = .ok c) := by
  have hread : ∀ text, Json.parse? text = some (.object members) →
      ofDocument complaint text = .ok (c.reset left leftOfLogging) :=
    fun text htext => ofDocument_of_parse? htext (ofJson?_of_holds h hinner)
  refine ⟨hread _ (Json.parse?_render _), fun text htext => ⟨hread text htext, ?_⟩⟩
  intro hleft hlogging
  rw [hread text htext, reset_of_subset_atDefault hleft hlogging]

/-- Settings of which two fields have their defaults. -/
def Config.sample : Config :=
  { propertyLead := "step", defaultKey := "headers.key", logging := { level := "debug" } }

/-- An object with those fields of the sample settings that do not have their defaults, out of order
and with others among them. -/
def Config.sampleInner : List (Literal × Json) :=
  [(some "colour", .array [.null]), (some "level", .ofText "debug")]

def Config.sampleMembers : List (Literal × Json) :=
  [(some "x", .null), (some "logging", .object sampleInner),
    (some "default_partition_key_expression", .ofText "headers.key"),
    (some "property_prefix", .ofText "step")]

theorem Config.sample_without_defaults_is_read :
    Config.ofDocument id (Json.object Config.sampleMembers).render = .ok Config.sample := by
  have h : Holds fieldNames
      ((sample.fields (.object sampleInner)).filter (·.1 ∉ sample.atDefault)) sampleMembers :=
    ⟨[("x", .null)], by decide, (List.reverse_perm _).symm⟩
  have hinner : Holds Logging.fieldNames
      (sample.logging.fields.filter (·.1 ∉ sample.logging.atDefault)) sampleInner :=
    ⟨[("colour", .array [.null])], by decide, List.Perm.swap _ _ _⟩
  have hread := (left_out_fields_have_their_defaults id h hinner).2 _ (Json.parse?_render _)
  exact hread.2 (List.Subset.refl _) (List.Subset.refl _)

end Rollout
