-- Artifacts, settings, pipelines, plans, faults and events as documents. A document whose fields can
-- be read makes a pipeline only if its stages do; the fault is then that of the pipeline. Plans,
-- faults and events are only written: the number of a plan is shown under a name that whoever shows
-- it gives.
import Rollout.Document.Basic
import Rollout.Event
import Rollout.Json.Leading

namespace Rollout

open Document

/-! ## Artifacts -/

instance : Document ArtifactKind :=
  ⟨fun t => .ofText t.name, named? ArtifactKind.all ArtifactKind.name⟩

instance : Document Role :=
  ⟨fun r => .ofText r.name, named? Role.all Role.name⟩

instance : Document Coordinates where
  toJson c :=
    .record
      [("group_id", toJson c.group), ("artifact_id", toJson c.artifact),
        ("extension", toJson c.extension), ("classifier", toJson c.classifier),
        ("version", toJson c.version)]
  ofJson? j := do
    match ← fields? ["group_id", "artifact_id", "extension", "classifier", "version"] j with
    | [group, artifact, extension, classifier, version] =>
      return {
        group := ← required group
        artifact := ← required artifact
        extension := ← required extension
        classifier := ← defaulted "" classifier
        version := ← required version }
    | _ => none

instance : Document Registration where
  toJson r :=
    .record
      [("name", toJson r.name), ("artifact_type", toJson r.kind),
        ("coordinates", toJson r.coordinates)]
  ofJson? j := do
    match ← fields? ["name", "artifact_type", "coordinates"] j with
    | [name, kind, coordinates] =>
      return {
        name := ← required name
        kind := ← required kind
        coordinates := ← required coordinates }
    | _ => none

/-! ## Settings

Every field can be left out, and each has a default of its own. -/

instance : Document Logging where
  toJson l := .record [("level", toJson l.level), ("json", toJson l.json)]
  ofJson? j := do
    match ← fields? ["level", "json"] j with
    | [level, json] => return ⟨← defaulted Logging.defaultLevel level, ← defaulted false json⟩
    | _ => none

instance : Document Config where
  toJson c :=
    .record
      [("property_prefix", toJson c.propertyLead),
        ("default_partition_key_expression", toJson c.defaultKey),
        ("includes_parameter", toJson c.includesParameter), ("logging", toJson c.logging)]
  ofJson? j := do
    match ← fields? ["property_prefix", "default_partition_key_expression", "includes_parameter",
        "logging"] j with
    | [lead, key, includes, logging] =>
      return {
        propertyLead := ← defaulted Scope.defaultLead lead
        defaultKey := ← defaulted Partition.payload key
        includesParameter := ← defaulted Key.includes includes
        logging := ← defaulted {} logging }
    | _ => none

/-- The settings of a document. The fault names the document as a whole, with what the reader
complains of: the words are the reader's own. -/
def Config.ofDocument (complaint : String → String) (text : String) : Except Fault Config :=
  match read? text with
  | some config => .ok config
  | none => .error (.invalidProperty "" "config" (complaint text))

/-! ## Stages and pipelines -/

instance : Document StageState :=
  ⟨fun s => .ofText s.name, named? StageState.all StageState.name⟩

instance : Document PipelineState :=
  ⟨fun s => .ofText s.name, named? PipelineState.all PipelineState.name⟩

instance : Document StageId where
  toJson id := .record [("group", toJson id.group), ("label", toJson id.label)]
  ofJson? j := do
    match ← fields? ["group", "label"] j with
    | [group, label] => return ⟨← required group, ← required label⟩
    | _ => none

instance : Document Stage where
  toJson s :=
    .record
      [("name", toJson s.name), ("label", toJson s.label), ("group", toJson s.group),
        ("parameters", toJson s.parameters)]
  ofJson? j := do
    match ← fields? ["name", "label", "group", "parameters"] j with
    | [name, label, group, parameters] =>
      return {
        name := ← required name
        label := ← required label
        group := ← defaulted "" group
        parameters := ← defaulted ∅ parameters }
    | _ => none

/-- The name, text and stages that a document gives, before they make a pipeline. -/
structure PipelineDraft where
  name : String
  text : String
  stages : List Stage
  deriving DecidableEq, Inhabited

instance : Document PipelineDraft where
  toJson p :=
    .record [("name", toJson p.name), ("text", toJson p.text), ("stages", toJson p.stages)]
  ofJson? j := do
    match ← fields? ["name", "text", "stages"] j with
    | [name, text, stages] =>
      return {
        name := ← required name
        text := ← defaulted "" text
        stages := ← required stages }
    | _ => none

/-- Why a document gives no pipeline. -/
inductive DocumentFault where
  | malformed
  | invalid (fault : PipelineFault)
  deriving DecidableEq, Inhabited

namespace Pipeline

def draft (p : Pipeline) : PipelineDraft := ⟨p.name, p.text, p.stages⟩

def ofDraft (d : PipelineDraft) : Except PipelineFault Pipeline := build d.name d.text d.stages

def ofJson (j : Json) : Except DocumentFault Pipeline :=
  match ofJson? j with
  | none => .error .malformed
  | some draft =>
    match ofDraft draft with
    | .error fault => .error (.invalid fault)
    | .ok p => .ok p

/-- The pipeline of a document. Text that follows a pipeline spoils the document, but only once
the stages are found to make a pipeline: if they do not, that is the fault. -/
def ofDocument (text : String) : Except DocumentFault Pipeline :=
  match Json.parse? text with
  | some j => ofJson j
  | none =>
    match Json.leading? text with
    | none => .error .malformed
    | some j =>
      match ofJson j with
      | .error fault => .error fault
      | .ok _ => .error .malformed

instance : Document Pipeline := ⟨fun p => toJson p.draft, fun j => (ofJson j).toOption⟩

end Pipeline

/-! ## Instructions and plans -/

instance : Document Instruction where
  toJson i :=
    .record
      [("deployment_id", toJson i.deploymentId), ("stage", toJson i.stage),
        ("role", toJson i.role), ("coordinates", toJson i.coordinates),
        ("properties", toJson i.properties)]
  ofJson? j := do
    match ← fields? ["deployment_id", "stage", "role", "coordinates", "properties"] j with
    | [id, stage, role, coordinates, properties] =>
      return {
        deploymentId := ← required id
        stage := ← required stage
        role := ← required role
        coordinates := ← required coordinates
        properties := ← required properties }
    | _ => none

/-- A plan as a JSON value, with its number under the given name. -/
def Plan.toJson (nameOf : PlanId → String) (p : Plan) : Json :=
  .record
    [("plan_id", .ofText (nameOf p.id)), ("pipeline", .ofText p.pipeline),
      ("instructions", Document.toJson p.instructions)]

/-! ## Faults

The code, the wording, and what the fault is about. -/

/-- What a fault is about, beside its code and wording. -/
def Fault.subject : Fault → List (String × Json)
  | .notRegistered name kind => [("name", toJson name), ("artifact_type", toJson kind)]
  | .unresolvedLibrary token => [("token", toJson token)]
  | .ambiguousRole stage => [("stage", toJson stage)]
  | .invalidCoordinates _ => []
  | .invalidProperty stage key value =>
    [("stage", toJson stage), ("key", toJson key), ("value", toJson value)]
  | .invalidPipeline fault => [("stages", toJson fault.labels)]
  | .deployer _ => []

def Fault.toJson (f : Fault) : Json :=
  .record ([("code", .ofText f.code), ("message", .ofText f.message)] ++ f.subject)

/-! ## Events

What an event does not have is left out. -/

/-- What an event tells beside its type and its subject, with plans under the given names. -/
def EventData.toJson (nameOf : PlanId → String) : EventData → Json
  | .nothing => .null
  | .deployed plan role coordinates =>
    .record
      [("plan_id", .ofText (nameOf plan)), ("role", .ofText role.name),
        ("coordinates", .ofText coordinates.text)]
  | .planDone plan stages =>
    .record [("plan_id", .ofText (nameOf plan)), ("stages", .ofNat stages)]
  | .skipped state => .record [("state", Document.toJson state)]
  | .takenDown previous => .record [("previous_state", Document.toJson previous)]
  | .tally taken left => .record [("undeployed", .ofNat taken), ("skipped", .ofNat left)]
  | .computed state => .record [("state", Document.toJson state)]
  | .custom value => value

/-- An event as a JSON value, with plans under the given names. -/
def Event.toJson (nameOf : PlanId → String) (e : Event) : Json :=
  let data := e.data.toJson nameOf
  .record
    ([("event_type", .ofText e.type.name), ("pipeline", .ofText e.pipeline)] ++
      (match e.stage? with
        | some id => [("deployment_id", Document.toJson id)]
        | none => []) ++
      if data.isNull then [] else [("data", data)])

end Rollout
