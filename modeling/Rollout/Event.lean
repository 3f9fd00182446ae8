-- What happened to pipelines and their stages, as events, and the places where events go. The time
-- of an event is no part of it here: it is shown to people, and nothing is decided by it.
import Rollout.Deployer.Basic
import Rollout.Json.Value

namespace Rollout

inductive EventType where
  | deployRequested
  | undeployRequested
  | undeploySkipped
  | pipelineDeployed
  | pipelineUndeployed
  | stateComputed
  deriving DecidableEq, Inhabited

namespace EventType

def name : EventType → String
  | .deployRequested => "stage.deploy_requested"
  | .undeployRequested => "stage.undeploy_requested"
  | .undeploySkipped => "stage.undeploy_skipped"
  | .pipelineDeployed => "pipeline.deployed"
  | .pipelineUndeployed => "pipeline.undeployed"
  | .stateComputed => "pipeline.state_computed"

end EventType

/-- What an event tells beside its type and its subject. -/
inductive EventData where
  | nothing
  /-- A stage was handed to the deployer. -/
  | deployed (plan : PlanId) (role : Role) (coordinates : Coordinates)
  /-- So many stages of a plan were handed to the deployer. -/
  | planDone (plan : PlanId) (stages : Nat)
  /-- The state of a stage that there was no need to take down. -/
  | skipped (state : StageState)
  /-- The state of a stage before it was taken down. -/
  | takenDown (previous : StageState)
  /-- So many stages were taken down, and there was no need for so many others. -/
  | tally (undeployed skipped : Nat)
  | computed (state : PipelineState)
  | custom (value : Json)
  deriving Inhabited

/-- Something that happened to a pipeline or to one of its stages. -/
structure Event where
  type : EventType
  pipeline : String
  /-- The stage, if it happened to a single one. -/
  stage? : Option StageId
  data : EventData
  deriving Inhabited

namespace Event

/-- An event of a stage; it belongs to the pipeline that is the group of the stage. -/
def ofStage (type : EventType) (id : StageId) (data : EventData) : Event :=
  ⟨type, id.group, some id, data⟩

def ofPipeline (type : EventType) (pipeline : String) (data : EventData) : Event :=
  ⟨type, pipeline, none, data⟩

end Event

/-- Where events go: nowhere, to the log of the program, or into a collection. -/
inductive Sink where
  | discard
  | log (debug : Bool)
  | collect
  deriving DecidableEq, Inhabited

/-- The events that were collected, oldest first. -/
structure EventLog where
  events : List Event := []
  deriving Inhabited

namespace EventLog

def types (log : EventLog) : List EventType := log.events.map Event.type

/-- How many events have a type of the given name. -/
def count (log : EventLog) (name : String) : Nat :=
  log.events.countP (·.type.name = name)

/-- The events of one stage, oldest first. -/
def ofStage (log : EventLog) (id : StageId) : List Event :=
  log.events.filter (·.stage? = some id)

def size (log : EventLog) : Nat := log.events.length

def isEmpty (log : EventLog) : Bool := log.events.isEmpty

/-- Sends events to a sink; only those sent into the collection are kept. -/
def receive (log : EventLog) (sink : Sink) (events : List Event) : EventLog :=
  match sink with
  | .collect => ⟨log.events ++ events⟩
  | .log _ => log
  | .discard => log

theorem receive_nil (log : EventLog) (sink : Sink) : log.receive sink [] = log := by
  cases sink <;> simp [receive]

theorem receive_append (log : EventLog) (sink : Sink) (events later : List Event) :
    log.receive sink (events ++ later) = (log.receive sink events).receive sink later := by
  cases sink <;> simp [receive]

end EventLog

end Rollout
