-- Plans: what a deployer has to know of each stage, in the order of deployment. Planning looks
-- every stage up, then settles the partitions between neighbours, then gives every included
-- library by its coordinates; the first phase that fails decides the fault. The time at which a plan
-- was made is no part of it here: it is shown to people, and nothing is decided by it.
import Rollout.Artifact.Reference
import Rollout.Config
import Rollout.Pipeline.Basic

namespace Rollout

/-- What a deployer has to know to start a stage. -/
structure Instruction where
  deploymentId : StageId
  /-- The stage, with included libraries given by their coordinates. -/
  stage : Stage
  role : Role
  coordinates : Coordinates
  properties : Properties
  deriving DecidableEq, Inhabited

/-- The number that tells a plan from others. -/
structure PlanId where
  number : Nat
  deriving DecidableEq, Inhabited

/-- Instructions for the stages of a pipeline, in the order of deployment. -/
structure Plan where
  id : PlanId
  pipeline : String
  instructions : List Instruction
  deriving DecidableEq, Inhabited

namespace Plan

def instruction? (p : Plan) (label : String) : Option Instruction :=
  p.instructions.find? (·.stage.label = label)

def size (p : Plan) : Nat := p.instructions.length

def isEmpty (p : Plan) : Bool := p.instructions.isEmpty

/-- The identities of the stages, in the order of deployment. -/
def ids (p : Plan) : List StageId := p.instructions.map Instruction.deploymentId

end Plan

namespace Planning

/-- The role of a stage and where its artifact is found. -/
def place (r : Registry) (s : Stage) : Except Fault (Role × Coordinates) := do
  let role ← s.role
  let coordinates ← r.resolve s.name role
  return (role, coordinates)

/-- The stage with its included libraries given by their coordinates. -/
def settleIncludes (r : Registry) (config : Config) (s : Stage) : Except Fault Stage :=
  match s.parameter? config.includesParameter with
  | none => .ok s
  | some list => (Includes.resolve r list).map (s.setParameter config.includesParameter)

/-- The overrides that apply to each of the stages. -/
def mergeAll (config : Config) (overrides : Properties) (stages : List Stage) :
    List (Stage × Properties) :=
  stages.map fun s => (s, overrides.merge config.propertyLead s.label)

def instruct (s : Stage) (placed : Role × Coordinates) (properties : Properties) :
    Instruction :=
  ⟨s.id, s, placed.1, placed.2, properties⟩

/-- The instructions for stages in the order of deployment. -/
def instructAll :
    List Stage → List (Role × Coordinates) → List Properties → List Instruction
  | s :: stages, placed :: places, properties :: rest =>
    instruct s placed properties :: instructAll stages places rest
  | _, _, _ => []

def instructions (r : Registry) (config : Config) (overrides : Properties)
    (stages : List Stage) : Except Fault (List Instruction) := do
  let places ← stages.mapM (place r)
  let (properties, outcome) :=
    Partition.propagate config.defaultKey (mergeAll config overrides stages)
  outcome
  let settled ← stages.mapM (settleIncludes r config)
  return instructAll settled places properties

end Planning

def Pipeline.instructions (p : Pipeline) (r : Registry) (config : Config)
    (overrides : Properties) : Except Fault (List Instruction) :=
  Planning.instructions r config overrides p.deployOrder

/-- The plan of a pipeline, under the given number. -/
def Pipeline.plan (p : Pipeline) (r : Registry) (config : Config) (overrides : Properties)
    (id : PlanId) : Except Fault Plan :=
  (p.instructions r config overrides).map fun is => ⟨id, p.name, is⟩

end Rollout
