-- The coordinator: planning, starting, taking down and asking, over one registry and one
-- configuration. It remembers nothing of the pipelines; what changes is the site it works on.
import Rollout.Properties.Listing
import Rollout.Status

namespace Rollout

/-- What a coordinator decides by. -/
structure Coordinator where
  registry : Registry := ∅
  config : Config := {}
  deriving DecidableEq, Inhabited

/-- What a coordinator works on. -/
structure Site (δ : Type) where
  deployer : δ
  sink : Sink := .collect
  events : EventLog := {}
  plans : Nat := 0

/-- What a coordinator can be asked to do. -/
inductive Operation where
  | plan (pipeline : Pipeline) (overrides : Properties)
  | deploy (pipeline : Pipeline) (overrides : Properties)
  /-- Deploys with overrides given as a list. -/
  | deployListing (pipeline : Pipeline) (overrides : String)
  | undeploy (pipeline : Pipeline)
  | undeployEach (pipelines : List Pipeline)
  | status (pipeline : Pipeline)

inductive Report where
  | planned (plan : Plan)
  | undeployed (report : Takedown)
  /-- So many stages were taken down. -/
  | counted (count : Nat)
  | status (status : StatusReport)

namespace Site

variable {δ α : Type}

def newPlan (s : Site δ) : PlanId × Site δ :=
  (⟨s.plans⟩, { s with plans := s.plans + 1 })

/-- The site after work with its deployer, and the answer of that work. -/
def settle (s : Site δ) (o : Outcome δ α) : Site δ × Except Fault α :=
  ({ s with deployer := o.deployer, events := s.events.receive s.sink o.events }, o.result)

def work (s : Site δ) (f : δ → Outcome δ α) : Site δ × Except Fault α :=
  s.settle (f s.deployer)

end Site

namespace Coordinator

variable {δ : Type} [Deployer δ]

/-- Plans a pipeline. Only a plan that comes about takes a number. -/
def plan (c : Coordinator) (p : Pipeline) (overrides : Properties) (s : Site δ) :
    Site δ × Except Fault Plan :=
  let (id, s') := s.newPlan
  match p.plan c.registry c.config overrides id with
  | .error fault => (s, .error fault)
  | .ok made => (s', .ok made)

/-- Plans a pipeline and starts its stages. A fault of planning reaches no deployer. -/
def deploy (c : Coordinator) (p : Pipeline) (overrides : Properties) (s : Site δ) :
    Site δ × Except Fault Plan :=
  match c.plan p overrides s with
  | (s', .error fault) => (s', .error fault)
  | (s', .ok made) =>
    let (s'', started) := s'.work (Lifecycle.deploy made)
    (s'', started.map fun _ => made)

/-- Deploys with overrides given as a list. -/
def deployListing (c : Coordinator) (p : Pipeline) (overrides : String) (s : Site δ) :
    Site δ × Except Fault Plan :=
  match Properties.ofListing overrides with
  | .error fault => (s, .error fault)
  | .ok properties => c.deploy p properties s

/-- Takes down the stages of a pipeline that are there. -/
def undeploy (p : Pipeline) (s : Site δ) : Site δ × Except Fault Takedown :=
  s.work (Lifecycle.undeploy p)

/-- Takes down pipelines one after the other, up to the first failure; the answer counts the
stages that were taken down. -/
def undeployEach : List Pipeline → Site δ → Site δ × Except Fault Nat
  | [], s => (s, .ok 0)
  | p :: rest, s =>
    match undeploy p s with
    | (s', .error fault) => (s', .error fault)
    | (s', .ok report) =>
      let (s'', later) := undeployEach rest s'
      (s'', later.map (report.count + ·))

def status (p : Pipeline) (s : Site δ) : Site δ × Except Fault StatusReport :=
  s.work (Status.query p)

def perform (c : Coordinator) (s : Site δ) : Operation → Site δ × Except Fault Report
  | .plan p overrides => (c.plan p overrides s).map id (·.map .planned)
  | .deploy p overrides => (c.deploy p overrides s).map id (·.map .planned)
  | .deployListing p overrides => (c.deployListing p overrides s).map id (·.map .planned)
  | .undeploy p => (undeploy p s).map id (·.map .undeployed)
  | .undeployEach ps => (undeployEach ps s).map id (·.map .counted)
  | .status p => (status p s).map id (·.map .status)

end Coordinator

end Rollout
