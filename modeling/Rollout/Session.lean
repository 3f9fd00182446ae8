-- Sessions: what is done at a site, one act after the other. An act is an operation of the
-- coordinator, or a change that is made to the deployer behind its back.
import Rollout.Coordinator
import Rollout.Deployer.Memory

namespace Rollout

/-- What can be done at a site over a deployer that only remembers. -/
inductive Act where
  | operate (operation : Operation)
  /-- Has the deployer refuse a stage from now on. -/
  | refuse (id : StageId) (reason : String)
  | overrideState (id : StageId) (state : StageState)

/-- The pipeline that an operation is about, if it is about a single one. -/
def Operation.pipeline? : Operation → Option Pipeline
  | .plan p _ => some p
  | .deploy p _ => some p
  | .deployListing p _ => some p
  | .undeploy p => some p
  | .undeployEach _ => none
  | .status p => some p

/-- The group of the stages that an act is about, if they are of a single one. -/
def Act.group? : Act → Option String
  | .operate operation => operation.pipeline?.map Pipeline.name
  | .refuse id _ => some id.group
  | .overrideState id _ => some id.group

/-- What an act comes to. Changes of the deployer have no answer. -/
structure Answer where
  act : Act
  report? : Option (Except Fault Report)

namespace Coordinator

/-- Does an act at a site. -/
def act (c : Coordinator) (s : Site MemoryDeployer) : Act → Site MemoryDeployer × Answer
  | .operate operation =>
    (c.perform s operation).map id fun report => ⟨.operate operation, some report⟩
  | .refuse id reason =>
    ({ s with deployer := s.deployer.refuse id reason }, ⟨.refuse id reason, none⟩)
  | .overrideState id state =>
    ({ s with deployer := s.deployer.overrideState id state }, ⟨.overrideState id state, none⟩)

/-- Does acts one after the other. -/
def run (c : Coordinator) : List Act → Site MemoryDeployer → Site MemoryDeployer × List Answer
  | [], s => (s, [])
  | a :: rest, s =>
    let (s', answer) := c.act s a
    let (s'', later) := c.run rest s'
    (s'', answer :: later)

end Coordinator

end Rollout
