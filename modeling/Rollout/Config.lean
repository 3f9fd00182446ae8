-- Settings of planning and of logging, with their defaults.
import Rollout.Partition
import Rollout.Properties.Scope

namespace Rollout

/-- The least grave messages to write, unless settings say otherwise. -/
def Logging.defaultLevel : String := "info"

structure Logging where
  /-- The least grave messages to write. -/
  level : String := Logging.defaultLevel
  /-- Asks for messages in JSON. -/
  json : Bool := false
  deriving DecidableEq, Inhabited

structure Config where
  /-- How the keys of overrides begin. -/
  propertyLead : String := Scope.defaultLead
  /-- The key expression for givers of partitioned data that name none. -/
  defaultKey : String := Partition.payload
  /-- The parameter that lists the libraries of a stage. -/
  includesParameter : String := Key.includes
  logging : Logging := {}
  deriving DecidableEq, Inhabited

end Rollout
