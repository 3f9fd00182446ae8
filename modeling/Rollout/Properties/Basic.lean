-- Properties: texts under textual keys. The keys that planning reads and writes have names here,
-- so that no other module spells them.
import Rollout.SortedMap

namespace Rollout

/-- Texts under textual keys, in the order of the keys. -/
abbrev Properties := SortedMap String String

namespace Key

/-! ## Parameters of a stage -/

def input : String := "bindings.input"

def output : String := "bindings.output"

/-- The libraries a stage includes, unless the configuration names another parameter. -/
def includes : String := "includes"

/-! ## Properties that planning reads -/

/-- How many instances of a stage run. -/
def count : String := "count"

def partitioned : String := "partitioned"

/-- Gives the partition of an output value by an expression. -/
def keyExpression : String := "partitionKeyExpression"

/-- Gives the partition of an output value by a class. -/
def keyExtractor : String := "partitionKeyExtractorClass"

/-- Selects the partition of a key by a class. -/
def selector : String := "partitionSelectorClass"

/-- Selects the partition of a key by an expression. -/
def selectorExpression : String := "partitionSelectorExpression"

/-! ## Properties that planning writes -/

def inputPartitioned : String := "bindings.input.partitioned"

/-- Says how many instances share the partitions of the input. -/
def inputInstances : String := "instanceCount"

/-- Says how many partitions the output has. -/
def outputCount : String := "bindings.output.partitionCount"

def outputKeyExpression : String := "bindings.output.partitionKeyExpression"

def outputKeyExtractor : String := "bindings.output.partitionKeyExtractorClass"

def outputSelector : String := "bindings.output.partitionSelectorClass"

def outputSelectorExpression : String := "bindings.output.partitionSelectorExpression"

end Key

end Rollout
