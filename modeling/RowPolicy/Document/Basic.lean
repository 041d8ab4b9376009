import RowPolicy.Claim
import RowPolicy.Rule

/-!
# Policy documents

A document declares claims and rules together, so that a whole policy is applied in one step.
-/

namespace RowPolicy

structure Document where
  claims : List Claim := []
  rules : List Rule := []
  deriving Inhabited

/-- The rules in an order in which they can be defined: reads first, then writes, each in the order
of the document. -/
def Document.orderedRules (d : Document) : List Rule :=
  (d.rules.filter fun r => r.operation == .read) ++ d.rules.filter fun r => r.operation != .read

end RowPolicy
