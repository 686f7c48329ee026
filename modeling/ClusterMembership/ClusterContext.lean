import ClusterMembership.Text.Units

/-!
# The condition of the cluster

The cluster as a whole is healthy or not, and a set of codes tells what is wrong with it.
-/

namespace ClusterMembership

/-- The identifier and the condition of the cluster. -/
structure ClusterContext where
  id : String
  healthy : Bool := true
  errors : List String := []
  deriving DecidableEq, Inhabited

namespace ClusterContext

/-- The code for a registration that the topology refused. -/
def invalidTopology : String := "INVALID_NETWORK_TOPOLOGY"

/-- The code for a node table that could not be read to its end. -/
def loadFailed : String := "NODE_TABLE_LOAD_FAILED"

def setHealthy (context : ClusterContext) (healthy : Bool) : ClusterContext :=
  { context with healthy := healthy }

def hasError (context : ClusterContext) (code : String) : Bool := context.errors.contains code

def addError (context : ClusterContext) (code : String) : ClusterContext :=
  if context.hasError code then context else { context with errors := context.errors ++ [code] }

def removeError (context : ClusterContext) (code : String) : ClusterContext :=
  { context with errors := context.errors.filter fun other ↦ other ≠ code }

/-- The codes that are set, in ascending order. -/
def sortedErrors (context : ClusterContext) : List String := Text.sorted context.errors

@[simp]
theorem hasError_removeError (context : ClusterContext) (code : String) :
    (context.removeError code).hasError code = false := by
  simp [hasError, removeError]

/-- A code that was set is set. -/
theorem hasError_addError (context : ClusterContext) (code : String) :
    (context.addError code).hasError code = true := by
  unfold addError
  split
  · assumption
  · simp [hasError]

theorem id_addError (context : ClusterContext) (code : String) : (context.addError code).id = context.id := by
  unfold addError
  split <;> rfl

end ClusterContext

end ClusterMembership
