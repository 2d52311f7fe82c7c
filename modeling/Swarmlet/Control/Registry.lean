import Swarmlet.Protocol.Types

/-!
# Rows of the registry

What the control plane knows of a node and of an assignment it sent. An assignment row is *live*
until its node has acknowledged the stop: only then are its ports and memory free again.
-/

namespace Swarmlet

structure NodeRow where
  id : NodeId
  certFp : String
  hostname : String
  os : Os
  online : Bool
  caps : Option Capabilities := none
  offer : Option Offer := none
  models : List ModelFile := []
  metrics : Option NodeMetrics := none
deriving DecidableEq

namespace NodeRow

def offers (n : NodeRow) : Bool := n.offer.any (·.enabled)

def gpus (n : NodeRow) : List GpuDevice := (n.caps.map (·.gpus)).getD []

end NodeRow

/-- The state column of an assignment row: just sent, or what its agent reported last. -/
inductive RowState
  | sent
  | reported (state : AssignmentState)
deriving DecidableEq, Repr

structure AssignmentRow where
  id : AssignmentId
  deploymentId : DeploymentId
  nodeId : NodeId
  body : Assignment
  state : RowState
  detail : Option String := none
  updatedAt : ℕ
  retired : Bool := false
  /-- History: the plan the row was dispatched for. No function of the control plane reads it. -/
  origin : Option Plan := none
deriving DecidableEq

namespace AssignmentRow

def live (r : AssignmentRow) : Bool := r.state != .reported .stopped

/-- Only watches a server that something else runs; holds no port and no memory. -/
def healthWatch (r : AssignmentRow) : Bool := r.body.isExternalWatch

end AssignmentRow

end Swarmlet
