import MaintenanceOperator.Api.RoundTrip
import MaintenanceOperator.Drain.Request
import MaintenanceOperator.Lib.Store

/-!
# The cluster

What the operator acts on: the objects held by the API server, and the drain requests held in the
operator's own memory. Every write of a NodeMaintenance gets a fresh resource version and is kept in
`history`, so that a read may be answered from any earlier version. `World.update` and
`World.statusUpdate` are the server's side of the two client calls: both compare the resource version
of the body with the stored one, a whole-object update never touches the status, a status update
touches nothing else, and an object that is being deleted disappears with its last finalizer.
-/

namespace MaintenanceOperator
open Lib Drain

/-- Events of a run that leave no trace in the cluster: log lines and calls across the operator's
own interfaces. -/
inductive Note where
  | nodeNotFound (nm : NodeMaintenance)
  | podCompletion (nm : NodeMaintenance) (pods : List String) (err : Option Err)
  | pauseMCP (nm : NodeMaintenance) (err : Option Err)
  | unpauseMCP (nm : NodeMaintenance)
  deriving DecidableEq

/-- The state of the cluster and of the operator's drain manager. -/
structure World where
  nms : Store NodeMaintenance NodeMaintenance.key
  history : List NodeMaintenance
  revision : Nat
  nodes : Store Node Node.name
  machineConfigs : Store MachineConfig MachineConfig.name
  pools : Store MachineConfigPool MachineConfigPool.name
  requests : List DrainRequest
  drainRequests : GoMap Nat
  notes : List Note

/-- The deletion of the object is complete. -/
def NodeMaintenance.gone (o : NodeMaintenance) : Bool := o.deleting && o.finalizers.isEmpty

/-- A newly created NodeMaintenance. -/
def newNodeMaintenance (key : NamespacedName) (uid : String) (spec : NodeMaintenanceSpec) :
    NodeMaintenance where
  key := key
  uid := uid
  resourceVersion := 0
  generation := 1
  creationTimestamp := 0
  deletionTimestamp := none
  labels := []
  annotations := []
  finalizers := []
  ownerReferences := []
  spec := spec
  status := ⟨[], [], none⟩

namespace World

/-- A cluster without objects. -/
def empty : World where
  nms := .empty
  history := []
  revision := 0
  nodes := .empty
  machineConfigs := .empty
  pools := .empty
  requests := []
  drainRequests := []
  notes := []

/-- The object with the next resource version. -/
def stamp (w : World) (o : NodeMaintenance) : NodeMaintenance :=
  { o with resourceVersion := w.revision + 1 }

/-- Store a new version of a NodeMaintenance, or drop it when its deletion is complete. -/
def write (w : World) (o : NodeMaintenance) : World :=
  { w with
    nms := if o.gone then w.nms.erase o.key else w.nms.put (w.stamp o)
    history := w.stamp o :: w.history
    revision := w.revision + 1 }

/-- The version that a whole-object update with body `b` makes of the stored object `o`. -/
def merge (w : World) (o b : NodeMaintenance) (spec : NodeMaintenanceSpec) : NodeMaintenance :=
  { o with
    labels := b.labels
    annotations := b.annotations
    finalizers := b.finalizers
    ownerReferences := b.ownerReferences
    spec := spec
    generation := if spec = o.spec then o.generation else o.generation + 1
    resourceVersion := w.revision + 1 }

/-- Server side of `client.Update`: the new version and the cluster after it. -/
def update (w : World) (b : NodeMaintenance) : Option (NodeMaintenance × World) := do
  let o ← w.nms.get b.key
  let spec ← putSpec b.spec
  -- optimistic concurrency, no new finalizers on a deleting object, immutable fields
  if o.uid = b.uid ∧ o.resourceVersion = b.resourceVersion ∧
      (o.deleting = true → ∀ f ∈ b.finalizers, f ∈ o.finalizers) ∧
      spec.nodeName = o.spec.nodeName ∧ spec.requestorID = o.spec.requestorID then
    return (w.merge o b spec, w.write (w.merge o b spec))
  else none

/-- The version that a status update with body `b` makes of the stored object `o`. -/
def mergeStatus (w : World) (o b : NodeMaintenance) : NodeMaintenance :=
  { o with status := b.status, resourceVersion := w.revision + 1 }

/-- Server side of `client.Status().Update`. -/
def statusUpdate (w : World) (b : NodeMaintenance) : Option (NodeMaintenance × World) := do
  let o ← w.nms.get b.key
  if o.uid = b.uid ∧ o.resourceVersion = b.resourceVersion then
    return (w.mergeStatus o b, w.write (w.mergeStatus o b))
  else none

/-- Server side of the node patch of `drain.RunCordonOrUncordon`. -/
def patchUnschedulable (w : World) (name : String) (desired : Bool) : Option World := do
  let n ← w.nodes.get name
  return { w with nodes := w.nodes.put { n with unschedulable := desired } }

end World

/-- Go `McpPausedAnnotKey`. -/
def mcpPausedAnnotKey : String := "maintenance.nvidia.com/mcp-paused"

/-- Go `McpPausedAnnotValue`. -/
def mcpPausedAnnotValue : String := "true"

/-- The merge patch of `changeMachineConfigPoolPause`, applied to a pool. -/
def MachineConfigPool.patch (p : MachineConfigPool) (pause : Bool) : MachineConfigPool :=
  if pause then
    { p with paused := true, annotations := p.annotations.set mcpPausedAnnotKey mcpPausedAnnotValue }
  else
    { p with paused := false, annotations := p.annotations.delete mcpPausedAnnotKey }

namespace World

/-- Server side of the pool patch. -/
def patchPool (w : World) (name : String) (pause : Bool) : Option (MachineConfigPool × World) := do
  let p ← w.pools.get name
  return (p.patch pause, { w with pools := w.pools.put (p.patch pause) })

/-- Go `managerImpl.AddRequest`. -/
def addRequest (w : World) (id : Nat) : Option (Option Err × World) := do
  let q ← w.requests[id]?
  if (w.drainRequests.get? q.uid).isSome then
    return (some .errDrainRequestExists, w)
  else
    return (none, { w with
      requests := w.requests.modify id DrainRequest.startDrain
      drainRequests := w.drainRequests.set q.uid id })

/-- Go `managerImpl.RemoveRequest`; a drain that has to be waited for ends with `err`. -/
def removeRequest (w : World) (uid : String) (err : Option Err) : World :=
  match w.drainRequests.get? uid with
  | none => w
  | some id => { w with
      requests := w.requests.modify id (·.cancelDrain err)
      drainRequests := w.drainRequests.delete uid }

end World
end MaintenanceOperator
