import Mathlib.Data.Finset.Card
import MaintenanceOperator.Scheduler.Ranker

/-!
# Default scheduler

Port of `internal/scheduler/default_scheduler.go`. The sort of the standard library is a parameter.
A lookup of a node that is not in the cluster state would be a nil dereference: the result is then
`none`.
-/

namespace MaintenanceOperator.Scheduler
open Lib

/-- Go `SchedulerContext`. -/
structure SchedulerContext where
  availableSlots : Int
  canBecomeUnavailable : Int
  candidateNodes : Finset String
  candidateMaintenance : List NodeMaintenance

/-- A node is schedulable and ready. -/
def nodeAvailable (node : Node) : Bool := !isNodeUnschedulable node && isNodeReady node

/-- The loop of `Schedule` over the compacted candidates within the slots. -/
def recommend (nodes : GoMap Node) :
    Int → List RankedNodeMaintenance → Option (List NodeMaintenance)
  | _, [] => some []
  | canBecomeUnavail, c :: rest => do
    let node ← nodes.get? c.nm.spec.nodeName
    if nodeAvailable node then
      if canBecomeUnavail = 0 then
        -- try next nodeMaintenance
        recommend nodes canBecomeUnavail rest
      else
        let recommended ← recommend nodes (canBecomeUnavail - 1) rest
        return c.nm :: recommended
    else
      let recommended ← recommend nodes canBecomeUnavail rest
      return c.nm :: recommended

/-- The candidates in the order and the number in which `Schedule` looks at them. -/
def considered (sorter : Sorter compareRanked) (clusterState : ClusterState)
    (schedulerCtx : SchedulerContext) : List RankedNodeMaintenance :=
  let ranked := rankSlice schedulerCtx.candidateMaintenance
    [inProgressRanker clusterState, leastPendingRanker clusterState]
  let compacted := compactIdenticalNodes [] (sorter.sort ranked)
  compacted.take (min schedulerCtx.availableSlots compacted.length).toNat

/-- Go `defaultScheduler.Schedule`. -/
def schedule (sorter : Sorter compareRanked) (clusterState : ClusterState)
    (schedulerCtx : SchedulerContext) : Option (List NodeMaintenance) :=
  recommend clusterState.nodes schedulerCtx.canBecomeUnavailable
    (considered sorter clusterState schedulerCtx)

end MaintenanceOperator.Scheduler
