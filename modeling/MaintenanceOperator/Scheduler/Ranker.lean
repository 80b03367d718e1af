import MaintenanceOperator.K8sUtils
import MaintenanceOperator.Lib.Sorting

/-!
# Ranking of candidates

Port of `internal/scheduler/scheduler.go` (the cluster state) and `internal/scheduler/ranker.go`.
-/

namespace MaintenanceOperator.Scheduler
open Lib

/-- Go `ClusterState`. -/
structure ClusterState where
  nodes : GoMap Node
  maintenanceInProgress : List NodeMaintenance
  maintenancePending : List NodeMaintenance

/-- Go `NewClusterState`. -/
def newClusterState (nodes : List Node) (nodeMaintenances : List NodeMaintenance) : ClusterState where
  nodes := nodes.foldl (fun m n => m.set n.name n) []
  maintenanceInProgress := nodeMaintenances.filter isUnderMaintenance
  maintenancePending := nodeMaintenances.filter fun nm =>
    !isUnderMaintenance nm && getReadyConditionReason nm = .pending

/-- Go `RankedNodeMaintenance`. -/
@[ext] structure RankedNodeMaintenance where
  nm : NodeMaintenance
  rank : Int
  deriving DecidableEq

/-- Go `InProgressRankerWeight`. -/
def inProgressRankerWeight : Int := 1000

/-- Go `LeastPendingRankerMaxWeight`. -/
def leastPendingRankerMaxWeight : Int := 100

/-- Go `CompareRanked`. -/
def compareRanked (a b : RankedNodeMaintenance) : Ordering :=
  -- higher rank first, then older first
  (compare b.rank a.rank).then <|
  (compare a.nm.creationTimestamp b.nm.creationTimestamp).then <|
  (compare a.nm.spec.nodeName b.nm.spec.nodeName).then <|
  (compare a.nm.spec.requestorID b.nm.spec.requestorID).then <|
  compare a.nm.key.toStr b.nm.key.toStr

/-- The comparison is a total preorder, so every list can be sorted by it. -/
instance : Std.TransCmp compareRanked :=
  inferInstanceAs <| Std.TransCmp <|
    compareLex (fun a b => compareOn RankedNodeMaintenance.rank b a) <|
    compareLex (compareOn fun a => a.nm.creationTimestamp) <|
    compareLex (compareOn fun a => a.nm.spec.nodeName) <|
    compareLex (compareOn fun a => a.nm.spec.requestorID) <|
    compareOn fun a => a.nm.key.toStr

/-- Go `inProgressRanker.Rank`. -/
def inProgressRanker (cs : ClusterState) (rnm : RankedNodeMaintenance) : RankedNodeMaintenance :=
  if cs.maintenanceInProgress.any fun nm => rnm.nm.spec.requestorID = nm.spec.requestorID then
    { rnm with rank := rnm.rank + inProgressRankerWeight }
  else
    rnm

/-- Go `leastPendingRanker.Rank`. -/
def leastPendingRanker (cs : ClusterState) (rnm : RankedNodeMaintenance) : RankedNodeMaintenance :=
  let totalPending : Int :=
    cs.maintenancePending.countP fun nm => nm.spec.requestorID = rnm.nm.spec.requestorID
  let totalPending :=
    -- beyond the maximal weight all requestors rank alike
    if totalPending > leastPendingRankerMaxWeight then leastPendingRankerMaxWeight else totalPending
  { rnm with rank := rnm.rank + (leastPendingRankerMaxWeight - totalPending) }

/-- Go `RankSlice`. -/
def rankSlice (maintenances : List NodeMaintenance)
    (rankers : List (RankedNodeMaintenance → RankedNodeMaintenance)) : List RankedNodeMaintenance :=
  rankers.foldl (fun ranked r => ranked.map r) (maintenances.map fun nm => ⟨nm, 0⟩)

/-- Go `CompactIdenticalNodes`; `seen` holds the node names met so far. -/
def compactIdenticalNodes (seen : List String) :
    List RankedNodeMaintenance → List RankedNodeMaintenance
  | [] => []
  | rnm :: rest =>
    if rnm.nm.spec.nodeName ∈ seen then
      compactIdenticalNodes seen rest
    else
      rnm :: compactIdenticalNodes (rnm.nm.spec.nodeName :: seen) rest

end MaintenanceOperator.Scheduler
