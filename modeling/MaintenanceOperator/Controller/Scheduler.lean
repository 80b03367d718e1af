import Mathlib.Algebra.Group.Int.Defs
import MaintenanceOperator.Scheduler.DefaultScheduler

/-!
# Scheduler controller

Port of `internal/controller/nodemaintenancescheduler_controller.go`, with
`intstr.GetScaledValueFromIntOrPercent`, whose floating point quotients are exact for the numbers of
nodes in question. The goroutines that write the recommended objects take their turns in any order:
`shuffle` draws it.
-/

namespace MaintenanceOperator.Scheduler
open Lib

/-- `intstr.IntOrString`. -/
inductive IntOrString where
  | int (n : Int)
  | str (s : String)
  deriving DecidableEq, Repr

/-- The number that a sequence of decimal digits denotes. -/
def parseDigits (cs : List Char) : Option Nat :=
  if !cs.isEmpty && cs.all Char.isDigit then
    some (cs.foldl (fun n c => 10 * n + (c.toNat - '0'.toNat)) 0)
  else
    none

/-- `strconv.Atoi`. -/
def atoi (cs : List Char) : Option Int :=
  let n := match cs with
    | '-' :: ds => (parseDigits ds).map fun n => -(n : Int)
    | '+' :: ds => (parseDigits ds).map Int.ofNat
    | ds => (parseDigits ds).map Int.ofNat
  n.filter fun n => -2 ^ 63 ≤ n ∧ n < 2 ^ 63

/-- `intstr.GetScaledValueFromIntOrPercent`. -/
def getScaledValueFromIntOrPercent (v : IntOrString) (total : Int) (roundUp : Bool) :
    Except Err Int :=
  match v with
  | .int n => .ok n
  | .str s =>
    if s.toList.getLast? = some '%' then
      match atoi s.toList.dropLast with
      -- `math.Ceil` and `math.Floor` of the scaled value
      | some value => .ok (if roundUp then -(-(value * total) / 100) else value * total / 100)
      | none => .error (.other "invalid value for IntOrString: invalid value")
    else
      .error (.other "invalid value for IntOrString: invalid type: string is not a percentage")

/-- Go `NodeMaintenanceSchedulerReconcilerOptions`, as loaded. -/
structure Options where
  maxUnavailable : Option IntOrString
  maxParallelOperations : Option IntOrString
  deriving DecidableEq, Repr

/-- Go `getMaxUnavailableNodes`. -/
def Options.getMaxUnavailableNodes (o : Options) (totalNumOfNodes : Int) : Except Err Int :=
  match o.maxUnavailable with
  -- not set: no bound on unavailable nodes, and `preSchedule` takes the slots instead
  | none => .ok (-1)
  | some v => getScaledValueFromIntOrPercent v totalNumOfNodes false

/-- Go `getMaxOperations`. -/
def Options.getMaxOperations (o : Options) (totalNumOfNodes : Int) : Except Err Int :=
  match o.maxParallelOperations with
  -- not set: one operation at a time
  | none => .ok 1
  | some v => getScaledValueFromIntOrPercent v totalNumOfNodes true

/-- Go `getCurrentUnavailableNodes`. -/
def getCurrentUnavailableNodes (nl : List Node) : List String :=
  (nl.filter fun node => isNodeUnschedulable node || !isNodeReady node).map Node.name

/-- The names of the nodes (`nodesAsSet` in `preSchedule`). -/
def nodesAsSet (nodes : List Node) : Finset String := (nodes.map Node.name).toFinset

/-- Existing nodes with a NodeMaintenance that passes the test. -/
def nodesWith (p : NodeMaintenance → Bool) (nodes : List Node)
    (nodeMaintenances : List NodeMaintenance) : Finset String :=
  ((nodeMaintenances.filter fun nm => p nm && nm.spec.nodeName ∈ nodesAsSet nodes).map
    fun nm => nm.spec.nodeName).toFinset

/-- `nodesUnderMaintenance` in `preSchedule`. -/
def nodesUnderMaintenance : List Node → List NodeMaintenance → Finset String :=
  nodesWith isUnderMaintenance

/-- `nodesPendingMaintenance` in `preSchedule`. -/
def nodesPendingMaintenance : List Node → List NodeMaintenance → Finset String :=
  nodesWith fun nm => getReadyConditionReason nm = .pending

/-- `totalNodeUnavailable` in `preSchedule`. -/
def totalNodeUnavailable (nodes : List Node) (nodeMaintenances : List NodeMaintenance) :
    Finset String :=
  (getCurrentUnavailableNodes nodes).toFinset ∪ nodesUnderMaintenance nodes nodeMaintenances

/-- The error of `errors.Wrapf(err, msg)`. -/
def wrapExcept {α : Type} (msg : String) : Except Err α → Except Err α
  | .ok a => .ok a
  | .error err => .error (.wrap (msg ++ ": ") err)

/-- Go `preSchedule`. -/
def preSchedule (o : Options) (nodes : List Node) (nodeMaintenances : List NodeMaintenance) :
    Except Err SchedulerContext := do
  let underMaintenance := nodesUnderMaintenance nodes nodeMaintenances
  let maxUnavailable ←
    wrapExcept "failed to calculate max unavailable nodes allowed in the cluster"
      (o.getMaxUnavailableNodes nodes.length)
  let maxOperations ←
    wrapExcept "failed to calculate max parallel operations allowed in the cluster"
      (o.getMaxOperations nodes.length)
  let availableSlots := min (max 0 (maxOperations - underMaintenance.card)) nodes.length
  let canBecomeUnavailable :=
    if maxUnavailable ≥ 0 then
      max 0 (maxUnavailable - (totalNodeUnavailable nodes nodeMaintenances).card)
    else
      availableSlots
  let candidateNodes := nodesPendingMaintenance nodes nodeMaintenances \ underMaintenance
  return {
    availableSlots := availableSlots
    canBecomeUnavailable := canBecomeUnavailable
    candidateNodes := candidateNodes
    candidateMaintenance := nodeMaintenances.filter fun nm => nm.spec.nodeName ∈ candidateNodes }

/-- The decision of one round: `preSchedule`, `NewClusterState` and `Schedule` on one snapshot. -/
def decision (sorter : Sorter compareRanked) (o : Options) (nodes : List Node)
    (nodeMaintenances : List NodeMaintenance) : Except Err (Option (List NodeMaintenance)) := do
  let ctx ← preSchedule o nodes nodeMaintenances
  if ctx.candidateMaintenance.isEmpty || ctx.candidateNodes = ∅ || ctx.availableSlots = 0 then
    return some []
  else
    return schedule sorter (newClusterState nodes nodeMaintenances) ctx

/-- Attempts of the polling loop of `Reconcile`: one each 500 ms for 10 s. -/
def schedulerPollAttempts : Nat := 20

/-- Wait until readers see the object under maintenance, or gone; other errors are retried. -/
def waitScheduled (key : NamespacedName) : Nat → Action Unit
  -- the caller only logs that the poll has run out
  | 0 => pure ()
  | n + 1 => do
    match ← observe (Client.getNodeMaintenance key) with
    | .error err => if err = .notFound then return () else waitScheduled key n
    | .ok updatedNm => if isUnderMaintenance updatedNm then return () else waitScheduled key n

/-- One goroutine of `Reconcile`: the status update of a recommended object. -/
def markScheduled (nm : NodeMaintenance) : Action Unit := do
  match ← observe (setReadyConditionReason nm .scheduled) with
  | .error _ => return ()
  | .ok nm => waitScheduled nm.key schedulerPollAttempts

/-- Go `schedulerSyncTime`. -/
def schedulerSyncTime : Result := ⟨10⟩

/-- Go `Reconcile` of the scheduler controller. -/
def reconcile (sorter : Sorter compareRanked) (o : Options) : Action Result := do
  let nodes ← Client.listNodes fun _ => true
  let nms ← Client.listNodeMaintenances
  let toSchedule ← decision sorter o nodes nms
  match toSchedule with
  -- `Schedule` has read a node that is not in the snapshot
  | none => throw (.other "invalid memory address or nil pointer dereference")
  | some toSchedule =>
    -- one goroutine for each object: they take their turns in any order
    let order ← ExceptT.lift (issue (.shuffle toSchedule))
    List.forM order markScheduled
    return schedulerSyncTime

end MaintenanceOperator.Scheduler
