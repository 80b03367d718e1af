import MaintenanceOperator.Cordon
import MaintenanceOperator.PodCompletion
import MaintenanceOperator.Openshift.Mcp

/-!
# NodeMaintenance controller

Port of `internal/controller/nodemaintenance_controller.go`. A reconcile is an `Action`: an error
comes with the empty result in every return statement of the source. The in-memory object is threaded
through, each successful write replacing it by the response of the server. The delete paths of the
Cordon, WaitForPodCompletion, Draining and terminal handlers share their text: it is `cleanup`.
-/

namespace MaintenanceOperator
open Lib Drain

/-- Go `NodeMaintenanceReconciler`: whether there is a pool manager, and the string formats of the
libraries. -/
structure Reconciler where
  mcpManager : Bool
  formats : Formats

/-- Go `waitPodCompletionRequeueTime`. -/
def waitPodCompletionRequeueTime : Result := ⟨10⟩

/-- Go `drainReqeueTime`. -/
def drainReqeueTime : Result := ⟨10⟩

/-- Go `additionalRequestorsRequeueTime`. -/
def additionalRequestorsRequeueTime : Result := ⟨10⟩

/-- Go `pauseMCPRequeueTime`. -/
def pauseMCPRequeueTime : Result := ⟨10⟩

/-- Go `ReadyTimeAnnotation`. -/
def readyTimeAnnotation : String := "maintenance.nvidia.com/ready-time"

namespace Reconciler
variable (r : Reconciler)

/-- Go `handleFinalizerRemoval`. -/
def handleFinalizerRemoval (nm : NodeMaintenance) : Action Unit := do
  let _ ← removeFinalizer nm maintenanceFinalizerName

/-- `UnpauseMCP`, when there is a pool manager. -/
def unpause (nm : NodeMaintenance) (node : Node) : Action Unit :=
  if r.mcpManager then unpauseMCP node nm else pure ()

/-- What the delete paths of the handlers share: uncordon if the spec asks for cordon, unpause,
remove the finalizer. -/
def cleanup (nm : NodeMaintenance) (node : Node) : Action Unit := do
  let nm ← (if nm.spec.cordon then handleUnCordon nm node else pure nm)
  r.unpause nm node
  handleFinalizerRemoval nm

/-- Go `handleUninitiaizedState`. -/
def handleUninitiaizedState (nm : NodeMaintenance) : Action Unit := do
  let _ ← setReadyConditionReason nm .pending

/-- `PauseMCP` and the rest of `handleScheduledState`. -/
def pauseAndCordon (nm : NodeMaintenance) (node : Node) : Action Result := do
  match ← observe (pauseMCP node nm) with
  | .error err =>
    if err.is .errMachineConfigBusy then
      -- the pool is busy or paused by someone else: try again later
      return pauseMCPRequeueTime
    else
      throw (.wrap "failed to pause MachineConfigPool. " err)
  | .ok nm =>
    let _ ← setReadyConditionReason nm .cordon
    return .zero

/-- Go `handleScheduledState`. -/
def handleScheduledState (nm : NodeMaintenance) (node : Node) : Action Result := do
  if nm.deleting then
    -- nothing is cordoned yet, but the pool may be paused
    r.unpause nm node
    handleFinalizerRemoval nm
    return .zero
  else
    let nm ← addFinalizer nm maintenanceFinalizerName
    if r.mcpManager then
      pauseAndCordon nm node
    else
      let _ ← setReadyConditionReason nm .cordon
      return .zero

/-- Go `handleCordonState`. -/
def handleCordonState (nm : NodeMaintenance) (node : Node) : Action Result := do
  if nm.deleting then
    r.cleanup nm node
    return .zero
  else
    let nm ← (if nm.spec.cordon then handleCordon nm node else pure nm)
    let _ ← setReadyConditionReason nm .waitForPodCompletion
    return .zero

/-- Go `handleWaitPodCompletionState`. -/
def handleWaitPodCompletionState (nm : NodeMaintenance) (node : Node) : Action Result := do
  if nm.deleting then
    r.cleanup nm node
    return .zero
  else if nm.spec.waitForPodCompletion.isSome then
    let waited ← handlePodCompletion r.formats nm
    let nm := waited.1
    match waited.2 with
    | .ok waitingForPods =>
      trace (.podCompletion nm waitingForPods none)
      if waitingForPods.length > 0 then
        return waitPodCompletionRequeueTime
      else
        let _ ← setReadyConditionReason nm .draining
        return .zero
    | .error err =>
      trace (.podCompletion nm [] (some err))
      -- the wait has timed out: the drain goes ahead with the pods still there
      if err.is .errPodCompletionTimeout then
        let _ ← setReadyConditionReason nm .draining
        return .zero
      else
        throw err
  else
    let _ ← setReadyConditionReason nm .draining
    return .zero

/-- Go `drainRequestImpl.Status`, the pods it reports. -/
def podsToDelete (req : Nat) : Action (List String) := do
  let _ ← DrainManager.state req
  let pods ← wrapErr "failed to get pods for deletion. " (DrainManager.getPodsForDeletion req)
  return pods.map NamespacedName.toStr

/-- The drain progress in percent, in the single precision of the source. -/
def drainProgress (removedPods evictionPods : Int) : Int :=
  if evictionPods = 0 then 100
  else (Float32.ofInt removedPods / Float32.ofInt evictionPods * 100).toInt32.toInt

/-- The drain status that `updateDrainStatus` writes, given the initial or stored one. -/
def refreshDrainStatus (drain : DrainStatus) (podsToDelete : List String) : DrainStatus :=
  { drain with
    drainProgress :=
      drainProgress (max (drain.evictionPods - podsToDelete.length) 0) drain.evictionPods
    waitForEviction := podsToDelete }

/-- The drain status that `updateDrainStatus` starts from. -/
def currentDrainStatus (nm : NodeMaintenance) (pods : List String) : Action DrainStatus := do
  match nm.status.drain with
  | some drain => return drain
  | none =>
    let podsOnNode ← wrapErr "failed to list pods. " (Client.listPods nm.spec.nodeName "")
    return ⟨podsOnNode.length, pods.length, 0, []⟩

/-- Go `updateDrainStatus`. -/
def updateDrainStatus (nm : NodeMaintenance) (req : Nat) : Action NodeMaintenance := do
  let pods ← wrapErr "failed to update drain status. " (podsToDelete req)
  let drain ← currentDrainStatus nm pods
  wrapErr "failed to update drain status for NodeMaintenance object. "
    (Client.statusUpdate { nm with
      status := { nm.status with drain := some (refreshDrainStatus drain pods) } })

/-- The state of a request, for the log. -/
def logState : Option Nat → Action Unit
  | some req => do let _ ← DrainManager.state req
  | none => pure ()

/-- Go `handleDrainStateDelete`. -/
def handleDrainStateDelete (nm : NodeMaintenance) (node : Node) : Action Result := do
  let drainReqUID := drainRequestUIDFromNodeMaintenance nm
  let req ← DrainManager.getRequest drainReqUID
  logState req
  DrainManager.removeRequest drainReqUID
  r.cleanup nm node
  return .zero

/-- The branch of `handleDrainState` that sends a new drain request. -/
def sendDrainRequest (nm : NodeMaintenance) : Action Result := do
  let req ← DrainManager.newDrainRequest nm
  -- the progress of an earlier request does not count; the request starts once the status is stored
  let nm := { nm with status := { nm.status with drain := none } }
  let _ ← updateDrainStatus nm req
  let _ ← DrainManager.addRequest req
  return drainReqeueTime

/-- The second state check of `handleDrainState`: two reads, the second only if needed. -/
def drainFailed (req : Nat) : Action Bool := do
  let state ← DrainManager.state req
  if state = .error then
    return true
  else
    let state ← DrainManager.state req
    return state = .canceled

/-- The branch of `handleDrainState` with a drain spec and an outstanding request. The state is read
anew for each check. -/
def followDrainRequest (nm : NodeMaintenance) (spec : DrainSpec) (req : Nat) : Action Result := do
  let uid ← DrainManager.uid req
  let _ ← DrainManager.state req
  let reqSpec ← DrainManager.spec req
  -- the spec was edited since: a new request is sent at the next reconcile
  if reqSpec.spec ≠ spec then
    DrainManager.removeRequest uid
    return drainReqeueTime
  else
    let state ← DrainManager.state req
    if state = .inProgress then
      let _ ← updateDrainStatus nm req
      return drainReqeueTime
    else
      let failed ← drainFailed req
      let _ ← DrainManager.state req
      if failed then
        DrainManager.removeRequest uid
        return drainReqeueTime
      else
        -- not in progress, no error, not canceled: the drain was successful
        let nm ← updateDrainStatus nm req
        DrainManager.removeRequest uid
        let _ ← setReadyConditionReason nm .ready
        return .zero

/-- Clear out the drain status. -/
def clearDrainStatus (nm : NodeMaintenance) : Action NodeMaintenance :=
  if nm.status.drain.isSome then
    Client.statusUpdate { nm with status := { nm.status with drain := none } }
  else
    pure nm

/-- Go `handleDrainState`. -/
def handleDrainState (nm : NodeMaintenance) (node : Node) : Action Result := do
  if nm.deleting then
    r.handleDrainStateDelete nm node
  else
    match nm.spec.drainSpec with
    | some spec =>
      match ← DrainManager.getRequest (drainRequestUIDFromNodeMaintenance nm) with
      | none => sendDrainRequest nm
      | some req => followDrainRequest nm spec req
    | none =>
      DrainManager.removeRequest (drainRequestUIDFromNodeMaintenance nm)
      let nm ← clearDrainStatus nm
      let _ ← setReadyConditionReason nm .ready
      return .zero

/-- The ready-time step of `handleTerminalState`. -/
def setReadyTime (nm : NodeMaintenance) : Action NodeMaintenance := do
  if (nm.annotations.get? readyTimeAnnotation).getD "" = "" then
    let now ← timeNow
    Client.update { nm with
      annotations := nm.annotations.set readyTimeAnnotation (r.formats.format now) }
  else
    return nm

/-- The RequestorFailed condition is present and true. -/
def requestorFailed (nm : NodeMaintenance) : Bool :=
  match findStatusCondition nm.status.conditions conditionTypeRequestorFailed with
  | some cond => cond.status = .true
  | none => false

/-- The RequestorFailed step of `handleTerminalState`. -/
def checkRequestorFailed (nm : NodeMaintenance) : Action Result := do
  let currentReason := getReadyConditionReason nm
  if requestorFailed nm then
    if currentReason = .ready then
      let _ ← setReadyConditionReason nm .requestorFailed
      return .zero
    else
      return .zero
  else if currentReason = .requestorFailed then
    let _ ← setReadyConditionReason nm .ready
    return .zero
  else
    return .zero

/-- Go `handleTerminalState`. -/
def handleTerminalState (nm : NodeMaintenance) (node : Node) : Action Result := do
  if nm.deleting then
    if nm.spec.additionalRequestors.length > 0 then
      -- other requestors still need the node: the deletion waits for them
      return additionalRequestorsRequeueTime
    else
      r.cleanup nm node
      return .zero
  else
    let nm ← r.setReadyTime nm
    checkRequestorFailed nm

/-- `Reconcile` once the object and its node are at hand: the owner reference, and the handler of the
object's state. -/
def dispatch (nm : NodeMaintenance) (node : Node) : Action Result := do
  let owned ← (if hasOwnerRef node nm then pure (nm, none) else setOwnerRef node nm)
  let nm := owned.1
  match getReadyConditionReason nm with
  | .uninitialized => do
    handleUninitiaizedState nm
    return .zero
  | .scheduled => r.handleScheduledState nm node
  | .cordon => r.handleCordonState nm node
  | .waitForPodCompletion => r.handleWaitPodCompletionState nm node
  | .draining => r.handleDrainState nm node
  | .ready | .requestorFailed => r.handleTerminalState nm node
  | _ =>
    -- no handler: an error of `SetOwnerRef` is still in `err`
    match owned.2 with
    | some err => throw err
    | none => return .zero

/-- The node-not-found branch of `Reconcile`. -/
def handleNodeNotFound (nm : NodeMaintenance) : Action Result := do
  -- the finalizer goes without uncordon, unpause or an end of the drain
  trace (.nodeNotFound nm)
  let _ ← removeFinalizer nm maintenanceFinalizerName
  return .zero

/-- Go `Reconcile`. -/
def reconcile (key : NamespacedName) : Action Result := do
  match ← observe (Client.getNodeMaintenance key) with
  | .error err => if err = .notFound then return .zero else throw err
  | .ok nm =>
    match ← observe (Client.getNode nm.spec.nodeName) with
    | .error err => if err = .notFound then handleNodeNotFound nm else throw err
    | .ok node => r.dispatch nm node

end Reconciler
end MaintenanceOperator
