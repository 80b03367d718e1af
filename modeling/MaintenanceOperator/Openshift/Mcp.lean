import MaintenanceOperator.K8sUtils

/-!
# Pausing MachineConfigPools

Port of `internal/openshift/mcp.go`. `PauseMCP` and `UnpauseMCP` run under the mutex of the manager:
each is a body (`pauseLocked`, `unpauseLocked`) between `lock` and `unlock`. The polling loop
`waitForObjectUpdate` makes one attempt at once and then one each 250 ms for 10 s, so at most 41.
-/

namespace MaintenanceOperator
open Lib

/-- Go `DesiredMachineConfigAnnotationKey`. -/
def desiredMachineConfigAnnotationKey : String :=
  "machineconfiguration.openshift.io/desiredConfig"

/-- Go `McpNameLabelKey`. -/
def mcpNameLabelKey : String := "maintenance.nvidia.com/paused-mcp-name"

/-- The pool label of an object (Go `nm.Labels[McpNameLabelKey]`, empty if absent). -/
def mcpLabel (nm : NodeMaintenance) : String := (nm.labels.get? mcpNameLabelKey).getD ""

/-- Go `metav1.HasAnnotation(mcp.ObjectMeta, McpPausedAnnotKey)`. -/
def MachineConfigPool.annotated (p : MachineConfigPool) : Bool :=
  (p.annotations.get? mcpPausedAnnotKey).isSome

/-- The operator's annotation has the value the operator gives it. -/
def MachineConfigPool.pausedByOperator (p : MachineConfigPool) : Bool :=
  p.annotations.get? mcpPausedAnnotKey = some mcpPausedAnnotValue

/-- The pool is in the middle of a configuration change. -/
def MachineConfigPool.configuring (p : MachineConfigPool) : Bool :=
  p.specConfiguration ≠ p.statusConfiguration

/-- Attempts of the polling loop. -/
def pollAttempts : Nat := 41

/-- Go `waitForObjectUpdate`: the object as last read, once it passes the check. -/
def waitForObjectUpdate {α : Type} (get : Action α) (checkFn : α → Bool) : Nat → Action α
  -- an error of `get` ends the poll, an object that does not pass the check does not
  | 0 => throw (.other "context deadline exceeded")
  | n + 1 => do
    let obj ← get
    if checkFn obj then
      return obj
    else
      waitForObjectUpdate get checkFn n

/-- The first owner of kind MachineConfigPool. -/
def poolOwner (mc : MachineConfig) : Option String :=
  (mc.ownerReferences.find? (·.kind = "MachineConfigPool")).map OwnerReference.name

/-- Go `getMCPName`. -/
def getMCPName (node : Node) : Action String := do
  match node.annotations.get? desiredMachineConfigAnnotationKey with
  | none => throw (.other ("failed to get MachineConfig, desired machine config annotation for node "
      ++ node.name ++ " not found"))
  | some desiredConfig =>
    let mc ← wrapErr ("failed to get the the node's MachineConfig object with name " ++ desiredConfig
      ++ ". ") (Client.getMachineConfig desiredConfig)
    match poolOwner mc with
    | some name => return name
    | none => throw (.other ("failed to find the MachineConfigPool of the node, no owner for the " ++
        "node's MachineConfig"))

/-- Go `changeMachineConfigPoolPause`; the response overwrites the pool object. -/
def changeMachineConfigPoolPause (mcp : MachineConfigPool) (pause : Bool) :
    Action MachineConfigPool :=
  wrapErr ("failed to patch MachineConfigPool " ++ mcp.name ++ " to pause=" ++
      (if pause then "true" else "false") ++ ": ")
    (Client.patchMachineConfigPool mcp.name pause)

/-- Whether an item of the NodeMaintenance list makes `mcpUsedByOtherNodeMaintenance` answer yes. -/
def usesPool (nodesInPool : List Node) (nm nmItem : NodeMaintenance) : Bool :=
  nodesInPool.any (·.name = nmItem.spec.nodeName) && mcpLabel nmItem ≠ "" && nmItem.key ≠ nm.key

/-- `metav1.LabelSelectorAsSelector`. -/
def labelSelectorAsSelector (s : Option LabelSelector) : Except Err (GoMap String → Bool) :=
  if (s.map LabelSelector.matchExpressions).all (·.all LabelSelectorRequirement.wellFormed) then
    .ok (selectorAccepts s)
  else
    .error (.other "invalid label selector")

/-- Go `mcpUsedByOtherNodeMaintenance`. -/
def mcpUsedByOtherNodeMaintenance (mcp : MachineConfigPool) (nm : NodeMaintenance) : Action Bool := do
  let selector ← labelSelectorAsSelector mcp.nodeSelector
  let nodesInPool ← Client.listNodes selector
  let nml ← Client.listNodeMaintenances
  return nml.any (usesPool nodesInPool nm)

/-- The object carries the name of the pool as a label, and readers see it: the label step of
`PauseMCP`. -/
def setMCPLabel (nm : NodeMaintenance) (mcpName : String) : Action NodeMaintenance := do
  -- other objects decide by this label whether the pool is still in use
  if mcpLabel nm ≠ mcpName then
    let nm ← wrapErr ("failed to pause MachineConfigPool. failed to set MachineConfigPool name " ++
        "annotation on NodeMaintenance " ++ nm.key.name ++ ": ")
      (Client.update { nm with labels := nm.labels.set mcpNameLabelKey mcpName })
    wrapErr ("failed to pause MachineConfigPool " ++ mcpName ++
        ". failed while waiting for NodeMaintenance label to update: ")
      (waitForObjectUpdate (Client.getNodeMaintenance nm.key) (fun o => mcpLabel o = mcpName)
        pollAttempts)
  else
    return nm

/-- The roll-back branch of `PauseMCP`. -/
def rollBack (mcpName : String) (mcp : MachineConfigPool) : Action Unit := do
  let mcp ← wrapErr ("failed to pause MachineConfigPool." ++ mcpName ++
      " is configuring, failed to unpause it: ") (changeMachineConfigPoolPause mcp false)
  let _ ← wrapErr ("failed to pause MachineConfigPool " ++ mcpName ++
      ". failed while waiting for annotation to be removed: ")
    (waitForObjectUpdate (Client.getMachineConfigPool mcp.name) (fun p => !p.annotated) pollAttempts)
  -- the pause has been taken back, and the call still fails
  throw (.wrap ("failed to pause MachineConfigPool. " ++ mcpName ++
    " is in the middle of a configuration change. ") .errMachineConfigBusy)

/-- The pool step of `PauseMCP`: pause the pool unless the operator already has, and roll back when a
configuration change turns out to have started. -/
def pausePool (mcpName : String) : Action Unit := do
  let mcp ← wrapErr ("failed to pause MachineConfigPool. failed to get MachineConfigPool " ++ mcpName ++
      ": ") (Client.getMachineConfigPool mcpName)
  -- the annotation decides; whether the pool is paused is not looked at
  if mcp.pausedByOperator then
    return ()
  else if mcp.paused ∧ mcp.annotated = false then
    throw (.wrap ("failed to pause MachineConfigPool. " ++ mcpName ++
      " is already paused by another entity. ") .errMachineConfigBusy)
  else if mcp.configuring then
    throw (.wrap ("failed to pause MachineConfigPool. " ++ mcpName ++
      " is in the middle of a configuration change. ") .errMachineConfigBusy)
  else
    let mcp ← wrapErr ("failed to pause MachineConfigPool " ++ mcpName ++ ": ")
      (changeMachineConfigPoolPause mcp true)
    let mcp ← wrapErr ("failed to pause MachineConfigPool " ++ mcpName ++
        ". failed while waiting for annotation to update: ")
      (waitForObjectUpdate (Client.getMachineConfigPool mcp.name)
        MachineConfigPool.pausedByOperator pollAttempts)
    if mcp.configuring then
      rollBack mcpName mcp
    else
      return ()

/-- `PauseMCP` under the mutex. -/
def pauseLocked (node : Node) (nm : NodeMaintenance) : Action NodeMaintenance := do
  let mcpName ← wrapErr ("failed to pause MachineConfigPool. failed to get pool for node " ++
    node.name ++ ": ") (getMCPName node)
  let nm ← setMCPLabel nm mcpName
  pausePool mcpName
  return nm

/-- `UnpauseMCP` under the mutex. -/
def unpauseLocked (node : Node) (nm : NodeMaintenance) : Action Unit := do
  let mcpName ← wrapErr ("failed to unpause MachineConfigPool. failed to get pool for node " ++
    node.name ++ ": ") (getMCPName node)
  let mcp ← wrapErr ("failed to unpause MachineConfigPool. failed to get MachineConfigPool " ++
    mcpName ++ ": ") (Client.getMachineConfigPool mcpName)
  -- any value of the annotation counts here, in `pausePool` only the operator's
  if mcp.annotated then
    let used ← wrapErr ("failed to unpause MachineConfigPool " ++ mcpName ++
      ", failed to check if it is used by other nodeMaintenances: ")
      (mcpUsedByOtherNodeMaintenance mcp nm)
    if !used then
      let mcp ← wrapErr ("failed to unpause MachineConfigPool " ++ mcpName ++ ": ")
        (changeMachineConfigPoolPause mcp false)
      let _ ← wrapErr ("failed to unpause MachineConfigPool " ++ mcpName ++
          ". failed while waiting for annotation to be removed: ")
        (waitForObjectUpdate (Client.getMachineConfigPool mcp.name) (fun p => !p.annotated)
          pollAttempts)

/-- Run an action under the mutex (Go `mu.Lock(); defer mu.Unlock()`). -/
def withLock {α : Type} (x : Action α) : Action α := do
  ExceptT.lift (issue .lock)
  -- the deferred unlock runs on every way out
  let r ← observe x
  ExceptT.lift (issue .unlock)
  liftExcept r

/-- The error of an outcome, if it is one. -/
def errorOf {α : Type} : Except Err α → Option Err
  | .ok _ => none
  | .error err => some err

/-- Go `PauseMCP`. -/
def pauseMCP (node : Node) (nm : NodeMaintenance) : Action NodeMaintenance :=
  withLock do
    let r ← observe (pauseLocked node nm)
    trace (.pauseMCP nm (errorOf r))
    liftExcept r

/-- Go `UnpauseMCP`. -/
def unpauseMCP (node : Node) (nm : NodeMaintenance) : Action Unit := do
  trace (.unpauseMCP nm)
  withLock (unpauseLocked node nm)

end MaintenanceOperator
