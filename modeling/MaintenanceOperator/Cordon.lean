import MaintenanceOperator.K8sUtils

/-!
# Cordon handler

Port of `internal/cordon/cordon.go`.
-/

namespace MaintenanceOperator
open Lib

/-- Go `NodeInitialStateUnschedulableAnnot`. -/
def nodeInitialStateUnschedulableAnnot : String :=
  "maintenance.nvidia.com/node-initial-state.unschedulable"

/-- Go `FalseString`. -/
def falseString : String := "false"

/-- Go `fmt.Sprintf("%v", b)` for a boolean. -/
def formatBool (b : Bool) : String := if b then "true" else "false"

/-- The initial-state annotation of an object. -/
def initialState (nm : NodeMaintenance) : Option String :=
  nm.annotations.get? nodeInitialStateUnschedulableAnnot

/-- The annotation step of `HandleCordon`. -/
def recordInitialState (nm : NodeMaintenance) (node : Node) : Action NodeMaintenance :=
  if (initialState nm).isNone then
    -- the state of the node as it was read, before any cordon of this object
    Client.update { nm with
      annotations := nm.annotations.set nodeInitialStateUnschedulableAnnot
        (formatBool node.unschedulable) }
  else
    pure nm

/-- Go `HandleCordon`. -/
def handleCordon (nm : NodeMaintenance) (node : Node) : Action NodeMaintenance := do
  let nm ← recordInitialState nm node
  -- a node that was cordoned before is left alone
  if initialState nm = some falseString ∧ node.unschedulable = false then
    runCordonOrUncordon node true
    return nm
  else
    return nm

/-- The annotation step of `HandleUnCordon`. -/
def dropInitialState (nm : NodeMaintenance) : Action NodeMaintenance :=
  if (initialState nm).isSome then
    Client.update { nm with
      annotations := nm.annotations.delete nodeInitialStateUnschedulableAnnot }
  else
    pure nm

/-- Go `HandleUnCordon`. -/
def handleUnCordon (nm : NodeMaintenance) (node : Node) : Action NodeMaintenance := do
  -- only a node that this object has cordoned is uncordoned
  if initialState nm = some falseString ∧ node.unschedulable = true then
    runCordonOrUncordon node false
    dropInitialState nm
  else
    dropInitialState nm

end MaintenanceOperator
