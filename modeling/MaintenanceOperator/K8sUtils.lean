import MaintenanceOperator.Cluster.Calls

/-!
# Kubernetes utilities

Port of `internal/k8sutils/k8sutils.go`, with `meta.FindStatusCondition`, `meta.SetStatusCondition`
and `controllerutil.SetOwnerReference`, which it calls. A function that changes the object it is given
through its pointer returns the object; where the caller goes on after an error, it returns both.
-/

namespace MaintenanceOperator
open Lib

/-- `meta.FindStatusCondition`. -/
def findStatusCondition (conditions : List Condition) (type : String) : Option Condition :=
  conditions.find? (·.type = type)

/-- Overwrite a condition by a new one of the same type, as `meta.SetStatusCondition` does. -/
def Condition.overwrite (existing new : Condition) (now : Nat) : Condition :=
  { existing with
    status := new.status
    lastTransitionTime := if existing.status = new.status then existing.lastTransitionTime else now
    reason := new.reason
    message := new.message
    observedGeneration := new.observedGeneration }

/-- `meta.SetStatusCondition`, for a new condition without a transition time: the conditions, and
whether they changed. -/
def setStatusCondition (new : Condition) (now : Nat) : List Condition → List Condition × Bool
  | [] => ([{ new with lastTransitionTime := now }], true)
  | c :: cs =>
    if c.type = new.type then
      (c.overwrite new now :: cs,
        c.status ≠ new.status || c.reason ≠ new.reason || c.message ≠ new.message ||
          c.observedGeneration ≠ new.observedGeneration)
    else
      let (cs', changed) := setStatusCondition new now cs
      (c :: cs', changed)

/-- Go `GetReadyConditionReason`. -/
def getReadyConditionReason (nm : NodeMaintenance) : Reason :=
  match findStatusCondition nm.status.conditions conditionTypeReady with
  | none => .uninitialized
  | some cond => cond.reason

/-- The condition that `SetReadyConditionReasonMsg` sets. -/
def readyCondition (nm : NodeMaintenance) (reason : Reason) (msg : String) : Condition where
  type := conditionTypeReady
  status := if reason = .ready then .true else .false
  observedGeneration := nm.generation
  lastTransitionTime := 0
  reason := reason
  message := msg

/-- The object with its Ready condition set. -/
def withReadyReason (nm : NodeMaintenance) (reason : Reason) (msg : String) (now : Nat) :
    NodeMaintenance :=
  { nm with status := { nm.status with
    conditions := (setStatusCondition (readyCondition nm reason msg) now nm.status.conditions).1 } }

/-- Go `SetReadyConditionReasonMsg`. -/
def setReadyConditionReasonMsg (nm : NodeMaintenance) (reason : Reason) (msg : String) :
    Action NodeMaintenance := do
  let now ← timeNow
  let changed := (setStatusCondition (readyCondition nm reason msg) now nm.status.conditions).2
  let nm := withReadyReason nm reason msg now
  if changed then
    Client.statusUpdate nm
  else
    return nm

/-- Go `SetReadyConditionReason`. -/
def setReadyConditionReason (nm : NodeMaintenance) (reason : Reason) : Action NodeMaintenance :=
  setReadyConditionReasonMsg nm reason ""

/-- The condition just set is found, with its status and reason. -/
lemma findStatusCondition_setStatusCondition_self (new : Condition) (now : Nat)
    (cs : List Condition) :
    ∃ c, findStatusCondition (setStatusCondition new now cs).1 new.type = some c ∧
      c.status = new.status ∧ c.reason = new.reason := by
  induction cs with
  | nil =>
    exact ⟨{ new with lastTransitionTime := now }, by simp [setStatusCondition, findStatusCondition],
      rfl, rfl⟩
  | cons c cs ih =>
    rw [setStatusCondition]
    split
    · rename_i h
      exact ⟨c.overwrite new now, by simp [findStatusCondition, Condition.overwrite, h], rfl, rfl⟩
    · rename_i h
      obtain ⟨c', hc', hs⟩ := ih
      exact ⟨c', by simpa [findStatusCondition, h] using hc', hs⟩

@[simp] lemma getReadyConditionReason_withReadyReason (nm : NodeMaintenance) (reason : Reason)
    (msg : String) (now : Nat) :
    getReadyConditionReason (withReadyReason nm reason msg now) = reason := by
  obtain ⟨c, hc, -, hr⟩ := findStatusCondition_setStatusCondition_self
    (readyCondition nm reason msg) now nm.status.conditions
  have hc' : findStatusCondition (withReadyReason nm reason msg now).status.conditions
      conditionTypeReady = some c := hc
  simp [getReadyConditionReason, hc', hr, readyCondition]

/-- Go `IsUnderMaintenance`. -/
def isUnderMaintenance (nm : NodeMaintenance) : Bool :=
  match getReadyConditionReason nm with
  | .uninitialized | .pending => false
  | _ => true

/-- Go `IsNodeReady`. -/
def isNodeReady (n : Node) : Bool :=
  n.conditions.all fun cond => !(cond.type = "Ready" && cond.status ≠ .true)

/-- Go `IsNodeUnschedulable`. -/
def isNodeUnschedulable (n : Node) : Bool := n.unschedulable

/-- Go `AddFinalizer`. -/
def addFinalizer (nm : NodeMaintenance) (finalizer : String) : Action NodeMaintenance :=
  if finalizer ∈ nm.finalizers then
    return nm
  else
    Client.update { nm with finalizers := nm.finalizers ++ [finalizer] }

/-- Go `RemoveFinalizer`; only the first occurrence is deleted. -/
def removeFinalizer (nm : NodeMaintenance) (finalizer : String) : Action NodeMaintenance :=
  if finalizer ∈ nm.finalizers then
    Client.update { nm with finalizers := nm.finalizers.erase finalizer }
  else
    return nm

/-- `controllerutil.upsertOwnerRef`: references to the same object are replaced. -/
def upsertOwnerRef (ref : OwnerReference) : List OwnerReference → List OwnerReference
  | [] => [ref]
  | o :: os =>
    if o.group = ref.group ∧ o.kind = ref.kind ∧ o.name = ref.name then ref :: os
    else o :: upsertOwnerRef ref os

/-- The owner reference that `controllerutil.SetOwnerReference` makes for a node. -/
def nodeOwnerRef (node : Node) : OwnerReference := ⟨"", "Node", node.name, node.uid⟩

/-- Go `SetOwnerRef`, for a node. -/
def setOwnerRef (owner : Node) (nm : NodeMaintenance) : Action (NodeMaintenance × Option Err) := do
  let nm := { nm with ownerReferences := upsertOwnerRef (nodeOwnerRef owner) nm.ownerReferences }
  match ← observe (Client.update nm) with
  | .ok nm => return (nm, none)
  | .error err => return (nm, some err)

/-- Go `HasOwnerRef`, for a node. -/
def hasOwnerRef (owner : Node) (nm : NodeMaintenance) : Bool :=
  nm.ownerReferences.any (·.uid = owner.uid)

end MaintenanceOperator
