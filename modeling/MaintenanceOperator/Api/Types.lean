import MaintenanceOperator.Lib.GoMap

/-!
# API types

Port of `api/v1alpha1/nodemaintenance_types.go`, with the parts of the Kubernetes and OpenShift
types that the operator reads or writes: object metadata, `metav1.Condition`, `corev1.Node`,
`MachineConfig` and `MachineConfigPool`. Go slices are lists (nil and empty identified), pointers are
options, string maps are `GoMap String`. The reason of a condition is an enumeration of the
operator's own reasons, with `other` for a reason some other party wrote.
-/

namespace MaintenanceOperator
open Lib

/-- Condition reasons (Go `ConditionReason*`). -/
inductive Reason where
  | uninitialized
  | pending
  | scheduled
  | cordon
  | waitForPodCompletion
  | draining
  | ready
  | requestorFailed
  | failedMaintenance
  | other (s : String)
  deriving DecidableEq, Repr

/-- `metav1.ConditionStatus`. -/
inductive ConditionStatus where
  | true
  | false
  | unknown
  deriving DecidableEq, Repr

/-- `metav1.Condition`. -/
structure Condition where
  type : String
  status : ConditionStatus
  observedGeneration : Nat
  lastTransitionTime : Nat
  reason : Reason
  message : String
  deriving DecidableEq, Repr

/-- Go `ConditionTypeReady`. -/
def conditionTypeReady : String := "Ready"

/-- Go `ConditionTypeRequestorFailed`. -/
def conditionTypeRequestorFailed : String := "RequestorFailed"

/-- Go `MaintenanceFinalizerName`. -/
def maintenanceFinalizerName : String := "maintenance.nvidia.com/finalizer"

/-- Go `PodEvictionFiterEntry`. -/
structure PodEvictionFiterEntry where
  byResourceNameRegex : Option String
  deriving DecidableEq, Repr

/-- Go `DrainSpec`. -/
structure DrainSpec where
  force : Bool
  podSelector : String
  timeoutSecond : Int
  deleteEmptyDir : Bool
  podEvictionFilters : List PodEvictionFiterEntry
  deriving DecidableEq, Repr

/-- Go `WaitForPodCompletionSpec`. -/
structure WaitForPodCompletionSpec where
  podSelector : String
  timeoutSecond : Int
  deriving DecidableEq, Repr

/-- Go `NodeMaintenanceSpec`. -/
structure NodeMaintenanceSpec where
  requestorID : String
  additionalRequestors : List String
  nodeName : String
  cordon : Bool
  waitForPodCompletion : Option WaitForPodCompletionSpec
  drainSpec : Option DrainSpec
  deriving DecidableEq, Repr

/-- Go `DrainStatus` (API type). -/
structure DrainStatus where
  totalPods : Int
  evictionPods : Int
  drainProgress : Int
  waitForEviction : List String
  deriving DecidableEq, Repr

/-- Go `NodeMaintenanceStatus`. -/
structure NodeMaintenanceStatus where
  conditions : List Condition
  waitForCompletion : List String
  drain : Option DrainStatus
  deriving DecidableEq, Repr

/-- `types.NamespacedName`. -/
structure NamespacedName where
  ns : String
  name : String
  deriving DecidableEq, Repr

/-- `types.NamespacedName.String`. -/
def NamespacedName.toStr (k : NamespacedName) : String := k.ns ++ "/" ++ k.name

/-- `metav1.OwnerReference`; `group` is the group of its `apiVersion`. -/
structure OwnerReference where
  group : String
  kind : String
  name : String
  uid : String
  deriving DecidableEq, Repr

/-- Go `NodeMaintenance`; the fields of the embedded `ObjectMeta` come first. -/
structure NodeMaintenance where
  key : NamespacedName
  uid : String
  resourceVersion : Nat
  generation : Nat
  creationTimestamp : Nat
  deletionTimestamp : Option Nat
  labels : GoMap String
  annotations : GoMap String
  finalizers : List String
  ownerReferences : List OwnerReference
  spec : NodeMaintenanceSpec
  status : NodeMaintenanceStatus
  deriving DecidableEq, Repr

/-- The object is being deleted (Go `!GetDeletionTimestamp().IsZero()`). -/
def NodeMaintenance.deleting (nm : NodeMaintenance) : Bool := nm.deletionTimestamp.isSome

/-- `corev1.NodeCondition`, the fields that are read. -/
structure NodeCondition where
  type : String
  status : ConditionStatus
  deriving DecidableEq, Repr

/-- `corev1.Node`, the fields that are read or written. -/
structure Node where
  name : String
  uid : String
  labels : GoMap String
  annotations : GoMap String
  unschedulable : Bool
  conditions : List NodeCondition
  deriving DecidableEq, Repr

/-- `mcv1.MachineConfig`: who owns it. -/
structure MachineConfig where
  name : String
  ownerReferences : List OwnerReference
  deriving DecidableEq, Repr

/-- Operators of a label selector requirement (`metav1.LabelSelectorOperator`). -/
inductive SelectorOperator where
  | opIn
  | opNotIn
  | opExists
  | opDoesNotExist
  deriving DecidableEq, Repr

/-- `metav1.LabelSelectorRequirement`. -/
structure LabelSelectorRequirement where
  key : String
  operator : SelectorOperator
  values : List String
  deriving DecidableEq, Repr

/-- `metav1.LabelSelector`. -/
structure LabelSelector where
  matchLabels : GoMap String
  matchExpressions : List LabelSelectorRequirement
  deriving DecidableEq, Repr

/-- Whether one requirement accepts a label set (`labels.Requirement.Matches`). -/
def LabelSelectorRequirement.accepts (r : LabelSelectorRequirement) (labels : GoMap String) : Bool :=
  match r.operator with
  | .opIn => (labels.get? r.key).any (· ∈ r.values)
  | .opNotIn => (labels.get? r.key).all (· ∉ r.values)
  | .opExists => (labels.get? r.key).isSome
  | .opDoesNotExist => (labels.get? r.key).isNone

/-- The requirement names values exactly when its operator wants them (`labels.NewRequirement`). -/
def LabelSelectorRequirement.wellFormed (r : LabelSelectorRequirement) : Bool :=
  match r.operator with
  | .opIn | .opNotIn => !r.values.isEmpty
  | .opExists | .opDoesNotExist => r.values.isEmpty

/-- Whether the selector accepts a label set; a nil selector accepts nothing
(`metav1.LabelSelectorAsSelector`). -/
def selectorAccepts (s : Option LabelSelector) (labels : GoMap String) : Bool :=
  match s with
  | none => false
  | some s => s.matchLabels.all (fun kv => labels.get? kv.1 = some kv.2) &&
      s.matchExpressions.all (fun r => r.accepts labels)

/-- `mcv1.MachineConfigPool`, the fields that are read or written. -/
structure MachineConfigPool where
  name : String
  annotations : GoMap String
  nodeSelector : Option LabelSelector
  paused : Bool
  specConfiguration : String
  statusConfiguration : String
  deriving DecidableEq, Repr

end MaintenanceOperator
