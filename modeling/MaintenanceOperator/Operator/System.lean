import MaintenanceOperator.Cluster.Events
import MaintenanceOperator.Controller.NodeMaintenance
import MaintenanceOperator.Controller.Scheduler
import MaintenanceOperator.Lib.System

/-!
# The operator at work

The two controllers as threads over the cluster: one worker per NodeMaintenance key, as the work queue
guarantees, and one for the scheduler. Their calls interleave with each other and with the events of
the environment. Reads come from a cache that may lag behind arbitrarily, with one exception: the list
that a scheduler round starts from reflects the scheduler's own earlier writes, which are kept in
`written`.
-/

namespace MaintenanceOperator
open Lib

/-- The cluster, and the versions that the scheduler wrote. -/
structure OperatorState where
  world : World
  written : List NodeMaintenance

/-- Workers of the controllers. -/
inductive Worker where
  | scheduler
  | reconciler (key : NamespacedName)
  deriving DecidableEq

/-- The versions written between two states of the cluster. -/
def newVersions (w w' : World) : List NodeMaintenance :=
  w'.history.take (w'.history.length - w.history.length)

/-- A list reflects the writes of the scheduler: what it wrote, and still exists, is there in that
version or a later one. -/
def ReflectsOwnWrites (s : OperatorState) : (e : Op) → Resp e → Prop
  | .listNodeMaintenances, r => ∀ l, r = .ok l → ∀ v ∈ s.written, ∀ o,
      s.world.nms.get v.key = some o → o.uid = v.uid →
        ∃ x ∈ l, x.uid = v.uid ∧ v.resourceVersion ≤ x.resourceVersion
  | _, _ => True

/-- Calls of the workers. -/
def operatorExec : Worker → (e : Op) → OperatorState → Resp e → OperatorState → Prop
  | .reconciler _, e, s, r, s' => Perform .cached e s.world r s'.world ∧ s'.written = s.written
  | .scheduler, e, s, r, s' => Perform .cached e s.world r s'.world ∧
      s'.written = newVersions s.world s'.world ++ s.written ∧ ReflectsOwnWrites s e r

/-- The operator: a reconciler for each key, and the scheduler with any options. -/
def operator (r : Reconciler) (sorter : Sorter Scheduler.compareRanked) :
    System Worker Op Resp OperatorState (Except Err Result) where
  exec := operatorExec
  env c s' := Event c.state.world s'.world ∧ s'.written = c.state.written
  body
    | .reconciler key, p => p = (r.reconcile key).run
    | .scheduler, p => ∃ o, p = (Scheduler.reconcile sorter o).run

/-- At most one NodeMaintenance is under maintenance on each node. -/
def OnePerNode (w : World) : Prop :=
  ∀ k o k' o', w.nms.get k = some o → w.nms.get k' = some o' → isUnderMaintenance o = true →
    isUnderMaintenance o' = true → o.spec.nodeName = o'.spec.nodeName → k = k'

instance (w : World) : Decidable (OnePerNode w) :=
  decidable_of_iff (∀ o ∈ w.nms.items, ∀ o' ∈ w.nms.items, isUnderMaintenance o = true →
      isUnderMaintenance o' = true → o.spec.nodeName = o'.spec.nodeName → o.key = o'.key) <| by
    refine ⟨fun h k o k' o' ho ho' hu hu' hname => ?_, fun h o ho o' ho' => ?_⟩
    · obtain rfl := Store.key_of_get ho
      obtain rfl := Store.key_of_get ho'
      exact h o (Store.get_mem ho) o' (Store.get_mem ho') hu hu' hname
    · exact h o.key o o'.key o' (Store.mem_items.mp ho) (Store.mem_items.mp ho')

/-- All workers are idle. -/
def idle (s : OperatorState) : Config Worker Op Resp OperatorState (Except Err Result) :=
  ⟨s, fun _ => none⟩

end MaintenanceOperator
