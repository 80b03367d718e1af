import MaintenanceOperator.Cluster.Serve
import MaintenanceOperator.Lib.Script
import MaintenanceOperator.Operator.System

/-!
# Computed runs of the operator

A player for the operator: workers start their reconciles, calls are answered at once from the present
cluster, and the environment does what the script says.
-/

namespace MaintenanceOperator
open Lib

/-- The present cluster may answer reads: it is in the history, and newer than what the scheduler
wrote. -/
def UpToDate (s : OperatorState) : Prop :=
  (∀ o ∈ s.world.nms.items, o ∈ s.world.history) ∧
    ∀ v ∈ s.written, ∀ o ∈ s.world.nms.items, o.uid = v.uid → v.resourceVersion ≤ o.resourceVersion

instance (s : OperatorState) : Decidable (UpToDate s) := inferInstanceAs (Decidable (_ ∧ _))

/-- Answer a call from the present cluster. -/
def operatorAnswer (i : Worker) (e : Op) (s : OperatorState) : Option (Resp e × OperatorState) :=
  if UpToDate s then
    (s.world.serve e).map fun rw => (rw.1, ⟨rw.2,
      if i = .scheduler then newVersions s.world rw.2 ++ s.written else s.written⟩)
  else none

lemma operatorExec_of_answer {i : Worker} {e : Op} {s s' : OperatorState} {a : Resp e}
    (h : operatorAnswer i e s = some (a, s')) : operatorExec i e s a s' := by
  unfold operatorAnswer at h
  split at h
  · rename_i hup
    obtain ⟨⟨a', w'⟩, hserve, heq⟩ := Option.map_eq_some_iff.mp h
    cases heq
    have hperf := (World.perform_of_serve hserve).cached hup.1
    cases i with
    | reconciler key => exact ⟨hperf, rfl⟩
    | scheduler =>
      refine ⟨hperf, rfl, ?_⟩
      cases e with
      | listNodeMaintenances =>
        cases hserve
        rintro _ ⟨⟩ v hv o ho hu
        have hmem := Store.get_mem ho
        exact ⟨o, hmem, hu, hup.2 v hv o hmem hu⟩
      | _ => trivial
  · cases h

/-- An operator with the stroke formats, an insertion sort, and no pool manager. -/
def strokeOperator : System Worker Op Resp OperatorState (Except Err Result) :=
  operator ⟨false, strokeFormats⟩ (Sorter.insertion Scheduler.compareRanked)

/-- Its player, with the default options of the scheduler. -/
def player : Player strokeOperator Incident where
  program
    | .reconciler key => some (Reconciler.reconcile ⟨false, strokeFormats⟩ key).run
    | .scheduler =>
      some (Scheduler.reconcile (Sorter.insertion Scheduler.compareRanked) ⟨none, none⟩).run
  body {i _} h := by
    cases i with
    | reconciler key => exact (Option.some.inj h).symm
    | scheduler => exact ⟨_, (Option.some.inj h).symm⟩
  answer := operatorAnswer
  exec := operatorExec_of_answer
  event v s := (s.world.suffer v).map fun w => ⟨w, s.written⟩
  env h := by
    obtain ⟨w, hw, rfl⟩ := Option.map_eq_some_iff.mp h
    exact ⟨World.event_of_suffer hw, rfl⟩

/-- A whole reconcile of a worker. -/
def fullReconcile (i : Worker) : List (Move Worker Incident) := [.start i, .finish i 60]

/-- An operator that manages nothing yet. -/
def emptyState : OperatorState := ⟨World.empty, []⟩

/-- The reconciler of an object. -/
def reconcilerOf (name : String) : Worker := .reconciler ⟨"default", name⟩

/-- The object is created and goes through the phases up to Cordon. -/
def toCordon : List (Move Worker Incident) :=
  [.event (.nodes [firstNode]), .event (.create (drainedMaintenance "nm"))] ++
    fullReconcile (reconcilerOf "nm") ++ fullReconcile .scheduler ++ fullReconcile (reconcilerOf "nm")

/-- And on until its drain has been sent. -/
def toDraining : List (Move Worker Incident) :=
  toCordon ++ fullReconcile (reconcilerOf "nm") ++ fullReconcile (reconcilerOf "nm") ++
    fullReconcile (reconcilerOf "nm")

end MaintenanceOperator
