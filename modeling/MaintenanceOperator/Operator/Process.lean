import MaintenanceOperator.Config.Reconciler
import MaintenanceOperator.Controller.PodCompletionClock
import MaintenanceOperator.Operator.System

/-!
# The operator process

The whole program as `cmd/maintenance-manager/main.go` puts it together: the two controllers of the
operator, with the scheduler loading and reading its options, the configuration controller and the
garbage collector, over the cluster, the variables of the process, and the clock. The configuration
controller and the garbage collector are services: neither writes NodeMaintenances other than by asking
for their deletion.
-/

namespace MaintenanceOperator
open Lib Scheduler

/-- What a scheduler round does once it has its lists and its options. -/
def Scheduler.placeMaintenances (sorter : Sorter compareRanked) (o : Options) (nodes : List Node)
    (nms : List NodeMaintenance) : Action Result := do
  let toSchedule ← decision sorter o nodes nms
  match toSchedule with
  | none => throw (.other "invalid memory address or nil pointer dereference")
  | some toSchedule =>
    let order ← ExceptT.lift (issue (.shuffle toSchedule))
    List.forM order markScheduled
    return schedulerSyncTime

/-- A part of a program that stays outside the process. -/
def shown {α : Type} (x : Action α) : ProcessAction α := ExceptT.mk x.run.shown

/-- A part of a program that stays inside. -/
def inside {α : Type} (p : ProcessProc α) : ProcessAction α := ExceptT.lift p

/-- Go `Reconcile` of the scheduler controller, once it has loaded its options. -/
def scheduleRound (sorter : Sorter compareRanked) : ProcessAction Result := do
  let nodes ← shown (Client.listNodes fun _ => true)
  let nms ← shown Client.listNodeMaintenances
  -- `getMaxUnavailableNodes` and `getMaxOperations` in `preSchedule`
  let unavailable ← inside maxUnavailable
  let parallel ← inside maxParallelOperations
  let o : Options := ⟨unavailable, parallel⟩
  inside (onSchedulerOptions (Mailbox.issue (.note (.used o.values))))
  shown (placeMaintenances sorter o nodes nms)

/-- Go `Reconcile` of the scheduler controller, with its options. -/
def reconcileScheduler (sorter : Sorter compareRanked) : ProcessAction Result := do
  inside loadSchedulerOptions
  -- for the log
  let _ ← inside maxUnavailable
  let _ ← inside maxParallelOperations
  scheduleRound sorter

/-- Calls of the garbage collector as calls of the process. -/
def collectorCall : (e : GarbageCollector.Op) → ProcessProc (GarbageCollector.Resp e)
  | .listNodeMaintenances => .call (.inl .listNodeMaintenances) .ret
  | .now => .call (.inl .now) fun (t : Nat) => .ret (t : Int)
  | .delete nm => ownCall (.deleteNodeMaintenance nm)

/-- The loop of the garbage collector; the option is read anew for each object. -/
def collectAll (T : TimeParser) (timeNow : Int) : List NodeMaintenance → ProcessProc Unit
  | [] => return ()
  | nm :: items => do
    let maxTime ← maxNodeMaintenanceTime
    onCollectorOptions (Mailbox.issue (.note (.used fun _ => maxTime)))
    (GarbageCollector.collect T ⟨maxTime, maxTime⟩ timeNow nm).translate collectorCall
    collectAll T timeNow items

/-- Go `NodeMaintenanceGarbageCollector.Reconcile`, with its options; `Start` only logs its error. -/
def collectGarbage (T : TimeParser) : ProcessProc (Except Err Result) := do
  loadCollectorOptions
  -- for the log
  let _ ← maxNodeMaintenanceTime
  match ← GarbageCollector.list.translate collectorCall with
  | .error err => return .error (.wrap "failed to list NodeMaintenance" err)
  | .ok items =>
    let timeNow ← GarbageCollector.timeNow.translate collectorCall
    collectAll T timeNow items
    return .ok .zero

/-- Threads of the process beside the workers of the controllers. -/
inductive Service where
  | config
  | garbageCollector
  deriving DecidableEq

/-- The state of the process and of the cluster. `configs` are the versions of configurations so far,
`writtenAt` is when each revision of a NodeMaintenance was written. -/
structure ProcessState where
  cluster : OperatorState
  configs : List MaintenanceOperatorConfig
  schedulerOptions : Mailbox SchedulerOption (Option IntOrString)
  collectorOptions : Mailbox CollectorOption Int
  level : Level
  clock : Nat
  writtenAt : Nat → Nat

namespace ProcessState

/-- The times of the revisions, once new ones may have been written. -/
def stamped (s : ProcessState) (revision : Nat) : Nat :=
  if revision ≤ s.cluster.world.revision then s.writtenAt revision else s.clock

/-- The cluster is in a new state. -/
def withCluster (s : ProcessState) (cluster : OperatorState) : ProcessState :=
  { s with cluster, writtenAt := s.stamped }

/-- The process has just been started. -/
def start (cluster : OperatorState) (level : Level) (clock : Nat) : ProcessState where
  cluster := cluster
  configs := []
  schedulerOptions := .fresh newSchedulerOptions.values
  collectorOptions := .fresh newCollectorOptions
  level := level
  clock := clock
  writtenAt := fun _ => 0

end ProcessState

/-- Server side of `client.Delete`, without preconditions: whatever is stored under the name is marked,
and dropped if nothing holds it back. -/
def World.requestDeletion (w : World) (key : NamespacedName) (t : Nat) : Option World := do
  let o ← w.nms.get key
  if o.deleting then return w else return w.write { o with deletionTimestamp := some t }

/-- Answers to a request for deletion; the reply to a successful one may be lost. -/
def DeleteAnswer (w : World) (key : NamespacedName) (t : Nat) (r : Option Err) (w' : World) : Prop :=
  (r.isSome = true ∧ w' = w) ∨ w.requestDeletion key t = some w'

/-- The side that a thread has of the scheduler's options. -/
def schedulerSide : Worker ⊕ Service → Option Side
  | .inl .scheduler => some .reader
  | .inr .config => some .writer
  | _ => none

/-- The side that a thread has of the garbage collector's options. -/
def collectorSide : Worker ⊕ Service → Option Side
  | .inr .garbageCollector => some .reader
  | .inr .config => some .writer
  | _ => none

/-- Calls that reach the cluster: of the controllers as before, of the services with a cached client. -/
def clusterExec : Worker ⊕ Service → (e : Op) → OperatorState → Resp e → OperatorState → Prop
  | .inl i, e, s, r, s' => operatorExec i e s r s'
  | .inr _, e, s, r, s' => Perform .cached e s.world r s'.world ∧ s'.written = s.written

/-- Calls inside the process. -/
def ownExec (i : Worker ⊕ Service) : (e : OwnOp) → ProcessState → OwnResp e → ProcessState → Prop
  | .schedulerOptions e, s, r, s' => ∃ side b, schedulerSide i = some side ∧
      Mailbox.Exec side e s.schedulerOptions r b ∧ s' = { s with schedulerOptions := b }
  | .collectorOptions e, s, r, s' => ∃ side b, collectorSide i = some side ∧
      Mailbox.Exec side e s.collectorOptions r b ∧ s' = { s with collectorOptions := b }
  | .getConfig key, s, r, s' => s' = s ∧ ReadAnswer (fun cfg => cfg ∈ s.configs ∧ cfg.key = key) True r
  | .level, s, r, s' => s' = s ∧ r = s.level
  | .setLevel l, s, _, s' => s' = { s with level := l }
  | .deleteNodeMaintenance nm, s, r, s' => ∃ w', DeleteAnswer s.cluster.world nm.key s.clock r w' ∧
      s' = s.withCluster { s.cluster with world := w' }

/-- Calls of the process. -/
def processExec (i : Worker ⊕ Service) :
    (e : Op ⊕ OwnOp) → ProcessState → Sum.elim Resp OwnResp e → ProcessState → Prop
  | .inl e, s, r, s' => ∃ cluster, clusterExec i e s.cluster r cluster ∧ ClockAnswer s.clock e r ∧
      s' = s.withCluster cluster
  | .inr e, s, r, s' => ownExec i e s r s'

/-- What is given: the string formats of the libraries, the namespace of the operator, and what the users
of the cluster keep to beyond the rules of the API. -/
structure Setup where
  reconciler : Reconciler
  sorter : Sorter compareRanked
  times : TimeParser
  times_format : ∀ t, times.parse (reconciler.formats.format t) = some ((t / second * second : Nat) : Int)
  levels : LevelParser
  operatorNamespace : String
  users : World → World → Prop

/-- Events outside the process: of the cluster, new versions of configurations, and the passing of
time. -/
inductive ProcessEvent (U : Setup) (s : ProcessState) : ProcessState → Prop where
  | cluster {w'} : Event s.cluster.world w' → U.users s.cluster.world w' →
      ProcessEvent U s (s.withCluster { s.cluster with world := w' })
  | config (cfg : MaintenanceOperatorConfig) : cfg.spec.WellFormed →
      ProcessEvent U s { s with configs := cfg :: s.configs }
  | tick {t : Nat} : s.clock ≤ t → ProcessEvent U s { s with clock := t }

/-- The process at work. -/
def process (U : Setup) : System (Worker ⊕ Service) (Op ⊕ OwnOp) (Sum.elim Resp OwnResp) ProcessState
    (Except Err Result) where
  exec := processExec
  env c := ProcessEvent U c.state
  body
    | .inl (.reconciler key), p => p = (U.reconciler.reconcile key).run.shown
    | .inl .scheduler, p => p = (reconcileScheduler U.sorter).run
    | .inr .config, p => ∃ req, p = reconcileConfig U.levels U.operatorNamespace req
    | .inr .garbageCollector, p => p = collectGarbage U.times

/-- All threads are idle. -/
def idleProcess (s : ProcessState) :
    Config (Worker ⊕ Service) (Op ⊕ OwnOp) (Sum.elim Resp OwnResp) ProcessState (Except Err Result) :=
  ⟨s, fun _ => none⟩

end MaintenanceOperator
