import MaintenanceOperator.Config.Spec
import MaintenanceOperator.Controller.GarbageCollector
import MaintenanceOperator.Lib.Mailbox

/-!
# The configuration controller

Port of `internal/controller/maintenanceoperatorconfig_controller.go`, of the options types of the
scheduler and of the garbage collector, and of `internal/log/log.go`. Each options type is a mailbox: the
configuration controller stores, the scheduler or the garbage collector loads and reads. The level of the
logger is one more variable of the process. What goes on inside the process are calls of its own
(`OwnOp`), beside those that reach the cluster.
-/

namespace MaintenanceOperator
open Lib Scheduler

/-- The fields of Go `NodeMaintenanceSchedulerReconcilerOptions`. -/
inductive SchedulerOption where
  | maxUnavailable
  | maxParallelOperations
  deriving DecidableEq

/-- The field of Go `GarbageCollectorOptions`. -/
inductive CollectorOption where
  | maxNodeMaintenanceTime
  deriving DecidableEq

/-- The fields in the order in which `Store` and `Load` assign them. -/
def schedulerOptions : List SchedulerOption := [.maxUnavailable, .maxParallelOperations]

def collectorOptions : List CollectorOption := [.maxNodeMaintenanceTime]

/-- The limits, as values of the fields. -/
def Scheduler.Options.values (o : Options) : SchedulerOption → Option IntOrString
  | .maxUnavailable => o.maxUnavailable
  | .maxParallelOperations => o.maxParallelOperations

/-- Go `NewNodeMaintenanceSchedulerReconcilerOptions`. -/
def newSchedulerOptions : Options := ⟨none, some (.int 1)⟩

/-- Go `NewGarbageCollectorOptions`: the default of `maxNodeMaintenanceTime`. -/
def newCollectorOptions : CollectorOption → Int
  | .maxNodeMaintenanceTime => GarbageCollectorOptions.new.maxNodeMaintenanceTime

/-- `zapcore.Level`. -/
inductive Level where
  | debug
  | info
  | warn
  | error
  | dpanic
  | panic
  | fatal
  deriving DecidableEq, Repr

/-- `zapcore.ParseLevel`, with what is known about it. -/
structure LevelParser where
  parse : String → Option Level
  debug : parse "debug" = some .debug
  info : parse "info" = some .info
  error : parse "error" = some .error

/-- Calls inside the process. -/
inductive OwnOp where
  | schedulerOptions (e : Mailbox.Op SchedulerOption (Option IntOrString))
  | collectorOptions (e : Mailbox.Op CollectorOption Int)
  | getConfig (key : NamespacedName)
  | level
  | setLevel (l : Level)
  | deleteNodeMaintenance (nm : NodeMaintenance)

/-- Response types. -/
abbrev OwnResp : OwnOp → Type
  | .schedulerOptions e => Mailbox.Resp e
  | .collectorOptions e => Mailbox.Resp e
  | .getConfig _ => Except Err MaintenanceOperatorConfig
  | .level => Level
  | .setLevel _ => Unit
  | .deleteNodeMaintenance _ => Option Err

/-- Programs of the process. -/
abbrev ProcessProc (α : Type) : Type := Prog (Op ⊕ OwnOp) (Sum.elim Resp OwnResp) α

/-- Programs of the process that may end with an error. -/
abbrev ProcessAction (α : Type) : Type := ExceptT Err (Prog (Op ⊕ OwnOp) (Sum.elim Resp OwnResp)) α

/-- Issue one call of the process. -/
def ownCall (e : OwnOp) : ProcessProc (OwnResp e) := .call (.inr e) .ret

/-- A program on the scheduler's options. -/
def onSchedulerOptions {α : Type} (p : Prog (Mailbox.Op SchedulerOption (Option IntOrString)) Mailbox.Resp α) :
    ProcessProc α :=
  p.translate fun e => ownCall (.schedulerOptions e)

/-- A program on the garbage collector's options. -/
def onCollectorOptions {α : Type} (p : Prog (Mailbox.Op CollectorOption Int) Mailbox.Resp α) : ProcessProc α :=
  p.translate fun e => ownCall (.collectorOptions e)

/-- Go `NodeMaintenanceSchedulerReconcilerOptions.Store`. -/
def storeSchedulerOptions (o : Options) : ProcessProc Unit :=
  onSchedulerOptions (Mailbox.store schedulerOptions o.values)

/-- Go `NodeMaintenanceSchedulerReconcilerOptions.Load`. -/
def loadSchedulerOptions : ProcessProc Unit := onSchedulerOptions (Mailbox.load schedulerOptions)

/-- Go `NodeMaintenanceSchedulerReconcilerOptions.MaxUnavailable`. -/
def maxUnavailable : ProcessProc (Option IntOrString) := onSchedulerOptions (Mailbox.get .maxUnavailable)

/-- Go `NodeMaintenanceSchedulerReconcilerOptions.MaxParallelOperations`. -/
def maxParallelOperations : ProcessProc (Option IntOrString) :=
  onSchedulerOptions (Mailbox.get .maxParallelOperations)

/-- Go `GarbageCollectorOptions.Store`. -/
def storeCollectorOptions (maxNodeMaintenanceTime : Int) : ProcessProc Unit :=
  onCollectorOptions (Mailbox.store collectorOptions fun _ => maxNodeMaintenanceTime)

/-- Go `GarbageCollectorOptions.Load`. -/
def loadCollectorOptions : ProcessProc Unit := onCollectorOptions (Mailbox.load collectorOptions)

/-- Go `GarbageCollectorOptions.MaxNodeMaintenanceTime`. -/
def maxNodeMaintenanceTime : ProcessProc Int := onCollectorOptions (Mailbox.get .maxNodeMaintenanceTime)

/-- Go `SetLogLevel`. -/
def setLogLevel (P : LevelParser) (lvl : String) : ProcessProc (Option Err) :=
  match P.parse lvl with
  -- no server error, though nobody asks what it wraps
  | none => return some (.wrap "unrecognized level: " (.other lvl))
  | some newLevel => do
    let currLevel ← ownCall .level
    if newLevel = currLevel then
      return none
    else
      let _ ← ownCall (.setLevel newLevel)
      return none

/-- Go `defaultMaintenanceOperatorConifgName`. -/
def defaultMaintenanceOperatorConifgName : String := "default"

/-- The limits that a configuration asks for. -/
def MaintenanceOperatorConfigSpec.limits (s : MaintenanceOperatorConfigSpec) : Options :=
  ⟨s.maxUnavailable, s.maxParallelOperations⟩

/-- The maximal time that a configuration asks for, in nanoseconds. -/
def MaintenanceOperatorConfigSpec.maxTime (s : MaintenanceOperatorConfigSpec) : Int :=
  second * s.maxNodeMaintenanceTimeSeconds

/-- Go `MaintenanceOperatorConfigReconciler.Reconcile`, in the namespace of the operator. -/
def reconcileConfig (P : LevelParser) (operatorNamespace : String) (req : NamespacedName) :
    ProcessProc (Except Err Result) :=
  if req.name ≠ defaultMaintenanceOperatorConifgName ∨ req.ns ≠ operatorNamespace then
    return .ok .zero
  else do
    match ← ownCall (.getConfig req) with
    | .error err => if err = .notFound then return .ok .zero else return .error err
    | .ok cfg =>
      storeSchedulerOptions cfg.spec.limits
      storeCollectorOptions cfg.spec.maxTime
      match ← setLogLevel P cfg.spec.logLevel with
      | some err => return .error err
      | none => return .ok .zero

end MaintenanceOperator
