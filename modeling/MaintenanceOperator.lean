import MaintenanceOperator.Lib.Budget
import MaintenanceOperator.Lib.GoMap
import MaintenanceOperator.Lib.Mailbox
import MaintenanceOperator.Lib.Prog
import MaintenanceOperator.Lib.Refine
import MaintenanceOperator.Lib.Schema
import MaintenanceOperator.Lib.Script
import MaintenanceOperator.Lib.Sorting
import MaintenanceOperator.Lib.Store
import MaintenanceOperator.Lib.System
import MaintenanceOperator.Api.Types
import MaintenanceOperator.Api.Errors
import MaintenanceOperator.Api.Encoding
import MaintenanceOperator.Api.RoundTrip
import MaintenanceOperator.Drain.Request
import MaintenanceOperator.Drain.Identity
import MaintenanceOperator.Drain.EvictionFilter
import MaintenanceOperator.Drain.Lifecycle
import MaintenanceOperator.Drain.Manager
import MaintenanceOperator.Cluster.World
import MaintenanceOperator.Cluster.Calls
import MaintenanceOperator.Cluster.Consistent
import MaintenanceOperator.Cluster.Events
import MaintenanceOperator.Cluster.Serve
import MaintenanceOperator.K8sUtils
import MaintenanceOperator.Cordon
import MaintenanceOperator.PodCompletion
import MaintenanceOperator.Openshift.Mcp
import MaintenanceOperator.Controller.NodeMaintenance
import MaintenanceOperator.Scheduler.Ranker
import MaintenanceOperator.Scheduler.DefaultScheduler
import MaintenanceOperator.Controller.Scheduler
import MaintenanceOperator.Scheduler.Selection
import MaintenanceOperator.Scheduler.Limits
import MaintenanceOperator.Scheduler.Priority
import MaintenanceOperator.Scheduler.Decision
import MaintenanceOperator.Scheduler.SlotCount
import MaintenanceOperator.Scheduler.Runs
import MaintenanceOperator.Controller.GarbageCollector
import MaintenanceOperator.Controller.ConditionChanged
import MaintenanceOperator.Controller.Parts
import MaintenanceOperator.Controller.SpecUpdates
import MaintenanceOperator.Controller.Changes
import MaintenanceOperator.Controller.Host
import MaintenanceOperator.Controller.Flow
import MaintenanceOperator.Controller.Rounds
import MaintenanceOperator.Operator.Phase
import MaintenanceOperator.Operator.System
import MaintenanceOperator.Operator.Invariant
import MaintenanceOperator.Operator.Discipline
import MaintenanceOperator.Operator.Assertions
import MaintenanceOperator.Operator.Reconciler
import MaintenanceOperator.Operator.Scheduling
import MaintenanceOperator.Operator.Player
import MaintenanceOperator.Operator.Safety
import MaintenanceOperator.Controller.Wakeup
import MaintenanceOperator.Controller.Requestors
import MaintenanceOperator.Controller.PodCompletionClock
import MaintenanceOperator.Controller.CordonHandler
import MaintenanceOperator.Controller.CordonAttempts
import MaintenanceOperator.Controller.CordonRestored
import MaintenanceOperator.Controller.CordonKept
import MaintenanceOperator.Openshift.Walk
import MaintenanceOperator.Openshift.ForeignPause
import MaintenanceOperator.Openshift.ConfigChange
import MaintenanceOperator.Openshift.Assignment
import MaintenanceOperator.Openshift.PauseKept
import MaintenanceOperator.Openshift.PauseReleased
import MaintenanceOperator.Config.Spec
import MaintenanceOperator.Config.Reconciler
import MaintenanceOperator.Operator.Process
import MaintenanceOperator.Operator.ProcessPlayer
import MaintenanceOperator.Operator.Complete
import MaintenanceOperator.Lib.Dataflow
import MaintenanceOperator.Controller.ReadyTime
import MaintenanceOperator.Operator.Collection
import MaintenanceOperator.Lib.Turns
import MaintenanceOperator.Controller.Attended
import MaintenanceOperator.Controller.Progress
import MaintenanceOperator.Controller.Completion
import MaintenanceOperator.Controller.Deletion
import MaintenanceOperator.Lib.Lives
import MaintenanceOperator.Controller.Calls
import MaintenanceOperator.Operator.Restart
import MaintenanceOperator.Operator.Parallel
import MaintenanceOperator.Operator.Admission
