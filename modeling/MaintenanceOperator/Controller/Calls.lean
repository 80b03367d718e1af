import MaintenanceOperator.Controller.Parts
import MaintenanceOperator.Controller.Scheduler

/-!
# Everyday calls

Most functions of the controllers issue neither whole-object updates nor the note of the node-not-found
branch. What holds of all other calls holds of all that they do. That branch is the only place from which
the note comes: with the node at hand, no handler goes through it (`dispatch_neverMisses`).
-/

namespace MaintenanceOperator
open Lib Reconciler

/-- The call is neither a whole-object update nor the note of the node-not-found branch. -/
def Op.everyday : Op → Bool
  | .update _ => false
  | .trace (.nodeNotFound _) => false
  | _ => true

/-- `P` holds of the everyday calls. -/
def Everyday (P : Op → Prop) : Prop := ∀ e : Op, e.everyday = true → P e

variable {P : Op → Prop} {nm : NodeMaintenance} {node : Node}

lemma Everyday.poolCalls (h : Everyday P) : PoolCalls P :=
  ⟨fun _ => h _ rfl, fun _ => h _ rfl, fun _ _ => h _ rfl, fun _ => h _ rfl, h _ rfl⟩

lemma setReadyConditionReason_all (h : Everyday P) {reason : Reason} :
    AllE P (setReadyConditionReason nm reason) := by
  have hnow : AllE P timeNow := call_all (h _ rfl)
  exact .bind hnow fun _ => .ite (call_all (h _ rfl)) .pure

lemma unpause_everyday (h : Everyday P) {r : Reconciler} : AllE P (r.unpause nm node) :=
  unpause_all h.poolCalls (h _ rfl) (h _ rfl) (h _ rfl)

lemma logState_all (h : Everyday P) {req : Option Nat} : AllE P (logState req) := by
  cases req with
  | none => exact .pure
  | some req => exact .bind (.lift (call_all (h _ rfl))) fun _ => .pure

lemma updateDrainStatus_all (h : Everyday P) {req : Nat} : AllE P (updateDrainStatus nm req) := by
  have hpods : AllE P (podsToDelete req) :=
    .bind (.lift (call_all (h _ rfl))) fun _ => .bind (.adapt (call_all (h _ rfl))) fun _ => .pure
  refine .bind (.adapt hpods) fun _ => .bind (currentDrainStatus_all (h _ rfl)) fun _ => ?_
  exact .adapt (call_all (h _ rfl))

lemma sendDrainRequest_all (h : Everyday P) : AllE P (sendDrainRequest nm) :=
  .bind (.lift (call_all (h _ rfl))) fun _ => .bind (updateDrainStatus_all h) fun _ =>
    .bind (.lift (call_all (h _ rfl))) fun _ => .pure

lemma followDrainRequest_all (h : Everyday P) {spec : DrainSpec} {req : Nat} :
    AllE P (followDrainRequest nm spec req) := by
  have hstate : AllE P (DrainManager.state req) := .lift (call_all (h _ rfl))
  have hremove : ∀ uid, AllE P (DrainManager.removeRequest uid) := fun _ => .lift (call_all (h _ rfl))
  have hfailed : AllE P (drainFailed req) :=
    .bind hstate fun _ => .ite .pure (.bind hstate fun _ => .pure)
  refine .bind (.lift (call_all (h _ rfl))) fun uid => .bind hstate fun _ =>
    .bind (.lift (call_all (h _ rfl))) fun reqSpec => ?_
  refine .ite (.bind (hremove _) fun _ => .pure) (.bind hstate fun state => ?_)
  refine .ite (.bind (updateDrainStatus_all h) fun _ => .pure)
    (.bind hfailed fun failed => .bind hstate fun _ => ?_)
  refine .ite (.bind (hremove _) fun _ => .pure) (.bind (updateDrainStatus_all h) fun nm => ?_)
  exact .bind (hremove _) fun _ => .bind (setReadyConditionReason_all h) fun _ => .pure

/-- The branches of `handleDrainState` for an object that is not being deleted. -/
lemma drainState_all (h : Everyday P) {r : Reconciler} (hdel : nm.deleting = false) :
    AllE P (r.handleDrainState nm node) := by
  unfold handleDrainState
  rw [hdel, if_neg Bool.false_ne_true]
  split
  · refine .bind (.lift (call_all (h _ rfl))) fun req => ?_
    cases req with
    | none => exact sendDrainRequest_all h
    | some req => exact followDrainRequest_all h
  · refine .bind (.lift (call_all (h _ rfl))) fun _ => .bind (.ite (call_all (h _ rfl)) .pure) fun nm => ?_
    exact .bind (setReadyConditionReason_all h) fun _ => .pure

lemma checkRequestorFailed_all (h : Everyday P) : AllE P (checkRequestorFailed nm) :=
  .ite (.ite (.bind (setReadyConditionReason_all h) fun _ => .pure) .pure)
    (.ite (.bind (setReadyConditionReason_all h) fun _ => .pure) .pure)

lemma markScheduled_all (h : Everyday P) : AllE P (Scheduler.markScheduled nm) := by
  have hwait : ∀ key n, AllE P (Scheduler.waitScheduled key n) := by
    intro key n
    induction n with
    | zero => exact .pure
    | succ n ih =>
      refine .bind (.lift (call_all (h _ rfl))) fun res => ?_
      cases res with
      | error err => exact .ite .pure ih
      | ok nm => exact .ite .pure ih
  refine .bind (.lift (setReadyConditionReason_all h)) fun res => ?_
  cases res with
  | error err => exact .pure
  | ok nm => exact hwait _ _

lemma markAll_all (h : Everyday P) (l : List NodeMaintenance) :
    AllE P (List.forM l Scheduler.markScheduled) := by
  induction l with
  | nil => exact .pure
  | cons nm l ih => exact .bind (markScheduled_all h) fun _ => ih

/-- The scheduler issues everyday calls only. -/
lemma scheduler_all (h : Everyday P) {sorter : Sorter Scheduler.compareRanked} {o : Scheduler.Options} :
    AllE P (Scheduler.reconcile sorter o) := by
  refine .bind (call_all (h _ rfl)) fun nodes => .bind (call_all (h _ rfl)) fun nms => ?_
  refine .bind ?_ fun toSchedule => ?_
  · cases Scheduler.decision sorter o nodes nms <;> trivial
  · cases toSchedule with
    | none => exact .throw
    | some toSchedule =>
      exact .bind (.lift (call_all (h _ rfl))) fun order => .bind (markAll_all h order) fun _ => .pure

/-! ### The node-not-found branch -/

/-- The call notes that the node of an object was not found. -/
def Op.missesNode : Op → Bool
  | .trace (.nodeNotFound _) => true
  | _ => false

/-- The program does not go through the node-not-found branch. -/
abbrev NeverMisses {α : Type} (x : Action α) : Prop := AllE (fun e => e.missesNode = false) x

lemma everyday_neverMisses : Everyday fun e => e.missesNode = false := by
  intro e he
  cases e with
  | trace note =>
    cases note with
    | nodeNotFound nm => cases he
    | _ => rfl
  | _ => rfl

section Handlers
variable {r : Reconciler} {nm : NodeMaintenance} {node : Node}

lemma setReady_neverMisses {reason : Reason} {res : Result} : NeverMisses (do
    let _ ← setReadyConditionReason nm reason
    return res) :=
  .bind (setReadyConditionReason_all everyday_neverMisses) fun _ => .pure

lemma removeFinalizer_neverMisses {f : String} : NeverMisses (removeFinalizer nm f) :=
  .ite (call_all rfl) .pure

lemma pauseMCP_neverMisses : NeverMisses (pauseMCP node nm) := by
  have hlabel : ∀ mcpName, NeverMisses (setMCPLabel nm mcpName) := by
    intro mcpName
    refine .ite (.bind (.adapt (call_all rfl)) fun labelled => ?_) .pure
    have hget : NeverMisses (Client.getNodeMaintenance labelled.key) := call_all rfl
    exact .adapt (waitForObjectUpdate_all hget _)
  have hlocked : NeverMisses (pauseLocked node nm) := by
    refine .bind (.adapt (getMCPName_all fun _ => rfl)) fun mcpName => .bind (hlabel mcpName) fun nm => ?_
    exact .bind (pausePool_all everyday_neverMisses.poolCalls) fun _ => .pure
  refine withLock_all rfl rfl (.bind (.lift hlocked) fun res => .bind (.lift (call_all rfl)) fun _ => ?_)
  cases res <;> trivial

lemma cleanup_neverMisses : NeverMisses (r.cleanup nm node) := by
  have hdrop : NeverMisses (dropInitialState nm) := .ite (call_all rfl) .pure
  have huncordon : NeverMisses (handleUnCordon nm node) :=
    .ite (.bind (runCordonOrUncordon_all rfl) fun _ => hdrop) hdrop
  refine .bind (.ite huncordon .pure) fun nm => .bind (unpause_everyday everyday_neverMisses) fun _ => ?_
  exact .bind removeFinalizer_neverMisses fun _ => .pure

lemma handleScheduledState_neverMisses : NeverMisses (r.handleScheduledState nm node) := by
  refine .ite (.bind (unpause_everyday everyday_neverMisses) fun _ => ?_) ?_
  · exact .bind (.bind removeFinalizer_neverMisses fun _ => .pure) fun _ => .pure
  · refine .bind (.ite .pure (call_all rfl)) fun nm => .ite (.bind (.lift pauseMCP_neverMisses) fun res => ?_) ?_
    · cases res with
      | error err => exact .ite .pure .throw
      | ok nm => exact setReady_neverMisses
    · exact setReady_neverMisses

lemma handleCordonState_neverMisses : NeverMisses (r.handleCordonState nm node) := by
  have hcordon : NeverMisses (handleCordon nm node) := by
    refine .bind (.ite (call_all rfl) .pure) fun nm => ?_
    exact .ite (.bind (runCordonOrUncordon_all rfl) fun _ => .pure) .pure
  refine .ite (.bind cleanup_neverMisses fun _ => .pure) (.bind (.ite hcordon .pure) fun nm => ?_)
  exact setReady_neverMisses

lemma handlePodCompletion_neverMisses {F : Formats} : NeverMisses (handlePodCompletion F nm) := by
  have hnow : NeverMisses timeNow := .lift (call_all rfl)
  have hwait : ∀ {nm : NodeMaintenance} {t : Nat}, NeverMisses (waitForPods F nm t) := by
    intro nm t
    unfold waitForPods
    split
    · exact .throw
    · refine .bind (.ite (.bind hnow fun _ => .pure) .pure) fun expired => ?_
      refine .ite .pure (.ite (.bind (.lift (call_all rfl)) fun pods => ?_) .pure)
      cases pods with
      | error err => exact .pure
      | ok pods =>
        refine .bind (.lift (call_all rfl)) fun res => ?_
        cases res <;> exact .pure
  refine .ite (.bind hnow fun t => .bind (.lift (call_all rfl)) fun res => ?_) ?_
  · cases res with
    | error err => exact .pure
    | ok nm => exact hwait
  · split
    · exact hwait
    · refine .bind (.lift (call_all rfl)) fun res => ?_
      cases res <;> exact .pure

lemma handleWaitPodCompletionState_neverMisses : NeverMisses (r.handleWaitPodCompletionState nm node) := by
  refine .ite (.bind cleanup_neverMisses fun _ => .pure)
    (.ite (.bind handlePodCompletion_neverMisses fun waited => ?_) setReady_neverMisses)
  dsimp only
  split
  · exact .bind (.lift (call_all rfl)) fun _ => .ite .pure setReady_neverMisses
  · exact .bind (.lift (call_all rfl)) fun _ => .ite setReady_neverMisses .throw

lemma handleDrainState_neverMisses : NeverMisses (r.handleDrainState nm node) := by
  cases hdel : nm.deleting with
  | false => exact drainState_all everyday_neverMisses hdel
  | true =>
    unfold handleDrainState
    rw [hdel, if_pos rfl]
    refine .bind (.lift (call_all rfl)) fun req => .bind (logState_all everyday_neverMisses) fun _ => ?_
    exact .bind (.lift (call_all rfl)) fun _ => .bind cleanup_neverMisses fun _ => .pure

lemma handleTerminalState_neverMisses : NeverMisses (r.handleTerminalState nm node) := by
  have hnow : NeverMisses timeNow := .lift (call_all rfl)
  refine .ite (.ite .pure (.bind cleanup_neverMisses fun _ => .pure)) ?_
  refine .bind (.ite (.bind hnow fun _ => call_all rfl) .pure) fun nm => ?_
  exact checkRequestorFailed_all everyday_neverMisses

/-- With the node at hand, no handler goes through the branch. -/
lemma dispatch_neverMisses : NeverMisses (r.dispatch nm node) := by
  have howner : NeverMisses (setOwnerRef node nm) := by
    refine .bind (.lift (call_all rfl)) fun res => ?_
    cases res <;> exact .pure
  refine .bind (.ite .pure howner) fun owned => ?_
  dsimp only
  split
  · exact .bind (.bind (setReadyConditionReason_all everyday_neverMisses) fun _ => .pure) fun _ => .pure
  · exact handleScheduledState_neverMisses
  · exact handleCordonState_neverMisses
  · exact handleWaitPodCompletionState_neverMisses
  · exact handleDrainState_neverMisses
  · exact handleTerminalState_neverMisses
  · exact handleTerminalState_neverMisses
  · split
    · exact .throw
    · exact .pure

end Handlers

end MaintenanceOperator
