import MaintenanceOperator.Controller.Calls
import MaintenanceOperator.Controller.Flow
import MaintenanceOperator.Controller.SpecUpdates
import MaintenanceOperator.Lib.Dataflow

/-!
# Where ready times come from

A reconcile only ever sends back versions of the object that the server has shown it, and changes the
ready time of none of them, with one exception: on a version of phase Ready or RequestorFailed it puts the
time at which it looked at the clock, having that version in hand. As the whole argument is about which
objects and readings the text passes along, it is done in terms of what is known (`readyTimes`), once for
all systems that the reconciler may run in.
-/

namespace MaintenanceOperator
open Lib Reconciler Knowledge

/-- The ready time on record. -/
def readyTimeOf (nm : NodeMaintenance) : Option String := nm.annotations.get? readyTimeAnnotation

/-- Facts: a version was shown by the server, and the clock showed a time when it was at hand. -/
inductive Seen where
  | version (m : NodeMaintenance)
  | reading (m : NodeMaintenance) (t : Nat)

/-- The version that an answer shows. -/
def versionOf : Except Err NodeMaintenance → Set Seen
  | .ok m => {.version m}
  | .error _ => ∅

/-- What the answers show. -/
def learnSeen (K : Set Seen) : (e : Op) → Resp e → Set Seen
  | .getNodeMaintenance _, r => versionOf r
  | .update _, r => versionOf r
  | .statusUpdate _, r => versionOf r
  | .now, (t : Nat) => {f | ∃ m, .version m ∈ K ∧ f = .reading m t}
  | _, _ => ∅

/-- The body is a version that was shown, with its ready time, or with the time of a reading if it is a
terminal one. -/
structure Sourced (F : Formats) (K : Set Seen) (b m : NodeMaintenance) : Prop where
  shown : .version m ∈ K
  uid : b.uid = m.uid
  resourceVersion : b.resourceVersion = m.resourceVersion
  readyTime : readyTimeOf b = readyTimeOf m ∨
    Terminal m ∧ ∃ t, .reading m t ∈ K ∧ readyTimeOf b = some (F.format t)

/-- What whole-object updates are made from. -/
def readyTimes (F : Formats) : Knowledge Op Resp Seen where
  learn := learnSeen
  need K
    | .update b => ∃ m, Sourced F K b m
    | _ => True

/-- The object in hand is a version that was shown, but for changes that have to do neither with the ready
time nor with the phase. -/
def InHand (nm : NodeMaintenance) (K : Set Seen) : Prop :=
  ∃ m, .version m ∈ K ∧ nm.uid = m.uid ∧ nm.resourceVersion = m.resourceVersion ∧
    readyTimeOf nm = readyTimeOf m ∧ nm.status = m.status

section Calls
variable {F : Formats} {K K' : Set Seen} {nm b : NodeMaintenance} {node : Node}

lemma InHand.mono (h : InHand nm K) (hK : K ⊆ K') : InHand nm K' := by
  obtain ⟨m, hm, h⟩ := h
  exact ⟨m, hK hm, h⟩

lemma InHand.of_version (h : .version nm ∈ K) : InHand nm K := ⟨nm, h, rfl, rfl, rfl, rfl⟩

/-- What is sent of the object in hand. -/
lemma InHand.sourced (h : InHand nm K) (huid : b.uid = nm.uid) (hrv : b.resourceVersion = nm.resourceVersion)
    (hready : readyTimeOf b = readyTimeOf nm) : ∃ m, Sourced F K b m := by
  obtain ⟨m, hm, hu, hr, ht, -⟩ := h
  exact ⟨m, hm, huid.trans hu, hrv.trans hr, .inl (hready.trans ht)⟩

lemma getNodeMaintenance_informed {key : NamespacedName} :
    (readyTimes F).InformedE (Client.getNodeMaintenance key) InHand K := by
  refine Informed.lift trivial ?_
  rintro _ m rfl
  exact .of_version (.inr rfl)

lemma update_informed (h : ∃ m, Sourced F K b m) :
    (readyTimes F).InformedE (Client.update b) InHand K := by
  refine Informed.lift h ?_
  rintro _ m rfl
  exact .of_version (.inr rfl)

/-- An update of the object in hand that leaves its ready time alone. -/
lemma InHand.update (h : InHand nm K) (huid : b.uid = nm.uid) (hrv : b.resourceVersion = nm.resourceVersion)
    (hready : readyTimeOf b = readyTimeOf nm) : (readyTimes F).InformedE (Client.update b) InHand K :=
  update_informed (h.sourced huid hrv hready)

/-- Programs without whole-object updates need to know nothing. -/
lemma informed_of_noUpdate {α : Type} {x : Action α} (h : AllE (OnUpdate fun _ => False) x) :
    (readyTimes F).InformedE x (fun _ _ => True) K := by
  refine InformedE.of_all (Prog.All.mono h fun e he K => ?_)
  cases e with
  | update b => exact he.elim
  | _ => trivial

/-- The outcome of a program as a value. -/
lemma observe_informed {α : Type} {x : Action α} {Q : α → Set Seen → Prop}
    (h : (readyTimes F).InformedE x Q K) :
    (readyTimes F).InformedE (observe x) (fun res K' => ∀ a, res = .ok a → Q a K') K :=
  InformedE.lift h

end Calls

/-! ### The functions -/

/-- None of the everyday calls is a whole-object update. -/
lemma everyday_onUpdate {P : NodeMaintenance → Prop} : Everyday (OnUpdate P) := by
  intro e he
  cases e with
  | update b => cases he
  | _ => trivial

section Functions
variable {r : Reconciler} {F : Formats} {K : Set Seen} {nm : NodeMaintenance} {node : Node}

lemma setOwnerRef_informed (h : InHand nm K) :
    (readyTimes F).InformedE (setOwnerRef node nm) (fun owned => InHand owned.1) K := by
  refine InformedE.bind (observe_informed (h.update rfl rfl rfl)) fun res K' hK hres => ?_
  cases res with
  | ok nm' => exact .pure (hres nm' rfl)
  -- after an error the object goes on as it was to be sent
  | error err => exact .pure (h.mono hK)

lemma addFinalizer_informed (h : InHand nm K) {f : String} :
    (readyTimes F).InformedE (addFinalizer nm f) InHand K :=
  .ite (fun _ => .pure h) fun _ => h.update rfl rfl rfl

lemma removeFinalizer_informed (h : InHand nm K) {f : String} :
    (readyTimes F).InformedE (removeFinalizer nm f) InHand K :=
  .ite (fun _ => h.update rfl rfl rfl) fun _ => .pure h

lemma readyTimeOf_set {k v : String} (h : k ≠ readyTimeAnnotation) :
    readyTimeOf { nm with annotations := nm.annotations.set k v } = readyTimeOf nm :=
  GoMap.get?_set_ne v h.symm

lemma readyTimeOf_delete {k : String} (h : k ≠ readyTimeAnnotation) :
    readyTimeOf { nm with annotations := nm.annotations.delete k } = readyTimeOf nm :=
  GoMap.get?_delete_ne h.symm

lemma handleCordon_informed (h : InHand nm K) :
    (readyTimes F).InformedE (handleCordon nm node) InHand K := by
  have hrecord : (readyTimes F).InformedE (recordInitialState nm node) InHand K :=
    .ite (fun _ => h.update rfl rfl (readyTimeOf_set (by decide))) fun _ => .pure h
  refine .bind hrecord fun nm K' _ h => .ite (fun _ => ?_) fun _ => .pure h
  refine .bind (informed_of_noUpdate (runCordonOrUncordon_all trivial)) fun _ K'' hK _ => ?_
  exact .pure (h.mono hK)

lemma handleUnCordon_informed (h : InHand nm K) :
    (readyTimes F).InformedE (handleUnCordon nm node) InHand K := by
  have hdrop : ∀ {K}, InHand nm K → (readyTimes F).InformedE (dropInitialState nm) InHand K :=
    fun h => .ite (fun _ => h.update rfl rfl (readyTimeOf_delete (by decide))) fun _ => .pure h
  refine .ite (fun _ => ?_) fun _ => hdrop h
  refine .bind (informed_of_noUpdate (runCordonOrUncordon_all trivial)) fun _ K' hK _ => ?_
  exact hdrop (h.mono hK)

lemma waitForObjectUpdate_informed {key : NamespacedName} {checkFn : NodeMaintenance → Bool} (n : Nat) :
    (readyTimes F).InformedE (waitForObjectUpdate (Client.getNodeMaintenance key) checkFn n) InHand K := by
  induction n generalizing K with
  | zero => exact .throw
  | succ n ih => exact .bind getNodeMaintenance_informed fun o K' _ h => .ite (fun _ => .pure h) fun _ => ih

lemma setMCPLabel_informed (h : InHand nm K) {mcpName : String} :
    (readyTimes F).InformedE (setMCPLabel nm mcpName) InHand K := by
  refine .ite (fun _ => .bind (.adapt (h.update rfl rfl rfl)) fun nm K' _ _ => ?_) fun _ => .pure h
  exact .adapt (waitForObjectUpdate_informed _)

lemma liftExcept_informed {α : Type} {res : Except Err α} {Q : α → Set Seen → Prop}
    (h : ∀ a, res = .ok a → Q a K) : (readyTimes F).InformedE (liftExcept res : Action α) Q K := by
  cases res with
  | ok a => exact .pure (h a rfl)
  | error err => exact .throw

lemma pauseMCP_informed (h : InHand nm K) : (readyTimes F).InformedE (pauseMCP node nm) InHand K := by
  have hmono : ∀ {res : Except Err NodeMaintenance} {K K' : Set Seen}, K ⊆ K' →
      (∀ a, res = .ok a → InHand a K) → ∀ a, res = .ok a → InHand a K' :=
    fun hK hres a ha => (hres a ha).mono hK
  have hlocked : ∀ {K}, InHand nm K → (readyTimes F).InformedE (pauseLocked node nm) InHand K := by
    intro K h
    refine .bind (informed_of_noUpdate (.adapt (getMCPName_all fun _ => trivial))) fun mcpName K' hK _ => ?_
    refine .bind (setMCPLabel_informed (h.mono hK)) fun nm K' _ h => ?_
    refine .bind (informed_of_noUpdate (pausePool_all everyday_onUpdate.poolCalls)) fun _ K'' hK _ => ?_
    exact .pure (h.mono hK)
  refine .bind (informed_of_noUpdate (.lift (call_all trivial))) fun _ K' hK _ => ?_
  refine .bind (observe_informed (Q := InHand) ?_) fun res K₁ _ hres => ?_
  · refine .bind (observe_informed (hlocked (h.mono hK))) fun res K₁ _ hres => ?_
    refine .bind (informed_of_noUpdate (.lift (call_all trivial))) fun _ K₂ hK₂ _ => ?_
    exact liftExcept_informed (hmono hK₂ hres)
  · refine .bind (informed_of_noUpdate (.lift (call_all trivial))) fun _ K₂ hK₂ _ => ?_
    exact liftExcept_informed (hmono hK₂ hres)

lemma cleanup_informed (h : InHand nm K) :
    (readyTimes F).InformedE (r.cleanup nm node) (fun _ _ => True) K := by
  have huncordon : (readyTimes F).InformedE
      (if nm.spec.cordon then handleUnCordon nm node else pure nm) InHand K :=
    .ite (fun _ => handleUnCordon_informed h) fun _ => .pure h
  refine .bind huncordon fun nm K' _ h => ?_
  refine .bind (informed_of_noUpdate (unpause_everyday everyday_onUpdate)) fun _ K'' hK _ => ?_
  exact .bind (removeFinalizer_informed (h.mono hK)) fun _ _ _ _ => .pure trivial

lemma handleScheduledState_informed (h : InHand nm K) :
    (readyTimes F).InformedE (r.handleScheduledState nm node) (fun _ _ => True) K := by
  refine .ite (fun _ => ?_) fun _ => .bind (addFinalizer_informed h) fun nm K' _ h =>
    .ite (fun _ => ?_) fun _ => ?_
  · refine .bind (informed_of_noUpdate (unpause_everyday everyday_onUpdate)) fun _ K' hK _ => ?_
    refine .bind (Q := fun _ _ => True) ?_ fun _ _ _ _ => .pure trivial
    exact .bind (removeFinalizer_informed (h.mono hK)) fun _ _ _ _ => .pure trivial
  · refine .bind (observe_informed (pauseMCP_informed h)) fun res K' _ hres => ?_
    cases res with
    | error err => exact .ite (fun _ => .pure trivial) fun _ => .throw
    | ok nm =>
      exact .bind (informed_of_noUpdate (setReadyConditionReason_all everyday_onUpdate)) fun _ _ _ _ => .pure trivial
  · exact .bind (informed_of_noUpdate (setReadyConditionReason_all everyday_onUpdate)) fun _ _ _ _ => .pure trivial

lemma handleCordonState_informed (h : InHand nm K) :
    (readyTimes F).InformedE (r.handleCordonState nm node) (fun _ _ => True) K := by
  have hcordon : (readyTimes F).InformedE
      (if nm.spec.cordon then handleCordon nm node else pure nm) InHand K :=
    .ite (fun _ => handleCordon_informed h) fun _ => .pure h
  refine .ite (fun _ => .bind (cleanup_informed h) fun _ _ _ _ => .pure trivial) fun _ => ?_
  refine .bind hcordon fun nm K' _ h => ?_
  exact .bind (informed_of_noUpdate (setReadyConditionReason_all everyday_onUpdate)) fun _ _ _ _ => .pure trivial

lemma handlePodCompletion_informed (h : InHand nm K) :
    (readyTimes F).InformedE (handlePodCompletion F nm) (fun _ _ => True) K := by
  refine .ite (fun _ => .bind (informed_of_noUpdate all_timeNow) fun t K' hK _ => ?_) fun _ => ?_
  · refine .bind (observe_informed ((h.mono hK).update rfl rfl (readyTimeOf_set (by decide)))) fun res K'' _ _ => ?_
    cases res with
    | error err => exact .pure trivial
    | ok nm => exact informed_of_noUpdate all_waitForPods
  · split
    · exact informed_of_noUpdate all_waitForPods
    · refine .bind (observe_informed (h.update rfl rfl (readyTimeOf_delete (by decide)))) fun res K' _ _ => ?_
      cases res <;> exact .pure trivial

lemma handleWaitPodCompletionState_informed (hr : r.formats = F) (h : InHand nm K) :
    (readyTimes F).InformedE (r.handleWaitPodCompletionState nm node) (fun _ _ => True) K := by
  subst hr
  have hset : ∀ {K} {nm : NodeMaintenance}, (readyTimes r.formats).InformedE
      (do let _ ← setReadyConditionReason nm .draining
          return Result.zero) (fun _ _ => True) K :=
    .bind (informed_of_noUpdate (setReadyConditionReason_all everyday_onUpdate)) fun _ _ _ _ => .pure trivial
  refine .ite (fun _ => .bind (cleanup_informed h) fun _ _ _ _ => .pure trivial) fun _ =>
    .ite (fun _ => .bind (handlePodCompletion_informed h) fun waited K' _ _ => ?_) fun _ => hset
  dsimp only
  split
  · refine .bind (informed_of_noUpdate (.lift (call_all trivial))) fun _ _ _ _ => ?_
    exact .ite (fun _ => .pure trivial) fun _ => hset
  · refine .bind (informed_of_noUpdate (.lift (call_all trivial))) fun _ _ _ _ => ?_
    exact .ite (fun _ => hset) fun _ => .throw

lemma handleDrainState_informed (h : InHand nm K) :
    (readyTimes F).InformedE (r.handleDrainState nm node) (fun _ _ => True) K := by
  cases hdel : nm.deleting with
  | false => exact informed_of_noUpdate (drainState_all everyday_onUpdate hdel)
  | true =>
    unfold handleDrainState
    rw [hdel, if_pos rfl]
    refine .bind (informed_of_noUpdate (.lift (call_all trivial))) fun req K' hK' _ => ?_
    refine .bind (informed_of_noUpdate (logState_all everyday_onUpdate)) fun _ K₁ hK₁ _ => ?_
    refine .bind (informed_of_noUpdate (.lift (call_all trivial))) fun _ K₂ hK₂ _ => ?_
    exact .bind (cleanup_informed (((h.mono hK').mono hK₁).mono hK₂)) fun _ _ _ _ => .pure trivial

/-- The one place where a ready time is made: the reading is taken with the terminal version at hand. -/
lemma setReadyTime_informed (hr : r.formats = F) (h : InHand nm K) (hterm : Terminal nm) :
    (readyTimes F).InformedE (r.setReadyTime nm) InHand K := by
  obtain ⟨m, hm, huid, hrv, -, hstatus⟩ := id h
  have hterm' : Terminal m := by
    unfold Terminal getReadyConditionReason at hterm ⊢
    rwa [← hstatus]
  refine .ite (fun _ => ?_) fun _ => .pure h
  have hnow : (readyTimes F).InformedE timeNow (fun t K' => .version m ∈ K' ∧ .reading m t ∈ K') K :=
    .lift (.lift trivial fun t => ⟨.inl hm, .inr ⟨m, hm, rfl⟩⟩)
  refine .bind hnow fun now K' _ hnow => update_informed ⟨m, hnow.1, huid, hrv, .inr ⟨hterm', now, hnow.2, ?_⟩⟩
  rw [hr]
  exact GoMap.get?_set_self _ _ _

lemma handleTerminalState_informed (hr : r.formats = F) (h : InHand nm K) (hterm : Terminal nm) :
    (readyTimes F).InformedE (r.handleTerminalState nm node) (fun _ _ => True) K := by
  refine .ite (fun _ => .ite (fun _ => .pure trivial) fun _ => ?_) fun _ => ?_
  · exact .bind (cleanup_informed h) fun _ _ _ _ => .pure trivial
  · exact .bind (setReadyTime_informed hr h hterm) fun nm K' _ _ => informed_of_noUpdate (checkRequestorFailed_all everyday_onUpdate)

lemma dispatch_informed (hr : r.formats = F) (h : InHand nm K) :
    (readyTimes F).InformedE (r.dispatch nm node) (fun _ _ => True) K := by
  have howned : (readyTimes F).InformedE
      (if hasOwnerRef node nm then pure (nm, none) else setOwnerRef node nm) (fun owned => InHand owned.1) K :=
    .ite (fun _ => .pure h) fun _ => setOwnerRef_informed h
  refine .bind howned fun owned K' _ h => ?_
  dsimp only
  split
  · refine .bind (Q := fun _ _ => True) ?_ fun _ _ _ _ => .pure trivial
    exact .bind (informed_of_noUpdate (setReadyConditionReason_all everyday_onUpdate)) fun _ _ _ _ => .pure trivial
  · exact handleScheduledState_informed h
  · exact handleCordonState_informed h
  · exact handleWaitPodCompletionState_informed hr h
  · exact handleDrainState_informed h
  · rename_i hreason
    exact handleTerminalState_informed hr h (.inl hreason)
  · rename_i hreason
    exact handleTerminalState_informed hr h (.inr hreason)
  · split
    · exact .throw
    · exact .pure trivial

/-- A reconcile knows where the objects it sends come from. -/
theorem reconcile_informed (r : Reconciler) (key : NamespacedName) :
    (readyTimes r.formats).InformedE (r.reconcile key) (fun _ _ => True) ∅ := by
  refine .bind (observe_informed getNodeMaintenance_informed) fun res K _ hres => ?_
  cases res with
  | error err => exact .ite (fun _ => .pure trivial) fun _ => .throw
  | ok nm =>
    have h := hres nm rfl
    refine .bind (informed_of_noUpdate (.lift (call_all trivial))) fun res K' hK _ => ?_
    cases res with
    | error err =>
      refine .ite (fun _ => ?_) fun _ => .throw
      refine .bind (informed_of_noUpdate (.lift (call_all trivial))) fun _ K'' hK' _ => ?_
      exact .bind (removeFinalizer_informed ((h.mono hK).mono hK')) fun _ _ _ _ => .pure trivial
    | ok node => exact dispatch_informed rfl (h.mono hK)

end Functions
end MaintenanceOperator
