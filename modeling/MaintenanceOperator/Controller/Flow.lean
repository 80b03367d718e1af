import MaintenanceOperator.Controller.Host
import MaintenanceOperator.Operator.Phase

/-!
# The way through the phase handlers

What the handlers do besides cordoning, pausing and cleaning up is the same for every plan that leaves
the drain manager and the order of the phases alone. For such a plan (`Plan`), `dispatch_triple` reduces
`Reconcile` to three parts: the cleanup of the delete paths, the handler of phase Scheduled, and the way
from phase Cordon to WaitForPodCompletion.
-/

namespace MaintenanceOperator
open Lib Discipline Reconciler Host

variable {ι S α : Type} {Y : System ι Op Resp S α} {D : Discipline Y} {i : ι} {key : NamespacedName}

/-- The handler of this object is `handleTerminalState`. -/
def Terminal (m : NodeMaintenance) : Prop :=
  getReadyConditionReason m = .ready ∨ getReadyConditionReason m = .requestorFailed

/-- What is left to show for a plan: `F` is what is known of the version in hand and of its node. -/
structure Plan (H : Host D i key) (r : Reconciler) (node : Node) (F : NodeMaintenance → S → Prop) :
    Prop where
  lasting : ∀ m, H.Lasting (F m)
  alike : ∀ {m a s}, Alike m a → F m s → F a s
  drain : ∀ {e : Op}, e.part = .drain → H.Quiet e
  podCompletion : ∀ nm pods err, H.Quiet (.trace (.podCompletion nm pods err))
  advance : ∀ {s o b}, D.inv s → (H.world s).nms.get key = some o →
    Advance (getReadyConditionReason o) (getReadyConditionReason b) →
    getReadyConditionReason b ≠ .scheduled → getReadyConditionReason b ≠ .cordon →
    getReadyConditionReason b ≠ .waitForPodCompletion → H.MayStatus s o b
  cleanup : ∀ {m}, m.deleting = true → 3 ≤ phase m → (Terminal m → m.spec.additionalRequestors = []) →
    D.TripleE i (fun s => H.Holds m s ∧ F m s) (r.cleanup m node) fun _ _ => True
  scheduled : ∀ {m}, getReadyConditionReason m = .scheduled →
    D.TripleE i (fun s => H.Holds m s ∧ F m s) (r.handleScheduledState m node) fun _ _ => True
  cordon : ∀ {m}, getReadyConditionReason m = .cordon → m.deleting = false →
    D.TripleE i (fun s => H.Holds m s ∧ F m s)
      (do let a ← (if m.spec.cordon then handleCordon m node else pure m)
          let _ ← setReadyConditionReason a .waitForPodCompletion
          return Result.zero) fun _ _ => True

/-- Nothing is asked after the last call. -/
lemma done_triple {A : S → Prop} {β γ : Type} {x : Action β} {c : γ}
    (h : D.TripleE i A x fun _ _ => True) : D.TripleE i A (do let _ ← x; pure c) fun _ _ => True :=
  TripleE.bind h fun _ => .pure (Stable.const _) fun _ _ h => h

/-- The handler of phase Scheduled, from its parts. -/
lemma scheduledState_triple {r : Reconciler} {node : Node} {m : NodeMaintenance} {A R : S → Prop}
    {B C : NodeMaintenance → S → Prop} (hunpause : D.TripleE i A (r.unpause m node) fun _ => R)
    (hrelease : m.deleting = true → D.TripleE i R (handleFinalizerRemoval m) fun _ _ => True)
    (hadd : D.TripleE i A (addFinalizer m maintenanceFinalizerName) B)
    (hpause : ∀ a, D.TripleE i (B a) (pauseMCP node a) C)
    (hskip : r.mcpManager = false →
      ∀ a, D.TripleE i (B a) (setReadyConditionReason a .cordon) fun _ _ => True)
    (hstep : ∀ a, D.TripleE i (C a) (setReadyConditionReason a .cordon) fun _ _ => True) :
    D.TripleE i A (r.handleScheduledState m node) fun _ _ => True := by
  unfold handleScheduledState
  split
  · rename_i hdel
    exact hunpause.bind fun _ => done_triple (hrelease hdel)
  · refine hadd.bind fun a => ?_
    split
    -- a busy pool ends the handler without an error, and without the step
    · refine TripleE.bind (TripleE.lift (hpause a)) fun res => ?_
      cases res with
      | error err =>
        dsimp only
        split
        · exact TripleE.pre (.pure (Stable.const True) fun _ _ h => h) fun _ _ _ => trivial
        · exact .throw
      | ok a' => exact done_triple (TripleE.pre (hstep a') fun _ _ h => h a' rfl)
    · rename_i hr
      exact done_triple (hskip (by simpa using hr) a)

section Handlers
variable {H : Host D i key} {r : Reconciler} {node : Node} {A F : S → Prop} {m : NodeMaintenance}

/-- The node-not-found branch of `Reconcile`. -/
lemma nodeNotFound_triple (hA : H.Lasting A) (hnote : H.Quiet (.trace (.nodeNotFound m)))
    (h : D.TripleE i A (removeFinalizer m maintenanceFinalizerName) fun _ _ => True) :
    D.TripleE i A (handleNodeNotFound m) fun _ _ => True :=
  TripleE.bind (TripleE.lift (call_quiet hA hnote)) fun _ => done_triple h

/-- The handler of phase Cordon, in a plan that looks at neither the annotation nor the flag. -/
lemma cordonState_triple (hF : H.Firm F)
    (hok : ∀ s refs l, D.inv s → F s →
      (H.world s).nms.get key = some { m with ownerReferences := refs } →
      H.MayUpdate s { m with ownerReferences := refs } { m with annotations := l })
    (hpatch : H.Quiet (.patchUnschedulable node.name true))
    (hstep : ∀ a, getReadyConditionReason a = getReadyConditionReason m →
      D.TripleE i (fun s => H.Holds a s ∧ F s) (setReadyConditionReason a .waitForPodCompletion)
        fun _ _ => True) :
    D.TripleE i (fun s => H.Holds m s ∧ F s)
      (do let a ← (if m.spec.cordon then handleCordon m node else pure m)
          let _ ← setReadyConditionReason a .waitForPodCompletion
          return Result.zero) fun _ _ => True :=
  (cordonStep_triple hF hok hpatch).bind fun a => TripleE.of_pure fun ha =>
    done_triple (hstep a ha.reason)

/-- The handler of phase WaitForPodCompletion, from its parts: `N` is what the note about the outcome of
`HandlePodCompletion` leaves. -/
lemma waitState_triple {N : NodeMaintenance → List String → Option Err → S → Prop} (hF : H.Lasting F)
    (hN : ∀ a pods err, D.Stable i (N a pods err))
    (hcleanup : m.deleting = true →
      D.TripleE i (fun s => H.Holds m s ∧ F s) (r.cleanup m node) fun _ _ => True)
    (hskip : m.spec.waitForPodCompletion = none →
      D.TripleE i (fun s => H.Holds m s ∧ F s) (setReadyConditionReason m .draining) fun _ _ => True)
    (htrace : ∀ p a pods err, D.TripleE i (H.Settled m p) (trace (.podCompletion a pods err))
      fun _ s => H.Settled m p s ∧ N a pods err s)
    (hstep : ∀ a pods err, Alike m a →
      (pods = [] ∧ err = none ∨ ∃ e, err = some e ∧ e.is .errPodCompletionTimeout = true) →
      D.TripleE i (fun s => H.Holds a s ∧ N a pods err s) (setReadyConditionReason a .draining)
        fun _ _ => True) :
    D.TripleE i (fun s => H.Holds m s ∧ F s) (r.handleWaitPodCompletionState m node)
      fun _ _ => True := by
  unfold handleWaitPodCompletionState
  split
  · rename_i hdel
    exact done_triple (hcleanup hdel)
  · split
    · refine TripleE.bind (handlePodCompletion_triple hF) fun p => ?_
      obtain ⟨a, res⟩ := p
      cases res with
      | ok pods =>
        refine TripleE.pre (TripleE.bind (htrace _ _ _ _) fun _ => ?_) fun s _ h => h.1
        split
        -- pods are left: the phase stays
        · exact .pure (lasting_settled.stable.and (hN _ _ _)) fun _ _ _ => trivial
        · rename_i hlen
          have hpods : pods = [] := by simpa using hlen
          refine Triple.assume (fun s _ h => (h.1 nofun).1) fun hal => done_triple ?_
          exact TripleE.pre (hstep a pods none hal (.inl ⟨hpods, rfl⟩))
            fun s _ h => ⟨(h.1 nofun).2, h.2⟩
      | error err =>
        refine TripleE.pre (TripleE.bind (htrace _ _ _ _) fun _ => ?_) fun s _ h => h.1
        split
        · rename_i hto
          -- of the errors only a timeout tells that the object in hand is the stored one
          have hall : ∀ e, Except.error (α := List String) err = .error e →
              e.is .errPodCompletionTimeout = true := by
            rintro _ ⟨⟩
            exact hto
          refine Triple.assume (fun s _ h => (h.1 hall).1) fun hal => done_triple ?_
          exact TripleE.pre (hstep a [] (some err) hal (.inr ⟨err, rfl, hto⟩))
            fun s _ h => ⟨(h.1 hall).2, h.2⟩
        · exact .throw
    · rename_i hnone
      exact done_triple (hskip (by simpa using hnone))

/-- The handler of the phases Ready and RequestorFailed, from its parts. -/
lemma terminalState_triple (hF : H.Lasting F)
    (hcleanup : m.deleting = true → m.spec.additionalRequestors = [] →
      D.TripleE i (fun s => H.Holds m s ∧ F s) (r.cleanup m node) fun _ _ => True)
    (hfail : ∀ a, getReadyConditionReason a = .ready →
      D.TripleE i (H.Holds a) (setReadyConditionReason a .requestorFailed) fun _ _ => True)
    (hrecover : ∀ a, getReadyConditionReason a = .requestorFailed →
      D.TripleE i (H.Holds a) (setReadyConditionReason a .ready) fun _ _ => True) :
    D.TripleE i (fun s => H.Holds m s ∧ F s) (r.handleTerminalState m node) fun _ _ => True := by
  have hstop : ∀ a, D.TripleE i (H.Holds a) (pure Result.zero : Action Result) fun _ _ => True :=
    fun a => .pure lasting_holds.stable fun _ _ _ => trivial
  have hcheck : ∀ a, D.TripleE i (H.Holds a) (checkRequestorFailed a) fun _ _ => True := by
    intro a
    unfold checkRequestorFailed
    dsimp only
    split
    · split
      · rename_i ha
        exact done_triple (hfail a ha)
      · exact hstop a
    · split
      · rename_i ha
        exact done_triple (hrecover a ha)
      · exact hstop a
  unfold handleTerminalState
  split
  · rename_i hdel
    split
    · exact .pure (lasting_holds.and hF).stable fun _ _ _ => trivial
    · rename_i hlist
      exact done_triple (hcleanup hdel (by simpa using hlist))
  · exact (setReadyTime_triple hF).bind fun a => TripleE.of_pure fun _ =>
      (hcheck a).pre fun s _ h => h.1

end Handlers

/-- The handlers of all phases, with what is known of the version in hand. -/
structure Handled (H : Host D i key) (r : Reconciler) (node : Node) (F : NodeMaintenance → S → Prop) :
    Prop where
  lasting : ∀ m, H.Lasting (F m)
  alike : ∀ {m a s}, Alike m a → F m s → F a s
  uninitialized : ∀ {m}, getReadyConditionReason m = .uninitialized →
    D.TripleE i (fun s => H.Holds m s ∧ F m s) (handleUninitiaizedState m) fun _ _ => True
  scheduled : ∀ {m}, getReadyConditionReason m = .scheduled →
    D.TripleE i (fun s => H.Holds m s ∧ F m s) (r.handleScheduledState m node) fun _ _ => True
  cordon : ∀ {m}, getReadyConditionReason m = .cordon →
    D.TripleE i (fun s => H.Holds m s ∧ F m s) (r.handleCordonState m node) fun _ _ => True
  waitForPodCompletion : ∀ {m}, getReadyConditionReason m = .waitForPodCompletion →
    D.TripleE i (fun s => H.Holds m s ∧ F m s) (r.handleWaitPodCompletionState m node) fun _ _ => True
  draining : ∀ {m}, getReadyConditionReason m = .draining →
    D.TripleE i (fun s => H.Holds m s ∧ F m s) (r.handleDrainState m node) fun _ _ => True
  terminal : ∀ {m}, Terminal m →
    D.TripleE i (fun s => H.Holds m s ∧ F m s) (r.handleTerminalState m node) fun _ _ => True

/-- `Reconcile` once the object and its node are at hand. -/
theorem Handled.dispatch_triple {H : Host D i key} {r : Reconciler} {node : Node}
    {F : NodeMaintenance → S → Prop} {m : NodeMaintenance} (P : Handled H r node F) :
    D.TripleE i (fun s => H.Holds m s ∧ F m s) (r.dispatch m node) fun _ _ => True := by
  have hA : ∀ a, H.Lasting fun s => H.Holds a s ∧ F a s := fun a => lasting_holds.and (P.lasting a)
  have howned : D.TripleE i (fun s => H.Holds m s ∧ F m s)
      (if hasOwnerRef node m then pure (m, none) else setOwnerRef node m)
      fun p s => H.Holds p.1 s ∧ F p.1 s := by
    split
    · exact .pure (hA m).stable fun s _ h => h
    · exact (setOwnerRef_triple (P.lasting m)).conseq (fun _ _ h => h)
        fun p s _ h => ⟨h.2.1, P.alike h.1 h.2.2⟩
  refine howned.bind fun p => ?_
  obtain ⟨a, err⟩ := p
  dsimp only
  split
  · rename_i ha
    exact done_triple (P.uninitialized ha)
  · rename_i ha
    exact P.scheduled ha
  · rename_i ha
    exact P.cordon ha
  · rename_i ha
    exact P.waitForPodCompletion ha
  · rename_i ha
    exact P.draining ha
  · rename_i ha
    exact P.terminal (.inl ha)
  · rename_i ha
    exact P.terminal (.inr ha)
  -- a phase without handler: only the error of the owner reference is left
  · cases err with
    | none => exact .pure (hA a).stable fun _ _ _ => trivial
    | some err => exact .throw

namespace Plan
variable {H : Host D i key} {r : Reconciler} {node : Node} {F : NodeMaintenance → S → Prop}
  {A : S → Prop} {m : NodeMaintenance}

/-- The version in hand and what is known of it. -/
lemma holds_lasting (P : Plan H r node F) (m : NodeMaintenance) :
    H.Lasting fun s => H.Holds m s ∧ F m s :=
  lasting_holds.and (P.lasting m)

/-- A step from phase to phase, other than to Scheduled, Cordon and WaitForPodCompletion. -/
lemma advance_triple (P : Plan H r node F) {reason : Reason} (hA : H.Lasting A)
    (adv : Advance (getReadyConditionReason m) reason) (hs : reason ≠ .scheduled)
    (hc : reason ≠ .cordon) (hw : reason ≠ .waitForPodCompletion) :
    D.TripleE i (fun s => H.Holds m s ∧ A s) (setReadyConditionReason m reason) fun _ _ => True := by
  refine setReady_triple hA fun s refs now hinv _ ho => ?_
  apply P.advance hinv ho
  · rw [getReadyConditionReason_withReadyReason]
    exact adv
  · simpa using hs
  · simpa using hc
  · simpa using hw

/-- The same where nothing else is known. -/
lemma step_triple (P : Plan H r node F) {reason : Reason}
    (adv : Advance (getReadyConditionReason m) reason) (hs : reason ≠ .scheduled)
    (hc : reason ≠ .cordon) (hw : reason ≠ .waitForPodCompletion) :
    D.TripleE i (H.Holds m) (setReadyConditionReason m reason) fun _ _ => True :=
  TripleE.pre (P.advance_triple (Lasting.const True) adv hs hc hw) fun _ _ h => ⟨h, trivial⟩

lemma handleCordonState_triple (P : Plan H r node F) (hm : getReadyConditionReason m = .cordon) :
    D.TripleE i (fun s => H.Holds m s ∧ F m s) (r.handleCordonState m node) fun _ _ => True := by
  have hterm : ¬ Terminal m := by simp [Terminal, hm]
  unfold handleCordonState
  split
  · rename_i hdel
    exact done_triple (P.cleanup hdel (Nat.le_of_eq (phase_of_reason hm).symm) fun h => absurd h hterm)
  · rename_i hdel
    exact P.cordon hm (by simpa using hdel)

lemma handleWaitPodCompletionState_triple (P : Plan H r node F)
    (hm : getReadyConditionReason m = .waitForPodCompletion) :
    D.TripleE i (fun s => H.Holds m s ∧ F m s) (r.handleWaitPodCompletionState m node)
      fun _ _ => True := by
  have hterm : ¬ Terminal m := by simp [Terminal, hm]
  have hdrain : ∀ a, Alike m a → D.TripleE i (H.Holds a) (setReadyConditionReason a .draining)
      fun _ _ => True := by
    intro a hal
    refine P.step_triple ?_ nofun nofun nofun
    rw [hal.reason, hm]
    exact .toDraining
  refine waitState_triple (N := fun _ _ _ _ => True) (P.lasting m) (fun _ _ _ => Stable.const _)
    (fun hdel => P.cleanup hdel ?_ fun h => absurd h hterm)
    (fun _ => (hdrain m (.refl m)).pre fun _ _ h => h.1) (fun p a pods err => ?_)
    fun a _ _ hal _ => (hdrain a hal).pre fun _ _ h => h.1
  · rw [phase_of_reason hm]
    decide
  · refine TripleE.conseq (quiet_all (lasting_settled (p := p)) (AllE.lift
      ⟨P.podCompletion a pods err, fun _ => trivial⟩)) (fun _ _ h => h) fun _ _ _ h => ⟨h, trivial⟩

/-! ### Draining -/

/-- Calls of the drain manager keep what lasts. -/
lemma drain_quiet (P : Plan H r node F) {β : Type} {x : Action β} (hA : H.Lasting A)
    (hx : Touches [.drain] x) : D.TripleE i A x fun _ => A := by
  refine quiet hA hx fun p hp e he => P.drain ?_
  rw [he]
  simpa using hp

lemma handleDrainStateDelete_triple (P : Plan H r node F) (hm : getReadyConditionReason m = .draining)
    (hdel : m.deleting = true) :
    D.TripleE i (fun s => H.Holds m s ∧ F m s) (r.handleDrainStateDelete m node) fun _ _ => True := by
  have hA := P.holds_lasting m
  have hterm : ¬ Terminal m := by simp [Terminal, hm]
  refine TripleE.bind (silent hA ⟨.inl rfl, fun _ => trivial⟩) fun req => ?_
  refine TripleE.bind (silent hA ?_) fun _ => ?_
  · cases req with
    | none => exact .pure
    | some req => exact .bind ⟨.inl rfl, fun _ => trivial⟩ fun _ => .pure
  · refine TripleE.bind (P.drain_quiet hA ⟨.inr (.head _), fun _ => trivial⟩) fun _ => ?_
    refine done_triple (P.cleanup hdel ?_ fun h => absurd h hterm)
    rw [phase_of_reason hm]
    decide

/-- The step to phase Ready. -/
lemma toReady_triple (P : Plan H r node F) (hm : getReadyConditionReason m = .draining)
    {a : NodeMaintenance} (hal : Alike m a) :
    D.TripleE i (H.Holds a) (setReadyConditionReason a .ready) fun _ _ => True := by
  refine P.step_triple ?_ nofun nofun nofun
  rw [hal.reason, hm]
  exact .toReady

/-- The drain status is written on the way. -/
lemma drainStatus_triple {n : NodeMaintenance} {req : Nat} (hn : Matches n m) (hal : Alike m n) :
    D.TripleE i (H.Holds m) (updateDrainStatus n req) fun a s => Alike m a ∧ H.Holds a s :=
  TripleE.conseq (updateDrainStatus_triple (F := fun _ => True) (E := fun _ => True) (Lasting.const _)
    (Stable.const _) hn hal fun _ _ _ _ _ => trivial) (fun _ _ h => ⟨h, trivial⟩)
    fun _ _ _ h => ⟨h.1.1, h.2.1⟩

lemma drainFailed_touches {req : Nat} : Touches [] (drainFailed req) :=
  .bind ⟨.inl rfl, fun _ => trivial⟩ fun _ =>
    .ite .pure (.bind ⟨.inl rfl, fun _ => trivial⟩ fun _ => .pure)

lemma followDrainRequest_triple (P : Plan H r node F) {spec : DrainSpec} {req : Nat}
    (hm : getReadyConditionReason m = .draining) :
    D.TripleE i (H.Holds m) (followDrainRequest m spec req) fun _ _ => True := by
  have hA : H.Lasting (H.Holds m) := lasting_holds
  have hremove : ∀ uid, D.TripleE i (H.Holds m)
      (do DrainManager.removeRequest uid; pure drainReqeueTime) fun _ _ => True := by
    intro uid
    refine TripleE.bind (P.drain_quiet hA ⟨.inr (.head _), fun _ => trivial⟩) fun _ => ?_
    exact .pure hA.stable fun _ _ _ => trivial
  refine TripleE.bind (silent hA ⟨.inl rfl, fun _ => trivial⟩) fun uid => ?_
  refine TripleE.bind (silent hA ⟨.inl rfl, fun _ => trivial⟩) fun _ => ?_
  refine TripleE.bind (silent hA ⟨.inl rfl, fun _ => trivial⟩) fun reqSpec => ?_
  split
  · exact hremove uid
  · refine TripleE.bind (silent hA ⟨.inl rfl, fun _ => trivial⟩) fun state => ?_
    split
    · refine done_triple (TripleE.conseq (drainStatus_triple (m := m) ⟨rfl, rfl, rfl⟩ (.refl m))
        (fun _ _ h => h) fun _ _ _ _ => trivial)
    · refine TripleE.bind (silent hA drainFailed_touches) fun failed => ?_
      refine TripleE.bind (silent hA ⟨.inl rfl, fun _ => trivial⟩) fun _ => ?_
      split
      · exact hremove uid
      · refine (drainStatus_triple (m := m) ⟨rfl, rfl, rfl⟩ (.refl m)).bind fun a =>
          TripleE.of_pure fun hal => ?_
        refine TripleE.bind (P.drain_quiet lasting_holds ⟨.inr (.head _), fun _ => trivial⟩)
          fun _ => ?_
        exact done_triple (P.toReady_triple hm hal)

lemma handleDrainState_triple (P : Plan H r node F) (hm : getReadyConditionReason m = .draining) :
    D.TripleE i (fun s => H.Holds m s ∧ F m s) (r.handleDrainState m node) fun _ _ => True := by
  have hA : H.Lasting (H.Holds m) := lasting_holds
  unfold handleDrainState
  split
  · rename_i hdel
    exact P.handleDrainStateDelete_triple hm hdel
  · refine TripleE.pre ?_ fun s _ h => h.1
    split
    · refine TripleE.bind (silent hA ⟨.inl rfl, fun _ => trivial⟩) fun res => ?_
      cases res with
      | none =>
        refine TripleE.bind (P.drain_quiet hA ⟨.inr (.head _), fun _ => trivial⟩) fun req => ?_
        refine TripleE.bind (drainStatus_triple (m := m) ⟨rfl, rfl, rfl⟩ (.of_status rfl)) fun a =>
          TripleE.of_pure fun hal => ?_
        refine done_triple (TripleE.conseq (P.drain_quiet (A := H.Holds a) lasting_holds
          ⟨.inr (.head _), fun _ => trivial⟩) (fun _ _ h => h) fun _ _ _ _ => trivial)
      | some req => exact P.followDrainRequest_triple hm
    · refine TripleE.bind (P.drain_quiet hA ⟨.inr (.head _), fun _ => trivial⟩) fun _ => ?_
      refine TripleE.pre (TripleE.bind (clearDrainStatus_triple (m := m) (F := fun _ => True)
        (Lasting.const _)) fun a => TripleE.of_pure fun hal => ?_) fun s _ h => ⟨h, trivial⟩
      exact done_triple ((P.toReady_triple hm hal.1).pre fun s _ h => h.1)

/-! ### All phases -/

/-- A plan covers the handlers of all phases. -/
lemma handled (P : Plan H r node F) : Handled H r node F where
  lasting := P.lasting
  alike := P.alike
  uninitialized {m} hm :=
    done_triple (P.advance_triple (P.lasting m) (hm ▸ .toPending) nofun nofun nofun)
  scheduled := P.scheduled
  cordon := P.handleCordonState_triple
  waitForPodCompletion := P.handleWaitPodCompletionState_triple
  draining := P.handleDrainState_triple
  terminal {m} hm := by
    refine terminalState_triple (P.lasting m) (fun hdel hnone => P.cleanup hdel ?_ fun _ => hnone)
      (fun a ha => P.step_triple (ha ▸ .fail) nofun nofun nofun)
      fun a ha => P.step_triple (ha ▸ .recover) nofun nofun nofun
    rcases hm with h | h <;> rw [phase_of_reason h] <;> decide

/-- `Reconcile` once the object and its node are at hand. -/
theorem dispatch_triple (P : Plan H r node F) :
    D.TripleE i (fun s => H.Holds m s ∧ F m s) (r.dispatch m node) fun _ _ => True :=
  P.handled.dispatch_triple

end Plan

/-- The body of the controller, from its parts: the object is read, its node is read, and the handler
of the phase takes over. -/
lemma reconcileBody_triple {r : Reconciler} {N : NodeMaintenance → S → Prop}
    {K : NodeMaintenance → S → Prop} {F : Node → NodeMaintenance → S → Prop}
    (hget : D.TripleE i (fun _ => True) (observe (Client.getNodeMaintenance key))
      fun res s => ∀ m, res = .ok m → K m s)
    (hnode : ∀ m, D.TripleE i (K m) (observe (Client.getNode m.spec.nodeName)) fun res s =>
      (res = .error .notFound → N m s) ∧ ∀ node, res = .ok node → F node m s)
    (hgone : ∀ m, D.TripleE i (N m) (handleNodeNotFound m) fun _ _ => True)
    (hdispatch : ∀ m node, D.TripleE i (F node m) (r.dispatch m node) fun _ _ => True) :
    D.TripleE i (fun _ => True) (r.reconcile key) fun _ _ => True := by
  refine hget.bind fun res => ?_
  cases res with
  | error err =>
    dsimp only
    split
    · exact TripleE.pre (.pure (Stable.const True) fun _ _ h => h) fun _ _ _ => trivial
    · exact .throw
  | ok m =>
    refine TripleE.pre (TripleE.bind (hnode m) fun res => ?_) fun s _ h => h m rfl
    cases res with
    | error err =>
      dsimp only
      split
      · rename_i he
        exact TripleE.pre (hgone m) fun s _ h => h.1 (congrArg _ he)
      · exact .throw
    | ok node => exact TripleE.pre (hdispatch m node) fun s _ h => h.2 node rfl

end MaintenanceOperator
