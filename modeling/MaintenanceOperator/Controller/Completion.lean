import MaintenanceOperator.Controller.Progress

/-!
# Maintenances come to an end

With a server that answers, each reconcile of a scheduled object takes it to the next phase, until its
drain is under way; once the drain has ended, the object becomes ready, and gets its ready time. The
deletion of an object is completed by one reconcile, from any phase.
-/

namespace MaintenanceOperator.Attended
open Lib Discipline Drain Reconciler

/-- The object is in a phase before its drain. -/
def InPhase (r : Reconciler) (quiet : String → Prop) (key : NamespacedName) (uid name : String) (reason : Reason)
    (w : World) : Prop :=
  ∃ m, (Candidate r quiet key uid name m ∧ Normal m ∧ getReadyConditionReason m = reason) ∧
    Holding key m (fun w => NodeThere name w ∧ NoRequest key uid w) w

/-- The pool of a node can be found, and is in order. -/
def PoolFor (P : MachineConfigPool → Prop) (name : String) (w : World) : Prop :=
  ∃ n config mc pool p, w.nodes.get name = some n ∧ Pooled P n config mc pool p w

/-- The object has been scheduled, and nothing stands in its way. -/
def Startable (r : Reconciler) (quiet : String → Prop) (key : NamespacedName) (uid name : String)
    (w : World) : Prop :=
  ∃ m, (Candidate r quiet key uid name m ∧ (Normal m ∨ maintenanceFinalizerName ∉ m.finalizers) ∧
    getReadyConditionReason m = .scheduled) ∧ Holding key m (fun w => (NodeThere name w ∧ NoRequest key uid w) ∧
      (r.mcpManager = true → PoolFor Calm name w)) w

/-- The object has its ready time. -/
def Completed (r : Reconciler) (quiet : String → Prop) (key : NamespacedName) (uid name : String)
    (w : World) : Prop :=
  ∃ m, (Candidate r quiet key uid name m ∧ Terminal m ∧ (m.annotations.get? readyTimeAnnotation).getD "" ≠ "") ∧
    Holding key m (fun w => NodeThere name w ∧ NoRequest key uid w) w

section Reconciles
variable {r : Reconciler} {quiet : String → Prop} {key : NamespacedName} {uid name : String}
  {m : NodeMaintenance} {node : Node} {F : World → Prop} {Q : Result → World → Prop} {reason : Reason}

lemma untouched_inPhase : Untouched key (InPhase r quiet key uid name reason) :=
  .exists fun _ => (Untouched.const _).and (untouched_holding (firm_nodeThere.and firm_noRequest).toApart)

lemma untouched_completed : Untouched key (Completed r quiet key uid name) :=
  .exists fun _ => (Untouched.const _).and (untouched_holding (firm_nodeThere.and firm_noRequest).toApart)

/-- The owner reference is there, or set. -/
lemma owned_bind {f : NodeMaintenance × Option Err → Action Result} (hkey : m.key = key) (hF : Apart key F)
    (hfit : Fit r quiet m) (hgone : m.gone = false)
    (h : ∀ a, SamePhase r quiet m a → a = m ∨ Normal a → Achieves r quiet key (Holding key a F) (f (a, none)) Q) :
    Achieves r quiet key (Holding key m F)
      ((if hasOwnerRef node m then pure (m, none) else setOwnerRef node m) >>= f) Q := by
  refine TripleOk.bind (owned_achieves hkey hF hfit hgone) fun p => ?_
  obtain ⟨a, err⟩ := p
  refine Triple.of_pure fun hout => Triple.of_pure fun hfol => ?_
  obtain rfl : err = none := hout.1
  exact h a hfol hout.2

/-- The object and its node are read. -/
lemma reconcile_achieves {G : Node → World → Prop} (hF : Apart key F) (hG : ∀ n, Apart key (G n))
    (hnode : ∀ w, F w → ∃ n, w.nodes.get m.spec.nodeName = some n ∧ G n w)
    (h : ∀ n, n.name = m.spec.nodeName →
      Achieves r quiet key (Holding key m fun w => F w ∧ G n w) (r.dispatch m n) Q) :
    Achieves r quiet key (Holding key m F) (r.reconcile key) Q := by
  have hall : Untouched key (Holding key m F) := untouched_holding hF
  have hget : Achieves r quiet key (Holding key m F) (Client.getNodeMaintenance key) fun a w =>
      a = m ∧ Holding key m F w := by
    refine achieves_mk (achieves_call hall (fun res => .exists fun a =>
      (Untouched.const _).and ((Untouched.const _).and hall)) fun w res w' hw hans => ?_)
    change some (found (w.nms.get key), w) = some (res, w') at hans
    rw [hw.1] at hans
    cases hans
    exact ⟨m, rfl, rfl, hw⟩
  have hread : Achieves r quiet key (Holding key m F) (Client.getNode m.spec.nodeName) fun n w =>
      n.name = m.spec.nodeName ∧ Holding key m (fun w => F w ∧ G n w) w := by
    refine achieves_mk (achieves_call hall (fun res => .exists fun n =>
      (Untouched.const _).and ((Untouched.const _).and (untouched_holding (hF.and (hG n)))))
      fun w res w' hw hans => ?_)
    change some (found (w.nodes.get m.spec.nodeName), w) = some (res, w') at hans
    obtain ⟨n, hn, hGn⟩ := hnode w hw.2
    rw [hn] at hans
    cases hans
    exact ⟨n, rfl, Store.key_of_get hn, hw.1, hw.2, hGn⟩
  refine Achieves.observe_bind hget fun a => Triple.of_pure fun ha => ?_
  subst ha
  exact Achieves.observe_bind hread fun n => Triple.of_pure fun hn => h n hn

/-- The object and its node are read, and nothing else has to be known of the node. -/
lemma reconcile_achieves_plain (hF : Apart key F) (hnode : ∀ w, F w → NodeThere m.spec.nodeName w)
    (h : ∀ n, n.name = m.spec.nodeName → Achieves r quiet key (Holding key m F) (r.dispatch m n) Q) :
    Achieves r quiet key (Holding key m F) (r.reconcile key) Q := by
  refine reconcile_achieves (G := fun _ _ => True) hF (fun _ => .const True) (fun w hw => ?_) fun n hn =>
    (h n hn).pre fun w hw => ⟨hw.1, hw.2.1⟩
  obtain ⟨n, hn⟩ := Option.isSome_iff_exists.mp (hnode w hw)
  exact ⟨n, hn, trivial⟩

/-- To the next phase. -/
lemma advance_achieves {next : Reason} {res : Result} (hm : Candidate r quiet key uid name m) (hnormal : Normal m)
    (hne : getReadyConditionReason m ≠ next) :
    Achieves r quiet key (Holding key m fun w => NodeThere name w ∧ NoRequest key uid w)
      (setReadyConditionReason m next >>= fun _ => pure res) fun _ => InPhase r quiet key uid name next := by
  have hF : Apart key fun w => NodeThere name w ∧ NoRequest key uid w := (firm_nodeThere.and firm_noRequest).toApart
  refine TripleOk.bind (setReady_achieves hm.key hF hne hm.gone) fun a => Triple.of_pure fun ha => ?_
  exact achieves_pure (untouched_holding hF) fun w h =>
    ⟨a, ⟨hm.advanced ha, ha.same.normal hnormal, ha.reason⟩, h⟩

/-- The pool of this node, if the operator looks after pools. -/
def PoolOf (r : Reconciler) (P : MachineConfigPool → Prop) (node : Node) (w : World) : Prop :=
  r.mcpManager = true → ∃ config mc pool p, Pooled P node config mc pool p w

lemma apart_poolOf {P : MachineConfigPool → Prop} : Apart key (PoolOf r P node) :=
  .imp (.exists fun _ => .exists fun _ => .exists fun _ => .exists fun _ => apart_pooled)

/-- A scheduled object gets its finalizer, its pool is paused, and it is to be cordoned. -/
lemma handleScheduledState_achieves (hm : Candidate r quiet key uid name m)
    (hnormal : Normal m ∨ maintenanceFinalizerName ∉ m.finalizers) (hreason : getReadyConditionReason m = .scheduled) :
    Achieves r quiet key (Holding key m fun w => (NodeThere name w ∧ NoRequest key uid w) ∧ PoolOf r Calm node w)
      (r.handleScheduledState m node) fun _ => InPhase r quiet key uid name .cordon := by
  have hF : Firm key fun w => NodeThere name w ∧ NoRequest key uid w := firm_nodeThere.and firm_noRequest
  unfold handleScheduledState
  rw [if_neg (by rw [hm.deleting]; decide)]
  refine TripleOk.bind (addFinalizer_achieves hm.key (hF.toApart.and apart_poolOf) hm.fit hm.deleting hnormal) fun a =>
    Triple.of_pure fun ha => ?_
  have hcand := hm.later ha.1
  refine Achieves.ite (fun hmgr => ?_) fun _ => ?_
  · refine Achieves.pre (B := fun w => ∃ config mc pool p, Holding key a (fun w =>
      (NodeThere name w ∧ NoRequest key uid w) ∧ Pooled Calm node config mc pool p w) w) ?_ fun w h => ?_
    · refine Triple.of_exists fun config => Triple.of_exists fun mc => Triple.of_exists fun pool =>
        Triple.of_exists fun p => ?_
      refine Achieves.observe_bind (pauseMCP_achieves hcand.key hF hcand.fit hcand.gone) fun b =>
        Triple.of_pure fun hb => ?_
      exact advance_achieves (hcand.later hb) (hb.normal ha.2) (by rw [hb.reason, ha.1.reason, hreason]; decide)
    · obtain ⟨config, mc, pool, p, hp⟩ := h.2.2 hmgr
      exact ⟨config, mc, pool, p, h.1, h.2.1, hp⟩
  · exact (advance_achieves hcand ha.2 (by rw [ha.1.reason, hreason]; decide)).pre fun w h => ⟨h.1, h.2.1⟩

lemma handleCordonState_achieves (hm : Candidate r quiet key uid name m) (hnormal : Normal m)
    (hreason : getReadyConditionReason m = .cordon) (hname : node.name = name) :
    Achieves r quiet key (Holding key m fun w => NodeThere name w ∧ NoRequest key uid w) (r.handleCordonState m node)
      fun _ => InPhase r quiet key uid name .waitForPodCompletion := by
  have hF : Firm key fun w => NodeThere name w ∧ NoRequest key uid w := firm_nodeThere.and firm_noRequest
  have hcordon : Achieves r quiet key (Holding key m fun w => NodeThere name w ∧ NoRequest key uid w)
      (if m.spec.cordon then handleCordon m node else pure m)
      (Left r quiet key m fun w => NodeThere name w ∧ NoRequest key uid w) := by
    refine Achieves.ite (fun _ => ?_) fun _ => achieves_pure (untouched_holding hF.toApart) fun w h => ⟨.refl m, h⟩
    exact handleCordon_achieves hm.key hF (fun w h => hname ▸ h.1) hm.fit hm.gone
  unfold handleCordonState
  rw [if_neg (by rw [hm.deleting]; decide)]
  refine Achieves.left_bind hcordon fun a hfol => ?_
  exact advance_achieves (hm.later hfol) (hfol.normal hnormal) (by rw [hfol.reason, hreason]; decide)

lemma handleWaitPodCompletionState_achieves (hm : Candidate r quiet key uid name m) (hnormal : Normal m)
    (hreason : getReadyConditionReason m = .waitForPodCompletion) :
    Achieves r quiet key (Holding key m fun w => NodeThere name w ∧ NoRequest key uid w)
      (r.handleWaitPodCompletionState m node) fun _ => InPhase r quiet key uid name .draining := by
  have hF : Apart key fun w => NodeThere name w ∧ NoRequest key uid w := (firm_nodeThere.and firm_noRequest).toApart
  have hne : ∀ {a}, SamePhase r quiet m a → getReadyConditionReason a ≠ .draining := fun h => by
    rw [h.reason, hreason]
    decide
  unfold handleWaitPodCompletionState
  rw [if_neg (by rw [hm.deleting]; decide)]
  refine Achieves.ite (fun hwait => ?_) fun _ => advance_achieves hm hnormal (hne (.refl m))
  refine TripleOk.bind (handlePodCompletion_achieves hm.key hF hm.fit hm.gone hwait) fun p => ?_
  obtain ⟨a, res⟩ := p
  refine Triple.of_pure fun hover => Triple.of_pure fun hfol => ?_
  have hadv : ∀ {res : Result}, Achieves r quiet key (Holding key a fun w => NodeThere name w ∧ NoRequest key uid w)
      (setReadyConditionReason a .draining >>= fun _ => pure res) fun _ => InPhase r quiet key uid name .draining :=
    advance_achieves (hm.later hfol) (hfol.normal hnormal) (hne hfol)
  rcases hover with e | e
  · obtain rfl : res = .ok [] := e
    exact TripleOk.bind (aside_achieves hF ⟨nofun, nofun, nofun⟩ nofun) fun _ => hadv
  · obtain rfl : res = .error .errPodCompletionTimeout := e
    exact TripleOk.bind (aside_achieves hF ⟨nofun, nofun, nofun⟩ nofun) fun _ => hadv

/-- Without a drain spec the object becomes ready at once. -/
lemma handleDrainState_achieves (hm : Candidate r quiet key uid name m) (hnormal : Normal m)
    (hreason : getReadyConditionReason m = .draining) :
    Achieves r quiet key (Holding key m fun w => NodeThere name w ∧ NoRequest key uid w)
      (r.handleDrainState m node) fun _ w =>
        Underway r quiet key uid name False w ∨ Finished r quiet key uid name w := by
  have hF : Firm key fun w => NodeThere name w ∧ NoRequest key uid w := firm_nodeThere.and firm_noRequest
  have huid : drainRequestUIDFromNodeMaintenance m = drainRequestUID key uid := by
    rw [drainRequestUIDFromNodeMaintenance_eq, hm.key, hm.uid]
  unfold handleDrainState
  rw [if_neg (by rw [hm.deleting]; decide), huid]
  split
  · rename_i spec hspec
    have hget : Achieves r quiet key (Holding key m fun w => NodeThere name w ∧ NoRequest key uid w)
        (DrainManager.getRequest (drainRequestUID key uid)) fun req w =>
        req = none ∧ Holding key m (fun w => NodeThere name w ∧ NoRequest key uid w) w := by
      refine TripleX.lift (achieves_call (untouched_holding hF.toApart)
        (fun _ => (Untouched.const _).and (untouched_holding hF.toApart)) fun w req w' h hans => ?_)
      change some (w.drainRequests.get? (drainRequestUID key uid), w) = some (req, w') at hans
      cases hans
      exact ⟨h.2.2, h⟩
    refine TripleOk.bind hget fun req => Triple.of_pure fun hreq => ?_
    subst hreq
    exact (sendDrainRequest_achieves hm hnormal hreason hspec).post fun _ w h => .inl h
  · have hclear : Achieves r quiet key (Holding key m fun w => NodeThere name w ∧ NoRequest key uid w)
        (clearDrainStatus m) (Left r quiet key m fun w => NodeThere name w ∧ NoRequest key uid w) := by
      refine Achieves.ite (fun _ => ?_) fun _ => achieves_pure (untouched_holding hF.toApart) fun w h => ⟨.refl m, h⟩
      exact Achieves.post (statusUpdate_achieves hm.key hF.toApart ⟨rfl, rfl, rfl⟩ hm.gone) fun a w h =>
        ⟨Restated.follows h.1 rfl, h.2⟩
    refine TripleOk.bind (removeRequest_achieves site_nodeThere firm_noRequest.others) fun _ => ?_
    refine Achieves.left_bind hclear fun a hfol => ?_
    have ha := hm.later hfol
    refine TripleOk.bind (setReady_achieves ha.key hF.toApart (by rw [hfol.reason, hreason]; decide) ha.gone)
      fun b => Triple.of_pure fun hb => ?_
    exact achieves_pure (untouched_holding hF.toApart) fun w h => .inr ⟨b, ⟨ha.advanced hb, .inl hb.reason⟩, h⟩

/-- A request that is out is followed. -/
lemma handleDrainState_achieves_sent {done : Prop} {spec : DrainSpec} {id : Nat}
    (hm : Candidate r quiet key uid name m) (hnormal : Normal m) (hreason : getReadyConditionReason m = .draining)
    (hspec : m.spec.drainSpec = some spec) :
    Achieves r quiet key (Following key m uid name done spec id) (r.handleDrainState m node) fun _ w =>
      ¬ done ∧ Underway r quiet key uid name done w ∨ Finished r quiet key uid name w := by
  have huid : drainRequestUIDFromNodeMaintenance m = drainRequestUID key uid := by
    rw [drainRequestUIDFromNodeMaintenance_eq, hm.key, hm.uid]
  have hget : Achieves r quiet key (Following key m uid name done spec id)
      (DrainManager.getRequest (drainRequestUID key uid)) fun req w =>
        req = some id ∧ Following key m uid name done spec id w := by
    refine TripleX.lift (achieves_call untouched_following (fun _ => (Untouched.const _).and untouched_following)
      fun w req w' h hans => ?_)
    change some (w.drainRequests.get? (drainRequestUID key uid), w) = some (req, w') at hans
    cases hans
    exact ⟨h.2.2.1, h⟩
  unfold handleDrainState
  rw [if_neg (by rw [hm.deleting]; decide), huid, hspec]
  refine TripleOk.bind hget fun req => Triple.of_pure fun hreq => ?_
  subst hreq
  exact followDrainRequest_achieves hm hnormal hreason hspec

/-- A terminal object gets its ready time. -/
lemma handleTerminalState_achieves (hm : Candidate r quiet key uid name m) (hterm : Terminal m) :
    Achieves r quiet key (Holding key m fun w => NodeThere name w ∧ NoRequest key uid w)
      (r.handleTerminalState m node) fun _ => Completed r quiet key uid name := by
  have hF : Apart key fun w => NodeThere name w ∧ NoRequest key uid w := (firm_nodeThere.and firm_noRequest).toApart
  have htime : Achieves r quiet key (Holding key m fun w => NodeThere name w ∧ NoRequest key uid w)
      (r.setReadyTime m) fun a w => (SamePhase r quiet m a ∧
        (a.annotations.get? readyTimeAnnotation).getD "" ≠ "") ∧
        Holding key a (fun w => NodeThere name w ∧ NoRequest key uid w) w := by
    refine Achieves.ite (fun _ => ?_) fun hset => achieves_pure (untouched_holding hF) fun w h => ⟨⟨.refl m, hset⟩, h⟩
    refine TripleOk.bind (aside_achieves hF ⟨nofun, nofun, nofun⟩ nofun) fun now => ?_
    refine Achieves.post (touch_achieves hm.key hF hm.fit hm.gone ⟨rfl, rfl, rfl⟩ rfl (fun _ => rfl) ?_) fun a w h => ?_
    · unfold StartOk
      rw [GoMap.get?_set_ne _ (by decide)]
      exact id
    · obtain ⟨g, v, rfl⟩ := h.1.2.2
      refine ⟨⟨h.1.1, ?_⟩, h.2⟩
      rw [GoMap.get?_set_self]
      exact r.formats.format_ne now
  unfold handleTerminalState
  rw [if_neg (by rw [hm.deleting]; decide)]
  refine TripleOk.bind htime fun a => Triple.of_pure fun ha => ?_
  have hcand := hm.later ha.1
  have hset : ∀ {reason : Reason} {res : Result}, reason = .ready ∨ reason = .requestorFailed →
      getReadyConditionReason a ≠ reason →
      Achieves r quiet key (Holding key a fun w => NodeThere name w ∧ NoRequest key uid w)
        (setReadyConditionReason a reason >>= fun _ => pure res) fun _ => Completed r quiet key uid name := by
    intro reason res hr hne
    refine TripleOk.bind (setReady_achieves hcand.key hF hne hcand.gone) fun b => Triple.of_pure fun hb => ?_
    refine achieves_pure (untouched_holding hF) fun w h => ⟨b, ⟨hcand.advanced hb, ?_, ?_⟩, h⟩
    · rw [Terminal, hb.reason]
      exact hr
    · rw [hb.annotations]
      exact ha.2
  have hstay : ∀ {res : Result}, Achieves r quiet key
      (Holding key a fun w => NodeThere name w ∧ NoRequest key uid w) (pure res) fun _ =>
        Completed r quiet key uid name := by
    refine achieves_pure (untouched_holding hF) fun w h => ⟨a, ⟨hcand, ?_, ha.2⟩, h⟩
    rw [Terminal, ha.1.reason]
    exact hterm
  refine Achieves.ite (fun _ => Achieves.ite (fun hr => ?_) fun _ => hstay) fun _ =>
    Achieves.ite (fun hr => ?_) fun _ => hstay
  · exact hset (.inr rfl) (by rw [hr]; decide)
  · exact hset (.inl rfl) (by rw [hr]; decide)

/-! ### One reconcile -/

lemma apart_poolFor {P : MachineConfigPool → Prop} : Apart key (PoolFor P name) where
  others w w' ho h := by
    obtain ⟨n, config, mc, pool, p, hn, hp⟩ := h
    obtain ⟨n', hn', hannot⟩ := ho.nodes hn
    have hp' := apart_pooled.others w w' ho hp
    exact ⟨n', config, mc, pool, p, hn', hannot.trans hp'.desired, hp'.config, hp'.owner, hp'.pool, hp'.fine⟩
  calls hnodes hpools hconfigs _ _ h := by
    obtain ⟨n, config, mc, pool, p, hn, hp⟩ := h
    exact ⟨n, config, mc, pool, p, by rw [hnodes]; exact hn, hp.desired, by rw [hconfigs]; exact hp.config, hp.owner,
      by rw [hpools]; exact hp.pool, hp.fine⟩

lemma untouched_startable : Untouched key (Startable r quiet key uid name) :=
  .exists fun _ => (Untouched.const _).and (untouched_holding
    ((firm_nodeThere.and firm_noRequest).toApart.and (.imp apart_poolFor)))

lemma reconcile_startable : Achieves r quiet key (Startable r quiet key uid name) (r.reconcile key) fun _ =>
    InPhase r quiet key uid name .cordon := by
  refine Triple.of_exists fun m => Triple.of_pure fun hm => ?_
  obtain ⟨hcand, hnormal, hreason⟩ := hm
  have hF : Apart key fun w => NodeThere name w ∧ NoRequest key uid w := (firm_nodeThere.and firm_noRequest).toApart
  refine reconcile_achieves (G := PoolOf r Calm) (hF.and (.imp apart_poolFor)) (fun _ => apart_poolOf)
    (fun w h => ?_) fun n _ => ?_
  · rw [hcand.nodeName]
    cases hmgr : r.mcpManager with
    | true =>
      obtain ⟨n, config, mc, pool, p, hn, hp⟩ := h.2 hmgr
      exact ⟨n, hn, fun _ => ⟨config, mc, pool, p, hp⟩⟩
    | false =>
      obtain ⟨n, hn⟩ := Option.isSome_iff_exists.mp h.1.1
      exact ⟨n, hn, fun h => Bool.noConfusion (hmgr.symm.trans h)⟩
  · refine Achieves.pre (owned_bind hcand.key (hF.and apart_poolOf) hcand.fit hcand.gone fun a hfol hown => ?_)
      fun w h => ⟨h.1, h.2.1.1, h.2.2⟩
    dsimp only
    rw [hfol.reason, hreason]
    refine handleScheduledState_achieves (hcand.later hfol) ?_ (hfol.reason.trans hreason)
    exact hown.elim (fun e => e ▸ hnormal) .inl

lemma reconcile_cordon : Achieves r quiet key (InPhase r quiet key uid name .cordon) (r.reconcile key) fun _ =>
    InPhase r quiet key uid name .waitForPodCompletion := by
  refine Triple.of_exists fun m => Triple.of_pure fun hm => ?_
  obtain ⟨hcand, hnormal, hreason⟩ := hm
  have hF : Apart key fun w => NodeThere name w ∧ NoRequest key uid w := (firm_nodeThere.and firm_noRequest).toApart
  refine reconcile_achieves_plain hF (fun w h => hcand.nodeName ▸ h.1) fun n hn =>
    owned_bind hcand.key hF hcand.fit hcand.gone fun a hfol _ => ?_
  dsimp only
  rw [hfol.reason, hreason]
  exact handleCordonState_achieves (hcand.later hfol) (hfol.normal hnormal) (hfol.reason.trans hreason)
    (hn.trans hcand.nodeName)

lemma reconcile_wait : Achieves r quiet key (InPhase r quiet key uid name .waitForPodCompletion) (r.reconcile key)
    fun _ => InPhase r quiet key uid name .draining := by
  refine Triple.of_exists fun m => Triple.of_pure fun hm => ?_
  obtain ⟨hcand, hnormal, hreason⟩ := hm
  have hF : Apart key fun w => NodeThere name w ∧ NoRequest key uid w := (firm_nodeThere.and firm_noRequest).toApart
  refine reconcile_achieves_plain hF (fun w h => hcand.nodeName ▸ h.1) fun n hn =>
    owned_bind hcand.key hF hcand.fit hcand.gone fun a hfol _ => ?_
  dsimp only
  rw [hfol.reason, hreason]
  exact handleWaitPodCompletionState_achieves (hcand.later hfol) (hfol.normal hnormal) (hfol.reason.trans hreason)

lemma reconcile_draining : Achieves r quiet key (InPhase r quiet key uid name .draining) (r.reconcile key)
    fun _ w => Underway r quiet key uid name False w ∨ Finished r quiet key uid name w := by
  refine Triple.of_exists fun m => Triple.of_pure fun hm => ?_
  obtain ⟨hcand, hnormal, hreason⟩ := hm
  have hF : Apart key fun w => NodeThere name w ∧ NoRequest key uid w := (firm_nodeThere.and firm_noRequest).toApart
  refine reconcile_achieves_plain hF (fun w h => hcand.nodeName ▸ h.1) fun n hn =>
    owned_bind hcand.key hF hcand.fit hcand.gone fun a hfol _ => ?_
  dsimp only
  rw [hfol.reason, hreason]
  exact handleDrainState_achieves (hcand.later hfol) (hfol.normal hnormal) (hfol.reason.trans hreason)

lemma reconcile_underway {done : Prop} : Achieves r quiet key (Underway r quiet key uid name done) (r.reconcile key)
    fun _ w => ¬ done ∧ Underway r quiet key uid name done w ∨ Finished r quiet key uid name w := by
  refine Triple.of_exists fun m => Triple.of_exists fun spec => Triple.of_exists fun id =>
    Triple.of_pure fun hm => ?_
  obtain ⟨hcand, hnormal, hreason, hspec⟩ := hm
  refine reconcile_achieves_plain (firm_nodeThere.and firm_sent).toApart (fun w h => hcand.nodeName ▸ h.1) fun n hn =>
    owned_bind hcand.key (firm_nodeThere.and firm_sent).toApart hcand.fit hcand.gone fun a hfol _ => ?_
  dsimp only
  rw [hfol.reason, hreason]
  refine handleDrainState_achieves_sent (hcand.later hfol) (hfol.normal hnormal) (hfol.reason.trans hreason) ?_
  rw [hfol.spec_eq hnormal]
  exact hspec

lemma reconcile_finished : Achieves r quiet key (Finished r quiet key uid name) (r.reconcile key) fun _ =>
    Completed r quiet key uid name := by
  refine Triple.of_exists fun m => Triple.of_pure fun hm => ?_
  obtain ⟨hcand, hterm⟩ := hm
  have hF : Apart key fun w => NodeThere name w ∧ NoRequest key uid w := (firm_nodeThere.and firm_noRequest).toApart
  refine reconcile_achieves_plain hF (fun w h => hcand.nodeName ▸ h.1) fun n hn =>
    owned_bind hcand.key hF hcand.fit hcand.gone fun a hfol _ => ?_
  have hterm' : Terminal a := by
    rw [Terminal, hfol.reason]
    exact hterm
  dsimp only
  rcases hterm' with h | h
  · rw [h]
    exact handleTerminalState_achieves (hcand.later hfol) (.inl h)
  · rw [h]
    exact handleTerminalState_achieves (hcand.later hfol) (.inr h)

lemma Completed.finished {w : World} (h : Completed r quiet key uid name w) : Finished r quiet key uid name w := by
  obtain ⟨m, hm, hold⟩ := h
  exact ⟨m, ⟨hm.1, hm.2.1⟩, hold⟩

/-! ### Turn by turn -/

/-- Where a scheduled object is after so many reconciles. -/
def startLevel (r : Reconciler) (quiet : String → Prop) (key : NamespacedName) (uid name : String) :
    Nat → World → Prop
  | 0 => Startable r quiet key uid name
  | 1 => InPhase r quiet key uid name .cordon
  | 2 => InPhase r quiet key uid name .waitForPodCompletion
  | 3 => InPhase r quiet key uid name .draining
  | _ + 4 => fun w => Underway r quiet key uid name False w ∨ Finished r quiet key uid name w

/-- Where an object whose drain has ended is after so many reconciles. -/
def endLevel (r : Reconciler) (quiet : String → Prop) (key : NamespacedName) (uid name : String) :
    Nat → World → Prop
  | 0 => fun w => Underway r quiet key uid name True w ∨ Finished r quiet key uid name w
  | 1 => Finished r quiet key uid name
  | _ + 2 => Completed r quiet key uid name

/-- Levels that the others do not touch, each reached from the one before by a reconcile. -/
lemma ladder {L : Nat → World → Prop} (hL : ∀ n, Untouched key (L n))
    (hbody : ∀ n, Achieves r quiet key (L n) (r.reconcile key) fun _ => L (n + 1)) :
    Ladder (attending r quiet key) () L where
  env _ henv h := hL _ _ _ henv h
  others hne := (hne rfl).elim
  body := by
    rintro n _ rfl
    refine Triple.conseq (hbody n).returns (fun _ _ h => h) fun _ w _ h => ?_
    obtain ⟨_, -, h⟩ := h
    exact h
  bodies hne := (hne rfl).elim

lemma startLadder : Ladder (attending r quiet key) () (startLevel r quiet key uid name) := by
  refine ladder (fun n => ?_) fun n => ?_
  · match n with
    | 0 => exact untouched_startable
    | 1 | 2 | 3 => exact untouched_inPhase
    | _ + 4 => exact untouched_underway.or untouched_finished
  · match n with
    | 0 => exact reconcile_startable
    | 1 => exact reconcile_cordon
    | 2 => exact reconcile_wait
    | 3 => exact reconcile_draining
    | n + 4 =>
      refine Achieves.or ?_ ?_
      · exact reconcile_underway.post fun _ w h => h.imp_left And.right
      · exact reconcile_finished.post fun _ w h => .inr h.finished

lemma endLadder : Ladder (attending r quiet key) () (endLevel r quiet key uid name) := by
  refine ladder (fun n => ?_) fun n => ?_
  · match n with
    | 0 => exact untouched_underway.or untouched_finished
    | 1 => exact untouched_finished
    | _ + 2 => exact untouched_completed
  · match n with
    | 0 =>
      refine Achieves.or ?_ ?_
      · exact reconcile_underway.post fun _ w h => h.resolve_left fun h => h.1 trivial
      · exact reconcile_finished.post fun _ w h => h.finished
    | 1 => exact reconcile_finished
    | n + 2 => exact reconcile_finished.pre fun w h => h.finished

/-- Whatever drain request the object has, its drain has ended. -/
def DrainEnded (key : NamespacedName) (uid : String) (w : World) : Prop :=
  ∀ id q, w.drainRequests.get? (drainRequestUID key uid) = some id → w.requests[id]? = some q → q.finished = true

end Reconciles

/-- A server that is up answers at once. -/
lemma prompt_of_serve {quiet : String → Prop} {e : Op} {w w' : World} {a : Resp e} (h : w.serve e = some (a, w')) :
    Prompt quiet e w a w' := by
  cases e with
  | listPods _ _ =>
    cases h
    exact ⟨rfl, [], rfl, fun _ => rfl⟩
  | getPodsForDeletion _ =>
    cases h
    exact ⟨rfl, [], rfl⟩
  | listNodeMaintenances =>
    cases h
    exact ⟨rfl, _, rfl, .refl _⟩
  | listNodes _ =>
    cases h
    exact ⟨rfl, _, rfl, .refl _⟩
  | removeRequest uid =>
    cases h
    exact ⟨none, rfl⟩
  | now =>
    cases h
    rfl
  | shuffle l =>
    cases h
    exact ⟨rfl, .refl _⟩
  | _ => exact h

/-- The end of a drain is all that the others do. -/
lemma others_drained {key : NamespacedName} {w : World} {id : Nat} :
    Others key w { w with requests := w.requests.modify id (finishDrain none) } where
  stored := rfl
  nodes hn := ⟨_, hn, rfl⟩
  pools := rfl
  machineConfigs := rfl
  entries _ := rfl
  requests {j} {q} hq := by
    change (w.requests.modify id (finishDrain none))[j]? = _ ∨ (w.requests.modify id (finishDrain none))[j]? = _
    rw [List.getElem?_modify, hq]
    by_cases e : id = j
    · exact .inr (by simp [e])
    · exact .inl (by simp [e])

/-- An operator that looks after pools, with a server that is up; drains end when the script says so. -/
def attendedPlayer (key : NamespacedName) :
    Player (attended ⟨true, strokeFormats⟩ (fun _ => True) key) Nat where
  program _ := some (reconcile ⟨true, strokeFormats⟩ key).run
  body h := (Option.some.inj h).symm
  answer _ e w := w.serve e
  exec h := prompt_of_serve h
  event id w := some { w with requests := w.requests.modify id (finishDrain none) }
  env h := Option.some.inj h ▸ others_drained

/-- A spec that asks for everything. -/
def fullSpec : NodeMaintenanceSpec :=
  ⟨"requestor.nvidia.com", [], "node-1", true, some ⟨"app=job", 60⟩, some ⟨false, "", 300, false, []⟩⟩

/-- An object with it that has been scheduled. -/
def scheduledMaintenance : NodeMaintenance :=
  { newNodeMaintenance ⟨"default", "nm"⟩ "nm" fullSpec with
    resourceVersion := 1
    status := ⟨[⟨conditionTypeReady, .false, 1, 0, .scheduled, ""⟩], [], none⟩ }

/-- Its node and the pool of the node. -/
def scheduledWorld : World :=
  { World.empty with
    nms := .ofList [scheduledMaintenance]
    revision := 1
    nodes := .ofList [⟨"node-1", "node-1", [], [(desiredMachineConfigAnnotationKey, "rendered")], false, []⟩]
    machineConfigs := .ofList [⟨"rendered", [⟨"machineconfiguration.openshift.io", "MachineConfigPool", "worker", "p"⟩]⟩]
    pools := .ofList [⟨"worker", [], none, false, "rendered", "rendered"⟩] }

lemma fullSpec_admitted : CrdAdmits fullSpec := by
  have hwell : fullSpec.WellFormed := ⟨by decide, by decide, by decide, by decide⟩
  refine ⟨_, (valid_fill_encode fullSpec).mpr hwell, (decode_fill_encode fullSpec hwell).trans ?_⟩
  exact congrArg some ((normalize_eq_iff fullSpec).mpr ⟨rfl, by decide⟩)

lemma startable_scheduled : Startable ⟨true, strokeFormats⟩ (fun _ => True) ⟨"default", "nm"⟩ "nm" "node-1"
    scheduledWorld := by
  refine ⟨scheduledMaintenance, ⟨⟨rfl, rfl, rfl, rfl, fullSpec_admitted, .inl rfl, fun _ _ => ⟨rfl, trivial⟩⟩,
    .inr (by decide), rfl⟩, rfl, ⟨rfl, rfl⟩, fun _ => ?_⟩
  exact ⟨_, _, _, _, _, rfl, rfl, rfl, rfl, rfl, .inr ⟨rfl, nofun⟩⟩

/-- Before the first reconcile. -/
def beforeMaintenance : Config Unit Op Resp World (Except Err Result) := ⟨scheduledWorld, fun _ => none⟩

end MaintenanceOperator.Attended
