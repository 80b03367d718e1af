import MaintenanceOperator.Controller.Completion

/-!
# Deletions come to an end

An object that is being deleted is released by one reconcile, with a server that answers: the drain is
canceled, the node uncordoned, the pool unpaused, and the finalizer of the operator removed. From then on
the object is gone, or waits for the finalizers of others.
-/

namespace MaintenanceOperator.Attended
open Lib Discipline Drain Reconciler

/-! ### The place of a maintenance -/

/-- The node is there, and its pool if the operator looks after pools. -/
def Place (r : Reconciler) (name : String) (w : World) : Prop :=
  ∃ n, w.nodes.get name = some n ∧ PoolOf r Selects n w

section Sites
variable {r : Reconciler} {key : NamespacedName} {name config pool : String} {node : Node} {mc : MachineConfig}
  {p : MachineConfigPool} {mode : ReadMode} {e : Op} {a : Resp e} {w w' : World}

/-- A call keeps the pool of a node, and its selector. -/
lemma Pooled.call (h : Pooled Selects node config mc pool p w) (hperf : Perform mode e w a w') :
    ∃ p', Pooled Selects node config mc pool p' w' := by
  have hconfig : w'.machineConfigs.get config = some mc := by
    rw [hperf.frame.machineConfigs]
    exact h.config
  by_cases he : e.part = .pools
  · cases e with
    | patchMachineConfigPool patched pause =>
      rcases WriteAnswer.effect hperf with rfl | ⟨_, heff⟩
      · exact ⟨p, h⟩
      · obtain ⟨q, hq, -, rfl⟩ := World.patchPool_eq_some heff
        have hname := Store.key_of_get hq
        by_cases hsame : pool = patched
        · subst hsame
          obtain rfl : q = p := Option.some.inj (hq.symm.trans h.pool)
          refine ⟨q.patch pause, h.desired, hconfig, h.owner, ?_, ?_⟩
          · rw [← hname, ← MachineConfigPool.name_patch q pause]
            exact Store.get_put_self _ _
          · rw [Selects, MachineConfigPool.nodeSelector_patch]
            exact h.fine
        · refine ⟨p, h.desired, hconfig, h.owner, ?_, h.fine⟩
          rw [Store.get_put_ne]
          · exact h.pool
          · rw [MachineConfigPool.name_patch, hname]
            exact hsame
    | _ => cases he
  · refine ⟨p, h.desired, hconfig, h.owner, ?_, h.fine⟩
    rw [hperf.frame.pools he]
    exact h.pool

/-- A call keeps a node, and its annotations. -/
lemma node_call (hperf : Perform mode e w a w') {n : Node} (hn : w.nodes.get name = some n) :
    ∃ n', w'.nodes.get name = some n' ∧ n'.annotations = n.annotations := by
  by_cases he : e.part = .nodes
  · cases e with
    | patchUnschedulable patched desired =>
      rcases WriteAnswer.effect hperf with rfl | ⟨_, heff⟩
      · exact ⟨n, hn, rfl⟩
      · obtain ⟨q, hq, rfl⟩ := World.patchUnschedulable_eq_some heff
        have hname := Store.key_of_get hq
        by_cases hsame : name = patched
        · subst hsame
          obtain rfl : q = n := Option.some.inj (hq.symm.trans hn)
          refine ⟨{ q with unschedulable := desired }, ?_, rfl⟩
          rw [← hname]
          exact Store.get_put_self w.nodes { q with unschedulable := desired }
        · refine ⟨n, ?_, rfl⟩
          rw [← hname] at hsame
          exact (Store.get_put_ne (s := w.nodes) (a := { q with unschedulable := desired }) hsame).trans hn
    | _ => cases he
  · refine ⟨n, ?_, rfl⟩
    rw [hperf.frame.nodes he]
    exact hn

lemma PoolOf.eq (hpools : w'.pools = w.pools) (hconfigs : w'.machineConfigs = w.machineConfigs)
    (h : PoolOf r Selects node w) : PoolOf r Selects node w' := by
  intro hmgr
  obtain ⟨config, mc, pool, p, hp⟩ := h hmgr
  exact ⟨config, mc, pool, p, hp.desired, by rw [hconfigs]; exact hp.config, hp.owner,
    by rw [hpools]; exact hp.pool, hp.fine⟩

lemma PoolOf.call (h : PoolOf r Selects node w) (hperf : Perform mode e w a w') : PoolOf r Selects node w' := by
  intro hmgr
  obtain ⟨config, mc, pool, p, hp⟩ := h hmgr
  obtain ⟨p', hp'⟩ := hp.call hperf
  exact ⟨config, mc, pool, p', hp'⟩

/-- What is found from a node depends on its configuration only. -/
lemma PoolOf.annotations {n : Node} (h : PoolOf r Selects node w)
    (hannot : n.annotations.get? desiredMachineConfigAnnotationKey =
      node.annotations.get? desiredMachineConfigAnnotationKey) : PoolOf r Selects n w := by
  intro hmgr
  obtain ⟨config, mc, pool, p, hp⟩ := h hmgr
  exact ⟨config, mc, pool, p, hannot.trans hp.desired, hp.config, hp.owner, hp.pool, hp.fine⟩

lemma firm_poolOf : Firm key (PoolOf r Selects node) := ⟨apart_poolOf, fun _ hperf h => h.call hperf⟩

lemma site_poolOf : Site key (PoolOf r Selects node) :=
  ⟨firm_poolOf, fun _ hpools hconfigs h => h.eq hpools hconfigs⟩

lemma site_place : Site key (Place r name) where
  others w w' ho h := by
    obtain ⟨n, hn, hpool⟩ := h
    obtain ⟨n', hn', hannot⟩ := ho.nodes hn
    exact ⟨n', hn', (hpool.eq ho.pools ho.machineConfigs).annotations hannot⟩
  calls hnodes hpools hconfigs _ _ h := by
    obtain ⟨n, hn, hpool⟩ := h
    exact ⟨n, by rw [hnodes]; exact hn, hpool.eq hpools hconfigs⟩
  all _ hperf h := by
    obtain ⟨n, hn, hpool⟩ := h
    obtain ⟨n', hn', hannot⟩ := node_call hperf hn
    exact ⟨n', hn', (hpool.call hperf).annotations (by rw [hannot])⟩
  drain hnodes hpools hconfigs h := by
    obtain ⟨n, hn, hpool⟩ := h
    exact ⟨n, by rw [hnodes]; exact hn, hpool.eq hpools hconfigs⟩

lemma Place.nodeThere (h : Place r name w) : NodeThere name w := by
  obtain ⟨n, hn, -⟩ := h
  rw [NodeThere, hn]
  rfl

end Sites

/-! ### The handlers of an object that is being deleted -/

/-- The state has a handler that releases the object. -/
def Releasable (m : NodeMaintenance) : Prop :=
  getReadyConditionReason m = .scheduled ∨ getReadyConditionReason m = .cordon ∨
    getReadyConditionReason m = .waitForPodCompletion ∨ getReadyConditionReason m = .draining ∨
    Terminal m ∧ m.spec.additionalRequestors = []

/-- The object that is followed: it is being deleted, and has these finalizers. -/
structure Leaving (r : Reconciler) (quiet : String → Prop) (key : NamespacedName) (uid name : String)
    (fs : List String) (m : NodeMaintenance) : Prop where
  key : m.key = key
  uid : m.uid = uid
  deleting : m.deleting = true
  nodeName : m.spec.nodeName = name
  finalizers : m.finalizers = fs
  nonempty : fs ≠ []
  fit : Fit r quiet m
  releasable : Releasable m

section Handlers
variable {r : Reconciler} {quiet : String → Prop} {key : NamespacedName} {uid name : String}
  {fs : List String} {m a : NodeMaintenance} {node : Node} {F : World → Prop}

lemma Leaving.gone (h : Leaving r quiet key uid name fs m) : m.gone = false := by
  rw [NodeMaintenance.gone, h.deleting, h.finalizers]
  simpa using h.nonempty

lemma Releasable.later (h : Releasable m) (hfol : SamePhase r quiet m a) : Releasable a := by
  unfold Releasable Terminal
  rw [hfol.reason, hfol.additionalRequestors]
  exact h

lemma Leaving.later (h : Leaving r quiet key uid name fs m) (hfol : SamePhase r quiet m a) :
    Leaving r quiet key uid name fs a :=
  ⟨hfol.key.trans h.key, hfol.uid.trans h.uid, hfol.deleting.trans h.deleting, hfol.nodeName.trans h.nodeName,
    (hfol.finalizers h.deleting).trans h.finalizers, h.nonempty, hfol.fit h.fit, h.releasable.later hfol⟩

/-- What is left of the object: nothing if there are no finalizers, and else a version with these. -/
def Remains (r : Reconciler) (quiet : String → Prop) (key : NamespacedName) (uid name : String)
    (fs : List String) (w : World) : Prop :=
  (fs = [] ∧ w.nms.get key = none ∨
    ∃ m, Leaving r quiet key uid name fs m ∧ Stored key m w) ∧ Place r name w ∧ NoRequest key uid w

lemma untouched_remains : Untouched key (Remains r quiet key uid name fs) := by
  refine Untouched.and (.or ((Untouched.const _).and fun w w' ho h => ho.stored.trans h)
    (.exists fun m => (Untouched.const _).and untouched_stored)) ?_
  exact site_place.others.and firm_noRequest.others

/-- The last step of every release. -/
lemma Unguarded.remains {w : World} (hm : Leaving r quiet key uid name fs m)
    (h : Unguarded r quiet key m w) (hplace : Place r name w) (hnone : NoRequest key uid w) :
    Remains r quiet key uid name (fs.erase maintenanceFinalizerName) w := by
  obtain ⟨a, ⟨hfol, hfin⟩, hw⟩ := h
  have hdel : a.deleting = true := hfol.deleting.trans hm.deleting
  rw [hm.finalizers] at hfin
  refine ⟨?_, hplace, hnone⟩
  by_cases he : fs.erase maintenanceFinalizerName = []
  · refine .inl ⟨he, ?_⟩
    rw [Written, NodeMaintenance.gone, hdel, hfin, he] at hw
    exact hw
  · refine .inr ⟨a, ⟨hfol.key.trans hm.key, hfol.uid.trans hm.uid, hdel, hfol.nodeName.trans hm.nodeName, hfin, he,
      hfol.fit ⟨hm.fit.admitted, hm.fit.start, hm.fit.wait⟩, ?_⟩, hw.stored ?_⟩
    · exact Releasable.later (m := { m with finalizers := m.finalizers.erase maintenanceFinalizerName })
        hm.releasable hfol
    · rw [NodeMaintenance.gone, hdel, hfin]
      simpa using he

/-- What is known while the object is released. -/
abbrev Releasing (r : Reconciler) (key : NamespacedName) (m : NodeMaintenance) (uid name : String) (node : Node)
    (w : World) : Prop :=
  Holding key m (fun w => (Place r name w ∧ PoolOf r Selects node w) ∧ NoRequest key uid w) w

lemma firm_releasing : Firm key fun w => (Place r name w ∧ PoolOf r Selects node w) ∧ NoRequest key uid w :=
  (site_place.toFirm.and firm_poolOf).and firm_noRequest

/-- The finalizer is given up. -/
lemma giveUp_achieves (hm : Leaving r quiet key uid name fs m) :
    Achieves r quiet key (Releasing r key m uid name node) (handleFinalizerRemoval m) fun _ =>
      Remains r quiet key uid name (fs.erase maintenanceFinalizerName) :=
  (handleFinalizerRemoval_achieves hm.key firm_releasing.toApart hm.fit hm.gone).post fun _ _ h =>
    h.1.remains hm h.2.1.1 h.2.2

lemma cleanup_achieves (hm : Leaving r quiet key uid name fs m) (hname : node.name = name) :
    Achieves r quiet key (Releasing r key m uid name node) (r.cleanup m node) fun _ =>
      Remains r quiet key uid name (fs.erase maintenanceFinalizerName) := by
  have huncordon : Achieves r quiet key (Releasing r key m uid name node)
      (if m.spec.cordon then handleUnCordon m node else pure m)
      (Left r quiet key m fun w => (Place r name w ∧ PoolOf r Selects node w) ∧ NoRequest key uid w) := by
    refine Achieves.ite (fun _ => ?_) fun _ => achieves_pure (untouched_holding firm_releasing.toApart)
      fun w h => ⟨.refl m, h⟩
    exact handleUnCordon_achieves hm.key firm_releasing (fun _ h => hname ▸ h.1.1.nodeThere) hm.fit hm.gone
  refine huncordon.left_bind fun a hfol => ?_
  exact TripleOk.bind (unpause_achieves firm_releasing fun hmgr _ h => h.1.2 hmgr) fun _ =>
    giveUp_achieves (hm.later hfol)

lemma done_achieves {α : Type} {x : Action α} {A B : World → Prop} {res : Result} (hB : Untouched key B)
    (h : Achieves r quiet key A x fun _ => B) : Achieves r quiet key A (x >>= fun _ => pure res) fun _ => B :=
  TripleOk.bind h fun _ => achieves_pure hB fun _ hw => hw

/-- The request of the object is removed, whatever became of its drain. -/
lemma handleDrainStateDelete_achieves (hm : Leaving r quiet key uid name fs m) (hname : node.name = name) :
    Achieves r quiet key (Holding key m fun w => Place r name w ∧ PoolOf r Selects node w)
      (r.handleDrainStateDelete m node) fun _ =>
      Remains r quiet key uid name (fs.erase maintenanceFinalizerName) := by
  have hF : Apart key fun w => Place r name w ∧ PoolOf r Selects node w := (site_place.toFirm.and firm_poolOf).toApart
  have hlog : ∀ req, Achieves r quiet key (Holding key m fun w => Place r name w ∧ PoolOf r Selects node w)
      (logState req) fun _ => Holding key m fun w => Place r name w ∧ PoolOf r Selects node w := by
    intro req
    cases req with
    | none => exact achieves_pure (untouched_holding hF) fun w h => h
    | some id =>
      exact TripleOk.bind (aside_achieves hF ⟨nofun, nofun, nofun⟩ nofun) fun _ =>
        achieves_pure (untouched_holding hF) fun w h => h
  have huid : drainRequestUIDFromNodeMaintenance m = drainRequestUID key uid := by
    rw [drainRequestUIDFromNodeMaintenance_eq, hm.key, hm.uid]
  unfold handleDrainStateDelete
  rw [huid]
  refine TripleOk.bind (aside_achieves hF ⟨nofun, nofun, nofun⟩ nofun) fun req => TripleOk.bind (hlog req) fun _ => ?_
  refine TripleOk.bind (Achieves.pre (removeRequest_achieves (site_place.and site_poolOf) (.const True))
    fun w h => ⟨h.1, h.2, trivial⟩) fun _ => ?_
  exact done_achieves untouched_remains (cleanup_achieves hm hname)

/-- What is known when the release begins. -/
abbrev BeforeRelease (r : Reconciler) (key : NamespacedName) (m : NodeMaintenance) (uid name : String)
    (w : World) : Prop :=
  Place r name w ∧ (getReadyConditionReason m = .draining ∨ NoRequest key uid w)

lemma apart_beforeRelease : Apart key (BeforeRelease r key m uid name) :=
  site_place.toApart.and ((Apart.const _).or firm_noRequest.toApart)

lemma dispatch_leaving (hm : Leaving r quiet key uid name fs m) (hname : node.name = name) :
    Achieves r quiet key (Holding key m fun w => BeforeRelease r key m uid name w ∧ PoolOf r Selects node w)
      (r.dispatch m node) fun _ => Remains r quiet key uid name (fs.erase maintenanceFinalizerName) := by
  refine owned_bind hm.key (apart_beforeRelease.and apart_poolOf) hm.fit hm.gone fun a hfol _ => ?_
  have ha := hm.later hfol
  have hdel : a.deleting = true := ha.deleting
  -- in the other phases there is no request to be removed
  have hplain : getReadyConditionReason a ≠ .draining → ∀ w,
      Holding key a (fun w => BeforeRelease r key m uid name w ∧ PoolOf r Selects node w) w →
        Releasing r key a uid name node w := by
    intro hne w h
    have hnone := h.2.1.2.resolve_left fun e => hne (hfol.reason.trans e)
    exact ⟨h.1, ⟨h.2.1.1, h.2.2⟩, hnone⟩
  dsimp only
  rcases ha.releasable with hr | hr | hr | hr | ⟨hr, hreq⟩
  · rw [hr]
    dsimp only
    unfold handleScheduledState
    rw [if_pos hdel]
    exact Achieves.pre (TripleOk.bind (unpause_achieves firm_releasing fun hmgr _ h => h.1.2 hmgr) fun _ =>
      done_achieves untouched_remains (giveUp_achieves ha)) (hplain (by rw [hr]; decide))
  · rw [hr]
    dsimp only
    unfold handleCordonState
    rw [if_pos hdel]
    exact Achieves.pre (done_achieves untouched_remains (cleanup_achieves ha hname)) (hplain (by rw [hr]; decide))
  · rw [hr]
    dsimp only
    unfold handleWaitPodCompletionState
    rw [if_pos hdel]
    exact Achieves.pre (done_achieves untouched_remains (cleanup_achieves ha hname)) (hplain (by rw [hr]; decide))
  · rw [hr]
    dsimp only
    unfold handleDrainState
    rw [if_pos hdel]
    exact (handleDrainStateDelete_achieves ha hname).pre fun w h => ⟨h.1, h.2.1.1, h.2.2⟩
  · have hterm : Achieves r quiet key
        (Holding key a fun w => BeforeRelease r key m uid name w ∧ PoolOf r Selects node w)
        (r.handleTerminalState a node) fun _ =>
        Remains r quiet key uid name (fs.erase maintenanceFinalizerName) := by
      unfold handleTerminalState
      rw [if_pos hdel, hreq]
      refine Achieves.pre (done_achieves untouched_remains (cleanup_achieves ha hname)) (hplain ?_)
      rcases hr with e | e <;> rw [e] <;> decide
    rcases hr with e | e
    · rw [e]
      exact hterm
    · rw [e]
      exact hterm

/-! ### Turn by turn -/

/-- The object is being deleted, and nothing stands in the way of its release. -/
def Deleting (r : Reconciler) (quiet : String → Prop) (key : NamespacedName) (uid name : String) (fs : List String)
    (w : World) : Prop :=
  ∃ m, Leaving r quiet key uid name fs m ∧ Holding key m (BeforeRelease r key m uid name) w

lemma untouched_deleting : Untouched key (Deleting r quiet key uid name fs) :=
  .exists fun _ => (Untouched.const _).and (untouched_holding apart_beforeRelease)

lemma reconcile_deleting : Achieves r quiet key (Deleting r quiet key uid name fs) (r.reconcile key) fun _ =>
    Remains r quiet key uid name (fs.erase maintenanceFinalizerName) := by
  refine Triple.of_exists fun m => Triple.of_pure fun hm => ?_
  refine reconcile_achieves (G := PoolOf r Selects) apart_beforeRelease (fun _ => apart_poolOf) (fun w h => ?_)
    fun n hn => dispatch_leaving hm (hn.trans hm.nodeName)
  rw [hm.nodeName]
  exact h.1

/-- A reconcile of an object that is gone does nothing. -/
lemma reconcile_gone {F : World → Prop} (hF : Untouched key F) :
    Achieves r quiet key (fun w => w.nms.get key = none ∧ F w) (r.reconcile key) fun _ w =>
      w.nms.get key = none ∧ F w := by
  have hgone : Untouched key fun w => w.nms.get key = none ∧ F w :=
    Untouched.and (fun w w' ho h => ho.stored.trans h) hF
  have hget : Achieves r quiet key (fun w => w.nms.get key = none ∧ F w) (observe (Client.getNodeMaintenance key))
      fun res w => res = .error .notFound ∧ w.nms.get key = none ∧ F w := by
    refine TripleX.lift (achieves_call hgone (fun _ => (Untouched.const _).and hgone) fun w res w' h hans => ?_)
    change some (found (w.nms.get key), w) = some (res, w') at hans
    rw [h.1] at hans
    cases hans
    exact ⟨rfl, h⟩
  refine TripleOk.bind hget fun res => Triple.of_pure fun hres => ?_
  subst hres
  exact achieves_pure hgone fun w h => h

/-- What remains of the object stays as it is. -/
lemma reconcile_remains (hfs : maintenanceFinalizerName ∉ fs) :
    Achieves r quiet key (Remains r quiet key uid name fs) (r.reconcile key) fun _ =>
      Remains r quiet key uid name fs := by
  have hsite : Untouched key fun w => Place r name w ∧ NoRequest key uid w :=
    site_place.others.and firm_noRequest.others
  refine Achieves.pre (B := fun w => (fs = [] ∧ w.nms.get key = none ∧ Place r name w ∧ NoRequest key uid w) ∨
    Deleting r quiet key uid name fs w) (Achieves.or ?_ ?_) fun w h => ?_
  · refine Triple.of_pure fun he => (reconcile_gone hsite).post fun _ w h => ?_
    exact ⟨.inl ⟨he, h.1⟩, h.2⟩
  · have h : Achieves r quiet key (Deleting r quiet key uid name fs) (r.reconcile key) fun _ =>
        Remains r quiet key uid name (fs.erase maintenanceFinalizerName) := reconcile_deleting
    rw [List.erase_of_not_mem hfs] at h
    exact h
  · rcases h.1 with ⟨he, hnone⟩ | ⟨m, hm, hstored⟩
    · exact .inl ⟨he, hnone, h.2⟩
    · exact .inr ⟨m, hm, hstored, h.2.1, .inr h.2.2⟩

/-- Where an object that is being deleted is after so many reconciles. -/
def deletionLevel (r : Reconciler) (quiet : String → Prop) (key : NamespacedName) (uid name : String)
    (fs : List String) : Nat → World → Prop
  | 0 => Deleting r quiet key uid name fs
  | _ + 1 => Remains r quiet key uid name (fs.erase maintenanceFinalizerName)

lemma deletionLadder (hfs : maintenanceFinalizerName ∉ fs.erase maintenanceFinalizerName) :
    Ladder (attending r quiet key) () (deletionLevel r quiet key uid name fs) := by
  refine ladder (fun n => ?_) fun n => ?_
  · match n with
    | 0 => exact untouched_deleting
    | _ + 1 => exact untouched_remains
  · match n with
    | 0 => exact reconcile_deleting
    | _ + 1 => exact reconcile_remains hfs

end Handlers

/-- The object is deleted while its node is drained. -/
def drainingMaintenance : NodeMaintenance :=
  { scheduledMaintenance with
    deletionTimestamp := some 1
    finalizers := [maintenanceFinalizerName]
    annotations := [(nodeInitialStateUnschedulableAnnot, falseString)]
    labels := [(mcpNameLabelKey, "worker")]
    status := ⟨[⟨conditionTypeReady, .false, 1, 0, .draining, ""⟩], [], none⟩ }

/-- Its node is cordoned, the pool of the node paused, and the drain under way. -/
def drainingWorld : World :=
  { scheduledWorld with
    nms := .ofList [drainingMaintenance]
    nodes := .ofList [⟨"node-1", "node-1", [], [(desiredMachineConfigAnnotationKey, "rendered")], true, []⟩]
    pools := .ofList [⟨"worker", [(mcpPausedAnnotKey, mcpPausedAnnotValue)], none, true, "rendered", "rendered"⟩]
    requests := [⟨drainRequestUID ⟨"default", "nm"⟩ "nm", true, false, false, none, false,
      ⟨"node-1", ⟨false, "", 300, false, []⟩⟩⟩]
    drainRequests := [(drainRequestUID ⟨"default", "nm"⟩ "nm", 0)] }

lemma deleting_draining : Deleting ⟨true, strokeFormats⟩ (fun _ => True) ⟨"default", "nm"⟩ "nm" "node-1"
    [maintenanceFinalizerName] drainingWorld := by
  refine ⟨drainingMaintenance, ⟨rfl, rfl, rfl, rfl, rfl, nofun, ⟨fullSpec_admitted, .inl rfl,
    fun _ _ => ⟨rfl, trivial⟩⟩, .inr (.inr (.inr (.inl rfl)))⟩, rfl, ⟨_, rfl, fun _ => ?_⟩, .inl rfl⟩
  exact ⟨_, _, _, _, rfl, rfl, rfl, rfl, rfl⟩

end MaintenanceOperator.Attended
