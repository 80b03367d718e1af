import MaintenanceOperator.Controller.Attended
import MaintenanceOperator.Controller.CordonHandler
import MaintenanceOperator.Openshift.Walk

/-!
# The functions of the reconciler, with a server that answers

What each of them leaves behind: the object in hand is a later version of the one that it was given, is
stored, and what is known about the node, the pool and the drain request of the object still holds.
-/

namespace MaintenanceOperator.Attended
open Lib Discipline Drain Reconciler

/-- Facts that no call invalidates, but for those on the drain manager. -/
structure Firm (key : NamespacedName) (F : World → Prop) : Prop extends Apart key F where
  all : ∀ {e w a w'}, e.part ≠ .drain → Perform .current e w a w' → F w → F w'

/-- Facts about the nodes and the pools. -/
structure Site (key : NamespacedName) (F : World → Prop) : Prop extends Firm key F where
  drain : ∀ {w w' : World}, w'.nodes = w.nodes → w'.pools = w.pools → w'.machineConfigs = w.machineConfigs →
    F w → F w'

/-- There is such a node. -/
def NodeThere (name : String) (w : World) : Prop := (w.nodes.get name).isSome = true

/-- The drain manager has no request of this object. -/
def NoRequest (key : NamespacedName) (uid : String) (w : World) : Prop :=
  w.drainRequests.get? (drainRequestUID key uid) = none

section Facts
variable {key : NamespacedName}

lemma Firm.and {A B : World → Prop} (hA : Firm key A) (hB : Firm key B) : Firm key fun w => A w ∧ B w :=
  ⟨hA.toApart.and hB.toApart, fun he hperf h => ⟨hA.all he hperf h.1, hB.all he hperf h.2⟩⟩

lemma Site.and {A B : World → Prop} (hA : Site key A) (hB : Site key B) : Site key fun w => A w ∧ B w :=
  ⟨hA.toFirm.and hB.toFirm, fun h₁ h₂ h₃ h => ⟨hA.drain h₁ h₂ h₃ h.1, hB.drain h₁ h₂ h₃ h.2⟩⟩

lemma site_nodeThere {name : String} : Site key (NodeThere name) where
  others w w' ho h := by
    obtain ⟨n, hn⟩ := Option.isSome_iff_exists.mp h
    obtain ⟨n', hn', -⟩ := ho.nodes hn
    rw [NodeThere, hn']
    rfl
  calls hnodes _ _ _ _ h := by
    rw [NodeThere, hnodes]
    exact h
  all _ hperf h := by
    have hflag := hperf.isSome_unschedulable (n := name)
    simp only [unschedulable, Option.isSome_map] at hflag
    exact hflag h
  drain hnodes _ _ h := by
    rw [NodeThere, hnodes]
    exact h

lemma firm_nodeThere {name : String} : Firm key (NodeThere name) := site_nodeThere.toFirm

lemma firm_noRequest {uid : String} : Firm key (NoRequest key uid) where
  others w w' ho h := (ho.entries uid).trans h
  calls _ _ _ _ hentries h := by
    rw [NoRequest, hentries]
    exact h
  all he hperf h := by
    rw [NoRequest, hperf.frame.drainRequests he]
    exact h

end Facts

section Functions
variable {r : Reconciler} {quiet : String → Prop} {key : NamespacedName} {m : NodeMaintenance} {node : Node}
  {F : World → Prop}

/-- The object in hand, and what is known beside it. -/
abbrev Holding (key : NamespacedName) (m : NodeMaintenance) (F : World → Prop) (w : World) : Prop :=
  Stored key m w ∧ F w

lemma untouched_holding (hF : Apart key F) : Untouched key (Holding key m F) := untouched_stored.and hF.others

/-- The object as a function leaves it: a later version, which is stored. -/
abbrev Left (r : Reconciler) (quiet : String → Prop) (key : NamespacedName) (m : NodeMaintenance)
    (F : World → Prop) (a : NodeMaintenance) (w : World) : Prop :=
  SamePhase r quiet m a ∧ Holding key a F w

/-- What is done with a later version is done with the object. -/
lemma Achieves.left_bind {α : Type} {x : Action NodeMaintenance} {f : NodeMaintenance → Action α}
    {A : World → Prop} {Q : α → World → Prop} (hx : Achieves r quiet key A x (Left r quiet key m F))
    (hf : ∀ a, SamePhase r quiet m a → Achieves r quiet key (Holding key a F) (f a) Q) :
    Achieves r quiet key A (x >>= f) Q :=
  TripleOk.bind hx fun a => Triple.of_pure fun h => hf a h

/-! ### The owner reference and the finalizer -/

lemma owned_achieves (hkey : m.key = key) (hF : Apart key F) (hfit : Fit r quiet m) (hgone : m.gone = false) :
    Achieves r quiet key (Holding key m F)
      (if hasOwnerRef node m then pure (m, none) else setOwnerRef node m) fun p w =>
      (p.2 = none ∧ (p.1 = m ∨ Normal p.1)) ∧ Left r quiet key m F p.1 w := by
  refine Achieves.ite (fun _ => ?_) fun _ => ?_
  · exact achieves_pure (untouched_holding hF) fun w h => ⟨⟨rfl, .inl rfl⟩, .refl m, h⟩
  · refine Achieves.observe_bind (touch_achieves hkey hF hfit hgone ⟨rfl, rfl, rfl⟩ rfl (fun _ => rfl) id)
      fun a => achieves_pure ((Untouched.const _).and (untouched_holding hF)) fun w h => ?_
    exact ⟨⟨rfl, .inr h.1.2.1⟩, h.1.1, h.2⟩

lemma addFinalizer_achieves (hkey : m.key = key) (hF : Apart key F) (hfit : Fit r quiet m)
    (hdel : m.deleting = false) (hnormal : Normal m ∨ maintenanceFinalizerName ∉ m.finalizers) :
    Achieves r quiet key (Holding key m F) (addFinalizer m maintenanceFinalizerName) fun a w =>
      (SamePhase r quiet m a ∧ Normal a) ∧ Holding key a F w := by
  have hgone : m.gone = false := by
    rw [NodeMaintenance.gone, hdel]
    rfl
  refine Achieves.ite (fun hmem => ?_) fun _ => ?_
  · exact achieves_pure (untouched_holding hF) fun w h =>
      ⟨⟨.refl m, hnormal.resolve_right fun hn => hn hmem⟩, h⟩
  · refine (touch_achieves (b := { m with finalizers := m.finalizers ++ [maintenanceFinalizerName] }) hkey hF hfit
      hgone ⟨rfl, rfl, rfl⟩ rfl (fun hd => ?_) id).post fun a w h => ⟨⟨h.1.1, h.1.2.1⟩, h.2⟩
    rw [hdel] at hd
    cases hd

/-! ### Cordon -/

lemma runCordonOrUncordon_achieves {desired : Bool} (hF : Firm key F) (hthere : ∀ w, F w → NodeThere node.name w) :
    Achieves r quiet key (Holding key m F) (runCordonOrUncordon node desired) fun _ => Holding key m F := by
  have hall := untouched_holding (m := m) hF.toApart
  refine Achieves.ite (fun _ => achieves_pure hall fun w h => h) fun _ => ?_
  refine achieves_mk (achieves_call hall (fun res => .exists fun a => (Untouched.const _).and hall)
    fun w res w' h hans => ?_)
  obtain ⟨n, hn⟩ := Option.isSome_iff_exists.mp (hthere w h.2)
  have hkeep := hF.all (by simp [Op.part]) hans.perform h.2
  change some (w.accept ((w.patchUnschedulable node.name desired).map fun w₁ => ((), w₁))) = some (res, w') at hans
  simp only [World.patchUnschedulable, Option.bind_eq_bind, hn, Option.bind_some, World.accept] at hans
  cases hans
  exact ⟨(), rfl, h.1, hkeep⟩

lemma handleCordon_achieves (hkey : m.key = key) (hF : Firm key F) (hthere : ∀ w, F w → NodeThere node.name w)
    (hfit : Fit r quiet m) (hgone : m.gone = false) :
    Achieves r quiet key (Holding key m F) (handleCordon m node) (Left r quiet key m F) := by
  have hrecord : Achieves r quiet key (Holding key m F) (recordInitialState m node) (Left r quiet key m F) := by
    refine Achieves.ite (fun _ => ?_) fun _ => ?_
    · refine Achieves.post (touch_achieves hkey hF.toApart hfit hgone ⟨rfl, rfl, rfl⟩ rfl (fun _ => rfl) ?_)
        fun a w h => ⟨h.1.1, h.2⟩
      unfold StartOk
      rw [GoMap.get?_set_ne _ (by decide)]
      exact id
    · exact achieves_pure (untouched_holding hF.toApart) fun w h => ⟨.refl m, h⟩
  refine hrecord.left_bind fun a hfol => Achieves.ite (fun _ => ?_) fun _ => ?_
  · exact TripleOk.bind (runCordonOrUncordon_achieves hF hthere) fun _ =>
      achieves_pure (untouched_holding hF.toApart) fun w h => ⟨hfol, h⟩
  · exact achieves_pure (untouched_holding hF.toApart) fun w h => ⟨hfol, h⟩

/-! ### Waiting for pods -/

lemma listPods_achieves {nodeName selector : String} (hF : Untouched key F) :
    Achieves r quiet key F (Client.listPods nodeName selector) fun pods w => (quiet selector → pods = []) ∧ F w := by
  refine achieves_mk (achieves_call hF
    (fun res => .exists fun pods => (Untouched.const _).and ((Untouched.const _).and hF)) ?_)
  rintro w res w' h ⟨rfl, pods, rfl, hquiet⟩
  exact ⟨pods, rfl, hquiet, h⟩

/-- The wait is over: there are no pods, or the time is up. -/
def WaitOver (res : Except Err (List String)) : Prop := res = .ok [] ∨ res = .error .errPodCompletionTimeout

lemma waitExpired_achieves {spec : WaitForPodCompletionSpec} {t : Nat} (hF : Apart key F) :
    Achieves r quiet key (Holding key m F) (waitExpired spec t) fun _ => Holding key m F := by
  refine Achieves.ite (fun _ => ?_) fun _ => achieves_pure (untouched_holding hF) fun w h => h
  exact TripleOk.bind (aside_achieves hF ⟨nofun, nofun, nofun⟩ nofun) fun now =>
    achieves_pure (untouched_holding hF) fun w h => h

lemma waitForPods_achieves {t : Nat} (hkey : m.key = key) (hF : Apart key F) (hfit : Fit r quiet m)
    (hgone : m.gone = false) (hwait : m.spec.waitForPodCompletion.isSome = true) :
    Achieves r quiet key (Holding key m F) (waitForPods r.formats m t) fun p w =>
      WaitOver p.2 ∧ Left r quiet key m F p.1 w := by
  obtain ⟨spec, hspec⟩ := Option.isSome_iff_exists.mp hwait
  obtain ⟨hparses, hquiet⟩ := hfit.wait spec hspec
  have hdone : Untouched key (Holding key m F) := untouched_holding hF
  unfold waitForPods
  rw [hspec]
  refine TripleOk.bind (waitExpired_achieves hF) fun expired => Achieves.ite (fun _ => ?_) fun _ => ?_
  · exact achieves_pure hdone fun w h => ⟨.inr rfl, .refl m, h⟩
  · rw [if_pos hparses]
    refine Achieves.observe_bind (listPods_achieves hdone) fun pods => Triple.of_pure fun hnone => ?_
    obtain rfl := hnone hquiet
    refine Achieves.observe_bind (statusUpdate_achieves hkey hF ⟨rfl, rfl, rfl⟩ hgone) fun a => ?_
    refine Triple.of_pure fun hstated => achieves_pure (untouched_holding hF) fun w h => ?_
    exact ⟨.inl rfl, hstated.follows rfl, h⟩

lemma handlePodCompletion_achieves (hkey : m.key = key) (hF : Apart key F) (hfit : Fit r quiet m)
    (hgone : m.gone = false) (hwait : m.spec.waitForPodCompletion.isSome = true) :
    Achieves r quiet key (Holding key m F) (handlePodCompletion r.formats m) fun p w =>
      WaitOver p.2 ∧ Left r quiet key m F p.1 w := by
  refine Achieves.ite (fun _ => ?_) fun hset => ?_
  · refine TripleOk.bind (aside_achieves hF ⟨nofun, nofun, nofun⟩ nofun) fun t => ?_
    refine Achieves.observe_bind (touch_achieves hkey hF hfit hgone ⟨rfl, rfl, rfl⟩ rfl (fun _ => rfl) fun _ => ?_)
      fun a => Triple.of_pure fun h => ?_
    · rw [StartOk, GoMap.get?_set_self, Option.getD_some, r.formats.parse_format]
      exact .inr rfl
    · have ha : a.spec.waitForPodCompletion.isSome = true := by
        rcases h.1.spec with e | e
        · rw [e]
          exact hwait
        · rw [e]
          exact hwait
      have hgone' : a.gone = false := by
        obtain ⟨g, v, rfl⟩ := h.2.2
        exact hgone
      refine (waitForPods_achieves (h.1.key.trans hkey) hF (h.1.fit hfit) hgone' ha).post fun p w hp => ?_
      exact ⟨hp.1, h.1.trans hp.2.1, hp.2.2⟩
  · rcases hfit.start with hempty | hparses
    · exact absurd hempty hset
    · obtain ⟨t, ht⟩ := Option.isSome_iff_exists.mp hparses
      rw [ht]
      exact waitForPods_achieves hkey hF hfit hgone hwait

/-- The node is uncordoned if this object has cordoned it, and the annotation goes. -/
lemma handleUnCordon_achieves (hkey : m.key = key) (hF : Firm key F) (hthere : ∀ w, F w → NodeThere node.name w)
    (hfit : Fit r quiet m) (hgone : m.gone = false) :
    Achieves r quiet key (Holding key m F) (handleUnCordon m node) (Left r quiet key m F) := by
  have hdrop : Achieves r quiet key (Holding key m F) (dropInitialState m) (Left r quiet key m F) := by
    refine Achieves.ite (fun _ => ?_) fun _ => ?_
    · refine Achieves.post (touch_achieves hkey hF.toApart hfit hgone ⟨rfl, rfl, rfl⟩ rfl (fun _ => rfl) ?_)
        fun a w h => ⟨h.1.1, h.2⟩
      unfold StartOk
      rw [GoMap.get?_delete_ne (by decide)]
      exact id
    · exact achieves_pure (untouched_holding hF.toApart) fun w h => ⟨.refl m, h⟩
  exact Achieves.ite (fun _ => TripleOk.bind (runCordonOrUncordon_achieves hF hthere) fun _ => hdrop) fun _ => hdrop

/-- The object has lost the finalizer; if that was the last one, it is gone. -/
def Unguarded (r : Reconciler) (quiet : String → Prop) (key : NamespacedName) (m : NodeMaintenance) (w : World) :
    Prop :=
  ∃ a, (SamePhase r quiet { m with finalizers := m.finalizers.erase maintenanceFinalizerName } a ∧
    a.finalizers = m.finalizers.erase maintenanceFinalizerName) ∧ Written key a w

lemma untouched_unguarded : Untouched key (Unguarded r quiet key m) :=
  .exists fun _ => (Untouched.const _).and untouched_written

lemma handleFinalizerRemoval_achieves (hkey : m.key = key) (hF : Apart key F) (hfit : Fit r quiet m)
    (hgone : m.gone = false) :
    Achieves r quiet key (Holding key m F) (handleFinalizerRemoval m) fun _ w =>
      Unguarded r quiet key m w ∧ F w := by
  refine TripleOk.bind (B := fun _ w => Unguarded r quiet key m w ∧ F w)
    (Achieves.ite (fun _ => ?_) fun hnot => ?_) fun _ => achieves_pure (untouched_unguarded.and hF.others) fun w h => h
  · refine Achieves.post (update_achieves hkey hF ⟨⟨rfl, rfl, rfl⟩, hfit.admitted, rfl, rfl, ?_⟩) fun a w h => ?_
    · exact fun _ f hf => List.mem_of_mem_erase hf
    · obtain ⟨⟨hup, hw⟩, hFw⟩ := h
      refine ⟨⟨a, ?_, hw⟩, hFw⟩
      obtain ⟨g, v, rfl⟩ := hup
      refine ⟨⟨rfl, rfl, rfl, fun _ => rfl, .inr rfl, rfl, fun hf => ?_⟩, rfl⟩
      exact ⟨admits_normalize hf.admitted, hf.start, hf.wait⟩
  · refine achieves_pure (untouched_holding hF) fun w h => ⟨⟨m, ?_, ?_⟩, h.2⟩
    · rw [List.erase_of_not_mem hnot]
      exact ⟨.refl m, rfl⟩
    · rw [Written, hgone]
      exact h.1

end Functions

/-! ### Pools -/

/-- The operator may pause the pool, or has done so. -/
def Calm (p : MachineConfigPool) : Prop :=
  p.pausedByOperator = true ∨ p.configuring = false ∧ (p.paused = true → p.annotated = true)

/-- The selector of the pool can be read. -/
def Selects (p : MachineConfigPool) : Prop :=
  (p.nodeSelector.map LabelSelector.matchExpressions).all (·.all LabelSelectorRequirement.wellFormed) = true

/-- The pool of a node can be found, and is in order. -/
structure Pooled (P : MachineConfigPool → Prop) (node : Node) (config : String) (mc : MachineConfig) (pool : String)
    (p : MachineConfigPool) (w : World) : Prop where
  desired : node.annotations.get? desiredMachineConfigAnnotationKey = some config
  config : w.machineConfigs.get config = some mc
  owner : poolOwner mc = some pool
  pool : w.pools.get pool = some p
  fine : P p

section Pools
variable {r : Reconciler} {quiet : String → Prop} {key : NamespacedName} {m : NodeMaintenance} {node : Node}
  {F : World → Prop} {P : MachineConfigPool → Prop} {config pool : String} {mc : MachineConfig}
  {p : MachineConfigPool}

lemma apart_pooled : Apart key (Pooled P node config mc pool p) where
  others w w' ho h := ⟨h.desired, by rw [ho.machineConfigs]; exact h.config, h.owner,
    by rw [ho.pools]; exact h.pool, h.fine⟩
  calls _ hpools hconfigs _ _ h := ⟨h.desired, by rw [hconfigs]; exact h.config, h.owner,
    by rw [hpools]; exact h.pool, h.fine⟩

/-- There is a pool under this name. -/
def PoolIs (pool : String) (p : MachineConfigPool) (w : World) : Prop := w.pools.get pool = some p

lemma apart_poolIs : Apart key (PoolIs pool p) where
  others w w' ho h := by
    rw [PoolIs, ho.pools]
    exact h
  calls _ hpools _ _ _ h := by
    rw [PoolIs, hpools]
    exact h

lemma getMCPName_achieves (hF : Apart key F) (h : ∀ w, F w → Pooled P node config mc pool p w) :
    Achieves r quiet key (Holding key m F) (getMCPName node) fun name w => name = pool ∧ Holding key m F w := by
  refine Triple.assume (fun w _ hw => (h w hw.2).desired) fun hdesired => ?_
  refine Triple.assume (fun w _ hw => (h w hw.2).owner) fun howner => ?_
  have hall : Untouched key (Holding key m F) := untouched_holding hF
  have hget : Achieves r quiet key (Holding key m F) (Client.getMachineConfig config) fun c w =>
      c = mc ∧ Holding key m F w := by
    refine achieves_mk (achieves_call hall (fun res => .exists fun c =>
      (Untouched.const _).and ((Untouched.const _).and hall)) fun w res w' hw hans => ?_)
    change some (found (w.machineConfigs.get config), w) = some (res, w') at hans
    rw [(h w hw.2).config] at hans
    cases hans
    exact ⟨mc, rfl, rfl, hw⟩
  unfold getMCPName
  rw [hdesired]
  refine TripleOk.bind hget.wrapErr fun c => Triple.of_pure fun hc => ?_
  subst hc
  rw [howner]
  exact achieves_pure hall fun w hw => ⟨rfl, hw⟩

lemma getPool_achieves (hF : Apart key F) :
    Achieves r quiet key (Holding key m fun w => F w ∧ PoolIs pool p w) (Client.getMachineConfigPool pool) fun q w =>
      q = p ∧ Holding key m (fun w => F w ∧ PoolIs pool p w) w := by
  have hall : Untouched key (Holding key m fun w => F w ∧ PoolIs pool p w) :=
    untouched_holding (hF.and apart_poolIs)
  refine achieves_mk (achieves_call hall (fun res => .exists fun c =>
    (Untouched.const _).and ((Untouched.const _).and hall)) fun w res w' hw hans => ?_)
  change some (found (w.pools.get pool), w) = some (res, w') at hans
  rw [hw.2.2] at hans
  cases hans
  exact ⟨p, rfl, rfl, hw⟩

/-- The patch of a pool. -/
lemma changePool_achieves {pause : Bool} (hF : Firm key F) (hname : p.name = pool) :
    Achieves r quiet key (Holding key m fun w => F w ∧ PoolIs pool p w) (changeMachineConfigPoolPause p pause)
      fun q w => q = p.patch pause ∧ Holding key m (fun w => F w ∧ PoolIs pool (p.patch pause) w) w := by
  have hpre : Untouched key (Holding key m fun w => F w ∧ PoolIs pool p w) :=
    untouched_holding (hF.toApart.and apart_poolIs)
  have hpost : Untouched key (Holding key m fun w => F w ∧ PoolIs pool (p.patch pause) w) :=
    untouched_holding (hF.toApart.and apart_poolIs)
  refine Achieves.wrapErr (achieves_mk (achieves_call hpre (fun res => .exists fun c =>
    (Untouched.const _).and ((Untouched.const _).and hpost)) fun w res w' hw hans => ?_))
  have hkeep := hF.all (by simp [Op.part]) hans.perform hw.2.1
  change some (w.accept (w.patchPool p.name pause)) = some (res, w') at hans
  have hget : w.pools.get p.name = some p := by
    rw [hname]
    exact hw.2.2
  simp only [World.patchPool, Option.bind_eq_bind, hget, Option.bind_some, World.accept] at hans
  cases hans
  refine ⟨_, rfl, rfl, hw.1, hkeep, ?_⟩
  rw [PoolIs, ← hname, ← MachineConfigPool.name_patch p pause]
  exact Store.get_put_self _ _

/-- A wait for what is already the case. -/
lemma waitForObjectUpdate_achieves {α : Type} {get : Action α} {checkFn : α → Bool} {A : World → Prop}
    {Q : α → World → Prop} {n : Nat} (hget : Achieves r quiet key A get fun a w => checkFn a = true ∧ Q a w)
    (hQ : ∀ a, Untouched key (Q a)) : Achieves r quiet key A (waitForObjectUpdate get checkFn (n + 1)) Q := by
  refine TripleOk.bind hget fun a => Triple.of_pure fun hcheck => ?_
  rw [if_pos hcheck]
  exact achieves_pure (hQ a) fun w h => h

lemma configuring_patch {pause : Bool} : (p.patch pause).configuring = p.configuring := by
  unfold MachineConfigPool.configuring MachineConfigPool.patch
  split <;> rfl

/-- A calm pool gets paused. -/
lemma pausePool_achieves (hF : Firm key F) (hname : p.name = pool) (hcalm : Calm p) :
    Achieves r quiet key (Holding key m fun w => F w ∧ PoolIs pool p w) (pausePool pool) fun _ =>
      Holding key m F := by
  have hpre : Untouched key (Holding key m fun w => F w ∧ PoolIs pool p w) :=
    untouched_holding (hF.toApart.and apart_poolIs)
  refine TripleOk.bind (getPool_achieves hF.toApart).wrapErr fun q => Triple.of_pure fun hq => ?_
  subst hq
  refine Achieves.ite (fun _ => achieves_pure hpre fun w h => ⟨h.1, h.2.1⟩) fun hnot => ?_
  obtain ⟨hquiet, hpaused⟩ := hcalm.resolve_left hnot
  have hforeign : ¬ (q.paused = true ∧ q.annotated = false) := fun h =>
    Bool.false_ne_true (h.2.symm.trans (hpaused h.1))
  have hsettled : ¬ q.configuring = true := fun h => Bool.false_ne_true (hquiet.symm.trans h)
  rw [if_neg hforeign, if_neg hsettled]
  refine TripleOk.bind (changePool_achieves hF hname).wrapErr fun c => Triple.of_pure fun hc => ?_
  subst hc
  rw [MachineConfigPool.name_patch, hname]
  have hwait : Achieves r quiet key (Holding key m fun w => F w ∧ PoolIs pool (q.patch true) w)
      (waitForObjectUpdate (Client.getMachineConfigPool pool) MachineConfigPool.pausedByOperator pollAttempts)
      fun c w => c = q.patch true ∧ Holding key m (fun w => F w ∧ PoolIs pool (q.patch true) w) w := by
    refine waitForObjectUpdate_achieves ((getPool_achieves hF.toApart).post fun c w h => ⟨?_, h⟩) fun c =>
      (Untouched.const _).and (untouched_holding (hF.toApart.and apart_poolIs))
    rw [h.1, MachineConfigPool.pausedByOperator_patch]
  refine TripleOk.bind hwait.wrapErr fun c => Triple.of_pure fun hc => ?_
  subst hc
  rw [configuring_patch, hquiet]
  exact achieves_pure (untouched_holding (hF.toApart.and apart_poolIs)) fun w h => ⟨h.1, h.2.1⟩

/-- The label is set, and seen. -/
lemma setMCPLabel_achieves (hkey : m.key = key) (hF : Apart key F) (hfit : Fit r quiet m) (hgone : m.gone = false) :
    Achieves r quiet key (Holding key m F) (setMCPLabel m pool) (Left r quiet key m F) := by
  refine Achieves.ite (fun _ => ?_) fun _ => achieves_pure (untouched_holding hF) fun w h => ⟨.refl m, h⟩
  refine TripleOk.bind (Achieves.wrapErr (touch_achieves hkey hF hfit hgone ⟨rfl, rfl, rfl⟩ rfl (fun _ => rfl) id))
    fun a => Triple.of_pure fun ha => Achieves.wrapErr ?_
  have hall : Untouched key (Holding key a F) := untouched_holding hF
  have hlabel : mcpLabel a = pool := by
    obtain ⟨g, v, rfl⟩ := ha.2.2
    rw [mcpLabel, GoMap.get?_set_self]
    rfl
  refine waitForObjectUpdate_achieves (achieves_mk (achieves_call hall (fun res => .exists fun c =>
    (Untouched.const _).and ((Untouched.const _).and ((Untouched.const _).and (untouched_holding hF))))
    fun w res w' hw hans => ?_)) fun c => (Untouched.const _).and (untouched_holding hF)
  change some (found (w.nms.get a.key), w) = some (res, w') at hans
  rw [ha.1.key, hkey, hw.1] at hans
  cases hans
  exact ⟨a, rfl, by simp [hlabel], ha.1, hw⟩

/-- Under the mutex. -/
lemma withLock_achieves {α : Type} {x : Action α} {f : α → NodeMaintenance} {G : World → Prop} (hF : Apart key F)
    (hG : Apart key G) (hx : Achieves r quiet key (Holding key m F) x fun a => Left r quiet key m G (f a)) :
    Achieves r quiet key (Holding key m F) (withLock x) fun a => Left r quiet key m G (f a) := by
  refine TripleOk.bind (aside_achieves hF ⟨nofun, nofun, nofun⟩ nofun) fun _ => ?_
  refine Achieves.observe_bind hx fun a => Triple.of_pure fun ha => ?_
  refine TripleOk.bind (aside_achieves hG ⟨nofun, nofun, nofun⟩ nofun) fun _ => ?_
  exact achieves_pure (untouched_holding hG) fun w h => ⟨ha, h⟩

/-- The pool of the node gets paused. -/
lemma pauseMCP_achieves (hkey : m.key = key) (hF : Firm key F) (hfit : Fit r quiet m) (hgone : m.gone = false) :
    Achieves r quiet key (Holding key m fun w => F w ∧ Pooled Calm node config mc pool p w) (pauseMCP node m)
      (Left r quiet key m F) := by
  have hpooled : Apart key fun w => F w ∧ Pooled Calm node config mc pool p w := hF.toApart.and apart_pooled
  have hlocked : Achieves r quiet key (Holding key m fun w => F w ∧ Pooled Calm node config mc pool p w)
      (pauseLocked node m) (Left r quiet key m F) := by
    refine Triple.assume (fun w _ hw => hw.2.2.fine) fun hcalm => ?_
    refine Triple.assume (fun w _ hw => Store.key_of_get hw.2.2.pool) fun hname => ?_
    refine TripleOk.bind (getMCPName_achieves hpooled fun w h => h.2).wrapErr fun name => Triple.of_pure fun hn => ?_
    subst hn
    refine Achieves.left_bind (setMCPLabel_achieves hkey hpooled hfit hgone) fun a hfol => ?_
    refine TripleOk.bind (Achieves.pre (pausePool_achieves hF hname hcalm) fun w h => ⟨h.1, h.2.1, h.2.2.pool⟩)
      fun _ => achieves_pure (untouched_holding hF.toApart) fun w h => ⟨hfol, h⟩
  refine withLock_achieves (f := id) hpooled hF.toApart (Achieves.observe_bind hlocked fun a =>
    Triple.of_pure fun ha => ?_)
  refine TripleOk.bind (aside_achieves hF.toApart ⟨nofun, nofun, nofun⟩ nofun) fun _ => ?_
  exact achieves_pure (untouched_holding hF.toApart) fun w h => ⟨ha, h⟩

lemma mcpUsedByOtherNodeMaintenance_achieves (hF : Apart key F) (hsel : Selects p) :
    Achieves r quiet key (Holding key m F) (mcpUsedByOtherNodeMaintenance p m) fun _ => Holding key m F := by
  have hall : Untouched key (Holding key m F) := untouched_holding hF
  have hparsed : labelSelectorAsSelector p.nodeSelector = .ok (selectorAccepts p.nodeSelector) := if_pos hsel
  unfold mcpUsedByOtherNodeMaintenance
  rw [hparsed]
  refine TripleOk.bind (B := fun _ => Holding key m F) (achieves_pure hall fun w h => h) fun _ => ?_
  refine TripleOk.bind (B := fun _ => Holding key m F) ?_ fun nodes =>
    TripleOk.bind (B := fun _ => Holding key m F) ?_ fun nms => achieves_pure hall fun w h => h
  · refine achieves_mk (achieves_call hall (fun res => .exists fun l => (Untouched.const _).and hall) ?_)
    rintro w res w' h ⟨rfl, l, rfl, -⟩
    exact ⟨l, rfl, h⟩
  · refine achieves_mk (achieves_call hall (fun res => .exists fun l => (Untouched.const _).and hall) ?_)
    rintro w res w' h ⟨rfl, l, rfl, -⟩
    exact ⟨l, rfl, h⟩

lemma unpauseLocked_achieves (hF : Firm key F) :
    Achieves r quiet key (Holding key m fun w => F w ∧ Pooled Selects node config mc pool p w) (unpauseLocked node m)
      fun _ => Holding key m F := by
  have hpooled : Apart key fun w => F w ∧ Pooled Selects node config mc pool p w := hF.toApart.and apart_pooled
  have hpre : Untouched key (Holding key m fun w => F w ∧ PoolIs pool p w) :=
    untouched_holding (hF.toApart.and apart_poolIs)
  refine Triple.assume (fun w _ hw => hw.2.2.fine) fun hsel => ?_
  refine Triple.assume (fun w _ hw => Store.key_of_get hw.2.2.pool) fun hname => ?_
  refine TripleOk.bind (getMCPName_achieves hpooled fun w h => h.2).wrapErr fun name => Triple.of_pure fun hn => ?_
  subst hn
  refine Achieves.pre (B := Holding key m fun w => F w ∧ PoolIs name p w) ?_ fun w h => ⟨h.1, h.2.1, h.2.2.pool⟩
  refine TripleOk.bind (getPool_achieves hF.toApart).wrapErr fun q => Triple.of_pure fun hq => ?_
  subst hq
  refine Achieves.ite (fun _ => ?_) fun _ => achieves_pure hpre fun w h => ⟨h.1, h.2.1⟩
  refine TripleOk.bind (mcpUsedByOtherNodeMaintenance_achieves (hF.toApart.and apart_poolIs) hsel).wrapErr
    fun used => Achieves.ite (fun _ => ?_) fun _ => achieves_pure hpre fun w h => ⟨h.1, h.2.1⟩
  refine TripleOk.bind (changePool_achieves hF hname).wrapErr fun c => Triple.of_pure fun hc => ?_
  subst hc
  rw [MachineConfigPool.name_patch, hname]
  have hpost : Untouched key (Holding key m fun w => F w ∧ PoolIs name (q.patch false) w) :=
    untouched_holding (hF.toApart.and apart_poolIs)
  have hwait : Achieves r quiet key (Holding key m fun w => F w ∧ PoolIs name (q.patch false) w)
      (waitForObjectUpdate (Client.getMachineConfigPool name) (fun p => !p.annotated) pollAttempts)
      fun _ => Holding key m fun w => F w ∧ PoolIs name (q.patch false) w := by
    refine waitForObjectUpdate_achieves ((getPool_achieves hF.toApart).post fun c w h => ⟨?_, h.2⟩) fun c => hpost
    rw [h.1, MachineConfigPool.annotated_patch]
    rfl
  exact TripleOk.bind hwait.wrapErr fun _ => achieves_pure hpost fun w h => ⟨h.1, h.2.1⟩

/-- The pool of the node gets released, unless others need it. -/
lemma unpause_achieves (hF : Firm key F) (hpool : r.mcpManager = true → ∀ w, F w →
      ∃ config mc pool p, Pooled Selects node config mc pool p w) :
    Achieves r quiet key (Holding key m F) (r.unpause m node) fun _ => Holding key m F := by
  have hall : Untouched key (Holding key m F) := untouched_holding hF.toApart
  refine Achieves.ite (fun hmgr => ?_) fun _ => achieves_pure hall fun w h => h
  refine TripleOk.bind (aside_achieves hF.toApart ⟨nofun, nofun, nofun⟩ nofun) fun _ => ?_
  refine (withLock_achieves (f := fun _ => m) hF.toApart hF.toApart ?_).post fun _ w h => h.2
  refine Achieves.pre (B := fun w => ∃ config mc pool p,
    Holding key m (fun w => F w ∧ Pooled Selects node config mc pool p w) w) ?_ fun w h => ?_
  · refine Triple.of_exists fun config => Triple.of_exists fun mc => Triple.of_exists fun pool =>
      Triple.of_exists fun p => ?_
    exact (unpauseLocked_achieves hF).post fun _ w h => ⟨.refl m, h⟩
  · obtain ⟨config, mc, pool, p, hp⟩ := hpool hmgr w h.2
    exact ⟨config, mc, pool, p, h.1, h.2, hp⟩

end Pools

/-! ### Drain requests -/

/-- A request that has been started and not been canceled, and has had no error. -/
structure Going (uid : String) (spec : DrainSpec) (q : DrainRequest) : Prop where
  uid : q.uid = uid
  started : q.started = true
  canceled : q.canceled = false
  lastErr : q.lastErr = none
  spec : q.drainSpec.spec = spec

/-- The drain manager has a request of this object, which is under way or has ended; with `done` it has. -/
def Sent (done : Prop) (key : NamespacedName) (uid : String) (spec : DrainSpec) (id : Nat) (w : World) : Prop :=
  w.drainRequests.get? (drainRequestUID key uid) = some id ∧
    ∃ q, w.requests[id]? = some q ∧ Going (drainRequestUID key uid) spec q ∧ (done → q.finished = true)

section Drains
variable {r : Reconciler} {quiet : String → Prop} {key : NamespacedName} {m : NodeMaintenance} {node : Node}
  {F : World → Prop} {done : Prop} {uid : String} {spec : DrainSpec} {id : Nat}

lemma Going.finishDrain {q : DrainRequest} (h : Going uid spec q) : Going uid spec (finishDrain none q) := by
  unfold MaintenanceOperator.finishDrain
  split
  · exact ⟨h.uid, h.started, h.canceled, rfl, h.spec⟩
  · exact h

/-- Its drain is under way, or was successful. -/
lemma Going.state_eq {q : DrainRequest} (h : Going uid spec q) :
    q.state = if q.finished then .success else .inProgress := by
  unfold DrainRequest.state
  rw [h.lastErr, h.canceled, h.started]
  rfl

lemma firm_sent : Firm key (Sent done key uid spec id) where
  others w w' ho h := by
    obtain ⟨hentry, q, hq, hgoing, hdone⟩ := h
    refine ⟨(ho.entries uid).trans hentry, ?_⟩
    rcases ho.requests hq with hq' | hq'
    · exact ⟨q, hq', hgoing, hdone⟩
    · refine ⟨_, hq', hgoing.finishDrain, fun hd => ?_⟩
      unfold finishDrain
      split
      · rfl
      · exact hdone hd
  calls _ _ _ hrequests hentries h := by
    unfold Sent
    rw [hrequests, hentries]
    exact h
  all he hperf h := by
    unfold Sent
    rw [hperf.frame.requests he, hperf.frame.drainRequests he]
    exact h

/-- The drain status is brought up to date. -/
lemma updateDrainStatus_achieves {b : NodeMaintenance} (hkey : m.key = key) (hF : Apart key F) (hgone : m.gone = false)
    (hb : Matches m b) (hcond : b.status.conditions = m.status.conditions) :
    Achieves r quiet key (Holding key m F) (updateDrainStatus b id) (Left r quiet key m F) := by
  have hall : Untouched key (Holding key m F) := untouched_holding hF
  have hpods : Achieves r quiet key (Holding key m F) (podsToDelete id) fun _ => Holding key m F := by
    refine TripleOk.bind (aside_achieves hF ⟨nofun, nofun, nofun⟩ nofun) fun _ => ?_
    refine TripleOk.bind (B := fun _ => Holding key m F) (Achieves.wrapErr (achieves_mk (achieves_call hall
      (fun res => .exists fun l => (Untouched.const _).and hall) ?_))) fun _ => achieves_pure hall fun w h => h
    rintro w res w' h ⟨rfl, pods, rfl⟩
    exact ⟨pods, rfl, h⟩
  have hcurrent : ∀ pods, Achieves r quiet key (Holding key m F) (currentDrainStatus b pods) fun _ =>
      Holding key m F := by
    intro pods
    unfold currentDrainStatus
    split
    · exact achieves_pure hall fun w h => h
    · refine TripleOk.bind (listPods_achieves hall).wrapErr fun _ => achieves_pure ?_ fun w h => h.2
      exact (Untouched.const _).and hall
  refine TripleOk.bind hpods.wrapErr fun pods => TripleOk.bind (hcurrent pods) fun drain => Achieves.wrapErr ?_
  exact Achieves.post (statusUpdate_achieves hkey hF ⟨hb.1, hb.2.1, hb.2.2⟩ hgone) fun a w h =>
    ⟨Restated.follows h.1 hcond, h.2⟩

end Drains

/-! ### The drain handler -/

/-- The object that is followed. -/
structure Candidate (r : Reconciler) (quiet : String → Prop) (key : NamespacedName) (uid name : String)
    (m : NodeMaintenance) : Prop where
  key : m.key = key
  uid : m.uid = uid
  deleting : m.deleting = false
  nodeName : m.spec.nodeName = name
  fit : Fit r quiet m

/-- The object is draining: its request is under way or has ended; with `done` it has. -/
def Underway (r : Reconciler) (quiet : String → Prop) (key : NamespacedName) (uid name : String) (done : Prop)
    (w : World) : Prop :=
  ∃ m spec id, (Candidate r quiet key uid name m ∧ Normal m ∧ getReadyConditionReason m = .draining ∧
    m.spec.drainSpec = some spec) ∧ Holding key m (fun w => NodeThere name w ∧ Sent done key uid spec id w) w

/-- The object is ready, or its requestor has failed; it has no drain request. -/
def Finished (r : Reconciler) (quiet : String → Prop) (key : NamespacedName) (uid name : String)
    (w : World) : Prop :=
  ∃ m, (Candidate r quiet key uid name m ∧ Terminal m) ∧
    Holding key m (fun w => NodeThere name w ∧ NoRequest key uid w) w

section Handlers
variable {r : Reconciler} {quiet : String → Prop} {key : NamespacedName} {uid name : String}
  {m a : NodeMaintenance} {node : Node} {done : Prop} {spec : DrainSpec} {id : Nat}

lemma Candidate.gone (h : Candidate r quiet key uid name m) : m.gone = false := by
  rw [NodeMaintenance.gone, h.deleting]
  rfl

lemma Candidate.later (h : Candidate r quiet key uid name m) (hfol : SamePhase r quiet m a) :
    Candidate r quiet key uid name a :=
  ⟨hfol.key.trans h.key, hfol.uid.trans h.uid, hfol.deleting.trans h.deleting, hfol.nodeName.trans h.nodeName,
    hfol.fit h.fit⟩

lemma Candidate.advanced {reason : Reason} (h : Candidate r quiet key uid name m)
    (hadv : Advanced r quiet m a reason) : Candidate r quiet key uid name a :=
  Candidate.later (m := { m with status := a.status })
    ⟨h.key, h.uid, h.deleting, h.nodeName, ⟨h.fit.admitted, h.fit.start, h.fit.wait⟩⟩ hadv.same

lemma untouched_underway : Untouched key (Underway r quiet key uid name done) :=
  .exists fun _ => .exists fun _ => .exists fun _ => (Untouched.const _).and
    (untouched_holding (firm_nodeThere.and firm_sent).toApart)

lemma untouched_finished : Untouched key (Finished r quiet key uid name) :=
  .exists fun _ => (Untouched.const _).and (untouched_holding (firm_nodeThere.and firm_noRequest).toApart)

/-- A request that has been made, and not been handed to the drain manager. -/
def Fresh (m : NodeMaintenance) (spec : DrainSpec) (id : Nat) (w : World) : Prop :=
  w.requests[id]? = some ⟨drainRequestUIDFromNodeMaintenance m, false, false, false, none, false,
    ⟨m.spec.nodeName, spec⟩⟩

lemma apart_fresh : Apart key (Fresh m spec id) where
  others w w' ho h := (ho.requests h).elim (fun e => e) fun e => e
  calls _ _ _ hrequests _ h := by
    unfold Fresh
    rw [hrequests]
    exact h

lemma newDrainRequest_achieves (hspec : m.spec.drainSpec = some spec) :
    Achieves r quiet key (Holding key m fun w => NodeThere name w ∧ NoRequest key uid w)
      (DrainManager.newDrainRequest m) fun id => Holding key m fun w =>
        (NodeThere name w ∧ NoRequest key uid w) ∧ Fresh m spec id w := by
  have hF : Apart key fun w => NodeThere name w ∧ NoRequest key uid w := (firm_nodeThere.and firm_noRequest).toApart
  refine TripleX.lift (achieves_call (untouched_holding hF) (fun id => untouched_holding (hF.and apart_fresh))
    fun w id w' h hans => ?_)
  change (newDrainRequest m).map (fun q => (w.requests.length, { w with requests := w.requests ++ [q] })) =
    some (id, w') at hans
  rw [newDrainRequest, hspec] at hans
  cases hans
  refine ⟨h.1, h.2, ?_⟩
  simp [Fresh]

lemma addRequest_achieves {b : NodeMaintenance} (hb : b.key = key) (hu : b.uid = uid) :
    Achieves r quiet key (Holding key m fun w => (NodeThere name w ∧ NoRequest key uid w) ∧ Fresh b spec id w)
      (DrainManager.addRequest id) fun _ => Holding key m fun w => NodeThere name w ∧ Sent False key uid spec id w := by
  have hF : Apart key fun w => NodeThere name w ∧ NoRequest key uid w := (firm_nodeThere.and firm_noRequest).toApart
  refine TripleX.lift (achieves_call (untouched_holding (hF.and apart_fresh))
    (fun _ => untouched_holding (firm_nodeThere.and firm_sent).toApart) fun w res w' h hans => ?_)
  change w.addRequest id = some (res, w') at hans
  have huid : drainRequestUIDFromNodeMaintenance b = drainRequestUID key uid := by
    rw [drainRequestUIDFromNodeMaintenance_eq, hb, hu]
  have hfree : w.drainRequests.get? (drainRequestUIDFromNodeMaintenance b) = none := by
    rw [huid]
    exact h.2.1.2
  have hfresh := h.2.2
  unfold Fresh at hfresh
  simp only [World.addRequest, Option.bind_eq_bind, hfresh, Option.bind_some, hfree] at hans
  cases hans
  refine ⟨h.1, h.2.1.1, ?_, ⟨drainRequestUIDFromNodeMaintenance b, true, false, false, none, false,
    ⟨b.spec.nodeName, spec⟩⟩, ?_, ?_, False.elim⟩
  · rw [huid]
    exact GoMap.get?_set_self _ _ _
  · rw [List.getElem?_modify_eq, hfresh]
    rfl
  · exact ⟨huid, rfl, rfl, rfl, rfl⟩

/-- A new request is sent. -/
lemma sendDrainRequest_achieves (hm : Candidate r quiet key uid name m) (hnormal : Normal m)
    (hreason : getReadyConditionReason m = .draining) (hspec : m.spec.drainSpec = some spec) :
    Achieves r quiet key (Holding key m fun w => NodeThere name w ∧ NoRequest key uid w) (sendDrainRequest m)
      fun _ => Underway r quiet key uid name False := by
  have hF : Apart key fun w => NodeThere name w ∧ NoRequest key uid w := (firm_nodeThere.and firm_noRequest).toApart
  refine TripleOk.bind (newDrainRequest_achieves hspec) fun id => ?_
  refine Achieves.left_bind (updateDrainStatus_achieves hm.key (hF.and apart_fresh) hm.gone ⟨rfl, rfl, rfl⟩ rfl)
    fun a hfol => ?_
  refine TripleOk.bind (addRequest_achieves hm.key hm.uid) fun _ => ?_
  refine achieves_pure (untouched_holding (firm_nodeThere.and firm_sent).toApart) fun w h => ?_
  refine ⟨a, spec, id, ⟨hm.later hfol, hfol.normal hnormal, hfol.reason.trans hreason, ?_⟩, h⟩
  rw [hfol.spec_eq hnormal]
  exact hspec

/-- What is known while the request is followed. -/
abbrev Following (key : NamespacedName) (m : NodeMaintenance) (uid name : String) (done : Prop) (spec : DrainSpec)
    (id : Nat) (w : World) : Prop :=
  Holding key m (fun w => NodeThere name w ∧ Sent done key uid spec id w) w

lemma untouched_following : Untouched key (Following key m uid name done spec id) :=
  untouched_holding (firm_nodeThere.and firm_sent).toApart

lemma uid_achieves : Achieves r quiet key (Following key m uid name done spec id) (DrainManager.uid id) fun u w =>
    u = drainRequestUID key uid ∧ Following key m uid name done spec id w := by
  refine TripleX.lift (achieves_call untouched_following (fun _ => (Untouched.const _).and untouched_following)
    fun w u w' h hans => ?_)
  obtain ⟨q, hq, hgoing, -⟩ := h.2.2.2
  change w.requests[id]?.map (fun q => (q.uid, w)) = some (u, w') at hans
  rw [hq] at hans
  cases hans
  exact ⟨hgoing.uid, h⟩

lemma spec_achieves : Achieves r quiet key (Following key m uid name done spec id) (DrainManager.spec id) fun s w =>
    s.spec = spec ∧ Following key m uid name done spec id w := by
  refine TripleX.lift (achieves_call untouched_following (fun _ => (Untouched.const _).and untouched_following)
    fun w s w' h hans => ?_)
  obtain ⟨q, hq, hgoing, -⟩ := h.2.2.2
  change w.requests[id]?.map (fun q => (q.drainSpec, w)) = some (s, w') at hans
  rw [hq] at hans
  cases hans
  exact ⟨hgoing.spec, h⟩

/-- A request that has ended stays so. -/
lemma state_achieves : Achieves r quiet key (Following key m uid name done spec id) (DrainManager.state id) fun st w =>
    st = .inProgress ∧ ¬ done ∧ Following key m uid name done spec id w ∨
      st = .success ∧ Following key m uid name True spec id w := by
  refine TripleX.lift (achieves_call untouched_following (fun _ => ((Untouched.const _).and
    ((Untouched.const _).and untouched_following)).or ((Untouched.const _).and untouched_following))
    fun w st w' h hans => ?_)
  obtain ⟨q, hq, hgoing, hdone⟩ := h.2.2.2
  change w.requests[id]?.map (fun q => (q.state, w)) = some (st, w') at hans
  rw [hq] at hans
  cases hans
  rw [hgoing.state_eq]
  cases hfin : q.finished with
  | true => exact .inr ⟨rfl, h.1, h.2.1, h.2.2.1, q, hq, hgoing, fun _ => hfin⟩
  | false =>
    refine .inl ⟨rfl, fun hd => ?_, h⟩
    rw [hdone hd] at hfin
    cases hfin

/-- The request is taken off the drain manager. -/
lemma removeRequest_achieves {F G : World → Prop} (hF : Site key F) (hG : Untouched key G) :
    Achieves r quiet key (Holding key m fun w => F w ∧ G w)
      (DrainManager.removeRequest (drainRequestUID key uid)) fun _ => Holding key m fun w =>
        F w ∧ NoRequest key uid w := by
  refine TripleX.lift (achieves_call (untouched_stored.and (hF.others.and hG))
    (fun _ => untouched_holding (hF.toFirm.and firm_noRequest).toApart) ?_)
  rintro w _ w' h ⟨err, rfl⟩
  have hsite : F (w.removeRequest (drainRequestUID key uid) err) := by
    refine hF.drain ?_ ?_ ?_ h.2.1
    all_goals
      unfold World.removeRequest
      split <;> rfl
  refine ⟨?_, hsite, ?_⟩
  · unfold World.removeRequest
    split
    · exact h.1
    · exact h.1
  · unfold World.removeRequest
    split
    · assumption
    · exact GoMap.get?_delete_self _ _

/-- The drain was successful: no check says otherwise. -/
lemma drainFailed_achieves : Achieves r quiet key (Following key m uid name True spec id) (drainFailed id)
    fun failed w => failed = false ∧ Following key m uid name True spec id w := by
  have hstate : Achieves r quiet key (Following key m uid name True spec id) (DrainManager.state id) fun st w =>
      st = .success ∧ Following key m uid name True spec id w :=
    state_achieves.post fun st w h => h.resolve_left fun h => h.2.1 trivial
  refine TripleOk.bind hstate fun st => Triple.of_pure fun hst => ?_
  subst hst
  refine TripleOk.bind hstate fun st => Triple.of_pure fun hst => ?_
  subst hst
  exact achieves_pure untouched_following fun w h => ⟨rfl, h⟩

/-- A request is followed: it stays under way, or the object becomes ready. -/
lemma followDrainRequest_achieves (hm : Candidate r quiet key uid name m) (hnormal : Normal m)
    (hreason : getReadyConditionReason m = .draining) (hspec : m.spec.drainSpec = some spec) :
    Achieves r quiet key (Following key m uid name done spec id) (followDrainRequest m spec id) fun _ w =>
      ¬ done ∧ Underway r quiet key uid name done w ∨ Finished r quiet key uid name w := by
  have hidle : Achieves r quiet key (Following key m uid name done spec id) (DrainManager.state id) fun _ =>
      Following key m uid name done spec id :=
    aside_achieves (firm_nodeThere.and firm_sent).toApart ⟨nofun, nofun, nofun⟩ nofun
  refine TripleOk.bind uid_achieves fun u => Triple.of_pure fun hu => ?_
  subst hu
  refine TripleOk.bind hidle fun _ => TripleOk.bind spec_achieves fun s => Triple.of_pure fun hs => ?_
  rw [if_neg (not_not_intro hs)]
  refine TripleOk.bind state_achieves fun st => Achieves.ite (fun hst => ?_) fun hst => ?_
  · subst hst
    refine Achieves.pre (B := fun w => ¬ done ∧ Following key m uid name done spec id w)
      (Triple.of_pure fun hnot => ?_) fun w h => (h.resolve_right fun h => nomatch h.1).2
    refine Achieves.left_bind (updateDrainStatus_achieves hm.key (firm_nodeThere.and firm_sent).toApart hm.gone
      ⟨rfl, rfl, rfl⟩ rfl) fun a hfol => achieves_pure untouched_following fun w h => .inl ⟨hnot, ?_⟩
    refine ⟨a, spec, id, ⟨hm.later hfol, hfol.normal hnormal, hfol.reason.trans hreason, ?_⟩, h⟩
    rw [hfol.spec_eq hnormal]
    exact hspec
  · refine Achieves.pre (B := Following key m uid name True spec id) ?_ fun w h => (h.resolve_left fun h => hst h.1).2
    refine TripleOk.bind drainFailed_achieves fun failed => Triple.of_pure fun hfailed => ?_
    subst hfailed
    refine TripleOk.bind (aside_achieves (firm_nodeThere.and firm_sent).toApart ⟨nofun, nofun, nofun⟩ nofun)
      fun _ => ?_
    refine Achieves.left_bind (updateDrainStatus_achieves hm.key (firm_nodeThere.and firm_sent).toApart hm.gone
      ⟨rfl, rfl, rfl⟩ rfl) fun a hfol => ?_
    have ha := hm.later hfol
    refine TripleOk.bind (removeRequest_achieves site_nodeThere firm_sent.others) fun _ => ?_
    refine TripleOk.bind (setReady_achieves ha.key (firm_nodeThere.and firm_noRequest).toApart
      (by rw [hfol.reason, hreason]; decide) ha.gone) fun b => Triple.of_pure fun hb => ?_
    exact achieves_pure (untouched_holding (firm_nodeThere.and firm_noRequest).toApart) fun w h =>
      .inr ⟨b, ⟨ha.advanced hb, .inl hb.reason⟩, h⟩

end Handlers

end MaintenanceOperator.Attended
