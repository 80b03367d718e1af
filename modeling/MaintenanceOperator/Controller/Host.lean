import MaintenanceOperator.Cluster.Events
import MaintenanceOperator.Controller.Parts
import MaintenanceOperator.Lib.System

/-!
# Writes of an object, in any system

A reconcile holds a version of its object that may be out of date (`Version`); when the server accepts
a write of it, the stored object still was that version. The rules for such writes do not depend on the
system that the reconcile runs in: a `Host` is a thread of some system, with a proof plan that says
which writes of the object are in order and what they keep. Most writes of the controller change
nothing that a plan could care about (`Alike`); the functions that make only such writes are verified
here, once for all plans.
-/

namespace MaintenanceOperator
open Lib Discipline Reconciler

/-- `m` is a version of the object with this name, up to owner references whose update failed. -/
def Version (key : NamespacedName) (m : NodeMaintenance) (w : World) : Prop :=
  m.key = key ∧ ∃ v ∈ w.history, m = { v with ownerReferences := m.ownerReferences }

/-- `a` is like `m` in all that the operator itself keeps on an object or acts upon. -/
structure Alike (m a : NodeMaintenance) : Prop where
  key : a.key = m.key
  uid : a.uid = m.uid
  deletionTimestamp : a.deletionTimestamp = m.deletionTimestamp
  finalizers : a.finalizers = m.finalizers
  label : mcpLabel a = mcpLabel m
  initial : initialState a = initialState m
  ready : findStatusCondition a.status.conditions conditionTypeReady =
    findStatusCondition m.status.conditions conditionTypeReady
  nodeName : a.spec.nodeName = m.spec.nodeName
  requestors : a.spec.additionalRequestors = m.spec.additionalRequestors
  cordon : m.spec.cordon = true → a.spec.cordon = true

namespace Alike
variable {m a b : NodeMaintenance}

lemma refl (m : NodeMaintenance) : Alike m m := ⟨rfl, rfl, rfl, rfl, rfl, rfl, rfl, rfl, rfl, id⟩

lemma trans (h : Alike m a) (h' : Alike a b) : Alike m b :=
  ⟨h'.key.trans h.key, h'.uid.trans h.uid, h'.deletionTimestamp.trans h.deletionTimestamp,
    h'.finalizers.trans h.finalizers, h'.label.trans h.label, h'.initial.trans h.initial,
    h'.ready.trans h.ready, h'.nodeName.trans h.nodeName, h'.requestors.trans h.requestors,
    fun hc => h'.cordon (h.cordon hc)⟩

/-- Owner references are not among them. -/
lemma refs (h : Alike m a) (l : List OwnerReference) : Alike { m with ownerReferences := l } a :=
  ⟨h.key, h.uid, h.deletionTimestamp, h.finalizers, h.label, h.initial, h.ready, h.nodeName,
    h.requestors, h.cordon⟩

lemma of_refs {l : List OwnerReference} (h : Alike { m with ownerReferences := l } a) : Alike m a :=
  ⟨h.key, h.uid, h.deletionTimestamp, h.finalizers, h.label, h.initial, h.ready, h.nodeName,
    h.requestors, h.cordon⟩

lemma deleting (h : Alike m a) : a.deleting = m.deleting := by
  rw [NodeMaintenance.deleting, h.deletionTimestamp, NodeMaintenance.deleting]

lemma reason (h : Alike m a) : getReadyConditionReason a = getReadyConditionReason m := by
  rw [getReadyConditionReason, h.ready, getReadyConditionReason]

/-- An annotation other than the initial state. -/
lemma of_annotations {l : GoMap String} (h : l.get? nodeInitialStateUnschedulableAnnot =
    m.annotations.get? nodeInitialStateUnschedulableAnnot) : Alike m { m with annotations := l } :=
  ⟨rfl, rfl, rfl, rfl, rfl, h, rfl, rfl, rfl, id⟩

/-- Parts of the status other than the conditions. -/
lemma of_status {st : NodeMaintenanceStatus} (h : st.conditions = m.status.conditions) :
    Alike m { m with status := st } :=
  ⟨rfl, rfl, rfl, rfl, rfl, rfl, by rw [h], rfl, rfl, id⟩

/-- What the server makes of an update with a body like the stored object. -/
lemma merge (h : Alike m b) (w : World) : Alike m (w.merge m b b.spec.normalize) :=
  ⟨rfl, rfl, rfl, h.finalizers, h.label, h.initial, rfl, h.nodeName, h.requestors, fun _ => rfl⟩

/-- What the server makes of a status update with such a body. -/
lemma mergeStatus (h : Alike m b) (w : World) : Alike m (w.mergeStatus m b) :=
  ⟨rfl, rfl, rfl, rfl, rfl, rfl, h.ready, rfl, rfl, id⟩

/-- What the server makes of a write that makes no difference. -/
lemma of_rewrite {e : Op} {w : World} (hrw : Rewrite w m e a) (he : e = .update b ∨ e = .statusUpdate b)
    (hal : Matches m b → Alike m b) : Alike m a := by
  cases hrw with
  | update hm _ =>
    rcases he with he | he <;> cases he
    exact (hal hm).merge w
  | statusUpdate hm =>
    rcases he with he | he <;> cases he
    exact (hal hm).mergeStatus w

section Calls
variable {mode : ReadMode} {e : Op} {w w' : World} {ans : Resp e} {k : NamespacedName}
  {o : NodeMaintenance}

/-- After a write that makes no difference, every stored object is like the one stored before. -/
lemma stored (h : Perform mode e w ans w') (he : e = .update b ∨ e = .statusUpdate b)
    (hal : ∀ o, w.nms.get b.key = some o → Matches o b → Alike o b) (ha : w'.nms.get k = some a) :
    ∃ o, w.nms.get k = some o ∧ Alike o a := by
  rcases h.stored ha with hk | ⟨o, ho, hrw⟩
  · exact ⟨a, hk, .refl a⟩
  · refine ⟨o, ho, of_rewrite hrw he fun hm => hal o ?_ hm⟩
    rw [← hm.1, Store.key_of_get ho]
    exact ho

/-- An object with the finalizer outlives such a write. -/
lemma kept (h : Perform mode e w ans w') (he : e = .update b ∨ e = .statusUpdate b)
    (hal : ∀ o, w.nms.get b.key = some o → Matches o b → Alike o b) (ho : w.nms.get k = some o)
    (hg : Guarded o) : ∃ a, w'.nms.get k = some a ∧ Alike o a := by
  rcases h.kept ho with hk | ⟨a, hrw, hk⟩
  · exact ⟨o, hk, .refl o⟩
  · have halike : Alike o a := by
      refine of_rewrite hrw he fun hm => hal o ?_ hm
      rw [← hm.1, Store.key_of_get ho]
      exact ho
    have hga : Guarded a := by rwa [Guarded, halike.finalizers]
    exact ⟨a, by rw [hk, hga.not_gone]; rfl, halike⟩

end Calls

end Alike

variable {ι S α : Type} {Y : System ι Op Resp S α} {D : Discipline Y} {i : ι} {key : NamespacedName}

/-- A thread that works on the object with the given name: where its plan keeps the cluster, which
writes of the stored object are in order, what is kept by the moves of the others, by reads and by
writes that make no difference (`Keeps`), and what is kept by all its writes (`Wrote`). -/
structure Host (D : Discipline Y) (i : ι) (key : NamespacedName) where
  world : S → World
  Keeps : S → S → Prop
  Wrote : S → S → Prop
  MayUpdate : S → NodeMaintenance → NodeMaintenance → Prop
  MayStatus : S → NodeMaintenance → NodeMaintenance → Prop
  consistent : ∀ {s}, D.inv s → Consistent (world s)
  perform : ∀ {e s a s'}, D.inv s → Y.exec i e s a s' → Perform .cached e (world s) a (world s')
  perm_read : ∀ {s e}, D.inv s → e.part = .nothing → D.perm i s e
  perm_update : ∀ {s b}, b.key = key →
    (∀ o, (world s).nms.get key = some o → Matches o b → MayUpdate s o b) → D.perm i s (.update b)
  perm_status : ∀ {s b}, b.key = key →
    (∀ o, (world s).nms.get key = some o → Matches o b → MayStatus s o b) →
      D.perm i s (.statusUpdate b)
  history : ∀ {s s'}, Keeps s s' → ∀ v ∈ (world s).history, v ∈ (world s').history
  keeps_rely : ∀ {s s'}, D.inv s → D.inv s' → D.rely i s s' → Keeps s s'
  keeps_read : ∀ {e s a s'}, D.inv s → D.inv s' → Y.exec i e s a s' → e.part = .nothing → Keeps s s'
  keeps_alike : ∀ {e b s a s'}, D.inv s → D.inv s' → Y.exec i e s a s' →
    e = .update b ∨ e = .statusUpdate b →
    (∀ o, (world s).nms.get b.key = some o → Matches o b → Alike o b) → Keeps s s'
  wrote_update : ∀ {b s a s'}, D.inv s → D.inv s' → D.perm i s (.update b) →
    Y.exec i (.update b) s a s' → Wrote s s'
  update_alike : ∀ {s o b}, D.inv s → (world s).nms.get key = some o → Alike o b → MayUpdate s o b
  status_alike : ∀ {s o b}, D.inv s → (world s).nms.get key = some o → Alike o b → MayStatus s o b

namespace Host
variable (H : Host D i key) {A F : S → Prop} {m b : NodeMaintenance} {node : Node} {β : Type}

/-- Survives the moves of the others, and reads and writes that make no difference. -/
def Lasting (F : S → Prop) : Prop := ∀ s s', D.inv s → D.inv s' → H.Keeps s s' → F s → F s'

/-- Survives all updates of the object, too. -/
def Firm (F : S → Prop) : Prop :=
  H.Lasting F ∧ ∀ s s', D.inv s → D.inv s' → H.Wrote s s' → F s → F s'

/-- The thread holds this version. -/
def Holds (m : NodeMaintenance) (s : S) : Prop := Version key m (H.world s)

variable {H}

lemma Lasting.stable (h : H.Lasting F) : D.Stable i F :=
  fun s s' hinv hinv' hr => h s s' hinv hinv' (H.keeps_rely hinv hinv' hr)

lemma Lasting.const (P : Prop) : H.Lasting fun _ => P := fun _ _ _ _ _ h => h

lemma Lasting.and (hA : H.Lasting A) (hF : H.Lasting F) : H.Lasting fun s => A s ∧ F s :=
  fun s s' hi hi' hk h => ⟨hA s s' hi hi' hk h.1, hF s s' hi hi' hk h.2⟩

lemma Lasting.ok {ε : Type} {res : Except ε β} {Q : β → S → Prop} (hQ : ∀ b, H.Lasting (Q b)) :
    H.Lasting fun s => ∀ b, res = .ok b → Q b s :=
  fun s s' hi hi' hk h b hb => hQ b s s' hi hi' hk (h b hb)

lemma Firm.const (P : Prop) : H.Firm fun _ => P := ⟨Lasting.const P, fun _ _ _ _ _ h => h⟩

lemma lasting_holds : H.Lasting (H.Holds m) := by
  rintro s s' - - hk ⟨hkey, v, hv, hm⟩
  exact ⟨hkey, v, H.history hk v hv, hm⟩

/-- When the server takes a body made from the version in hand, that is what is stored. -/
lemma Holds.stored {s : S} {o : NodeMaintenance} (hinv : D.inv s) (h : H.Holds m s)
    (ho : (H.world s).nms.get key = some o) (hm : Matches o b)
    (hrv : b.resourceVersion = m.resourceVersion) :
    ∃ refs, o = { m with ownerReferences := refs } := by
  obtain ⟨-, v, hv, e⟩ := h
  have hov : o = v := (H.consistent hinv).eq_of_version ho hv (by rw [hm.2.2, hrv, e])
  exact ⟨v.ownerReferences, by rw [hov, e]⟩

/-! ### Calls -/

/-- An operation that may be issued at any time and changes nothing that lasts. -/
def Quiet (H : Host D i key) (e : Op) : Prop :=
  ∀ s, D.inv s → D.perm i s e ∧ ∀ a s', D.inv s' → Y.exec i e s a s' → H.Keeps s s'

lemma quiet_read {e : Op} (h : e.part = .nothing) : H.Quiet e := by
  refine fun s hinv => ⟨H.perm_read hinv h, fun a s' hinv' hexec => ?_⟩
  exact H.keeps_read hinv hinv' hexec h

/-- A single operation that is quiet. -/
lemma call_quiet {e : Op} (hF : H.Lasting F) (he : H.Quiet e) : D.Triple i F (issue e) fun _ => F :=
  Triple.of_all hF.stable (fun s _ hinv _ he => (he s hinv).1)
    (fun s _ a s' hinv hinv' hFs he hexec => hF s s' hinv hinv' ((he s hinv).2 a s' hinv' hexec) hFs)
    (Prog.All.lift he)

/-- An action whose operations are all quiet. -/
lemma quiet_all {x : Action β} (hF : H.Lasting F) (hx : AllE H.Quiet x) :
    D.TripleE i F x fun _ => F := by
  refine TripleE.of_all hF.stable (fun s e hinv _ he => (he s hinv).1) ?_ hx
  intro s e a s' hinv hinv' hFs he hexec
  exact hF s s' hinv hinv' ((he s hinv).2 a s' hinv' hexec) hFs

/-- An action on parts whose operations are all quiet. -/
lemma quiet {parts : List Part} {x : Action β} (hF : H.Lasting F) (hx : Touches parts x)
    (h : ∀ p ∈ parts, ∀ e : Op, e.part = p → H.Quiet e) : D.TripleE i F x fun _ => F := by
  refine quiet_all hF (Prog.All.mono hx ?_)
  rintro e (he | he)
  · exact quiet_read he
  · exact h _ he e rfl

/-- An action that changes nothing. -/
lemma silent {x : Action β} (hF : H.Lasting F) (hx : Touches [] x) : D.TripleE i F x fun _ => F :=
  quiet hF hx fun _ h => absurd h List.not_mem_nil

/-- Outcome of a write: what holds of the new version, or a server error with nothing lost. -/
def Outcome (A : S → Prop) (Q : NodeMaintenance → S → Prop) (a : Except Err NodeMaintenance) (s : S) :
    Prop :=
  (∀ b, a = .ok b → Q b s) ∧ ∀ err, a = .error err → err.fromServer = true ∧ A s

lemma Outcome.stable {Q : NodeMaintenance → S → Prop} (hA : D.Stable i A)
    (hQ : ∀ b, D.Stable i (Q b)) (a : Except Err NodeMaintenance) : D.Stable i (Outcome A Q a) :=
  Stable.outcome hQ fun _ => (Stable.const _).and hA

/-- Both outcomes of a write are looked at. -/
lemma Outcome.bind {p : Proc (Except Err NodeMaintenance)} {Q : NodeMaintenance → S → Prop}
    {f : Except Err NodeMaintenance → Action β} {Q' : β → S → Prop}
    (h : D.Triple i A p (Outcome F Q)) (hok : ∀ a, D.TripleE i (Q a) (f (.ok a)) Q')
    (herr : ∀ err, err.fromServer = true → D.TripleE i F (f (.error err)) Q') :
    D.TripleE i A (observe (ExceptT.mk p) >>= f) Q' := by
  refine TripleE.bind (TripleE.lift h) fun res => ?_
  cases res with
  | ok a => exact (hok a).pre fun s _ ho => ho.1 a rfl
  | error err =>
    exact Triple.assume (fun s _ ho => (ho.2 err rfl).1) fun he =>
      (herr err he).pre fun s _ ho => (ho.2 err rfl).2

/-- Only the answer of a write that succeeded. -/
lemma Outcome.ok {p : Proc (Except Err NodeMaintenance)} {Q : NodeMaintenance → S → Prop}
    (h : D.Triple i A p (Outcome F Q)) : D.TripleE i A (ExceptT.mk p) Q :=
  h.conseq (fun _ _ hA => hA) fun _ _ _ ho => ho.1

/-- Versions of the past stay in the history. -/
lemma Holds.call {e : Op} {s s' : S} {a : Resp e} (hinv : D.inv s) (hexec : Y.exec i e s a s')
    (h : H.Holds m s) : H.Holds m s' := by
  obtain ⟨hkey, v, hv, hm⟩ := h
  exact ⟨hkey, v, (H.perform hinv hexec).history_subset v hv, hm⟩

/-- The version in hand stays one, whatever is done meanwhile. -/
lemma frame_holds {x : Action β} {Q : β → S → Prop} (hx : D.TripleE i A x Q) :
    D.TripleE i (fun s => A s ∧ H.Holds m s) x fun b s => Q b s ∧ H.Holds m s :=
  TripleE.frame (P := fun _ => True) lasting_holds.stable
    (fun _ _ _ _ hinv _ _ hexec hm => hm.call hinv hexec) (Prog.All.of_forall (fun _ => trivial) _) hx

/-- The body is like the stored object, if it is taken. -/
lemma Holds.alike {s : S} (hinv : D.inv s) (h : H.Holds m s) (hb : Matches b m) (hal : Alike m b) :
    ∀ o, (H.world s).nms.get b.key = some o → Matches o b → Alike o b := by
  intro o ho hmat
  rw [hb.1, h.1] at ho
  obtain ⟨refs, rfl⟩ := h.stored hinv ho hmat hb.2.2
  exact hal.refs refs

section Writes
variable {Q : NodeMaintenance → S → Prop}

/-- A whole-object update of the version in hand, where `F` survives it. -/
lemma write_triple (hF : D.Stable i F) (hQ : ∀ a, D.Stable i (Q a)) (hb : Matches b m)
    (hFw : ∀ s a s', D.inv s → D.inv s' → D.perm i s (.update b) → H.Holds m s → F s →
      Y.exec i (.update b) s a s' → F s')
    (hok : ∀ s refs, D.inv s → F s →
      (H.world s).nms.get key = some { m with ownerReferences := refs } →
      H.MayUpdate s { m with ownerReferences := refs } b)
    (h : ∀ s s' refs, D.inv s → D.inv s' → F s' →
      (H.world s).nms.get key = some { m with ownerReferences := refs } →
      H.world s' = (H.world s).write
        ((H.world s).merge { m with ownerReferences := refs } b b.spec.normalize) →
      Q ((H.world s).merge { m with ownerReferences := refs } b b.spec.normalize) s') :
    D.Triple i (fun s => H.Holds m s ∧ F s) (issue (.update b))
      (Outcome (fun s => H.Holds m s ∧ F s) Q) := by
  refine .assume (fun s _ h => h.1.1) fun hkey => ?_
  have hbkey : b.key = key := hb.1.trans hkey
  have hA : D.Stable i fun s => H.Holds m s ∧ F s := lasting_holds.stable.and hF
  have hp : ∀ s, D.inv s → H.Holds m s ∧ F s → D.perm i s (.update b) := by
    intro s hinv ⟨hm, hFs⟩
    refine H.perm_update hbkey fun o ho hmat => ?_
    obtain ⟨refs, rfl⟩ := hm.stored hinv ho hmat hb.2.2
    exact hok s refs hinv hFs ho
  refine .lift hA (Outcome.stable hA hQ) hp ?_
  intro s a s' hinv hinv' hAs hexec
  have hFs' := hFw s a s' hinv hinv' (hp s hinv hAs) hAs.1 hAs.2 hexec
  have hperf := H.perform hinv hexec
  refine ⟨?_, ?_⟩
  -- the server has compared resource versions, so the stored object is the one in hand up to its owners
  · rintro a' rfl
    obtain ⟨o, spec, ho, hmat, hspec, -, rfl, hw⟩ := World.update_eq_some (WriteAnswer.ok hperf)
    obtain rfl := putSpec_eq hspec
    rw [hbkey] at ho
    obtain ⟨refs, rfl⟩ := hAs.1.stored hinv ho hmat hb.2.2
    exact h s s' refs hinv hinv' hFs' ho hw
  · rintro err rfl
    exact ⟨WriteAnswer.fromServer hperf, hAs.1.call hinv hexec, hFs'⟩

/-- A whole-object update of the version in hand. -/
lemma update_triple (hF : H.Firm F) (hQ : ∀ a, D.Stable i (Q a)) (hb : Matches b m)
    (hok : ∀ s refs, D.inv s → F s →
      (H.world s).nms.get key = some { m with ownerReferences := refs } →
      H.MayUpdate s { m with ownerReferences := refs } b)
    (h : ∀ s s' refs, D.inv s → D.inv s' → F s' →
      (H.world s).nms.get key = some { m with ownerReferences := refs } →
      H.world s' = (H.world s).write
        ((H.world s).merge { m with ownerReferences := refs } b b.spec.normalize) →
      Q ((H.world s).merge { m with ownerReferences := refs } b b.spec.normalize) s') :
    D.Triple i (fun s => H.Holds m s ∧ F s) (issue (.update b))
      (Outcome (fun s => H.Holds m s ∧ F s) Q) :=
  write_triple hF.1.stable hQ hb (fun s _ s' hinv hinv' hp _ hFs hexec =>
    hF.2 s s' hinv hinv' (H.wrote_update hinv hinv' hp hexec) hFs) hok h

/-- A status update of the version in hand, with a body like it. -/
lemma status_triple (hF : H.Lasting F) (hQ : ∀ a, D.Stable i (Q a)) (hb : Matches b m)
    (hal : Alike m b)
    (h : ∀ s s' refs, D.inv s → D.inv s' → F s' →
      (H.world s).nms.get key = some { m with ownerReferences := refs } →
      H.world s' = (H.world s).write
        ((H.world s).mergeStatus { m with ownerReferences := refs } b) →
      Q ((H.world s).mergeStatus { m with ownerReferences := refs } b) s') :
    D.Triple i (fun s => H.Holds m s ∧ F s) (issue (.statusUpdate b))
      (Outcome (fun s => H.Holds m s ∧ F s) Q) := by
  refine .assume (fun s _ h => h.1.1) fun hkey => ?_
  have hbkey : b.key = key := hb.1.trans hkey
  have hA : H.Lasting fun s => H.Holds m s ∧ F s := lasting_holds.and hF
  have hp : ∀ s, D.inv s → H.Holds m s ∧ F s → D.perm i s (.statusUpdate b) := by
    intro s hinv ⟨hm, hFs⟩
    refine H.perm_status hbkey fun o ho hmat => ?_
    obtain ⟨refs, rfl⟩ := hm.stored hinv ho hmat hb.2.2
    exact H.status_alike hinv ho (hal.refs refs)
  refine .lift hA.stable (Outcome.stable hA.stable hQ) hp ?_
  intro s a s' hinv hinv' hAs hexec
  have hkeep := H.keeps_alike hinv hinv' hexec (.inr rfl) (hAs.1.alike hinv hb hal)
  have hAs' := hA s s' hinv hinv' hkeep hAs
  have hperf := H.perform hinv hexec
  refine ⟨?_, ?_⟩
  · rintro a' rfl
    obtain ⟨o, ho, hmat, rfl, hw⟩ := World.statusUpdate_eq_some (WriteAnswer.ok hperf)
    rw [hbkey] at ho
    obtain ⟨refs, rfl⟩ := hAs.1.stored hinv ho hmat hb.2.2
    exact h s s' refs hinv hinv' hAs'.2 ho hw
  · rintro err rfl
    exact ⟨WriteAnswer.fromServer hperf, hAs'⟩

end Writes

/-- The version just written is the one in hand. -/
lemma holds_of_write {s s' : S} {o : NodeMaintenance} (hkey : o.key = key)
    (hw : H.world s' = (H.world s).write o) (hrv : o.resourceVersion = (H.world s).revision + 1) :
    H.Holds o s' := by
  refine ⟨hkey, o, ?_, rfl⟩
  have hstamp : (H.world s).stamp o = o := by rw [World.stamp, ← hrv]
  rw [hw, World.history_write, hstamp]
  exact .head _

/-- An update that any plan allows. -/
lemma update_alike_triple (hF : H.Lasting F) (hb : Matches b m) (hal : Alike m b) :
    D.Triple i (fun s => H.Holds m s ∧ F s) (issue (.update b))
      (Outcome (fun s => H.Holds m s ∧ F s) fun a s => Alike m a ∧ H.Holds a s ∧ F s) := by
  refine .assume (fun s _ h => h.1.1) fun hkey => ?_
  refine write_triple hF.stable (fun a => (Stable.const _).and (lasting_holds.and hF).stable) hb
    ?_ ?_ ?_
  · intro s a s' hinv hinv' _ hm hFs hexec
    exact hF s s' hinv hinv' (H.keeps_alike hinv hinv' hexec (.inl rfl) (hm.alike hinv hb hal)) hFs
  · exact fun s refs hinv _ ho => H.update_alike hinv ho (hal.refs refs)
  · intro s s' refs hinv hinv' hFs ho hw
    exact ⟨((hal.refs refs).merge _).of_refs, holds_of_write hkey hw rfl, hFs⟩

/-- A status update that any plan allows. Where the object is not being deleted, the new version is
stored, so that the invariant speaks about it. -/
lemma status_alike_triple {E : S → Prop} (hF : H.Lasting F) (hE : D.Stable i E) (hb : Matches b m)
    (hal : Alike m b)
    (h : ∀ s a, D.inv s → Alike m a → (m.deleting = false → (H.world s).nms.get key = some a) → E s) :
    D.Triple i (fun s => H.Holds m s ∧ F s) (issue (.statusUpdate b))
      (Outcome (fun s => H.Holds m s ∧ F s) fun a s =>
        (Alike m a ∧ a.spec = m.spec) ∧ H.Holds a s ∧ F s ∧ E s) := by
  refine .assume (fun s _ h => h.1.1) fun hkey => ?_
  refine status_triple hF
    (fun a => (Stable.const _).and (lasting_holds.stable.and (hF.stable.and hE))) hb hal ?_
  · intro s s' refs hinv hinv' hFs ho hw
    have hal' := ((hal.refs refs).mergeStatus (H.world s)).of_refs
    refine ⟨⟨hal', rfl⟩, holds_of_write hkey hw rfl, hFs, h s' _ hinv' hal' fun hdel => ?_⟩
    have hgone : NodeMaintenance.gone ((H.world s).mergeStatus { m with ownerReferences := refs } b) =
        false := by
      rw [NodeMaintenance.gone, hal'.deleting, hdel]
      rfl
    subst hkey
    rw [hw]
    exact (World.get_write_self _ _).trans (by rw [hgone]; rfl)

/-- Setting the Ready condition of an object of this name. -/
lemma setReady_stable {reason : Reason} (hA : D.Stable i A) (hkey : m.key = key)
    (hsilent : D.TripleE i A timeNow fun _ => A)
    (h : ∀ s o now, D.inv s → A s → (H.world s).nms.get key = some o → Matches o m →
      H.MayStatus s o (withReadyReason m reason "" now)) :
    D.TripleE i A (setReadyConditionReason m reason) fun _ _ => True := by
  refine TripleE.bind hsilent fun now => ?_
  dsimp only
  split
  · refine Triple.lift hA (fun _ => ?_) ?_ ?_
    · exact fun _ _ _ _ _ _ _ _ => trivial
    · exact fun s hinv hAs => H.perm_status hkey fun o ho hm => h s o now hinv hAs ho hm
    · intros
      trivial
  · exact .pure hA fun _ _ _ => trivial

/-- Setting the Ready condition of the version in hand. -/
lemma setReady_triple {reason : Reason} (hF : H.Lasting F)
    (h : ∀ s refs now, D.inv s → F s →
      (H.world s).nms.get key = some { m with ownerReferences := refs } →
      H.MayStatus s { m with ownerReferences := refs } (withReadyReason m reason "" now)) :
    D.TripleE i (fun s => H.Holds m s ∧ F s) (setReadyConditionReason m reason) fun _ _ => True := by
  refine Triple.assume (fun s _ h => h.1.1) fun hkey => ?_
  have hA := (lasting_holds (m := m)).and hF
  refine setReady_stable (H := H) hA.stable hkey (silent hA ⟨.inl rfl, fun _ => trivial⟩) ?_
  intro s o now hinv ⟨hm, hFs⟩ ho hmat
  obtain ⟨refs, rfl⟩ := hm.stored hinv ho hmat rfl
  exact h s refs now hinv hFs ho

/-- The outcome of an action, error or not, is passed on. -/
lemma liftExcept_triple {res : Except Err β} {Q : β → S → Prop} (hQ : ∀ a, D.Stable i (Q a)) :
    D.TripleE i (fun s => ∀ a, res = .ok a → Q a s) (liftExcept res : Action β) Q := by
  cases res with
  | ok a => exact TripleE.pre (.pure (hQ a) fun _ _ h => h) fun s _ h => h a rfl
  | error err => exact .throw

/-- An action under the mutex. -/
lemma withLock_triple {B : S → Prop} {x : Action β} {P : Except Err β → S → Prop} {Q : β → S → Prop}
    (hQ : ∀ a, D.Stable i (Q a)) (hlock : D.Triple i A (issue .lock) fun _ => B)
    (hx : D.Triple i B x.run P)
    (hunlock : ∀ res, D.Triple i (P res) (issue .unlock) fun _ s => ∀ a, res = .ok a → Q a s) :
    D.TripleE i A (withLock x) Q :=
  TripleE.bind (TripleE.lift hlock) fun _ => TripleE.bind (TripleE.lift hx) fun res =>
    TripleE.bind (TripleE.lift (hunlock res)) fun _ => liftExcept_triple hQ

/-- An action under the mutex, in a plan that does not look at it. -/
lemma withLock_quiet {x : Action β} {Q : β → S → Prop} (hA : H.Lasting A) (hQ : ∀ b, H.Lasting (Q b))
    (hmutex : ∀ {e : Op}, e.part = .mutex → H.Quiet e) (hx : D.TripleE i A x Q) :
    D.TripleE i A (withLock x) Q := by
  refine withLock_triple (fun b => (hQ b).stable) (call_quiet hA (hmutex rfl)) hx fun res => ?_
  exact call_quiet (Lasting.ok hQ) (hmutex rfl)

/-- Polling the object keeps what lasts; `K` is what each of the reads tells. -/
lemma pollNodeMaintenance_triple {checkFn : NodeMaintenance → Bool} {K : NodeMaintenance → Prop}
    (hF : H.Lasting F)
    (hK : ∀ s a s', D.inv s → F s → Y.exec i (.getNodeMaintenance key) s (.ok a) s' → K a) (n : Nat) :
    D.TripleE i F (waitForObjectUpdate (Client.getNodeMaintenance key) checkFn n)
      fun a s => K a ∧ F s := by
  have hread : D.TripleE i F (Client.getNodeMaintenance key) fun a s => K a ∧ F s := by
    refine Triple.lift hF.stable (fun _ => Stable.ok fun _ => (Stable.const _).and hF.stable) ?_ ?_
    · exact fun s hinv _ => H.perm_read hinv rfl
    · rintro s res s' hinv hinv' hFs hexec a rfl
      exact ⟨hK s a s' hinv hFs hexec, hF s s' hinv hinv' (H.keeps_read hinv hinv' hexec rfl) hFs⟩
  induction n with
  | zero => exact .throw
  | succ n ih =>
    refine hread.bind fun a => TripleE.of_pure fun ha => ?_
    split
    · exact .pure hF.stable fun s _ h => ⟨ha, h⟩
    · exact ih

/-- What is learnt when the object is read. -/
lemma getNodeMaintenance_triple {K : NodeMaintenance → S → Prop} (hK : ∀ m, H.Lasting (K m))
    (h : ∀ s m s', D.inv s → D.inv s' → Y.exec i (.getNodeMaintenance key) s (.ok m) s' → K m s') :
    D.TripleE i (fun _ => True) (observe (Client.getNodeMaintenance key))
      fun res s => ∀ m, res = .ok m → K m s := by
  refine TripleE.lift (Triple.lift (Stable.const _) (fun _ => Stable.ok fun m => (hK m).stable)
    (fun s hinv _ => H.perm_read hinv rfl) ?_)
  rintro s _ s' hinv hinv' - hexec m rfl
  exact h s m s' hinv hinv' hexec

/-- What is learnt when the node is read, or is missing. -/
lemma getNode_triple {N : S → Prop} {K : Node → S → Prop} {name : String} (hA : H.Lasting A)
    (hN : H.Lasting N) (hK : ∀ node, H.Lasting (K node))
    (hgone : ∀ s s', D.inv s → D.inv s' → A s → Y.exec i (.getNode name) s (.error .notFound) s' → N s')
    (h : ∀ s node s', D.inv s → D.inv s' → A s → Y.exec i (.getNode name) s (.ok node) s' → K node s') :
    D.TripleE i A (observe (Client.getNode name)) fun res s =>
      (res = .error .notFound → N s) ∧ ∀ node, res = .ok node → K node s := by
  refine TripleE.lift (Triple.lift hA.stable
    (fun _ => hN.stable.imp.and (Stable.ok fun node => (hK node).stable))
    (fun s hinv _ => H.perm_read hinv rfl) ?_)
  intro s res s' hinv hinv' hAs hexec
  refine ⟨?_, ?_⟩
  · rintro rfl
    exact hgone s s' hinv hinv' hAs hexec
  · rintro node rfl
    exact h s node s' hinv hinv' hAs hexec

/-! ### Finalizers -/

section Removal
variable (hF : H.Lasting F)
  (hok : ∀ s refs, D.inv s → F s →
    (H.world s).nms.get key = some { m with ownerReferences := refs } →
    H.MayUpdate s { m with ownerReferences := refs }
      { m with finalizers := m.finalizers.erase maintenanceFinalizerName })
include hF hok

/-- The finalizer comes off where the plan allows it. -/
lemma removeFinalizer_triple :
    D.TripleE i (fun s => H.Holds m s ∧ F s) (removeFinalizer m maintenanceFinalizerName)
      fun _ _ => True := by
  refine Triple.assume (fun s _ h => h.1.1) fun hkey => ?_
  have hA := (lasting_holds (m := m)).and hF
  unfold removeFinalizer
  split
  · refine Triple.lift hA.stable (fun _ => ?_) (fun s hinv h => ?_) ?_
    · exact fun _ _ _ _ _ _ _ _ => trivial
    · refine H.perm_update hkey fun o ho hmat => ?_
      obtain ⟨refs, rfl⟩ := h.1.stored hinv ho hmat rfl
      exact hok s refs hinv h.2 ho
    · intros
      trivial
  · exact TripleE.pure hA.stable fun _ _ _ => trivial

lemma handleFinalizerRemoval_triple :
    D.TripleE i (fun s => H.Holds m s ∧ F s) (handleFinalizerRemoval m) fun _ _ => True :=
  TripleE.bind (removeFinalizer_triple hF hok) fun _ => .pure (Stable.const _) fun _ _ h => h

end Removal

/-- `AddFinalizer`: the version that it leaves differs in its finalizers only, and `E` holds because the
stored object carries the finalizer, be it that it did before (`L`). -/
lemma addFinalizer_triple {L E : S → Prop} (hF : H.Firm F) (hL : H.Lasting L) (hE : D.Stable i E)
    (hok : ∀ s refs, D.inv s → (H.world s).nms.get key = some { m with ownerReferences := refs } →
      H.MayUpdate s { m with ownerReferences := refs }
        { m with finalizers := m.finalizers ++ [maintenanceFinalizerName] })
    (hold : Guarded m → ∀ s, L s → E s)
    (hnew : ∀ s a, F s → (H.world s).nms.get key = some a → Guarded a →
      Alike { m with finalizers := a.finalizers } a → E s) :
    D.TripleE i (fun s => H.Holds m s ∧ F s ∧ L s) (addFinalizer m maintenanceFinalizerName) fun a s =>
      (Guarded a ∧ Alike { m with finalizers := a.finalizers } a) ∧ H.Holds a s ∧ F s ∧ E s := by
  refine Triple.assume (fun s _ h => h.1.1) fun hkey => ?_
  unfold addFinalizer
  split
  · rename_i hg
    exact TripleE.pure (lasting_holds.and (hF.1.and hL)).stable fun s _ h =>
      ⟨⟨hg, .refl m⟩, h.1, h.2.1, hold hg s h.2.2⟩
  · refine TripleE.pre (Outcome.ok (update_triple (m := m) hF
      (fun a => (Stable.const _).and (lasting_holds.stable.and (hF.1.stable.and hE))) ⟨rfl, rfl, rfl⟩
      (fun s refs hinv _ ho => hok s refs hinv ho) ?_)) fun s _ h => ⟨h.1, h.2.1⟩
    intro s s' refs hinv hinv' hFs ho hw
    -- the answer is the stored version, with the new finalizer in it
    have hg : Guarded ((H.world s).merge { m with ownerReferences := refs }
        { m with finalizers := m.finalizers ++ [maintenanceFinalizerName] } m.spec.normalize) :=
      List.mem_append_right _ (.head _)
    have hal : Alike { m with finalizers := m.finalizers ++ [maintenanceFinalizerName] }
        ((H.world s).merge { m with ownerReferences := refs }
          { m with finalizers := m.finalizers ++ [maintenanceFinalizerName] } m.spec.normalize) :=
      ⟨rfl, rfl, rfl, rfl, rfl, rfl, rfl, rfl, rfl, fun _ => rfl⟩
    refine ⟨⟨hg, hal⟩, holds_of_write hkey hw rfl, hFs, hnew s' _ hFs ?_ hg hal⟩
    subst hkey
    rw [hw]
    exact (World.get_write_self _ _).trans (by rw [hg.not_gone]; rfl)

/-! ### The annotations of the object -/

/-- `a` is like `m` up to the annotations. -/
def Reannotated (m a : NodeMaintenance) : Prop := Alike { m with annotations := a.annotations } a

section Annotations
variable (hF : H.Firm F)
  (hok : ∀ s refs l, D.inv s → F s →
    (H.world s).nms.get key = some { m with ownerReferences := refs } →
    H.MayUpdate s { m with ownerReferences := refs } { m with annotations := l })
include hF hok

lemma annotate_triple (l : GoMap String) :
    D.TripleE i (fun s => H.Holds m s ∧ F s) (Client.update { m with annotations := l })
      fun a s => Reannotated m a ∧ H.Holds a s ∧ F s := by
  refine Triple.assume (fun s _ h => h.1.1) fun hkey => ?_
  refine Outcome.ok (update_triple (m := m) hF (fun a => (Stable.const _).and
    (lasting_holds.and hF.1).stable) ⟨rfl, rfl, rfl⟩ (fun s refs => hok s refs l) ?_)
  intro s s' refs _ _ hFs _ hw
  exact ⟨⟨rfl, rfl, rfl, rfl, rfl, rfl, rfl, rfl, rfl, fun _ => rfl⟩, holds_of_write hkey hw rfl, hFs⟩

/-- `HandleCordon`, in a plan that looks at neither the annotation nor the flag. -/
lemma handleCordon_triple (hpatch : H.Quiet (.patchUnschedulable node.name true)) :
    D.TripleE i (fun s => H.Holds m s ∧ F s) (handleCordon m node)
      fun a s => Reannotated m a ∧ H.Holds a s ∧ F s := by
  have hA : ∀ a, H.Lasting fun s => Reannotated m a ∧ H.Holds a s ∧ F s :=
    fun a => (Lasting.const _).and (lasting_holds.and hF.1)
  have hrecord : D.TripleE i (fun s => H.Holds m s ∧ F s) (recordInitialState m node)
      fun a s => Reannotated m a ∧ H.Holds a s ∧ F s := by
    unfold recordInitialState
    split
    · exact annotate_triple hF hok _
    · exact .pure (lasting_holds.and hF.1).stable fun s _ h => ⟨.refl m, h⟩
  refine hrecord.bind fun a => ?_
  split
  · refine TripleE.bind (quiet_all (hA a) (runCordonOrUncordon_all hpatch)) fun _ => ?_
    exact .pure (hA a).stable fun _ _ h => h
  · exact .pure (hA a).stable fun _ _ h => h

/-- The cordon step of the handler of phase Cordon. -/
lemma cordonStep_triple (hpatch : H.Quiet (.patchUnschedulable node.name true)) :
    D.TripleE i (fun s => H.Holds m s ∧ F s) (if m.spec.cordon then handleCordon m node else pure m)
      fun a s => Reannotated m a ∧ H.Holds a s ∧ F s := by
  split
  · exact handleCordon_triple hF hok hpatch
  · exact .pure (lasting_holds.and hF.1).stable fun s _ h => ⟨.refl m, h⟩

/-- The uncordon step of the delete paths, given what the patch of the node does. -/
lemma uncordonStep_triple
    (hrun : D.TripleE i (fun s => H.Holds m s ∧ F s) (runCordonOrUncordon node false)
      fun _ s => H.Holds m s ∧ F s) :
    D.TripleE i (fun s => H.Holds m s ∧ F s) (if m.spec.cordon then handleUnCordon m node else pure m)
      fun a s => Reannotated m a ∧ H.Holds a s ∧ F s := by
  have hA := (lasting_holds (m := m)).and hF.1
  have hdrop : D.TripleE i (fun s => H.Holds m s ∧ F s) (dropInitialState m)
      fun a s => Reannotated m a ∧ H.Holds a s ∧ F s := by
    unfold dropInitialState
    split
    · exact annotate_triple hF hok _
    · exact .pure hA.stable fun s _ h => ⟨.refl m, h⟩
  unfold handleUnCordon
  split
  · split
    · exact hrun.bind fun _ => hdrop
    · exact hdrop
  · exact .pure hA.stable fun s _ h => ⟨.refl m, h⟩

end Annotations

/-! ### Pausing the pool -/

/-- Labelling the object comes down to one update; `K` is what the reads after it tell. -/
lemma setMCPLabel_triple {G : S → Prop} {K : NodeMaintenance → Prop} {name : String} (hF : H.Lasting F)
    (hG : H.Lasting G) (hskip : mcpLabel m = name → ∀ s, H.Holds m s → F s → K m ∧ G s)
    (hK : ∀ s a s', D.inv s → G s → Y.exec i (.getNodeMaintenance key) s (.ok a) s' → K a)
    (h : D.TripleE i (fun s => H.Holds m s ∧ F s)
      (Client.update { m with labels := m.labels.set mcpNameLabelKey name })
      fun a s => a.key = key ∧ G s) :
    D.TripleE i (fun s => H.Holds m s ∧ F s) (setMCPLabel m name) fun a s => K a ∧ G s := by
  unfold setMCPLabel
  split
  · refine TripleE.bind (TripleE.adapt h) fun a => TripleE.of_pure fun ha => ?_
    rw [ha]
    exact TripleE.adapt (pollNodeMaintenance_triple hG hK _)
  · rename_i hname
    exact .pure (lasting_holds.and hF).stable fun s _ h => hskip (not_not.mp hname) s h.1 h.2

/-- `PauseMCP` comes down to what it does under the mutex, in a plan that does not look at the mutex. -/
lemma pauseMCP_of_locked {C : NodeMaintenance → S → Prop} (hA : H.Lasting A) (hC : ∀ a, H.Lasting (C a))
    (hquiet : ∀ {e : Op}, e.part = .mutex ∨ e.part = .notes → H.Quiet e)
    (h : D.TripleE i A (pauseLocked node m) C) : D.TripleE i A (pauseMCP node m) C := by
  refine withLock_quiet hA hC (fun he => hquiet (.inl he))
    (TripleE.bind (TripleE.lift h) fun res => ?_)
  exact TripleE.bind (TripleE.lift (call_quiet (Lasting.ok hC) (hquiet (.inr rfl)))) fun _ =>
    liftExcept_triple fun a => (hC a).stable

/-- And to labelling the object, in a plan that does not look at the pools either. -/
lemma pauseMCP_of_label {C : NodeMaintenance → S → Prop} (hA : H.Lasting A) (hC : ∀ a, H.Lasting (C a))
    (hquiet : ∀ {e : Op}, e.part = .mutex ∨ e.part = .pools ∨ e.part = .notes → H.Quiet e)
    (h : ∀ name, D.TripleE i A (setMCPLabel m name) C) : D.TripleE i A (pauseMCP node m) C := by
  refine pauseMCP_of_locked hA hC (fun he => hquiet (he.imp_right .inr)) ?_
  refine TripleE.bind (silent hA (.wrapErr getMCPName_touches)) fun name => ?_
  refine (h name).bind fun a => ?_
  refine TripleE.bind (quiet (hC a) pausePool_touches fun p hp e he => hquiet ?_) fun _ => ?_
  · exact .inr (.inl (he.trans (List.mem_singleton.mp hp)))
  · exact .pure (hC a).stable fun _ _ h => h

/-- The same where only the update of the label matters. -/
lemma pauseMCP_triple (hF : H.Lasting F)
    (hquiet : ∀ {e : Op}, e.part = .mutex ∨ e.part = .pools ∨ e.part = .notes → H.Quiet e)
    (h : ∀ name, D.TripleE i (fun s => H.Holds m s ∧ F s)
      (Client.update { m with labels := m.labels.set mcpNameLabelKey name })
      fun a s => a.key = key ∧ F s) :
    D.TripleE i (fun s => H.Holds m s ∧ F s) (pauseMCP node m) fun a s => a.key = key ∧ F s := by
  refine pauseMCP_of_label (lasting_holds.and hF) (fun a => (Lasting.const _).and hF) hquiet fun name => ?_
  refine setMCPLabel_triple (K := fun a => a.key = key) hF hF (fun _ s hm hFs => ⟨hm.1, hFs⟩) ?_ (h name)
  exact fun s a s' hinv _ hexec => (H.perform hinv hexec).2.2

/-! ### Functions that every plan allows -/

lemma setOwnerRef_triple (hF : H.Lasting F) :
    D.TripleE i (fun s => H.Holds m s ∧ F s) (setOwnerRef node m)
      fun p s => Alike m p.1 ∧ H.Holds p.1 s ∧ F s := by
  have hA := (lasting_holds (m := m)).and hF
  refine Outcome.bind (update_alike_triple (m := m) hF ⟨rfl, rfl, rfl⟩ ?_) (fun a => ?_) fun err _ => ?_
  · exact ⟨rfl, rfl, rfl, rfl, rfl, rfl, rfl, rfl, rfl, id⟩
  · exact .pure ((Stable.const _).and (lasting_holds.and hF).stable) fun s _ h => h
  · -- the caller goes on with the reference that was not stored
    refine .pure hA.stable ?_
    rintro s - ⟨⟨hkey, v, hv, e⟩, hFs⟩
    refine ⟨⟨rfl, rfl, rfl, rfl, rfl, rfl, rfl, rfl, rfl, id⟩, ⟨hkey, v, hv, ?_⟩, hFs⟩
    rw [e]

lemma setReadyTime_triple {r : Reconciler} (hF : H.Lasting F) :
    D.TripleE i (fun s => H.Holds m s ∧ F s) (r.setReadyTime m)
      fun a s => Alike m a ∧ H.Holds a s ∧ F s := by
  have hA := (lasting_holds (m := m)).and hF
  unfold setReadyTime
  split
  · refine TripleE.bind (silent hA ⟨.inl rfl, fun _ => trivial⟩) fun now => ?_
    exact Outcome.ok (update_alike_triple hF ⟨rfl, rfl, rfl⟩
      (.of_annotations (GoMap.get?_set_ne _ (by decide))))
  · exact .pure hA.stable fun s _ h => ⟨.refl m, h⟩

/-- Unless it failed with an API error, `HandlePodCompletion` leaves a version in hand. -/
def Settled (H : Host D i key) (m : NodeMaintenance) (p : NodeMaintenance × Except Err (List String))
    (s : S) : Prop :=
  (∀ err, p.2 = .error err → err.is .errPodCompletionTimeout = true) → Alike m p.1 ∧ H.Holds p.1 s

variable {p : NodeMaintenance × Except Err (List String)} {s : S}

lemma lasting_settled : H.Lasting (H.Settled m p) :=
  fun s s' hi hi' hk h hp => ⟨(h hp).1, lasting_holds s s' hi hi' hk (h hp).2⟩

/-- An API error, wrapped or not, promises nothing. -/
lemma settled_of_server {err : Err} (h : p.2 = .error err)
    (he : err.is .errPodCompletionTimeout = false) : H.Settled m p s :=
  fun hp => by rw [hp err h] at he; cases he

lemma Settled.of_alike {a : NodeMaintenance} (h : H.Settled a p s) (hal : Alike m a) :
    H.Settled m p s :=
  fun hp => ⟨hal.trans (h hp).1, (h hp).2⟩

lemma waitForPods_triple {r : Reconciler} {startTime : Nat} (hF : H.Lasting F) :
    D.TripleE i (fun s => H.Holds m s ∧ F s) (waitForPods r.formats m startTime)
      fun p s => H.Settled m p s ∧ F s := by
  have hA := (lasting_holds (m := m)).and hF
  unfold waitForPods
  split
  · exact .throw
  · rename_i spec _
    refine TripleE.bind (silent hA ?_) fun expired => ?_
    · exact .ite (.bind ⟨.inl rfl, fun _ => trivial⟩ fun _ => .pure) .pure
    · split
      · exact .pure hA.stable fun s _ h => ⟨fun _ => ⟨.refl m, h.1⟩, h.2⟩
      · split
        · refine TripleE.bind (silent hA ⟨.inl rfl, fun _ => trivial⟩) fun res => ?_
          cases res with
          | error err => exact .pure hA.stable fun s _ h => ⟨fun _ => ⟨.refl m, h.1⟩, h.2⟩
          | ok pods =>
            refine Outcome.bind (status_alike_triple (m := m) (E := fun _ => True) hF (Stable.const _)
              ⟨rfl, rfl, rfl⟩ (.of_status rfl) fun _ _ _ _ _ => trivial)
              (fun a => TripleE.of_pure fun hal => ?_) fun err he => ?_
            · refine .pure (lasting_holds.and (hF.and (Lasting.const _))).stable fun s _ h => ?_
              exact ⟨fun _ => ⟨hal.1, h.1⟩, h.2.1⟩
            · refine .pure hA.stable fun s _ h => ⟨settled_of_server rfl ?_, h.2⟩
              simp [Err.is, Err.is_timeout_of_fromServer he]
        · exact .pure hA.stable fun s _ h => ⟨fun _ => ⟨.refl m, h.1⟩, h.2⟩

lemma handlePodCompletion_triple {r : Reconciler} (hF : H.Lasting F) :
    D.TripleE i (fun s => H.Holds m s ∧ F s) (handlePodCompletion r.formats m)
      fun p s => H.Settled m p s ∧ F s := by
  have hA := (lasting_holds (m := m)).and hF
  unfold handlePodCompletion
  dsimp only
  split
  · refine TripleE.bind (silent hA ⟨.inl rfl, fun _ => trivial⟩) fun startTime => ?_
    refine Outcome.bind (update_alike_triple (m := m) hF ⟨rfl, rfl, rfl⟩
      (.of_annotations (GoMap.get?_set_ne _ (by decide)))) (fun a => TripleE.of_pure fun hal => ?_)
      fun err he => ?_
    · exact (waitForPods_triple hF).conseq (fun s _ h => h) fun p s _ h => ⟨h.1.of_alike hal, h.2⟩
    · refine .pure hA.stable fun s _ h => ⟨settled_of_server rfl ?_, h.2⟩
      exact Err.is_timeout_of_fromServer he
  · split
    · exact waitForPods_triple hF
    · refine Outcome.bind (update_alike_triple (m := m) hF ⟨rfl, rfl, rfl⟩
        (.of_annotations (GoMap.get?_delete_ne (by decide)))) (fun a => ?_) fun err he => ?_
      · refine .pure ((Stable.const _).and (lasting_holds.and hF).stable) fun s _ h => ?_
        exact ⟨settled_of_server rfl rfl, h.2.2⟩
      · exact .pure hA.stable fun s _ h => ⟨settled_of_server rfl rfl, h.2⟩

/-- `updateDrainStatus`, on the version in hand or a copy with another drain status. -/
lemma updateDrainStatus_triple {n : NodeMaintenance} {req : Nat} {E : S → Prop} (hF : H.Lasting F)
    (hE : D.Stable i E) (hn : Matches n m) (hal : Alike m n)
    (h : ∀ s a, D.inv s → Alike m a → (m.deleting = false → (H.world s).nms.get key = some a) → E s) :
    D.TripleE i (fun s => H.Holds m s ∧ F s) (updateDrainStatus n req) fun a s =>
      (Alike m a ∧ a.spec = m.spec) ∧ H.Holds a s ∧ F s ∧ E s := by
  have hA := (lasting_holds (m := m)).and hF
  refine TripleE.bind (silent hA (.wrapErr podsToDelete_touches)) fun pods => ?_
  refine TripleE.bind (silent hA currentDrainStatus_touches) fun drain => ?_
  exact TripleE.adapt (Outcome.ok (status_alike_triple hF hE hn (hal.trans (.of_status rfl)) h))

lemma clearDrainStatus_triple (hF : H.Lasting F) :
    D.TripleE i (fun s => H.Holds m s ∧ F s) (clearDrainStatus m) fun a s =>
      (Alike m a ∧ a.spec = m.spec) ∧ H.Holds a s ∧ F s := by
  unfold clearDrainStatus
  split
  · refine TripleE.conseq (Outcome.ok (status_alike_triple (m := m) (E := fun _ => True) hF
      (Stable.const _) ⟨rfl, rfl, rfl⟩ (.of_status rfl) fun _ _ _ _ _ => trivial)) (fun _ _ h => h) ?_
    exact fun a s _ h => ⟨h.1, h.2.1, h.2.2.1⟩
  · exact .pure (lasting_holds.and hF).stable fun s _ h => ⟨⟨.refl m, rfl⟩, h⟩

end Host
end MaintenanceOperator
