import MaintenanceOperator.Controller.Flow
import MaintenanceOperator.Lib.Script
import MaintenanceOperator.Openshift.Assignment

/-!
# A pause is released in the end

The controller works on one NodeMaintenance at a time. Whoever holds a pool paused is to be seen from
the objects: a pool with the operator's annotation should have an object with the finalizer and the name
of the pool as its label, for it is the cleanup of that object that releases the pool. The check in
`UnpauseMCP` goes by the nodes that the selector of the pool matches, and takes any labelled object on
such a node for another user of the pool. Where selectors overlap, this may be an object of another pool:
then the pause is left to it and nobody takes it back (`pause_leaked_by_overlap`). In runs in which the
labelled objects on the nodes of a paused pool are its own and have the finalizer whenever the check is
made, no pause is leaked (`paused_pool_has_holder`).
-/

namespace MaintenanceOperator
open Lib Discipline Reconciler Host

/-- The controller on a fixed assignment, one reconcile at a time; the calls taken into account are those
that pass the gate. -/
def sequential (formats : Formats) (A : Assignment) (gate : World → Op → Prop) :
    System Unit Op Resp World (Except Err Result) where
  exec _ e w a w' := Perform .current e w a w' ∧ gate w e
  env c w' := Happens c.state w' ∧ LeavesPools c.state w' ∧ Assigned A w'
  body _ p := ∃ key, p = (Reconciler.reconcile ⟨true, formats⟩ key).run

/-- The labelled objects on the nodes that the selector of an annotated pool matches are objects of this
pool, and have the finalizer. -/
def Apart (w : World) : Prop :=
  ∀ name p, w.pools.get name = some p → p.annotated = true → ∀ k o node, w.nms.get k = some o →
    mcpLabel o ≠ "" → w.nodes.get o.spec.nodeName = some node →
    selectorAccepts p.nodeSelector node.labels = true → mcpLabel o = name ∧ Guarded o

/-- That is so whenever the nodes of a pool are listed. -/
def ListsApart (w : World) (e : Op) : Prop := ∀ matching, e = .listNodes matching → Apart w

/-- An object whose cleanup can release the pool. -/
def Holder (w : World) (name : String) (k : NamespacedName) (o : NodeMaintenance) : Prop :=
  w.nms.get k = some o ∧ Guarded o ∧ mcpLabel o = name

/-- Annotated pools have a holder, and labels agree with the assignment. -/
structure PoolsHeld (A : Assignment) (w : World) : Prop where
  consistent : Consistent w
  assigned : Assigned A w
  held : ∀ {name p}, w.pools.get name = some p → p.annotated = true →
    name ≠ "" ∧ ∃ k o, Holder w name k o
  label : ∀ {k o}, w.nms.get k = some o → mcpLabel o ≠ "" →
    A.pool o.spec.nodeName = some (mcpLabel o) ∧ (w.nodes.get o.spec.nodeName).isSome = true

/-- The invariant: the paused pools are annotated, but for those that somebody else has paused. -/
structure ReleaseInv (A : Assignment) (foreign : String → Prop) (w : World) : Prop
    extends PoolsHeld A w where
  paused : ∀ {name p}, w.pools.get name = some p → p.paused = true → p.annotated = true ∨ foreign name

/-- The pool can do without the object with this name. -/
def Freed (key : NamespacedName) (name : String) (w : World) : Prop :=
  (∀ p, w.pools.get name = some p → p.annotated = false) ∨ ∃ k o, k ≠ key ∧ Holder w name k o

/-- An update labels an object with its own pool, and takes the finalizer off one that its pool can do
without. -/
structure LabelOk (A : Assignment) (w : World) (o b : NodeMaintenance) : Prop where
  label : mcpLabel b = mcpLabel o ∨
    A.pool o.spec.nodeName = some (mcpLabel b) ∧ (w.nodes.get o.spec.nodeName).isSome = true
  release : Guarded o → Guarded b ∨ (mcpLabel o ≠ "" → Freed o.key (mcpLabel o) w)

/-- Permissions. -/
def releasePerm (A : Assignment) (w : World) : Op → Prop
  | .update b => ∀ o, w.nms.get b.key = some o → Matches o b → LabelOk A w o b
  | .patchMachineConfigPool name true => name ≠ "" ∧ ∃ k o, Holder w name k o
  | _ => True

/-- What is kept by the moves of the others and by writes that make no difference. -/
structure ReleaseRely (w w' : World) : Prop where
  history : ∀ v ∈ w.history, v ∈ w'.history
  node : ∀ {n}, (w.nodes.get n).isSome = true → (w'.nodes.get n).isSome = true
  pool : ∀ {name p'}, w'.pools.get name = some p' → p'.annotated = true →
    ∃ p, w.pools.get name = some p ∧ p.annotated = true
  stands : ∀ {k o}, w.nms.get k = some o → Guarded o → ∃ o', w'.nms.get k = some o' ∧
    Guarded o' ∧ o'.uid = o.uid ∧ mcpLabel o' = mcpLabel o
  labelled : ∀ {k o'}, w'.nms.get k = some o' → mcpLabel o' ≠ "" → ∃ o, w.nms.get k = some o ∧
    mcpLabel o = mcpLabel o' ∧ o.spec.nodeName = o'.spec.nodeName ∧ (Guarded o → Guarded o')

section Calls
variable {A : Assignment} {foreign : String → Prop} {key : NamespacedName} {w w' : World} {e : Op}
  {a : Resp e} {o o' b : NodeMaintenance} {name : String}

/-- The label of a stored object after a permitted call. -/
lemma PoolsHeld.label_call (h : PoolsHeld A w) (hp : releasePerm A w e)
    (hperf : Perform .current e w a w') {k : NamespacedName} (ho' : w'.nms.get k = some o')
    (hl : mcpLabel o' ≠ "") :
    A.pool o'.spec.nodeName = some (mcpLabel o') ∧ (w'.nodes.get o'.spec.nodeName).isSome = true := by
  suffices hbefore : A.pool o'.spec.nodeName = some (mcpLabel o') ∧
      (w.nodes.get o'.spec.nodeName).isSome = true from
    ⟨hbefore.1, hperf.node_after hbefore.2⟩
  rcases hperf.stored ho' with hk | ⟨o, ho, hrw⟩
  · exact h.label hk hl
  · cases hrw with
    | @update b hm hname =>
      have hob : w.nms.get b.key = some o := by
        rw [← hm.1, Store.key_of_get ho]
        exact ho
      have hn : (w.stamp (w.merge o b b.spec.normalize)).spec.nodeName = o.spec.nodeName := hname
      have hlb : mcpLabel (w.stamp (w.merge o b b.spec.normalize)) = mcpLabel b := rfl
      rw [hn]
      rw [hlb] at hl ⊢
      -- the update keeps the label, or writes the pool of the object's node
      rcases (hp o hob hm).label with e | hnew
      · rw [e] at hl ⊢
        exact h.label ho hl
      · exact hnew
    | statusUpdate hm =>
      have hold := h.label ho hl
      exact hold

/-- A holder after a permitted call. -/
lemma PoolsHeld.holder_call (h : PoolsHeld A w) (hp : releasePerm A w e)
    (hperf : Perform .current e w a w') (hne : name ≠ "") {k : NamespacedName}
    (hholder : Holder w name k o) :
    (∃ k o', Holder w' name k o') ∨
      e.part = .nodeMaintenances ∧ ∀ p, w.pools.get name = some p → p.annotated = false := by
  obtain ⟨ho, hg, hl⟩ := hholder
  rcases hperf.kept ho with hk | ⟨o', hrw, hk⟩
  · exact .inl ⟨k, o, hk, hg, hl⟩
  · cases hrw with
    | @update b hm hname =>
      have hkey := Store.key_of_get ho
      have hob : w.nms.get b.key = some o := by
        rw [← hm.1, hkey]
        exact ho
      have hok := hp o hob hm
      rcases hok.release hg with hgb | hfree
      · have hg' : Guarded (w.stamp (w.merge o b b.spec.normalize)) := hgb
        rw [hg'.not_gone] at hk
        refine .inl ⟨k, _, hk, hg', ?_⟩
        -- a labelled object has the label of its pool, so the label does not change
        rcases hok.label with e | ⟨hpool, -⟩
        · exact e.trans hl
        · have hold := (h.label ho (hl ▸ hne)).1
          exact (Option.some.inj (hpool.symm.trans hold)).trans hl
      · rw [hl] at hfree
        rcases hfree hne with hpool | ⟨k₁, o₁, hk₁, ho₁, hg₁, hl₁⟩
        · exact .inr ⟨rfl, hpool⟩
        · rcases hperf.kept ho₁ with hsame | ⟨o₂, hrw₂, -⟩
          · exact .inl ⟨k₁, o₁, hsame, hg₁, hl₁⟩
          · cases hrw₂ with
            | update hm₂ _ =>
              exact absurd ((Store.key_of_get ho₁).symm.trans (hm₂.1.trans hm.1.symm)) hk₁
    | @statusUpdate b hm =>
      have hg' : Guarded (w.stamp (w.mergeStatus o b)) := hg
      rw [hg'.not_gone] at hk
      exact .inl ⟨k, _, hk, hg', hl⟩

/-- A permitted call keeps the invariant. -/
lemma ReleaseInv.call (h : ReleaseInv A foreign w) (hp : releasePerm A w e)
    (hperf : Perform .current e w a w') : ReleaseInv A foreign w' := by
  refine ⟨⟨hperf.consistent h.consistent, h.assigned.call hperf, fun {name p'} hp' hann => ?_,
    h.label_call hp hperf⟩, fun {name p'} hp' hpaused => ?_⟩
  · obtain ⟨p, hpool, hcases⟩ := hperf.pool_before hp'
    have hbefore : name ≠ "" ∧ ∃ k o, Holder w name k o := by
      rcases hcases with rfl | ⟨pause, rfl, rfl⟩
      · exact h.held hpool hann
      · cases pause with
        | true => exact hp
        | false => simp at hann
    obtain ⟨hne, k, o, hholder⟩ := hbefore
    refine ⟨hne, (h.holder_call hp hperf hne hholder).resolve_right ?_⟩
    rintro ⟨hpart, hfree⟩
    rcases hcases with rfl | ⟨pause, rfl, -⟩
    · exact Bool.false_ne_true ((hfree _ hpool).symm.trans hann)
    · cases hpart
  · obtain ⟨p, hpool, rfl | ⟨pause, -, rfl⟩⟩ := hperf.pool_before hp'
    · exact h.paused hpool hpaused
    · exact .inl (by simpa using hpaused)

/-- A labelled object was there before with the same label. -/
lemma labelled_before (hc : Happens w w') (hl : LeavesPools w w') {k : NamespacedName}
    (ho' : w'.nms.get k = some o') (hne : mcpLabel o' ≠ "") :
    ∃ o, w.nms.get k = some o ∧ mcpLabel o = mcpLabel o' ∧ Trails o o' := by
  rcases hl.label ho' with ⟨o, ho, e⟩ | ⟨-, e⟩
  · rcases hc.stored ho' with ⟨o₁, ho₁, htr⟩ | hnew
    · obtain rfl := Option.some.inj (ho₁.symm.trans ho)
      exact ⟨o₁, ho, e.symm, htr⟩
    · rw [hnew.free] at ho
      cases ho
  · exact absurd e hne

/-- An annotated pool was there before with the annotation. -/
lemma annotated_before (hl : LeavesPools w w') {p' : MachineConfigPool}
    (hp' : w'.pools.get name = some p') :
    (∃ p, w.pools.get name = some p ∧ p'.flags = p.flags) ∨ p'.flags = (false, none) := by
  cases hp : w.pools.get name with
  | none => exact .inr (hl.created hp hp')
  | some p =>
    obtain ⟨p₁, hp₁, hflags⟩ := hl.kept hp
    obtain rfl := Option.some.inj (hp₁.symm.trans hp')
    exact .inl ⟨p, rfl, hflags⟩

lemma not_annotated_of_flags {p : MachineConfigPool} (h : p.flags = (false, none)) :
    p.annotated = false := by
  have hnone : p.annotations.get? mcpPausedAnnotKey = none := congrArg Prod.snd h
  rw [MachineConfigPool.annotated, hnone]
  rfl

/-- Moves of the others keep the invariant. -/
lemma ReleaseInv.happens (h : ReleaseInv A foreign w) (hc : Happens w w') (hl : LeavesPools w w')
    (hassigned : Assigned A w') : ReleaseInv A foreign w' := by
  refine ⟨⟨hc.consistent h.consistent, hassigned, fun {name p'} hp' hann => ?_,
    fun {k o'} ho' hne => ?_⟩, fun {name p'} hp' hpaused => ?_⟩
  · rcases annotated_before hl hp' with ⟨p, hp, hflags⟩ | hflags
    · rw [MachineConfigPool.annotated_of_flags hflags] at hann
      obtain ⟨hne, k, o, ho, hg, hlabel⟩ := h.held hp hann
      obtain ⟨o', ho', htr⟩ := hc.persists ho hg
      exact ⟨hne, k, o', ho', htr.guarded.mpr hg, (hl.label_eq ho ho').trans hlabel⟩
    · exact absurd ((not_annotated_of_flags hflags).symm.trans hann) nofun
  · obtain ⟨o, ho, e, htr⟩ := labelled_before hc hl ho' hne
    rw [← e, htr.nodeName]
    obtain ⟨hpool, hnode⟩ := h.label ho (e ▸ hne)
    exact ⟨hpool, hl.node hnode⟩
  · rcases annotated_before hl hp' with ⟨p, hp, hflags⟩ | hflags
    · rw [MachineConfigPool.paused_of_flags hflags] at hpaused
      rw [MachineConfigPool.annotated_of_flags hflags]
      exact h.paused hp hpaused
    · have hfalse : p'.paused = false := congrArg Prod.fst hflags
      exact absurd (hfalse.symm.trans hpaused) nofun

/-- The moves of the others, as the controller sees them. -/
lemma ReleaseRely.happens (hc : Happens w w') (hl : LeavesPools w w') : ReleaseRely w w' := by
  refine ⟨hc.history_subset, hl.node, fun {name p'} hp' hann => ?_, fun {k o} ho hg => ?_,
    fun {k o'} ho' hne => ?_⟩
  · rcases annotated_before hl hp' with ⟨p, hp, hflags⟩ | hflags
    · exact ⟨p, hp, (MachineConfigPool.annotated_of_flags hflags).symm.trans hann⟩
    · exact absurd ((not_annotated_of_flags hflags).symm.trans hann) nofun
  · obtain ⟨o', ho', htr⟩ := hc.persists ho hg
    exact ⟨o', ho', htr.guarded.mpr hg, htr.uid, hl.label_eq ho ho'⟩
  · obtain ⟨o, ho, e, htr⟩ := labelled_before hc hl ho' hne
    exact ⟨o, ho, e, htr.nodeName.symm, htr.guarded.mpr⟩

/-- Own calls that write neither objects nor pools. -/
lemma ReleaseRely.frame (hperf : Perform .current e w a w') (hm : e.part ≠ .nodeMaintenances)
    (hp : e.part ≠ .pools) : ReleaseRely w w' := by
  have hnms := hperf.frame.nms hm
  have hpools := hperf.frame.pools hp
  refine ⟨hperf.history_subset, hperf.node_after, fun {name p'} hp' hann => ⟨p', hpools ▸ hp', hann⟩,
    fun {k o} ho hg => ⟨o, ?_, hg, rfl, rfl⟩, fun {k o'} ho' _ => ⟨o', hnms ▸ ho', rfl, rfl, id⟩⟩
  rwa [hnms]

/-- Own writes that make no difference. -/
lemma ReleaseRely.alike (he : e = .update b ∨ e = .statusUpdate b)
    (hal : ∀ o, w.nms.get b.key = some o → Matches o b → Alike o b)
    (hperf : Perform .current e w a w') : ReleaseRely w w' := by
  have hpart : e.part = .nodeMaintenances := by rcases he with rfl | rfl <;> rfl
  have hpools := hperf.frame.pools (by simp [hpart])
  refine ⟨hperf.history_subset, hperf.node_after, fun {name p'} hp' hann => ⟨p', hpools ▸ hp', hann⟩,
    fun {k o} ho hg => ?_, fun {k o'} ho' _ => ?_⟩
  · obtain ⟨o', ho', h⟩ := Alike.kept hperf he hal ho hg
    exact ⟨o', ho', by rwa [Guarded, h.finalizers], h.uid, h.label⟩
  · obtain ⟨o, ho, h⟩ := Alike.stored hperf he hal ho'
    exact ⟨o, ho, h.label.symm, h.nodeName.symm, fun hg => by rwa [Guarded, h.finalizers]⟩

end Calls

section Plan
variable (formats : Formats) (A : Assignment) (foreign : String → Prop)

/-- The proof plan. -/
def releasing : Discipline (sequential formats A ListsApart) where
  inv := ReleaseInv A foreign
  perm _ := releasePerm A
  rely _ := ReleaseRely
  inv_call h hp he := h.call hp he.1
  rely_call ne := absurd rfl ne
  inv_env h he := h.happens he.1 he.2.1 he.2.2
  rely_env _ _ he := .happens he.1 he.2.1

/-- The controller at work on an object, as a host. -/
def releasingHost (key : NamespacedName) : Host (releasing formats A foreign) () key where
  world := id
  Keeps := ReleaseRely
  Wrote w w' := ∀ {n}, (w.nodes.get n).isSome = true → (w'.nodes.get n).isSome = true
  MayUpdate := LabelOk A
  MayStatus _ _ _ := True
  consistent h := h.consistent
  perform h he := he.1.cached fun _ ho => h.consistent.stored (Store.mem_items.mp ho)
  perm_read {_ e} _ he := by
    cases e with
    | patchMachineConfigPool _ _ => cases he
    | update _ => cases he
    | _ => trivial
  perm_update hk h := by
    subst hk
    exact h
  perm_status _ _ := trivial
  history h := h.history
  keeps_rely _ _ h := h
  keeps_read _ _ hexec he := .frame hexec.1 (by simp [he]) (by simp [he])
  keeps_alike _ _ hexec he hal := .alike he hal hexec.1
  wrote_update _ _ _ hexec := hexec.1.node_after
  update_alike _ _ hal := ⟨.inl hal.label, fun hg => .inl (by rwa [Guarded, hal.finalizers])⟩
  status_alike _ _ _ := trivial

end Plan

namespace PauseReleased

/-- What is known of the version in hand, and of its node as it was read. -/
structure InHand (A : Assignment) (key : NamespacedName) (node : Node) (m : NodeMaintenance)
    (w : World) : Prop extends OnNode A node m w where
  stands : Guarded m → Labelled key m.uid (mcpLabel m) w

/-- The pool of the node can do without the object. -/
def PoolFreed (A : Assignment) (key : NamespacedName) (node : Node) (w : World) : Prop :=
  ∀ name, A.pool node.name = some name → Freed key name w

/-- The labelled objects on these nodes are objects of the pool, and have the finalizer, unless the pool
can do without the object in hand anyway. -/
def OwnNodes (key : NamespacedName) (name : String) (nodes : List Node) (w : World) : Prop :=
  Freed key name w ∨ ∀ node ∈ nodes, ∀ k o, w.nms.get k = some o → mcpLabel o ≠ "" →
    o.spec.nodeName = node.name → mcpLabel o = name ∧ Guarded o

variable {formats : Formats} {A : Assignment} {foreign : String → Prop} {key : NamespacedName}
  {m a : NodeMaintenance} {node : Node} {name : String}

/-- Triples of the controller at work on an object. -/
abbrev ReleaseTriple (formats : Formats) (A : Assignment) (foreign : String → Prop) {α : Type}
    (B : World → Prop) (x : Action α) (Q : α → World → Prop) : Prop :=
  (releasing formats A foreign).TripleE () B x Q

/-! ### What lasts -/

lemma firm_onNode : (releasingHost formats A foreign key).Firm (OnNode A node m) :=
  ⟨fun _ _ _ _ hk h => ⟨h.name, h.covers, hk.node h.found⟩,
    fun _ _ _ _ hk h => ⟨h.name, h.covers, hk h.found⟩⟩

lemma lasting_labelled (uid name : String) :
    (releasingHost formats A foreign key).Lasting (Labelled key uid name) := by
  rintro w w' - - hk ⟨o, ho, hg, hu, hl⟩
  obtain ⟨o', ho', hg', hu', hl'⟩ := hk.stands ho hg
  exact ⟨o', ho', hg', hu'.trans hu, hl'.trans hl⟩

lemma lasting_inHand : (releasingHost formats A foreign key).Lasting (InHand A key node m) :=
  fun w w' hi hi' hk h => ⟨firm_onNode.1 w w' hi hi' hk h.toOnNode,
    fun hg => lasting_labelled _ _ w w' hi hi' hk (h.stands hg)⟩

lemma lasting_freed : (releasingHost formats A foreign key).Lasting (Freed key name) := by
  rintro w w' - - hk (hpool | ⟨k, o, hne, ho, hg, hl⟩)
  · refine .inl fun p' hp' => ?_
    by_contra hann
    obtain ⟨p, hp, hann'⟩ := hk.pool hp' (by simpa using hann)
    exact Bool.false_ne_true ((hpool p hp).symm.trans hann')
  · obtain ⟨o', ho', hg', -, hl'⟩ := hk.stands ho hg
    exact .inr ⟨k, o', hne, ho', hg', hl'.trans hl⟩

lemma lasting_poolFreed : (releasingHost formats A foreign key).Lasting (PoolFreed A key node) :=
  fun w w' hi hi' hk h name hname => lasting_freed w w' hi hi' hk (h name hname)

lemma lasting_ownNodes {nodes : List Node} :
    (releasingHost formats A foreign key).Lasting (OwnNodes key name nodes) := by
  rintro w w' hi hi' hk (hfree | hown)
  · exact .inl (lasting_freed w w' hi hi' hk hfree)
  · refine .inr fun node hnode k o' ho' hne hname => ?_
    obtain ⟨o, ho, e, hn, hg⟩ := hk.labelled ho' hne
    obtain ⟨hl, hgo⟩ := hown node hnode k o ho (e ▸ hne) (hn.trans hname)
    exact ⟨e ▸ hl, hg hgo⟩

lemma InHand.alike {w : World} (hal : Alike m a) (h : InHand A key node m w) :
    InHand A key node a w := by
  refine ⟨h.toOnNode.alike hal.nodeName, fun hg => ?_⟩
  rw [hal.uid, hal.label]
  exact h.stands (by rwa [Guarded, ← hal.finalizers])

/-! ### Calls -/

lemma quiet_call {e : Op} (hm : e.part ≠ .nodeMaintenances) (hp : e.part ≠ .pools) :
    (releasingHost formats A foreign key).Quiet e := by
  refine fun w _ => ⟨?_, fun ans w' _ hexec => .frame hexec.1 hm hp⟩
  cases e with
  | update _ => exact absurd rfl hm
  | patchMachineConfigPool _ _ => exact absurd rfl hp
  | _ => trivial

/-- Reading a pool. -/
lemma getPool_triple {B : World → Prop} {K : MachineConfigPool → World → Prop}
    (hB : (releasingHost formats A foreign key).Lasting B)
    (hK : ∀ p, (releasingHost formats A foreign key).Lasting (K p))
    (h : ∀ w p, ReleaseInv A foreign w → B w → w.pools.get name = some p → K p w) :
    ReleaseTriple formats A foreign B (Client.getMachineConfigPool name)
      fun p w => p.name = name ∧ K p w :=
  getPool_current (H := releasingHost formats A foreign key) (fun he => he.1) hB hK h

/-- A patch of a pool. -/
lemma patchPool_triple {B Q : World → Prop} {pause : Bool}
    (hB : (releasingHost formats A foreign key).Lasting B)
    (hQ : (releasingHost formats A foreign key).Lasting Q)
    (hperm : ∀ w, B w → releasePerm A w (.patchMachineConfigPool name pause))
    (h : ∀ w p, B w → w.pools.get name = some p →
      Q { w with pools := w.pools.put (p.patch pause) }) :
    ReleaseTriple formats A foreign B (Client.patchMachineConfigPool name pause)
      fun p w => p.name = name ∧ Q w := by
  refine patchPool_current (H := releasingHost formats A foreign key) (fun he => he.1) hB hQ hperm ?_
  rintro w _ _ p hBw hexec hpool rfl
  exact h w p hBw hpool

/-- The patch that takes a pause back frees the pool. -/
lemma clearPatch_triple :
    ReleaseTriple formats A foreign (fun _ => True) (Client.patchMachineConfigPool name false)
      fun p w => p.name = name ∧ Freed key name w := by
  have hfreed : (releasingHost formats A foreign key).Lasting (Freed key name) := lasting_freed
  refine patchPool_triple (Lasting.const _) hfreed (fun _ _ => trivial) fun w p _ hp => ?_
  refine .inl fun p' hp' => ?_
  rcases World.get_patchPool hp hp' with ⟨-, rfl⟩ | ⟨ne, -⟩
  · simp
  · exact absurd rfl ne

/-! ### Phase Scheduled -/

/-- The pool step of `PauseMCP`, for an object that is labelled. -/
lemma pausePool_labelled {uid : String} (hne : name ≠ "") :
    ReleaseTriple formats A foreign (Labelled key uid name) (pausePool name) fun _ _ => True := by
  have hL : (releasingHost formats A foreign key).Lasting (Labelled key uid name) := lasting_labelled _ _
  have hread : ReleaseTriple formats A foreign (Labelled key uid name)
      (Client.getMachineConfigPool name) fun p w => p.name = name ∧ Labelled key uid name w :=
    getPool_triple hL (fun _ => hL) fun w p _ h _ => h
  have hundo : ReleaseTriple formats A foreign (Labelled key uid name)
      (Client.patchMachineConfigPool name false) fun p w => p.name = name ∧ Labelled key uid name w :=
    patchPool_triple hL hL (fun _ _ => trivial) fun w p h _ => h
  refine pausePool_triple (F := Labelled key uid name) (G := Labelled key uid name) (Stable.const _)
    hL.stable hL.stable ?_ ?_ hread ?_ ?_ fun _ _ _ => trivial
  · exact hread.conseq (fun _ _ h => h) fun p w _ h => ⟨h.1, fun _ => trivial, fun _ => h.2⟩
  · refine patchPool_triple hL hL ?_ fun w p h _ => h
    rintro w ⟨o, ho, hg, -, hl⟩
    exact ⟨hne, key, o, ho, hg, hl⟩
  · exact hundo.conseq (fun _ _ h => h) fun p w _ h => h.1
  · have hT : (releasingHost formats A foreign key).Lasting fun _ => True := Lasting.const _
    exact silent hT ⟨.inl rfl, fun _ => trivial⟩

lemma pauseLocked_triple (hg : Guarded m) :
    ReleaseTriple formats A foreign (fun w => (releasingHost formats A foreign key).Holds m w ∧
        OnNode A node m w ∧ Labelled key m.uid (mcpLabel m) w) (pauseLocked node m)
      fun a _ => a.key = key := by
  refine Triple.assume (fun w _ h => And.intro h.2.1.name h.2.1.covers) fun ⟨hname, hcov⟩ => ?_
  have hB : (releasingHost formats A foreign key).Lasting fun w =>
      (releasingHost formats A foreign key).Holds m w ∧ OnNode A node m w ∧
        Labelled key m.uid (mcpLabel m) w :=
    lasting_holds.and (firm_onNode.1.and (lasting_labelled _ _))
  refine TripleE.bind (TripleE.adapt (getMCPName_assigned (fun he => he.1) (fun hi => hi.assigned) hB hcov))
    fun name => TripleE.of_pure fun hpool => ?_
  rw [hname] at hpool
  have hlabel : ReleaseTriple formats A foreign (fun w =>
      (releasingHost formats A foreign key).Holds m w ∧ OnNode A node m w ∧
        Labelled key m.uid (mcpLabel m) w) (setMCPLabel m name)
      fun a w => (a.key = key ∧ a.uid = m.uid) ∧ OnNode A node m w ∧ Labelled key m.uid name w := by
    refine setMCPLabel_labelled firm_onNode lasting_labelled (fun he => he.1) hg ?_
    intro w refs _ hn _
    refine ⟨.inr ⟨hpool.1.trans (congrArg some ?_), hn.found⟩, fun hg => .inl hg⟩
    simp [mcpLabel]
  refine hlabel.bind fun a => TripleE.of_pure fun ha => ?_
  refine TripleE.pre (TripleE.bind (pausePool_labelled hpool.2) fun _ => ?_) fun w _ h => h.2
  exact .pure (Stable.const _) fun _ _ _ => ha.1

lemma pauseMCP_triple (hg : Guarded m) :
    ReleaseTriple formats A foreign (fun w => (releasingHost formats A foreign key).Holds m w ∧
        OnNode A node m w ∧ Labelled key m.uid (mcpLabel m) w) (pauseMCP node m)
      fun a _ => a.key = key := by
  have hB : (releasingHost formats A foreign key).Lasting fun w =>
      (releasingHost formats A foreign key).Holds m w ∧ OnNode A node m w ∧
        Labelled key m.uid (mcpLabel m) w :=
    lasting_holds.and (firm_onNode.1.and (lasting_labelled _ _))
  refine pauseMCP_of_locked hB (fun _ => Lasting.const _) (fun he => ?_) (pauseLocked_triple hg)
  rcases he with he | he <;> exact quiet_call (by simp [he]) (by simp [he])

/-! ### Unpausing -/

/-- The list of the nodes that the selector of the pool matches. -/
lemma listNodes_triple :
    ReleaseTriple formats A foreign (fun _ => True)
      (Client.listNodes (selectorAccepts (A.selector name))) (OwnNodes key name) := by
  have hO : ∀ nodes, (releasingHost formats A foreign key).Lasting (OwnNodes key name nodes) :=
    fun _ => lasting_ownNodes
  refine Triple.lift (Stable.const _) (fun _ => Stable.ok fun nodes => (hO nodes).stable)
    (fun _ _ _ => trivial) ?_
  rintro w _ w' hinv hinv' - ⟨⟨rfl, hperm⟩, hgate⟩ nodes rfl
  have hperm : nodes.Perm (w'.nodes.items.filter
    fun n => selectorAccepts (A.selector name) n.labels) := hperm
  by_cases hann : ∃ p, w'.pools.get name = some p ∧ p.annotated = true
  · obtain ⟨p, hp, hann⟩ := hann
    refine .inr fun node hnode k o ho hne hname => ?_
    obtain ⟨hmem, hsel⟩ := List.mem_filter.mp (hperm.mem_iff.mp hnode)
    have hget : w'.nodes.get o.spec.nodeName = some node := by
      rw [hname]
      exact Store.mem_items.mp hmem
    refine hgate _ rfl name p hp hann k o node ho hne hget ?_
    rw [hinv.assigned.selector hp]
    exact hsel
  · refine .inl (.inl fun p hp => ?_)
    by_contra hne
    exact hann ⟨p, hp, by simpa using hne⟩

/-- Another user of the pool is a holder of it. -/
lemma listNodeMaintenances_triple {nodes : List Node} (hkey : m.key = key) :
    ReleaseTriple formats A foreign (OwnNodes key name nodes) Client.listNodeMaintenances
      fun nml w => nml.any (usesPool nodes m) = true → Freed key name w := by
  have hO : (releasingHost formats A foreign key).Lasting (OwnNodes key name nodes) := lasting_ownNodes
  have hfreed : (releasingHost formats A foreign key).Lasting (Freed key name) := lasting_freed
  refine Triple.lift hO.stable (fun _ => Stable.ok fun _ => hfreed.stable.imp)
    (fun _ _ _ => trivial) ?_
  rintro w _ w' - - hown ⟨⟨rfl, hperm⟩, -⟩ nml rfl hused
  have hperm : nml.Perm w'.nms.items := hperm
  rcases hown with hfree | hown
  · exact hfree
  · obtain ⟨o, ho, huses⟩ := List.any_eq_true.mp hused
    simp only [usesPool, Bool.and_eq_true, List.any_eq_true, decide_eq_true_eq] at huses
    obtain ⟨⟨⟨nd, hnd, hname⟩, hlabel⟩, hne⟩ := huses
    have hstored : w'.nms.get o.key = some o := Store.mem_items.mp (hperm.mem_iff.mp ho)
    obtain ⟨hl, hg⟩ := hown nd hnd o.key o hstored hlabel hname.symm
    exact .inr ⟨o.key, o, hkey ▸ hne, hstored, hg, hl⟩

/-- `UnpauseMCP` ends with a pool that can do without the object. -/
lemma unpauseLocked_freed (hkey : m.key = key) (hcov : A.Covers node) :
    ReleaseTriple formats A foreign (fun _ => True) (unpauseLocked node m)
      fun _ => PoolFreed A key node := by
  have hT : (releasingHost formats A foreign key).Lasting fun _ => True := Lasting.const _
  have hR : (releasingHost formats A foreign key).Lasting (PoolFreed A key node) := lasting_poolFreed
  -- the pool of the node is the one that was found
  have hfreed : ∀ {name w}, A.pool node.name = some name → Freed key name w → PoolFreed A key node w := by
    intro name w hpool h name' hname'
    obtain rfl := Option.some.inj (hpool.symm.trans hname')
    exact h
  refine unpauseLocked_triple
    (B := fun name _ => (A.pool node.name = some name ∧ name ≠ "") ∧ True)
    (G := fun name p _ => (A.pool node.name = some name ∧ p.nodeSelector = A.selector name) ∧ True)
    (K := fun name _ => A.pool node.name = some name ∧ True) hR.stable
    (getMCPName_assigned (fun he => he.1) (fun hi => hi.assigned) hT hcov) (fun name => ?_)
    (fun name p => ?_) (fun name => ?_) fun name => ?_
  · refine TripleE.of_pure fun hpool => ?_
    refine (getPool_triple (K := fun p w => p.nodeSelector = A.selector name ∧
      (p.annotated = false → PoolFreed A key node w)) hT (fun p => ?_) ?_).conseq (fun _ _ h => h)
      fun p w _ h => ⟨h.1, fun _ => ⟨⟨hpool.1, h.2.1⟩, trivial⟩, h.2.2⟩
    · exact fun w w' hi hi' hk h => ⟨h.1, fun hann => hR w w' hi hi' hk (h.2 hann)⟩
    · intro w p hinv _ hp
      refine ⟨hinv.assigned.selector hp, fun hann => hfreed hpool.1 (.inl fun p' hp' => ?_)⟩
      rw [← Option.some.inj (hp.symm.trans hp')]
      exact hann
  · refine TripleE.of_pure fun ⟨hpool, hsel⟩ => ?_
    refine mcpUsedByOther_triple (L := OwnNodes key name) (fun used => ?_) ?_ fun nodes => ?_
    · exact fun w w' hi hi' hr h => ⟨fun hu => hR.stable w w' hi hi' hr (h.1 hu), h.2⟩
    · rw [hsel]
      exact listNodes_triple
    · exact (listNodeMaintenances_triple hkey).conseq (fun _ _ h => h)
        fun nml w _ h => ⟨fun hu => hfreed hpool (h hu), fun _ => ⟨hpool, trivial⟩⟩
  · refine TripleE.of_pure fun hpool => ?_
    exact clearPatch_triple.conseq (fun _ _ h => h) fun p w _ h => hfreed hpool h.2
  · exact (getPool_triple hR (fun _ => hR) fun w p _ h _ => h).conseq (fun _ _ h => h)
      fun p w _ h => h.2

lemma unpause_triple (hcov : A.Covers node) :
    ReleaseTriple formats A foreign ((releasingHost formats A foreign key).Holds m)
      (Reconciler.unpause ⟨true, formats⟩ m node) fun _ w =>
        (releasingHost formats A foreign key).Holds m w ∧ PoolFreed A key node w := by
  refine Triple.assume (fun w _ h => h.1) fun hkey => ?_
  have hT : (releasingHost formats A foreign key).Lasting fun _ => True := Lasting.const _
  have hR : (releasingHost formats A foreign key).Lasting (PoolFreed A key node) := lasting_poolFreed
  have hunpause : ReleaseTriple formats A foreign (fun _ => True) (unpauseMCP node m)
      fun _ => PoolFreed A key node := by
    refine TripleE.bind (TripleE.lift (call_quiet hT (quiet_call nofun nofun))) fun _ => ?_
    exact withLock_quiet hT (fun _ => hR) (fun he => quiet_call (by simp [he]) (by simp [he]))
      (unpauseLocked_freed hkey hcov)
  exact (frame_holds hunpause).conseq (fun w _ h => ⟨trivial, h⟩) fun _ w _ h => ⟨h.2, h.1⟩

/-! ### The handlers -/

/-- The finalizer comes off once the pool can do without the object. -/
lemma release_triple (hname : node.name = m.spec.nodeName) :
    ReleaseTriple formats A foreign
      (fun w => (releasingHost formats A foreign key).Holds m w ∧ PoolFreed A key node w)
      (handleFinalizerRemoval m) fun _ _ => True := by
  refine Triple.assume (fun w _ h => h.1.1) fun hkey => ?_
  refine handleFinalizerRemoval_triple lasting_poolFreed fun w refs hinv hfree ho =>
    ⟨.inl rfl, fun _ => .inr fun hne => ?_⟩
  have hpool : A.pool m.spec.nodeName = some (mcpLabel m) := (hinv.label ho hne).1
  have hfreed := hfree (mcpLabel m) (hname ▸ hpool)
  exact hkey ▸ hfreed

lemma cleanup_triple :
    ReleaseTriple formats A foreign
      (fun w => (releasingHost formats A foreign key).Holds m w ∧ InHand A key node m w)
      (Reconciler.cleanup ⟨true, formats⟩ m node) fun _ _ => True := by
  refine Triple.assume (fun w _ h => And.intro h.2.name h.2.covers) fun ⟨hname, hcov⟩ => ?_
  refine TripleE.pre (TripleE.bind (uncordonStep_triple (H := releasingHost formats A foreign key)
    (Firm.const True) (fun w refs l _ _ _ => ⟨.inl rfl, fun hg => .inl hg⟩) ?_)
    fun a => TripleE.of_pure fun ha => ?_) fun w _ h => ⟨h.1, trivial⟩
  · exact quiet_all (lasting_holds.and (Lasting.const True)) (runCordonOrUncordon_all
      (quiet_call nofun nofun))
  · refine TripleE.pre (TripleE.bind (unpause_triple hcov) fun _ => ?_) fun w _ h => h.1
    exact release_triple (hname.trans ha.nodeName.symm)

lemma addFinalizer_triple :
    ReleaseTriple formats A foreign
      (fun w => (releasingHost formats A foreign key).Holds m w ∧ InHand A key node m w)
      (addFinalizer m maintenanceFinalizerName) fun a w => Guarded a ∧
        (releasingHost formats A foreign key).Holds a w ∧ OnNode A node a w ∧
          Labelled key a.uid (mcpLabel a) w := by
  refine TripleE.conseq (addFinalizer_labelled firm_onNode lasting_labelled fun w refs _ _ => ?_)
    (fun w _ h => ⟨h.1, h.2.toOnNode, h.2.stands⟩) ?_
  · exact ⟨.inl rfl, fun hg => .inl (List.mem_append_left _ hg)⟩
  · rintro a w - ⟨⟨hg, hal⟩, hm, hn, hl⟩
    exact ⟨hg, hm, hn.alike hal.nodeName, hl⟩

lemma handleScheduledState_triple :
    ReleaseTriple formats A foreign
      (fun w => (releasingHost formats A foreign key).Holds m w ∧ InHand A key node m w)
      (Reconciler.handleScheduledState ⟨true, formats⟩ m node) fun _ _ => True := by
  refine Triple.assume (fun w _ h => And.intro h.2.name h.2.covers) fun ⟨hname, hcov⟩ => ?_
  refine scheduledState_triple
    (R := fun w => (releasingHost formats A foreign key).Holds m w ∧ PoolFreed A key node w)
    (C := fun a _ => a.key = key ∧ True) ?_ (fun _ => release_triple hname) addFinalizer_triple
    (fun a => TripleE.of_pure fun hg => ?_) nofun fun a => TripleE.of_pure fun ha => ?_
  · exact (unpause_triple hcov).pre fun w _ h => h.1
  · exact (pauseMCP_triple hg).conseq (fun _ _ h => h) fun a' w _ h => ⟨h, trivial⟩
  · have hT : (releasingHost formats A foreign key).Lasting fun _ => True := Lasting.const _
    exact setReady_stable (H := releasingHost formats A foreign key) hT.stable ha
      (silent hT ⟨.inl rfl, fun _ => trivial⟩) fun _ _ _ _ _ _ _ => trivial

lemma toWait_triple :
    ReleaseTriple formats A foreign
      (fun w => (releasingHost formats A foreign key).Holds m w ∧ InHand A key node m w)
      (do let a ← (if m.spec.cordon then handleCordon m node else pure m)
          let _ ← setReadyConditionReason a .waitForPodCompletion
          return Result.zero) fun _ _ => True := by
  refine TripleE.pre (cordonState_triple (H := releasingHost formats A foreign key)
    (Firm.const True) (fun w refs l _ _ _ => ⟨.inl rfl, fun hg => .inl hg⟩) (quiet_call nofun nofun) fun a _ => ?_)
    fun w _ h => ⟨h.1, trivial⟩
  exact setReady_triple (Lasting.const True) fun _ _ _ _ _ _ => trivial

/-- Nothing else is left to show. -/
lemma plan : Plan (releasingHost formats A foreign key) ⟨true, formats⟩ node (InHand A key node) where
  lasting _ := lasting_inHand
  alike hal h := h.alike hal
  drain he := quiet_call (by simp [he]) (by simp [he])
  podCompletion _ _ _ := quiet_call nofun nofun
  advance _ _ _ _ _ _ := trivial
  cleanup _ _ _ := cleanup_triple
  scheduled _ := handleScheduledState_triple
  cordon _ _ := toWait_triple

/-! ### The body -/

/-- What reading an object tells. -/
structure Seen (key : NamespacedName) (m : NodeMaintenance) (w : World) : Prop where
  found : mcpLabel m ≠ "" → (w.nodes.get m.spec.nodeName).isSome = true
  stands : Guarded m → Labelled key m.uid (mcpLabel m) w

lemma lasting_seen : (releasingHost formats A foreign key).Lasting (Seen key m) :=
  fun w w' hi hi' hk h => ⟨fun hne => hk.node (h.found hne),
    fun hg => lasting_labelled _ _ w w' hi hi' hk (h.stands hg)⟩

lemma getNodeMaintenance_triple :
    ReleaseTriple formats A foreign (fun _ => True) (observe (Client.getNodeMaintenance key))
      fun res w => ∀ m, res = .ok m →
        (releasingHost formats A foreign key).Holds m w ∧ Seen key m w := by
  refine Host.getNodeMaintenance_triple (fun m => lasting_holds.and lasting_seen) ?_
  rintro w m w' hinv - ⟨⟨rfl, hread⟩, -⟩
  have ho : w'.nms.get key = some m := hread
  exact ⟨⟨Store.key_of_get ho, m, hinv.consistent.stored ho, rfl⟩, fun hne => (hinv.label ho hne).2,
    fun hg => ⟨m, ho, hg, rfl, rfl⟩⟩

/-- The node of a labelled object is found. -/
lemma getNode_triple :
    ReleaseTriple formats A foreign
      (fun w => (releasingHost formats A foreign key).Holds m w ∧ Seen key m w)
      (observe (Client.getNode m.spec.nodeName)) fun res w =>
        (res = .error .notFound →
          (releasingHost formats A foreign key).Holds m w ∧ mcpLabel m = "") ∧
        ∀ node, res = .ok node →
          (releasingHost formats A foreign key).Holds m w ∧ InHand A key node m w := by
  refine Host.getNode_triple (lasting_holds.and lasting_seen) (lasting_holds.and (Lasting.const _))
    (fun node => lasting_holds.and lasting_inHand) ?_ ?_
  · rintro w w' - - ⟨hm, hseen⟩ ⟨⟨rfl, hread⟩, -⟩
    have hnone : w'.nodes.get m.spec.nodeName = none := hread.2 rfl
    refine ⟨hm, ?_⟩
    by_contra hne
    have hfound := hseen.found hne
    rw [hnone] at hfound
    cases hfound
  · rintro w node w' hinv - ⟨hm, hseen⟩ ⟨⟨rfl, hread⟩, -⟩
    have hn : w'.nodes.get m.spec.nodeName = some node := hread
    exact ⟨hm, ⟨Store.key_of_get hn, hinv.assigned.covers hn, by rw [hn]; rfl⟩, hseen.stands⟩

/-- The body of the controller. -/
theorem reconcile_triple :
    ReleaseTriple formats A foreign (fun _ => True) (Reconciler.reconcile ⟨true, formats⟩ key)
      fun _ _ => True := by
  refine reconcileBody_triple getNodeMaintenance_triple (fun m => getNode_triple) (fun m => ?_)
    fun m node => plan.dispatch_triple
  refine nodeNotFound_triple (lasting_holds.and (Lasting.const _)) (quiet_call nofun nofun) ?_
  refine removeFinalizer_triple (Lasting.const _) fun w refs _ hl _ => ⟨.inl rfl, fun _ => .inr fun hne => ?_⟩
  exact absurd hl hne

end PauseReleased

/-! ### Runs -/

section Runs
variable {formats : Formats} {A : Assignment} {w₀ : World}
  {c : Config Unit Op Resp World (Except Err Result)}

/-- A pool that somebody else had paused from the beginning. -/
def ForeignPause (w : World) (name : String) : Prop :=
  ∃ p, w.pools.get name = some p ∧ p.paused = true ∧ p.annotated = false

lemma PoolsHeld.inv (h : PoolsHeld A w₀) : ReleaseInv A (ForeignPause w₀) w₀ := by
  refine ⟨h, fun {name p} hp hpaused => ?_⟩
  cases hann : p.annotated with
  | true => exact .inl rfl
  | false => exact .inr ⟨p, hp, hpaused, hann⟩

end Runs

/-! ### Computed runs -/

/-- A test for `Apart`. -/
def apartTest (w : World) : Bool :=
  w.pools.items.all fun p => !p.annotated || w.nms.items.all fun o => mcpLabel o = "" ||
    (w.nodes.get o.spec.nodeName).all fun node => !selectorAccepts p.nodeSelector node.labels ||
      mcpLabel o = p.name && maintenanceFinalizerName ∈ o.finalizers

lemma apart_of_test {w : World} (h : apartTest w = true) : Apart w := by
  intro name p hp hann k o node ho hne hnode hsel
  have hpool := List.all_eq_true.mp h p (Store.get_mem hp)
  simp only [hann, Bool.not_true, Bool.false_or] at hpool
  have hobj := List.all_eq_true.mp hpool o (Store.get_mem ho)
  rw [hnode, Option.all_some, hsel] at hobj
  rw [← Store.key_of_get hp]
  simpa [hne, Guarded] using hobj

/-- A list of nodes while the labelled objects are not apart. -/
def mixes (w : World) : Op → Bool
  | .listNodes _ => !apartTest w
  | _ => false

lemma listsApart_of_not_mixes {w : World} {e : Op} (h : mixes w e = false) : ListsApart w e := by
  rintro matching rfl
  exact apart_of_test (by simpa [mixes] using h)

section Players
variable {A : Assignment} {gate : World → Op → Prop} {key : NamespacedName}

/-- Answers of a server that is up, to calls that are not barred. -/
def sequentialAnswer (bars : World → Op → Bool) (_ : Unit) (e : Op) (w : World) :
    Option (Resp e × World) :=
  if bars w e then none else w.serve e

lemma exec_of_sequentialAnswer {bars : World → Op → Bool}
    (hgate : ∀ {w e}, bars w e = false → gate w e) {i : Unit} {e : Op} {w w' : World} {a : Resp e}
    (h : sequentialAnswer bars i e w = some (a, w')) :
    (sequential strokeFormats A gate).exec i e w a w' := by
  unfold sequentialAnswer at h
  split at h
  · cases h
  · rename_i hbars
    exact ⟨World.perform_of_serve h, hgate (by simpa using hbars)⟩

lemma body_of_sequential {i : Unit} {p : Proc (Except Err Result)}
    (h : some (Reconciler.reconcile ⟨true, strokeFormats⟩ key).run = some p) :
    (sequential strokeFormats A gate).body i p :=
  ⟨key, (Option.some.inj h).symm⟩

lemma env_of_sequentialTurn {t : Turn} {c : Config Unit Op Resp World (Except Err Result)} {w' : World}
    (h : A.turn c.state t = some w') : (sequential strokeFormats A gate).env c w' :=
  A.env_of_turn h

/-- A player for the reconciles of an object. -/
def sequentialPlayer (A : Assignment) (bars : World → Op → Bool)
    (hgate : ∀ {w e}, bars w e = false → gate w e) (key : NamespacedName) :
    Player (sequential strokeFormats A gate) Turn where
  program _ := some (Reconciler.reconcile ⟨true, strokeFormats⟩ key).run
  body := body_of_sequential
  answer := sequentialAnswer bars
  exec := exec_of_sequentialAnswer hgate
  event t w := A.turn w t
  env := env_of_sequentialTurn

/-- One turn of the others, and a reconcile of the object concerned. -/
def turnAndReconcile (A : Assignment) (bars : World → Op → Bool)
    (hgate : ∀ {w e}, bars w e = false → gate w e) (t : Turn) :
    Player (sequential strokeFormats A gate) Turn × List (Move Unit Turn) :=
  (sequentialPlayer A bars hgate t.key, [.event t, .start (), .finish () 60])

/-- Both objects are scheduled, and then deleted one after the other. -/
def bothMaintained (A : Assignment) (bars : World → Op → Bool)
    (hgate : ∀ {w e}, bars w e = false → gate w e) :
    List (Player (sequential strokeFormats A gate) Turn × List (Move Unit Turn)) :=
  [turnAndReconcile A bars hgate (.schedule ⟨"default", "nm"⟩),
    turnAndReconcile A bars hgate (.schedule ⟨"default", "nm2"⟩),
    turnAndReconcile A bars hgate (.delete ⟨"default", "nm"⟩),
    turnAndReconcile A bars hgate (.delete ⟨"default", "nm2"⟩)]

end Players

/-- Nothing is annotated or labelled yet. -/
lemma poolsHeld_of_pristine {A : Assignment} {w : World} (hc : Consistent w) (hagrees : A.agrees w = true)
    (hpools : w.pools.items.all (!·.annotated) = true)
    (hlabels : w.nms.items.all (mcpLabel · = "") = true) : PoolsHeld A w := by
  refine ⟨hc, assigned_of_agrees hagrees, fun {name p} hp hann => ?_, fun {k o} ho hne => ?_⟩
  · have hall := List.all_eq_true.mp hpools p (Store.get_mem hp)
    rw [hann] at hall
    cases hall
  · exact absurd (by simpa using List.all_eq_true.mp hlabels o (Store.get_mem ho)) hne

/-- The pool of infrastructure nodes. -/
def infraPool : MachineConfigPool :=
  ⟨"infra", [], some ⟨[("infra", "")], []⟩, false, "rendered-infra", "rendered-infra"⟩

/-- The MachineConfig of infrastructure nodes. -/
def infraConfig : MachineConfig := ⟨"rendered-infra", [⟨"", "MachineConfigPool", "infra", "infra"⟩]⟩

/-- The second node is in the pool of infrastructure nodes. -/
def rolePools : Assignment where
  pool n := if n = "node-2" then some "infra" else some "worker"
  owner config := if config = "rendered-worker" then some "worker"
    else if config = "rendered-infra" then some "infra" else none
  selector name := if name = "infra" then infraPool.nodeSelector else workerPool.nodeSelector
  named {config name} h := by
    split at h
    · cases h
      decide
    · split at h
      · cases h
        decide
      · cases h

/-- A worker and an infrastructure node that has the role of a worker, too. -/
def overlappingRoles : World :=
  poolCluster [roleNode "node-1" "rendered-worker" [("worker", "")],
    roleNode "node-2" "rendered-infra" [("worker", ""), ("infra", "")]]
    [workerConfig, infraConfig] [workerPool, infraPool]

end MaintenanceOperator
