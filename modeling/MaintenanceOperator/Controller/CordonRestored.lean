import MaintenanceOperator.Cluster.Serve
import MaintenanceOperator.Controller.CordonHandler
import MaintenanceOperator.Controller.Flow
import MaintenanceOperator.Lib.Script

/-!
# The node is as it was when the finalizer goes

One NodeMaintenance on one node that nobody else cordons or uncordons, reconciled again and again while
calls fail and the object is edited and deleted. The unschedulable flag is what it was at the start,
except while the object carries the initial-state annotation with the value `false`; the annotation is
recorded from the flag and dropped only once the flag is back. The delete paths uncordon only if the
spec asks for cordon at that time, so the finalizer goes with the flag restored as long as no reconcile
reads an object that is being deleted, carries the annotation and no longer asks for cordon.
-/

namespace MaintenanceOperator
open Lib Discipline Reconciler Host

/-- A condition on the objects that are read. -/
def ReadGate (gate : NodeMaintenance → Prop) (e : Op) (a : Resp e) : Prop :=
  ∀ o, readObject e a = some o → gate o

instance (gate : NodeMaintenance → Prop) [DecidablePred gate] (e : Op) (a : Resp e) :
    Decidable (ReadGate gate e a) :=
  decidable_of_iff ((readObject e a).all (fun o => decide (gate o)) = true)
    (by simp [ReadGate, Option.all_eq_true])

/-- The life of one NodeMaintenance: the controller reconciles it, reads are answered from the present
cluster, and nobody else writes the flag of a node. -/
def maintenanceOf (r : Reconciler) (key : NamespacedName) (gate : NodeMaintenance → Prop) :
    System Unit Op Resp World (Except Err Result) where
  exec _ e w a w' := Perform .current e w a w' ∧ ReadGate gate e a
  env c w' := Change c.state w' ∧ (∀ n, unschedulable w' n = unschedulable c.state n) ∧
    (c.state.nms.get key = none → w'.nms.get key = none)
  body _ p := p = (r.reconcile key).run

/-- An object that is being deleted still asks for cordon, or has nothing to undo. -/
def HonoursCordon (o : NodeMaintenance) : Prop :=
  o.deleting = true → o.spec.cordon = true ∨ initialState o = none

instance : DecidablePred HonoursCordon := fun _ => inferInstanceAs (Decidable (_ → _))

/-- What the object says about its node, whose flag was `init` at first. -/
structure Restorable (n : String) (init : Bool) (w : World) (o : NodeMaintenance) : Prop where
  nodeName : o.spec.nodeName = n
  early : phase o < 3 → initialState o = none
  value : ∀ {v}, initialState o = some v → v = formatBool init
  flag : unschedulable w n = some init ∨ initialState o = some falseString

/-- The invariant. -/
structure CordonInv (key : NamespacedName) (n : String) (init : Bool) (w : World) : Prop where
  consistent : Consistent w
  node : (unschedulable w n).isSome = true
  stored : ∀ {o}, w.nms.get key = some o → Restorable n init w o

/-- An update of the stored object keeps, records or drops the annotation, and takes the finalizer off
only without it. -/
structure MarkOk (n : String) (init : Bool) (w : World) (o b : NodeMaintenance) : Prop where
  mark : initialState b = initialState o ∨
    initialState o = none ∧ initialState b = some (formatBool init) ∧ 3 ≤ phase o ∨
    initialState b = none ∧ unschedulable w n = some init
  release : Guarded o → Guarded b ∨ initialState o = none ∧ initialState b = none

/-- Permissions. -/
def cordonPerm (key : NamespacedName) (n : String) (init : Bool) (w : World) : Op → Prop
  | .update b => b.key = key ∧ ∀ o, w.nms.get key = some o → Matches o b → MarkOk n init w o b
  | .statusUpdate b => b.key = key ∧
      ∀ o, w.nms.get key = some o → Matches o b → phase b < 3 → initialState o = none
  | .patchUnschedulable name desired =>
      ∀ o, w.nms.get key = some o → name = n → desired = init ∨ initialState o = some falseString
  | _ => True

section Calls
variable {key : NamespacedName} {n : String} {init : Bool} {w w' : World} {o b : NodeMaintenance}
  {e : Op} {a : Resp e}

lemma Restorable.reversible (h : Restorable n init w o) : Reversible n init w o := ⟨h.value, h.flag⟩

/-- A permitted update leaves an object that says the right thing about its node. -/
lemma Restorable.update (h : Restorable n init w o) (hok : MarkOk n init w o b)
    {spec : NodeMaintenanceSpec} (hname : spec.nodeName = o.spec.nodeName)
    (hflag : unschedulable w' n = unschedulable w n) :
    Restorable n init w' (w.stamp (w.merge o b spec)) := by
  have hstep : MarkStep n init w o (w.stamp (w.merge o b spec)) :=
    hok.mark.imp_right fun hmark => hmark.imp_left fun hrec => ⟨hrec.1, hrec.2.1⟩
  have hrev := h.reversible.step hstep hflag
  refine ⟨hname.trans h.nodeName, fun hlt => ?_, hrev.value, hrev.flag⟩
  have hlt' : phase o < 3 := hlt
  change initialState b = none
  rcases hok.mark with e | ⟨-, -, h₃⟩ | ⟨e, -⟩
  · exact e.trans (h.early hlt')
  · omega
  · exact e

/-- A write leaves no annotation in an early phase. -/
lemma Restorable.rewrite_early (h : Restorable n init w o) (ho : w.nms.get key = some o)
    (hp : cordonPerm key n init w e) (hrw : Rewrite w o e b) (hlt : phase b < 3) :
    initialState b = none := by
  cases hrw with
  | @update b hm hname => exact (h.update (hp.2 o ho hm) hname rfl).early hlt
  | @statusUpdate b hm => exact hp.2 o ho hm hlt

/-- A permitted call keeps the invariant. -/
lemma CordonInv.call (h : CordonInv key n init w) (hp : cordonPerm key n init w e)
    (hperf : Perform .current e w a w') : CordonInv key n init w' := by
  refine ⟨hperf.consistent h.consistent, hperf.isSome_unschedulable h.node, fun {o} ho => ?_⟩
  have hrev : Reversible n init w' o := by
    refine Reversible.call (fun ho => (h.stored ho).reversible) hperf ?_ ?_ ho
    · rintro b rfl o ho hm
      exact (hp.2 o ho hm).mark.imp_right fun hmark => hmark.imp_left fun hrec => ⟨hrec.1, hrec.2.1⟩
    · rintro desired rfl o ho
      exact hp o ho rfl
  rcases hperf.stored ho with hk | ⟨o₁, ho₁, hrw⟩
  · have hres := h.stored hk
    exact ⟨hres.nodeName, hres.early, hrev.value, hrev.flag⟩
  · have hres := h.stored ho₁
    exact ⟨hrw.nodeName.trans hres.nodeName, hres.rewrite_early ho₁ hp hrw, hrev.value, hrev.flag⟩

/-- Moves of the others keep the invariant. -/
lemma CordonInv.change (h : CordonInv key n init w) (hc : Change w w')
    (hflag : unschedulable w' n = unschedulable w n) (hgone : w.nms.get key = none → w'.nms.get key = none) :
    CordonInv key n init w' := by
  refine ⟨hc.consistent h.consistent, by rw [hflag]; exact h.node, fun {o'} ho' => ?_⟩
  rcases hc.stored ho' with ⟨o, ho, hfol⟩ | hfresh
  · have hres := h.stored ho
    refine ⟨hfol.nodeName.trans hres.nodeName, fun hlt => ?_, fun hv => ?_, ?_⟩
    · rw [hfol.initial]
      refine hres.early ?_
      rcases hfol.phase_cases with e | ⟨hlt', -⟩ <;> omega
    · exact hres.value (hfol.initial ▸ hv)
    · rw [hflag, hfol.initial]
      exact hres.flag
  · rw [hgone hfresh.free] at ho'
    cases ho'

end Calls

section Plan
variable (r : Reconciler) (key : NamespacedName) (n : String) (init : Bool)

/-- The proof plan. -/
def restoring : Discipline (maintenanceOf r key HonoursCordon) where
  inv := CordonInv key n init
  perm _ := cordonPerm key n init
  rely _ := CordonRely key n
  inv_call h hp he := h.call hp he.1
  rely_call ne := absurd rfl ne
  inv_env h he := h.change he.1 (he.2.1 n) he.2.2
  rely_env _ _ he := .change he.1 (he.2.1 n) he.2.2

/-- The controller, as a host. -/
def restoringHost : Host (restoring r key n init) () key where
  world := id
  Keeps := CordonRely key n
  Wrote w w' := unschedulable w' n = unschedulable w n
  MayUpdate := MarkOk n init
  MayStatus _ o b := phase b < 3 → initialState o = none
  consistent h := h.consistent
  perform h he := he.1.cached fun _ ho => h.consistent.stored (Store.mem_items.mp ho)
  perm_read {_ e} _ he := by cases e <;> trivial
  perm_update hk h := ⟨hk, h⟩
  perm_status hk h := ⟨hk, h⟩
  history h := h.history
  keeps_rely _ _ h := h
  keeps_read _ _ hexec he := .read hexec.1 he
  keeps_alike _ _ hexec he hal := .alike hexec.1 he hal
  wrote_update _ _ _ hexec := unschedulable_update hexec.1 n
  update_alike _ _ hal := ⟨.inl hal.initial, fun hg => .inl (by rwa [Guarded, hal.finalizers])⟩
  status_alike {w o b} h ho hal hlt := by
    refine (h.stored ho).early ?_
    rwa [phase, ← hal.reason]

end Plan

namespace Restoring

/-- What is known of the version in hand, and of its node as it was read. -/
structure InHand (key : NamespacedName) (n : String) (node : Node) (m : NodeMaintenance) (w : World) :
    Prop where
  honours : HonoursCordon m
  name : node.name = n
  flag : unschedulable w n = some node.unschedulable
  mark : ∀ {o}, w.nms.get key = some o → initialState o = initialState m

variable {r : Reconciler} {key : NamespacedName} {n : String} {init : Bool} {m : NodeMaintenance} {node : Node} {F : World → Prop}

/-- Triples of the controller. -/
abbrev CordonTriple (r : Reconciler) (key : NamespacedName) (n : String) (init : Bool) {α : Type} (A : World → Prop) (x : Action α) (Q : α → World → Prop) : Prop :=
  (restoring r key n init).TripleE () A x Q

/-- The version in hand. -/
abbrev CordonHolds (r : Reconciler) (key : NamespacedName) (n : String) (init : Bool) (m : NodeMaintenance) (w : World) : Prop :=
  (restoringHost r key n init).Holds m w

lemma lasting_inHand : (restoringHost r key n init).Lasting (InHand key n node m) := by
  intro w w' _ _ hk h
  refine ⟨h.honours, h.name, hk.flag.trans h.flag, fun ho' => ?_⟩
  obtain ⟨o, ho, hmark⟩ := hk.mark ho'
  exact hmark.trans (h.mark ho)

lemma InHand.alike {w : World} {a : NodeMaintenance} (hal : Alike m a) (h : InHand key n node m w) :
    InHand key n node a w := by
  refine ⟨fun hdel => ?_, h.name, h.flag, fun ho => (h.mark ho).trans hal.initial.symm⟩
  exact (h.honours (hal.deleting ▸ hdel)).imp hal.cordon fun e => hal.initial.trans e

/-- The finalizer comes off an object without the annotation. -/
lemma release_triple (hm : initialState m = none ∨ phase m < 3) :
    CordonTriple r key n init (CordonHolds r key n init m) (handleFinalizerRemoval m)
      fun _ _ => True := by
  refine TripleE.pre (handleFinalizerRemoval_triple (F := fun _ => True) (Lasting.const _) ?_)
    fun w _ h => ⟨h, trivial⟩
  intro w refs hinv _ ho
  have hnone : initialState m = none := hm.elim id (hinv.stored ho).early
  exact ⟨.inl rfl, fun _ => .inr ⟨hnone, hnone⟩⟩

/-- Calls on neither the node nor the object. -/
lemma quiet_call {e : Op} (hn : e.part ≠ .nodes) (hm : e.part ≠ .nodeMaintenances) :
    (restoringHost r key n init).Quiet e := by
  refine fun w hinv => ⟨?_, fun a w' hinv' hexec => ?_⟩
  · cases e <;> trivial
  · refine ⟨hexec.1.history_subset, unschedulable_eq hexec.1 hn n, fun ho' => ?_⟩
    exact ⟨_, hexec.1.frame.nms hm ▸ ho', rfl⟩

lemma quiet_parts {α : Type} {parts : List Part} {x : Action α} (hF : (restoringHost r key n init).Lasting F)
    (hx : Touches parts x) (hn : .nodes ∉ parts) (hm : .nodeMaintenances ∉ parts) :
    CordonTriple r key n init F x fun _ => F := by
  refine quiet hF hx fun p hp e he => quiet_call ?_ ?_
  · rintro h
    exact hn (h ▸ he ▸ hp)
  · rintro h
    exact hm (h ▸ he ▸ hp)

/-- The handler works on objects in phase Cordon, and cleans up in any. -/
lemma rules : CordonRules (restoringHost r key n init) n init (· = .cordon) where
  reversible hinv ho := (hinv.stored ho).reversible
  keeps_flag hk := hk.flag
  keeps_mark hk ho' := hk.mark ho'
  wrote_flag hw := hw
  record _ _ hfin hm hnone hrec := by
    refine ⟨.inr (.inl ⟨hnone, hrec, Nat.le_of_eq (phase_of_reason hm).symm⟩), fun hg => .inl ?_⟩
    rwa [Guarded, hfin]
  drop _ _ hfin hnone hflag := by
    refine ⟨.inr (.inr ⟨hnone, hflag⟩), fun hg => .inl ?_⟩
    rwa [Guarded, hfin]
  patch _ h := fun o ho _ => h o ho

lemma handleCordon_triple (hm : getReadyConditionReason m = .cordon) :
    CordonTriple r key n init (fun w => CordonHolds r key n init m w ∧ InHand key n node m w)
      (handleCordon m node)
      fun a w => getReadyConditionReason a = .cordon ∧ CordonHolds r key n init a w := by
  refine Triple.assume (fun w _ h => h.2.name) fun hname => ?_
  refine (rules.handleCordon_triple hname hm).conseq
    (fun w _ h => ⟨h.1, h.2.flag, fun _ => h.2.mark⟩) fun a w _ h => ⟨h.1.trans hm, h.2.1⟩

lemma handleUnCordon_triple :
    CordonTriple r key n init (fun w => CordonHolds r key n init m w ∧ InHand key n node m w)
      (handleUnCordon m node) fun a w => initialState a = none ∧ CordonHolds r key n init a w := by
  refine Triple.assume (fun w _ h => h.2.name) fun hname => ?_
  exact (rules.handleUnCordon_triple hname).conseq
    (fun w _ h => ⟨h.1, h.2.flag, fun _ => h.2.mark⟩) fun a w _ h => ⟨h.1, h.2.1⟩

lemma cleanup_triple (hdel : m.deleting = true) :
    CordonTriple r key n init (fun w => CordonHolds r key n init m w ∧ InHand key n node m w)
      (r.cleanup m node) fun _ _ => True := by
  refine Triple.assume (fun w _ h => h.2.honours hdel) fun hhon => ?_
  have huncordon : CordonTriple r key n init
      (fun w => CordonHolds r key n init m w ∧ InHand key n node m w)
      (if m.spec.cordon then handleUnCordon m node else pure m)
      fun a w => initialState a = none ∧ CordonHolds r key n init a w := by
    split
    · exact handleUnCordon_triple
    · rename_i hc
      exact .pure (lasting_holds.and lasting_inHand).stable fun w _ h => ⟨hhon.resolve_left hc, h.1⟩
  refine TripleE.bind huncordon fun a => TripleE.of_pure fun ha => ?_
  exact TripleE.bind (quiet_parts lasting_holds unpause_touches (by decide) (by decide)) fun _ =>
    release_triple (.inl ha)

lemma handleScheduledState_triple (hm : getReadyConditionReason m = .scheduled) :
    CordonTriple r key n init (fun w => CordonHolds r key n init m w ∧ InHand key n node m w)
      (r.handleScheduledState m node) fun _ _ => True := by
  refine TripleE.pre ?_ fun w _ h => h.1
  -- phase Cordon is not before Cordon, so nothing is asked of the status update
  have hstep : ∀ a, CordonTriple r key n init (fun _ => a.key = key ∧ True)
      (setReadyConditionReason a .cordon) fun _ _ => True := by
    refine fun a => TripleE.of_pure fun ha => ?_
    refine setReady_stable (H := restoringHost r key n init) (Stable.const _) ha
      (silent (H := restoringHost r key n init) (Lasting.const True) ⟨.inl rfl, fun _ => trivial⟩) ?_
    intro w o now _ _ _ _ hlt
    rw [phase, getReadyConditionReason_withReadyReason] at hlt
    exact absurd hlt (by decide)
  have hpause : ∀ a, CordonTriple r key n init (CordonHolds r key n init a) (pauseMCP node a)
      fun a' _ => a'.key = key ∧ True := by
    intro a
    refine TripleE.pre (pauseMCP_triple (F := fun _ => True) (Lasting.const _) (fun he => ?_) fun name =>
      Triple.assume (fun w _ h => h.1.1) fun hkey => ?_) fun w _ h => ⟨h, trivial⟩
    · rcases he with he | he | he <;> exact quiet_call (by simp [he]) (by simp [he])
    · exact Outcome.ok (update_triple (m := a) (Firm.const _) (fun _ => Stable.const _) ⟨rfl, rfl, rfl⟩
        (fun _ _ _ _ _ => ⟨.inl rfl, .inl⟩) fun _ _ _ _ _ _ _ _ => ⟨hkey, trivial⟩)
  have hadd : CordonTriple r key n init (CordonHolds r key n init m)
      (addFinalizer m maintenanceFinalizerName) fun a w => CordonHolds r key n init a w := by
    refine TripleE.conseq (addFinalizer_triple (m := m) (F := fun _ => True) (L := fun _ => True)
      (E := fun _ => True) (Firm.const _) (Lasting.const _) (Stable.const _) ?_ (fun _ _ _ => trivial)
      fun _ _ _ _ _ _ => trivial) (fun w _ h => ⟨h, trivial, trivial⟩) fun a w _ h => h.2.1
    exact fun _ _ _ _ => ⟨.inl rfl, fun hg => .inl (List.mem_append_left _ hg)⟩
  refine scheduledState_triple (quiet_parts lasting_holds unpause_touches (by decide) (by decide))
    (fun _ => release_triple (.inr ?_)) hadd hpause (fun _ a => ?_) hstep
  · rw [phase_of_reason hm]
    decide
  · exact TripleE.pre (hstep a) fun w _ h => ⟨h.1, trivial⟩

/-- The only step to a phase before Cordon starts from an object without the annotation. -/
lemma mayStatus_of_advance {w : World} {o b : NodeMaintenance} (hinv : CordonInv key n init w)
    (ho : w.nms.get key = some o) (adv : Advance (getReadyConditionReason o) (getReadyConditionReason b))
    (hs : getReadyConditionReason b ≠ .scheduled) (hlt : phase b < 3) : initialState o = none := by
  refine (hinv.stored ho).early ?_
  unfold phase at hlt ⊢
  generalize getReadyConditionReason o = ro at adv
  generalize getReadyConditionReason b = rb at adv hs hlt
  cases adv <;> simp_all [Reason.order]

/-- The way to phase WaitForPodCompletion. -/
lemma toWait_triple (hm : getReadyConditionReason m = .cordon) :
    CordonTriple r key n init (fun w => CordonHolds r key n init m w ∧ InHand key n node m w)
      (do let a ← (if m.spec.cordon then handleCordon m node else pure m)
          let _ ← setReadyConditionReason a .waitForPodCompletion
          return Result.zero) fun _ _ => True := by
  have hcordon : CordonTriple r key n init
      (fun w => CordonHolds r key n init m w ∧ InHand key n node m w)
      (if m.spec.cordon then handleCordon m node else pure m)
      fun a w => getReadyConditionReason a = .cordon ∧ CordonHolds r key n init a w := by
    split
    · exact handleCordon_triple hm
    · exact .pure (lasting_holds.and lasting_inHand).stable fun w _ h => ⟨hm, h.1⟩
  refine hcordon.bind fun a => TripleE.of_pure fun ha => done_triple ?_
  refine TripleE.pre (setReady_triple (F := fun _ => True) (Lasting.const _) ?_) fun w _ h => ⟨h, trivial⟩
  intro w refs now _ _ _ hlt
  rw [phase, getReadyConditionReason_withReadyReason] at hlt
  exact absurd hlt (by decide)

/-- Nothing else is left to show. -/
lemma plan : Plan (restoringHost r key n init) r node (InHand key n node) where
  lasting _ := lasting_inHand
  alike hal h := h.alike hal
  drain he := quiet_call (by simp [he]) (by simp [he])
  podCompletion _ _ _ := quiet_call nofun nofun
  advance hinv ho adv hs _ _ := mayStatus_of_advance hinv ho adv hs
  cleanup hdel _ _ := cleanup_triple hdel
  scheduled hm := handleScheduledState_triple hm
  cordon hm _ := toWait_triple hm

/-- What reading the object tells. -/
structure Seen (key : NamespacedName) (n : String) (m : NodeMaintenance) (w : World) : Prop where
  nodeName : m.spec.nodeName = n
  honours : HonoursCordon m
  mark : ∀ {o}, w.nms.get key = some o → initialState o = initialState m

lemma lasting_seen : (restoringHost r key n init).Lasting (Seen key n m) := by
  intro w w' _ _ hk h
  refine ⟨h.nodeName, h.honours, fun ho' => ?_⟩
  obtain ⟨o, ho, hmark⟩ := hk.mark ho'
  exact hmark.trans (h.mark ho)

/-- The body of the controller. -/
theorem reconcile_triple :
    CordonTriple r key n init (fun _ => True) (r.reconcile key) fun _ _ => True := by
  have hget : CordonTriple r key n init (fun _ => True) (observe (Client.getNodeMaintenance key))
      fun res w => ∀ m, res = .ok m → CordonHolds r key n init m w ∧ Seen key n m w := by
    refine getNodeMaintenance_triple (fun m => lasting_holds.and lasting_seen) ?_
    rintro w m w' hinv - ⟨⟨rfl, hread⟩, hgate⟩
    have ho : w'.nms.get key = some m := hread
    refine ⟨⟨Store.key_of_get ho, m, hinv.consistent.stored ho, rfl⟩, (hinv.stored ho).nodeName,
      hgate m rfl, fun {o} ho' => ?_⟩
    rw [Option.some.inj (ho'.symm.trans ho)]
  have hnode : ∀ m, CordonTriple r key n init (fun w => CordonHolds r key n init m w ∧ Seen key n m w)
      (observe (Client.getNode m.spec.nodeName)) fun res w => (res = .error .notFound → False) ∧
        ∀ node, res = .ok node → CordonHolds r key n init m w ∧ InHand key n node m w := by
    intro m
    refine getNode_triple (lasting_holds.and lasting_seen) (Lasting.const False)
      (fun node => lasting_holds.and lasting_inHand) ?_ ?_
    · -- the node exists
      rintro w w' hinv - ⟨-, hseen⟩ ⟨⟨rfl, hread⟩, -⟩
      rw [hseen.nodeName] at hread
      have hnone : w'.nodes.get n = none := hread.2 rfl
      have hsome := hinv.node
      simp [unschedulable, hnone] at hsome
    · rintro w node w' hinv - ⟨hheld, hseen⟩ ⟨⟨rfl, hread⟩, -⟩
      rw [hseen.nodeName] at hread
      have hn : w'.nodes.get n = some node := hread
      exact ⟨hheld, hseen.honours, Store.key_of_get hn, by simp [unschedulable, hn], hseen.mark⟩
  exact reconcileBody_triple hget hnode (fun m => Triple.absurd fun _ _ h => h)
    fun m node => plan.dispatch_triple

end Restoring

/-- The object exists on an existing node and has not entered phase Cordon. -/
structure BeforeCordon (key : NamespacedName) (w : World) (o : NodeMaintenance) : Prop where
  consistent : Consistent w
  stored : w.nms.get key = some o
  early : phase o < 3
  initial : initialState o = none
  node : (unschedulable w o.spec.nodeName).isSome = true

/-- A configuration in which no reconcile is running. -/
def atRest (w : World) : Config Unit Op Resp World (Except Err Result) := ⟨w, fun _ => none⟩

section Runs
variable {r : Reconciler} {key : NamespacedName} {w₀ : World} {o₀ o : NodeMaintenance}
  {c c' : Config Unit Op Resp World (Except Err Result)}

/-- The invariant and the permissions along a run. -/
lemma BeforeCordon.ok (h : BeforeCordon key w₀ o₀)
    (run : (maintenanceOf r key HonoursCordon).Run (atRest w₀) c) :
    ∃ init, unschedulable w₀ o₀.spec.nodeName = some init ∧
      (restoring r key o₀.spec.nodeName init).Ok c := by
  obtain ⟨init, hinit⟩ := Option.isSome_iff_exists.mp h.node
  refine ⟨init, hinit, sound ?_ (c := atRest w₀) ⟨⟨h.consistent, h.node, fun {o} ho => ?_⟩, nofun⟩ run⟩
  · rintro _ _ rfl
    exact Triple.conseq Restoring.reconcile_triple (fun _ _ h => h) fun _ _ _ _ => trivial
  · obtain rfl : o₀ = o := Option.some.inj (h.stored.symm.trans ho)
    refine ⟨rfl, fun _ => h.initial, fun {v} hv => ?_, .inl hinit⟩
    rw [h.initial] at hv
    cases hv

end Runs

/-! ### Computed runs -/

/-- A player for the life of one NodeMaintenance, without a pool manager. -/
def cordonPlayer (key : NamespacedName) (gate : NodeMaintenance → Prop) [DecidablePred gate] :
    Player (maintenanceOf ⟨false, strokeFormats⟩ key gate) Turn where
  program _ := some (Reconciler.reconcile ⟨false, strokeFormats⟩ key).run
  body h := (Option.some.inj h).symm
  answer _ e w := (w.serve e).bind fun aw => if ReadGate gate e aw.1 then some aw else none
  exec {_ e w a w'} h := by
    obtain ⟨aw, hserve, hgate⟩ := Option.bind_eq_some_iff.mp h
    split at hgate
    · rename_i hg
      cases hgate
      exact ⟨World.perform_of_serve hserve, hg⟩
    · cases hgate
  event t w := w.turn t
  env {t c w'} h := by
    obtain ⟨hchange, o, o', rfl, hkey, ho⟩ := World.change_of_turn h
    refine ⟨hchange, fun _ => rfl, fun hnone => ?_⟩
    have ne : key ≠ o'.key := by
      rintro rfl
      rw [← hkey, hnone] at ho
      cases ho
    rwa [World.get_write_ne ne]

/-- A whole reconcile. -/
def wholeReconcile : List (Move Unit Turn) := [.start (), .finish () 60]

lemma beforeCordon_created :
    BeforeCordon ⟨"default", "nm"⟩ createdMaintenance
      (World.empty.stamp (drainedMaintenance "nm")) where
  consistent := consistent_created
  stored := by decide
  early := by decide
  initial := by decide
  node := by decide

/-- The object goes through the phases until its node is cordoned. -/
def toCordoned : List (Move Unit Turn) :=
  wholeReconcile ++ [.event (.schedule ⟨"default", "nm"⟩)] ++ wholeReconcile ++ wholeReconcile

end MaintenanceOperator
