import MaintenanceOperator.Cluster.Serve
import MaintenanceOperator.Controller.Changes
import MaintenanceOperator.Controller.Flow
import MaintenanceOperator.Lib.Script

/-!
# Additional requestors during a deletion

One NodeMaintenance in phase Ready that is being deleted, while requestors add and remove themselves in
`Spec.AdditionalRequestors`. The controller looks at the list in the version it read, and then
uncordons the node and unpauses the pool with calls that the resource version of the object does not
protect. So a requestor that joins in between finds a node that is being given back. If requestors join
only while nothing has been given back and no running reconcile has read an empty list, the node and
the pool are as they were whenever the list is not empty.
-/

namespace MaintenanceOperator
open Lib Discipline Reconciler Host

/-- The cluster, and whether the last read of the object found an empty list. -/
structure Deletion where
  world : World
  decided : Bool

/-- Pause flag and operator annotation of a pool. -/
def poolState (w : World) (name : String) : Option (Bool × Bool) :=
  (w.pools.get name).map fun p => (p.paused, p.annotated)

/-- Neither flags of nodes nor pauses of pools differ. -/
def SameReleases (w w' : World) : Prop :=
  (∀ n, unschedulable w' n = unschedulable w n) ∧ ∀ p, poolState w' p = poolState w p

/-- `decided` after a call. -/
def decidedAfter (key : NamespacedName) (e : Op) (a : Resp e) (decided : Bool) : Bool :=
  match readObject e a with
  | some o => if o.key = key then o.spec.additionalRequestors.isEmpty else decided
  | none => decided

/-- The deletion of one NodeMaintenance: the controller reconciles it, and its requestors edit it.
`joins` says when a requestor may join an empty list. -/
def deletionOf (r : Reconciler) (key : NamespacedName)
    (joins : Config Unit Op Resp Deletion (Except Err Result) → Prop) :
    System Unit Op Resp Deletion (Except Err Result) where
  exec _ e s a s' := Perform .current e s.world a s'.world ∧ s'.decided = decidedAfter key e a s.decided
  env c s' := Change c.state.world s'.world ∧ SameReleases c.state.world s'.world ∧
    s'.decided = c.state.decided ∧
    (c.state.world.nms.get key = none → s'.world.nms.get key = none) ∧
    ∀ o o', c.state.world.nms.get key = some o → s'.world.nms.get key = some o' →
      o.spec.additionalRequestors = [] → o'.spec.additionalRequestors ≠ [] → joins c
  body _ p := p = (r.reconcile key).run

/-- Nothing has been given back since `w₀`, and no running reconcile has read an empty list. -/
def InTime (w₀ : World) (c : Config Unit Op Resp Deletion (Except Err Result)) : Prop :=
  SameReleases w₀ c.state.world ∧ ((c.threads ()).isNone = true ∨ c.state.decided = false)

/-- What holds of the stored object. -/
structure Awaited (w₀ w : World) (o : NodeMaintenance) : Prop where
  deleting : o.deleting = true
  terminal : Terminal o
  kept : o.spec.additionalRequestors ≠ [] → SameReleases w₀ w

/-- The invariant. -/
structure DeletionInv (key : NamespacedName) (w₀ : World) (s : Deletion) : Prop where
  consistent : Consistent s.world
  stored : ∀ {o}, s.world.nms.get key = some o → Awaited w₀ s.world o

/-- The stored object has no additional requestors. -/
def ListEmpty (key : NamespacedName) (w : World) : Prop :=
  ∀ o, w.nms.get key = some o → o.spec.additionalRequestors = []

/-- Permissions. -/
def deletionPerm (key : NamespacedName) (s : Deletion) : Op → Prop
  | .update b => b.key = key ∧ ∀ o, s.world.nms.get key = some o → Matches o b →
      b.spec.additionalRequestors = o.spec.additionalRequestors
  | .statusUpdate b => b.key = key ∧
      ∀ o, s.world.nms.get key = some o → Matches o b → Terminal b
  | .patchUnschedulable _ _ | .patchMachineConfigPool _ _ => ListEmpty key s.world
  | _ => True

/-- An empty list was read, and the list is still empty. -/
def Settling (key : NamespacedName) (s : Deletion) : Prop := s.decided = true ∧ ListEmpty key s.world

/-- What the controller relies on. -/
structure DeletionRely (key : NamespacedName) (s s' : Deletion) : Prop where
  history : ∀ v ∈ s.world.history, v ∈ s'.world.history
  settling : Settling key s → Settling key s'

section Calls
variable {key : NamespacedName} {w₀ w w' : World} {s s' : Deletion} {e : Op} {a : Resp e}

lemma SameReleases.refl (w : World) : SameReleases w w := ⟨fun _ => rfl, fun _ => rfl⟩

lemma SameReleases.trans {w₁ w₂ w₃ : World} (h : SameReleases w₁ w₂) (h' : SameReleases w₂ w₃) :
    SameReleases w₁ w₃ :=
  ⟨fun n => (h'.1 n).trans (h.1 n), fun p => (h'.2 p).trans (h.2 p)⟩

/-- Only the two patches release anything. -/
lemma sameReleases_call (h : Perform .current e w a w') (hn : e.part ≠ .nodes) (hp : e.part ≠ .pools) :
    SameReleases w w' := by
  refine ⟨unschedulable_eq h hn, fun p => ?_⟩
  rw [poolState, h.frame.pools hp, poolState]

/-- What a permitted call leaves at the name of the object. -/
lemma DeletionInv.after (h : DeletionInv key w₀ s) (hp : deletionPerm key s e)
    (hperf : Perform .current e s.world a w') {o' : NodeMaintenance}
    (ho' : w'.nms.get key = some o') :
    ∃ o, s.world.nms.get key = some o ∧ o'.deletionTimestamp = o.deletionTimestamp ∧ Terminal o' ∧
      o'.spec.additionalRequestors = o.spec.additionalRequestors := by
  cases hperf.nmsEffect with
  | same hn _ _ => exact ⟨o', hn ▸ ho', rfl, (h.stored (hn ▸ ho')).terminal, rfl⟩
  | @update _ b o spec ho hm hspec _ =>
    obtain ⟨rfl, hok⟩ := hp
    obtain rfl := putSpec_eq hspec
    have hkey : (s.world.merge o b b.spec.normalize).key = b.key := hm.1
    rcases World.get_write ho' with ⟨ne, -⟩ | ⟨-, -, rfl⟩
    · exact absurd hkey.symm ne
    · exact ⟨o, ho, rfl, (h.stored ho).terminal, hok o ho hm⟩
  | @statusUpdate _ b o ho hm =>
    obtain ⟨rfl, hok⟩ := hp
    have hkey : (s.world.mergeStatus o b).key = b.key := hm.1
    rcases World.get_write ho' with ⟨ne, -⟩ | ⟨-, -, rfl⟩
    · exact absurd hkey.symm ne
    · exact ⟨o, ho, rfl, hok o ho hm, rfl⟩

/-- A permitted call keeps the invariant. -/
lemma DeletionInv.call (h : DeletionInv key w₀ s) (hp : deletionPerm key s e)
    (hperf : Perform .current e s.world a s'.world) : DeletionInv key w₀ s' := by
  refine ⟨hperf.consistent h.consistent, fun {o'} ho' => ?_⟩
  obtain ⟨o, ho, hdel, hterm, hlist⟩ := h.after hp hperf ho'
  have haw := h.stored ho
  refine ⟨?_, hterm, fun hne => ?_⟩
  · rw [NodeMaintenance.deleting, hdel]
    exact haw.deleting
  · rw [hlist] at hne
    refine (haw.kept hne).trans (sameReleases_call hperf ?_ ?_)
    · -- patches are issued with an empty list only
      intro he
      cases e with
      | patchUnschedulable _ _ => exact hne (hp o ho)
      | _ => cases he
    · intro he
      cases e with
      | patchMachineConfigPool _ _ => exact hne (hp o ho)
      | _ => cases he

/-- Moves of the others keep the invariant, as long as requestors join in time. -/
lemma DeletionInv.change (h : DeletionInv key w₀ s) (hc : Change s.world s'.world)
    (hsame : SameReleases s.world s'.world)
    (hgone : s.world.nms.get key = none → s'.world.nms.get key = none)
    (hjoin : ∀ o o', s.world.nms.get key = some o → s'.world.nms.get key = some o' →
      o.spec.additionalRequestors = [] → o'.spec.additionalRequestors ≠ [] → SameReleases w₀ s.world) :
    DeletionInv key w₀ s' := by
  refine ⟨hc.consistent h.consistent, fun {o'} ho' => ?_⟩
  rcases hc.stored ho' with ⟨o, ho, hfol⟩ | hfresh
  · have haw := h.stored ho
    refine ⟨hfol.deleting haw.deleting, ?_, fun hne => ?_⟩
    · have hreason : getReadyConditionReason o' = getReadyConditionReason o := by
        refine hfol.reason.resolve_right fun hlt => ?_
        rcases haw.terminal with e | e <;> simp [phase_of_reason e, Reason.order] at hlt
      rw [Terminal, hreason]
      exact haw.terminal
    · by_cases hlist : o.spec.additionalRequestors = []
      · exact (hjoin o o' ho ho' hlist hne).trans hsame
      · exact (haw.kept hlist).trans hsame
  · rw [hgone hfresh.free] at ho'
    cases ho'

/-- A call that leaves the lists alone keeps the controller's decision. -/
lemma Settling.call (h : Settling key s) (hperf : Perform .current e s.world a s'.world)
    (hd : s'.decided = decidedAfter key e a s.decided) (hlist : ListEmpty key s'.world) :
    Settling key s' := by
  refine ⟨?_, hlist⟩
  rw [hd]
  cases e with
  | getNodeMaintenance k =>
    cases a with
    | error err => exact h.1
    | ok o =>
      have ho : s.world.nms.get k = some o := hperf.2
      simp only [decidedAfter, readObject]
      split
      · rename_i hk
        obtain rfl := Store.key_of_get ho
        rw [h.2 o (hk ▸ ho)]
        rfl
      · exact h.1
  | _ => exact h.1

end Calls

section Plan
variable (r : Reconciler) (key : NamespacedName) (w₀ : World)

/-- The proof plan. -/
def awaiting : Discipline (deletionOf r key (InTime w₀)) where
  inv := DeletionInv key w₀
  perm _ := deletionPerm key
  rely _ := DeletionRely key
  inv_call h hp he := h.call hp he.1
  rely_call ne := absurd rfl ne
  inv_env h he := h.change he.1 he.2.1 he.2.2.2.1 fun o o' ho ho' hl hl' => (he.2.2.2.2 o o' ho ho' hl hl').1
  rely_env {c s' j p} hrun h he := by
    refine ⟨he.1.history_subset, fun hset => ⟨he.2.2.1.trans hset.1, fun o' ho' => ?_⟩⟩
    by_contra hne
    rcases he.1.stored ho' with ⟨o, ho, -⟩ | hfresh
    · -- no requestor joins while a reconcile that read an empty list is running
      have hjoin := (he.2.2.2.2 o o' ho ho' (hset.2 o ho) hne).2
      cases j
      simp [hrun, hset.1] at hjoin
    · rw [he.2.2.2.1 hfresh.free] at ho'
      cases ho'

/-- The controller, as a host. -/
def awaitingHost : Host (awaiting r key w₀) () key where
  world := Deletion.world
  Keeps := DeletionRely key
  Wrote s s' := Settling key s → Settling key s'
  MayUpdate _ o b := b.spec.additionalRequestors = o.spec.additionalRequestors
  MayStatus _ _ b := Terminal b
  consistent h := h.consistent
  perform h he := he.1.cached fun _ ho => h.consistent.stored (Store.mem_items.mp ho)
  perm_read {_ e} _ he := by cases e <;> trivial
  perm_update hk h := ⟨hk, h⟩
  perm_status hk h := ⟨hk, h⟩
  history h := h.history
  keeps_rely _ _ h := h
  keeps_read {e s a s'} _ _ hexec he := by
    refine ⟨hexec.1.history_subset, fun hset => hset.call hexec.1 hexec.2 ?_⟩
    have hf := hexec.1.frame
    rw [he] at hf
    rw [hf.eq]
    exact hset.2
  keeps_alike {e b s a s'} _ _ hexec he hal := by
    refine ⟨hexec.1.history_subset, fun hset => hset.call hexec.1 hexec.2 fun o' ho' => ?_⟩
    obtain ⟨o, ho, hal'⟩ := Alike.stored hexec.1 he hal ho'
    exact hal'.requestors.trans (hset.2 o ho)
  wrote_update {b s a s'} hinv _ hp hexec hset := by
    refine hset.call hexec.1 hexec.2 fun o' ho' => ?_
    obtain ⟨o, ho, -, -, hlist⟩ := DeletionInv.after (e := .update b) hinv hp hexec.1 ho'
    exact hlist.trans (hset.2 o ho)
  update_alike _ _ hal := hal.requestors
  status_alike {s o b} h ho hal := by
    rw [Terminal, hal.reason]
    exact (h.stored ho).terminal

end Plan

namespace Awaiting

/-- What is known of the version in hand. -/
def InHand (key : NamespacedName) (m : NodeMaintenance) (s : Deletion) : Prop :=
  (Terminal m ∧ m.deleting = true) ∧ (m.spec.additionalRequestors = [] → Settling key s)

variable {r : Reconciler} {key : NamespacedName} {w₀ : World} {m : NodeMaintenance} {node : Node}
  {A : Deletion → Prop}

/-- Triples of the controller. -/
abbrev DeletionTriple (r : Reconciler) (key : NamespacedName) (w₀ : World) {α : Type}
    (A : Deletion → Prop) (x : Action α) (Q : α → Deletion → Prop) : Prop :=
  (awaiting r key w₀).TripleE () A x Q

lemma firm_settling : (awaitingHost r key w₀).Firm (Settling key) :=
  ⟨fun _ _ _ _ hk h => hk.settling h, fun _ _ _ _ hw h => hw h⟩

lemma lasting_inHand : (awaitingHost r key w₀).Lasting (InHand key m) :=
  fun _ _ _ _ hk h => ⟨h.1, fun hl => hk.settling (h.2 hl)⟩

/-- Calls that release nothing and write no object. -/
lemma quiet_call {e : Op} (hn : e.part ≠ .nodes) (hp : e.part ≠ .pools)
    (hm : e.part ≠ .nodeMaintenances) : (awaitingHost r key w₀).Quiet e := by
  refine fun s hinv => ⟨?_, fun a s' hinv' hexec => ?_⟩
  · cases e <;> trivial
  · refine ⟨hexec.1.history_subset, fun hset => hset.call hexec.1 hexec.2 ?_⟩
    rw [ListEmpty, hexec.1.frame.nms hm]
    exact hset.2

/-- While the list is empty, node and pool may be given back. -/
lemma release_triple {α : Type} {x : Action α} {parts : List Part} (hx : Touches parts x)
    (hm : .nodeMaintenances ∉ parts) :
    DeletionTriple r key w₀ (fun s => (awaitingHost r key w₀).Holds m s ∧ Settling key s) x
      fun _ s => (awaitingHost r key w₀).Holds m s ∧ Settling key s := by
  have ne : ∀ {e : Op}, e.part = .nothing ∨ e.part ∈ parts → e.part ≠ .nodeMaintenances := by
    rintro e (h | h)
    · rw [h]
      decide
    · exact fun he => hm (he ▸ h)
  refine TripleE.of_all (lasting_holds.and firm_settling.1).stable ?_ ?_ hx
  · rintro s e - ⟨-, hset⟩ he
    cases e with
    | patchUnschedulable _ _ => exact hset.2
    | patchMachineConfigPool _ _ => exact hset.2
    | update _ => exact absurd rfl (ne he)
    | statusUpdate _ => exact absurd rfl (ne he)
    | _ => trivial
  · intro s e a s' hinv _ ⟨hheld, hset⟩ he hexec
    refine ⟨hheld.call hinv hexec, hset.call hexec.1 hexec.2 ?_⟩
    rw [ListEmpty, hexec.1.frame.nms (ne he)]
    exact hset.2

lemma cleanup_triple :
    DeletionTriple r key w₀ (fun s => (awaitingHost r key w₀).Holds m s ∧ Settling key s)
      (r.cleanup m node) fun _ _ => True := by
  refine TripleE.bind (uncordonStep_triple firm_settling (fun _ _ _ _ _ _ => rfl)
    (release_triple runCordonOrUncordon_touches (by decide))) fun a => TripleE.of_pure fun _ => ?_
  refine TripleE.bind (release_triple unpause_touches (by decide)) fun _ => ?_
  exact handleFinalizerRemoval_triple firm_settling.1 fun _ _ _ _ _ => rfl

/-- Nothing else is left to show: the object stays in phase Ready or RequestorFailed. -/
lemma plan : Plan (awaitingHost r key w₀) r node (InHand key) where
  lasting _ := lasting_inHand
  alike {m a s} hal h := by
    refine ⟨⟨?_, hal.deleting.trans h.1.2⟩, fun hl => h.2 (hal.requestors ▸ hl)⟩
    rw [Terminal, hal.reason]
    exact h.1.1
  drain he := quiet_call (by simp [he]) (by simp [he]) (by simp [he])
  podCompletion _ _ _ := quiet_call nofun nofun nofun
  advance {s o b} hinv ho adv hs hc _ := by
    have hterm := (hinv.stored ho).terminal
    unfold Terminal at hterm
    change getReadyConditionReason b = .ready ∨ getReadyConditionReason b = .requestorFailed
    generalize getReadyConditionReason o = ro at adv hterm
    generalize getReadyConditionReason b = rb at adv
    cases adv <;> simp_all
  cleanup _ _ hlist := Triple.assume (fun s _ h => h.2.1.1) fun hterm =>
    TripleE.pre cleanup_triple fun s _ h => ⟨h.1, h.2.2 (hlist hterm)⟩
  scheduled hm := Triple.absurd fun s _ h => by
    rcases h.2.1.1 with e | e <;> rw [hm] at e <;> cases e
  cordon hm _ := Triple.absurd fun s _ h => by
    rcases h.2.1.1 with e | e <;> rw [hm] at e <;> cases e

/-- The body of the controller. -/
theorem reconcile_triple :
    DeletionTriple r key w₀ (fun _ => True) (r.reconcile key) fun _ _ => True := by
  have hA : ∀ m, (awaitingHost r key w₀).Lasting fun s =>
      (awaitingHost r key w₀).Holds m s ∧ InHand key m s := fun m => lasting_holds.and lasting_inHand
  have hget : DeletionTriple r key w₀ (fun _ => True) (observe (Client.getNodeMaintenance key))
      fun res s => ∀ m, res = .ok m → (awaitingHost r key w₀).Holds m s ∧ InHand key m s := by
    refine getNodeMaintenance_triple hA ?_
    rintro s m ⟨w', decided⟩ hinv - ⟨⟨rfl, hread⟩, hdec⟩
    have ho : s.world.nms.get key = some m := hread
    have hkey := Store.key_of_get ho
    have haw := hinv.stored ho
    -- an empty list in hand was empty in the store when it was read: this is the decision
    refine ⟨⟨hkey, m, hinv.consistent.stored ho, rfl⟩, ⟨haw.terminal, haw.deleting⟩, fun hl => ?_⟩
    refine ⟨?_, fun o ho' => ?_⟩
    · simpa [decidedAfter, readObject, hkey, hl] using hdec
    · rw [Option.some.inj (ho'.symm.trans ho), hl]
  have hkeep : ∀ {s s' : Deletion} {e : Op} {a : Resp e} {m}, (awaiting r key w₀).inv s →
      (awaiting r key w₀).inv s' → (awaitingHost r key w₀).Holds m s ∧ InHand key m s →
      (deletionOf r key (InTime w₀)).exec () e s a s' → e.part = .nothing →
      (awaitingHost r key w₀).Holds m s' ∧ InHand key m s' := fun hi hi' h hexec he =>
    hA _ _ _ hi hi' ((awaitingHost r key w₀).keeps_read hi hi' hexec he) h
  refine reconcileBody_triple (N := fun m => (awaitingHost r key w₀).Holds m) hget
    (fun m => getNode_triple (hA m) lasting_holds (fun node => hA m) ?_ ?_) (fun m => ?_)
    fun m node => plan.dispatch_triple
  · exact fun s s' hi hi' h hexec => (hkeep hi hi' h hexec rfl).1
  · exact fun s node s' hi hi' h hexec => hkeep hi hi' h hexec rfl
  · refine nodeNotFound_triple lasting_holds (quiet_call nofun nofun nofun) ?_
    exact TripleE.pre (removeFinalizer_triple (F := fun _ => True) (Lasting.const _)
      fun _ _ _ _ _ => rfl) fun s _ h => ⟨h, trivial⟩

end Awaiting

/-- The Ready condition of the object is true. -/
def ReadyTrue (o : NodeMaintenance) : Prop :=
  (findStatusCondition o.status.conditions conditionTypeReady).any (·.status = .true) = true

/-- The object is in phase Ready and is being deleted. -/
structure DeletedInReady (key : NamespacedName) (w : World) (o : NodeMaintenance) : Prop where
  consistent : Consistent w
  stored : w.nms.get key = some o
  ready : getReadyConditionReason o = .ready
  deleting : o.deleting = true

/-- While the object is Ready and has additional requestors, its node and its pool are as they were. -/
def RequestorsProtected (key : NamespacedName) (w₀ w : World) : Prop :=
  ∀ o, w.nms.get key = some o → ReadyTrue o → o.spec.additionalRequestors ≠ [] → SameReleases w₀ w

/-- No reconcile is running, and nothing has been read. -/
def beforeDeletion (w : World) : Config Unit Op Resp Deletion (Except Err Result) :=
  ⟨⟨w, false⟩, fun _ => none⟩

lemma deletion_body (joins : Config Unit Op Resp Deletion (Except Err Result) → Prop) (i : Unit) :
    (deletionOf r key joins).body i (r.reconcile key).run := rfl

lemma deletion_exec {joins : Config Unit Op Resp Deletion (Except Err Result) → Prop} {e : Op}
    {s s' : Deletion} {a : Resp e}
    (h : (s.world.serve e).map (fun aw => (aw.1, ⟨aw.2, decidedAfter key e aw.1 s.decided⟩)) =
      some (a, s')) : (deletionOf r key joins).exec () e s a s' := by
  obtain ⟨aw, hserve, haw⟩ := Option.map_eq_some_iff.mp h
  cases haw
  exact ⟨World.perform_of_serve hserve, rfl⟩

lemma deletion_env {joins : Config Unit Op Resp Deletion (Except Err Result) → Prop} {t : Turn}
    {c : Config Unit Op Resp Deletion (Except Err Result)} {s' : Deletion} (hjoins : joins c)
    (h : (c.state.world.turn t).map (fun w => (⟨w, c.state.decided⟩ : Deletion)) = some s') :
    (deletionOf r key joins).env c s' := by
  obtain ⟨w, hw, rfl⟩ := Option.map_eq_some_iff.mp h
  obtain ⟨hchange, o, o', rfl, hkey, ho⟩ := World.change_of_turn hw
  refine ⟨hchange, ⟨fun _ => rfl, fun _ => rfl⟩, rfl, fun hnone => ?_, fun _ _ _ _ _ _ => hjoins⟩
  have ne : key ≠ o'.key := by
    rintro rfl
    rw [← hkey, hnone] at ho
    cases ho
  exact (World.get_write_ne ne).trans hnone

/-- A player for a deletion in which the others take the given turns. -/
def deletionPlayer {V : Type} (key : NamespacedName)
    (joins : Config Unit Op Resp Deletion (Except Err Result) → Prop) (turn : V → Turn)
    (hjoins : ∀ (_ : V) c, joins c) : Player (deletionOf ⟨false, strokeFormats⟩ key joins) V where
  program _ := some (Reconciler.reconcile ⟨false, strokeFormats⟩ key).run
  body h := Option.some.inj h ▸ deletion_body joins _
  answer _ e s := (s.world.serve e).map fun aw => (aw.1, ⟨aw.2, decidedAfter key e aw.1 s.decided⟩)
  exec h := deletion_exec h
  event v s := (s.world.turn (turn v)).map fun w => ⟨w, s.decided⟩
  env {v c _} h := deletion_env (hjoins v c) h

/-- An object in phase Ready on the first node that is being deleted. -/
def readyMaintenance (requestors : List String) : NodeMaintenance :=
  { drainedMaintenance "nm" with
    deletionTimestamp := some 1
    annotations := [(nodeInitialStateUnschedulableAnnot, falseString)]
    finalizers := [maintenanceFinalizerName]
    ownerReferences := [⟨"", "Node", "node-1", "node-1"⟩]
    spec := { (drainedMaintenance "nm").spec with additionalRequestors := requestors }
    status := ⟨[⟨conditionTypeReady, .true, 1, 0, .ready, ""⟩], [], none⟩ }

/-- The cluster with this object, and its node cordoned. -/
def deletedMaintenance (requestors : List String) : World :=
  { World.empty with nodes := .ofList [{ firstNode with unschedulable := true }] }.write
    (readyMaintenance requestors)

lemma deletedInReady (requestors : List String) :
    DeletedInReady ⟨"default", "nm"⟩ (deletedMaintenance requestors)
      (World.empty.stamp (readyMaintenance requestors)) where
  consistent := Consistent.write
    (w := { World.empty with nodes := .ofList [{ firstNode with unschedulable := true }] })
    (Consistent.empty.of_eq rfl rfl rfl) fun _ hv => (nomatch hv)
  stored := rfl
  ready := rfl
  deleting := rfl

end MaintenanceOperator
