import MaintenanceOperator.Cluster.Serve
import MaintenanceOperator.Controller.ConditionChanged
import MaintenanceOperator.Controller.Host
import MaintenanceOperator.Lib.Script

/-!
# No lost wake-up

After a reconcile has returned, the work queue comes back to the object if the reconcile failed, asked
to be run again, or made an update that the event filter lets through
(`ConditionChangedPredicate.update`). Here one reconcile runs by itself, while others may do anything
but write the object, delete its node or free drain requests, and every call may fail. The updates of
the object are put on record as the watch reports them. A reconcile then never gets stuck, and however
its calls turn out it has one of the above outcomes, unless nothing is left to do (`no_lost_wakeup`).
-/

namespace MaintenanceOperator
open Lib Discipline Reconciler

/-! ### One reconcile and its surroundings -/

/-- The cluster, and the updates of the object that the watch has reported. -/
structure Watched where
  world : World
  events : List UpdateEvent

/-- What the watch reports of a change. -/
def updateEvents (key : NamespacedName) (w w' : World) : List UpdateEvent :=
  match w.nms.get key, w'.nms.get key with
  | some o, some o' => if o = o' then [] else [⟨some o, some o'⟩]
  | _, _ => []

/-- The drain manager has no dangling entries. -/
def Allocated (w : World) : Prop :=
  ∀ uid id, w.drainRequests.get? uid = some id → id < w.requests.length

/-- What the others may do meanwhile. -/
structure Bystander (key : NamespacedName) (w w' : World) : Prop where
  stored : w'.nms.get key = w.nms.get key
  nodes : ∀ name, (w.nodes.get name).isSome → (w'.nodes.get name).isSome
  requests : w.requests.length ≤ w'.requests.length
  allocated : Allocated w → Allocated w'

/-- A reconcile under way: reads are current, calls may fail, and no second one is started. -/
def watched (key : NamespacedName) : System Unit Op Resp Watched (Except Err Result) where
  exec _ e s a s' := Perform .current e s.world a s'.world ∧
    s'.events = s.events ++ updateEvents key s.world s'.world
  env c s' := s'.events = c.state.events ∧ Bystander key c.state.world s'.world
  body _ _ := False

/-- A reconcile that is about to begin. -/
def begun (r : Reconciler) (key : NamespacedName) (w : World) :
    Config Unit Op Resp Watched (Except Err Result) :=
  ⟨⟨w, []⟩, fun _ => some (r.reconcile key).run⟩

/-! ### Outcomes -/

/-- The update changes the Ready condition. -/
def ReadyChanged (ev : UpdateEvent) : Prop :=
  ∃ o o', ev = ⟨some o, some o'⟩ ∧ findStatusCondition o.status.conditions conditionTypeReady ≠
    findStatusCondition o'.status.conditions conditionTypeReady

/-- A change of the Ready condition has been stored that the event filter lets through. -/
def Woken (sorter : Sorter cmpByType) (s : Watched) : Prop :=
  ∃ ev ∈ s.events, ReadyChanged ev ∧ ConditionChangedPredicate.update sorter ev = true

/-- The object is being deleted and the operator's finalizer is no longer on it. If a client had put it
on more than once, one of them has come off, by an update that the event filter lets through. -/
def Released (sorter : Sorter cmpByType) (key : NamespacedName) (o : NodeMaintenance) (s : Watched) :
    Prop :=
  o.deleting = true ∧ ∀ o', s.world.nms.get key = some o' → maintenanceFinalizerName ∈ o'.finalizers →
    1 < o.finalizers.count maintenanceFinalizerName ∧
      ∃ ev ∈ s.events, ConditionChangedPredicate.update sorter ev = true

/-- Nothing is to be done for the object. -/
def AtRest (o : NodeMaintenance) : Prop :=
  getReadyConditionReason o = .pending ∨
  getReadyConditionReason o = .ready ∧ requestorFailed o = false ∨
  getReadyConditionReason o = .requestorFailed ∧ requestorFailed o = true

/-- The object, which was `o` before the reconcile, is not forgotten after it. -/
def Remembered (sorter : Sorter cmpByType) (key : NamespacedName) (o : NodeMaintenance)
    (res : Result) (s : Watched) : Prop :=
  0 < res.requeueAfter ∨ Woken sorter s ∨ Released sorter key o s ∨
    ∃ o', s.world.nms.get key = some o' ∧ AtRest o'

/-- The phases that the operator sets. -/
def OperatorPhase (o : NodeMaintenance) : Prop :=
  getReadyConditionReason o ∈ [.pending, .scheduled, .cordon, .waitForPodCompletion, .draining, .ready,
    .requestorFailed]

namespace Wakeup
variable {key : NamespacedName} {n : String} {s s' : Watched} {m a b o : NodeMaintenance}

/-! ### Proof plan -/

/-- What neither the others nor calls other than writes of the object change. -/
structure Unmoved (key : NamespacedName) (s s' : Watched) : Prop where
  events : s'.events = s.events
  stored : s'.world.nms.get key = s.world.nms.get key
  requests : s.world.requests.length ≤ s'.world.requests.length

lemma updateEvents_of_eq {w w' : World} (h : w'.nms.get key = w.nms.get key) :
    updateEvents key w w' = [] := by
  unfold updateEvents
  rw [h]
  split
  · rename_i ho ho'
    rw [ho] at ho'
    simp [Option.some.inj ho']
  · rfl

/-- Requests are never freed. -/
lemma requests_le {e : Op} {w w' : World} {ans : Resp e} (h : Perform .current e w ans w') :
    w.requests.length ≤ w'.requests.length := by
  cases h.drainEffect with
  | same hr _ => rw [hr]
  | new _ => simp
  | add _ _ => simp
  | remove _ => simp

lemma allocated_call {e : Op} {w w' : World} {ans : Resp e} (h : Perform .current e w ans w')
    (hw : Allocated w) : Allocated w' := by
  have hle := requests_le h
  intro uid id hid
  -- every entry is an old one, or the request just added, which has been made before
  cases h.drainEffect with
  | same hr hd =>
    rw [hd] at hid
    exact (hw uid id hid).trans_le hle
  | new _ => exact (hw uid id hid).trans_le hle
  | @add _ id₁ q hq hnone =>
    by_cases e : uid = q.uid
    · subst e
      rw [GoMap.get?_set_self] at hid
      obtain rfl := Option.some.inj hid
      obtain ⟨hlt, -⟩ := List.getElem?_eq_some_iff.mp hq
      exact hlt.trans_le hle
    · exact (hw uid id ((GoMap.get?_set_ne _ e).symm.trans hid)).trans_le hle
  | @remove _ uid₁ id₁ err _ =>
    by_cases e : uid = uid₁
    · subst e
      rw [GoMap.get?_delete_self] at hid
      cases hid
    · exact (hw uid id ((GoMap.get?_delete_ne e).symm.trans hid)).trans_le hle

/-- No call deletes a node. -/
lemma node_call {e : Op} {w w' : World} {ans : Resp e} (h : Perform .current e w ans w')
    (hn : (w.nodes.get n).isSome) : (w'.nodes.get n).isSome := by
  by_cases hp : e.part = .nodes
  · cases e with
    | patchUnschedulable name desired =>
      rcases WriteAnswer.effect h with rfl | ⟨_, hw⟩
      · exact hn
      · simp only [World.patchUnschedulable, Option.bind_eq_bind, Option.map_eq_some_iff,
          Option.bind_eq_some_iff] at hw
        obtain ⟨w₁, ⟨node, hnode, hput⟩, hw⟩ := hw
        cases hput
        cases hw
        by_cases e : n = node.name
        · subst e
          exact Option.isSome_of_eq_some (Store.get_put_self w.nodes { node with unschedulable := desired })
        · have hput : (w.nodes.put { node with unschedulable := desired }).get n = w.nodes.get n :=
            Store.get_put_ne e
          exact hput ▸ hn
    | _ => cases hp
  · rw [h.frame.nodes hp]
    exact hn

/-- A call that does not write NodeMaintenances. -/
lemma unmoved_call {e : Op} {ans : Resp e} (he : e.part ≠ .nodeMaintenances)
    (h : (watched key).exec () e s ans s') : Unmoved key s s' := by
  have hnms : s'.world.nms.get key = s.world.nms.get key := by rw [h.1.frame.nms he]
  refine ⟨?_, hnms, requests_le h.1⟩
  rw [h.2, updateEvents_of_eq hnms, List.append_nil]

/-- The node of the object exists, and every call can be answered. -/
def plan (key : NamespacedName) (n : String) : Discipline (watched key) where
  inv s := (s.world.nodes.get n).isSome ∧ Allocated s.world
  perm _ s e := (s.world.serve e).isSome
  rely _ := Unmoved key
  inv_call hinv _ h := ⟨node_call h.1 hinv.1, allocated_call h.1 hinv.2⟩
  rely_call ne _ _ _ := absurd (Subsingleton.elim _ _) ne
  inv_env hinv h := ⟨h.2.nodes n hinv.1, h.2.allocated hinv.2⟩
  rely_env _ _ h := ⟨h.1, h.2.stored, h.2.requests⟩

/-- Triples of the plan. -/
abbrev WakeTriple (key : NamespacedName) (n : String) {β : Type} (A : Watched → Prop) (x : Action β)
    (Q : β → Watched → Prop) : Prop :=
  (plan key n).TripleE () A x Q

/-- Assertions of the plan. -/
abbrev WakeStable (key : NamespacedName) (n : String) (A : Watched → Prop) : Prop :=
  (plan key n).Stable () A

/-- A call that can always be answered and writes no NodeMaintenance. -/
def Passing (e : Op) : Prop := e.part ≠ .nodeMaintenances ∧ ∀ w : World, (w.serve e).isSome

lemma pass {β : Type} {A : Watched → Prop} {x : Action β} (hA : WakeStable key n A)
    (hx : AllE Passing x) : WakeTriple key n A x fun _ => A := by
  refine TripleE.of_all hA (fun s e _ _ he => he.2 s.world) ?_ hx
  intro s e ans s' hinv hinv' hAs he hexec
  exact hA s s' hinv hinv' (unmoved_call he.1 hexec) hAs

/-- One call that writes no NodeMaintenance. -/
lemma pass_call {A : Watched → Prop} {e : Op} {Q : Resp e → Watched → Prop} (hA : WakeStable key n A)
    (hQ : ∀ ans, WakeStable key n (Q ans)) (he : e.part ≠ .nodeMaintenances)
    (hp : ∀ s, (plan key n).inv s → A s → (s.world.serve e).isSome)
    (h : ∀ s ans s', (plan key n).inv s' → A s → A s' → Perform .current e s.world ans s'.world →
      Q ans s') : (plan key n).Triple () A (issue e) Q := by
  refine Triple.lift hA hQ hp ?_
  intro s ans s' hinv hinv' hAs hexec
  exact h s ans s' hinv' hAs (hA s s' hinv hinv' (unmoved_call he hexec) hAs) hexec.1

lemma passing_pools : PoolCalls Passing :=
  ⟨fun _ => ⟨nofun, fun _ => rfl⟩, fun _ => ⟨nofun, fun _ => rfl⟩, fun _ _ => ⟨nofun, fun _ => rfl⟩,
    fun _ => ⟨nofun, fun _ => rfl⟩, ⟨nofun, fun _ => rfl⟩⟩

lemma unpause_passes {r : Reconciler} {node : Node} : AllE Passing (r.unpause m node) :=
  unpause_all passing_pools ⟨nofun, fun _ => rfl⟩ ⟨nofun, fun _ => rfl⟩ ⟨nofun, fun _ => rfl⟩

lemma timeNow_passes : AllE Passing timeNow := AllE.lift (call_all ⟨nofun, fun _ => rfl⟩)

/-! ### The version in hand -/

/-- `a` has the conditions of `m`, and is being deleted if it is. -/
structure Kin (m a : NodeMaintenance) : Prop where
  conditions : a.status.conditions = m.status.conditions
  deletionTimestamp : a.deletionTimestamp = m.deletionTimestamp

lemma Kin.refl (m : NodeMaintenance) : Kin m m := ⟨rfl, rfl⟩

lemma Kin.trans (h : Kin m a) (h' : Kin a b) : Kin m b :=
  ⟨h'.conditions.trans h.conditions, h'.deletionTimestamp.trans h.deletionTimestamp⟩

lemma Kin.deleting (h : Kin m a) : a.deleting = m.deleting := by
  rw [NodeMaintenance.deleting, h.deletionTimestamp, NodeMaintenance.deleting]

lemma Kin.reason (h : Kin m a) : getReadyConditionReason a = getReadyConditionReason m := by
  rw [getReadyConditionReason, h.conditions, getReadyConditionReason]

lemma Kin.atRest (h : Kin m a) (hm : AtRest m) : AtRest a := by
  have hfailed : requestorFailed a = requestorFailed m := by
    rw [requestorFailed, h.conditions, requestorFailed]
  rw [AtRest, h.reason, hfailed]
  exact hm

/-- And it has the finalizers of `m`. -/
structure Same (m a : NodeMaintenance) : Prop extends Kin m a where
  finalizers : a.finalizers = m.finalizers

lemma Same.refl (m : NodeMaintenance) : Same m m := ⟨.refl m, rfl⟩

lemma Same.trans (h : Same m a) (h' : Same a b) : Same m b :=
  ⟨h.toKin.trans h'.toKin, h'.finalizers.trans h.finalizers⟩

/-- The stored object is known, up to what the outcome does not depend on; it can only be gone if it is
being deleted. -/
structure Knows (key : NamespacedName) (m : NodeMaintenance) (s : Watched) : Prop where
  name : m.key = key
  stored : ∀ o, s.world.nms.get key = some o → Same m o
  gone : s.world.nms.get key = none → m.deleting = true

lemma Knows.congr (h : Knows key m s) (hkey : a.key = m.key) (hs : Same a m) : Knows key a s :=
  ⟨hkey.trans h.name, fun o ho => hs.trans (h.stored o ho), fun hg => hs.deleting ▸ h.gone hg⟩

lemma stable_knows : WakeStable key n (Knows key m) :=
  fun _ _ _ _ hr h => ⟨h.name, fun o ho => h.stored o (hr.stored ▸ ho), fun hg => h.gone (hr.stored ▸ hg)⟩

/-- What has just been written is known. -/
lemma knows_write {w : World} (hkey : a.key = key) (hrv : a.resourceVersion = w.revision + 1)
    (hw : s.world = w.write a) : Knows key a s := by
  have hstamp : w.stamp a = a := by rw [World.stamp, ← hrv]
  subst hkey
  have hget : s.world.nms.get a.key = if a.gone then none else some a := by
    rw [hw, World.get_write_self, hstamp]
  refine ⟨rfl, fun o ho => ?_, fun hg => ?_⟩
  · rw [hget] at ho
    split at ho
    · cases ho
    · obtain rfl := Option.some.inj ho
      exact .refl a
  · rw [hget] at hg
    split at hg
    · rename_i hgone
      exact (Bool.and_eq_true_iff.mp hgone).1
    · cases hg

/-- The watch reports the write, if it makes a difference. -/
lemma event_of_write {e : Op} {ans : Resp e} (hexec : (watched key).exec () e s ans s')
    (ho : s.world.nms.get key = some o) (ha : s'.world.nms.get key = some a) (hne : o ≠ a) :
    ⟨some o, some a⟩ ∈ s'.events := by
  rw [hexec.2]
  refine List.mem_append_right _ ?_
  simp [updateEvents, ho, ha, hne]

/-- An update that takes effect: the new version has the finalizers of the body. -/
lemma Knows.update_effect (h : Knows key m s) (hb : b.key = m.key)
    (hw : s.world.update b = some (a, s'.world)) :
    (Kin m a ∧ a.finalizers = b.finalizers) ∧ Knows key a s' ∧
      ∃ o, s.world.nms.get key = some o ∧ Same m o := by
  obtain ⟨o, spec, ho, hm, -, -, rfl, hw⟩ := World.update_eq_some hw
  have hkey : b.key = key := hb.trans h.name
  rw [hkey] at ho
  have hs := h.stored o ho
  exact ⟨⟨⟨hs.conditions, hs.deletionTimestamp⟩, rfl⟩, knows_write (hm.1.trans hkey) rfl hw, o, ho, hs⟩

/-- What is known after an update: the new version, which has been reported if it has other finalizers,
or, where those stay, no less than before. -/
structure AfterUpdate (key : NamespacedName) (m b : NodeMaintenance) (res : Except Err NodeMaintenance)
    (s : Watched) : Prop where
  ok : ∀ {a}, res = .ok a → (Kin m a ∧ a.finalizers = b.finalizers) ∧ Knows key a s
  reported : ∀ {a o'}, res = .ok a → s.world.nms.get key = some o' → b.finalizers ≠ m.finalizers →
    ∃ o, ⟨some o, some o'⟩ ∈ s.events
  kept : b.finalizers = m.finalizers → Knows key m s
  failed : ∀ {err}, res = .error err → err.fromServer = true

lemma stable_afterUpdate {res : Except Err NodeMaintenance} :
    WakeStable key n (AfterUpdate key m b res) := by
  intro s s' hinv hinv' hr h
  refine ⟨fun ha => ⟨(h.ok ha).1, stable_knows s s' hinv hinv' hr (h.ok ha).2⟩, fun ha ho' hne => ?_,
    fun hf => stable_knows s s' hinv hinv' hr (h.kept hf), h.failed⟩
  rw [hr.events]
  exact h.reported ha (hr.stored ▸ ho') hne

lemma update_triple (hb : b.key = m.key) :
    (plan key n).Triple () (Knows key m) (issue (.update b)) (AfterUpdate key m b) := by
  refine Triple.lift stable_knows (fun _ => stable_afterUpdate) (fun s _ _ => rfl) ?_
  intro s res s' hinv hinv' h hexec
  have hperf := hexec.1
  refine ⟨?_, ?_, fun hf => ?_, fun he => WriteAnswer.fromServer (he ▸ hperf)⟩
  · rintro a rfl
    obtain ⟨hu, hk, -⟩ := h.update_effect hb (WriteAnswer.ok hperf)
    exact ⟨hu, hk⟩
  · rintro a o' rfl ho' hne
    obtain ⟨hu, hk, o, ho, hs⟩ := h.update_effect hb (WriteAnswer.ok hperf)
    refine ⟨o, event_of_write hexec ho ho' ?_⟩
    rintro rfl
    exact hne (hu.2.symm.trans ((hk.stored o ho').finalizers.symm.trans hs.finalizers))
  · rcases WriteAnswer.effect hperf with hw | ⟨a, hw⟩
    · exact ⟨h.name, fun o ho => h.stored o (hw ▸ ho), fun hg => h.gone (hw ▸ hg)⟩
    · obtain ⟨hu, hk, -⟩ := h.update_effect hb hw
      exact hk.congr (h.name.trans hk.name.symm) ⟨hu.1, hu.2.trans hf⟩

/-- An update that keeps the finalizers, if it succeeds. -/
lemma update_same (hb : b.key = m.key) (hf : b.finalizers = m.finalizers) :
    WakeTriple key n (Knows key m) (Client.update b) fun a s => Same m a ∧ Knows key a s :=
  Triple.conseq (update_triple hb) (fun _ _ h => h) fun _ _ _ h _ ha =>
    ⟨⟨(h.ok ha).1.1, (h.ok ha).1.2.trans hf⟩, (h.ok ha).2⟩

/-- What is known after a status update: the new version, which has been reported if it has other
conditions. -/
structure AfterStatus (key : NamespacedName) (m b : NodeMaintenance) (res : Except Err NodeMaintenance)
    (s : Watched) : Prop where
  ok : ∀ {a}, res = .ok a → (a.status.conditions = b.status.conditions ∧
    a.deletionTimestamp = m.deletionTimestamp ∧ a.finalizers = m.finalizers) ∧ Knows key a s
  reported : ∀ {a}, res = .ok a → m.deleting = false → b.status.conditions ≠ m.status.conditions →
    ∃ o, o.status.conditions = m.status.conditions ∧ ⟨some o, some a⟩ ∈ s.events
  failed : ∀ {err}, res = .error err → err.fromServer = true

lemma stable_afterStatus {res : Except Err NodeMaintenance} :
    WakeStable key n (AfterStatus key m b res) := by
  intro s s' hinv hinv' hr h
  refine ⟨fun ha => ⟨(h.ok ha).1, stable_knows s s' hinv hinv' hr (h.ok ha).2⟩, fun ha => ?_, h.failed⟩
  rw [hr.events]
  exact h.reported ha

lemma statusUpdate_triple (hb : b.key = m.key) :
    (plan key n).Triple () (Knows key m) (issue (.statusUpdate b)) (AfterStatus key m b) := by
  refine Triple.lift stable_knows (fun _ => stable_afterStatus) (fun s _ _ => rfl) ?_
  intro s res s' hinv hinv' h hexec
  have hperf := hexec.1
  cases res with
  | error err =>
    exact ⟨nofun, nofun, fun he => WriteAnswer.fromServer (he ▸ hperf)⟩
  | ok a =>
    obtain ⟨o, ho, hm, rfl, hw⟩ := World.statusUpdate_eq_some (WriteAnswer.ok hperf)
    have hkey : b.key = key := hb.trans h.name
    rw [hkey] at ho
    have hs := h.stored o ho
    have hk : Knows key (s.world.mergeStatus o b) s' := knows_write (hm.1.trans hkey) rfl hw
    refine ⟨?_, ?_, nofun⟩
    · rintro _ ⟨⟩
      exact ⟨⟨rfl, hs.deletionTimestamp, hs.finalizers⟩, hk⟩
    rintro _ ⟨⟩ hdel hne
    refine ⟨o, hs.conditions, ?_⟩
    cases hget : s'.world.nms.get key with
    | none =>
      have hdel' : o.deleting = true := hk.gone hget
      rw [hs.deleting, hdel] at hdel'
      cases hdel'
    | some o' =>
      have hstamp : o' = s.world.mergeStatus o b := by
        rw [hw] at hget
        rcases World.get_write hget with ⟨ne, -⟩ | ⟨-, -, e⟩
        · exact absurd (hm.1.trans hkey).symm ne
        · exact e
      subst hstamp
      refine event_of_write hexec ho hget fun e => hne ?_
      have hcond : o.status.conditions = b.status.conditions := congrArg (·.status.conditions) e
      rw [← hcond, hs.conditions]

/-- A status update that leaves the conditions alone. -/
lemma statusUpdate_same (hb : b.key = m.key) (hc : b.status.conditions = m.status.conditions) :
    WakeTriple key n (Knows key m) (Client.statusUpdate b) fun a s => Same m a ∧ Knows key a s :=
  Triple.conseq (statusUpdate_triple hb) (fun _ _ h => h) fun _ _ _ h _ ha =>
    ⟨⟨⟨(h.ok ha).1.1.trans hc, (h.ok ha).1.2.1⟩, (h.ok ha).1.2.2⟩, (h.ok ha).2⟩

/-- Reading the object tells what is known already. -/
lemma getNodeMaintenance_triple :
    WakeTriple key n (Knows key m) (Client.getNodeMaintenance key)
      fun a s => Same m a ∧ Knows key a s := by
  refine pass_call stable_knows (fun _ => Stable.ok fun _ => (Stable.const _).and stable_knows) nofun
    (fun _ _ _ => rfl) ?_
  rintro s _ s' - hk hk' ⟨hw, hread⟩ a rfl
  have ha : s'.world.nms.get key = some a := by rw [hw]; exact hread
  have hs := hk'.stored a ha
  refine ⟨hs, Store.key_of_get ha, fun o ho => ?_, fun hg => ?_⟩
  · obtain rfl := Option.some.inj (ha.symm.trans ho)
    exact .refl a
  · rw [ha] at hg
    cases hg

lemma waitForObjectUpdate_triple {checkFn : NodeMaintenance → Bool} (attempts : Nat) :
    WakeTriple key n (Knows key m) (waitForObjectUpdate (Client.getNodeMaintenance key) checkFn attempts)
      fun a s => Same m a ∧ Knows key a s := by
  induction attempts generalizing m with
  | zero => exact .throw
  | succ attempts ih =>
    refine getNodeMaintenance_triple.bind fun a => TripleE.of_pure fun hs => ?_
    split
    · exact .pure stable_knows fun s _ h => ⟨hs, h⟩
    · exact ih.conseq (fun _ _ h => h) fun b s _ h => ⟨hs.trans h.1, h.2⟩

/-! ### Outcomes of the handlers -/

variable {sorter : Sorter cmpByType} {r : Reconciler} {node : Node}

lemma stable_woken : WakeStable key n (Woken sorter) := by
  intro s s' _ _ hr h
  rw [Woken, hr.events]
  exact h

lemma stable_released : WakeStable key n (Released sorter key o) := by
  rintro s s' - - hr ⟨hdel, h⟩
  refine ⟨hdel, fun o' ho' hmem => ?_⟩
  rw [hr.events]
  exact h o' (hr.stored ▸ ho') hmem

/-- A step from one phase to another is stored as a change that the event filter lets through. -/
lemma setReady_triple {reason : Reason} (hdel : m.deleting = false)
    (hne : getReadyConditionReason m ≠ reason) :
    WakeTriple key n (Knows key m) (setReadyConditionReason m reason) fun _ => Woken sorter := by
  refine TripleE.bind (pass stable_knows timeNow_passes) fun now => ?_
  have hlacks : Lacks (readyCondition m reason "") m.status.conditions := lacks_readyCondition hne
  dsimp only
  rw [if_pos hlacks.changed]
  refine Triple.conseq (statusUpdate_triple (m := m) (b := withReadyReason m reason "" now) rfl)
    (fun _ _ h => h) ?_
  intro res s _ h a ha
  have hconds := (h.ok ha).1.1
  have hreason : getReadyConditionReason a = reason := by
    rw [getReadyConditionReason, hconds]
    exact getReadyConditionReason_withReadyReason m reason "" now
  have hchanged : (withReadyReason m reason "" now).status.conditions ≠ m.status.conditions := by
    intro e
    rw [getReadyConditionReason, ← e] at hne
    exact hne (getReadyConditionReason_withReadyReason m reason "" now)
  -- the stored object had the conditions of the one in hand, so the event shows the change of reason
  obtain ⟨o, ho, hmem⟩ := h.reported ha hdel hchanged
  refine ⟨_, hmem, ⟨o, a, rfl, fun e => ?_⟩, ?_⟩
  · have ho' : getReadyConditionReason o = getReadyConditionReason m := by
      rw [getReadyConditionReason, ho, getReadyConditionReason]
    rw [← ho', ← hreason, getReadyConditionReason, e, getReadyConditionReason] at hne
    exact hne rfl
  · rw [← ho] at hlacks
    have hset : a.status.conditions =
        (setStatusCondition (readyCondition m reason "") now o.status.conditions).1 := by
      rw [hconds, ho]
      rfl
    exact hlacks.accepted sorter hset

/-- The step from phase to phase ends a handler. -/
lemma advance_triple {reason : Reason} (hdel : m.deleting = false)
    (hne : getReadyConditionReason m ≠ reason) :
    WakeTriple key n (Knows key m) (do let _ ← setReadyConditionReason m reason; pure Result.zero)
      (Remembered sorter key o) :=
  TripleE.bind (setReady_triple hdel hne) fun _ => .pure stable_woken fun _ _ h => .inr (.inl h)

/-- A handler that asks to be called again. -/
lemma requeue_triple {A : Watched → Prop} {res : Result} (hA : WakeStable key n A)
    (h : 0 < res.requeueAfter) :
    WakeTriple key n A (pure res : Action Result) (Remembered sorter key o) :=
  .pure hA fun _ _ _ => .inl h

/-! ### Delete paths -/

/-- A copy of the finalizer comes off. -/
lemma released_of_erase {res : Except Err NodeMaintenance} (hs : Same o m) (hdel : m.deleting = true)
    (hmem : maintenanceFinalizerName ∈ m.finalizers) (ha : res = .ok a)
    (h : AfterUpdate key m { m with finalizers := m.finalizers.erase maintenanceFinalizerName } res s) :
    Released sorter key o s := by
  obtain ⟨⟨hkin, hfin⟩, hk⟩ := h.ok ha
  refine ⟨by rw [← hs.deleting, hdel], fun o' ho' hstill => ?_⟩
  have hs' := hk.stored o' ho'
  rw [hs'.finalizers, hfin] at hstill
  have hcount : 0 < (m.finalizers.erase maintenanceFinalizerName).count maintenanceFinalizerName :=
    List.count_pos_iff.mpr hstill
  rw [List.count_erase_self, hs.finalizers] at hcount
  have hne : m.finalizers.erase maintenanceFinalizerName ≠ m.finalizers := by
    intro e
    have hlen := List.length_erase_of_mem hmem
    have hpos := List.length_pos_of_mem hmem
    rw [e] at hlen
    omega
  obtain ⟨old, hev⟩ := h.reported ha ho' hne
  have hdel' : o'.deleting = true := by rw [hs'.deleting, hkin.deleting, hdel]
  exact ⟨by omega, _, hev, by simp [ConditionChangedPredicate.update, hdel']⟩

lemma handleFinalizerRemoval_triple (hs : Same o m) (hdel : m.deleting = true) :
    WakeTriple key n (Knows key m) (handleFinalizerRemoval m) fun _ => Released sorter key o := by
  have hremove : WakeTriple key n (Knows key m) (removeFinalizer m maintenanceFinalizerName)
      fun _ => Released sorter key o := by
    unfold removeFinalizer
    split
    · rename_i hmem
      refine Triple.conseq (update_triple (m := m) rfl) (fun _ _ h => h) ?_
      exact fun res s _ h a ha => released_of_erase hs hdel hmem ha h
    · rename_i hmem
      refine .pure stable_knows fun s _ h => ⟨by rw [← hs.deleting, hdel], fun o' ho' hstill => ?_⟩
      rw [(h.stored o' ho').finalizers] at hstill
      exact absurd hstill hmem
  exact TripleE.bind hremove fun _ => .pure stable_released fun _ _ h => h

lemma dropInitialState_triple :
    WakeTriple key n (Knows key m) (dropInitialState m) fun a s => Same m a ∧ Knows key a s := by
  unfold dropInitialState
  split
  · exact update_same rfl rfl
  · exact .pure stable_knows fun _ _ h => ⟨.refl m, h⟩

lemma runCordonOrUncordon_passes {desired : Bool} : AllE Passing (runCordonOrUncordon node desired) :=
  runCordonOrUncordon_all ⟨nofun, fun _ => rfl⟩

lemma handleUnCordon_triple :
    WakeTriple key n (Knows key m) (handleUnCordon m node) fun a s => Same m a ∧ Knows key a s := by
  unfold handleUnCordon
  split
  · exact TripleE.bind (pass stable_knows runCordonOrUncordon_passes) fun _ => dropInitialState_triple
  · exact dropInitialState_triple

/-- The delete paths end with the removal of the finalizer. -/
lemma cleanup_triple (hs : Same o m) (hdel : m.deleting = true) :
    WakeTriple key n (Knows key m) (r.cleanup m node) fun _ => Released sorter key o := by
  have huncordon : WakeTriple key n (Knows key m)
      (if m.spec.cordon then handleUnCordon m node else pure m)
      fun a s => Same m a ∧ Knows key a s := by
    split
    · exact handleUnCordon_triple
    · exact .pure stable_knows fun _ _ h => ⟨.refl m, h⟩
  refine huncordon.bind fun a => TripleE.of_pure fun ha => ?_
  refine TripleE.bind (pass stable_knows unpause_passes) fun _ => ?_
  exact handleFinalizerRemoval_triple (hs.trans ha) (ha.deleting.trans hdel)

/-- And so does the handler. -/
lemma deleted_triple {A : Watched → Prop} {x : Action Unit}
    (h : WakeTriple key n A x fun _ => Released sorter key o) :
    WakeTriple key n A (do x; pure Result.zero) (Remembered sorter key o) :=
  TripleE.bind h fun _ => .pure stable_released fun _ _ h => .inr (.inr (.inl h))

/-! ### Scheduled and Cordon -/

lemma addFinalizer_triple :
    WakeTriple key n (Knows key m) (addFinalizer m maintenanceFinalizerName)
      fun a s => Kin m a ∧ Knows key a s := by
  unfold addFinalizer
  split
  · exact .pure stable_knows fun _ _ h => ⟨.refl m, h⟩
  · refine Triple.conseq (update_triple (m := m) rfl) (fun _ _ h => h) ?_
    exact fun res s _ h a ha => ⟨(h.ok ha).1.1, (h.ok ha).2⟩

lemma stable_same : WakeStable key n (fun s => Same m a ∧ Knows key a s) :=
  (Stable.const _).and stable_knows

lemma setMCPLabel_triple {mcpName : String} :
    WakeTriple key n (Knows key m) (setMCPLabel m mcpName) fun a s => Same m a ∧ Knows key a s := by
  unfold setMCPLabel
  split
  · refine TripleE.bind (TripleE.adapt (update_same rfl rfl)) fun a => TripleE.of_pure fun ha => ?_
    refine Triple.assume (fun s _ h => h.name) fun hname => ?_
    rw [hname]
    exact TripleE.adapt ((waitForObjectUpdate_triple _).conseq (fun _ _ h => h)
      fun b s _ h => ⟨ha.trans h.1, h.2⟩)
  · exact .pure stable_knows fun _ _ h => ⟨.refl m, h⟩

lemma pauseLocked_triple :
    WakeTriple key n (Knows key m) (pauseLocked node m) fun a s => Same m a ∧ Knows key a s := by
  refine TripleE.bind (pass stable_knows (.adapt (getMCPName_all passing_pools.getMachineConfig)))
    fun mcpName => ?_
  refine setMCPLabel_triple.bind fun a => ?_
  refine TripleE.bind (pass stable_same (pausePool_all passing_pools)) fun _ => ?_
  exact .pure stable_same fun _ _ h => h

/-- `PauseMCP`, if it succeeds. -/
lemma pauseMCP_triple :
    WakeTriple key n (Knows key m) (pauseMCP node m) fun a s => Same m a ∧ Knows key a s := by
  have hok : ∀ res : Except Err NodeMaintenance,
      WakeStable key n fun s => ∀ a, res = .ok a → Same m a ∧ Knows key a s :=
    fun _ => Stable.ok fun _ => stable_same
  refine Host.withLock_triple (B := Knows key m)
    (P := fun res s => ∀ a, res = .ok a → Same m a ∧ Knows key a s)
    (fun a => stable_same) ?_ ?_ fun res => ?_
  · exact pass_call stable_knows (fun _ => stable_knows) nofun (fun _ _ _ => rfl)
      fun _ _ _ _ _ h _ => h
  · refine TripleE.bind (TripleE.lift pauseLocked_triple) fun res => ?_
    refine TripleE.bind (pass (hok res) (AllE.lift (call_all ⟨nofun, fun _ => rfl⟩))) fun _ => ?_
    exact Host.liftExcept_triple fun a => stable_same
  · exact pass_call (hok res) (fun _ => hok res) nofun (fun _ _ _ => rfl) fun _ _ _ _ _ h _ => h

lemma pauseAndCordon_triple (hm : getReadyConditionReason m = .scheduled) (hdel : m.deleting = false) :
    WakeTriple key n (Knows key m) (pauseAndCordon m node) (Remembered sorter key o) := by
  refine TripleE.bind (TripleE.lift pauseMCP_triple) fun res => ?_
  cases res with
  | error err =>
    dsimp only
    split
    · -- the pool is busy
      exact requeue_triple (fun _ _ _ _ _ _ _ => nofun) (by decide)
    · exact .throw
  | ok a =>
    refine TripleE.pre (B := fun s => Same m a ∧ Knows key a s)
      (TripleE.of_pure fun ha => ?_) fun s _ h => h a rfl
    exact advance_triple (ha.deleting.trans hdel) (by rw [ha.reason, hm]; nofun)

lemma handleScheduledState_triple (hs : Same o m) (hm : getReadyConditionReason m = .scheduled) :
    WakeTriple key n (Knows key m) (r.handleScheduledState m node) (Remembered sorter key o) := by
  unfold handleScheduledState
  split
  · rename_i hdel
    refine TripleE.bind (pass stable_knows unpause_passes) fun _ => ?_
    exact deleted_triple (handleFinalizerRemoval_triple hs hdel)
  · rename_i hdel
    have hdel : m.deleting = false := by simpa using hdel
    refine addFinalizer_triple.bind fun a => TripleE.of_pure fun ha => ?_
    have hreason : getReadyConditionReason a = .scheduled := ha.reason.trans hm
    split
    · exact pauseAndCordon_triple hreason (ha.deleting.trans hdel)
    · exact advance_triple (ha.deleting.trans hdel) (by rw [hreason]; nofun)

lemma handleCordon_triple :
    WakeTriple key n (Knows key m) (handleCordon m node) fun a s => Same m a ∧ Knows key a s := by
  have hrecord : WakeTriple key n (Knows key m) (recordInitialState m node)
      fun a s => Same m a ∧ Knows key a s := by
    unfold recordInitialState
    split
    · exact update_same rfl rfl
    · exact .pure stable_knows fun _ _ h => ⟨.refl m, h⟩
  refine hrecord.bind fun a => ?_
  split
  · refine TripleE.bind (pass stable_same runCordonOrUncordon_passes) fun _ => ?_
    exact .pure stable_same fun _ _ h => h
  · exact .pure stable_same fun _ _ h => h

lemma handleCordonState_triple (hs : Same o m) (hm : getReadyConditionReason m = .cordon) :
    WakeTriple key n (Knows key m) (r.handleCordonState m node) (Remembered sorter key o) := by
  unfold handleCordonState
  split
  · rename_i hdel
    exact deleted_triple (cleanup_triple hs hdel)
  · rename_i hdel
    have hdel : m.deleting = false := by simpa using hdel
    have hcordon : WakeTriple key n (Knows key m)
        (if m.spec.cordon then handleCordon m node else pure m)
        fun a s => Same m a ∧ Knows key a s := by
      split
      · exact handleCordon_triple
      · exact .pure stable_knows fun _ _ h => ⟨.refl m, h⟩
    refine hcordon.bind fun a => TripleE.of_pure fun ha => ?_
    exact advance_triple (ha.deleting.trans hdel) (by rw [ha.reason, hm]; nofun)

/-! ### WaitForPodCompletion -/

/-- Unless it failed with an API error, `HandlePodCompletion` leaves a version in hand. -/
def Settled (key : NamespacedName) (m : NodeMaintenance)
    (p : NodeMaintenance × Except Err (List String)) (s : Watched) : Prop :=
  (∀ err, p.2 = .error err → err.is .errPodCompletionTimeout = true) → Same m p.1 ∧ Knows key p.1 s

section PodCompletion
variable {p : NodeMaintenance × Except Err (List String)}

lemma stable_settled : WakeStable key n (Settled key m p) :=
  stable_same.imp

lemma settled_of_server {err : Err} (h : p.2 = .error err)
    (he : err.is .errPodCompletionTimeout = false) : Settled key m p s :=
  fun hp => by rw [hp err h] at he; cases he

lemma waitForPods_triple {startTime : Nat} :
    WakeTriple key n (Knows key m) (waitForPods r.formats m startTime) (Settled key m) := by
  have hknown : ∀ res, WakeTriple key n (Knows key m)
      (pure (m, res) : Action (NodeMaintenance × Except Err (List String))) (Settled key m) :=
    fun res => .pure stable_knows fun s _ h _ => ⟨.refl m, h⟩
  unfold waitForPods
  split
  · exact .throw
  · refine TripleE.bind (pass stable_knows ?_) fun expired => ?_
    · exact .ite (.bind timeNow_passes fun _ => .pure) .pure
    split
    · exact hknown _
    split
    · refine TripleE.bind (pass stable_knows ?_) fun res => ?_
      · exact AllE.lift (call_all ⟨nofun, fun _ => rfl⟩)
      cases res with
      | error err => exact hknown _
      | ok pods =>
        refine TripleE.bind (TripleE.lift (statusUpdate_triple (m := m) rfl)) fun res => ?_
        cases res with
        | ok a =>
          refine .pure stable_afterStatus fun s _ h _ => ?_
          obtain ⟨⟨hc, hd, hf⟩, hk⟩ := h.ok rfl
          exact ⟨⟨⟨hc, hd⟩, hf⟩, hk⟩
        | error err =>
          refine .pure stable_afterStatus fun s _ h => settled_of_server rfl ?_
          simp [Err.is, Err.is_timeout_of_fromServer (h.failed rfl)]
    · exact hknown _

lemma handlePodCompletion_triple :
    WakeTriple key n (Knows key m) (handlePodCompletion r.formats m) (Settled key m) := by
  unfold handlePodCompletion
  dsimp only
  split
  · refine TripleE.bind (pass stable_knows timeNow_passes) fun startTime => ?_
    refine TripleE.bind (TripleE.lift (update_triple (m := m) rfl)) fun res => ?_
    cases res with
    | ok a =>
      refine TripleE.pre (B := fun s => Same m a ∧ Knows key a s) (TripleE.of_pure fun ha => ?_)
        fun s _ h => ⟨⟨(h.ok rfl).1.1, (h.ok rfl).1.2⟩, (h.ok rfl).2⟩
      exact waitForPods_triple.conseq (fun _ _ h => h) fun p s _ h hp => ⟨ha.trans (h hp).1, (h hp).2⟩
    | error err =>
      refine .pure stable_afterUpdate fun s _ h => settled_of_server rfl ?_
      exact Err.is_timeout_of_fromServer (h.failed rfl)
  · split
    · exact waitForPods_triple
    · refine TripleE.bind (TripleE.lift (update_triple (m := m) rfl)) fun res => ?_
      cases res with
      | ok a => exact .pure stable_afterUpdate fun s _ h => settled_of_server rfl rfl
      | error err => exact .pure stable_afterUpdate fun s _ h => settled_of_server rfl rfl

end PodCompletion

lemma handleWaitPodCompletionState_triple (hs : Same o m)
    (hm : getReadyConditionReason m = .waitForPodCompletion) :
    WakeTriple key n (Knows key m) (r.handleWaitPodCompletionState m node)
      (Remembered sorter key o) := by
  have hdrain : ∀ {p : NodeMaintenance × Except Err (List String)}, m.deleting = false →
      (∀ err, p.2 = .error err → err.is .errPodCompletionTimeout = true) →
      WakeTriple key n (Settled key m p)
        (do let _ ← setReadyConditionReason p.1 .draining; pure Result.zero)
        (Remembered sorter key o) := by
    intro p hdel hp
    refine TripleE.pre (B := fun s => Same m p.1 ∧ Knows key p.1 s) (TripleE.of_pure fun ha => ?_)
      fun s _ h => h hp
    exact advance_triple (ha.deleting.trans hdel) (by rw [ha.reason, hm]; nofun)
  have htrace : ∀ {p} {note : Note}, WakeTriple key n (Settled key m p) (trace note)
      fun _ => Settled key m p :=
    pass stable_settled (AllE.lift (call_all ⟨nofun, fun _ => rfl⟩))
  unfold handleWaitPodCompletionState
  split
  · rename_i hdel
    exact deleted_triple (cleanup_triple hs hdel)
  · rename_i hdel
    have hdel : m.deleting = false := by simpa using hdel
    split
    · refine handlePodCompletion_triple.bind fun p => ?_
      obtain ⟨a, res⟩ := p
      cases res with
      | ok pods =>
        refine TripleE.bind htrace fun _ => ?_
        split
        · exact requeue_triple stable_settled (by decide)
        · exact hdrain hdel nofun
      | error err =>
        refine TripleE.bind htrace fun _ => ?_
        split
        · rename_i hto
          refine hdrain hdel ?_
          rintro _ ⟨⟩
          exact hto
        · exact .throw
    · exact advance_triple hdel (by rw [hm]; nofun)

/-! ### Draining -/

section Draining
variable {req : Nat} {A : Watched → Prop}

/-- The drain request exists. -/
def Live (req : Nat) (s : Watched) : Prop := req < s.world.requests.length

lemma stable_live : WakeStable key n (Live req) := fun _ _ _ _ hr h => h.trans_le hr.requests

lemma live_frame {β : Type} {x : Action β} {Q : β → Watched → Prop} (h : WakeTriple key n A x Q) :
    WakeTriple key n (fun s => A s ∧ Live req s) x fun b s => Q b s ∧ Live req s :=
  TripleE.frame (P := fun _ => True) stable_live
    (fun _ _ _ _ _ _ _ hexec hl => hl.trans_le (requests_le hexec.1)) (Prog.All.of_forall (fun _ => trivial) _) h

/-- Calls on a request that exists. -/
lemma request_triple {e : Op} (hA : WakeStable key n A) (he : e.part ≠ .nodeMaintenances)
    (hserve : ∀ w : World, req < w.requests.length → (w.serve e).isSome) :
    (plan key n).Triple () (fun s => A s ∧ Live req s) (issue e) fun _ s => A s ∧ Live req s :=
  pass_call (hA.and stable_live) (fun _ => hA.and stable_live) he (fun s _ h => hserve s.world h.2)
    fun _ _ _ _ _ h _ => h

lemma state_triple (hA : WakeStable key n A) :
    WakeTriple key n (fun s => A s ∧ Live req s) (DrainManager.state req)
      fun _ s => A s ∧ Live req s :=
  TripleE.lift (request_triple hA nofun fun w h => by simp [World.serve, h])

lemma addRequest_triple (hA : WakeStable key n A) :
    WakeTriple key n (fun s => A s ∧ Live req s) (DrainManager.addRequest req)
      fun _ s => A s ∧ Live req s := by
  refine TripleE.lift (request_triple hA nofun fun w h => ?_)
  simp only [World.serve, World.addRequest, List.getElem?_eq_getElem h]
  dsimp only [Option.bind_eq_bind, Option.bind_some]
  split <;> rfl

lemma removeRequest_triple {uid : String} (hA : WakeStable key n A) :
    WakeTriple key n A (DrainManager.removeRequest uid) fun _ => A :=
  pass hA (AllE.lift (call_all ⟨nofun, fun _ => rfl⟩))

/-- What the drain manager hands out exists. -/
lemma getRequest_triple {uid : String} (hA : WakeStable key n A) :
    WakeTriple key n A (DrainManager.getRequest uid) fun res s => A s ∧ ∀ id, res = some id → Live id s := by
  refine TripleE.lift (pass_call hA (fun res => ?_) nofun (fun _ _ _ => rfl) ?_)
  · exact hA.and (Stable.all fun _ => stable_live.imp)
  · rintro s _ s' hinv' - hA' ⟨hw, rfl⟩
    exact ⟨hA', fun id hid => hinv'.2 _ id (hw ▸ hid)⟩

lemma newDrainRequest_triple {spec : DrainSpec} (hspec : m.spec.drainSpec = some spec)
    (hA : WakeStable key n A) :
    WakeTriple key n A (DrainManager.newDrainRequest m) fun id s => A s ∧ Live id s := by
  refine TripleE.lift (pass_call hA (fun _ => hA.and stable_live) nofun (fun s _ _ => ?_) ?_)
  · simp [World.serve, Drain.newDrainRequest, hspec]
  · rintro s _ s' - - hA' ⟨q, -, rfl, hw⟩
    refine ⟨hA', ?_⟩
    rw [Live, hw]
    simp

/-- `updateDrainStatus`, on the version in hand or a copy with another drain status. -/
lemma updateDrainStatus_triple (hb : b.key = m.key) (hc : b.status.conditions = m.status.conditions) :
    WakeTriple key n (fun s => Knows key m s ∧ Live req s) (updateDrainStatus b req)
      fun a s => (Same m a ∧ Knows key a s) ∧ Live req s := by
  have hpods : WakeTriple key n (fun s => Knows key m s ∧ Live req s) (podsToDelete req)
      fun _ s => Knows key m s ∧ Live req s := by
    refine TripleE.bind (state_triple stable_knows) fun _ => ?_
    refine TripleE.bind (pass (stable_knows.and stable_live) ?_) fun _ => ?_
    · exact .adapt (call_all ⟨nofun, fun _ => rfl⟩)
    · exact .pure (stable_knows.and stable_live) fun _ _ h => h
  refine TripleE.bind (TripleE.adapt hpods) fun pods => ?_
  refine TripleE.bind (pass (stable_knows.and stable_live) ?_) fun drain => ?_
  · exact currentDrainStatus_all ⟨nofun, fun _ => rfl⟩
  · exact TripleE.adapt (live_frame (statusUpdate_same hb hc))

lemma sendDrainRequest_triple {spec : DrainSpec} (hspec : m.spec.drainSpec = some spec) :
    WakeTriple key n (Knows key m) (sendDrainRequest m) (Remembered sorter key o) := by
  refine (newDrainRequest_triple hspec stable_knows).bind fun req => ?_
  refine TripleE.bind (updateDrainStatus_triple (m := m) rfl rfl) fun a => ?_
  refine TripleE.bind (addRequest_triple stable_same) fun _ => ?_
  exact requeue_triple (stable_same.and stable_live) (by decide)

lemma drainFailed_triple (hA : WakeStable key n A) :
    WakeTriple key n (fun s => A s ∧ Live req s) (drainFailed req) fun _ s => A s ∧ Live req s := by
  refine (state_triple hA).bind fun st => ?_
  split
  · exact .pure (hA.and stable_live) fun _ _ h => h
  · refine (state_triple hA).bind fun st => ?_
    exact .pure (hA.and stable_live) fun _ _ h => h

lemma followDrainRequest_triple {spec : DrainSpec} (hm : getReadyConditionReason m = .draining)
    (hdel : m.deleting = false) :
    WakeTriple key n (fun s => Knows key m s ∧ Live req s) (followDrainRequest m spec req)
      (Remembered sorter key o) := by
  have hA : WakeStable key n fun s => Knows key m s ∧ Live req s := stable_knows.and stable_live
  have hremove : ∀ uid, WakeTriple key n (fun s => Knows key m s ∧ Live req s)
      (do DrainManager.removeRequest uid; pure drainReqeueTime) (Remembered sorter key o) :=
    fun uid => TripleE.bind (removeRequest_triple hA) fun _ => requeue_triple hA (by decide)
  refine TripleE.bind (TripleE.lift (request_triple stable_knows nofun ?_)) fun uid => ?_
  · exact fun w h => by simp [World.serve, h]
  refine (state_triple stable_knows).bind fun _ => ?_
  refine TripleE.bind (TripleE.lift (request_triple stable_knows nofun ?_)) fun reqSpec => ?_
  · exact fun w h => by simp [World.serve, h]
  split
  · exact hremove uid
  refine (state_triple stable_knows).bind fun st => ?_
  split
  · refine TripleE.bind (updateDrainStatus_triple (m := m) rfl rfl) fun a => ?_
    exact requeue_triple (stable_same.and stable_live) (by decide)
  refine (drainFailed_triple stable_knows).bind fun failed => ?_
  refine (state_triple stable_knows).bind fun _ => ?_
  split
  · exact hremove uid
  refine TripleE.bind (updateDrainStatus_triple (m := m) rfl rfl) fun a => ?_
  refine TripleE.bind (removeRequest_triple (stable_same.and stable_live)) fun _ => ?_
  refine TripleE.pre (B := fun s => Same m a ∧ Knows key a s) (TripleE.of_pure fun ha => ?_)
    fun s _ h => h.1
  exact advance_triple (ha.deleting.trans hdel) (by rw [ha.reason, hm]; nofun)

lemma handleDrainStateDelete_triple (hs : Same o m) (hdel : m.deleting = true) :
    WakeTriple key n (Knows key m) (r.handleDrainStateDelete m node) (Remembered sorter key o) := by
  refine (getRequest_triple stable_knows).bind fun req => ?_
  have hlog : WakeTriple key n (fun s => Knows key m s ∧ ∀ id, req = some id → Live id s) (logState req)
      fun _ => Knows key m := by
    cases req with
    | none => exact TripleE.pre (.pure stable_knows fun _ _ h => h) fun _ _ h => h.1
    | some id =>
      refine TripleE.pre (TripleE.bind (state_triple stable_knows) fun _ => ?_)
        fun s _ h => ⟨h.1, h.2 id rfl⟩
      exact .pure (stable_knows.and stable_live) fun _ _ h => h.1
  refine hlog.bind fun _ => ?_
  refine TripleE.bind (removeRequest_triple stable_knows) fun _ => ?_
  exact deleted_triple (cleanup_triple hs hdel)

lemma handleDrainState_triple (hs : Same o m) (hm : getReadyConditionReason m = .draining) :
    WakeTriple key n (Knows key m) (r.handleDrainState m node) (Remembered sorter key o) := by
  unfold handleDrainState
  split
  · rename_i hdel
    exact handleDrainStateDelete_triple hs hdel
  · rename_i hdel
    have hdel : m.deleting = false := by simpa using hdel
    split
    · rename_i spec hspec
      refine (getRequest_triple stable_knows).bind fun res => ?_
      cases res with
      | none => exact (sendDrainRequest_triple hspec).pre fun _ _ h => h.1
      | some req => exact (followDrainRequest_triple hm hdel).pre fun _ _ h => ⟨h.1, h.2 req rfl⟩
    · refine TripleE.bind (removeRequest_triple stable_knows) fun _ => ?_
      have hclear : WakeTriple key n (Knows key m) (clearDrainStatus m)
          fun a s => Same m a ∧ Knows key a s := by
        unfold clearDrainStatus
        split
        · exact statusUpdate_same rfl rfl
        · exact .pure stable_knows fun _ _ h => ⟨.refl m, h⟩
      refine hclear.bind fun a => TripleE.of_pure fun ha => ?_
      exact advance_triple (ha.deleting.trans hdel) (by rw [ha.reason, hm]; nofun)

end Draining

/-! ### Ready and RequestorFailed -/

/-- A handler that has nothing to do. -/
lemma rest_triple (hs : Same o m) (h : AtRest m) :
    WakeTriple key n (Knows key m) (pure Result.zero : Action Result) (Remembered sorter key o) := by
  refine .pure stable_knows fun s _ hk => .inr (.inr ?_)
  cases hget : s.world.nms.get key with
  | none =>
    refine .inl ⟨by rw [← hs.deleting, hk.gone hget], fun o' ho' => ?_⟩
    rw [hget] at ho'
    cases ho'
  | some o' => exact .inr ⟨o', rfl, (hk.stored o' hget).atRest h⟩

lemma checkRequestorFailed_triple (hs : Same o m) (hdel : m.deleting = false)
    (hm : getReadyConditionReason m = .ready ∨ getReadyConditionReason m = .requestorFailed) :
    WakeTriple key n (Knows key m) (checkRequestorFailed m) (Remembered sorter key o) := by
  unfold checkRequestorFailed
  dsimp only
  split
  · rename_i hfailed
    split
    · rename_i hready
      exact advance_triple hdel (by rw [hready]; nofun)
    · rename_i hready
      exact rest_triple hs (.inr (.inr ⟨hm.resolve_left hready, hfailed⟩))
  · rename_i hfailed
    have hfailed : requestorFailed m = false := by simpa using hfailed
    split
    · rename_i hreason
      exact advance_triple hdel (by rw [hreason]; nofun)
    · rename_i hreason
      exact rest_triple hs (.inr (.inl ⟨hm.resolve_right hreason, hfailed⟩))

lemma handleTerminalState_triple (hs : Same o m)
    (hm : getReadyConditionReason m = .ready ∨ getReadyConditionReason m = .requestorFailed) :
    WakeTriple key n (Knows key m) (r.handleTerminalState m node) (Remembered sorter key o) := by
  unfold handleTerminalState
  split
  · rename_i hdel
    split
    · exact requeue_triple stable_knows (by decide)
    · exact deleted_triple (cleanup_triple hs hdel)
  · rename_i hdel
    have hdel : m.deleting = false := by simpa using hdel
    have htime : WakeTriple key n (Knows key m) (r.setReadyTime m)
        fun a s => Same m a ∧ Knows key a s := by
      unfold setReadyTime
      split
      · refine TripleE.bind (pass stable_knows timeNow_passes) fun now => ?_
        exact update_same rfl rfl
      · exact .pure stable_knows fun _ _ h => ⟨.refl m, h⟩
    refine htime.bind fun a => TripleE.of_pure fun ha => ?_
    exact checkRequestorFailed_triple (hs.trans ha) (ha.deleting.trans hdel) (ha.reason ▸ hm)

/-! ### Reconcile -/

lemma setOwnerRef_triple :
    WakeTriple key n (Knows key m) (setOwnerRef node m)
      fun p s => Same m p.1 ∧ Knows key p.1 s := by
  refine TripleE.bind (TripleE.lift (update_triple (m := m) rfl)) fun res => ?_
  cases res with
  | ok a =>
    refine .pure stable_afterUpdate fun s _ h => ?_
    exact ⟨⟨(h.ok rfl).1.1, (h.ok rfl).1.2⟩, (h.ok rfl).2⟩
  | error err =>
    -- whether the reference has been stored or not, nothing else has changed
    exact .pure stable_afterUpdate fun s _ h => ⟨⟨⟨rfl, rfl⟩, rfl⟩, (h.kept rfl).congr rfl ⟨⟨rfl, rfl⟩, rfl⟩⟩

lemma dispatch_triple (hphase : OperatorPhase o) :
    WakeTriple key n (Knows key o) (r.dispatch o node) (Remembered sorter key o) := by
  have howned : WakeTriple key n (Knows key o)
      (if hasOwnerRef node o then pure (o, none) else setOwnerRef node o)
      fun p s => Same o p.1 ∧ Knows key p.1 s := by
    split
    · exact .pure stable_knows fun _ _ h => ⟨.refl o, h⟩
    · exact setOwnerRef_triple
  refine howned.bind fun p => TripleE.of_pure fun hs => ?_
  obtain ⟨m, err⟩ := p
  have hreason := hs.reason
  rw [OperatorPhase, ← hreason] at hphase
  dsimp only at hs hphase ⊢
  split
  · rename_i hm
    rw [hm] at hphase
    exact absurd hphase (by decide)
  · rename_i hm
    exact handleScheduledState_triple hs hm
  · rename_i hm
    exact handleCordonState_triple hs hm
  · rename_i hm
    exact handleWaitPodCompletionState_triple hs hm
  · rename_i hm
    exact handleDrainState_triple hs hm
  · rename_i hm
    exact handleTerminalState_triple hs (.inl hm)
  · rename_i hm
    exact handleTerminalState_triple hs (.inr hm)
  · have hpending : getReadyConditionReason m = .pending := by
      simp only [List.mem_cons, List.not_mem_nil, or_false] at hphase
      rcases hphase with h | h | h | h | h | h | h
      · exact h
      all_goals contradiction
    cases err with
    | none => exact rest_triple hs (.inl hpending)
    | some err => exact .throw

/-- The object that `Reconcile` reads is the stored one. -/
lemma firstRead_triple :
    WakeTriple key n (fun s => s.world.nms.get key = some o)
      (observe (Client.getNodeMaintenance key))
      fun res s => (res ≠ .error .notFound ∧ ∀ a, res = .ok a → a = o) ∧ Knows key o s := by
  have hstored : WakeStable key n fun s => s.world.nms.get key = some o :=
    fun s s' _ _ hr h => hr.stored.trans h
  refine TripleE.lift (pass_call hstored (fun _ => (Stable.const _).and stable_knows) nofun
    (fun _ _ _ => rfl) ?_)
  rintro s res s' - ho ho' ⟨-, hread⟩
  refine ⟨⟨?_, ?_⟩, Store.key_of_get ho', fun a ha => ?_, fun hg => ?_⟩
  · rintro rfl
    have hnone : s.world.nms.get key = none := hread.2 rfl
    rw [ho] at hnone
    cases hnone
  · rintro a rfl
    exact Option.some.inj (hread.symm.trans ho)
  · obtain rfl := Option.some.inj (ho'.symm.trans ha)
    exact .refl o
  · rw [ho'] at hg
    cases hg

/-- Its node is there. -/
lemma getNode_triple (hnode : o.spec.nodeName = n) :
    WakeTriple key n (Knows key o) (observe (Client.getNode o.spec.nodeName))
      fun res s => res ≠ .error .notFound ∧ Knows key o s := by
  refine TripleE.lift (pass_call stable_knows (fun _ => (Stable.const _).and stable_knows) nofun
    (fun _ _ _ => rfl) ?_)
  rintro s res s' hinv' - hk' ⟨hw, hread⟩
  refine ⟨?_, hk'⟩
  rintro rfl
  have hnone : s.world.nodes.get o.spec.nodeName = none := hread.2 rfl
  have hsome := hinv'.1
  rw [hw, ← hnode, hnone] at hsome
  cases hsome

theorem reconcile_triple (hphase : OperatorPhase o) (hnode : o.spec.nodeName = n) :
    WakeTriple key n (fun s => s.world.nms.get key = some o) (r.reconcile key)
      (Remembered sorter key o) := by
  refine firstRead_triple.bind fun res => TripleE.of_pure fun hres => ?_
  obtain ⟨hne, hok⟩ := hres
  cases res with
  | error err =>
    dsimp only
    split
    · rename_i he
      exact absurd (congrArg Except.error he) hne
    · exact .throw
  | ok a =>
    obtain rfl := hok a rfl
    refine (getNode_triple hnode).bind fun res => TripleE.of_pure fun hne => ?_
    cases res with
    | error err =>
      dsimp only
      split
      · rename_i he
        exact absurd (congrArg Except.error he) hne
      · exact .throw
    | ok node => exact dispatch_triple hphase

end Wakeup

/-! ### Runs -/

/-- An object in a phase of the operator, on a node that exists. -/
structure Begins (key : NamespacedName) (w : World) (o : NodeMaintenance) : Prop where
  stored : w.nms.get key = some o
  phase : OperatorPhase o
  node : (w.nodes.get o.spec.nodeName).isSome
  allocated : Allocated w

/-- However its calls turn out, a reconcile is never stuck, and it does not return without an error, a
requeue, a change that wakes it up, or nothing left to do. -/
theorem no_lost_wakeup {r : Reconciler} {key : NamespacedName} {w : World} {o : NodeMaintenance}
    {c : Config Unit Op Resp Watched (Except Err Result)} (sorter : Sorter cmpByType)
    (h : Begins key w o) (run : (watched key).Run (begun r key w) c) :
    (∀ e k, c.threads () = some (.call e k) → ∃ a s, (watched key).exec () e c.state a s) ∧
      ∀ res, c.threads () = some (.ret res) →
        (∃ err, res = .error err) ∨ ∃ result, res = .ok result ∧ Remembered sorter key o result c.state := by
  have hok : (Wakeup.plan key o.spec.nodeName).OkWith
      (fun _ res s => ∀ result, res = .ok result → Remembered sorter key o result s) c := by
    refine soundWith (fun _ _ => False.elim) (c := begun r key w) ⟨⟨h.node, h.allocated⟩, ?_⟩ run
    rintro _ _ ⟨⟩
    exact Wakeup.reconcile_triple h.phase rfl _ ⟨h.node, h.allocated⟩ h.stored
  refine ⟨fun e k hcall => ?_, fun res hret => ?_⟩
  · obtain ⟨⟨a, w'⟩, hserve⟩ := Option.isSome_iff_exists.mp (hok.perm hcall)
    exact ⟨a, ⟨w', c.state.events ++ updateEvents key c.state.world w'⟩,
      World.perform_of_serve hserve, rfl⟩
  · cases res with
    | error err => exact .inl ⟨err, rfl⟩
    | ok result => exact .inr ⟨result, rfl, hok.returned hret result rfl⟩

/-- A player for a reconcile that nobody disturbs. -/
def watchPlayer (key : NamespacedName) : Player (watched key) Empty where
  program _ := none
  body h := nomatch h
  answer _ e s := (s.world.serve e).map fun aw =>
    (aw.1, ⟨aw.2, s.events ++ updateEvents key s.world aw.2⟩)
  exec h := by
    obtain ⟨aw, hserve, haw⟩ := Option.map_eq_some_iff.mp h
    cases haw
    exact ⟨World.perform_of_serve hserve, rfl⟩
  event v _ := nomatch v
  env {v} _ := nomatch v

/-- A cluster with an object in phase Scheduled on its only node. -/
def scheduledMaintenance : World :=
  { World.empty with nodes := .ofList [firstNode] }.write
    (withReadyReason (drainedMaintenance "nm") .scheduled "" 0)

/-- The reconcile of that object makes three updates, of which the last one wakes it up. -/
theorem no_lost_wakeup_when_scheduled :
    ∃ c, (watched ⟨"default", "nm"⟩).Run
        (begun ⟨false, strokeFormats⟩ ⟨"default", "nm"⟩ scheduledMaintenance) c ∧
      c.state.events.map (ConditionChangedPredicate.update (Sorter.insertion cmpByType)) =
        [false, false, true] ∧
      Remembered (Sorter.insertion cmpByType) ⟨"default", "nm"⟩
        (World.empty.stamp (withReadyReason (drainedMaintenance "nm") .scheduled "" 0)) .zero c.state := by
  obtain ⟨c, run, hc⟩ := Player.exists_run_of_play (watchPlayer ⟨"default", "nm"⟩) [.calls () 6]
    (begun ⟨false, strokeFormats⟩ ⟨"default", "nm"⟩ scheduledMaintenance)
    (fun c => c.state.events.map (ConditionChangedPredicate.update (Sorter.insertion cmpByType)) =
      [false, false, true] && (c.threads ()).bind Prog.value? = some (.ok .zero)) (by decide +kernel)
  simp only [Bool.and_eq_true, decide_eq_true_eq] at hc
  obtain ⟨p, hthread, hvalue⟩ := Option.bind_eq_some_iff.mp hc.2
  obtain rfl := Prog.eq_ret_of_value? hvalue
  have hbegins : Begins ⟨"default", "nm"⟩ scheduledMaintenance
      (World.empty.stamp (withReadyReason (drainedMaintenance "nm") .scheduled "" 0)) :=
    ⟨rfl, by unfold OperatorPhase; decide, rfl, nofun⟩
  rcases (no_lost_wakeup (Sorter.insertion cmpByType) hbegins run).2 _ hthread with ⟨_, ⟨⟩⟩ | ⟨_, ⟨⟩, h⟩
  exact ⟨c, run, hc.1, h⟩

end MaintenanceOperator
