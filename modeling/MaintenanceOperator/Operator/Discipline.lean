import MaintenanceOperator.Operator.Invariant

/-!
# Permissions and the rely conditions

The proof plan of the operator: what a worker must know before each call that changes something
(`perm`), and what each worker may rely on while others move (`rely`). A reconciler relies on being the
only one that takes the finalizer off its object, that moves its object on once it is under
maintenance, and that touches its requests in the drain manager; the scheduler relies on being the
only one that puts objects under maintenance.
-/

namespace MaintenanceOperator
open Lib Drain

/-- The finalizer may be taken off the stored object. -/
def Release (σ : Scope) (w : World) (o : NodeMaintenance) : Prop :=
  σ.exempt o.uid ∨
    (3 ≤ phase o → o.deleting = true ∨ MissedNode w o) ∧
    (getReadyConditionReason o = .draining →
      w.drainRequests.get? (drainRequestUID o.key o.uid) = none ∨ MissedNode w o)

/-- A whole-object update with this body is in order. -/
def UpdateOk (σ : Scope) (w : World) (b : NodeMaintenance) : Prop :=
  ∀ o, w.nms.get b.key = some o → Matches o b → Guarded o → Guarded b ∨ Release σ w o

/-- A drain request for the object, with its drain spec, has finished without an error. -/
def Drained (w : World) (o : NodeMaintenance) : Prop :=
  ∃ (id : Nat) (q : DrainRequest), w.requests[id]? = some q ∧
    q.uid = drainRequestUIDFromNodeMaintenance o ∧ o.spec.drainSpec = some q.drainSpec.spec ∧
    q.succeeded = true

/-- `HandlePodCompletion` returned for this version of the object, with no pods to wait for or with a
timeout. -/
def Waited (w : World) (o : NodeMaintenance) : Prop :=
  ∃ nm pods err, .podCompletion nm pods err ∈ w.notes ∧ nm.key = o.key ∧ nm.uid = o.uid ∧
    nm.resourceVersion = o.resourceVersion ∧
    (pods = [] ∧ err = none ∨ ∃ e, err = some e ∧ e.is .errPodCompletionTimeout = true)

/-- A reconciler may give the stored `o` the status of `b`. -/
structure StatusOk (w : World) (o b : NodeMaintenance) : Prop where
  advance : getReadyConditionReason b = getReadyConditionReason o ∨
    Advance (getReadyConditionReason o) (getReadyConditionReason b) ∧
      getReadyConditionReason b ≠ .scheduled
  ready : ReadyStatusOk o → ReadyStatusOk b
  enter : getReadyConditionReason o = .scheduled → getReadyConditionReason b = .cordon → Guarded o
  leave : getReadyConditionReason o = .draining → getReadyConditionReason b ≠ .draining →
    w.drainRequests.get? (drainRequestUID o.key o.uid) = none
  drained : getReadyConditionReason o = .draining → getReadyConditionReason b = .ready →
    o.spec.drainSpec = none ∨ Drained w o
  waited : getReadyConditionReason o = .waitForPodCompletion →
    getReadyConditionReason b = .draining → o.spec.waitForPodCompletion = none ∨ Waited w o

/-- The scheduler may give the stored `o` the status of `b`. -/
structure ScheduleOk (σ : Scope) (w : World) (o b : NodeMaintenance) : Prop where
  scheduled : getReadyConditionReason b = .scheduled
  waiting : phase o < 2
  ready : ReadyStatusOk b
  free : σ.exclusive → ∀ {k₁ o₁}, w.nms.get k₁ = some o₁ → 2 ≤ phase o₁ →
    o₁.spec.nodeName ≠ o.spec.nodeName

/-- Permissions. -/
def perm (σ : Scope) : Worker → OperatorState → Op → Prop
  | .reconciler key, s, .update b => b.key = key ∧ UpdateOk σ s.world b
  | .reconciler key, s, .statusUpdate b => b.key = key ∧
      ∀ o, s.world.nms.get key = some o → Matches o b → StatusOk s.world o b
  | .reconciler key, s, .addRequest id => key.Valid ∧ ∃ q u, s.world.requests[id]? = some q ∧
      q.uid = drainRequestUID key u ∧ q.canceled = false ∧ EntryOk σ s.world q.uid
  | .reconciler key, _, .removeRequest uid => key.Valid ∧ ∃ u, uid = drainRequestUID key u
  | .reconciler _, _, _ => True
  | .scheduler, s, .statusUpdate b =>
      ∀ o, s.world.nms.get b.key = some o → Matches o b → ScheduleOk σ s.world o b
  | .scheduler, _, e => e.part = .nothing

/-- What lasts for a reconciler, also across its own writes of NodeMaintenances. -/
structure RelyOwn (key : NamespacedName) (s s' : OperatorState) : Prop where
  history : ∀ v ∈ s.world.history, v ∈ s'.world.history
  notes : ∀ n ∈ s.world.notes, n ∈ s'.world.notes
  own : key.Valid → ∀ {id : Nat} {q u}, s.world.requests[id]? = some q →
    q.uid = drainRequestUID key u →
    ∃ q', s'.world.requests[id]? = some q' ∧ Evolves q q' ∧ q'.canceled = q.canceled
  entries : key.Valid → ∀ u, s'.world.drainRequests.get? (drainRequestUID key u) =
    s.world.drainRequests.get? (drainRequestUID key u)

/-- What a reconciler relies on. -/
structure RelyReconciler (key : NamespacedName) (s s' : OperatorState) : Prop
    extends RelyOwn key s s' where
  stored : ∀ {o}, s.world.nms.get key = some o → Guarded o →
    ∃ o', s'.world.nms.get key = some o' ∧ o'.uid = o.uid ∧ Guarded o' ∧
      (2 ≤ phase o → getReadyConditionReason o' = getReadyConditionReason o)

/-- What the scheduler relies on. -/
structure RelyScheduler (s s' : OperatorState) : Prop where
  history : ∀ v ∈ s.world.history, v ∈ s'.world.history
  under : ∀ {k o'}, s'.world.nms.get k = some o' → 2 ≤ phase o' →
    ∃ o, s.world.nms.get k = some o ∧ o.spec.nodeName = o'.spec.nodeName ∧ 2 ≤ phase o

/-- Rely conditions. -/
def rely : Worker → OperatorState → OperatorState → Prop
  | .reconciler key => RelyReconciler key
  | .scheduler => RelyScheduler

section Calls
variable {σ : Scope} {w : World} {s s' : OperatorState} {o b : NodeMaintenance}
  {spec : NodeMaintenanceSpec}

/-- A permitted update replaces the stored object. -/
lemma UpdateOk.replaces (h : UpdateOk σ w b) (ho : w.nms.get b.key = some o) (hm : Matches o b)
    (hname : spec.nodeName = o.spec.nodeName) : Replaces σ w o (w.merge o b spec) := by
  have hrel := h o ho hm
  refine ⟨rfl, rfl, hname, Nat.le_refl _, id, ?_, ?_⟩
  · intro hx hold h₃ hdel
    rcases hold h₃ hdel with hg | hmiss
    · rcases hrel hg with hg' | hx' | ⟨hfree, -⟩
      · exact .inl hg'
      · exact absurd hx' hx
      · rcases hfree h₃ with hd | hmiss
        · exact absurd (hd.symm.trans hdel) (by simp)
        · exact .inr hmiss
    · exact .inr hmiss
  · intro hd hg hsome
    rcases hrel hg with hg' | hx | ⟨-, hent⟩
    · exact .inl ⟨hd, hg'⟩
    · exact .inr (.inr hx)
    · rcases hent hd with hnone | hmiss
      · simp [hnone] at hsome
      · exact .inr (.inl hmiss)

/-- A step of a reconciler does not go back, and puts nothing under maintenance. -/
lemma StatusOk.phase_le (h : StatusOk w o b) : phase o ≤ phase b ∧ (2 ≤ phase b → 2 ≤ phase o) := by
  unfold phase
  rcases h.advance with e | ⟨adv, ne⟩
  · rw [e]
    exact ⟨Nat.le_refl _, id⟩
  · refine ⟨adv.order_le, ?_⟩
    generalize getReadyConditionReason o = ro at adv
    generalize getReadyConditionReason b = rb at adv ne
    cases adv <;> simp_all [Reason.order]

/-- From phase Scheduled on, a reconciler enters the guarded phases with the finalizer on. -/
lemma StatusOk.guarded (h : StatusOk w o b) (h₃ : 3 ≤ phase b) : 3 ≤ phase o ∨ Guarded o := by
  have henter := h.enter
  unfold phase at *
  rcases h.advance with e | ⟨adv, -⟩
  · exact .inl (e ▸ h₃)
  · generalize getReadyConditionReason o = ro at adv henter
    generalize getReadyConditionReason b = rb at adv henter h₃
    cases adv <;> simp_all [Reason.order]

/-- A permitted status update of a reconciler replaces the stored object. -/
lemma StatusOk.replaces (h : StatusOk w o b) : Replaces σ w o (w.mergeStatus o b) := by
  refine ⟨rfl, rfl, rfl, h.phase_le.1, h.ready, ?_, ?_⟩
  · intro _ hold h₃ hdel
    rcases h.guarded h₃ with h₃' | hg
    · exact (hold h₃' hdel).imp id fun hmiss => hmiss.mono rfl rfl h.phase_le.1
    · exact .inl hg
  · intro hd hg hsome
    by_cases e : getReadyConditionReason b = .draining
    · exact .inl ⟨e, hg⟩
    · simp [h.leave hd e] at hsome

/-- A permitted status update of the scheduler replaces the stored object. -/
lemma ScheduleOk.replaces (h : ScheduleOk σ w o b) : Replaces σ w o (w.mergeStatus o b) := by
  have hb : phase (w.mergeStatus o b) = 2 := phase_of_reason h.scheduled
  have ho := h.waiting
  refine ⟨rfl, rfl, rfl, by omega, fun _ => h.ready, ?_, ?_⟩
  · intro _ _ h₃
    omega
  · intro hd
    rw [phase_of_reason hd] at ho
    simp [Reason.order] at ho

/-- Starting a request that is not canceled. -/
lemma startDrain_spec {q : DrainRequest} (h : q.canceled = false) :
    q.startDrain.uid = q.uid ∧ q.startDrain.started = true ∧ q.startDrain.canceled = false := by
  unfold DrainRequest.startDrain
  cases hs : q.started <;> simp [h, hs]

/-- A permitted call keeps the drain manager in order. -/
lemma Inv.drain_call {i : Worker} {e : Op} {w' : World} (h : Inv σ s) (hp : perm σ i s e)
    (he : DrainEffect e s.world w') {uid : String} {id : Nat}
    (hent : w'.drainRequests.get? uid = some id) :
    EntryOk σ s.world uid ∧
      ∃ q, w'.requests[id]? = some q ∧ q.uid = uid ∧ q.started = true ∧ q.canceled = false := by
  cases he with
  | same hr hd =>
    rw [hd] at hent
    rw [hr]
    exact ⟨h.entries hent, h.requests hent⟩
  | new hq =>
    obtain ⟨q, hq, rest⟩ := h.requests hent
    have hlt := (List.getElem?_eq_some_iff.mp hq).1
    exact ⟨h.entries hent, q, by rw [List.getElem?_append_left hlt, hq], rest⟩
  | @add _ id₁ q₁ hq₁ hnone =>
    cases i with
    | scheduler => cases hp
    | reconciler key =>
      obtain ⟨-, q, u, hq, -, hc, hok⟩ := hp
      obtain rfl : q₁ = q := Option.some.inj (hq₁.symm.trans hq)
      by_cases e : uid = q₁.uid
      · subst e
        obtain rfl : id₁ = id := by simpa using hent
        exact ⟨hok, q₁.startDrain, by simp [hq], startDrain_spec hc⟩
      · simp only [GoMap.get?_set_ne _ e] at hent
        obtain ⟨q₂, hq₂, hu, hst, hc₂⟩ := h.requests hent
        -- distinct UIDs belong to distinct requests
        have ne : id₁ ≠ id := by
          rintro rfl
          obtain rfl : q₁ = q₂ := Option.some.inj (hq₁.symm.trans hq₂)
          exact e hu.symm
        exact ⟨h.entries hent, q₂, by simp [ne, hq₂], hu, hst, hc₂⟩
  | @remove _ uid₁ id₁ err hid =>
    have ne : uid ≠ uid₁ := by
      rintro rfl
      simp at hent
    simp only [GoMap.get?_delete_ne ne] at hent
    obtain ⟨q₁, hq₁, hu₁, -⟩ := h.requests hid
    obtain ⟨q, hq, hu, rest⟩ := h.requests hent
    have ne' : id₁ ≠ id := by
      rintro rfl
      obtain rfl : q₁ = q := Option.some.inj (hq₁.symm.trans hq)
      exact ne (hu.symm.trans hu₁)
    exact ⟨h.entries hent, q, by simp [ne', hq], hu, rest⟩

/-- A permitted call keeps the invariant. -/
lemma Inv.call {i : Worker} {e : Op} {r : Resp e} (h : Inv σ s) (hp : perm σ i s e)
    (he : operatorExec i e s r s') : Inv σ s' := by
  obtain ⟨w', written⟩ := s'
  have hperf : Perform .cached e s.world r w' := by cases i <;> exact he.1
  have hwritten : ∀ v ∈ s.written, v ∈ written := by
    intro v hv
    cases i with
    | scheduler =>
      have hw : written = newVersions s.world w' ++ s.written := he.2.1
      rw [hw]
      exact List.mem_append_right _ hv
    | reconciler key =>
      have hw : written = s.written := he.2
      exact hw ▸ hv
  cases hperf.nmsEffect with
  | same hn hh hr =>
    have hdrain := hperf.drainEffect
    exact h.of_frame hn hh hr hperf.notes_subset hwritten
      (fun hent => (h.drain_call hp hdrain hent).1) (fun hent => (h.drain_call hp hdrain hent).2)
  | @update _ b o spec ho hm _ hname =>
    cases i with
    | scheduler => cases hp
    | reconciler key =>
      have hkey : (s.world.merge o b spec).key = b.key := hm.1
      exact h.write (hkey ▸ ho) (hp.2.replaces ho hm hname) hwritten fun _ h₂ => .inl h₂
  | @statusUpdate _ b o ho hm =>
    have hkey : (s.world.mergeStatus o b).key = b.key := hm.1
    cases i with
    | scheduler =>
      have hok := hp o ho hm
      -- the scheduler puts an object under maintenance only where the node is free
      refine h.write (hkey ▸ ho) hok.replaces hwritten fun hex _ => .inr ⟨?_, ?_⟩
      · have hw : written = newVersions s.world _ ++ s.written := he.2.1
        rw [hw]
        refine List.mem_append_left _ ?_
        simp [newVersions]
      · exact fun _ _ hk h₂ => hok.free hex hk h₂
    | reconciler key =>
      obtain ⟨rfl, hok⟩ := hp
      have hok := hok o ho hm
      exact h.write (hkey ▸ ho) hok.replaces hwritten fun _ h₂ => .inl (hok.phase_le.2 h₂)

/-- Two objects with different keys never share a request. -/
lemma drainRequestUID_ne {k k' : NamespacedName} (hk : k.Valid) (hk' : k'.Valid) (ne : k ≠ k')
    (u u' : String) : drainRequestUID k u ≠ drainRequestUID k' u' :=
  fun e => ne (drainRequestUID_injective hk hk' e).1

/-- A permitted call of another worker leaves a reconciler's requests alone. -/
lemma Inv.rely_drain {i : Worker} {key : NamespacedName} {e : Op} {w' : World} (h : Inv σ s)
    (ne : i ≠ .reconciler key) (hp : perm σ i s e) (he : DrainEffect e s.world w')
    (hkey : key.Valid) (u : String) :
    (∀ {id : Nat} {q}, s.world.requests[id]? = some q → q.uid = drainRequestUID key u →
      w'.requests[id]? = some q) ∧
    w'.drainRequests.get? (drainRequestUID key u) =
      s.world.drainRequests.get? (drainRequestUID key u) := by
  cases he with
  | same hr hd =>
    rw [hr, hd]
    exact ⟨fun hq _ => hq, rfl⟩
  | new hq =>
    refine ⟨fun hq _ => ?_, rfl⟩
    rw [List.getElem?_append_left (List.getElem?_eq_some_iff.mp hq).1, hq]
  | @add _ id₁ q₁ hq₁ hnone =>
    cases i with
    | scheduler => cases hp
    | reconciler key' =>
      -- another reconciler starts and removes only requests of its own object
      obtain ⟨hkey', q₂, u', hq₂, hu', -⟩ := hp
      obtain rfl : q₁ = q₂ := Option.some.inj (hq₁.symm.trans hq₂)
      have hne := drainRequestUID_ne hkey hkey' (fun e => ne (e ▸ rfl)) u u'
      refine ⟨fun {id q} hq hu => ?_, ?_⟩
      · have hid : id₁ ≠ id := by
          rintro rfl
          obtain rfl : q₁ = q := Option.some.inj (hq₁.symm.trans hq)
          exact hne (hu.symm.trans hu')
        simp [hid, hq]
      · rw [GoMap.get?_set_ne _ (hu' ▸ hne)]
  | @remove _ uid₁ id₁ err hid₁ =>
    cases i with
    | scheduler => cases hp
    | reconciler key' =>
      obtain ⟨hkey', u', rfl⟩ := hp
      obtain ⟨q₁, hq₁, hu₁, -⟩ := h.requests hid₁
      have hne := drainRequestUID_ne hkey hkey' (fun e => ne (e ▸ rfl)) u u'
      refine ⟨fun {id q} hq hu => ?_, ?_⟩
      · have hid : id₁ ≠ id := by
          rintro rfl
          obtain rfl : q₁ = q := Option.some.inj (hq₁.symm.trans hq)
          exact hne (hu.symm.trans hu₁)
        simp [hid, hq]
      · rw [GoMap.get?_delete_ne hne]

/-- What a reconciler may rely on while another worker makes a permitted call. -/
lemma Inv.rely_reconciler {i : Worker} {key : NamespacedName} {e : Op} {r : Resp e} (h : Inv σ s)
    (ne : i ≠ .reconciler key) (hp : perm σ i s e)
    (hperf : Perform .cached e s.world r s'.world) : RelyReconciler key s s' := by
  refine ⟨⟨hperf.history_subset, hperf.notes_subset, ?_, ?_⟩, ?_⟩
  · intro hkey id q u hq hu
    have hq' := (h.rely_drain ne hp hperf.drainEffect hkey u).1 hq hu
    exact ⟨q, hq', .refl q, rfl⟩
  · exact fun hkey u => (h.rely_drain ne hp hperf.drainEffect hkey u).2
  · intro o ho hg
    have heff := hperf.nmsEffect
    generalize s'.world = w' at heff
    cases heff with
    | same hn _ _ => exact ⟨o, hn ▸ ho, rfl, hg, fun _ => rfl⟩
    | @update _ b o₁ spec ho₁ hm _ _ =>
      cases i with
      | scheduler => cases hp
      | reconciler key' =>
        have hb : key ≠ (s.world.merge o₁ b spec).key := fun e =>
          ne (by rw [e, ← hp.1]; exact congrArg Worker.reconciler hm.1.symm)
        exact ⟨o, by rwa [World.get_write_ne hb], rfl, hg, fun _ => rfl⟩
    | @statusUpdate _ b o₁ ho₁ hm =>
      by_cases hb : key = (s.world.mergeStatus o₁ b).key
      · have hkey : key = b.key := hb.trans hm.1
        subst hkey
        obtain rfl : o₁ = o := Option.some.inj (ho₁.symm.trans ho)
        cases i with
        | scheduler =>
          -- the scheduler writes objects that are not under maintenance yet
          have hok := hp o₁ ho hm
          have hg' : Guarded (s.world.mergeStatus o₁ b) := hg
          refine ⟨s.world.stamp (s.world.mergeStatus o₁ b), ?_, rfl, hg, fun h₂ => ?_⟩
          · rw [hb, World.get_write_self, hg'.not_gone]
            rfl
          · exact absurd hok.waiting (by omega)
        | reconciler key' => exact absurd (congrArg Worker.reconciler hp.1.symm) ne
      · exact ⟨o, by rwa [World.get_write_ne hb], rfl, hg, fun _ => rfl⟩

/-- What the scheduler may rely on while a reconciler makes a permitted call. -/
lemma Inv.rely_scheduler {key : NamespacedName} {e : Op} {r : Resp e}
    (hp : perm σ (.reconciler key) s e) (hperf : Perform .cached e s.world r s'.world) :
    RelyScheduler s s' := by
  refine ⟨hperf.history_subset, fun {k o'} hk h₂ => ?_⟩
  have heff := hperf.nmsEffect
  generalize s'.world = w' at heff hk
  cases heff with
  | same hn _ _ => exact ⟨o', hn ▸ hk, rfl, h₂⟩
  | @update _ b o spec ho hm _ hname =>
    rcases World.get_write hk with ⟨-, hk⟩ | ⟨rfl, -, rfl⟩
    · exact ⟨o', hk, rfl, h₂⟩
    · have hkey : (s.world.merge o b spec).key = b.key := hm.1
      exact ⟨o, hkey ▸ ho, hname.symm, h₂⟩
  | @statusUpdate _ b o ho hm =>
    rcases World.get_write hk with ⟨-, hk⟩ | ⟨rfl, -, rfl⟩
    · exact ⟨o', hk, rfl, h₂⟩
    · obtain ⟨rfl, hok⟩ := hp
      have hkey : (s.world.mergeStatus o b).key = b.key := hm.1
      exact ⟨o, hkey ▸ ho, rfl, (hok o ho hm).phase_le.2 h₂⟩

end Calls

section Events
variable {σ : Scope} {s s' : OperatorState} {o o' : NodeMaintenance}

/-- An object whose Ready condition and finalizer stay as they are replaces the stored one. -/
lemma Replaces.of_same (σ : Scope) (w : World) (key : o'.key = o.key) (uid : o'.uid = o.uid)
    (nodeName : o'.spec.nodeName = o.spec.nodeName)
    (ready : findStatusCondition o'.status.conditions conditionTypeReady =
      findStatusCondition o.status.conditions conditionTypeReady)
    (finalizer : Guarded o → Guarded o') (deleting : o.deleting = true → o'.deleting = true) :
    Replaces σ w o o' := by
  have hreason := reason_congr ready
  have hphase : phase o' = phase o := by rw [phase, hreason, phase]
  refine ⟨key, uid, nodeName, hphase.ge, (·.congr ready), ?_, ?_⟩
  · intro _ hold h₃ hdel
    have hdel' : o.deleting = false := by
      cases hd : o.deleting with
      | false => rfl
      | true => rw [deleting hd] at hdel; exact hdel
    exact (hold (hphase ▸ h₃) hdel').imp finalizer (·.mono key uid hphase.ge)
  · intro hd hg _
    exact .inl ⟨hreason.trans hd, finalizer hg⟩

/-- Events keep the invariant. -/
lemma Inv.event (h : Inv σ s) (he : Event s.world s'.world) (hw : s'.written = s.written) :
    Inv σ s' := by
  obtain ⟨w', written⟩ := s'
  obtain rfl : written = s.written := hw
  rcases he.nmsCases with ⟨hn, hh, hr⟩ | ⟨o, hfree, hfresh, hvalid, hstatus, rfl⟩ |
    ⟨o, o', ho, huid, hname, hready, hfin, hdel, rfl⟩
  · refine h.of_frame hn hh hr (fun n hn => he.notes ▸ hn) (fun _ hv => hv) ?_ ?_
    · exact fun hent => h.entries (he.drainRequests ▸ hent)
    · intro uid id hent
      obtain ⟨q, hq, hu, hst, hc⟩ := h.requests (he.drainRequests ▸ hent)
      obtain ⟨q', hq', hev, hc'⟩ := he.heap hq
      exact ⟨q', hq', hev.uid.trans hu, hev.started hst, hc'.trans hc⟩
  · exact h.create hfree hfresh hvalid hstatus
  · have hrep := Replaces.of_same σ s.world (Store.key_of_get ho).symm huid hname hready hfin.mpr hdel
    refine h.write ho hrep (fun _ hv => hv) fun _ h₂ => .inl ?_
    rwa [phase, reason_congr hready] at h₂

/-- What workers may rely on while an event happens. -/
lemma Event.rely (j : Worker) (he : Event s.world s'.world) : MaintenanceOperator.rely j s s' := by
  cases j with
  | reconciler key =>
    refine ⟨⟨he.history_subset, fun n hn => he.notes ▸ hn, ?_, ?_⟩, ?_⟩
    · exact fun _ {id q u} hq _ => he.heap hq
    · exact fun _ u => by rw [he.drainRequests]
    · intro o ho hg
      rcases he.nmsCases with ⟨hn, -, -⟩ | ⟨o₁, hfree, -, -, -, hw⟩ |
        ⟨o₁, o', ho', huid, -, hready, hfin, -, hw⟩
      · exact ⟨o, hn ▸ ho, rfl, hg, fun _ => rfl⟩
      · have ne : key ≠ o₁.key := fun e => by rw [e, hfree] at ho; cases ho
        exact ⟨o, by rwa [hw, World.get_write_ne ne], rfl, hg, fun _ => rfl⟩
      · by_cases e : key = o'.key
        · subst e
          obtain rfl : o₁ = o := Option.some.inj (ho'.symm.trans ho)
          refine ⟨s.world.stamp o', ?_, huid, hfin.mpr hg, fun _ => reason_congr hready⟩
          rw [hw, World.get_write_self, (hfin.mpr hg).not_gone]
          rfl
        · exact ⟨o, by rwa [hw, World.get_write_ne e], rfl, hg, fun _ => rfl⟩
  | scheduler =>
    refine ⟨he.history_subset, fun {k o'} hk h₂ => ?_⟩
    rcases he.nmsCases with ⟨hn, -, -⟩ | ⟨o₁, -, -, -, hstatus, hw⟩ |
      ⟨o₁, o₂, ho', -, hname, hready, -, -, hw⟩
    · exact ⟨o', hn ▸ hk, rfl, h₂⟩
    · rw [hw] at hk
      rcases World.get_write hk with ⟨-, hk⟩ | ⟨-, -, rfl⟩
      · exact ⟨o', hk, rfl, h₂⟩
      · rw [phase_stamp, phase_of_new hstatus] at h₂
        omega
    · rw [hw] at hk
      rcases World.get_write hk with ⟨-, hk⟩ | ⟨rfl, -, rfl⟩
      · exact ⟨o', hk, rfl, h₂⟩
      · rw [phase_stamp, phase, reason_congr hready] at h₂
        exact ⟨o₁, ho', hname.symm, h₂⟩

end Events

/-- The proof plan. -/
def discipline (σ : Scope) (r : Reconciler) (sorter : Sorter Scheduler.compareRanked) :
    Discipline (operator r sorter) where
  inv := Inv σ
  perm := perm σ
  rely := rely
  inv_call h hp he := h.call hp he
  rely_call {i j s e r s'} ne h hp he := by
    have hperf : Perform .cached e s.world r s'.world := by cases i <;> exact he.1
    cases j with
    | reconciler key => exact h.rely_reconciler ne hp hperf
    | scheduler =>
      cases i with
      | reconciler key => exact Inv.rely_scheduler hp hperf
      | scheduler => exact absurd rfl ne
  inv_env h he := h.event he.1 he.2
  rely_env {_ _ j _} _ _ he := he.1.rely j

end MaintenanceOperator
