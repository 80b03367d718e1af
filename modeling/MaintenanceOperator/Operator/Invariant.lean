import MaintenanceOperator.Operator.Phase
import MaintenanceOperator.Operator.System

/-!
# The invariant of the operator

What holds of the cluster and the drain manager in every state of the operator, over the stored
objects: the Ready condition is true exactly with reason Ready; from phase Cordon on an object that is
not being deleted carries the maintenance finalizer, unless its node was found missing in such a
phase; the drain manager holds requests only for objects that are draining and carry the finalizer,
with the same proviso; and at most one maintenance is under way on each node. `Replaces` says what a
new version of an object must satisfy to keep all this, and `Inv.write` that it then does.
-/

namespace MaintenanceOperator
open Lib Drain

/-- What a proof takes for granted about the start: objects with an exempt UID have an unknown past,
and `exclusive` says that the run started with at most one maintenance per node. -/
structure Scope where
  exempt : String → Prop
  exclusive : Prop

/-- A reconcile found the node of the object missing, in phase Cordon or later. -/
def MissedNode (w : World) (o : NodeMaintenance) : Prop :=
  ∃ n, .nodeNotFound n ∈ w.notes ∧ n.key = o.key ∧ n.uid = o.uid ∧ 3 ≤ phase n ∧ phase n ≤ phase o

/-- The drain manager may hold a request with this UID. -/
def EntryOk (σ : Scope) (w : World) (uid : String) : Prop :=
  (∃ k o, w.nms.get k = some o ∧ uid = drainRequestUID o.key o.uid ∧
    getReadyConditionReason o = .draining ∧ Guarded o) ∨
  (∃ n, .nodeNotFound n ∈ w.notes ∧ n.key.Valid ∧ uid = drainRequestUID n.key n.uid ∧
    3 ≤ phase n ∧ phase n ≤ 5) ∨
  ∃ k u, k.Valid ∧ σ.exempt u ∧ uid = drainRequestUID k u

/-- The invariant. -/
structure Inv (σ : Scope) (s : OperatorState) : Prop where
  consistent : Consistent s.world
  names : ∀ {v}, v ∈ s.world.history → v.key.Valid
  monotone : ∀ {v v'}, v ∈ s.world.history → v' ∈ s.world.history → v.uid = v'.uid →
    v.resourceVersion ≤ v'.resourceVersion → phase v ≤ phase v'
  ready : ∀ {k o}, s.world.nms.get k = some o → ¬ σ.exempt o.uid → ReadyStatusOk o
  guarded : ∀ {k o}, s.world.nms.get k = some o → ¬ σ.exempt o.uid → 3 ≤ phase o →
    o.deleting = false → Guarded o ∨ MissedNode s.world o
  entries : ∀ {uid id}, s.world.drainRequests.get? uid = some id → EntryOk σ s.world uid
  requests : ∀ {uid id}, s.world.drainRequests.get? uid = some id →
    ∃ q, s.world.requests[id]? = some q ∧ q.uid = uid ∧ q.started = true ∧ q.canceled = false
  exclusive : σ.exclusive → ∀ {k o k' o'}, s.world.nms.get k = some o →
    s.world.nms.get k' = some o' → 2 ≤ phase o → 2 ≤ phase o' →
      o.spec.nodeName = o'.spec.nodeName → k = k'
  written : σ.exclusive → ∀ {k o}, s.world.nms.get k = some o → 2 ≤ phase o →
    ∃ v ∈ s.written, v ∈ s.world.history ∧ v.uid = o.uid ∧ 2 ≤ phase v

/-- `o'` may replace the stored `o`. -/
structure Replaces (σ : Scope) (w : World) (o o' : NodeMaintenance) : Prop where
  key : o'.key = o.key
  uid : o'.uid = o.uid
  nodeName : o'.spec.nodeName = o.spec.nodeName
  phase_le : phase o ≤ phase o'
  ready : ReadyStatusOk o → ReadyStatusOk o'
  guarded : ¬ σ.exempt o.uid →
    (3 ≤ phase o → o.deleting = false → Guarded o ∨ MissedNode w o) →
    3 ≤ phase o' → o'.deleting = false → Guarded o' ∨ MissedNode w o'
  entry : getReadyConditionReason o = .draining → Guarded o →
    (w.drainRequests.get? (drainRequestUID o.key o.uid)).isSome = true →
    getReadyConditionReason o' = .draining ∧ Guarded o' ∨ MissedNode w o ∨ σ.exempt o.uid

section Basics
variable {σ : Scope} {w : World} {o o' : NodeMaintenance}

lemma MissedNode.mono (h : MissedNode w o) (key : o'.key = o.key) (uid : o'.uid = o.uid)
    (le : phase o ≤ phase o') : MissedNode w o' := by
  obtain ⟨n, hn, hk, hu, h₃, hle⟩ := h
  exact ⟨n, hn, hk.trans key.symm, hu.trans uid.symm, h₃, hle.trans le⟩

lemma MissedNode.of_notes {w' : World} (h : MissedNode w o) (hn : ∀ n ∈ w.notes, n ∈ w'.notes) :
    MissedNode w' o := by
  obtain ⟨n, hmem, rest⟩ := h
  exact ⟨n, hn _ hmem, rest⟩

lemma EntryOk.of_missed (hval : o.key.Valid) (h : MissedNode w o)
    (hd : getReadyConditionReason o = .draining) : EntryOk σ w (drainRequestUID o.key o.uid) := by
  obtain ⟨n, hn, hk, hu, h₃, hle⟩ := h
  rw [phase_of_reason hd] at hle
  exact .inr (.inl ⟨n, hn, hk ▸ hval, by rw [hk, hu], h₃, hle⟩)

/-- Where objects stay and notes are only added, requests may still be held. -/
lemma EntryOk.of_frame {w' : World} {uid : String} (h : EntryOk σ w uid) (hnms : w'.nms = w.nms)
    (hn : ∀ n ∈ w.notes, n ∈ w'.notes) : EntryOk σ w' uid := by
  rcases h with ⟨k, o, hk, rest⟩ | ⟨n, hmem, rest⟩ | h
  · exact .inl ⟨k, o, hnms ▸ hk, rest⟩
  · exact .inr (.inl ⟨n, hn _ hmem, rest⟩)
  · exact .inr (.inr h)

@[simp] lemma phase_stamp (w : World) (o : NodeMaintenance) : phase (w.stamp o) = phase o := rfl

/-- A request may still be held after its object has been replaced. -/
lemma EntryOk.write {uid : String} (hent : EntryOk σ w uid) (hval : o.key.Valid)
    (ho : w.nms.get o'.key = some o) (hr : Replaces σ w o o')
    (hsome : (w.drainRequests.get? uid).isSome = true) : EntryOk σ (w.write o') uid := by
  rcases hent with ⟨k, o₁, hk, rfl, hd, hg⟩ | h | h
  · by_cases e : k = o'.key
    · subst e
      obtain rfl : o = o₁ := Option.some.inj (ho.symm.trans hk)
      rcases hr.entry hd hg hsome with ⟨hd', hg'⟩ | hm | hx
      · refine .inl ⟨o'.key, w.stamp o', ?_, ?_, hd', hg'⟩
        · rw [World.get_write_self, hg'.not_gone]
          rfl
        · rw [← hr.key, ← hr.uid]
          rfl
      · exact EntryOk.of_missed hval (hm.of_notes fun _ h => h) hd
      · exact .inr (.inr ⟨_, _, hval, hx, rfl⟩)
    · exact .inl ⟨k, o₁, by rwa [World.get_write_ne e], rfl, hd, hg⟩
  · exact .inr (.inl h)
  · exact .inr (.inr h)

end Basics

section Preservation
variable {σ : Scope} {s : OperatorState} {o o' : NodeMaintenance}

/-- A new version that may replace the stored one keeps the invariant. If it puts the object under
maintenance, its node must be free and the scheduler must have written it. -/
theorem Inv.write {written : List NodeMaintenance} (h : Inv σ s)
    (ho : s.world.nms.get o'.key = some o) (hr : Replaces σ s.world o o')
    (hwritten : ∀ v ∈ s.written, v ∈ written)
    (hunder : σ.exclusive → 2 ≤ phase o' → 2 ≤ phase o ∨
      s.world.stamp o' ∈ written ∧ ∀ k₁ o₁, s.world.nms.get k₁ = some o₁ → 2 ≤ phase o₁ →
        o₁.spec.nodeName ≠ o'.spec.nodeName) :
    Inv σ ⟨s.world.write o', written⟩ := by
  -- field by field: each object is the new version or one that was there before
  have hid := h.consistent.identity_of_stored ho hr.key hr.uid hr.nodeName
  have hstored := h.consistent.stored ho
  refine ⟨h.consistent.write hid, ?_, ?_, ?_, ?_, ?_, ?_, ?_, ?_⟩
  · intro v hv
    rcases List.mem_cons.mp hv with rfl | hv
    · exact hr.key ▸ h.names hstored
    · exact h.names hv
  · -- versions of the object before the new one are no further than the stored one
    intro v v' hv hv' hu hle
    rcases List.mem_cons.mp hv with rfl | hv <;> rcases List.mem_cons.mp hv' with rfl | hv'
    · exact Nat.le_refl _
    · have hrev := h.consistent.le_revision hv'
      have hnew : s.world.revision + 1 ≤ v'.resourceVersion := hle
      omega
    · have huid : v.uid = o.uid := hu.trans hr.uid
      exact (h.monotone hv hstored huid (h.consistent.latest ho hv huid)).trans hr.phase_le
    · exact h.monotone hv hv' hu hle
  · intro k o₁ hk hx
    rcases World.get_write hk with ⟨-, hk⟩ | ⟨-, -, rfl⟩
    · exact h.ready hk hx
    · exact hr.ready (h.ready ho (hr.uid ▸ hx))
  · intro k o₁ hk hx h₃ hdel
    rcases World.get_write hk with ⟨-, hk⟩ | ⟨-, -, rfl⟩
    · exact h.guarded hk hx h₃ hdel
    · have hx' : ¬ σ.exempt o.uid := hr.uid ▸ hx
      exact hr.guarded hx' (h.guarded ho hx') h₃ hdel
  · intro uid id hent
    have hsome : s.world.drainRequests.get? uid = some id := hent
    exact (h.entries hent).write (h.names hstored) ho hr (by simp [hsome])
  · exact h.requests
  · intro hex k o₁ k' o₂ hk hk' h₁ h₂ hname
    -- two objects under maintenance on one node: neither is new, or the new one was so before or needs a free node
    rcases World.get_write hk with ⟨-, hk⟩ | ⟨rfl, -, rfl⟩ <;>
      rcases World.get_write hk' with ⟨-, hk'⟩ | ⟨rfl, -, rfl⟩
    · exact h.exclusive hex hk hk' h₁ h₂ hname
    · rcases hunder hex h₂ with hu | ⟨-, hfree⟩
      · exact h.exclusive hex hk ho h₁ hu (hname.trans hr.nodeName)
      · exact absurd hname (hfree _ _ hk h₁)
    · rcases hunder hex h₁ with hu | ⟨-, hfree⟩
      · exact h.exclusive hex ho hk' hu h₂ (hr.nodeName.symm.trans hname)
      · exact absurd hname.symm (hfree _ _ hk' h₂)
    · rfl
  · intro hex k o₁ hk h₂
    rcases World.get_write hk with ⟨-, hk⟩ | ⟨rfl, -, rfl⟩
    · obtain ⟨v, hv, hh, hu, hp⟩ := h.written hex hk h₂
      exact ⟨v, hwritten v hv, .tail _ hh, hu, hp⟩
    · rcases hunder hex h₂ with hu | ⟨hmem, -⟩
      · obtain ⟨v, hv, hh, hv', hp⟩ := h.written hex ho hu
        exact ⟨v, hwritten v hv, .tail _ hh, hv'.trans hr.uid.symm, hp⟩
      · exact ⟨_, hmem, .head _, rfl, h₂⟩

/-- A new object is in no phase yet. -/
lemma phase_of_new (h : o.status = ⟨[], [], none⟩) : phase o = 0 := by
  simp [phase, getReadyConditionReason, h, findStatusCondition, Reason.order]

/-- The creation of an object keeps the invariant. -/
theorem Inv.create (h : Inv σ s) (hfree : s.world.nms.get o.key = none)
    (hfresh : ∀ v ∈ s.world.history, v.uid ≠ o.uid) (hvalid : o.key.Valid)
    (hstatus : o.status = ⟨[], [], none⟩) : Inv σ ⟨s.world.write o, s.written⟩ := by
  -- what the invariant says of phases says nothing of the new object
  have h0 := phase_of_new hstatus
  refine ⟨h.consistent.write fun v hv e => absurd e (hfresh v hv), ?_, ?_, ?_, ?_, ?_, ?_, ?_, ?_⟩
  · intro v hv
    rcases List.mem_cons.mp hv with rfl | hv
    · exact hvalid
    · exact h.names hv
  · intro v v' hv hv' hu hle
    rcases List.mem_cons.mp hv with rfl | hv <;> rcases List.mem_cons.mp hv' with rfl | hv'
    · exact Nat.le_refl _
    · exact absurd hu.symm (hfresh v' hv')
    · exact absurd hu (hfresh v hv)
    · exact h.monotone hv hv' hu hle
  · intro k o₁ hk hx
    rcases World.get_write hk with ⟨-, hk⟩ | ⟨-, -, rfl⟩
    · exact h.ready hk hx
    · intro c hc
      simp [World.stamp, hstatus, findStatusCondition] at hc
  · intro k o₁ hk hx h₃ hdel
    rcases World.get_write hk with ⟨-, hk⟩ | ⟨-, -, rfl⟩
    · exact h.guarded hk hx h₃ hdel
    · rw [phase_stamp] at h₃
      omega
  · intro uid id hent
    rcases h.entries hent with ⟨k, o₁, hk, rest⟩ | h' | h'
    · refine .inl ⟨k, o₁, ?_, rest⟩
      have ne : k ≠ o.key := fun e => by rw [e, hfree] at hk; cases hk
      rwa [World.get_write_ne ne]
    · exact .inr (.inl h')
    · exact .inr (.inr h')
  · exact h.requests
  · intro hex k o₁ k' o₂ hk hk' h₁ h₂ hname
    rcases World.get_write hk with ⟨-, hk⟩ | ⟨-, -, rfl⟩
    · rcases World.get_write hk' with ⟨-, hk'⟩ | ⟨-, -, rfl⟩
      · exact h.exclusive hex hk hk' h₁ h₂ hname
      · rw [phase_stamp] at h₂
        omega
    · rw [phase_stamp] at h₁
      omega
  · intro hex k o₁ hk h₂
    rcases World.get_write hk with ⟨-, hk⟩ | ⟨-, -, rfl⟩
    · obtain ⟨v, hv, hh, hu⟩ := h.written hex hk h₂
      exact ⟨v, hv, .tail _ hh, hu⟩
    · rw [phase_stamp] at h₂
      omega

/-- Where the NodeMaintenances stay, the rest of the cluster may change as long as the drain manager
keeps to its part. -/
theorem Inv.of_frame {w : World} {written : List NodeMaintenance} (h : Inv σ s)
    (hnms : w.nms = s.world.nms) (hhist : w.history = s.world.history)
    (hrev : w.revision = s.world.revision) (hnotes : ∀ n ∈ s.world.notes, n ∈ w.notes)
    (hwritten : ∀ v ∈ s.written, v ∈ written)
    (hent : ∀ {uid id}, w.drainRequests.get? uid = some id → EntryOk σ s.world uid)
    (hreq : ∀ {uid id}, w.drainRequests.get? uid = some id →
      ∃ q, w.requests[id]? = some q ∧ q.uid = uid ∧ q.started = true ∧ q.canceled = false) :
    Inv σ ⟨w, written⟩ := by
  refine ⟨h.consistent.of_eq hnms hhist hrev, ?_, ?_, ?_, ?_, ?_, hreq, ?_, ?_⟩
  · exact fun hv => h.names (hhist ▸ hv)
  · exact fun hv hv' => h.monotone (hhist ▸ hv) (hhist ▸ hv')
  · exact fun hk => h.ready (hnms ▸ hk)
  · exact fun hk hx h₃ hdel => (h.guarded (hnms ▸ hk) hx h₃ hdel).imp id (·.of_notes hnotes)
  · exact fun he => (hent he).of_frame hnms hnotes
  · exact fun hex _ _ _ _ hk hk' => h.exclusive hex (hnms ▸ hk) (hnms ▸ hk')
  · intro hex k o hk h₂
    obtain ⟨v, hv, hh, hu⟩ := h.written hex (hnms ▸ hk) h₂
    exact ⟨v, hwritten v hv, hhist ▸ hh, hu⟩

end Preservation
end MaintenanceOperator
