import MaintenanceOperator.Cluster.Calls

/-!
# What calls do to the cluster

Every call changes at most one part of the cluster (`Perform.frame`). A call that changes the
NodeMaintenances is a whole-object update or a status update of the version its body was made from
(`Perform.nmsEffect`). `Consistent` says that the stored objects and the history of versions belong
together; it is kept by every write, and is what makes the comparison of resource versions tell a
writer that nothing has happened to the object since it was read (`Consistent.eq_of_version`).
-/

namespace MaintenanceOperator
open Lib Drain

/-- Parts of the cluster, and the mutex of the pool manager. -/
inductive Part where
  | nodeMaintenances
  | nodes
  | pools
  | drain
  | notes
  | mutex
  | nothing
  deriving DecidableEq

/-- The part that a call may change. -/
def Op.part : Op → Part
  | .update _ | .statusUpdate _ => .nodeMaintenances
  | .patchUnschedulable _ _ => .nodes
  | .patchMachineConfigPool _ _ => .pools
  | .newDrainRequest _ | .addRequest _ | .removeRequest _ => .drain
  | .trace _ => .notes
  | .lock | .unlock => .mutex
  | _ => .nothing

/-- `w'` differs from `w` in the given part only. -/
structure Frame (p : Part) (w w' : World) : Prop where
  nms : p ≠ .nodeMaintenances → w'.nms = w.nms
  history : p ≠ .nodeMaintenances → w'.history = w.history
  revision : p ≠ .nodeMaintenances → w'.revision = w.revision
  nodes : p ≠ .nodes → w'.nodes = w.nodes
  pools : p ≠ .pools → w'.pools = w.pools
  requests : p ≠ .drain → w'.requests = w.requests
  drainRequests : p ≠ .drain → w'.drainRequests = w.drainRequests
  notes : p ≠ .notes → w'.notes = w.notes
  machineConfigs : w'.machineConfigs = w.machineConfigs

lemma Frame.refl (p : Part) (w : World) : Frame p w w := by
  constructor <;> intros <;> rfl

/-- Where no part may differ, nothing does. -/
lemma Frame.eq {w w' : World} (h : Frame .nothing w w') : w' = w := by
  obtain ⟨h₁, h₂, h₃, h₄, h₅, h₆, h₇, h₈, h₉⟩ := h
  cases w
  cases w'
  simp_all

/-- The body was made from the stored version. -/
def Matches (o b : NodeMaintenance) : Prop :=
  o.key = b.key ∧ o.uid = b.uid ∧ o.resourceVersion = b.resourceVersion

namespace World
variable {w w' : World} {b a o : NodeMaintenance}

/-- What a whole-object update needs and does. -/
lemma update_eq_some (h : w.update b = some (a, w')) :
    ∃ o spec, w.nms.get b.key = some o ∧ Matches o b ∧ putSpec b.spec = some spec ∧
      spec.nodeName = o.spec.nodeName ∧ a = w.merge o b spec ∧ w' = w.write a := by
  simp only [update, Option.bind_eq_bind, Option.bind_eq_some_iff] at h
  obtain ⟨o, ho, spec, hspec, h⟩ := h
  split at h
  · rename_i hc
    cases h
    exact ⟨o, spec, ho, ⟨Store.key_of_get ho, hc.1, hc.2.1⟩, hspec, hc.2.2.2.1, rfl, rfl⟩
  · cases h

/-- What a status update needs and does. -/
lemma statusUpdate_eq_some (h : w.statusUpdate b = some (a, w')) :
    ∃ o, w.nms.get b.key = some o ∧ Matches o b ∧ a = w.mergeStatus o b ∧ w' = w.write a := by
  simp only [statusUpdate, Option.bind_eq_bind, Option.bind_eq_some_iff] at h
  obtain ⟨o, ho, h⟩ := h
  split at h
  · rename_i hc
    cases h
    exact ⟨o, ho, ⟨Store.key_of_get ho, hc.1, hc.2⟩, rfl, rfl⟩
  · cases h

/-- What adding a drain request does. -/
lemma addRequest_eq_some {id : Nat} {r : Option Err} (h : w.addRequest id = some (r, w')) :
    ∃ q, w.requests[id]? = some q ∧
      ((w.drainRequests.get? q.uid).isSome = true ∧ r = some .errDrainRequestExists ∧ w' = w ∨
        w.drainRequests.get? q.uid = none ∧ r = none ∧
          w' = { w with
            requests := w.requests.modify id DrainRequest.startDrain
            drainRequests := w.drainRequests.set q.uid id }) := by
  simp only [addRequest, Option.bind_eq_bind, Option.bind_eq_some_iff] at h
  obtain ⟨q, hq, h⟩ := h
  refine ⟨q, hq, ?_⟩
  split at h
  · rename_i hex
    cases h
    exact .inl ⟨hex, rfl, rfl⟩
  · rename_i hex
    cases h
    exact .inr ⟨by simpa using hex, rfl, rfl⟩

@[simp] lemma history_write (w : World) (o : NodeMaintenance) :
    (w.write o).history = w.stamp o :: w.history := rfl

lemma get_write_self (w : World) (o : NodeMaintenance) :
    (w.write o).nms.get o.key = if o.gone then none else some (w.stamp o) := by
  unfold write
  split
  · exact Store.get_erase_self _ _
  · exact Store.get_put_self w.nms (w.stamp o)

lemma get_write_ne {k : NamespacedName} (ne : k ≠ o.key) :
    (w.write o).nms.get k = w.nms.get k := by
  unfold write
  split
  · exact Store.get_erase_ne ne
  · exact Store.get_put_ne (a := w.stamp o) ne

/-- After a write, an object is stored as it was, or it is the new version. -/
lemma get_write {k : NamespacedName} {a : NodeMaintenance}
    (h : (w.write o).nms.get k = some a) :
    k ≠ o.key ∧ w.nms.get k = some a ∨ k = o.key ∧ o.gone = false ∧ a = w.stamp o := by
  by_cases e : k = o.key
  · subst e
    rw [get_write_self] at h
    split at h
    · cases h
    · rename_i hg
      exact .inr ⟨rfl, by simpa using hg, (Option.some.inj h).symm⟩
  · rw [get_write_ne e] at h
    exact .inl ⟨e, h⟩

end World

/-- What a call does to the NodeMaintenances: nothing, or one write by which `b` replaces the
stored `o`. -/
inductive NmsEffect : Op → World → World → Prop where
  | same {e w w'} : w'.nms = w.nms → w'.history = w.history → w'.revision = w.revision →
      NmsEffect e w w'
  | update {w b o spec} : w.nms.get b.key = some o → Matches o b → putSpec b.spec = some spec →
      spec.nodeName = o.spec.nodeName →
      NmsEffect (.update b) w (w.write (w.merge o b spec))
  | statusUpdate {w b o} : w.nms.get b.key = some o → Matches o b →
      NmsEffect (.statusUpdate b) w (w.write (w.mergeStatus o b))

/-- What a call does to the drain manager and its requests. -/
inductive DrainEffect : Op → World → World → Prop where
  | same {e w w'} : w'.requests = w.requests → w'.drainRequests = w.drainRequests →
      DrainEffect e w w'
  | new {w : World} {nm q} : newDrainRequest nm = some q →
      DrainEffect (.newDrainRequest nm) w { w with requests := w.requests ++ [q] }
  | add {w : World} {id : Nat} {q} : w.requests[id]? = some q → w.drainRequests.get? q.uid = none →
      DrainEffect (.addRequest id) w { w with
        requests := w.requests.modify id DrainRequest.startDrain
        drainRequests := w.drainRequests.set q.uid id }
  | remove {w : World} {uid id err} : w.drainRequests.get? uid = some id →
      DrainEffect (.removeRequest uid) w { w with
        requests := w.requests.modify id (·.cancelDrain err)
        drainRequests := w.drainRequests.delete uid }

/-- What a write that the server accepts makes of a stored object. -/
inductive Rewrite (w : World) (o : NodeMaintenance) : Op → NodeMaintenance → Prop where
  | update {b} : Matches o b → b.spec.nodeName = o.spec.nodeName →
      Rewrite w o (.update b) (w.stamp (w.merge o b b.spec.normalize))
  | statusUpdate {b} : Matches o b → Rewrite w o (.statusUpdate b) (w.stamp (w.mergeStatus o b))

section Effects
variable {mode : ReadMode} {e : Op} {w w' : World} {r : Resp e}

/-- A write has its effect, or none. -/
lemma WriteAnswer.effect {α : Type} {f : Option (α × World)} {r : Except Err α}
    (h : WriteAnswer w f r w') : w' = w ∨ ∃ a, f = some (a, w') := by
  rcases h with ⟨e, -, -, rfl⟩ | ⟨a, ha, -⟩
  · exact .inl rfl
  · exact .inr ⟨a, ha⟩

/-- The response of a write that succeeded. -/
lemma WriteAnswer.ok {α : Type} {f : Option (α × World)} {a : α}
    (h : WriteAnswer w f (.ok a) w') : f = some (a, w') := by
  rcases h with ⟨e, -, he, -⟩ | ⟨a', ha, hr⟩
  · cases he
  · rcases hr with hr | ⟨e, -, he⟩
    · cases hr
      exact ha
    · cases he

/-- An error of a write comes from the server. -/
lemma WriteAnswer.fromServer {α : Type} {f : Option (α × World)} {err : Err}
    (h : WriteAnswer w f (.error err) w') : err.fromServer = true := by
  rcases h with ⟨e, he, heq, -⟩ | ⟨_, -, heq | ⟨e, he, heq⟩⟩
  · cases heq
    exact he
  · cases heq
  · cases heq
    exact he

/-- A call changes only its own part of the cluster. -/
theorem Perform.frame (h : Perform mode e w r w') : Frame e.part w w' := by
  cases e with
  | update b =>
    rcases WriteAnswer.effect h with rfl | ⟨a, ha⟩
    · exact .refl _ _
    · obtain ⟨o, spec, -, -, -, -, -, rfl⟩ := World.update_eq_some ha
      constructor <;> intros <;> first | rfl | contradiction
  | statusUpdate b =>
    rcases WriteAnswer.effect h with rfl | ⟨a, ha⟩
    · exact .refl _ _
    · obtain ⟨o, -, -, -, rfl⟩ := World.statusUpdate_eq_some ha
      constructor <;> intros <;> first | rfl | contradiction
  | patchUnschedulable name desired =>
    rcases WriteAnswer.effect h with rfl | ⟨a, ha⟩
    · exact .refl _ _
    · simp only [World.patchUnschedulable, Option.bind_eq_bind, Option.map_eq_some_iff,
        Option.bind_eq_some_iff] at ha
      obtain ⟨w₁, ⟨n, -, hn⟩, hw⟩ := ha
      cases hn
      cases hw
      constructor <;> intros <;> first | rfl | contradiction
  | patchMachineConfigPool name pause =>
    rcases WriteAnswer.effect h with rfl | ⟨a, ha⟩
    · exact .refl _ _
    · simp only [World.patchPool, Option.bind_eq_bind, Option.bind_eq_some_iff] at ha
      obtain ⟨p, -, hp⟩ := ha
      cases hp
      constructor <;> intros <;> first | rfl | contradiction
  | newDrainRequest nm =>
    obtain ⟨q, -, -, rfl⟩ := h
    constructor <;> intros <;> first | rfl | contradiction
  | addRequest req =>
    obtain ⟨q, -, ⟨-, -, rfl⟩ | ⟨-, -, rfl⟩⟩ := World.addRequest_eq_some h
    · exact .refl _ _
    · constructor <;> intros <;> first | rfl | contradiction
  | removeRequest uid =>
    obtain ⟨err, rfl⟩ := h
    unfold World.removeRequest
    split <;> constructor <;> intros <;> first | rfl | contradiction
  | trace note =>
    obtain rfl := h
    constructor <;> intros <;> first | rfl | contradiction
  | listPods _ _ => exact h.1 ▸ .refl _ _
  | getPodsForDeletion _ => exact h.1 ▸ .refl _ _
  | lock => exact h ▸ .refl _ _
  | unlock => exact h ▸ .refl _ _
  | now => exact h ▸ .refl _ _
  | _ => exact h.1 ▸ .refl _ _

/-- What a call does to the NodeMaintenances. -/
theorem Perform.nmsEffect (h : Perform mode e w r w') : NmsEffect e w w' := by
  by_cases hp : e.part = .nodeMaintenances
  · cases e with
    | update b =>
      rcases WriteAnswer.effect h with rfl | ⟨a, ha⟩
      · exact .same rfl rfl rfl
      · obtain ⟨o, spec, ho, hm, hspec, hname, rfl, rfl⟩ := World.update_eq_some ha
        exact .update ho hm hspec hname
    | statusUpdate b =>
      rcases WriteAnswer.effect h with rfl | ⟨a, ha⟩
      · exact .same rfl rfl rfl
      · obtain ⟨o, ho, hm, rfl, rfl⟩ := World.statusUpdate_eq_some ha
        exact .statusUpdate ho hm
    | _ => cases hp
  · exact .same (h.frame.nms hp) (h.frame.history hp) (h.frame.revision hp)

/-- After a call, an object is stored as it was before, or rewritten. -/
lemma Perform.stored {k : NamespacedName} {o' : NodeMaintenance} (h : Perform mode e w r w')
    (ho' : w'.nms.get k = some o') :
    w.nms.get k = some o' ∨ ∃ o, w.nms.get k = some o ∧ Rewrite w o e o' := by
  have heff := h.nmsEffect
  clear h
  cases heff with
  | same hn _ _ => exact .inl (hn ▸ ho')
  | @update _ b o spec ho hm hspec hname =>
    obtain rfl := putSpec_eq hspec
    have hkey : (w.merge o b b.spec.normalize).key = b.key := hm.1
    rcases World.get_write ho' with ⟨-, hk⟩ | ⟨rfl, -, rfl⟩
    · exact .inl hk
    · exact .inr ⟨o, hkey ▸ ho, .update hm hname⟩
  | @statusUpdate _ b o ho hm =>
    have hkey : (w.mergeStatus o b).key = b.key := hm.1
    rcases World.get_write ho' with ⟨-, hk⟩ | ⟨rfl, -, rfl⟩
    · exact .inl hk
    · exact .inr ⟨o, hkey ▸ ho, .statusUpdate hm⟩

/-- A stored object is still stored after a call, or rewritten, which may end its deletion. -/
lemma Perform.kept {k : NamespacedName} {o : NodeMaintenance} (h : Perform mode e w r w')
    (ho : w.nms.get k = some o) :
    w'.nms.get k = some o ∨
      ∃ o', Rewrite w o e o' ∧ w'.nms.get k = if o'.gone then none else some o' := by
  have heff := h.nmsEffect
  clear h
  cases heff with
  | same hn _ _ => exact .inl (hn ▸ ho)
  | @update _ b o₁ spec ho₁ hm hspec hname =>
    obtain rfl := putSpec_eq hspec
    have hkey : (w.merge o₁ b b.spec.normalize).key = b.key := hm.1
    by_cases hk : k = b.key
    · subst hk
      obtain rfl : o₁ = o := Option.some.inj (ho₁.symm.trans ho)
      refine .inr ⟨_, .update hm hname, ?_⟩
      rw [← hkey]
      exact World.get_write_self _ _
    · exact .inl ((World.get_write_ne (hkey ▸ hk)).trans ho)
  | @statusUpdate _ b o₁ ho₁ hm =>
    have hkey : (w.mergeStatus o₁ b).key = b.key := hm.1
    by_cases hk : k = b.key
    · subst hk
      obtain rfl : o₁ = o := Option.some.inj (ho₁.symm.trans ho)
      refine .inr ⟨_, .statusUpdate hm, ?_⟩
      rw [← hkey]
      exact World.get_write_self _ _
    · exact .inl ((World.get_write_ne (hkey ▸ hk)).trans ho)

/-- What a call does to the drain manager. -/
theorem Perform.drainEffect (h : Perform mode e w r w') : DrainEffect e w w' := by
  by_cases hp : e.part = .drain
  · cases e with
    | newDrainRequest nm =>
      obtain ⟨q, hq, -, rfl⟩ := h
      exact .new hq
    | addRequest req =>
      obtain ⟨q, hq, ⟨-, -, rfl⟩ | ⟨hnone, -, rfl⟩⟩ := World.addRequest_eq_some h
      · exact .same rfl rfl
      · exact .add hq hnone
    | removeRequest uid =>
      obtain ⟨err, rfl⟩ := h
      unfold World.removeRequest
      split
      · exact .same rfl rfl
      · rename_i id hid
        exact .remove hid
    | _ => cases hp
  · exact .same (h.frame.requests hp) (h.frame.drainRequests hp)

/-- Versions of the past stay in the history. -/
lemma Perform.history_subset (h : Perform mode e w r w') : ∀ v ∈ w.history, v ∈ w'.history := by
  intro v hv
  cases h.nmsEffect with
  | same _ hh _ => exact hh ▸ hv
  | update _ _ _ _ => exact .tail _ hv
  | statusUpdate _ _ => exact .tail _ hv

/-- Notes stay on record. -/
lemma Perform.notes_subset (h : Perform mode e w r w') : ∀ n ∈ w.notes, n ∈ w'.notes := by
  intro n hn
  by_cases hp : e.part = .notes
  · cases e with
    | trace note =>
      obtain rfl := h
      exact .tail _ hn
    | _ => cases hp
  · exact h.frame.notes hp ▸ hn

end Effects

/-- The stored objects and the history of versions belong together. -/
structure Consistent (w : World) : Prop where
  stored : ∀ {k o}, w.nms.get k = some o → o ∈ w.history
  le_revision : ∀ {v}, v ∈ w.history → v.resourceVersion ≤ w.revision
  unique : ∀ {v v'}, v ∈ w.history → v' ∈ w.history → v.resourceVersion = v'.resourceVersion → v = v'
  identity : ∀ {v v'}, v ∈ w.history → v' ∈ w.history → v.uid = v'.uid →
    v.key = v'.key ∧ v.spec.nodeName = v'.spec.nodeName
  latest : ∀ {k o v}, w.nms.get k = some o → v ∈ w.history → v.uid = o.uid →
    v.resourceVersion ≤ o.resourceVersion

namespace Consistent
variable {w : World} {o o' : NodeMaintenance}

lemma empty : Consistent World.empty :=
  ⟨fun h => (nomatch h), fun h => (nomatch h), fun h => (nomatch h), fun h => (nomatch h),
    fun h => (nomatch h)⟩

lemma of_eq {w' : World} (h : Consistent w) (hn : w'.nms = w.nms) (hh : w'.history = w.history)
    (hr : w'.revision = w.revision) : Consistent w' := by
  constructor
  · rw [hn, hh]; exact h.stored
  · rw [hh, hr]; exact h.le_revision
  · rw [hh]; exact h.unique
  · rw [hh]; exact h.identity
  · rw [hn, hh]; exact h.latest

/-- A write of a new version of a stored object, or of a new object, keeps the cluster consistent. -/
lemma write (h : Consistent w)
    (hid : ∀ v ∈ w.history, v.uid = o'.uid → v.key = o'.key ∧ v.spec.nodeName = o'.spec.nodeName) :
    Consistent (w.write o') := by
  have new : ∀ v ∈ w.history, v.resourceVersion ≠ (w.stamp o').resourceVersion := by
    intro v hv e
    have hle := h.le_revision hv
    have hrev : (w.stamp o').resourceVersion = w.revision + 1 := rfl
    omega
  refine ⟨?_, ?_, ?_, ?_, ?_⟩
  · intro k o hk
    rcases World.get_write hk with ⟨-, hk⟩ | ⟨-, -, rfl⟩
    · exact .tail _ (h.stored hk)
    · exact .head _
  · intro v hv
    rcases List.mem_cons.mp hv with rfl | hv
    · exact Nat.le_refl _
    · exact Nat.le_succ_of_le (h.le_revision hv)
  · intro v v' hv hv' e
    rcases List.mem_cons.mp hv with rfl | hv <;> rcases List.mem_cons.mp hv' with rfl | hv'
    · rfl
    · exact absurd e.symm (new v' hv')
    · exact absurd e (new v hv)
    · exact h.unique hv hv' e
  · intro v v' hv hv' e
    rcases List.mem_cons.mp hv with rfl | hv <;> rcases List.mem_cons.mp hv' with rfl | hv'
    · exact ⟨rfl, rfl⟩
    · exact ⟨(hid v' hv' e.symm).1.symm, (hid v' hv' e.symm).2.symm⟩
    · exact hid v hv e
    · exact h.identity hv hv' e
  · intro k o v hk hv e
    rcases World.get_write hk with ⟨ne, hk⟩ | ⟨-, -, rfl⟩
    · rcases List.mem_cons.mp hv with rfl | hv
      · -- the new version has another key, hence another uid
        refine absurd ?_ ne
        rw [← Store.key_of_get hk]
        exact (hid o (h.stored hk) e.symm).1
      · exact h.latest hk hv e
    · rcases List.mem_cons.mp hv with rfl | hv
      · exact Nat.le_refl _
      · exact Nat.le_succ_of_le (h.le_revision hv)

/-- A new version of a stored object has the identity of all versions before it. -/
lemma identity_of_stored (h : Consistent w) {k : NamespacedName} (hk : w.nms.get k = some o)
    (key : o'.key = o.key) (uid : o'.uid = o.uid)
    (name : o'.spec.nodeName = o.spec.nodeName) :
    ∀ v ∈ w.history, v.uid = o'.uid → v.key = o'.key ∧ v.spec.nodeName = o'.spec.nodeName := by
  intro v hv e
  have hv' := h.identity hv (h.stored hk) (e.trans uid)
  exact ⟨hv'.1.trans key.symm, hv'.2.trans name.symm⟩

/-- The stored object is the version that a body with the same resource version was made from. -/
lemma eq_of_version (h : Consistent w) {k : NamespacedName} {v : NodeMaintenance}
    (hk : w.nms.get k = some o) (hv : v ∈ w.history)
    (e : o.resourceVersion = v.resourceVersion) : o = v :=
  h.unique (h.stored hk) hv e

end Consistent
/-- Calls keep the versions together. -/
lemma Perform.consistent {mode : ReadMode} {e : Op} {w w' : World} {a : Resp e}
    (h : Perform mode e w a w') (hc : Consistent w) : Consistent w' := by
  cases h.nmsEffect with
  | same hn hh hr => exact hc.of_eq hn hh hr
  | update ho _ _ hname => exact hc.write (hc.identity_of_stored ho rfl rfl hname)
  | statusUpdate ho _ => exact hc.write (hc.identity_of_stored ho rfl rfl rfl)

end MaintenanceOperator
