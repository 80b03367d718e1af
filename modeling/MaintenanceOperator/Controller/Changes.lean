import MaintenanceOperator.Cluster.Events
import MaintenanceOperator.Controller.NodeMaintenance
import MaintenanceOperator.Operator.Phase

/-!
# The environment of the controller

What happens to the cluster around the NodeMaintenance controller, when the scheduler is one of the
others: the events of the environment, and the step by which the scheduler puts an object that is not
under maintenance into phase Scheduled. The initial-state annotation and the pool label of an object
belong to the controller. `Follows` is what all this may do to a stored object.
-/

namespace MaintenanceOperator
open Lib

/-- The annotation and the label that belong to the controller stay as they are. -/
def KeepsMarks (w w' : World) : Prop :=
  ∀ k o', w'.nms.get k = some o' →
    (∃ o, w.nms.get k = some o ∧ initialState o' = initialState o ∧ mcpLabel o' = mcpLabel o) ∨
      w.nms.get k = none ∧ initialState o' = none ∧ mcpLabel o' = ""

/-- Moves of the others. -/
inductive Change (w : World) : World → Prop where
  | event {w'} : Event w w' → KeepsMarks w w' → Change w w'
  | schedule {k o} (b : NodeMaintenance) : w.nms.get k = some o → phase o < 2 →
      getReadyConditionReason b = .scheduled → Change w (w.write (w.mergeStatus o b))

/-- What the others may make of a stored object. -/
structure Follows (o o' : NodeMaintenance) : Prop where
  uid : o'.uid = o.uid
  nodeName : o'.spec.nodeName = o.spec.nodeName
  guarded : Guarded o' ↔ Guarded o
  deleting : o.deleting = true → o'.deleting = true
  initial : initialState o' = initialState o
  label : mcpLabel o' = mcpLabel o
  reason : getReadyConditionReason o' = getReadyConditionReason o ∨
    phase o < 2 ∧ getReadyConditionReason o' = .scheduled

/-- An object that was just created. -/
structure Fresh (w : World) (k : NamespacedName) (o : NodeMaintenance) : Prop where
  free : w.nms.get k = none
  uid : ∀ v ∈ w.history, v.uid ≠ o.uid
  reason : getReadyConditionReason o = .uninitialized
  initial : initialState o = none
  label : mcpLabel o = ""

/-! ### Moves of the others, whatever they do to the marks of objects -/

/-- The events of the environment and the step of the scheduler. -/
inductive Happens (w : World) : World → Prop where
  | event {w'} : Event w w' → Happens w w'
  | schedule {k o} (b : NodeMaintenance) : w.nms.get k = some o → phase o < 2 →
      getReadyConditionReason b = .scheduled → Happens w (w.write (w.mergeStatus o b))

/-- What they may make of a stored object. -/
structure Trails (o o' : NodeMaintenance) : Prop where
  uid : o'.uid = o.uid
  nodeName : o'.spec.nodeName = o.spec.nodeName
  guarded : Guarded o' ↔ Guarded o
  deleting : o.deleting = true → o'.deleting = true
  reason : getReadyConditionReason o' = getReadyConditionReason o ∨
    phase o < 2 ∧ getReadyConditionReason o' = .scheduled

/-- What they may create. -/
structure Created (w : World) (k : NamespacedName) (o : NodeMaintenance) : Prop where
  free : w.nms.get k = none
  uid : ∀ v ∈ w.history, v.uid ≠ o.uid
  reason : getReadyConditionReason o = .uninitialized

lemma Trails.refl (o : NodeMaintenance) : Trails o o := ⟨rfl, rfl, Iff.rfl, id, .inl rfl⟩

/-- The others never bring an object to phase Cordon or further. -/
lemma Trails.phase_cases {o o' : NodeMaintenance} (h : Trails o o') :
    phase o' = phase o ∨ phase o < 2 ∧ phase o' = 2 := by
  rcases h.reason with e | ⟨hlt, e⟩
  · exact .inl (by rw [phase, e, phase])
  · exact .inr ⟨hlt, phase_of_reason e⟩

namespace Happens
variable {w w' : World} {k : NamespacedName} {o o' : NodeMaintenance}

/-- What is left at a name. -/
lemma stored (h : Happens w w') (ho' : w'.nms.get k = some o') :
    (∃ o, w.nms.get k = some o ∧ Trails o o') ∨ Created w k o' := by
  cases h with
  | event he =>
    rcases he.nmsCases with ⟨hn, -, -⟩ | ⟨a, hfree, hfresh, -, hstatus, rfl⟩ |
      ⟨a, b, ha, huid, hname, hready, hfin, hdel, rfl⟩
    · exact .inl ⟨o', hn ▸ ho', .refl o'⟩
    · rcases World.get_write ho' with ⟨-, hk⟩ | ⟨rfl, -, rfl⟩
      · exact .inl ⟨o', hk, .refl o'⟩
      · refine .inr ⟨hfree, hfresh, ?_⟩
        simp [getReadyConditionReason, World.stamp, hstatus, findStatusCondition]
    · rcases World.get_write ho' with ⟨-, hk⟩ | ⟨rfl, -, rfl⟩
      · exact .inl ⟨o', hk, .refl o'⟩
      · exact .inl ⟨a, ha, huid, hname, hfin, hdel, .inl (reason_congr hready)⟩
  | @schedule k₁ a b ha hlt hb =>
    obtain rfl := Store.key_of_get ha
    rcases World.get_write ho' with ⟨-, hk⟩ | ⟨rfl, -, rfl⟩
    · exact .inl ⟨o', hk, .refl o'⟩
    · exact .inl ⟨a, ha, rfl, rfl, Iff.rfl, id, .inr ⟨hlt, hb⟩⟩

/-- An object with the finalizer outlives them. -/
lemma persists (h : Happens w w') (ho : w.nms.get k = some o) (hg : Guarded o) :
    ∃ o', w'.nms.get k = some o' ∧ Trails o o' := by
  suffices hsome : ∃ o', w'.nms.get k = some o' by
    obtain ⟨o', ho'⟩ := hsome
    rcases h.stored ho' with ⟨o₁, ho₁, htr⟩ | hnew
    · obtain rfl : o₁ = o := Option.some.inj (ho₁.symm.trans ho)
      exact ⟨o', ho', htr⟩
    · rw [hnew.free] at ho
      cases ho
  -- a write leaves other names alone, and the finalizer keeps the object from disappearing
  have hwrite : ∀ b : NodeMaintenance, (k = b.key → Guarded b) → ∃ o', (w.write b).nms.get k = some o' := by
    intro b hb
    by_cases e : k = b.key
    · have hgone := (hb e).not_gone
      exact ⟨w.stamp b, by rw [e, World.get_write_self, hgone]; rfl⟩
    · exact ⟨o, by rwa [World.get_write_ne e]⟩
  cases h with
  | event he =>
    rcases he.nmsCases with ⟨hn, -, -⟩ | ⟨a, hfree, -, -, -, rfl⟩ | ⟨a, b, ha, -, -, -, hfin, -, rfl⟩
    · exact ⟨o, hn ▸ ho⟩
    · refine hwrite a fun e => ?_
      rw [e, hfree] at ho
      cases ho
    · refine hwrite b fun e => ?_
      obtain rfl : a = o := Option.some.inj (ha.symm.trans (e ▸ ho))
      exact hfin.mpr hg
  | @schedule k₁ a b ha _ _ =>
    refine hwrite _ fun e => ?_
    obtain rfl : k₁ = k := (Store.key_of_get ha).symm.trans e.symm
    obtain rfl : a = o := Option.some.inj (ha.symm.trans ho)
    exact hg

lemma history_subset (h : Happens w w') : ∀ v ∈ w.history, v ∈ w'.history := by
  cases h with
  | event he => exact he.history_subset
  | schedule b _ _ _ => exact fun v hv => .tail _ hv

lemma notes (h : Happens w w') : w'.notes = w.notes := by
  cases h with
  | event he => exact he.notes
  | schedule b _ _ _ => rfl

lemma consistent (h : Happens w w') (hc : Consistent w) : Consistent w' := by
  cases h with
  | event he => exact he.consistent hc
  | @schedule k a b ha _ _ => exact hc.write (hc.identity_of_stored ha rfl rfl rfl)

end Happens

/-! ### Moves of the others that leave the marks alone -/

lemma Follows.trails {o o' : NodeMaintenance} (h : Follows o o') : Trails o o' :=
  ⟨h.uid, h.nodeName, h.guarded, h.deleting, h.reason⟩

lemma Follows.phase_cases {o o' : NodeMaintenance} (h : Follows o o') :
    phase o' = phase o ∨ phase o < 2 ∧ phase o' = 2 :=
  h.trails.phase_cases

namespace Change
variable {w w' : World} {k : NamespacedName} {o o' : NodeMaintenance}

lemma happens (h : Change w w') : Happens w w' := by
  cases h with
  | event he _ => exact .event he
  | schedule b ho hlt hb => exact .schedule b ho hlt hb

/-- The scheduler writes no marks. -/
lemma marks (h : Change w w') : KeepsMarks w w' := by
  cases h with
  | event _ hmarks => exact hmarks
  | @schedule k₁ a b ha _ _ =>
    intro k o' ho'
    obtain rfl := Store.key_of_get ha
    rcases World.get_write ho' with ⟨-, hk⟩ | ⟨rfl, -, rfl⟩
    · exact .inl ⟨o', hk, rfl, rfl⟩
    · exact .inl ⟨a, ha, rfl, rfl⟩

/-- What a change leaves at a name. -/
lemma stored (h : Change w w') (ho' : w'.nms.get k = some o') :
    (∃ o, w.nms.get k = some o ∧ Follows o o') ∨ Fresh w k o' := by
  rcases h.happens.stored ho' with ⟨o, ho, htr⟩ | hnew
  · rcases h.marks k o' ho' with ⟨o₁, ho₁, hinit, hlabel⟩ | ⟨hnone, -⟩
    · obtain rfl : o₁ = o := Option.some.inj (ho₁.symm.trans ho)
      exact .inl ⟨o₁, ho, htr.uid, htr.nodeName, htr.guarded, htr.deleting, hinit, hlabel, htr.reason⟩
    · rw [hnone] at ho
      cases ho
  · rcases h.marks k o' ho' with ⟨o, ho, -⟩ | ⟨-, hinit, hlabel⟩
    · rw [hnew.free] at ho
      cases ho
    · exact .inr ⟨hnew.free, hnew.uid, hnew.reason, hinit, hlabel⟩

/-- An object with the finalizer outlives a change. -/
lemma persists (h : Change w w') (ho : w.nms.get k = some o) (hg : Guarded o) :
    ∃ o', w'.nms.get k = some o' ∧ Follows o o' := by
  obtain ⟨o', ho', -⟩ := h.happens.persists ho hg
  rcases h.stored ho' with ⟨o₁, ho₁, hfol⟩ | hfresh
  · obtain rfl : o₁ = o := Option.some.inj (ho₁.symm.trans ho)
    exact ⟨o', ho', hfol⟩
  · rw [hfresh.free] at ho
    cases ho

lemma history_subset (h : Change w w') : ∀ v ∈ w.history, v ∈ w'.history := h.happens.history_subset

lemma consistent (h : Change w w') (hc : Consistent w) : Consistent w' := h.happens.consistent hc

end Change

/-! ### What is looked at -/

/-- The unschedulable flag of a node. -/
def unschedulable (w : World) (n : String) : Option Bool := (w.nodes.get n).map Node.unschedulable

/-- The flag after a call that writes no node. -/
lemma unschedulable_eq {mode : ReadMode} {e : Op} {w w' : World} {a : Resp e}
    (h : Perform mode e w a w') (he : e.part ≠ .nodes) (n : String) :
    unschedulable w' n = unschedulable w n := by
  rw [unschedulable, h.frame.nodes he, unschedulable]

/-- An update of an object leaves the flags of the nodes alone. -/
lemma unschedulable_update {mode : ReadMode} {b : NodeMaintenance} {w w' : World} {a : Resp (.update b)}
    (h : Perform mode (.update b) w a w') (n : String) : unschedulable w' n = unschedulable w n :=
  unschedulable_eq h (by simp [Op.part]) n

/-- What the patch of a node needs and does. -/
lemma World.patchUnschedulable_eq_some {w w' : World} {name : String} {desired : Bool} {u : Unit}
    (h : (w.patchUnschedulable name desired).map (fun w₁ => ((), w₁)) = some (u, w')) :
    ∃ nd, w.nodes.get name = some nd ∧
      w' = { w with nodes := w.nodes.put { nd with unschedulable := desired } } := by
  simp only [World.patchUnschedulable, Option.bind_eq_bind, Option.map_eq_some_iff,
    Option.bind_eq_some_iff] at h
  obtain ⟨w₁, ⟨nd, hnd, hput⟩, hw⟩ := h
  cases hput
  cases hw
  exact ⟨nd, hnd, rfl⟩

/-- A patch that is accepted sets the flag of one node. -/
lemma unschedulable_patch {w w' : World} {name : String} {desired : Bool} {u : Unit}
    (h : (w.patchUnschedulable name desired).map (fun w₁ => ((), w₁)) = some (u, w')) :
    w'.nms = w.nms ∧ w'.history = w.history ∧ unschedulable w' name = some desired ∧
      ∀ n, n ≠ name → unschedulable w' n = unschedulable w n := by
  obtain ⟨nd, hnd, rfl⟩ := World.patchUnschedulable_eq_some h
  obtain rfl := Store.key_of_get hnd
  refine ⟨rfl, rfl, ?_, fun n ne => ?_⟩
  · have hget := Store.get_put_self w.nodes { nd with unschedulable := desired }
    exact congrArg (Option.map Node.unschedulable) hget
  · have hget := Store.get_put_ne (s := w.nodes) (a := { nd with unschedulable := desired }) ne
    exact congrArg (Option.map Node.unschedulable) hget

/-- The object that a call reads. -/
def readObject : (e : Op) → Resp e → Option NodeMaintenance
  | .getNodeMaintenance _, .ok o => some o
  | _, _ => none

/-! ### Moves as data -/

/-- Some of the moves of the others. -/
inductive Turn where
  | schedule (key : NamespacedName)
  | delete (key : NamespacedName)
  | edit (key : NamespacedName) (spec : NodeMaintenanceSpec)

/-- The version that a turn makes of an object, if it can happen. -/
def Turn.apply (o : NodeMaintenance) : Turn → Option NodeMaintenance
  | .schedule _ =>
    if phase o < 2 then
      some { o with status := (withReadyReason o .scheduled "" 0).status }
    else none
  | .delete _ => if o.deleting then none else some { o with deletionTimestamp := some 1 }
  | .edit _ spec =>
    if spec.nodeName = o.spec.nodeName ∧ spec.requestorID = o.spec.requestorID then
      some { o with spec }
    else none

/-- The name of the object that is changed. -/
def Turn.key : Turn → NamespacedName
  | .schedule key | .delete key | .edit key _ => key

/-- What a turn does to the cluster. -/
def World.turn (w : World) (t : Turn) : Option World := do
  let o ← w.nms.get t.key
  let o' ← t.apply o
  return w.write o'

/-- A turn is a move of the others that writes one stored object. -/
lemma World.change_of_turn {w w' : World} {t : Turn} (h : w.turn t = some w') :
    Change w w' ∧ ∃ o o', w' = w.write o' ∧ o'.key = t.key ∧ w.nms.get t.key = some o := by
  simp only [turn, Option.bind_eq_bind, Option.bind_eq_some_iff] at h
  obtain ⟨o, ho, o', ho', hw⟩ := h
  cases hw
  have hmarks : ∀ b : NodeMaintenance, b.key = t.key → initialState b = initialState o →
      mcpLabel b = mcpLabel o → KeepsMarks w (w.write b) := by
    intro b hb hinit hlabel k a ha
    rcases World.get_write ha with ⟨-, hk⟩ | ⟨rfl, -, rfl⟩
    · exact .inl ⟨a, hk, rfl, rfl⟩
    · exact .inl ⟨o, hb ▸ ho, hinit, hlabel⟩
  have hkey := Store.key_of_get ho
  cases t with
  | schedule key =>
    simp only [Turn.apply] at ho'
    split at ho'
    · rename_i hlt
      cases ho'
      have hst : Change w (w.write (w.mergeStatus o (withReadyReason o .scheduled "" 0))) :=
        .schedule _ ho hlt (by simp)
      exact ⟨hst, o, _, rfl, hkey, ho⟩
    · cases ho'
  | delete key =>
    simp only [Turn.apply] at ho'
    split at ho'
    · cases ho'
    · rename_i hdel
      cases ho'
      exact ⟨.event (.delete 1 ho (by simpa using hdel)) (hmarks _ hkey rfl rfl), o, _, rfl, hkey, ho⟩
  | edit key spec =>
    simp only [Turn.apply] at ho'
    split at ho'
    · rename_i hc
      cases ho'
      have hedit : UserEdit o { o with spec } :=
        ⟨rfl, rfl, rfl, rfl, hc.1, hc.2, Iff.rfl, fun _ _ hf => hf⟩
      exact ⟨.event (.edit ho hedit) (hmarks _ hkey rfl rfl), o, _, rfl, hkey, ho⟩
    · cases ho'

end MaintenanceOperator
