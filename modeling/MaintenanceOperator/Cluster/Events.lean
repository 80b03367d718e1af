import MaintenanceOperator.Cluster.Consistent
import MaintenanceOperator.Drain.Identity
import MaintenanceOperator.K8sUtils

/-!
# The environment

What the other parties may do to the cluster between two calls of the operator: requestors create,
edit and delete NodeMaintenances and report failures, nodes and pools come, go and change, drains end,
and the context of the operator is canceled. The parties keep to the rules the operator relies on:
the node and the requestor of an object are immutable, the Ready condition and the maintenance
finalizer belong to the operator, and no finalizer is added to an object that is being deleted.
-/

namespace MaintenanceOperator
open Lib Drain

/-- The object carries the maintenance finalizer. -/
def Guarded (o : NodeMaintenance) : Prop := maintenanceFinalizerName ∈ o.finalizers

instance (o : NodeMaintenance) : Decidable (Guarded o) := inferInstanceAs (Decidable (_ ∈ _))

/-- The object carries the finalizer, so its deletion is not complete. -/
lemma Guarded.not_gone {o : NodeMaintenance} (h : Guarded o) : o.gone = false := by
  have hne : o.finalizers ≠ [] := List.ne_nil_of_mem h
  simp [NodeMaintenance.gone, hne]

/-- An edit of a NodeMaintenance by its users. -/
structure UserEdit (o o' : NodeMaintenance) : Prop where
  key : o'.key = o.key
  uid : o'.uid = o.uid
  deletionTimestamp : o'.deletionTimestamp = o.deletionTimestamp
  status : o'.status = o.status
  nodeName : o'.spec.nodeName = o.spec.nodeName
  requestorID : o'.spec.requestorID = o.spec.requestorID
  finalizer : Guarded o' ↔ Guarded o
  deleting : o.deleting = true → ∀ f ∈ o'.finalizers, f ∈ o.finalizers

/-- A drain goroutine ends, if it is running. -/
def finishDrain (err : Option Err) (q : DrainRequest) : DrainRequest :=
  if q.running then q.doDrain err else q

/-- Events of the environment. -/
inductive Event : World → World → Prop where
  | create {w o} : w.nms.get o.key = none → (∀ v ∈ w.history, v.uid ≠ o.uid) → o.key.Valid →
      o.deletionTimestamp = none → o.status = ⟨[], [], none⟩ → Event w (w.write o)
  | delete {w k o} (t : Nat) : w.nms.get k = some o → o.deleting = false →
      Event w (w.write { o with deletionTimestamp := some t })
  | edit {w k o o'} : w.nms.get k = some o → UserEdit o o' → Event w (w.write o')
  | report {w k o} (conditions : List Condition) : w.nms.get k = some o →
      findStatusCondition conditions conditionTypeReady =
        findStatusCondition o.status.conditions conditionTypeReady →
      Event w (w.write { o with status := { o.status with conditions } })
  | nodes {w} (nodes : Store Node Node.name) : Event w { w with nodes }
  | pools {w} (pools : Store MachineConfigPool MachineConfigPool.name)
      (machineConfigs : Store MachineConfig MachineConfig.name) :
      Event w { w with pools, machineConfigs }
  | drainFinished {w} (id : Nat) (err : Option Err) :
      Event w { w with requests := w.requests.modify id (finishDrain err) }
  | shutdown {w} :
      Event w { w with requests := w.requests.map fun q => { q with ctxDone := true } }

lemma Drain.Evolves.finishDrain (err : Option Err) (q : DrainRequest) :
    Evolves q (MaintenanceOperator.finishDrain err q) := by
  unfold MaintenanceOperator.finishDrain
  split
  · rename_i h
    exact .doDrain h err
  · exact .refl q

/-- What an event of the environment does to the drain requests: some move on in their life. -/
lemma Event.heap {w w' : World} (he : Event w w') {id : Nat} {q : DrainRequest}
    (hq : w.requests[id]? = some q) :
    ∃ q', w'.requests[id]? = some q' ∧ Evolves q q' ∧ q'.canceled = q.canceled := by
  cases he with
  | drainFinished id₁ err =>
    by_cases e : id₁ = id
    · refine ⟨finishDrain err q, by simp [e, hq], .finishDrain err q, ?_⟩
      unfold finishDrain
      split <;> rfl
    · exact ⟨q, by simp [e, hq], .refl q, rfl⟩
  | shutdown =>
    exact ⟨{ q with ctxDone := true }, by simp [hq],
      ⟨rfl, rfl, fun h => h, fun h => ⟨h, rfl⟩, fun _ => rfl⟩, rfl⟩
  | _ => exact ⟨q, hq, .refl q, rfl⟩

lemma Event.drainRequests {w w' : World} (he : Event w w') : w'.drainRequests = w.drainRequests := by
  cases he <;> rfl

lemma Event.notes {w w' : World} (he : Event w w') : w'.notes = w.notes := by
  cases he <;> rfl

lemma Event.history_subset {w w' : World} (he : Event w w') : ∀ v ∈ w.history, v ∈ w'.history := by
  intro v hv
  cases he with
  | create _ _ _ _ _ => exact .tail _ hv
  | delete _ _ _ => exact .tail _ hv
  | edit _ _ => exact .tail _ hv
  | report _ _ _ => exact .tail _ hv
  | _ => exact hv

/-- What an event does to the NodeMaintenances: nothing, a creation, or a new version that may
replace the stored one and leaves phase and finalizer alone. -/
lemma Event.nmsCases {w w' : World} (he : Event w w') :
    (w'.nms = w.nms ∧ w'.history = w.history ∧ w'.revision = w.revision) ∨
    (∃ o, w.nms.get o.key = none ∧ (∀ v ∈ w.history, v.uid ≠ o.uid) ∧ o.key.Valid ∧
      o.status = ⟨[], [], none⟩ ∧ w' = w.write o) ∨
    ∃ o o', w.nms.get o'.key = some o ∧ o'.uid = o.uid ∧ o'.spec.nodeName = o.spec.nodeName ∧
      findStatusCondition o'.status.conditions conditionTypeReady =
        findStatusCondition o.status.conditions conditionTypeReady ∧
      (Guarded o' ↔ Guarded o) ∧ (o.deleting = true → o'.deleting = true) ∧ w' = w.write o' := by
  cases he with
  | @create o hfree hfresh hvalid _ hstatus =>
    exact .inr (.inl ⟨o, hfree, hfresh, hvalid, hstatus, rfl⟩)
  | @delete k o t ho _ =>
    obtain rfl := Store.key_of_get ho
    exact .inr (.inr ⟨o, { o with deletionTimestamp := some t }, ho, rfl, rfl, rfl, Iff.rfl,
      fun _ => rfl, rfl⟩)
  | @edit k o o' ho hedit =>
    obtain rfl := Store.key_of_get ho
    refine .inr (.inr ⟨o, o', hedit.key ▸ ho, hedit.uid, hedit.nodeName, by rw [hedit.status],
      hedit.finalizer, ?_, rfl⟩)
    rw [NodeMaintenance.deleting, NodeMaintenance.deleting, hedit.deletionTimestamp]
    exact id
  | @report k o conditions ho hready =>
    obtain rfl := Store.key_of_get ho
    exact .inr (.inr ⟨o, { o with status := { o.status with conditions } }, ho, rfl, rfl, hready,
      Iff.rfl, id, rfl⟩)
  | _ => exact .inl ⟨rfl, rfl, rfl⟩

/-- Events keep the stored objects and the history together. -/
lemma Event.consistent {w w' : World} (he : Event w w') (h : Consistent w) : Consistent w' := by
  rcases he.nmsCases with ⟨hn, hh, hr⟩ | ⟨o, -, hfresh, -, -, rfl⟩ |
    ⟨o, o', ho, huid, hname, -, -, -, rfl⟩
  · exact h.of_eq hn hh hr
  · exact h.write fun v hv e => absurd e (hfresh v hv)
  · exact h.write (h.identity_of_stored ho (Store.key_of_get ho).symm huid hname)

end MaintenanceOperator
