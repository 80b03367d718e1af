import MaintenanceOperator.Lib.Lives
import MaintenanceOperator.Operator.Safety

/-!
# Restarts of the operator

The process of the operator may end at any moment, between any two calls of its workers. What was in
memory is lost: the workers, and the drain manager with its requests. A new process starts with the
cluster as it is, and with a cache that is no older than what the last one has seen of its own writes.
The promises of the operator do not depend on its memory: they hold over any number of such lives, for
every object that was created after the first start.
-/

namespace MaintenanceOperator
open Lib Drain Discipline

/-- What is left when the process ends: the drain manager of the next one is empty. -/
def OperatorState.restarted (s : OperatorState) : OperatorState :=
  { s with world := { s.world with requests := [], drainRequests := [] } }

/-- A build of the operator, with or without the pool manager of OpenShift. -/
abbrev Build := Reconciler × Sorter Scheduler.compareRanked

/-- States in which a process may start, some lives after `s₀`. -/
def Restarted (s₀ s : OperatorState) : Prop :=
  Lives (fun b : Build => operator b.1 b.2) OperatorState.restarted s₀ s

section Restarts
variable {σ : Scope} {r : Reconciler} {sorter : Sorter Scheduler.compareRanked} {s₀ s : OperatorState}
  {c : Config Worker Op Resp OperatorState (Except Err Result)} {k : NamespacedName} {u : String}
  {o : NodeMaintenance}

/-- The invariant is about what is stored, and about what an empty drain manager has. -/
lemma Inv.restarted (h : Inv σ s) : Inv σ s.restarted where
  consistent := h.consistent.of_eq rfl rfl rfl
  names := h.names
  monotone := h.monotone
  ready := h.ready
  guarded := h.guarded
  entries he := by cases he
  requests he := by cases he
  exclusive := h.exclusive
  written := h.written

/-- The invariant of the operator at its start, with the maintenances that it has put under way itself. -/
lemma Started.exclusive_inv (h : Started s) (hone : OnePerNode s.world) (hours : ScheduledByUs s) :
    Inv ⟨Old s, True⟩ s := by
  refine h.inv (fun _ => ?_) fun _ => ?_
  · intro k o k' o' ho ho' h₂ h₂'
    exact hone k o k' o' ho ho' ((isUnderMaintenance_iff o).mpr h₂) ((isUnderMaintenance_iff o').mpr h₂')
  · intro k o ho h₂
    obtain ⟨v, hv, hh, hu, hv₂⟩ := hours k o ho ((isUnderMaintenance_iff o).mpr h₂)
    exact ⟨v, hv, hh, hu, (isUnderMaintenance_iff v).mp hv₂⟩

lemma Inv.onePerNode (h : Inv σ s) (hex : σ.exclusive) : OnePerNode s.world := by
  intro k o k' o' ho ho' h₂ h₂'
  exact h.exclusive hex ho ho' ((isUnderMaintenance_iff o).mp h₂) ((isUnderMaintenance_iff o').mp h₂')

lemma Inv.finalizerGuards (h : Inv σ s) (ho : s.world.nms.get k = some o) (hnew : ¬ σ.exempt o.uid)
    (hnode : NodeNeverMissed s.world k o.uid) : FinalizerGuards s.world o := by
  intro hreason hdel _
  have h₃ : 3 ≤ phase o := by
    simp only [List.mem_cons, List.not_mem_nil, or_false] at hreason
    rcases hreason with e | e | e | e | e <;> rw [phase_of_reason e] <;> decide
  rcases h.guarded ho hnew h₃ hdel with hg | ⟨n, hn, hk, hu, hn₃, -⟩
  · exact hg
  · have := hnode n hn (hk.trans (Store.key_of_get ho)) hu
    omega

lemma Inv.noLeakedDrain (h : Inv σ s) (hk : k.Valid) (hnew : ¬ σ.exempt u)
    (hnode : NodeNotMissedInDrain s.world k u) : NoLeakedDrain s.world k u := by
  intro hgone
  cases he : s.world.drainRequests.get? (drainRequestUID k u) with
  | none => rfl
  | some id =>
    exfalso
    rcases h.entries he with ⟨k', o, ho, huid, hd, hg⟩ | ⟨n, hn, hval, huid, hphase⟩ | ⟨k', u', hval, hx, huid⟩
    · -- the entry is of this very object, which is stored in phase Draining
      obtain ⟨rfl, rfl⟩ := drainRequestUID_injective hk (h.names (h.consistent.stored ho)) huid
      obtain rfl := Store.key_of_get ho
      exact hgone o ho rfl hd hg
    · obtain ⟨rfl, rfl⟩ := drainRequestUID_injective hk hval huid
      exact hnode n hn rfl rfl hphase
    · obtain ⟨-, rfl⟩ := drainRequestUID_injective hk hval huid
      exact hnew hx

/-- The invariant of the first life is that of all lives. -/
lemma Restarted.inv (h : Inv σ s₀) (lives : Restarted s₀ s) : Inv σ s :=
  Lives.inv (D := fun b : Build => discipline σ b.1 b.2) (fun _ _ => Iff.rfl) (fun _ => body_triple σ)
    (fun _ hinv => hinv.restarted) h lives

lemma onePerNode_empty : OnePerNode emptyState.world := by
  intro k o k' o' ho
  cases ho

lemma scheduledByUs_empty : ScheduledByUs emptyState := by
  intro k o ho
  cases ho

end Restarts
end MaintenanceOperator
