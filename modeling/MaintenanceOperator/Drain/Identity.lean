import MaintenanceOperator.Drain.Request
import Mathlib.Tactic.Common

/-!
# Identity and life of drain requests

Namespaced names are told apart by their text (`toStr_injective`). Request UIDs tell NodeMaintenances
apart as long as the API server's rules for names hold (`drainRequestUID_injective`). Whatever happens to a request, it keeps its UID and spec, and once
finished it stays finished with the same error (`Evolves`).
-/

namespace MaintenanceOperator

/-- What the names of API objects look like, as far as request UIDs depend on it. -/
def NamespacedName.Valid (k : NamespacedName) : Prop :=
  '/' ∉ k.ns.toList ∧ ':' ∉ k.name.toList

instance (k : NamespacedName) : Decidable k.Valid := inferInstanceAs (Decidable (_ ∧ _))

namespace Drain

/-- The request UID of an object, from its name and UID. -/
def drainRequestUID (k : NamespacedName) (uid : String) : String :=
  k.ns ++ "/" ++ k.name ++ ":" ++ uid

lemma drainRequestUIDFromNodeMaintenance_eq (nm : NodeMaintenance) :
    drainRequestUIDFromNodeMaintenance nm = drainRequestUID nm.key nm.uid := rfl

/-- A list is cut in one way only at the first occurrence of an element. -/
lemma cut_injective {α : Type} {c : α} {l₁ l₂ r₁ r₂ : List α} (h₁ : c ∉ l₁) (h₂ : c ∉ l₂)
    (h : l₁ ++ c :: r₁ = l₂ ++ c :: r₂) : l₁ = l₂ ∧ r₁ = r₂ := by
  induction l₁ generalizing l₂ with
  | nil =>
    cases l₂ with
    | nil => exact ⟨rfl, (List.cons.inj h).2⟩
    | cons a l₂ =>
      simp only [List.nil_append, List.cons_append, List.cons.injEq] at h
      exact absurd (h.1 ▸ .head _) h₂
  | cons a l₁ ih =>
    cases l₂ with
    | nil =>
      simp only [List.nil_append, List.cons_append, List.cons.injEq] at h
      exact absurd (h.1 ▸ .head _) h₁
    | cons b l₂ =>
      simp only [List.cons_append, List.cons.injEq] at h
      simp only [List.mem_cons, not_or] at h₁ h₂
      obtain ⟨rfl, rfl⟩ := ih h₁.2 h₂.2 h.2
      exact ⟨by rw [h.1], rfl⟩

/-- The text of a namespaced name determines it. -/
lemma toStr_injective {k k' : NamespacedName} (hk : '/' ∉ k.ns.toList) (hk' : '/' ∉ k'.ns.toList)
    (h : k.toStr = k'.toStr) : k = k' := by
  have h' := congrArg String.toList h
  simp only [NamespacedName.toStr, String.toList_append, List.append_assoc] at h'
  obtain ⟨hns, hname⟩ := cut_injective hk hk' h'
  cases k
  cases k'
  simp only [NamespacedName.mk.injEq]
  exact ⟨String.toList_injective hns, String.toList_injective hname⟩

/-- Different objects have different request UIDs. -/
theorem drainRequestUID_injective {k k' : NamespacedName} {uid uid' : String} (hk : k.Valid)
    (hk' : k'.Valid) (h : drainRequestUID k uid = drainRequestUID k' uid') : k = k' ∧ uid = uid' := by
  have h' := congrArg String.toList h
  simp only [drainRequestUID, String.toList_append, List.append_assoc] at h'
  obtain ⟨hns, h'⟩ := cut_injective hk.1 hk'.1 h'
  obtain ⟨hname, huid⟩ := cut_injective hk.2 hk'.2 h'
  refine ⟨?_, String.toList_injective huid⟩
  cases k
  cases k'
  simp only [NamespacedName.mk.injEq]
  exact ⟨String.toList_injective hns, String.toList_injective hname⟩

/-- What may become of a request. -/
structure Evolves (q q' : DrainRequest) : Prop where
  uid : q'.uid = q.uid
  drainSpec : q'.drainSpec = q.drainSpec
  started : q.started = true → q'.started = true
  finished : q.finished = true → q'.finished = true ∧ q'.lastErr = q.lastErr
  ctxDone : q.ctxDone = true → q'.ctxDone = true

namespace Evolves
variable {q : DrainRequest}

lemma refl (q : DrainRequest) : Evolves q q := ⟨rfl, rfl, id, fun h => ⟨h, rfl⟩, id⟩

/-- The end of a running drain. -/
lemma doDrain (h : q.running = true) (err : Option Err) : Evolves q (q.doDrain err) := by
  have hf : q.finished = false := by simp_all [DrainRequest.running]
  exact ⟨rfl, rfl, id, fun h => by simp [hf] at h, id⟩

lemma cancelDrain (q : DrainRequest) (err : Option Err) : Evolves q (q.cancelDrain err) := by
  unfold DrainRequest.cancelDrain
  split
  · rename_i h
    obtain ⟨hu, hs, hst, hf, -⟩ := Evolves.doDrain h err
    exact ⟨hu, hs, hst, hf, fun _ => rfl⟩
  · exact ⟨rfl, rfl, id, fun h => ⟨h, rfl⟩, fun _ => rfl⟩

end Evolves

end Drain
end MaintenanceOperator
