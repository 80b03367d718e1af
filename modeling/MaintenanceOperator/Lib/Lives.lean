import MaintenanceOperator.Lib.System

/-!
# Systems that crash

The threads of a system may be gone at any moment, and part of the state with them. A history is then a
number of lives, each of them a run that starts without threads, in the state that the crash before has
left behind (`Lives`). What is invariant in every life, and survives the crash, is invariant over all of
them (`Lives.inv`).
-/

namespace MaintenanceOperator.Lib

variable {ι κ E S α : Type} {R : E → Type} [DecidableEq ι] {Y : κ → System ι E R S α} {crash : S → S}

/-- The states in which a life can begin: the first one, and what is left of any state of a life. -/
inductive Lives (Y : κ → System ι E R S α) (crash : S → S) (s₀ : S) : S → Prop where
  | first : Lives Y crash s₀ s₀
  | next {s c} (j : κ) : Lives Y crash s₀ s → (Y j).Run ⟨s, fun _ => none⟩ c → Lives Y crash s₀ (crash c.state)

variable {D : ∀ j, Discipline (Y j)} {I : S → Prop} {s₀ s : S}

/-- An invariant of every life that survives the crashes. -/
theorem Lives.inv (hI : ∀ j s, I s ↔ (D j).inv s)
    (hbody : ∀ j i p, (Y j).body i p → (D j).Triple i (fun _ => True) p fun _ _ => True)
    (hcrash : ∀ s, I s → I (crash s)) (h : I s₀) (lives : Lives Y crash s₀ s) : I s := by
  induction lives with
  | first => exact h
  | @next s c j _ run ih =>
    refine hcrash _ ((hI j _).mpr ?_)
    have hok : (D j).Ok ⟨s, fun _ => none⟩ := ⟨(hI j s).mp ih, fun _ _ hp => by cases hp⟩
    exact (Discipline.sound (hbody j) hok run).1

end MaintenanceOperator.Lib
