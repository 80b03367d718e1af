import Mathlib.Data.Set.Basic
import MaintenanceOperator.Lib.System

/-!
# What a program has learnt

A program learns facts from the answers to its calls, and a call may need facts that were learnt before.
`Knowledge` says which facts an answer gives and what a call needs; `Knowledge.Informed` that a program
always knows enough for the calls it issues, whatever the answers are. This is a property of the text of
the program alone. In a system in which facts stay true once they hold (`Evidence`), such a program holds
the permissions that its facts give (`Evidence.triple`).
-/

namespace MaintenanceOperator.Lib
open Discipline

variable {E Φ α β ε : Type} {R : E → Type}

/-- The facts that answers give, with those known before, and those that calls need. -/
structure Knowledge (E : Type) (R : E → Type) (Φ : Type) where
  learn : Set Φ → (e : E) → R e → Set Φ
  need : Set Φ → E → Prop

namespace Knowledge

/-- With the facts `K`, the program knows enough for its calls, and returns as `Q` says. -/
def Informed (W : Knowledge E R Φ) : Prog E R α → (α → Set Φ → Prop) → Set Φ → Prop
  | .ret a, Q, K => Q a K
  | .call e k, Q, K => W.need K e ∧ ∀ r, W.Informed (k r) Q (K ∪ W.learn K e r)

variable {W : Knowledge E R Φ} {K : Set Φ}

section Rules
variable {p : Prog E R α} {Q Q' : α → Set Φ → Prop}

/-- Consequence; nothing is forgotten on the way. -/
lemma Informed.conseq (h : W.Informed p Q K) (hQ : ∀ a K', K ⊆ K' → Q a K' → Q' a K') :
    W.Informed p Q' K := by
  induction p generalizing K with
  | ret a => exact hQ a K subset_rfl h
  | call e k ih =>
    refine ⟨h.1, fun r => ih r (h.2 r) fun a K' hK => hQ a K' ?_⟩
    exact Set.subset_union_left.trans hK

/-- Sequencing. -/
lemma Informed.bind {f : α → Prog E R β} {Q' : β → Set Φ → Prop} (h : W.Informed p Q K)
    (hf : ∀ a K', K ⊆ K' → Q a K' → W.Informed (f a) Q' K') : W.Informed (p >>= f) Q' K := by
  induction p generalizing K with
  | ret a => exact hf a K subset_rfl h
  | call e k ih =>
    refine ⟨h.1, fun r => ih r (h.2 r) fun a K' hK => hf a K' ?_⟩
    exact Set.subset_union_left.trans hK

/-- One call. -/
lemma Informed.lift {e : E} {Q : R e → Set Φ → Prop} (hneed : W.need K e)
    (h : ∀ r, Q r (K ∪ W.learn K e r)) : W.Informed (Prog.lift e) Q K :=
  ⟨hneed, h⟩

/-- A program whose calls need nothing. -/
lemma Informed.of_all (h : p.All fun e => ∀ K, W.need K e) : W.Informed p (fun _ _ => True) K := by
  induction p generalizing K with
  | ret a => trivial
  | call e k ih => exact ⟨h.1 K, fun r => ih r (h.2 r)⟩

end Rules

section Fallible

/-- The same for a program that may end with an error. -/
def InformedE (W : Knowledge E R Φ) (x : ExceptT ε (Prog E R) α) (Q : α → Set Φ → Prop) (K : Set Φ) : Prop :=
  W.Informed x.run (fun res K' => ∀ a, res = .ok a → Q a K') K

variable {x : ExceptT ε (Prog E R) α} {Q Q' : α → Set Φ → Prop}

lemma InformedE.pure {a : α} (h : Q a K) : W.InformedE (pure a : ExceptT ε (Prog E R) α) Q K := by
  rintro _ ⟨⟩
  exact h

lemma InformedE.throw {e : ε} : W.InformedE (throw e : ExceptT ε (Prog E R) α) Q K :=
  fun _ h => nomatch h

lemma InformedE.conseq (h : W.InformedE x Q K) (hQ : ∀ a K', K ⊆ K' → Q a K' → Q' a K') :
    W.InformedE x Q' K :=
  Informed.conseq h fun _ K' hK hQ' a ha => hQ a K' hK (hQ' a ha)

lemma InformedE.bind {f : α → ExceptT ε (Prog E R) β} {Q' : β → Set Φ → Prop} (hx : W.InformedE x Q K)
    (hf : ∀ a K', K ⊆ K' → Q a K' → W.InformedE (f a) Q' K') : W.InformedE (x >>= f) Q' K := by
  refine Informed.bind hx fun res K' hK hQ => ?_
  cases res with
  | ok a => exact hf a K' hK (hQ a rfl)
  | error e => exact fun _ h => nomatch h

lemma InformedE.lift {p : Prog E R α} (h : W.Informed p Q K) :
    W.InformedE (ExceptT.lift p : ExceptT ε (Prog E R) α) Q K := by
  refine Informed.bind h fun a K' _ hQ => ?_
  rintro _ ⟨⟩
  exact hQ

lemma InformedE.adapt {ε' : Type} {f : ε → ε'} (h : W.InformedE x Q K) :
    W.InformedE (ExceptT.adapt f x) Q K := by
  refine Informed.bind h fun res K' _ hQ => ?_
  rintro a ha
  cases res with
  | ok a' =>
    cases ha
    exact hQ _ rfl
  | error e => cases ha

lemma InformedE.ite {c : Prop} [Decidable c] {y : ExceptT ε (Prog E R) α} (hx : c → W.InformedE x Q K)
    (hy : ¬ c → W.InformedE y Q K) : W.InformedE (if c then x else y) Q K := by
  split
  · rename_i h
    exact hx h
  · rename_i h
    exact hy h

lemma InformedE.of_all (h : AllE (fun e => ∀ K, W.need K e) x) : W.InformedE x (fun _ _ => True) K :=
  Informed.conseq (Informed.of_all h) fun _ _ _ _ _ _ => trivial

end Fallible
end Knowledge

/-- What the facts mean for a thread of a system: they stay true once they hold, answers are right about
them, and they give the permissions of the calls that need them. -/
structure Evidence {ι S γ : Type} {Y : System ι E R S γ} (D : Discipline Y) (i : ι) (W : Knowledge E R Φ) where
  holds : Φ → S → Prop
  stable : ∀ φ, D.Stable i (holds φ)
  kept : ∀ {φ e s r s'}, D.inv s → Y.exec i e s r s' → holds φ s → holds φ s'
  learnt : ∀ {K e s r s'}, D.inv s → D.inv s' → Y.exec i e s r s' → (∀ φ ∈ K, holds φ s) →
    ∀ φ ∈ W.learn K e r, holds φ s'
  perm : ∀ {K e s}, D.inv s → (∀ φ ∈ K, holds φ s) → W.need K e → D.perm i s e

namespace Evidence
variable {ι S γ : Type} {Y : System ι E R S γ} {D : Discipline Y} {i : ι} {W : Knowledge E R Φ}
  {K : Set Φ} {p : Prog E R α} {Q : α → Set Φ → Prop}

/-- A program that knows enough for its calls may issue them. -/
theorem triple (V : Evidence D i W) (h : W.Informed p Q K) :
    D.Triple i (fun s => ∀ φ ∈ K, V.holds φ s) p fun a s => ∃ K', Q a K' ∧ ∀ φ ∈ K', V.holds φ s := by
  have hstable : ∀ K : Set Φ, D.Stable i fun s => ∀ φ ∈ K, V.holds φ s :=
    fun K => .all fun φ => (V.stable φ).imp
  induction p generalizing K with
  | ret a => exact .ret (hstable K) fun s _ hK => ⟨K, h, hK⟩
  | call e k ih =>
    refine .call (B := fun r s => ∀ φ ∈ K ∪ W.learn K e r, V.holds φ s) (hstable K)
      (fun s hs hK => V.perm hs hK h.1) (fun s r s' hs hs' hK hexec φ hφ => ?_) fun r => ih r (h.2 r)
    rcases hφ with hφ | hφ
    · exact V.kept hs hexec (hK φ hφ)
    · exact V.learnt hs hs' hexec hK φ hφ

end Evidence
end MaintenanceOperator.Lib
