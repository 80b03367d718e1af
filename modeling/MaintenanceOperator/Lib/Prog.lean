import Mathlib.Logic.Relation
import Mathlib.Logic.Function.Basic
import Mathlib.Tactic.Common

/-!
# Programs that call an outside world

A program is a finite tree of calls: it either returns, or issues a call `e` and continues with
whatever response of type `R e` comes back. Nothing is said here about what a call does; that is the
business of the system the program runs in (`Lib/System.lean`). `Prog` is a monad, so sequential code
is written in `do` notation.
-/

namespace MaintenanceOperator.Lib

/-- Programs over calls `E` with responses `R`, returning `α`. -/
inductive Prog (E : Type) (R : E → Type) (α : Type) : Type where
  | ret (a : α) : Prog E R α
  | call (e : E) (k : R e → Prog E R α) : Prog E R α

namespace Prog
variable {E : Type} {R : E → Type} {α β γ : Type}

/-- Sequencing: graft `f` onto every leaf. -/
protected def bind : Prog E R α → (α → Prog E R β) → Prog E R β
  | .ret a, f => f a
  | .call e k, f => .call e fun r => (k r).bind f

instance : Monad (Prog E R) where
  pure := .ret
  bind := .bind

/-- The program that issues one call and returns its response. -/
def lift (e : E) : Prog E R (R e) := .call e .ret

@[simp] lemma pure_eq (a : α) : (pure a : Prog E R α) = .ret a := rfl

@[simp] lemma ret_bind (a : α) (f : α → Prog E R β) : (Prog.ret a >>= f) = f a := rfl

@[simp] lemma call_bind (e : E) (k : R e → Prog E R α) (f : α → Prog E R β) :
    (Prog.call e k >>= f) = .call e (fun r => k r >>= f) := rfl

@[simp] lemma lift_bind (e : E) (f : R e → Prog E R β) :
    (Prog.lift e >>= f) = .call e f := rfl

/-- The value of a program that has returned. -/
def value? : Prog E R α → Option α
  | .ret a => some a
  | .call _ _ => none

lemma eq_ret_of_value? {p : Prog E R α} {a : α} (h : p.value? = some a) : p = .ret a := by
  cases p with
  | ret b =>
    cases h
    rfl
  | call e k => cases h

/-- Every call of the program, on every path, satisfies `P`. -/
def All (P : E → Prop) : Prog E R α → Prop
  | .ret _ => True
  | .call e k => P e ∧ ∀ r, (k r).All P

lemma All.lift {P : E → Prop} {e : E} (h : P e) : (Prog.lift e : Prog E R (R e)).All P :=
  ⟨h, fun _ => trivial⟩

lemma All.bind {P : E → Prop} {p : Prog E R α} {f : α → Prog E R β} (hp : p.All P)
    (hf : ∀ a, (f a).All P) : (p >>= f).All P := by
  induction p with
  | ret a => exact hf a
  | call e k ih => exact ⟨hp.1, fun r => ih r (hp.2 r)⟩

lemma All.mono {P P' : E → Prop} {p : Prog E R α} (hp : p.All P) (h : ∀ e, P e → P' e) :
    p.All P' := by
  induction p with
  | ret a => trivial
  | call e k ih => exact ⟨h e hp.1, fun r => ih r (hp.2 r)⟩

lemma All.of_forall {P : E → Prop} (h : ∀ e, P e) (p : Prog E R α) : p.All P := by
  induction p with
  | ret a => trivial
  | call e k ih => exact ⟨h e, ih⟩

/-- The program, stopped after `n` calls if it has not returned by then. -/
def cutAt : Prog E R α → Nat → Prog E R (Option α)
  | .ret a, _ => .ret (some a)
  | .call _ _, 0 => .ret none
  | .call e k, n + 1 => .call e fun r => (k r).cutAt n

/-- The calls of the program and its value, if the calls are answered by `answer`, which may look at
the calls made so far. -/
def answered (answer : List E → (e : E) → R e) : List E → Prog E R α → List E × α
  | calls, .ret a => (calls, a)
  | calls, .call e k => (k (answer calls e)).answered answer (calls ++ [e])

section Answered
variable (answer : List E → (e : E) → R e) (calls : List E)

@[simp] lemma answered_ret (a : α) : (Prog.ret a : Prog E R α).answered answer calls = (calls, a) := rfl

@[simp] lemma answered_call (e : E) (k : R e → Prog E R α) :
    (Prog.call e k).answered answer calls = (k (answer calls e)).answered answer (calls ++ [e]) := rfl

@[simp] lemma answered_bind (p : Prog E R α) (f : α → Prog E R β) :
    (p >>= f).answered answer calls =
      (f (p.answered answer calls).2).answered answer (p.answered answer calls).1 := by
  induction p generalizing calls with
  | ret a => rfl
  | call e k ih => exact ih (answer calls e) (calls ++ [e])

end Answered

end Prog

/-! ### Programs that may end with an error -/

section Fallible
variable {E : Type} {R : E → Type} {ε α β : Type}

/-- Every call of a fallible program satisfies `P`. -/
def AllE (P : E → Prop) (x : ExceptT ε (Prog E R) α) : Prop := x.run.All P

variable {P : E → Prop}

lemma AllE.pure {a : α} : AllE P (pure a : ExceptT ε (Prog E R) α) := trivial

lemma AllE.throw {e : ε} : AllE P (throw e : ExceptT ε (Prog E R) α) := trivial

lemma AllE.bind {x : ExceptT ε (Prog E R) α} {f : α → ExceptT ε (Prog E R) β} (hx : AllE P x)
    (hf : ∀ a, AllE P (f a)) : AllE P (x >>= f) := by
  refine Prog.All.bind hx fun r => ?_
  cases r with
  | ok a => exact hf a
  | error e => trivial

lemma AllE.lift {p : Prog E R α} (hp : p.All P) : AllE P (ExceptT.lift p : ExceptT ε (Prog E R) α) :=
  Prog.All.bind hp fun _ => trivial

lemma AllE.adapt {ε' : Type} {x : ExceptT ε (Prog E R) α} {f : ε → ε'} (hx : AllE P x) :
    AllE P (ExceptT.adapt f x) :=
  Prog.All.bind hx fun _ => trivial

lemma AllE.ite {c : Prop} [Decidable c] {x y : ExceptT ε (Prog E R) α} (hx : AllE P x)
    (hy : AllE P y) : AllE P (if c then x else y) := by
  split <;> assumption

end Fallible
end MaintenanceOperator.Lib
