import MaintenanceOperator.Lib.Prog

/-!
# Concurrent systems and rely-guarantee reasoning

A `System` is a set of threads `ι` over a shared state `S`. Each idle thread may start one of its
bodies; a running thread issues the calls of its program one at a time, and `exec` says how a call
may be answered and what it does to the state; between any two calls the environment may move
(`Step`). A `Discipline` is a rely-guarantee proof plan for a system: a state invariant, a permission
`perm` that a thread must hold for each call it issues, and for each thread the `rely` relation that
covers every move of the others. Programs are then verified one at a time with `Triple`, cut at
function boundaries by `Triple.bind`, and `Discipline.sound` gives back the invariant, and the
permission of every call, along every run of the whole system.
-/

namespace MaintenanceOperator.Lib
open Relation

variable {ι E S α : Type} {R : E → Type}

/-- A state of the system: the shared state and what each thread still has to run. -/
structure Config (ι E : Type) (R : E → Type) (S α : Type) where
  state : S
  threads : ι → Option (Prog E R α)

/-- Threads, the meaning of their calls, and the moves of the environment. -/
structure System (ι E : Type) (R : E → Type) (S α : Type) where
  exec : ι → (e : E) → S → R e → S → Prop
  env : Config ι E R S α → S → Prop
  body : ι → Prog E R α → Prop

namespace System
variable [DecidableEq ι]

/-- One move of the system: of the environment, or of one thread. -/
inductive Step (Y : System ι E R S α) : Config ι E R S α → Config ι E R S α → Prop where
  | env {c s} : Y.env c s → Step Y c { c with state := s }
  | start {c i p} : c.threads i = none → Y.body i p →
      Step Y c { c with threads := Function.update c.threads i (some p) }
  | call {c i e k r s} : c.threads i = some (.call e k) → Y.exec i e c.state r s →
      Step Y c ⟨s, Function.update c.threads i (some (k r))⟩
  | finish {c i a} : c.threads i = some (.ret a) →
      Step Y c { c with threads := Function.update c.threads i none }

/-- Any number of moves. -/
def Run (Y : System ι E R S α) : Config ι E R S α → Config ι E R S α → Prop :=
  ReflTransGen Y.Step

end System

/-- A rely-guarantee proof plan for a system. -/
structure Discipline (Y : System ι E R S α) where
  inv : S → Prop
  perm : ι → S → E → Prop
  rely : ι → S → S → Prop
  inv_call : ∀ {i s e r s'}, inv s → perm i s e → Y.exec i e s r s' → inv s'
  rely_call : ∀ {i j s e r s'}, i ≠ j → inv s → perm i s e → Y.exec i e s r s' → rely j s s'
  inv_env : ∀ {c s'}, inv c.state → Y.env c s' → inv s'
  rely_env : ∀ {c s' j p}, c.threads j = some p → inv c.state → Y.env c s' → rely j c.state s'

namespace Discipline
variable {Y : System ι E R S α} {β γ : Type} {i : ι}

/-- What thread `i` may see happen between two of its own calls. -/
def Rely (D : Discipline Y) (i : ι) : S → S → Prop :=
  ReflTransGen fun s s' => D.inv s ∧ D.rely i s s' ∧ D.inv s'

/-- From `s` on, thread `i` running the program holds the permission of each call it issues, and the
postcondition holds once it has returned. -/
def Safe (D : Discipline Y) (i : ι) : Prog E R β → (β → S → Prop) → S → Prop
  | .ret a, Q, s => ∀ s', D.Rely i s s' → Q a s'
  | .call e k, Q, s => ∀ s', D.Rely i s s' →
      D.perm i s' e ∧ ∀ r s'', Y.exec i e s' r s'' → D.Safe i (k r) Q s''

/-- Hoare triples of the discipline. -/
def Triple (D : Discipline Y) (i : ι) (A : S → Prop) (p : Prog E R β) (Q : β → S → Prop) : Prop :=
  ∀ s, D.inv s → A s → D.Safe i p Q s

/-- An assertion that no move of the others invalidates. -/
def Stable (D : Discipline Y) (i : ι) (A : S → Prop) : Prop :=
  ∀ s s', D.inv s → D.inv s' → D.rely i s s' → A s → A s'

section Stability
variable {D : Discipline Y}

lemma Stable.const (P : Prop) : D.Stable i (fun _ => P) := fun _ _ _ _ _ h => h

lemma Stable.and {A B : S → Prop} (hA : D.Stable i A) (hB : D.Stable i B) :
    D.Stable i (fun s => A s ∧ B s) :=
  fun s s' h h' hr hAB => ⟨hA s s' h h' hr hAB.1, hB s s' h h' hr hAB.2⟩

lemma Stable.or {A B : S → Prop} (hA : D.Stable i A) (hB : D.Stable i B) :
    D.Stable i (fun s => A s ∨ B s) :=
  fun s s' h h' hr hAB => hAB.imp (hA s s' h h' hr) (hB s s' h h' hr)

lemma Stable.imp {P : Prop} {A : S → Prop} (hA : D.Stable i A) : D.Stable i fun s => P → A s :=
  fun s s' h h' hr hPA hP => hA s s' h h' hr (hPA hP)

lemma Stable.all {κ : Type} {A : κ → S → Prop} (hA : ∀ k, D.Stable i (A k)) :
    D.Stable i fun s => ∀ k, A k s :=
  fun s s' h h' hr hall k => hA k s s' h h' hr (hall k)

/-- What holds of a result, should there be one. -/
lemma Stable.ok {ε : Type} {res : Except ε β} {Q : β → S → Prop} (hQ : ∀ b, D.Stable i (Q b)) :
    D.Stable i fun s => ∀ b, res = .ok b → Q b s :=
  .all fun b => (hQ b).imp

/-- What holds of either outcome. -/
lemma Stable.outcome {ε : Type} {res : Except ε β} {Q : β → S → Prop} {X : ε → S → Prop}
    (hQ : ∀ b, D.Stable i (Q b)) (hX : ∀ e, D.Stable i (X e)) :
    D.Stable i fun s => (∀ b, res = .ok b → Q b s) ∧ ∀ e, res = .error e → X e s :=
  (Stable.ok hQ).and (.all fun e => (hX e).imp)

lemma Stable.rely {A : S → Prop} (hA : D.Stable i A) {s s' : S} (h : D.Rely i s s') (hs : A s) :
    A s' := by
  induction h with
  | refl => exact hs
  | tail _ st ih => exact hA _ _ st.1 st.2.2 st.2.1 ih

lemma Rely.inv {s s' : S} (h : D.Rely i s s') (hs : D.inv s) : D.inv s' := by
  induction h with
  | refl => exact hs
  | tail _ st _ => exact st.2.2

/-- Safety is kept by moves of the others. -/
lemma Safe.rely {p : Prog E R β} {Q : β → S → Prop} {s s' : S} (h : D.Safe i p Q s)
    (hr : D.Rely i s s') : D.Safe i p Q s' := by
  cases p with
  | ret a => exact fun s'' h' => h s'' (hr.trans h')
  | call e k => exact fun s'' h' => h s'' (hr.trans h')

lemma Safe.mono {p : Prog E R β} {Q Q' : β → S → Prop} {s : S} (hs : D.inv s)
    (h : D.Safe i p Q s) (imp : ∀ a s, D.inv s → Q a s → Q' a s) : D.Safe i p Q' s := by
  induction p generalizing s with
  | ret a => exact fun s' hr => imp a s' (hr.inv hs) (h s' hr)
  | call e k ih =>
    intro s' hr
    obtain ⟨hp, hk⟩ := h s' hr
    exact ⟨hp, fun r s'' he => ih r (D.inv_call (hr.inv hs) hp he) (hk r s'' he)⟩

end Stability

section Rules
variable {D : Discipline Y}

/-- Return. -/
lemma Triple.ret {A : S → Prop} {a : β} {Q : β → S → Prop} (hA : D.Stable i A)
    (h : ∀ s, D.inv s → A s → Q a s) : D.Triple i A (.ret a) Q :=
  fun _ hs hAs s' hr => h s' (hr.inv hs) (hA.rely hr hAs)

/-- One call: the permission before it, an assertion for each response after it. -/
lemma Triple.call {A : S → Prop} {e : E} {B : R e → S → Prop} {k : R e → Prog E R β}
    {Q : β → S → Prop} (hA : D.Stable i A)
    (hp : ∀ s, D.inv s → A s → D.perm i s e)
    (hB : ∀ s r s', D.inv s → D.inv s' → A s → Y.exec i e s r s' → B r s')
    (hk : ∀ r, D.Triple i (B r) (k r) Q) : D.Triple i A (.call e k) Q := by
  intro s hs hAs s' hr
  have hs' := hr.inv hs
  have hAs' := hA.rely hr hAs
  refine ⟨hp s' hs' hAs', fun r s'' he => ?_⟩
  have hs'' := D.inv_call hs' (hp s' hs' hAs') he
  exact hk r s'' hs'' (hB s' r s'' hs' hs'' hAs' he)

/-- Sequencing. -/
lemma Triple.bind {A : S → Prop} {p : Prog E R β} {B : β → S → Prop} {f : β → Prog E R γ}
    {Q : γ → S → Prop} (hp : D.Triple i A p B) (hf : ∀ a, D.Triple i (B a) (f a) Q) :
    D.Triple i A (p >>= f) Q := by
  have key : ∀ (p : Prog E R β) (s : S), D.inv s → D.Safe i p B s → D.Safe i (p >>= f) Q s := by
    intro p
    induction p with
    | ret a =>
      intro s hs h
      exact hf a s hs (h s .refl)
    | call e k ih =>
      intro s hs h s' hr
      obtain ⟨hperm, hk⟩ := h s' hr
      exact ⟨hperm, fun r s'' he => ih r s'' (D.inv_call (hr.inv hs) hperm he) (hk r s'' he)⟩
  exact fun s hs hAs => key p s hs (hp s hs hAs)

/-- A pure function applied to the result. -/
lemma Triple.map {A : S → Prop} {p : Prog E R β} {f : β → γ} {Q : γ → S → Prop}
    (hp : D.Triple i A p fun b => Q (f b)) : D.Triple i A (p >>= fun b => .ret (f b)) Q := by
  have key : ∀ (p : Prog E R β) (s : S), D.Safe i p (fun b => Q (f b)) s →
      D.Safe i (p >>= fun b => .ret (f b)) Q s := by
    intro p
    induction p with
    | ret b => exact fun s h => h
    | call e k ih =>
      intro s h s' hr
      obtain ⟨hperm, hk⟩ := h s' hr
      exact ⟨hperm, fun r s'' he => ih r s'' (hk r s'' he)⟩
  exact fun s hs hAs => key p s (hp s hs hAs)

/-- Consequence. -/
lemma Triple.conseq {A A' : S → Prop} {p : Prog E R β} {Q Q' : β → S → Prop}
    (h : D.Triple i A' p Q') (hpre : ∀ s, D.inv s → A s → A' s)
    (hpost : ∀ a s, D.inv s → Q' a s → Q a s) : D.Triple i A p Q :=
  fun s hs hAs => (h s hs (hpre s hs hAs)).mono hs hpost

/-- Strengthening the precondition. -/
lemma Triple.pre {A B : S → Prop} {p : Prog E R β} {Q : β → S → Prop}
    (h : D.Triple i B p Q) (hpre : ∀ s, D.inv s → A s → B s) : D.Triple i A p Q :=
  fun s hs hAs => h s hs (hpre s hs hAs)

/-- A precondition that can never hold proves everything. -/
lemma Triple.absurd {A : S → Prop} {p : Prog E R β} {Q : β → S → Prop}
    (h : ∀ s, D.inv s → ¬ A s) : D.Triple i A p Q :=
  fun s hs hAs => (h s hs hAs).elim

/-- What the precondition says about no state can be moved to the context. -/
lemma Triple.assume {P : Prop} {A : S → Prop} {p : Prog E R β} {Q : β → S → Prop}
    (hP : ∀ s, D.inv s → A s → P) (h : P → D.Triple i A p Q) : D.Triple i A p Q :=
  fun s hs hAs => h (hP s hs hAs) s hs hAs

/-- A pure conjunct of the precondition can be moved to the context. -/
lemma Triple.of_pure {P : Prop} {A : S → Prop} {p : Prog E R β} {Q : β → S → Prop}
    (h : P → D.Triple i A p Q) : D.Triple i (fun s => P ∧ A s) p Q :=
  fun s hs hAs => h hAs.1 s hs hAs.2

/-- What the precondition says to exist can be named. -/
lemma Triple.of_exists {κ : Type} {A : κ → S → Prop} {p : Prog E R β} {Q : β → S → Prop}
    (h : ∀ x, D.Triple i (A x) p Q) : D.Triple i (fun s => ∃ x, A x s) p Q :=
  fun s hs ⟨x, hAs⟩ => h x s hs hAs

/-- A single call. -/
lemma Triple.lift {A : S → Prop} {e : E} {Q : R e → S → Prop} (hA : D.Stable i A)
    (hQ : ∀ r, D.Stable i (Q r)) (hp : ∀ s, D.inv s → A s → D.perm i s e)
    (h : ∀ s r s', D.inv s → D.inv s' → A s → Y.exec i e s r s' → Q r s') :
    D.Triple i A (Prog.lift e) Q :=
  .call hA hp h fun r => .ret (hQ r) fun _ _ hs => hs

/-- A program that may stop on the way promises nothing if it does. -/
lemma Triple.cutAt {A : S → Prop} {p : Prog E R β} {Q : β → S → Prop} (h : D.Triple i A p Q) (n : Nat) :
    D.Triple i A (p.cutAt n) fun r s => ∀ b, r = some b → Q b s := by
  have key : ∀ (p : Prog E R β) (n : Nat) (s : S), D.Safe i p Q s →
      D.Safe i (p.cutAt n) (fun r s => ∀ b, r = some b → Q b s) s := by
    intro p
    induction p with
    | ret a =>
      rintro n s hsafe s' hr _ ⟨⟩
      exact hsafe s' hr
    | call e k ih =>
      intro n s hsafe
      cases n with
      | zero => exact fun _ _ _ hb => nomatch hb
      | succ n =>
        intro s' hr
        obtain ⟨hperm, hk⟩ := hsafe s' hr
        exact ⟨hperm, fun r s'' hexec => ih r n s'' (hk r s'' hexec)⟩
  exact fun s hs hAs => key p n s (h s hs hAs)

/-- What no call of the program invalidates can be carried along. -/
lemma Triple.frame {A F : S → Prop} {P : E → Prop} {p : Prog E R β} {Q : β → S → Prop}
    (hF : D.Stable i F)
    (hcall : ∀ s e r s', D.inv s → D.inv s' → P e → Y.exec i e s r s' → F s → F s')
    (all : p.All P) (h : D.Triple i A p Q) :
    D.Triple i (fun s => A s ∧ F s) p fun b s => Q b s ∧ F s := by
  have key : ∀ (p : Prog E R β), p.All P → ∀ s, D.inv s → F s → D.Safe i p Q s →
      D.Safe i p (fun b s => Q b s ∧ F s) s := by
    intro p
    induction p with
    | ret b => exact fun _ s _ hFs hsafe s' hr => ⟨hsafe s' hr, hF.rely hr hFs⟩
    | call e k ih =>
      intro all s hs hFs hsafe s' hr
      obtain ⟨hperm, hk⟩ := hsafe s' hr
      have hs' := hr.inv hs
      refine ⟨hperm, fun r s'' hexec => ?_⟩
      have hs'' := D.inv_call hs' hperm hexec
      have hFs'' := hcall s' e r s'' hs' hs'' all.1 hexec (hF.rely hr hFs)
      exact ih r (all.2 r) s'' hs'' hFs'' (hk r s'' hexec)
  exact fun s hs hAF => key p all s hs hAF.2 (h s hs hAF.1)

/-- A program whose calls are all harmless to a stable assertion keeps it. -/
lemma Triple.of_all {A : S → Prop} {P : E → Prop} {p : Prog E R β} (hA : D.Stable i A)
    (hp : ∀ s e, D.inv s → A s → P e → D.perm i s e)
    (h : ∀ s e r s', D.inv s → D.inv s' → A s → P e → Y.exec i e s r s' → A s')
    (all : p.All P) : D.Triple i A p (fun _ => A) := by
  induction p with
  | ret a => exact .ret hA fun _ _ hs => hs
  | call e k ih =>
    refine .call (B := fun _ => A) hA (fun s hs hAs => hp s e hs hAs all.1) ?_ fun r => ih r (all.2 r)
    exact fun s r s' hs hs' hAs => h s e r s' hs hs' hAs all.1

/-- What holds under a plan holds under one that is as strict for the others and as lenient for the
thread, also in a system with fewer answers. -/
lemma Triple.transfer {Y' : System ι E R S α} {D' : Discipline Y'} {A : S → Prop} {p : Prog E R β}
    {Q : β → S → Prop} (hinv : ∀ s, D'.inv s → D.inv s) (hrely : ∀ s s', D'.rely i s s' → D.rely i s s')
    (hperm : ∀ s e, D'.inv s → D.perm i s e → D'.perm i s e)
    (hexec : ∀ e s r s', Y'.exec i e s r s' → Y.exec i e s r s') (h : D.Triple i A p Q) :
    D'.Triple i A p Q := by
  have hmono : ∀ {s s'}, D'.Rely i s s' → D.Rely i s s' := by
    intro s s' hr
    induction hr with
    | refl => exact .refl
    | tail _ st ih => exact ih.tail ⟨hinv _ st.1, hrely _ _ st.2.1, hinv _ st.2.2⟩
  have key : ∀ (p : Prog E R β) s, D'.inv s → D.Safe i p Q s → D'.Safe i p Q s := by
    intro p
    induction p with
    | ret b => exact fun s _ hsafe s' hr => hsafe s' (hmono hr)
    | call e k ih =>
      intro s hs hsafe s' hr
      obtain ⟨hp, hk⟩ := hsafe s' (hmono hr)
      have hs' := hr.inv hs
      have hp' := hperm s' e hs' hp
      exact ⟨hp', fun r s'' he => ih r s'' (D'.inv_call hs' hp' he) (hk r s'' (hexec e s' r s'' he))⟩
  exact fun s hs hA => key p s hs (h s (hinv s hs) hA)

end Rules

section Fallible
variable {D : Discipline Y} {ε : Type}

/-- Triples of programs that may end with an error; nothing is promised after an error. -/
def TripleE (D : Discipline Y) (i : ι) (A : S → Prop) (x : ExceptT ε (Prog E R) β)
    (Q : β → S → Prop) : Prop :=
  D.Triple i A x.run fun r s => ∀ b, r = .ok b → Q b s

lemma TripleE.pure {A : S → Prop} {b : β} {Q : β → S → Prop} (hA : D.Stable i A)
    (h : ∀ s, D.inv s → A s → Q b s) :
    D.TripleE i A (pure b : ExceptT ε (Prog E R) β) Q := by
  refine Triple.ret hA ?_
  rintro s hs hAs _ ⟨⟩
  exact h s hs hAs

lemma TripleE.throw {A : S → Prop} {e : ε} {Q : β → S → Prop} :
    D.TripleE i A (throw e : ExceptT ε (Prog E R) β) Q :=
  fun _ _ _ _ _ _ h => nomatch h

lemma TripleE.bind {A : S → Prop} {x : ExceptT ε (Prog E R) β} {B : β → S → Prop}
    {f : β → ExceptT ε (Prog E R) γ} {Q : γ → S → Prop} (hx : D.TripleE i A x B)
    (hf : ∀ b, D.TripleE i (B b) (f b) Q) : D.TripleE i A (x >>= f) Q := by
  refine Triple.bind hx fun r => ?_
  cases r with
  | ok b => exact (hf b).pre fun s _ h => h b rfl
  | error e => exact fun _ _ _ _ _ _ h => nomatch h

lemma TripleE.lift {A : S → Prop} {p : Prog E R β} {Q : β → S → Prop} (hp : D.Triple i A p Q) :
    D.TripleE i A (ExceptT.lift p : ExceptT ε (Prog E R) β) Q := by
  refine Triple.map (hp.conseq (fun _ _ h => h) ?_)
  rintro b s _ hQ _ ⟨⟩
  exact hQ

lemma TripleE.adapt {ε' : Type} {A : S → Prop} {x : ExceptT ε (Prog E R) β} {f : ε → ε'}
    {Q : β → S → Prop} (hx : D.TripleE i A x Q) : D.TripleE i A (ExceptT.adapt f x) Q := by
  refine Triple.map (hx.conseq (fun _ _ h => h) ?_)
  intro r s _ hQ b hb
  cases r with
  | ok b' =>
    cases hb
    exact hQ _ rfl
  | error e => cases hb

lemma TripleE.conseq {A A' : S → Prop} {x : ExceptT ε (Prog E R) β} {Q Q' : β → S → Prop}
    (h : D.TripleE i A' x Q') (hpre : ∀ s, D.inv s → A s → A' s)
    (hpost : ∀ b s, D.inv s → Q' b s → Q b s) : D.TripleE i A x Q :=
  Triple.conseq h hpre fun _ s hs hQ b hb => hpost b s hs (hQ b hb)

lemma TripleE.pre {A B : S → Prop} {x : ExceptT ε (Prog E R) β} {Q : β → S → Prop}
    (h : D.TripleE i B x Q) (hpre : ∀ s, D.inv s → A s → B s) : D.TripleE i A x Q :=
  Triple.pre h hpre

lemma TripleE.of_pure {P : Prop} {A : S → Prop} {x : ExceptT ε (Prog E R) β} {Q : β → S → Prop}
    (h : P → D.TripleE i A x Q) : D.TripleE i (fun s => P ∧ A s) x Q :=
  Triple.of_pure h

lemma TripleE.of_exists {κ : Type} {A : κ → S → Prop} {x : ExceptT ε (Prog E R) β} {Q : β → S → Prop}
    (h : ∀ k, D.TripleE i (A k) x Q) : D.TripleE i (fun s => ∃ k, A k s) x Q :=
  Triple.of_exists h

lemma TripleE.frame {A F : S → Prop} {P : E → Prop} {x : ExceptT ε (Prog E R) β} {Q : β → S → Prop}
    (hF : D.Stable i F)
    (hcall : ∀ s e r s', D.inv s → D.inv s' → P e → Y.exec i e s r s' → F s → F s')
    (all : AllE P x) (h : D.TripleE i A x Q) :
    D.TripleE i (fun s => A s ∧ F s) x fun b s => Q b s ∧ F s :=
  (Triple.frame hF hcall all h).conseq (fun _ _ h => h) fun _ _ _ h b hb => ⟨h.1 b hb, h.2⟩

lemma TripleE.of_all {A : S → Prop} {P : E → Prop} {x : ExceptT ε (Prog E R) β}
    (hA : D.Stable i A) (hp : ∀ s e, D.inv s → A s → P e → D.perm i s e)
    (h : ∀ s e r s', D.inv s → D.inv s' → A s → P e → Y.exec i e s r s' → A s')
    (all : AllE P x) : D.TripleE i A x (fun _ => A) :=
  (Triple.of_all hA hp h all).conseq (fun _ _ h => h) fun _ _ _ hs _ _ => hs

/-- Triples with a postcondition for either outcome. -/
def TripleX (D : Discipline Y) (i : ι) (A : S → Prop) (x : ExceptT ε (Prog E R) β)
    (Q : β → S → Prop) (X : ε → S → Prop) : Prop :=
  D.Triple i A x.run fun r s => (∀ b, r = .ok b → Q b s) ∧ ∀ e, r = .error e → X e s

lemma TripleX.pure {A : S → Prop} {b : β} {Q : β → S → Prop} {X : ε → S → Prop} (hA : D.Stable i A)
    (h : ∀ s, D.inv s → A s → Q b s) : D.TripleX i A (pure b : ExceptT ε (Prog E R) β) Q X := by
  refine Triple.ret hA fun s hs hAs => ⟨?_, nofun⟩
  rintro _ ⟨⟩
  exact h s hs hAs

lemma TripleX.throw {A : S → Prop} {e : ε} {Q : β → S → Prop} {X : ε → S → Prop} (hA : D.Stable i A)
    (h : ∀ s, D.inv s → A s → X e s) : D.TripleX i A (throw e : ExceptT ε (Prog E R) β) Q X := by
  refine Triple.ret hA fun s hs hAs => ⟨nofun, ?_⟩
  rintro _ ⟨⟩
  exact h s hs hAs

lemma TripleX.bind {A : S → Prop} {x : ExceptT ε (Prog E R) β} {B : β → S → Prop}
    {f : β → ExceptT ε (Prog E R) γ} {Q : γ → S → Prop} {X : ε → S → Prop}
    (hX : ∀ e, D.Stable i (X e)) (hx : D.TripleX i A x B X)
    (hf : ∀ b, D.TripleX i (B b) (f b) Q X) : D.TripleX i A (x >>= f) Q X := by
  refine Triple.bind hx fun r => ?_
  cases r with
  | ok b => exact (hf b).pre fun s _ h => h.1 b rfl
  | error e => exact Triple.pre (TripleX.throw (hX e) fun _ _ h => h) fun s _ h => h.2 e rfl

lemma TripleX.lift {A : S → Prop} {p : Prog E R β} {Q : β → S → Prop} {X : ε → S → Prop}
    (hp : D.Triple i A p Q) : D.TripleX i A (ExceptT.lift p : ExceptT ε (Prog E R) β) Q X := by
  refine Triple.map (hp.conseq (fun _ _ h => h) fun b s _ hQ => ⟨?_, nofun⟩)
  rintro _ ⟨⟩
  exact hQ

lemma TripleX.adapt {ε' : Type} {A : S → Prop} {x : ExceptT ε (Prog E R) β} {f : ε → ε'}
    {Q : β → S → Prop} {X : ε' → S → Prop} (hx : D.TripleX i A x Q fun e => X (f e)) :
    D.TripleX i A (ExceptT.adapt f x) Q X := by
  refine Triple.map (hx.conseq (fun _ _ h => h) fun r s _ h => ⟨fun b hb => ?_, fun e he => ?_⟩)
  · cases r with
    | ok b' =>
      cases hb
      exact h.1 _ rfl
    | error e' => cases hb
  · cases r with
    | ok b' => cases he
    | error e' =>
      cases he
      exact h.2 _ rfl

lemma TripleX.conseq {A A' : S → Prop} {x : ExceptT ε (Prog E R) β} {Q Q' : β → S → Prop}
    {X X' : ε → S → Prop} (h : D.TripleX i A' x Q' X') (hpre : ∀ s, D.inv s → A s → A' s)
    (hpost : ∀ b s, D.inv s → Q' b s → Q b s) (herr : ∀ e s, D.inv s → X' e s → X e s) :
    D.TripleX i A x Q X :=
  Triple.conseq h hpre fun _ s hs hr => ⟨fun b hb => hpost b s hs (hr.1 b hb),
    fun e he => herr e s hs (hr.2 e he)⟩

lemma TripleX.pre {A B : S → Prop} {x : ExceptT ε (Prog E R) β} {Q : β → S → Prop} {X : ε → S → Prop}
    (h : D.TripleX i B x Q X) (hpre : ∀ s, D.inv s → A s → B s) : D.TripleX i A x Q X :=
  Triple.pre h hpre

lemma TripleX.of_pure {P : Prop} {A : S → Prop} {x : ExceptT ε (Prog E R) β} {Q : β → S → Prop}
    {X : ε → S → Prop} (h : P → D.TripleX i A x Q X) : D.TripleX i (fun s => P ∧ A s) x Q X :=
  Triple.of_pure h

/-- A program whose calls all keep an assertion. -/
lemma TripleX.of_all {A : S → Prop} {P : E → Prop} {x : ExceptT ε (Prog E R) β}
    (hA : D.Stable i A) (hp : ∀ s e, D.inv s → A s → P e → D.perm i s e)
    (h : ∀ s e r s', D.inv s → D.inv s' → A s → P e → Y.exec i e s r s' → A s')
    (all : AllE P x) : D.TripleX i A x (fun _ => A) fun _ => A :=
  (Triple.of_all hA hp h all).conseq (fun _ _ h => h) fun _ _ _ hs => ⟨fun _ _ => hs, fun _ _ => hs⟩

lemma TripleE.both {A : S → Prop} {x : ExceptT ε (Prog E R) β} {Q : β → S → Prop}
    (h : D.TripleE i A x Q) : D.TripleX i A x Q fun _ _ => True :=
  Triple.conseq h (fun _ _ h => h) fun _ _ _ hr => ⟨hr, fun _ _ => trivial⟩

lemma TripleX.ok {A : S → Prop} {x : ExceptT ε (Prog E R) β} {Q : β → S → Prop} {X : ε → S → Prop}
    (h : D.TripleX i A x Q X) : D.TripleE i A x Q :=
  Triple.conseq h (fun _ _ h => h) fun _ _ _ hr => hr.1

/-- Triples of programs that end without an error. -/
abbrev TripleOk (D : Discipline Y) (i : ι) (A : S → Prop) (x : ExceptT ε (Prog E R) β)
    (Q : β → S → Prop) : Prop :=
  D.TripleX i A x Q fun _ _ => False

lemma TripleOk.bind {A : S → Prop} {x : ExceptT ε (Prog E R) β} {B : β → S → Prop}
    {f : β → ExceptT ε (Prog E R) γ} {Q : γ → S → Prop} (hx : D.TripleOk i A x B)
    (hf : ∀ b, D.TripleOk i (B b) (f b) Q) : D.TripleOk i A (x >>= f) Q :=
  TripleX.bind (fun _ => Stable.const _) hx hf

/-- Such a program returns a value. -/
lemma TripleOk.returns {A : S → Prop} {x : ExceptT ε (Prog E R) β} {Q : β → S → Prop}
    (h : D.TripleOk i A x Q) : D.Triple i A x.run fun r s => ∃ b, r = .ok b ∧ Q b s := by
  refine Triple.conseq h (fun _ _ h => h) fun r s _ hr => ?_
  cases r with
  | ok b => exact ⟨b, rfl, hr.1 b rfl⟩
  | error e => exact (hr.2 e rfl).elim

end Fallible

section Soundness
variable {D : Discipline Y} {Q : ι → α → S → Prop}

/-- The invariant holds, and every running thread is safe and returns with its postcondition. -/
def OkWith (D : Discipline Y) (Q : ι → α → S → Prop) (c : Config ι E R S α) : Prop :=
  D.inv c.state ∧ ∀ i p, c.threads i = some p → D.Safe i p (Q i) c.state

/-- The invariant holds and every running thread is safe. -/
def Ok (D : Discipline Y) (c : Config ι E R S α) : Prop := D.OkWith (fun _ _ _ => True) c

/-- A call about to be issued holds its permission. -/
lemma OkWith.perm {c : Config ι E R S α} (h : D.OkWith Q c) {e : E} {k : R e → Prog E R α}
    (ht : c.threads i = some (.call e k)) : D.perm i c.state e :=
  (h.2 i _ ht c.state .refl).1

/-- A thread that has returned has its postcondition. -/
lemma OkWith.returned {c : Config ι E R S α} (h : D.OkWith Q c) {a : α}
    (ht : c.threads i = some (.ret a)) : Q i a c.state :=
  h.2 i _ ht c.state .refl

variable [DecidableEq ι]

/-- One move keeps the invariant and the safety of every thread. -/
lemma OkWith.step (hbody : ∀ i p, Y.body i p → D.Triple i (fun _ => True) p (Q i))
    {c c' : Config ι E R S α} (h : D.OkWith Q c) (st : Y.Step c c') : D.OkWith Q c' := by
  cases st with
  | @env s henv =>
    have hs := D.inv_env h.1 henv
    refine ⟨hs, fun i p ht => (h.2 i p ht).rely ?_⟩
    -- every running program relies on what an event may do
    exact .single ⟨h.1, D.rely_env ht h.1 henv, hs⟩
  | @start i p hidle hb =>
    refine ⟨h.1, fun j q ht => ?_⟩
    by_cases e : j = i
    · subst e
      simp only [Function.update_self, Option.some.injEq] at ht
      subst ht
      exact hbody _ _ hb c.state h.1 trivial
    · simp only [Function.update_of_ne e] at ht
      exact h.2 j q ht
  | @call i e k r s hrun hexec =>
    have hperm := h.perm hrun
    have hs := D.inv_call h.1 hperm hexec
    refine ⟨hs, fun j q ht => ?_⟩
    by_cases e : j = i
    · subst e
      simp only [Function.update_self, Option.some.injEq] at ht
      subst ht
      -- the caller goes on after the call, the others rely on what it may do
      exact (h.2 _ _ hrun c.state .refl).2 r s hexec
    · simp only [Function.update_of_ne e] at ht
      refine (h.2 j q ht).rely (.single ⟨h.1, ?_, hs⟩)
      exact D.rely_call (Ne.symm e) h.1 hperm hexec
  | @finish i a hdone =>
    refine ⟨h.1, fun j q ht => ?_⟩
    by_cases e : j = i
    · subst e
      simp at ht
    · simp only [Function.update_of_ne e] at ht
      exact h.2 j q ht

/-- The invariant and the safety of every thread hold along every run. -/
theorem soundWith (hbody : ∀ i p, Y.body i p → D.Triple i (fun _ => True) p (Q i))
    {c c' : Config ι E R S α} (h : D.OkWith Q c) (run : Y.Run c c') : D.OkWith Q c' := by
  induction run with
  | refl => exact h
  | tail _ st ih => exact ih.step hbody st

/-- The same without postconditions. -/
theorem sound (hbody : ∀ i p, Y.body i p → D.Triple i (fun _ => True) p (fun _ _ => True))
    {c c' : Config ι E R S α} (h : D.Ok c) (run : Y.Run c c') : D.Ok c' :=
  soundWith hbody h run

/-- What one move of a system under the discipline can do to the state. -/
theorem OkWith.step_cases {c c' : Config ι E R S α} (h : D.OkWith Q c) (st : Y.Step c c') :
    c'.state = c.state ∨ Y.env c c'.state ∨
      ∃ i e r, D.perm i c.state e ∧ Y.exec i e c.state r c'.state := by
  cases st with
  | env henv => exact .inr (.inl henv)
  | start _ _ => exact .inl rfl
  | @call i e k r s hrun hexec => exact .inr (.inr ⟨i, e, r, h.perm hrun, hexec⟩)
  | finish _ => exact .inl rfl

lemma Ok.step_cases {c c' : Config ι E R S α} (h : D.Ok c) (st : Y.Step c c') :
    c'.state = c.state ∨ Y.env c c'.state ∨
      ∃ i e r, D.perm i c.state e ∧ Y.exec i e c.state r c'.state :=
  OkWith.step_cases h st

end Soundness
end Discipline
end MaintenanceOperator.Lib
