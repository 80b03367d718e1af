import MaintenanceOperator.Lib.System

/-!
# Hidden calls and hidden threads

A system `Y` may do more than a system `Z` knows of: its threads also issue hidden calls, and it has
threads of its own, the services. A `View` says what `Z` sees of `Y`: the visible calls of the threads
do in `Z` what they do in `Y`, hidden calls are not seen, and whatever a service does is a move of the
environment. A program of `Y` that issues hidden calls shows a program of `Z` if, with the answers that
the hidden calls can get, it issues the same visible calls (`View.Shows`). `View.run_mirrored`: when
every program of `Y` shows a body of `Z`, each run of `Y` is seen as a run of `Z`.
-/

namespace MaintenanceOperator.Lib
open Relation

variable {ι κ E H S T α β γ : Type} {R : E → Type} {Q : H → Type}

namespace Prog

/-- A program without hidden calls. -/
def shown : Prog E R α → Prog (E ⊕ H) (Sum.elim R Q) α
  | .ret a => .ret a
  | .call e k => .call (.inl e) fun r => (k r).shown

/-- A program with each call replaced by a program. -/
def translate {E' : Type} {R' : E' → Type} (f : (e : E) → Prog E' R' (R e)) : Prog E R α → Prog E' R' α
  | .ret a => .ret a
  | .call e k => f e >>= fun r => (k r).translate f

lemma bind_bind (p : Prog E R α) (f : α → Prog E R β) (g : β → Prog E R γ) :
    (p >>= f) >>= g = p >>= fun a => f a >>= g := by
  induction p with
  | ret a => rfl
  | call e k ih => exact congrArg (Prog.call e) (funext ih)

lemma bind_ret (p : Prog E R α) : p >>= .ret = p := by
  induction p with
  | ret a => rfl
  | call e k ih => exact congrArg (Prog.call e) (funext ih)

@[simp] lemma translate_bind {E' : Type} {R' : E' → Type} (f : (e : E) → Prog E' R' (R e)) (p : Prog E R α)
    (g : α → Prog E R β) : (p >>= g).translate f = p.translate f >>= fun a => (g a).translate f := by
  induction p with
  | ret a => rfl
  | call e k ih =>
    change (f e >>= fun r => (k r >>= g).translate f) = (f e >>= fun r => (k r).translate f) >>= _
    simp only [ih, bind_bind]

lemma All.shown {P : E ⊕ H → Prop} {p : Prog E R α} (h : p.All fun e => P (.inl e)) :
    (p.shown : Prog (E ⊕ H) (Sum.elim R Q) α).All P := by
  induction p with
  | ret a => trivial
  | call e k ih => exact ⟨h.1, fun r => ih r (h.2 r)⟩

lemma All.translate_of {E' : Type} {R' : E' → Type} {P₀ : E → Prop} {P : E' → Prop}
    {f : (e : E) → Prog E' R' (R e)} {p : Prog E R α} (hp : p.All P₀) (h : ∀ e, P₀ e → (f e).All P) :
    (p.translate f).All P := by
  induction p with
  | ret a => trivial
  | call e k ih => exact (h e hp.1).bind fun r => ih r (hp.2 r)

lemma All.translate {E' : Type} {R' : E' → Type} {P : E' → Prop} {f : (e : E) → Prog E' R' (R e)}
    (h : ∀ e, (f e).All P) (p : Prog E R α) : (p.translate f).All P :=
  All.translate_of (All.of_forall (P := fun _ => True) (fun _ => trivial) p) fun e _ => h e

/-- All calls are hidden. -/
def Hidden (p : Prog (E ⊕ H) (Sum.elim R Q) α) : Prop := p.All fun e => e.isRight = true

end Prog

namespace Discipline
variable {Y : System (ι ⊕ κ) (E ⊕ H) (Sum.elim R Q) S α} {D : Discipline Y} {i : ι} {A : S → Prop}

/-- The threads of a system with their visible calls only. -/
def visible (Y : System (ι ⊕ κ) (E ⊕ H) (Sum.elim R Q) S α) : System ι E R S α where
  exec i e := Y.exec (.inl i) (.inl e)
  env _ _ := False
  body _ _ := False

/-- A proof plan, for the visible calls. -/
def onVisible (D : Discipline Y) : Discipline (visible Y) where
  inv := D.inv
  perm i s e := D.perm (.inl i) s (.inl e)
  rely i := D.rely (.inl i)
  inv_call := D.inv_call
  rely_call hne := D.rely_call fun h => hne (Sum.inl.inj h)
  inv_env _ := False.elim
  rely_env _ _ := False.elim

lemma Safe.shown {p : Prog E R β} {B : β → S → Prop} {s : S} (h : D.onVisible.Safe i p B s) :
    D.Safe (.inl i) p.shown B s := by
  induction p generalizing s with
  | ret b => exact h
  | call e k ih =>
    intro s' hr
    obtain ⟨hperm, hk⟩ := h s' hr
    exact ⟨hperm, fun r s'' hexec => ih r (hk r s'' hexec)⟩

/-- A program without hidden calls is verified without them. -/
lemma Triple.shown {p : Prog E R β} {B : β → S → Prop} (h : D.onVisible.Triple i A p B) :
    D.Triple (.inl i) A p.shown B :=
  fun s hs hA => (h s hs hA).shown

end Discipline

/-- What a system sees of another one. -/
structure View {Y : System (ι ⊕ κ) (E ⊕ H) (Sum.elim R Q) S α} (D : Discipline Y)
    (Z : System ι E R T α) where
  see : S → T
  exec : ∀ {i e s r s'}, Y.exec (.inl i) (.inl e) s r s' → Z.exec i e (see s) r (see s')
  hidden : ∀ {i h s r s'}, D.perm (.inl i) s (.inr h) → Y.exec (.inl i) (.inr h) s r s' → see s' = see s
  service : ∀ {j e s r s'}, D.perm (.inr j) s e → Y.exec (.inr j) e s r s' →
    see s' = see s ∨ ∀ a : Config ι E R T α, a.state = see s → Z.env a (see s')
  env : ∀ {c s'}, Y.env c s' →
    see s' = see c.state ∨ ∀ a : Config ι E R T α, a.state = see c.state → Z.env a (see s')

namespace View
variable {Y : System (ι ⊕ κ) (E ⊕ H) (Sum.elim R Q) S α} {D : Discipline Y} {Z : System ι E R T α}
  {V : View D Z} {i : ι} {A : S → Prop}

/-- From `s` on, the program issues the visible calls of `t`; without `t`, those of some body, once it
issues one. -/
def Shows (V : View D Z) (i : ι) :
    Prog (E ⊕ H) (Sum.elim R Q) α → Option (Prog E R α) → S → Prop
  | .ret a, t, _ => t = none ∨ t = some (.ret a)
  | .call (.inl e) k, t, s => ∀ s', D.Rely (.inl i) s s' → ∃ k' : R e → Prog E R α,
      (t = some (.call e k') ∨ t = none ∧ Z.body i (.call e k')) ∧
      ∀ r s'', D.inv s'' → Y.exec (.inl i) (.inl e) s' r s'' → V.Shows i (k r) (some (k' r)) s''
  | .call (.inr h) k, t, s => ∀ s', D.Rely (.inl i) s s' →
      ∀ r s'', D.inv s'' → Y.exec (.inl i) (.inr h) s' r s'' → V.Shows i (k r) t s''

/-- The same from every state with the precondition. -/
def Tells (V : View D Z) (i : ι) (A : S → Prop) (p : Prog (E ⊕ H) (Sum.elim R Q) α)
    (t : Option (Prog E R α)) : Prop :=
  ∀ s, D.inv s → A s → V.Shows i p t s

/-- What a program shows does not change with the moves of the others. -/
lemma Shows.rely {p : Prog (E ⊕ H) (Sum.elim R Q) α} {t : Option (Prog E R α)} {s s' : S}
    (h : V.Shows i p t s) (hr : D.Rely (.inl i) s s') : V.Shows i p t s' := by
  cases p with
  | ret a => exact h
  | call e k =>
    cases e with
    | inl e => exact fun s'' h' => h s'' (hr.trans h')
    | inr e => exact fun s'' h' => h s'' (hr.trans h')

section Rules

/-- Return. -/
lemma Tells.ret {a : α} : V.Tells i A (.ret a) (some (.ret a)) := fun _ _ _ => .inr rfl

/-- A part without hidden calls, that keeps an assertion about what is hidden. -/
lemma Tells.shown_bind {q : Prog E R β} {f : β → Prog (E ⊕ H) (Sum.elim R Q) α} {g : β → Prog E R α}
    (hA : D.Stable (.inl i) A)
    (hcall : ∀ s e r s', D.inv s → D.inv s' → Y.exec (.inl i) (.inl e) s r s' → A s → A s')
    (h : ∀ b, V.Tells i A (f b) (some (g b))) : V.Tells i A (q.shown >>= f) (some (q >>= g)) := by
  induction q with
  | ret b => exact h b
  | call e k ih =>
    intro s hs hAs s' hr
    refine ⟨fun r => k r >>= g, .inl rfl, fun r s'' hs'' hexec => ?_⟩
    exact ih r s'' hs'' (hcall s' e r s'' (hr.inv hs) hs'' hexec (hA.rely hr hAs))

/-- A program without hidden calls shows itself. -/
lemma Tells.shown {q : Prog E R α} : V.Tells i (fun _ => True) q.shown (some q) := by
  induction q with
  | ret a => exact .ret
  | call e k ih => exact fun s hs _ s' hr => ⟨k, .inl rfl, fun r s'' hs'' _ => ih r s'' hs'' trivial⟩

/-- A part with hidden calls only. -/
lemma Tells.hidden_bind {q : Prog (E ⊕ H) (Sum.elim R Q) β} {B : β → S → Prop}
    {f : β → Prog (E ⊕ H) (Sum.elim R Q) α} {t : Option (Prog E R α)} (hidden : q.Hidden)
    (hq : D.Triple (.inl i) A q B) (h : ∀ b, V.Tells i (B b) (f b) t) : V.Tells i A (q >>= f) t := by
  have key : ∀ (q : Prog (E ⊕ H) (Sum.elim R Q) β), q.Hidden → ∀ s, D.inv s →
      D.Safe (.inl i) q B s → V.Shows i (q >>= f) t s := by
    intro q
    induction q with
    | ret b => exact fun _ s hs hsafe => h b s hs (hsafe s .refl)
    | call e k ih =>
      intro hidden s hs hsafe
      cases e with
      | inl e => cases hidden.1
      | inr e =>
        intro s' hr r s'' hs'' hexec
        exact ih r (hidden.2 r) s'' hs'' ((hsafe s' hr).2 r s'' hexec)
  exact fun s hs hAs => key q hidden s hs (hq s hs hAs)

/-- What is shown may be chosen as late as the first visible call. -/
lemma Tells.start {e : E} {k : R e → Prog (E ⊕ H) (Sum.elim R Q) α} {q : Prog E R α} (hbody : Z.body i q)
    (h : V.Tells i A (.call (.inl e) k) (some q)) : V.Tells i A (.call (.inl e) k) none := by
  intro s hs hAs s' hr
  obtain ⟨k', hk', hrest⟩ := h s hs hAs s' hr
  rcases hk' with hk' | ⟨hk', -⟩
  · exact ⟨k', .inr ⟨rfl, Option.some.inj hk' ▸ hbody⟩, hrest⟩
  · cases hk'

/-- A body without hidden calls. -/
lemma Tells.body {q : Prog E R α} (hbody : Z.body i q) : V.Tells i (fun _ => True) q.shown none := by
  cases q with
  | ret a => exact fun _ _ _ => .inl rfl
  | call e k => exact Tells.start hbody (Tells.shown (q := .call e k))

lemma Tells.pre {B : S → Prop} {p : Prog (E ⊕ H) (Sum.elim R Q) α} {t : Option (Prog E R α)}
    (h : V.Tells i B p t) (hpre : ∀ s, D.inv s → A s → B s) : V.Tells i A p t :=
  fun s hs hAs => h s hs (hpre s hs hAs)

/-- A pure conjunct of the precondition can be moved to the context. -/
lemma Tells.of_pure {P : Prop} {p : Prog (E ⊕ H) (Sum.elim R Q) α} {t : Option (Prog E R α)}
    (h : P → V.Tells i A p t) : V.Tells i (fun s => P ∧ A s) p t :=
  fun s hs hAs => h hAs.1 s hs hAs.2

/-- What the precondition says to exist can be named. -/
lemma Tells.of_exists {δ : Type} {A : δ → S → Prop} {p : Prog (E ⊕ H) (Sum.elim R Q) α}
    {t : Option (Prog E R α)} (h : ∀ x, V.Tells i (A x) p t) : V.Tells i (fun s => ∃ x, A x s) p t :=
  fun s hs ⟨x, hAs⟩ => h x s hs hAs

end Rules

variable [DecidableEq ι]

/-- The configuration of `Y` is seen as that of `Z`. -/
structure Mirrors (V : View D Z) (c : Config (ι ⊕ κ) (E ⊕ H) (Sum.elim R Q) S α)
    (a : Config ι E R T α) : Prop where
  state : a.state = V.see c.state
  idle : ∀ {i}, c.threads (.inl i) = none → a.threads i = none
  shows : ∀ {i p}, c.threads (.inl i) = some p → V.Shows i p (a.threads i) c.state

section Steps
variable {c : Config (ι ⊕ κ) (E ⊕ H) (Sum.elim R Q) S α} {a : Config ι E R T α} {s' : S}

/-- A move that no thread of `Z` makes, and that all of them rely upon. -/
lemma Mirrors.others (h : V.Mirrors c a)
    (hrely : ∀ {i p}, c.threads (.inl i) = some p → D.Rely (.inl i) c.state s')
    (hsee : V.see s' = V.see c.state ∨ ∀ a : Config ι E R T α, a.state = V.see c.state → Z.env a (V.see s'))
    {threads : ι ⊕ κ → Option (Prog (E ⊕ H) (Sum.elim R Q) α)}
    (hthreads : ∀ i, threads (.inl i) = c.threads (.inl i)) :
    ∃ a', Z.Run a a' ∧ V.Mirrors ⟨s', threads⟩ a' := by
  have hshow : ∀ {i p}, threads (.inl i) = some p → V.Shows i p (a.threads i) s' := by
    intro i p hp
    rw [hthreads] at hp
    exact (h.shows hp).rely (hrely hp)
  have hidle : ∀ {i}, threads (.inl i) = none → a.threads i = none := fun hp => h.idle (hthreads _ ▸ hp)
  rcases hsee with hsame | henv
  · exact ⟨a, .refl, h.state.trans hsame.symm, hidle, hshow⟩
  · exact ⟨{ a with state := V.see s' }, .single (.env (henv a h.state)), rfl, hidle, hshow⟩

variable [DecidableEq κ]

/-- The move of a thread: what it shows from now on, with the others as they were. -/
lemma Mirrors.update (h : V.Mirrors c a) {i : ι} {p : Prog (E ⊕ H) (Sum.elim R Q) α}
    {t : ι → Option (Prog E R α)} (hthreads : ∀ j, j ≠ i → t j = a.threads j)
    (hrely : ∀ {j q}, j ≠ i → c.threads (.inl j) = some q → D.Rely (.inl j) c.state s')
    (hshow : V.Shows i p (t i) s') :
    V.Mirrors ⟨s', Function.update c.threads (.inl i) (some p)⟩ ⟨V.see s', t⟩ := by
  refine ⟨rfl, fun {j} hj => ?_, fun {j q} hj => ?_⟩
  · by_cases e : j = i
    · subst e
      simp at hj
    · simp only [Function.update_of_ne (fun h' => e (Sum.inl.inj h'))] at hj
      exact (hthreads j e).trans (h.idle hj)
  · by_cases e : j = i
    · subst e
      simp only [Function.update_self, Option.some.injEq] at hj
      subst hj
      exact hshow
    · simp only [Function.update_of_ne (fun h' => e (Sum.inl.inj h'))] at hj
      change V.Shows j q (t j) s'
      rw [hthreads j e]
      exact (h.shows hj).rely (hrely e hj)

/-- One move of `Y` is seen as moves of `Z`. -/
theorem Mirrors.step {P : ι ⊕ κ → α → S → Prop} {c' : Config (ι ⊕ κ) (E ⊕ H) (Sum.elim R Q) S α}
    (h : V.Mirrors c a) (hok : D.OkWith P c) (hshows : ∀ i p, Y.body (.inl i) p → V.Tells i (fun _ => True) p none)
    (st : Y.Step c c') : ∃ a', Z.Run a a' ∧ V.Mirrors c' a' := by
  cases st with
  | @env s henv =>
    have hs := D.inv_env hok.1 henv
    refine h.others (fun hp => .single ⟨hok.1, D.rely_env hp hok.1 henv, hs⟩) (V.env henv) fun i => rfl
  | @start i p hidle hbody =>
    cases i with
    | inr j => exact h.others (fun _ => .refl) (.inl rfl) fun i => by simp
    | inl i =>
      refine ⟨a, .refl, ?_⟩
      have hshow := h.update (i := i) (p := p) (t := a.threads) (fun _ _ => rfl) (fun _ _ => .refl)
        (by rw [h.idle hidle]; exact hshows i p hbody c.state hok.1 trivial)
      rw [← h.state] at hshow
      exact hshow
  | @call i e k r s hrun hexec =>
    have hperm := hok.perm hrun
    have hs := D.inv_call hok.1 hperm hexec
    have hrely : ∀ {j}, i ≠ j → D.Rely j c.state s :=
      fun hne => .single ⟨hok.1, D.rely_call hne hok.1 hperm hexec, hs⟩
    cases i with
    | inr j => exact h.others (fun _ => hrely nofun) (V.service hperm hexec) fun i => by simp
    | inl i =>
      have hothers : ∀ {j q}, j ≠ i → c.threads (.inl j) = some q → D.Rely (.inl j) c.state s :=
        fun hne _ => hrely fun h' => hne (Sum.inl.inj h').symm
      have hshow := h.shows hrun
      cases e with
      | inr e =>
        refine ⟨a, .refl, ?_⟩
        have hmir := h.update (t := a.threads) (fun _ _ => rfl) hothers
          (hshow c.state .refl r s hs hexec)
        rw [V.hidden hperm hexec, ← h.state] at hmir
        exact hmir
      | inl e =>
        obtain ⟨k', hk', hrest⟩ := hshow c.state .refl
        -- the thread of `Z` has been started, or is started now
        have hstarted : ∃ a', Z.Run a a' ∧ a'.state = a.state ∧ a'.threads i = some (.call e k') ∧
            ∀ j, j ≠ i → a'.threads j = a.threads j := by
          rcases hk' with hk' | ⟨hk', hbody⟩
          · exact ⟨a, .refl, rfl, hk', fun _ _ => rfl⟩
          · exact ⟨_, .single (.start hk' hbody), rfl, by simp, fun j hj => Function.update_of_ne hj _ _⟩
        obtain ⟨a', hrun', hstate', hi, hother⟩ := hstarted
        have hexec' : Z.exec i e a'.state r (V.see s) := by
          rw [hstate', h.state]
          exact V.exec hexec
        refine ⟨_, hrun'.trans (.single (.call hi hexec')), ?_⟩
        refine h.update (fun j hj => ?_) hothers ?_
        · rw [Function.update_of_ne hj, hother j hj]
        · rw [Function.update_self]
          exact hrest r s hs hexec
  | @finish i b hdone =>
    cases i with
    | inr j => exact h.others (fun _ => .refl) (.inl rfl) fun i => by simp
    | inl i =>
      have hfinished : ∃ a', Z.Run a a' ∧ a'.state = a.state ∧ a'.threads i = none ∧
          ∀ j, j ≠ i → a'.threads j = a.threads j := by
        rcases h.shows hdone with hnone | hret
        · exact ⟨a, .refl, rfl, hnone, fun _ _ => rfl⟩
        · exact ⟨_, .single (.finish hret), rfl, by simp, fun j hj => Function.update_of_ne hj _ _⟩
      obtain ⟨a', hrun', hstate', hi, hother⟩ := hfinished
      refine ⟨a', hrun', hstate'.trans h.state, fun {j} hj => ?_, fun {j q} hj => ?_⟩
      · by_cases e : j = i
        · rw [e, hi]
        · simp only [Function.update_of_ne (fun h' => e (Sum.inl.inj h'))] at hj
          exact (hother j e).trans (h.idle hj)
      · by_cases e : j = i
        · subst e
          simp at hj
        · simp only [Function.update_of_ne (fun h' => e (Sum.inl.inj h'))] at hj
          rw [hother j e]
          exact h.shows hj

/-- Every run of `Y` is seen as a run of `Z`. -/
theorem run_mirrored {P : ι ⊕ κ → α → S → Prop} {c' : Config (ι ⊕ κ) (E ⊕ H) (Sum.elim R Q) S α}
    (hbody : ∀ i p, Y.body i p → D.Triple i (fun _ => True) p (P i))
    (hshows : ∀ i p, Y.body (.inl i) p → V.Tells i (fun _ => True) p none)
    (hok : D.OkWith P c) (h : V.Mirrors c a) (run : Y.Run c c') : ∃ a', Z.Run a a' ∧ V.Mirrors c' a' := by
  induction run with
  | refl => exact ⟨a, .refl, h⟩
  | tail run st ih =>
    obtain ⟨a₁, hrun₁, hmir₁⟩ := ih
    obtain ⟨a₂, hrun₂, hmir₂⟩ := hmir₁.step (Discipline.soundWith hbody hok run) hshows st
    exact ⟨a₂, hrun₁.trans hrun₂, hmir₂⟩

end Steps
end View
end MaintenanceOperator.Lib
