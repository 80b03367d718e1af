import MaintenanceOperator.Lib.System

/-!
# Playing a system

A `Player` resolves the choices of a system: which program an idle thread starts, how a call is
answered, and what an event of the environment does. A script of moves can then be executed, and what
it leads to is reached by a run of the system (`Player.run_of_play`).
-/

namespace MaintenanceOperator.Lib
open Relation

variable {ι E S α V : Type} {R : E → Type} [DecidableEq ι]

/-- A way to resolve the choices of a system; `V` are the events it knows. -/
structure Player (Y : System ι E R S α) (V : Type) where
  program : ι → Option (Prog E R α)
  body : ∀ {i p}, program i = some p → Y.body i p
  answer : ι → (e : E) → S → Option (R e × S)
  exec : ∀ {i e s r s'}, answer i e s = some (r, s') → Y.exec i e s r s'
  event : V → S → Option S
  env : ∀ {v c s'}, event v c.state = some s' → Y.env c s'

/-- Moves of a script: an event; the start of a thread; some of its calls; all that is left of it. -/
inductive Move (ι V : Type) where
  | event (v : V)
  | start (i : ι)
  | calls (i : ι) (n : Nat)
  | finish (i : ι) (fuel : Nat)

namespace Player
variable {Y : System ι E R S α}

/-- One call of a thread. -/
def call (P : Player Y V) (i : ι) (c : Config ι E R S α) : Option (Config ι E R S α) :=
  match c.threads i with
  | some (.call e k) => (P.answer i e c.state).map fun rs =>
      ⟨rs.2, Function.update c.threads i (some (k rs.1))⟩
  | _ => none

/-- A number of calls of a thread. -/
def calls (P : Player Y V) (i : ι) : Nat → Config ι E R S α → Option (Config ι E R S α)
  | 0, c => some c
  | n + 1, c => (P.call i c).bind (P.calls i n)

/-- All that is left of a thread. -/
def finish (P : Player Y V) (i : ι) : Nat → Config ι E R S α → Option (Config ι E R S α)
  | 0, _ => none
  | n + 1, c =>
    match c.threads i with
    | some (.ret _) => some { c with threads := Function.update c.threads i none }
    | _ => (P.call i c).bind (P.finish i n)

/-- One move. -/
def move (P : Player Y V) (c : Config ι E R S α) : Move ι V → Option (Config ι E R S α)
  | .event v => (P.event v c.state).map fun s => { c with state := s }
  | .start i =>
    match c.threads i, P.program i with
    | none, some p => some { c with threads := Function.update c.threads i (some p) }
    | _, _ => none
  | .calls i n => P.calls i n c
  | .finish i fuel => P.finish i fuel c

/-- A script. -/
def play (P : Player Y V) : List (Move ι V) → Config ι E R S α → Option (Config ι E R S α)
  | [], c => some c
  | m :: ms, c => (P.move c m).bind (P.play ms)

variable {P : Player Y V} {c c' : Config ι E R S α}

lemma step_of_call {i : ι} (h : P.call i c = some c') : Y.Step c c' := by
  unfold call at h
  split at h
  · rename_i e k hrun
    obtain ⟨⟨r, s⟩, hans, rfl⟩ := Option.map_eq_some_iff.mp h
    exact .call hrun (P.exec hans)
  · cases h

lemma run_of_calls {i : ι} {n : Nat} (h : P.calls i n c = some c') : Y.Run c c' := by
  induction n generalizing c with
  | zero =>
    cases h
    exact .refl
  | succ n ih =>
    obtain ⟨c₁, hc₁, hrest⟩ := Option.bind_eq_some_iff.mp h
    exact .head (step_of_call hc₁) (ih hrest)

lemma run_of_finish {i : ι} {n : Nat} (h : P.finish i n c = some c') : Y.Run c c' := by
  induction n generalizing c with
  | zero => cases h
  | succ n ih =>
    rw [finish] at h
    split at h
    · rename_i a hret
      cases h
      exact .single (.finish hret)
    · obtain ⟨c₁, hc₁, hrest⟩ := Option.bind_eq_some_iff.mp h
      exact .head (step_of_call hc₁) (ih hrest)

lemma run_of_move {m : Move ι V} (h : P.move c m = some c') : Y.Run c c' := by
  cases m with
  | event v =>
    obtain ⟨s, hs, rfl⟩ := Option.map_eq_some_iff.mp h
    exact .single (.env (P.env hs))
  | start i =>
    simp only [move] at h
    split at h
    · rename_i p hidle hprogram
      cases h
      exact .single (.start hidle (P.body hprogram))
    · cases h
  | calls i n => exact run_of_calls h
  | finish i fuel => exact run_of_finish h

/-- A script that can be played to its end is a run of the system. -/
theorem run_of_play {ms : List (Move ι V)} (h : P.play ms c = some c') : Y.Run c c' := by
  induction ms generalizing c with
  | nil =>
    cases h
    exact .refl
  | cons m ms ih =>
    obtain ⟨c₁, hc₁, hrest⟩ := Option.bind_eq_some_iff.mp h
    exact ReflTransGen.trans (run_of_move hc₁) (ih hrest)

/-- What a script reaches. -/
lemma exists_run_of_play (P : Player Y V) (ms : List (Move ι V)) (c : Config ι E R S α)
    (p : Config ι E R S α → Bool) (h : (P.play ms c).any p = true) :
    ∃ c', Y.Run c c' ∧ p c' = true := by
  obtain ⟨c', hc', hp⟩ := (Option.any_eq_true _ _).mp h
  exact ⟨c', run_of_play hc', hp⟩

/-- Scripts of several players, one after the other. -/
def relay : List (Player Y V × List (Move ι V)) → Config ι E R S α → Option (Config ι E R S α)
  | [], c => some c
  | part :: parts, c => (part.1.play part.2 c).bind (relay parts)

lemma run_of_relay {parts : List (Player Y V × List (Move ι V))} (h : relay parts c = some c') :
    Y.Run c c' := by
  induction parts generalizing c with
  | nil =>
    cases h
    exact .refl
  | cons part parts ih =>
    obtain ⟨c₁, hc₁, hrest⟩ := Option.bind_eq_some_iff.mp h
    exact ReflTransGen.trans (run_of_play hc₁) (ih hrest)

/-- What they reach. -/
lemma exists_run_of_relay (parts : List (Player Y V × List (Move ι V))) (c : Config ι E R S α)
    (p : Config ι E R S α → Bool) (h : (relay parts c).any p = true) :
    ∃ c', Y.Run c c' ∧ p c' = true := by
  obtain ⟨c', hc', hp⟩ := (Option.any_eq_true _ _).mp h
  exact ⟨c', run_of_relay hc', hp⟩

/-- What one more call of a thread does after a script. -/
lemma exists_step_of_play (P : Player Y V) (ms : List (Move ι V)) (i : ι) (c : Config ι E R S α)
    (p : Config ι E R S α → Config ι E R S α → Bool)
    (h : (P.play ms c).any (fun c₁ => (P.call i c₁).any (p c₁)) = true) :
    ∃ c₁ c₂, Y.Run c c₁ ∧ Y.Step c₁ c₂ ∧ p c₁ c₂ = true := by
  obtain ⟨c₁, hc₁, h₁⟩ := (Option.any_eq_true _ _).mp h
  obtain ⟨c₂, hc₂, hp⟩ := (Option.any_eq_true _ _).mp h₁
  exact ⟨c₁, c₂, run_of_play hc₁, step_of_call hc₂, hp⟩

end Player
end MaintenanceOperator.Lib
