import MaintenanceOperator.Lib.Script

/-!
# Turns of a thread

How far a system gets, measured by how often one of its threads has come to the end of a body
(`System.Turns`). A `Ladder` is a list of levels that the state climbs with that thread: the other moves
keep the level, and a body started on one level ends on the next. After `n` turns the state is on level
`n` (`Ladder.climb`). Turns can be played, too (`Player.turns_of_rounds`).
-/

namespace MaintenanceOperator.Lib

variable {ι E S α : Type} {R : E → Type} [DecidableEq ι]

/-- The move ends the body of a thread. -/
def Ends (i : ι) (c c' : Config ι E R S α) : Prop := (c.threads i).isSome = true ∧ c'.threads i = none

/-- Runs in which a thread comes to an end `n` times. -/
inductive System.Turns (Y : System ι E R S α) (i : ι) (c : Config ι E R S α) :
    Nat → Config ι E R S α → Prop where
  | refl : Turns Y i c 0 c
  | other {n c₁ c₂} : Turns Y i c n c₁ → Y.Step c₁ c₂ → ¬ Ends i c₁ c₂ → Turns Y i c n c₂
  | ends {n c₁ c₂} : Turns Y i c n c₁ → Y.Step c₁ c₂ → Ends i c₁ c₂ → Turns Y i c (n + 1) c₂

/-- Levels of the state that thread `i` climbs. -/
structure Ladder {Y : System ι E R S α} (D : Discipline Y) (i : ι) (L : Nat → S → Prop) : Prop where
  env : ∀ {n c s'}, D.inv c.state → Y.env c s' → L n c.state → L n s'
  others : ∀ {n j e s r s'}, j ≠ i → D.inv s → D.perm j s e → Y.exec j e s r s' → L n s → L n s'
  body : ∀ {n p}, Y.body i p → D.Triple i (L n) p fun _ => L (n + 1)
  bodies : ∀ {j p}, j ≠ i → Y.body j p → D.Triple j (fun _ => True) p fun _ _ => True

namespace Ladder
variable {Y : System ι E R S α} {D : Discipline Y} {i : ι} {L : Nat → S → Prop} {c c' : Config ι E R S α}
  {n : Nat}

/-- The thread is about to be on a level, or is on its way to the next one. -/
structure On (D : Discipline Y) (i : ι) (L : Nat → S → Prop) (n : Nat) (c : Config ι E R S α) : Prop where
  inv : D.inv c.state
  others : ∀ j p, j ≠ i → c.threads j = some p → D.Safe j p (fun _ _ => True) c.state
  idle : c.threads i = none → L n c.state
  running : ∀ p, c.threads i = some p → D.Safe i p (fun _ => L (n + 1)) c.state

/-- A move that is not the end of a body keeps the level. -/
lemma On.other (H : Ladder D i L) (h : On D i L n c) (st : Y.Step c c') (hne : ¬ Ends i c c') :
    On D i L n c' := by
  cases st with
  | @env s henv =>
    have hs := D.inv_env h.inv henv
    refine ⟨hs, fun j p hj ht => ?_, fun ht => H.env h.inv henv (h.idle ht), fun p ht => ?_⟩
    · exact (h.others j p hj ht).rely (.single ⟨h.inv, D.rely_env ht h.inv henv, hs⟩)
    · exact (h.running p ht).rely (.single ⟨h.inv, D.rely_env ht h.inv henv, hs⟩)
  | @start j p hidle hbody =>
    by_cases e : j = i
    · subst e
      refine ⟨h.inv, fun k q hk ht => ?_, fun ht => ?_, fun q ht => ?_⟩
      · simp only [Function.update_of_ne hk] at ht
        exact h.others k q hk ht
      · simp at ht
      · simp only [Function.update_self, Option.some.injEq] at ht
        subst ht
        exact H.body hbody c.state h.inv (h.idle hidle)
    · refine ⟨h.inv, fun k q hk ht => ?_, fun ht => ?_, fun q ht => ?_⟩
      · by_cases e' : k = j
        · subst e'
          simp only [Function.update_self, Option.some.injEq] at ht
          subst ht
          exact H.bodies hk hbody c.state h.inv trivial
        · simp only [Function.update_of_ne e'] at ht
          exact h.others k q hk ht
      · simp only [Function.update_of_ne (Ne.symm e)] at ht
        exact h.idle ht
      · simp only [Function.update_of_ne (Ne.symm e)] at ht
        exact h.running q ht
  | @call j e k r s hrun hexec =>
    have hsafe : D.perm j c.state e := by
      by_cases e' : j = i
      · subst e'
        exact (h.running _ hrun c.state .refl).1
      · exact (h.others j _ e' hrun c.state .refl).1
    have hs := D.inv_call h.inv hsafe hexec
    have hrely : ∀ {m}, j ≠ m → D.Rely m c.state s :=
      fun hne => .single ⟨h.inv, D.rely_call hne h.inv hsafe hexec, hs⟩
    by_cases e' : j = i
    · subst e'
      refine ⟨hs, fun m q hm ht => ?_, fun ht => ?_, fun q ht => ?_⟩
      · simp only [Function.update_of_ne hm] at ht
        exact (h.others m q hm ht).rely (hrely (Ne.symm hm))
      · simp at ht
      · simp only [Function.update_self, Option.some.injEq] at ht
        subst ht
        exact (h.running _ hrun c.state .refl).2 r s hexec
    · refine ⟨hs, fun m q hm ht => ?_, fun ht => ?_, fun q ht => ?_⟩
      · by_cases e'' : m = j
        · subst e''
          simp only [Function.update_self, Option.some.injEq] at ht
          subst ht
          exact (h.others _ _ hm hrun c.state .refl).2 r s hexec
        · simp only [Function.update_of_ne e''] at ht
          exact (h.others m q hm ht).rely (hrely (Ne.symm e''))
      · simp only [Function.update_of_ne (Ne.symm e')] at ht
        exact H.others e' h.inv hsafe hexec (h.idle ht)
      · simp only [Function.update_of_ne (Ne.symm e')] at ht
        exact (h.running q ht).rely (hrely e')
  | @finish j a hdone =>
    by_cases e : j = i
    · subst e
      refine (hne ⟨?_, ?_⟩).elim
      · rw [hdone]
        rfl
      · simp
    · refine ⟨h.inv, fun m q hm ht => ?_, fun ht => ?_, fun q ht => ?_⟩
      · by_cases e' : m = j
        · subst e'
          simp at ht
        · simp only [Function.update_of_ne e'] at ht
          exact h.others m q hm ht
      · simp only [Function.update_of_ne (Ne.symm e)] at ht
        exact h.idle ht
      · simp only [Function.update_of_ne (Ne.symm e)] at ht
        exact h.running q ht

/-- The end of a body is on the next level. -/
lemma On.ends (h : On D i L n c) (st : Y.Step c c') (he : Ends i c c') : On D i L (n + 1) c' := by
  obtain ⟨hsome, hnone⟩ := he
  cases st with
  | env _ =>
    change c.threads i = none at hnone
    rw [hnone] at hsome
    cases hsome
  | @start j p hidle _ =>
    by_cases e : i = j
    · subst e
      rw [hidle] at hsome
      cases hsome
    · simp only [Function.update_of_ne e] at hnone
      rw [hnone] at hsome
      cases hsome
  | @call j _ k r _ _ _ =>
    by_cases e : i = j
    · subst e
      simp at hnone
    · simp only [Function.update_of_ne e] at hnone
      rw [hnone] at hsome
      cases hsome
  | @finish j a hdone =>
    by_cases e : i = j
    · subst e
      refine ⟨h.inv, fun m q hm ht => ?_, fun _ => h.running _ hdone c.state .refl, fun q ht => ?_⟩
      · simp only [Function.update_of_ne hm] at ht
        exact h.others m q hm ht
      · simp at ht
    · simp only [Function.update_of_ne e] at hnone
      rw [hnone] at hsome
      cases hsome

/-- After `n` turns, the state is on level `n`. -/
theorem climb (H : Ladder D i L) (hinv : D.inv c.state) (hidle : ∀ j, c.threads j = none) (h : L 0 c.state)
    (turns : Y.Turns i c n c') (hend : c'.threads i = none) : L n c'.state := by
  have hon : On D i L n c' := by
    clear hend
    induction turns with
    | refl =>
      refine ⟨hinv, fun j p _ ht => ?_, fun _ => h, fun p ht => ?_⟩
      · rw [hidle j] at ht
        cases ht
      · rw [hidle i] at ht
        cases ht
    | other _ st hne ih => exact ih.other H st hne
    | ends _ st he ih => exact ih.ends st he
  exact hon.idle hend

end Ladder

/-! ### Turns that are played -/

section Played
variable {Y : System ι E R S α} {V : Type} {P : Player Y V} {i : ι} {c c₁ c' : Config ι E R S α} {n k : Nat}

lemma System.Turns.trans (h : Y.Turns i c n c₁) (h' : Y.Turns i c₁ k c') : Y.Turns i c (n + k) c' := by
  induction h' with
  | refl => exact h
  | other _ st hne ih => exact ih.other st hne
  | ends _ st he ih => exact ih.ends st he

namespace Player

lemma turns_of_call (h : P.call i c = some c') : Y.Turns i c 0 c' := by
  refine .other .refl (step_of_call h) fun he => ?_
  unfold call at h
  split at h
  · obtain ⟨rs, -, rfl⟩ := Option.map_eq_some_iff.mp h
    have hnone := he.2
    simp at hnone
  · cases h

lemma turns_of_finish (h : P.finish i n c = some c') : Y.Turns i c 1 c' := by
  induction n generalizing c with
  | zero => cases h
  | succ n ih =>
    rw [finish] at h
    split at h
    · rename_i a hret
      cases h
      refine .ends .refl (.finish hret) ⟨?_, ?_⟩
      · rw [hret]
        rfl
      · simp
    · obtain ⟨c₁, hc₁, hrest⟩ := Option.bind_eq_some_iff.mp h
      exact (turns_of_call hc₁).trans (ih hrest)

/-- A body of a thread, from its start to its end. -/
def round (P : Player Y V) (i : ι) (fuel : Nat) (c : Config ι E R S α) : Option (Config ι E R S α) :=
  P.play [.start i, .finish i fuel] c

lemma turns_of_round (h : P.round i k c = some c') : Y.Turns i c 1 c' := by
  obtain ⟨c₁, hstart, hrest⟩ := Option.bind_eq_some_iff.mp h
  obtain ⟨c₂, hfinish, hend⟩ := Option.bind_eq_some_iff.mp hrest
  cases hend
  refine (System.Turns.trans (n := 0) ?_ (turns_of_finish hfinish))
  simp only [move] at hstart
  split at hstart
  · rename_i p hidle hprogram
    cases hstart
    refine .other .refl (.start hidle (P.body hprogram)) fun he => ?_
    have hnone := he.2
    simp at hnone
  · cases hstart

/-- Bodies of a thread, one after the other. -/
def rounds (P : Player Y V) (i : ι) (fuel : Nat) : Nat → Config ι E R S α → Option (Config ι E R S α)
  | 0, c => some c
  | n + 1, c => (P.round i fuel c).bind (P.rounds i fuel n)

/-- Each of them is a turn. -/
theorem turns_of_rounds (h : P.rounds i k n c = some c') : Y.Turns i c n c' := by
  induction n generalizing c with
  | zero =>
    cases h
    exact .refl
  | succ n ih =>
    obtain ⟨c₁, hc₁, hrest⟩ := Option.bind_eq_some_iff.mp h
    rw [Nat.add_comm]
    exact (turns_of_round hc₁).trans (ih hrest)

lemma turns_of_event {v : V} (h : P.move c (.event v) = some c') : Y.Turns i c 0 c' := by
  obtain ⟨s, hs, rfl⟩ := Option.map_eq_some_iff.mp h
  refine .other .refl (.env (P.env hs)) fun he => ?_
  have hsome := he.1
  rw [show c.threads i = none from he.2] at hsome
  cases hsome

end Player
end Played
end MaintenanceOperator.Lib
