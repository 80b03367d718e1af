import MaintenanceOperator.Controller.Host

/-!
# The way through PauseMCP and UnpauseMCP

The calls that `PauseMCP` and `UnpauseMCP` make on a pool, in any system and for any proof plan. What
remains for a plan is to say what each single call needs and leaves behind.
-/

namespace MaintenanceOperator
open Lib Discipline

namespace MachineConfigPool

/-- The paused flag and the operator's annotation. -/
def flags (p : MachineConfigPool) : Bool × Option String :=
  (p.paused, p.annotations.get? mcpPausedAnnotKey)

lemma paused_of_flags {p p' : MachineConfigPool} (h : p.flags = p'.flags) : p.paused = p'.paused :=
  congrArg Prod.fst h

lemma annotated_of_flags {p p' : MachineConfigPool} (h : p.flags = p'.flags) :
    p.annotated = p'.annotated :=
  congrArg (fun f : Bool × Option String => f.2.isSome) h

lemma pausedByOperator_of_flags {p p' : MachineConfigPool} (h : p.flags = p'.flags) :
    p.pausedByOperator = p'.pausedByOperator :=
  congrArg (fun f : Bool × Option String => decide (f.2 = some mcpPausedAnnotValue)) h

variable (p : MachineConfigPool) (pause : Bool)

@[simp] lemma name_patch : (p.patch pause).name = p.name := by cases pause <;> rfl

@[simp] lemma paused_patch : (p.patch pause).paused = pause := by cases pause <;> rfl

@[simp] lemma nodeSelector_patch : (p.patch pause).nodeSelector = p.nodeSelector := by
  cases pause <;> rfl

@[simp] lemma annotated_patch : (p.patch pause).annotated = pause := by
  cases pause with
  | true => simp [patch, annotated]
  | false => simp [patch, annotated]

@[simp] lemma pausedByOperator_patch : (p.patch pause).pausedByOperator = pause := by
  cases pause with
  | true => simp [patch, pausedByOperator]
  | false => simp [patch, pausedByOperator]

lemma annotated_of_pausedByOperator {p : MachineConfigPool} (h : p.pausedByOperator = true) :
    p.annotated = true := by
  have h : p.annotations.get? mcpPausedAnnotKey = some mcpPausedAnnotValue := by
    simpa [pausedByOperator] using h
  rw [annotated, h]
  rfl

end MachineConfigPool

/-- What the patch of a pool needs and does. -/
lemma World.patchPool_eq_some {w w' : World} {name : String} {pause : Bool} {a : MachineConfigPool}
    (h : w.patchPool name pause = some (a, w')) :
    ∃ p, w.pools.get name = some p ∧ a = p.patch pause ∧
      w' = { w with pools := w.pools.put (p.patch pause) } := by
  simp only [World.patchPool, Option.bind_eq_bind, Option.bind_eq_some_iff] at h
  obtain ⟨p, hp, h⟩ := h
  cases h
  exact ⟨p, hp, rfl, rfl⟩

/-- The pools after a patch. -/
lemma World.get_patchPool {w : World} {name name' : String} {pause : Bool} {p p' : MachineConfigPool}
    (hp : w.pools.get name = some p)
    (hp' : (w.pools.put (p.patch pause)).get name' = some p') :
    name' = name ∧ p' = p.patch pause ∨ name' ≠ name ∧ w.pools.get name' = some p' := by
  obtain rfl := Store.key_of_get hp
  by_cases e : name' = p.name
  · subst e
    rw [show p.name = (p.patch pause).name by simp, Store.get_put_self] at hp'
    exact .inl ⟨rfl, (Option.some.inj hp').symm⟩
  · rw [Store.get_put_ne (by simpa using e)] at hp'
    exact .inr ⟨e, hp'⟩

section Calls
variable {mode : ReadMode} {e : Op} {w w' : World} {a : Resp e} {name : String} {p p' : MachineConfigPool}

/-- A pool after a call is as it was before, or patched. -/
lemma Perform.pool_before (h : Perform mode e w a w') (hp' : w'.pools.get name = some p') :
    ∃ p, w.pools.get name = some p ∧
      (p' = p ∨ ∃ pause, e = .patchMachineConfigPool name pause ∧ p' = p.patch pause) := by
  by_cases he : e.part = .pools
  · cases e with
    | patchMachineConfigPool name₁ pause =>
      rcases WriteAnswer.effect h with rfl | ⟨q, hq⟩
      · exact ⟨p', hp', .inl rfl⟩
      · obtain ⟨p, hp, -, hw⟩ := World.patchPool_eq_some hq
        rw [hw] at hp'
        rcases World.get_patchPool hp hp' with ⟨rfl, rfl⟩ | ⟨-, hp'⟩
        · exact ⟨p, hp, .inr ⟨pause, rfl, rfl⟩⟩
        · exact ⟨p', hp', .inl rfl⟩
    | _ => cases he
  · rw [h.frame.pools he] at hp'
    exact ⟨p', hp', .inl rfl⟩

/-- A pool before a call is still there after it, as it was or patched. -/
lemma Perform.pool_after (h : Perform mode e w a w') (hp : w.pools.get name = some p) :
    w'.pools.get name = some p ∨
      ∃ pause, e = .patchMachineConfigPool name pause ∧ w'.pools.get name = some (p.patch pause) := by
  by_cases he : e.part = .pools
  · cases e with
    | patchMachineConfigPool name₁ pause =>
      rcases WriteAnswer.effect h with rfl | ⟨q, hq⟩
      · exact .inl hp
      · obtain ⟨p₁, hp₁, -, hw⟩ := World.patchPool_eq_some hq
        obtain rfl := Store.key_of_get hp₁
        have hname : (p₁.patch pause).name = p₁.name := by simp
        rw [hw]
        by_cases hn : name = p₁.name
        · subst hn
          obtain rfl := Option.some.inj (hp₁.symm.trans hp)
          refine .inr ⟨pause, rfl, ?_⟩
          rw [← hname]
          exact Store.get_put_self _ _
        · refine .inl ((Store.get_put_ne ?_).trans hp)
          rwa [hname]
    | _ => cases he
  · rw [h.frame.pools he]
    exact .inl hp

end Calls

/-- What a call does to the mutex of the pool manager. -/
def mutexStep {ι : Type} (i : ι) : Op → Option ι → Option ι → Prop
  | .lock, holder, holder' => holder = none ∧ holder' = some i
  | .unlock, _, holder' => holder' = none
  | _, holder, holder' => holder' = holder

lemma mutexStep.eq_of_part {ι : Type} {i : ι} {e : Op} {holder holder' : Option ι}
    (h : mutexStep i e holder holder') (he : e.part ≠ .mutex) : holder' = holder := by
  cases e with
  | lock => exact absurd rfl he
  | unlock => exact absurd rfl he
  | _ => exact h

/-- The holder of the mutex after a call, if the call can be made. -/
def mutexAfter {ι : Type} (i : ι) (holder : Option ι) : Op → Option (Option ι)
  | .lock => if holder = none then some (some i) else none
  | .unlock => some none
  | _ => some holder

lemma mutexStep_of_after {ι : Type} {i : ι} {holder holder' : Option ι} {e : Op}
    (h : mutexAfter i holder e = some holder') : mutexStep i e holder holder' := by
  cases e with
  | lock =>
    simp only [mutexAfter] at h
    split at h
    · rename_i hnone
      exact ⟨hnone, (Option.some.inj h).symm⟩
    · cases h
  | unlock => exact (Option.some.inj h).symm
  | _ => exact (Option.some.inj h).symm

variable {ι S α : Type} {Y : System ι Op Resp S α} {D : Discipline Y} {i : ι}

/-- An action under the mutex: `L` says that the mutex is taken. -/
lemma locked_triple {β : Type} {A B L : S → Prop} {x : Action β} {P Q : β → S → Prop}
    (hL : D.Stable i L) (hQ : ∀ b, D.Stable i (Q b))
    (hkeep : ∀ s e r s', D.inv s → D.inv s' → e.part ≠ .mutex → Y.exec i e s r s' → L s → L s')
    (hlock : D.Triple i A (issue .lock) fun _ s => B s ∧ L s)
    (all : AllE (fun e => e.part ≠ .mutex) x) (hx : D.TripleE i B x P)
    (hunlock : ∀ res : Except Err β, D.Triple i (fun s => (∀ b, res = .ok b → P b s) ∧ L s) (issue .unlock)
      fun _ s => ∀ b, res = .ok b → Q b s) : D.TripleE i A (withLock x) Q :=
  Host.withLock_triple hQ hlock (Triple.frame hL hkeep all hx) hunlock

/-! ### The mutex -/

lemma not_mutex_pools : PoolCalls fun e => e.part ≠ .mutex :=
  ⟨fun _ => nofun, fun _ => nofun, fun _ _ => nofun, fun _ => nofun, nofun⟩

lemma pauseLocked_not_mutex {node : Node} {nm : NodeMaintenance} :
    AllE (fun e => e.part ≠ .mutex) (pauseLocked node nm) := by
  refine .bind (.adapt (getMCPName_all fun _ => nofun)) fun mcpName => ?_
  refine .bind (.ite (.bind (.adapt (call_all nofun)) fun a => ?_) .pure) fun a => ?_
  · have hget : AllE (fun e => e.part ≠ .mutex) (Client.getNodeMaintenance a.key) := call_all nofun
    exact .adapt (waitForObjectUpdate_all hget _)
  · exact .bind (pausePool_all not_mutex_pools) fun _ => .pure

section Mutex
variable {A B L : S → Prop} (hL : D.Stable i L)
  (hkeep : ∀ s e r s', D.inv s → D.inv s' → e.part ≠ .mutex → Y.exec i e s r s' → L s → L s')
  (hlock : D.Triple i A (issue .lock) fun _ s => B s ∧ L s)
include hL hkeep hlock

/-- `PauseMCP`: `C` is what holds when the body ends well, `P` what the note of it makes of that. -/
lemma pauseMCP_walk {node : Node} {nm : NodeMaintenance} {C P Q : NodeMaintenance → S → Prop}
    (hQ : ∀ a, D.Stable i (Q a)) (hx : D.TripleE i B (pauseLocked node nm) C)
    (hok : ∀ a, D.Triple i (fun s => C a s ∧ L s) (issue (.trace (.pauseMCP nm none)))
      fun _ s => P a s)
    (hfail : ∀ err, D.Triple i L (issue (.trace (.pauseMCP nm (some err)))) fun _ _ => True)
    (hP : ∀ a, D.Stable i (P a))
    (hunlock : ∀ res : Except Err NodeMaintenance,
      D.Triple i (fun s => (∀ a, res = .ok a → P a s) ∧ L s) (issue .unlock)
        fun _ s => ∀ a, res = .ok a → Q a s) : D.TripleE i A (pauseMCP node nm) Q := by
  refine locked_triple (P := P) (B := fun s => B s ∧ L s) hL hQ hkeep ?_ ?_ ?_ hunlock
  · exact hlock.conseq (fun _ _ h => h) fun _ _ _ h => ⟨h, h.2⟩
  · refine .bind (.lift pauseLocked_not_mutex) fun res => .bind (.lift (call_all nofun)) fun _ => ?_
    cases res <;> trivial
  · refine TripleE.bind (TripleE.lift (Triple.frame hL hkeep pauseLocked_not_mutex hx)) fun res => ?_
    cases res with
    | ok a =>
      refine TripleE.bind (TripleE.lift (Triple.pre (hok a) fun s _ h => ⟨h.1 a rfl, h.2⟩)) fun _ => ?_
      exact .pure (hP a) fun _ _ h => h
    | error err =>
      exact TripleE.bind (TripleE.lift (Triple.pre (hfail err) fun s _ h => h.2)) fun _ => .throw

end Mutex

section Pool
variable {name : String}

lemma changeMachineConfigPoolPause_triple {A : S → Prop} {p : MachineConfigPool} {pause : Bool}
    {msg : String} {Q : MachineConfigPool → S → Prop} (hp : p.name = name)
    (h : D.TripleE i A (Client.patchMachineConfigPool name pause) Q) :
    D.TripleE i A (wrapErr msg (changeMachineConfigPoolPause p pause)) Q := by
  subst hp
  exact TripleE.adapt (TripleE.adapt h)

/-- Waiting for the pool to change. -/
lemma pollPool_triple {A : S → Prop} {checkFn : MachineConfigPool → Bool} (hA : D.Stable i A)
    (hpoll : D.TripleE i A (Client.getMachineConfigPool name) fun _ => A) (attempts : Nat) :
    D.TripleE i A (waitForObjectUpdate (Client.getMachineConfigPool name) checkFn attempts)
      fun _ => A := by
  induction attempts with
  | zero => exact .throw
  | succ attempts ih =>
    refine hpoll.bind fun p => ?_
    split
    · exact .pure hA fun _ _ h => h
    · exact ih

/-- The polling loop: `V` is what is known of an object that passes the check. -/
lemma waitForObjectUpdate_triple {α : Type} {get : Action α} {checkFn : α → Bool} {G : S → Prop}
    {V : α → S → Prop} {X : Err → S → Prop} (hG : D.Stable i G) (hV : ∀ a, D.Stable i (V a))
    (hX : ∀ err, D.Stable i (X err))
    (hpoll : D.TripleX i G get (fun a s => (checkFn a = true → V a s) ∧ (checkFn a = false → G s)) X)
    (hlate : ∀ s, D.inv s → G s → X (.other "context deadline exceeded") s) (attempts : Nat) :
    D.TripleX i G (waitForObjectUpdate get checkFn attempts) V X := by
  induction attempts with
  | zero => exact .throw hG hlate
  | succ attempts ih =>
    refine hpoll.bind hX fun a => ?_
    split
    · rename_i hcheck
      exact TripleX.pre (.pure (hV a) fun _ _ h => h) fun s _ h => h.1 hcheck
    · rename_i hcheck
      exact ih.pre fun s _ h => h.2 (by simpa using hcheck)

/-- What the single calls of the pool step of `PauseMCP` need and leave behind: `R` after the first read,
`F` before the pause patch and `G` after it, `V` once the pause is seen, `U` after the patch that takes it
back and `W` once that is seen. The step ends in `P`, or with an error and `X`. -/
structure PauseWalk (D : Discipline Y) (i : ι) (name : String) (B F G U W P : S → Prop)
    (R V : MachineConfigPool → S → Prop) (X : Err → S → Prop) : Prop where
  stable_read : ∀ p, D.Stable i (R p)
  stable_paused : D.Stable i G
  stable_seen : ∀ p, D.Stable i (V p)
  stable_undone : D.Stable i U
  stable_back : D.Stable i W
  stable_error : ∀ err, D.Stable i (X err)
  wrap : ∀ {msg err s}, X err s → X (.wrap msg err) s
  read : D.TripleX i B (Client.getMachineConfigPool name) (fun p s => p.name = name ∧ R p s) X
  done : ∀ {p s}, D.inv s → R p s → p.pausedByOperator = true → P s
  busy : ∀ {p s msg}, D.inv s → R p s → p.pausedByOperator = false →
    X (.wrap msg .errMachineConfigBusy) s
  go : ∀ {p s}, D.inv s → R p s → p.pausedByOperator = false → ¬ (p.paused = true ∧ p.annotated = false) →
    F s
  pause : D.TripleX i F (Client.patchMachineConfigPool name true) (fun p s => p.name = name ∧ G s) X
  poll : D.TripleX i G (Client.getMachineConfigPool name)
    (fun p s => p.name = name ∧ (p.pausedByOperator = true → V p s) ∧ (p.pausedByOperator = false → G s)) X
  late : ∀ {s}, D.inv s → G s → X (.other "context deadline exceeded") s
  idle : ∀ {p s}, D.inv s → V p s → p.configuring = false → P s
  undo : ∀ p, D.TripleX i (V p) (Client.patchMachineConfigPool name false)
    (fun q s => q.name = name ∧ U s) X
  pollBack : D.TripleX i U (Client.getMachineConfigPool name)
    (fun p s => (p.annotated = false → W s) ∧ (p.annotated = true → U s)) X
  lateBack : ∀ {s}, D.inv s → U s → X (.other "context deadline exceeded") s
  back : ∀ {s msg}, D.inv s → W s → X (.wrap msg .errMachineConfigBusy) s

namespace PauseWalk
variable {B F G U W P : S → Prop} {R V : MachineConfigPool → S → Prop} {X : Err → S → Prop}

/-- Errors are wrapped on their way out. -/
lemma wrapErr {β : Type} {A : S → Prop} {x : Action β} {Q : β → S → Prop} {msg : String}
    (k : PauseWalk D i name B F G U W P R V X) (h : D.TripleX i A x Q X) :
    D.TripleX i A (MaintenanceOperator.wrapErr msg x) Q X :=
  TripleX.adapt (h.conseq (fun _ _ h => h) (fun _ _ _ h => h) fun _ _ _ h => k.wrap h)

lemma change {A : S → Prop} {p : MachineConfigPool} {pause : Bool} {msg : String}
    {Q : MachineConfigPool → S → Prop} (k : PauseWalk D i name B F G U W P R V X) (hp : p.name = name)
    (h : D.TripleX i A (Client.patchMachineConfigPool name pause) Q X) :
    D.TripleX i A (MaintenanceOperator.wrapErr msg (changeMachineConfigPoolPause p pause)) Q X := by
  subst hp
  exact k.wrapErr (k.wrapErr h)

/-- The roll-back. -/
lemma rollBack_triple (k : PauseWalk D i name B F G U W P R V X) {p : MachineConfigPool}
    (hp : p.name = name) : D.TripleX i (V p) (rollBack name p) (fun _ => P) X := by
  refine TripleX.bind k.stable_error (k.change hp (k.undo p)) fun q => TripleX.of_pure fun hq => ?_
  rw [hq]
  refine TripleX.bind k.stable_error (B := fun _ => W) (k.wrapErr ?_) fun _ =>
    .throw k.stable_back fun _ hinv h => k.back hinv h
  refine waitForObjectUpdate_triple k.stable_undone (fun _ => k.stable_back) k.stable_error ?_
    (fun _ hinv h => k.lateBack hinv h) _
  exact k.pollBack.conseq (fun _ _ h => h) (fun p s _ h => ⟨fun hc => h.1 (by simpa using hc),
    fun hc => h.2 (by simpa using hc)⟩) fun _ _ _ h => h

/-- The pool step. -/
theorem pausePool_triple (k : PauseWalk D i name B F G U W P R V X) :
    D.TripleX i B (pausePool name) (fun _ => P) X := by
  refine TripleX.bind k.stable_error (k.wrapErr k.read) fun p => TripleX.of_pure fun hp => ?_
  split
  · rename_i hop
    exact .pure (k.stable_read p) fun s hinv h => k.done hinv h hop
  rename_i hop
  have hop : p.pausedByOperator = false := by simpa using hop
  split
  · exact .throw (k.stable_read p) fun s hinv h => k.busy hinv h hop
  rename_i hforeign
  split
  · exact .throw (k.stable_read p) fun s hinv h => k.busy hinv h hop
  refine TripleX.pre (TripleX.bind k.stable_error (k.change hp k.pause) fun p' =>
    TripleX.of_pure fun hp' => ?_) fun s hinv h => k.go hinv h hop hforeign
  rw [hp']
  refine TripleX.bind k.stable_error (B := fun p s => p.name = name ∧ V p s) (k.wrapErr ?_) fun p'' =>
    TripleX.of_pure fun hp'' => ?_
  · refine waitForObjectUpdate_triple k.stable_paused (fun p => (Stable.const _).and (k.stable_seen p))
      k.stable_error ?_ (fun _ hinv h => k.late hinv h) _
    exact k.poll.conseq (fun _ _ h => h) (fun p s _ h => ⟨fun hc => ⟨h.1, h.2.1 hc⟩, h.2.2⟩)
      fun _ _ _ h => h
  · split
    · exact k.rollBack_triple hp''
    · rename_i hidle
      exact .pure (k.stable_seen p'') fun s hinv h => k.idle hinv h (by simpa using hidle)

end PauseWalk

variable {B F G P : S → Prop}

/-- The pool step of `PauseMCP`: it ends with the pool paused (`P`), or fails. The pause may be taken
back only where `G` holds. -/
lemma pausePool_triple (hP : D.Stable i P) (hF : D.Stable i F) (hG : D.Stable i G)
    (hread : D.TripleE i B (Client.getMachineConfigPool name) fun p s => p.name = name ∧
      (p.pausedByOperator = true → P s) ∧ (p.pausedByOperator = false → F s))
    (hpause : D.TripleE i F (Client.patchMachineConfigPool name true) fun p s => p.name = name ∧ G s)
    (hpoll : D.TripleE i G (Client.getMachineConfigPool name) fun p s => p.name = name ∧ G s)
    (hundo : D.TripleE i G (Client.patchMachineConfigPool name false) fun p _ => p.name = name)
    (hfree : D.TripleE i (fun _ => True) (Client.getMachineConfigPool name) fun _ _ => True)
    (h : ∀ s, D.inv s → G s → P s) : D.TripleE i B (pausePool name) fun _ => P := by
  -- the walk with nothing to show where the call fails
  have k : PauseWalk D i name B F G (fun _ => True) (fun _ => True) P
      (fun p s => (p.pausedByOperator = true → P s) ∧ (p.pausedByOperator = false → F s)) (fun _ => G)
      fun _ _ => True :=
    { stable_read := fun p s s' hi hi' hr h => ⟨fun hc => hP s s' hi hi' hr (h.1 hc),
        fun hc => hF s s' hi hi' hr (h.2 hc)⟩
      stable_paused := hG
      stable_seen := fun _ => hG
      stable_undone := Stable.const _
      stable_back := Stable.const _
      stable_error := fun _ => Stable.const _
      wrap := fun _ => trivial
      read := hread.both
      done := fun _ h hc => h.1 hc
      busy := fun _ _ _ => trivial
      go := fun _ h hc _ => h.2 hc
      pause := hpause.both
      poll := (hpoll.conseq (fun _ _ h => h) fun p s _ h => ⟨h.1, fun _ => h.2, fun _ => h.2⟩).both
      late := fun _ _ => trivial
      idle := fun hinv hG _ => h _ hinv hG
      undo := fun _ => (hundo.conseq (fun _ _ h => h) fun q s _ h => ⟨h, trivial⟩).both
      pollBack := (hfree.conseq (fun _ _ h => h) fun p s _ _ => ⟨fun _ => trivial, fun _ => trivial⟩).both
      lateBack := fun _ _ => trivial
      back := fun _ _ => trivial }
  exact k.pausePool_triple.ok

end Pool

/-- The check before a pause is taken back: two lists, one after the other. -/
lemma mcpUsedByOther_triple {p : MachineConfigPool} {nm : NodeMaintenance} {A : S → Prop}
    {L : List Node → S → Prop} {Q : Bool → S → Prop} (hQ : ∀ used, D.Stable i (Q used))
    (hnodes : D.TripleE i A (Client.listNodes (selectorAccepts p.nodeSelector)) L)
    (hnms : ∀ nodes, D.TripleE i (L nodes) Client.listNodeMaintenances
      fun nml s => Q (nml.any (usesPool nodes nm)) s) :
    D.TripleE i A (mcpUsedByOtherNodeMaintenance p nm) Q := by
  unfold mcpUsedByOtherNodeMaintenance labelSelectorAsSelector
  split
  · exact hnodes.bind fun nodes => (hnms nodes).bind fun nml => .pure (hQ _) fun _ _ h => h
  · exact .throw

/-- `UnpauseMCP` under the mutex. It ends in `R`: the pool is not the operator's, or its pause is kept
for another object, or the pause has been taken back, for which `K` is needed. -/
lemma unpauseLocked_triple {node : Node} {nm : NodeMaintenance} {A R : S → Prop}
    {B K : String → S → Prop} {G : String → MachineConfigPool → S → Prop} (hR : D.Stable i R)
    (hname : D.TripleE i A (getMCPName node) B)
    (hread : ∀ name, D.TripleE i (B name) (Client.getMachineConfigPool name) fun p s => p.name = name ∧
      (p.annotated = true → G name p s) ∧ (p.annotated = false → R s))
    (hcheck : ∀ name p, D.TripleE i (G name p) (mcpUsedByOtherNodeMaintenance p nm) fun used s =>
      (used = true → R s) ∧ (used = false → K name s))
    (hclear : ∀ name, D.TripleE i (K name) (Client.patchMachineConfigPool name false)
      fun _ => R)
    (hpoll : ∀ name, D.TripleE i R (Client.getMachineConfigPool name) fun _ => R) :
    D.TripleE i A (unpauseLocked node nm) fun _ => R := by
  have hdone : D.TripleE i R (pure () : Action Unit) fun _ => R := .pure hR fun _ _ h => h
  refine TripleE.bind (TripleE.adapt hname) fun name => ?_
  refine TripleE.bind (TripleE.adapt (hread name)) fun p => TripleE.of_pure fun hp => ?_
  split
  · rename_i hannot
    refine TripleE.pre (TripleE.bind (TripleE.adapt (hcheck name p)) fun used => ?_)
      fun s _ h => h.1 hannot
    split
    · rename_i hused
      have hused : used = false := by simpa using hused
      refine TripleE.pre (TripleE.bind (changeMachineConfigPoolPause_triple hp (hclear name))
        fun p' => ?_) fun s _ h => h.2 hused
      -- the poll only reads: what the patch has left stays
      exact TripleE.bind (TripleE.adapt (pollPool_triple hR (hpoll _) _)) fun _ => hdone
    · rename_i hused
      have hused : used = true := by simpa using hused
      exact hdone.pre fun s _ h => h.1 hused
  · rename_i hannot
    have hannot : p.annotated = false := by simpa using hannot
    exact hdone.pre fun s _ h => h.2 hannot

end MaintenanceOperator
