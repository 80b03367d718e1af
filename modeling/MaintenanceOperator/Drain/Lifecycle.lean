import MaintenanceOperator.Cluster.World
import MaintenanceOperator.Lib.Script

/-!
# Life cycle of a drain request

`internal/drain/request.go` at the granularity of its critical sections: `StartDrain` and `State` are
one each; `CancelDrain` sets its flag, then cancels the context, then waits for the goroutine; the
goroutine runs the drain, records its outcome in a critical section, and signals the wait group. Any
number of callers take these steps in any order, and the parent context may be canceled at any time.
Whatever happens, flags are only ever raised (`Later`), so what `State` reports only moves forward.
Where `StartDrain` is kept out, all of `CancelDrain` amounts to the single step that the model of the
manager takes (`cancelDrain_atomic`).
-/

namespace MaintenanceOperator.Drain
open Lib Discipline

/-- Atomic steps of the callers. -/
inductive ReqOp where
  | startDrain
  | setCanceled
  | cfunc
  | wgWait
  | state

/-- Their results. -/
def ReqResp : ReqOp → Type
  | .state => DrainState
  | _ => Unit

/-- Where the goroutine of `StartDrain` is. -/
inductive Routine where
  | none
  | draining
  | returned (err : Option Err)
  | recorded
  | exited
  deriving DecidableEq

namespace Routine

/-- It has been launched. -/
def launched : Routine → Bool
  | .none => false
  | _ => true

/-- It is running. -/
def alive : Routine → Bool
  | .none | .exited => false
  | _ => true

/-- It has recorded the outcome of the drain. -/
def hasRecorded : Routine → Bool
  | .recorded | .exited => true
  | _ => false

end Routine

/-- A request with its wait group and its goroutine. For the record: how often the drain was launched,
what `RunNodeDrain` returned, and what `State` has reported (latest first). -/
structure Life where
  dr : DrainRequest
  wg : Nat
  routine : Routine
  launches : Nat
  outcome : Option (Option Err)
  reports : List DrainState
  deriving DecidableEq

/-- A new request. -/
def Life.new (dr : DrainRequest) : Life := ⟨dr, 0, .none, 0, none, []⟩

/-- Go `StartDrain`. -/
def Life.startDrain (s : Life) : Life :=
  if s.dr.canceled || s.dr.started then s
  else { s with
    dr := s.dr.startDrain
    wg := s.wg + 1
    routine := .draining
    launches := s.launches + 1 }

/-- Meaning of the steps. -/
def Life.Perform : (e : ReqOp) → Life → ReqResp e → Life → Prop
  | .startDrain, s, _, s' => s' = s.startDrain
  | .setCanceled, s, _, s' => s' = { s with dr := { s.dr with canceled := true } }
  | .cfunc, s, _, s' => s' = { s with dr := { s.dr with ctxDone := true } }
  | .wgWait, s, _, s' => s.wg = 0 ∧ s' = s
  | .state, s, st, s' => st = s.dr.state ∧ s' = { s with reports := s.dr.state :: s.reports }

/-- Steps of the goroutine, and the end of the parent context. -/
inductive Life.Move : Life → Life → Prop where
  | returns {s} (err : Option Err) : s.routine = .draining →
      Move s { s with routine := .returned err, outcome := some err }
  | record {s err} : s.routine = .returned err →
      Move s { s with dr := s.dr.doDrain err, routine := .recorded }
  | done {s} : s.routine = .recorded → Move s { s with wg := s.wg - 1, routine := .exited }
  | parentDone {s} : Move s { s with dr := { s.dr with ctxDone := true } }

/-- The calls, once they have returned. -/
inductive Call where
  | startDrain
  | cancelDrain
  | state (st : DrainState)
  deriving DecidableEq

def startDrainCall : Prog ReqOp ReqResp Call := do
  let _ ← Prog.lift .startDrain
  return .startDrain

/-- Go `CancelDrain`. -/
def cancelDrainCall : Prog ReqOp ReqResp Call := do
  let _ ← Prog.lift .setCanceled
  let _ ← Prog.lift .cfunc
  let _ ← Prog.lift .wgWait
  return .cancelDrain

def stateCall : Prog ReqOp ReqResp Call := do
  let st ← Prog.lift ReqOp.state
  return .state st

/-- Any callers of one request. -/
def callers (ι : Type) : System ι ReqOp ReqResp Life Call where
  exec _ := Life.Perform
  env c s' := Life.Move c.state s'
  body _ p := p = startDrainCall ∨ p = cancelDrainCall ∨ p = stateCall

/-- How far a request has come, as far as reports tell. -/
def DrainState.rank : DrainState → Nat
  | .notStarted => 0
  | .inProgress => 1
  | _ => 2

/-- What may be reported after `x`. -/
def Persists (x y : DrainState) : Prop := x.rank ≤ y.rank ∧ (x = .success → y = .success)

lemma Persists.trans {x y z : DrainState} (h : Persists x y) (h' : Persists y z) : Persists x z :=
  ⟨Nat.le_trans h.1 h'.1, fun e => h'.2 (h.2 e)⟩

/-- What ties the flags, the wait group, the goroutine and the reports together. -/
structure LifeInv (s : Life) : Prop where
  started : s.dr.started = s.routine.launched
  finished : s.dr.finished = s.routine.hasRecorded
  wg : s.wg = if s.routine.alive then 1 else 0
  launches : s.launches = if s.routine.launched then 1 else 0
  outcome : s.outcome = match s.routine with
    | .none | .draining => none
    | .returned err => some err
    | .recorded | .exited => some s.dr.lastErr
  reported : ∀ x ∈ s.reports, Persists x s.dr.state
  ordered : s.reports.Pairwise fun later earlier => Persists earlier later

/-- What may become of a request: flags are raised and stay so, and a canceled request whose
goroutine is not running keeps its outcome. -/
structure Later (s s' : Life) : Prop where
  started : s.dr.started = true → s'.dr.started = true
  canceled : s.dr.canceled = true → s'.dr.canceled = true
  ctxDone : s.dr.ctxDone = true → s'.dr.ctxDone = true
  finished : s.dr.finished = true → s'.dr.finished = true ∧ s'.dr.lastErr = s.dr.lastErr
  settled : s.dr.canceled = true → s.routine.alive = false → s'.routine = s.routine

lemma Later.refl (s : Life) : Later s s := ⟨id, id, id, fun h => ⟨h, rfl⟩, fun _ _ => rfl⟩

/-- Reports follow the flags. -/
lemma Later.persists {s s' : Life} (h : Later s s') : Persists s.dr.state s'.dr.state := by
  obtain ⟨hst, hca, -, hfi, -⟩ := h
  unfold Persists DrainRequest.state
  cases hf : s.dr.finished with
  | true =>
    obtain ⟨hf', he'⟩ := hfi hf
    rw [hf', he']
    cases s.dr.lastErr <;> cases s.dr.ctxDone <;> cases s'.dr.ctxDone <;>
      simp [DrainState.rank]
  | false =>
    cases hc : s.dr.canceled with
    | true =>
      rw [hca hc]
      cases s'.dr.finished <;> cases s'.dr.lastErr <;> cases s'.dr.ctxDone <;> simp [DrainState.rank]
    | false =>
      cases hs : s.dr.started with
      | true =>
        rw [hst hs]
        cases s'.dr.finished <;> cases s'.dr.canceled <;> cases s'.dr.lastErr <;>
          cases s'.dr.ctxDone <;> simp [DrainState.rank]
      | false => simp [DrainState.rank]

section Steps
variable {s s' : Life}

/-- The report of a state is as good as the state. -/
lemma LifeInv.reports_of_later (h : LifeInv s) (hl : Later s s') (hr : s'.reports = s.reports) :
    (∀ x ∈ s'.reports, Persists x s'.dr.state) ∧
      s'.reports.Pairwise fun later earlier => Persists earlier later := by
  rw [hr]
  exact ⟨fun x hx => (h.reported x hx).trans hl.persists, h.ordered⟩

/-- `StartDrain` launches the goroutine at most once, and not after a cancel. -/
lemma LifeInv.startDrain (h : LifeInv s) : LifeInv s.startDrain ∧ Later s s.startDrain := by
  unfold Life.startDrain
  split
  · exact ⟨h, .refl s⟩
  · rename_i hflags
    simp only [Bool.or_eq_true, not_or, Bool.not_eq_true] at hflags
    -- the flag tells that no goroutine was launched before
    have hnone : s.routine = .none := by
      have hst : s.routine.launched = false := h.started.symm.trans hflags.2
      cases hr : s.routine with
      | none => rfl
      | _ =>
        rw [hr] at hst
        cases hst
    have hstart : s.dr.startDrain = { s.dr with started := true } := by
      simp [DrainRequest.startDrain, hflags]
    have hfin : s.dr.finished = false := by
      rw [h.finished, hnone]
      rfl
    rw [hstart]
    have hl : Later s { s with
        dr := { s.dr with started := true }
        wg := s.wg + 1
        routine := .draining
        launches := s.launches + 1 } := by
      refine ⟨fun _ => rfl, id, id, fun hf => ⟨hf, rfl⟩, fun hc => ?_⟩
      rw [hflags.1] at hc
      cases hc
    have hrep := h.reports_of_later hl rfl
    refine ⟨⟨rfl, hfin, ?_, ?_, ?_, hrep.1, hrep.2⟩, hl⟩
    · simp [h.wg, hnone, Routine.alive]
    · simp [h.launches, hnone, Routine.launched]
    · simp [h.outcome, hnone]

/-- A step of a caller. -/
lemma LifeInv.perform (h : LifeInv s) {e : ReqOp} {r : ReqResp e} (hs : Life.Perform e s r s') :
    LifeInv s' ∧ Later s s' := by
  cases e with
  | startDrain =>
    obtain rfl : s' = s.startDrain := hs
    exact h.startDrain
  | setCanceled =>
    obtain rfl : s' = _ := hs
    have hl : Later s { s with dr := { s.dr with canceled := true } } :=
      ⟨id, fun _ => rfl, id, fun hf => ⟨hf, rfl⟩, fun _ _ => rfl⟩
    have hrep := h.reports_of_later hl rfl
    exact ⟨⟨h.started, h.finished, h.wg, h.launches, h.outcome, hrep.1, hrep.2⟩, hl⟩
  | cfunc =>
    obtain rfl : s' = _ := hs
    have hl : Later s { s with dr := { s.dr with ctxDone := true } } :=
      ⟨id, id, fun _ => rfl, fun hf => ⟨hf, rfl⟩, fun _ _ => rfl⟩
    have hrep := h.reports_of_later hl rfl
    exact ⟨⟨h.started, h.finished, h.wg, h.launches, h.outcome, hrep.1, hrep.2⟩, hl⟩
  | wgWait =>
    obtain ⟨-, rfl⟩ := hs
    exact ⟨h, .refl s'⟩
  | state =>
    obtain ⟨-, rfl⟩ := hs
    refine ⟨⟨h.started, h.finished, h.wg, h.launches, h.outcome, ?_, ?_⟩, ?_⟩
    · intro x hx
      rcases List.mem_cons.mp hx with rfl | hx
      · exact ⟨Nat.le_refl _, id⟩
      · exact h.reported x hx
    · exact List.pairwise_cons.mpr ⟨h.reported, h.ordered⟩
    · exact ⟨id, id, id, fun hf => ⟨hf, rfl⟩, fun _ _ => rfl⟩

/-- A step of the goroutine, or the end of the parent context. -/
lemma LifeInv.move (h : LifeInv s) (hm : Life.Move s s') : LifeInv s' ∧ Later s s' := by
  cases hm with
  | returns err hr =>
    have hl : Later s { s with routine := .returned err, outcome := some err } :=
      ⟨id, id, id, fun hf => ⟨hf, rfl⟩, fun _ ha => by simp [hr, Routine.alive] at ha⟩
    have hrep := h.reports_of_later hl rfl
    obtain ⟨h₁, h₂, h₃, h₄, -, -, -⟩ := h
    rw [hr] at h₁ h₂ h₃ h₄
    exact ⟨⟨h₁, h₂, h₃, h₄, rfl, hrep.1, hrep.2⟩, hl⟩
  | @record err hr =>
    have hf : s.dr.finished = false := by rw [h.finished, hr]; rfl
    have hl : Later s { s with dr := s.dr.doDrain err, routine := .recorded } :=
      ⟨id, id, id, fun hf' => by simp [hf] at hf', fun _ ha => by simp [hr, Routine.alive] at ha⟩
    have hrep := h.reports_of_later hl rfl
    obtain ⟨h₁, -, h₃, h₄, h₅, -, -⟩ := h
    rw [hr] at h₁ h₃ h₄ h₅
    exact ⟨⟨h₁, rfl, h₃, h₄, h₅, hrep.1, hrep.2⟩, hl⟩
  | done hr =>
    have hl : Later s { s with wg := s.wg - 1, routine := .exited } :=
      ⟨id, id, id, fun hf => ⟨hf, rfl⟩, fun _ ha => by simp [hr, Routine.alive] at ha⟩
    have hrep := h.reports_of_later hl rfl
    obtain ⟨h₁, h₂, h₃, h₄, h₅, -, -⟩ := h
    rw [hr] at h₁ h₂ h₃ h₄ h₅
    exact ⟨⟨h₁, h₂, by simp [h₃, Routine.alive], h₄, h₅, hrep.1, hrep.2⟩, hl⟩
  | parentDone =>
    have hl : Later s { s with dr := { s.dr with ctxDone := true } } :=
      ⟨id, id, fun _ => rfl, fun hf => ⟨hf, rfl⟩, fun _ _ => rfl⟩
    have hrep := h.reports_of_later hl rfl
    exact ⟨⟨h.started, h.finished, h.wg, h.launches, h.outcome, hrep.1, hrep.2⟩, hl⟩

end Steps

section Callers
variable {ι : Type}

/-- The proof plan: every step keeps the invariant, and every caller relies on `Later`. -/
def living (ι : Type) : Discipline (callers ι) where
  inv := LifeInv
  perm _ _ _ := True
  rely _ := Later
  inv_call h _ he := (h.perform he).1
  rely_call _ h _ he := (h.perform he).2
  inv_env h he := (h.move he).1
  rely_env _ h he := (h.move he).2

/-- The request is canceled for good: the flag is set, the context is canceled, and the goroutine is
not running. -/
def Settled (s : Life) : Prop :=
  s.dr.canceled = true ∧ s.dr.ctxDone = true ∧ s.routine.alive = false

lemma Settled.later {s s' : Life} (h : Settled s) (hl : Later s s') : Settled s' :=
  ⟨hl.canceled h.1, hl.ctxDone h.2.1, hl.settled h.1 h.2.2 ▸ h.2.2⟩

/-- What `State` reports of it. -/
lemma Settled.state {s : Life} (h : Settled s) (hinv : LifeInv s) :
    s.dr.state = if s.outcome = some none then .success else .canceled := by
  obtain ⟨hc, hd, ha⟩ := h
  have hf := hinv.finished
  have ho := hinv.outcome
  unfold DrainRequest.state
  cases hr : s.routine with
  | none =>
    rw [hr] at hf ho
    simp [hf, ho, hc, Routine.hasRecorded]
  | exited =>
    rw [hr] at hf ho
    cases he : s.dr.lastErr <;> simp [hf, ho, hd, he, Routine.hasRecorded]
  | draining | returned _ | recorded =>
    rw [hr] at ha
    cases ha

/-- A `CancelDrain` that has returned leaves the request settled, wherever flags are only raised. -/
lemma cancelDrain_triple {Y : System ι ReqOp ReqResp Life Call} {D : Discipline Y} {i : ι}
    (hexec : ∀ {e s r s'}, Y.exec i e s r s' → Life.Perform e s r s')
    (hinv : ∀ {s}, D.inv s → LifeInv s) (hrely : ∀ {s s'}, D.rely i s s' → Later s s')
    (hperm : ∀ {s e}, e ≠ .startDrain → D.perm i s e) :
    D.Triple i (fun _ => True) cancelDrainCall fun _ => Settled := by
  have hflag : D.Stable i fun s => s.dr.canceled = true :=
    fun _ _ _ _ hl h => (hrely hl).canceled h
  have hctx : D.Stable i fun s => s.dr.ctxDone = true := fun _ _ _ _ hl h => (hrely hl).ctxDone h
  have hset : D.Stable i Settled := fun _ _ _ _ hl h => h.later (hrely hl)
  refine Triple.bind (B := fun _ s => s.dr.canceled = true) ?_ fun _ => ?_
  · refine Triple.lift (Stable.const True) (fun _ => hflag) (fun _ _ _ => hperm nofun) ?_
    intro s _ s' _ _ _ he
    obtain rfl : s' = _ := hexec he
    rfl
  refine Triple.bind (B := fun _ s => s.dr.canceled = true ∧ s.dr.ctxDone = true) ?_ fun _ => ?_
  · refine Triple.lift hflag (fun _ => hflag.and hctx) (fun _ _ _ => hperm nofun) ?_
    intro s _ s' _ _ hc he
    obtain rfl : s' = _ := hexec he
    exact ⟨hc, rfl⟩
  refine Triple.bind (B := fun _ => Settled) ?_ fun _ => Triple.ret hset fun _ _ h => h
  refine Triple.lift (hflag.and hctx) (fun _ => hset) (fun _ _ _ => hperm nofun) ?_
  rintro _ _ s hs - ⟨hc, hd⟩ he
  obtain ⟨hwg, rfl⟩ := hexec he
  refine ⟨hc, hd, ?_⟩
  -- the wait group is at zero only when no goroutine is alive
  have hcount := (hinv hs).wg
  cases ha : s.routine.alive with
  | false => rfl
  | true => simp [ha, hwg] at hcount

/-- What a call guarantees when it returns. -/
def Guarantee (_ : ι) : Call → Life → Prop
  | .cancelDrain => Settled
  | _ => fun _ => True

lemma guarantee (i : ι) (p : Prog ReqOp ReqResp Call) (h : (callers ι).body i p) :
    (living ι).Triple i (fun _ => True) p (Guarantee i) := by
  have hT := Stable.const (D := living ι) (i := i) True
  rcases h with rfl | rfl | rfl
  · exact .call hT (fun _ _ _ => trivial) (fun _ _ _ _ _ _ _ => trivial)
      fun _ => .ret hT fun _ _ _ => trivial
  · refine (cancelDrain_triple id id id fun _ => trivial).conseq (fun _ _ h => h) fun a s _ h => ?_
    cases a with
    | cancelDrain => exact h
    | _ => trivial
  · exact .call hT (fun _ _ _ => trivial) (fun _ _ _ _ _ _ _ => trivial)
      fun _ => .ret hT fun _ _ _ => trivial

/-- A new request that nobody has called yet. -/
def untouched (ι : Type) (dr : DrainRequest) : Config ι ReqOp ReqResp Life Call :=
  ⟨.new dr, fun _ => none⟩

lemma lifeInv_new {nm : NodeMaintenance} {dr : DrainRequest} (h : newDrainRequest nm = some dr) :
    LifeInv (.new dr) := by
  obtain ⟨spec, -, rfl⟩ := Option.map_eq_some_iff.mp h
  exact ⟨rfl, rfl, rfl, rfl, rfl, fun x hx => absurd hx List.not_mem_nil, .nil⟩

variable [DecidableEq ι] {nm : NodeMaintenance} {dr : DrainRequest}
  {c c' : Config ι ReqOp ReqResp Life Call}

lemma later_of_step (h : (living ι).OkWith Guarantee c) (st : (callers ι).Step c c') :
    Later c.state c'.state := by
  rcases h.step_cases st with hs | henv | ⟨_, e, r, -, hexec⟩
  · rw [hs]
    exact .refl _
  · exact (h.1.move henv).2
  · exact (h.1.perform hexec).2

/-- A settled request stays settled. -/
lemma settled_of_run (h : (living ι).OkWith Guarantee c) (hs : Settled c.state)
    (run : (callers ι).Run c c') : Settled c'.state := by
  induction run with
  | refl => exact hs
  | tail run st ih => exact ih.later (later_of_step (soundWith guarantee h run) st)

/-- A canceled request is not launched. -/
lemma launches_of_step (h : (living ι).OkWith Guarantee c) (hc : c.state.dr.canceled = true)
    (st : (callers ι).Step c c') : c'.state.launches = c.state.launches := by
  rcases h.step_cases st with hs | henv | ⟨_, e, r, -, hexec⟩
  · rw [hs]
  · have hmove : Life.Move c.state c'.state := henv
    generalize c'.state = s' at hmove
    cases hmove <;> rfl
  · have hperf : Life.Perform e c.state r c'.state := hexec
    generalize c'.state = s' at hperf
    cases e with
    | startDrain =>
      obtain rfl : s' = c.state.startDrain := hperf
      simp [Life.startDrain, hc]
    | wgWait => rw [hperf.2]
    | state => rw [hperf.2]
    | setCanceled | cfunc =>
      obtain rfl : s' = _ := hperf
      rfl

/-- The drain is launched at most once, and not after the request was canceled. Reports only move
forward: away from NotStarted, away from InProgress, and Success stays. Once a `CancelDrain` has
returned, the goroutine is not running and the state is Success if the drain succeeded, Canceled
otherwise, forever. -/
theorem drain_request_life_cycle (hdr : newDrainRequest nm = some dr)
    (run : (callers ι).Run (untouched ι dr) c) :
    (c.state.launches ≤ 1 ∧ (c.state.dr.canceled = true →
      ∀ c', (callers ι).Step c c' → c'.state.launches = c.state.launches)) ∧
    (c.state.reports.Pairwise fun later earlier =>
      (earlier ≠ .notStarted → later ≠ .notStarted) ∧
      (earlier ≠ .notStarted → earlier ≠ .inProgress → later ≠ .inProgress) ∧
      (earlier = .success → later = .success)) ∧
    ∀ i, c.threads i = some (.ret .cancelDrain) → ∀ c', (callers ι).Run c c' →
      c'.state.routine.alive = false ∧
      c'.state.dr.state = if c'.state.outcome = some none then .success else .canceled := by
  have hok : (living ι).OkWith Guarantee c :=
    soundWith guarantee (c := untouched ι dr) ⟨lifeInv_new hdr, nofun⟩ run
  refine ⟨⟨?_, fun hc c' st => launches_of_step hok hc st⟩, ?_, fun i hret c' run' => ?_⟩
  · rw [hok.1.launches]
    split <;> omega
  · refine hok.1.ordered.imp fun {later earlier} h => ⟨fun hne => ?_, fun hne hne' => ?_, h.2⟩
    · cases earlier <;> cases later <;> simp_all [Persists, DrainState.rank]
    · cases earlier <;> cases later <;> simp_all [Persists, DrainState.rank]
  · have hset := settled_of_run hok (hok.returned hret) run'
    exact ⟨hset.2.2, hset.state (soundWith guarantee hok run').1⟩

end Callers

/-! ### `CancelDrain` as one step -/

section Atomic
variable {s₀ s s' : Life}

/-- A `CancelDrain` under the lock of the manager, which keeps all calls of `StartDrain` out; `State`
may still be called. -/
def locked : System Unit ReqOp ReqResp Life Call where
  exec _ := Life.Perform
  env c s' := Life.Move c.state s' ∨ ∃ st, Life.Perform .state c.state st s'
  body _ p := p = cancelDrainCall

/-- What stays of the request while it is being canceled. -/
structure Canceling (s₀ s : Life) : Prop where
  uid : s.dr.uid = s₀.dr.uid
  drainSpec : s.dr.drainSpec = s₀.dr.drainSpec
  started : s.dr.started = s₀.dr.started
  ended : s₀.dr.running = false → s.dr.finished = s₀.dr.finished ∧ s.dr.lastErr = s₀.dr.lastErr

lemma Canceling.refl (s : Life) : Canceling s s := ⟨rfl, rfl, rfl, fun _ => ⟨rfl, rfl⟩⟩

lemma Canceling.move (h : Canceling s₀ s) (hinv : LifeInv s) (hm : Life.Move s s') :
    Canceling s₀ s' := by
  cases hm with
  | returns err hr => exact ⟨h.uid, h.drainSpec, h.started, h.ended⟩
  | @record err hr =>
    refine ⟨h.uid, h.drainSpec, h.started, fun hrun => ?_⟩
    -- a goroutine that has an outcome to record was running from the start
    have hst : s₀.dr.started = true := by rw [← h.started, hinv.started, hr]; rfl
    have hfin : s₀.dr.finished = false := by rw [← (h.ended hrun).1, hinv.finished, hr]; rfl
    rw [DrainRequest.running, hst, hfin] at hrun
    cases hrun
  | done hr => exact ⟨h.uid, h.drainSpec, h.started, h.ended⟩
  | parentDone => exact ⟨h.uid, h.drainSpec, h.started, h.ended⟩

/-- The proof plan for one `CancelDrain` that begins at `s₀`. -/
def canceling (s₀ : Life) : Discipline locked where
  inv s := LifeInv s ∧ Canceling s₀ s
  perm _ _ e := e ≠ .startDrain
  rely _ := Later
  inv_call {_ s e r s'} h hp he := by
    refine ⟨(h.1.perform he).1, ?_⟩
    obtain ⟨h₁, h₂, h₃, h₄⟩ := h.2
    cases e with
    | startDrain => exact absurd rfl hp
    | wgWait =>
      obtain ⟨-, rfl⟩ := he
      exact h.2
    | state =>
      obtain ⟨-, rfl⟩ := he
      exact ⟨h₁, h₂, h₃, h₄⟩
    | setCanceled | cfunc =>
      obtain rfl : s' = _ := he
      exact ⟨h₁, h₂, h₃, h₄⟩
  rely_call ne := absurd rfl ne
  inv_env {c s'} h he := by
    rcases he with hm | ⟨st, hst⟩
    · exact ⟨(h.1.move hm).1, h.2.move h.1 hm⟩
    · have hinv := (h.1.perform hst).1
      obtain ⟨-, rfl⟩ := hst
      exact ⟨hinv, h.2.uid, h.2.drainSpec, h.2.started, h.2.ended⟩
  rely_env _ h he := he.elim (fun hm => (h.1.move hm).2) fun ⟨_, hst⟩ => (h.1.perform hst).2

/-- What a settled request has become. -/
lemma Canceling.eq_cancelDrain (h : Canceling s₀ s) (hinv : LifeInv s) (hs : Settled s) :
    ∃ err, s.dr = s₀.dr.cancelDrain err := by
  obtain ⟨hc, hd, ha⟩ := hs
  refine ⟨s.dr.lastErr, ?_⟩
  cases hrun : s₀.dr.running with
  | true =>
    have hst : s₀.dr.started = true := by
      rw [DrainRequest.running, Bool.and_eq_true] at hrun
      exact hrun.1
    have hfin : s.dr.finished = true := by
      have hl := hinv.started
      rw [h.started, hst] at hl
      rw [hinv.finished]
      cases hr : s.routine with
      | exited => rfl
      | none =>
        rw [hr] at hl
        cases hl
      | draining | returned _ | recorded =>
        rw [hr] at ha
        cases ha
    cases s with
    | mk dr _ _ _ _ _ =>
      cases dr
      simp_all [DrainRequest.cancelDrain, DrainRequest.doDrain, h.uid.symm, h.drainSpec.symm, h.started.symm]
  | false =>
    obtain ⟨hf, he⟩ := h.ended hrun
    cases s with
    | mk dr _ _ _ _ _ =>
      cases dr
      simp_all [DrainRequest.cancelDrain, h.uid.symm, h.drainSpec.symm, h.started.symm]

/-- When a `CancelDrain` under the lock returns, the request is what the single step `cancelDrain` makes
of it. -/
theorem cancelDrain_atomic {c : Config Unit ReqOp ReqResp Life Call} (h : LifeInv s₀)
    (run : locked.Run ⟨s₀, fun _ => none⟩ c) (hret : c.threads () = some (.ret .cancelDrain)) :
    ∃ err, c.state.dr = s₀.dr.cancelDrain err := by
  have hok : (canceling s₀).OkWith (fun _ _ => Settled) c := by
    refine soundWith ?_ (c := ⟨s₀, fun _ => none⟩) ⟨⟨h, .refl s₀⟩, nofun⟩ run
    rintro _ _ rfl
    exact cancelDrain_triple id (fun h => h.1) id id
  exact hok.1.2.eq_cancelDrain hok.1.1 (hok.returned hret)

end Atomic

/-! ### A computed run -/

/-- Answers to the steps of a caller; a wait is not answered while the goroutine is running. -/
def Life.answer (s : Life) : (e : ReqOp) → Option (ReqResp e × Life)
  | .startDrain => some ((), s.startDrain)
  | .setCanceled => some ((), { s with dr := { s.dr with canceled := true } })
  | .cfunc => some ((), { s with dr := { s.dr with ctxDone := true } })
  | .wgWait => if s.wg = 0 then some ((), s) else none
  | .state => some (s.dr.state, { s with reports := s.dr.state :: s.reports })

/-- The goroutine takes its next step; a drain ends with the given outcome. -/
def Life.advance (err : Option Err) (s : Life) : Option Life :=
  match s.routine with
  | .draining => some { s with routine := .returned err, outcome := some err }
  | .returned err => some { s with dr := s.dr.doDrain err, routine := .recorded }
  | .recorded => some { s with wg := s.wg - 1, routine := .exited }
  | .none | .exited => none

/-- One caller for each of the calls. -/
def callPlayer : Player (callers (Fin 3)) (Option Err) where
  program i := match i with
    | 0 => some startDrainCall
    | 1 => some cancelDrainCall
    | 2 => some stateCall
  body {i _} h := by
    match i with
    | 0 => exact .inl (Option.some.inj h).symm
    | 1 => exact .inr (.inl (Option.some.inj h).symm)
    | 2 => exact .inr (.inr (Option.some.inj h).symm)
  answer _ e s := s.answer e
  exec {_ e s r s'} h := by
    cases e with
    | wgWait =>
      simp only [Life.answer] at h
      split at h
      · rename_i hwg
        cases h
        exact ⟨hwg, rfl⟩
      · cases h
    | state =>
      cases h
      exact ⟨rfl, rfl⟩
    | _ =>
      cases h
      rfl
  event err s := s.advance err
  env {err c s'} h := by
    unfold Life.advance at h
    split at h <;> cases h
    · exact .returns err ‹_›
    · exact .record ‹_›
    · exact .done ‹_›

/-- A request of a NodeMaintenance with a drain spec. -/
def plainRequest : DrainRequest :=
  ⟨"default/nm:nm", false, false, false, none, false, ⟨"node-1", ⟨false, "", 300, false, []⟩⟩⟩

/-- A drain is started, reported in progress, and canceled; it fails, and the request is reported as
canceled from then on. -/
theorem drain_request_canceled :
    ∃ c : Config (Fin 3) ReqOp ReqResp Life Call,
      (callers (Fin 3)).Run (untouched (Fin 3) plainRequest) c ∧
      c.state.reports = [.inProgress] ∧ c.state.outcome = some (some (.other "canceled")) ∧
      ∀ c', (callers (Fin 3)).Run c c' → c'.state.routine.alive = false ∧
        c'.state.dr.state = if c'.state.outcome = some none then .success else .canceled := by
  obtain ⟨c, run, hc⟩ := Player.exists_run_of_play callPlayer
    [.start 0, .finish 0 5, .start 2, .finish 2 5, .start 1, .calls 1 2,
      .event (some (.other "canceled")), .event none, .event none, .calls 1 1]
    (untouched (Fin 3) plainRequest)
    (fun c => c.state.reports = [.inProgress] && c.state.outcome = some (some (.other "canceled")) &&
      (c.threads 1).bind Prog.value? = some .cancelDrain) (by decide +kernel)
  simp only [Bool.and_eq_true, decide_eq_true_eq] at hc
  obtain ⟨⟨hrep, hout⟩, hret⟩ := hc
  obtain ⟨p, hthread, hvalue⟩ := Option.bind_eq_some_iff.mp hret
  obtain rfl := Prog.eq_ret_of_value? hvalue
  have hdr : newDrainRequest (newNodeMaintenance ⟨"default", "nm"⟩ "nm"
      ⟨"requestor.nvidia.com", [], "node-1", true, none, some ⟨false, "", 300, false, []⟩⟩) =
        some plainRequest := by decide
  exact ⟨c, run, hrep, hout, (drain_request_life_cycle hdr run).2.2 1 hthread⟩

end MaintenanceOperator.Drain
