import MaintenanceOperator.Cluster.Serve
import MaintenanceOperator.Lib.Script
import MaintenanceOperator.Openshift.ForeignPause
import MaintenanceOperator.Openshift.Walk

/-!
# PauseMCP and a running configuration change

Any number of callers run `PauseMCP` while configuration changes of a pool begin and end. The callers see
the pool through a cache that is told of its versions one after the other, with any delay. `PauseMCP`
pauses the pool, waits until it sees the pause, and takes it back if a configuration change has begun by
then. The annotation is taken for a proof of that check by every later call: if a call fails between its
pause and the check, the next one returns without an error, and nobody has ever seen the paused pool at
rest (`pause_unchecked`). As long as every call that has changed the pool ends well or with
`ErrMachineConfigBusy`, `PauseMCP` is all or nothing (`pause_all_or_nothing`).
-/

namespace MaintenanceOperator
open Lib Discipline

/-- The flags that the operator's pause gives to a pool. -/
def operatorPause : Bool × Option String := (true, some mcpPausedAnnotValue)

/-- A version of the pool. -/
structure PoolVersion where
  number : Nat
  pool : MachineConfigPool

/-- The cluster, the mutex of the manager, and the cache: the version of the pool that it shows, followed
by those that it has still to be told of. On record are the version that the pause in force was applied
with, the newest version that was read with no configuration change going on, and of the present call the
flags that it found, the pool that it reads, and whether it has changed the pool. -/
structure PoolWatch (ι : Type) where
  world : World
  mutex : Option ι
  queue : List PoolVersion
  revision : Nat
  pausedAt : Nat
  observed : Nat
  before : Option (Bool × Option String)
  target : Option String
  patched : Bool

/-- The flags of a pool. -/
def World.flagsOf (w : World) (pool : String) : Option (Bool × Option String) :=
  (w.pools.get pool).map MachineConfigPool.flags

namespace PoolWatch
variable {ι : Type}

/-- The new version of the pool, if it has changed. -/
def fresh (s : PoolWatch ι) (pool : String) (w' : World) : List PoolVersion :=
  match w'.pools.get pool with
  | some p => if s.world.pools.get pool = some p then [] else [⟨s.revision + 1, p⟩]
  | none => []

/-- The cluster changes. -/
def push (s : PoolWatch ι) (pool : String) (w' : World) : PoolWatch ι :=
  { s with
    world := w'
    queue := s.queue ++ s.fresh pool w'
    revision := s.revision + (s.fresh pool w').length
    pausedAt :=
      if w'.flagsOf pool = some operatorPause ∧ s.world.flagsOf pool ≠ some operatorPause then
        s.revision + 1
      else s.pausedAt }

/-- The number of the version that the cache shows. -/
def shown (s : PoolWatch ι) : Nat := (s.queue.head?.map PoolVersion.number).getD 0

/-- The newest version that has been read with no configuration change going on, after one more read. -/
def seen (s : PoolWatch ι) : Except Err MachineConfigPool → Nat
  | .ok p => if p.configuring then s.observed else max s.observed s.shown
  | .error _ => s.observed

/-- What the calls put on record. -/
def note (s : PoolWatch ι) (pool : String) : (e : Op) → Resp e → PoolWatch ι
  | .lock, _ => { s with before := s.world.flagsOf pool, target := none, patched := false }
  | .getMachineConfigPool name, res =>
    { s with target := some name, observed := if name = pool then s.seen res else s.observed }
  | _, _ => s

/-- The state after a call. -/
def after (s : PoolWatch ι) (pool : String) (e : Op) (a : Resp e) (w' : World) (holder : Option ι) :
    PoolWatch ι :=
  { ({ s.push pool w' with
      patched := s.patched || decide (w'.pools.get pool ≠ s.world.pools.get pool) }).note pool e a with
    mutex := holder }

end PoolWatch

/-- The cache shows its version of the pool, if it answers. -/
def Shows (queue : List PoolVersion) : Except Err MachineConfigPool → Prop
  | .ok p => queue.head?.map PoolVersion.pool = some p
  | .error _ => True

/-- The pool is read from the cache. -/
def CacheAnswer (pool : String) (queue : List PoolVersion) : (e : Op) → Resp e → Prop
  | .getMachineConfigPool name, res => name = pool → Shows queue res
  | _, _ => True

/-- Moves of the others: everything but the flags of the pool may change at any time, and the cache is
told of the next version. -/
inductive Drifts {ι : Type} (pool : String) : PoolWatch ι → PoolWatch ι → Prop where
  | change {s w'} : w'.flagsOf pool = s.world.flagsOf pool → Drifts pool s (s.push pool w')
  | deliver {s : PoolWatch ι} {v queue} : s.queue = v :: queue → queue ≠ [] →
      Drifts pool s { s with queue := queue }

/-- Callers of `PauseMCP`; the calls taken into account are those that pass the gate. -/
def pauses (ι : Type) (pool : String) (gate : PoolWatch ι → Op → Prop) :
    System ι Op Resp (PoolWatch ι) (Except Err NodeMaintenance) where
  exec i e s a s' := ∃ w' holder, Perform .cached e s.world a w' ∧ mutexStep i e s.mutex holder ∧
    CacheAnswer pool s.queue e a ∧ gate s e ∧ s' = s.after pool e a w' holder
  env c s' := Drifts pool c.state s'
  body _ p := ∃ node nm, p = (pauseMCP node nm).run

/-- A call that has changed the pool ends well or with `ErrMachineConfigBusy`. -/
def Steadfast {ι : Type} (s : PoolWatch ι) : Op → Prop
  | .trace (.pauseMCP _ (some err)) => s.patched = true → err.is .errMachineConfigBusy = true
  | _ => True

/-- Whatever the cache shows and will show has the flags of the pool, and a pause in force was checked. -/
structure PoolSettled {ι : Type} (pool : String) (s : PoolWatch ι) : Prop where
  shown : ∀ v ∈ s.queue, s.world.flagsOf pool = some v.pool.flags
  observed : s.world.flagsOf pool = some operatorPause → s.pausedAt ≤ s.observed

/-- The invariant. -/
structure WatchInv {ι : Type} (pool : String) (s : PoolWatch ι) : Prop where
  marks : ∀ f, s.world.flagsOf pool = some f → f.2 = none ∨ f = operatorPause
  pausedAt : s.pausedAt ≤ s.revision
  idle : s.mutex = none → PoolSettled pool s

/-- Permissions: calls are made under the mutex, which is given back in order; what a call says at its end
is true. -/
def watchPerm {ι : Type} (pool : String) (i : ι) (s : PoolWatch ι) : Op → Prop
  | .lock => True
  | .unlock => s.mutex = some i ∧ PoolSettled pool s
  | .trace (.pauseMCP _ (some err)) => s.mutex = some i ∧
      (err.is .errMachineConfigBusy = true → s.world.flagsOf pool = s.before)
  | .trace (.pauseMCP _ none) => s.mutex = some i ∧ (s.target = some pool →
      s.world.flagsOf pool = some operatorPause ∧ s.pausedAt ≤ s.observed)
  | _ => s.mutex = some i

/-- What the holder of the mutex relies on. -/
structure Drifted {ι : Type} (pool : String) (s s' : PoolWatch ι) : Prop where
  mutex : s'.mutex = s.mutex
  flags : s'.world.flagsOf pool = s.world.flagsOf pool
  pausedAt : s'.pausedAt = s.pausedAt
  observed : s'.observed = s.observed
  before : s'.before = s.before
  target : s'.target = s.target
  patched : s'.patched = s.patched
  queue : ∃ n added, s'.queue = s.queue.drop n ++ added ∧
    ∀ v ∈ added, s.world.flagsOf pool = some v.pool.flags ∧ s.revision < v.number

section Steps
variable {ι : Type} {pool : String} {i j : ι} {s s' : PoolWatch ι} {w' : World} {v : PoolVersion}

lemma mem_fresh (h : v ∈ s.fresh pool w') :
    w'.pools.get pool = some v.pool ∧ s.revision < v.number := by
  unfold PoolWatch.fresh at h
  split at h
  · rename_i p hp
    split at h
    · cases h
    · obtain rfl := List.mem_singleton.mp h
      exact ⟨hp, Nat.lt_succ_self _⟩
  · cases h

lemma fresh_of_same (h : w'.pools.get pool = s.world.pools.get pool) : s.fresh pool w' = [] := by
  unfold PoolWatch.fresh
  split
  · rename_i p hp
    rw [if_pos (h.symm.trans hp)]
  · rfl

lemma flagsOf_of_same {w w' : World} (h : w'.pools.get pool = w.pools.get pool) :
    w'.flagsOf pool = w.flagsOf pool := by
  rw [World.flagsOf, World.flagsOf, h]

/-- Where the pool stays the same, only the rest of the cluster changes. -/
lemma push_of_same (h : w'.pools.get pool = s.world.pools.get pool) :
    s.push pool w' = { s with world := w' } := by
  simp [PoolWatch.push, fresh_of_same h, flagsOf_of_same h]

/-- The holder of the mutex may rely on what the others leave alone. -/
lemma Drifts.drifted (h : Drifts pool s s') : Drifted pool s s' := by
  cases h with
  | @change w' hflags =>
    refine ⟨rfl, hflags, ?_, rfl, rfl, rfl, rfl, 0, s.fresh pool w', rfl, fun v hv => ?_⟩
    · simp [PoolWatch.push, hflags]
    · obtain ⟨hv, hnum⟩ := mem_fresh hv
      refine ⟨hflags.symm.trans ?_, hnum⟩
      rw [World.flagsOf, hv]
      rfl
  | @deliver v queue hqueue _ =>
    refine ⟨rfl, rfl, rfl, rfl, rfl, rfl, rfl, 1, [], ?_, nofun⟩
    simp [hqueue]

lemma PoolSettled.drifted (hd : Drifted pool s s') (h : PoolSettled pool s) : PoolSettled pool s' := by
  obtain ⟨n, added, hqueue, hadded⟩ := hd.queue
  refine ⟨fun v hv => ?_, fun hf => ?_⟩
  · rw [hd.flags]
    rw [hqueue] at hv
    rcases List.mem_append.mp hv with hv | hv
    · exact h.shown v (List.mem_of_mem_drop hv)
    · exact (hadded v hv).1
  · rw [hd.pausedAt, hd.observed]
    exact h.observed (hd.flags.symm.trans hf)

lemma PoolSettled.looked {t : Option String} {n : Nat} (hn : s.observed ≤ n) (h : PoolSettled pool s) :
    PoolSettled pool { s with target := t, observed := n } :=
  ⟨h.shown, fun hf => Nat.le_trans (h.observed hf) hn⟩

/-- What is put on record changes neither the cluster nor the cache. -/
lemma note_core (pool : String) (s : PoolWatch ι) (e : Op) (a : Resp e) :
    (s.note pool e a).world = s.world ∧ (s.note pool e a).queue = s.queue ∧
      (s.note pool e a).revision = s.revision ∧ (s.note pool e a).pausedAt = s.pausedAt := by
  cases e <;> exact ⟨rfl, rfl, rfl, rfl⟩

@[simp] lemma world_after (s : PoolWatch ι) (e : Op) (a : Resp e) (holder : Option ι) :
    (s.after pool e a w' holder).world = w' := (note_core _ _ e a).1

lemma pausedAt_after_le (h : s.pausedAt ≤ s.revision) (e : Op) (a : Resp e) (holder : Option ι) :
    (s.after pool e a w' holder).pausedAt ≤ (s.after pool e a w' holder).revision := by
  have hcore := note_core pool ({ s.push pool w' with
    patched := s.patched || decide (w'.pools.get pool ≠ s.world.pools.get pool) }) e a
  refine Nat.le_trans (Nat.le_of_eq hcore.2.2.2) (Nat.le_trans ?_ (Nat.le_of_eq hcore.2.2.1.symm))
  change (s.push pool w').pausedAt ≤ (s.push pool w').revision
  unfold PoolWatch.push
  split
  · rename_i hnew
    -- the pool has changed, so there is a new version
    obtain ⟨p, hp, -⟩ := Option.map_eq_some_iff.mp hnew.1
    have hne : s.world.pools.get pool ≠ some p := fun hsame =>
      hnew.2 ((flagsOf_of_same (hsame.trans hp.symm)).trans hnew.1)
    simp [PoolWatch.fresh, hp, hne]
  · exact Nat.le_add_right_of_le h

/-- The flags after a patch. -/
lemma flags_patch (p : MachineConfigPool) (pause : Bool) :
    (p.patch pause).flags = if pause then operatorPause else (false, none) := by
  cases pause <;> simp [MachineConfigPool.patch, MachineConfigPool.flags, operatorPause]

/-- A call keeps the flags of the pool, or leaves those of a patch. -/
lemma marks_call {mode : ReadMode} {e : Op} {a : Resp e} {w : World} (hperf : Perform mode e w a w')
    (h : ∀ f, w.flagsOf pool = some f → f.2 = none ∨ f = operatorPause) :
    ∀ f, w'.flagsOf pool = some f → f.2 = none ∨ f = operatorPause := by
  intro f hf
  obtain ⟨p', hp', rfl⟩ := Option.map_eq_some_iff.mp hf
  obtain ⟨p, hp, rfl | ⟨pause, -, rfl⟩⟩ := hperf.pool_before hp'
  · exact h _ (by rw [World.flagsOf, hp]; rfl)
  · rw [flags_patch]
    cases pause with
    | true => exact .inr rfl
    | false => exact .inl rfl

lemma holds_of_perm {e : Op} (h : watchPerm pool i s e) (he : e ≠ .lock) : s.mutex = some i := by
  cases e with
  | lock => exact absurd rfl he
  | unlock => exact h.1
  | trace note =>
    cases note with
    | pauseMCP nm err =>
      cases err with
      | none => exact h.1
      | some err => exact h.1
    | _ => exact h
  | _ => exact h

variable {gate : PoolWatch ι → Op → Prop} {e : Op} {a : Resp e}

/-- A permitted call keeps the invariant. -/
lemma WatchInv.call (h : WatchInv pool s) (hp : watchPerm pool i s e)
    (hexec : (pauses ι pool gate).exec i e s a s') : WatchInv pool s' := by
  obtain ⟨w', holder, hperf, hstep, -, -, rfl⟩ := hexec
  refine ⟨?_, pausedAt_after_le h.pausedAt e a holder, fun hnone => ?_⟩
  · rw [world_after]
    exact marks_call hperf h.marks
  · have hnone : holder = none := hnone
    by_cases he : e.part = .mutex
    · cases e with
      | lock => exact absurd (hstep.2.symm.trans hnone) nofun
      | unlock =>
        have hw : w' = s.world := hperf
        subst hw
        have hset := hp.2
        refine ⟨?_, ?_⟩
        · intro v hv
          refine hset.shown v ?_
          simpa [PoolWatch.after, PoolWatch.note, push_of_same] using hv
        · intro hf
          simpa [PoolWatch.after, PoolWatch.note, push_of_same] using hset.observed hf
      | _ => cases he
    · rw [hstep.eq_of_part he] at hnone
      have hlock : e ≠ .lock := fun heq => he (by rw [heq]; rfl)
      rw [holds_of_perm hp hlock] at hnone
      cases hnone

lemma WatchInv.drifts (h : WatchInv pool s) (hd : Drifts pool s s') : WatchInv pool s' := by
  have hdr := hd.drifted
  refine ⟨fun f hf => h.marks f (hdr.flags.symm.trans hf), ?_, fun hnone => ?_⟩
  · cases hd with
    | change hflags =>
      rw [hdr.pausedAt]
      exact Nat.le_add_right_of_le h.pausedAt
    | deliver _ _ => exact h.pausedAt
  · exact (h.idle (hdr.mutex.symm.trans hnone)).drifted hdr

/-- The other callers wait for the mutex. -/
lemma waits_of_held (ne : i ≠ j) (hp : watchPerm pool i s e)
    (hexec : (pauses ι pool gate).exec i e s a s') : s.mutex ≠ some j := by
  intro hj
  obtain ⟨w', holder, -, hstep, -⟩ := hexec
  by_cases he : e = .lock
  · subst he
    exact absurd (hstep.1.symm.trans hj) nofun
  · exact ne (Option.some.inj ((holds_of_perm hp he).symm.trans hj))

end Steps

/-- The proof plan. -/
def watching (ι : Type) (pool : String) : Discipline (pauses ι pool Steadfast) where
  inv := WatchInv pool
  perm := watchPerm pool
  rely j s s' := s.mutex = some j → Drifted pool s s'
  inv_call h hp he := h.call hp he
  rely_call ne _ hp he hj := absurd hj (waits_of_held ne hp he)
  inv_env h he := h.drifts he
  rely_env _ _ he _ := Drifts.drifted he

namespace Watching
variable {ι : Type} {pool name : String} {i : ι} {s s' : PoolWatch ι} {f g : Option (Bool × Option String)}
  {b : Bool} {x y : Bool × Option String} {e : Op} {a : Resp e} {p : MachineConfigPool} {err : Err}
  {gate : PoolWatch ι → Op → Prop} {node : Node} {nm : NodeMaintenance}

/-! ### Where a call stands -/

/-- The call holds the mutex; the flags of the pool were `f` when it began and are `g` now, and it has
changed the pool or not. -/
structure InCall (pool : String) (i : ι) (f g : Option (Bool × Option String)) (b : Bool)
    (s : PoolWatch ι) : Prop where
  mutex : s.mutex = some i
  before : s.before = f
  flags : s.world.flagsOf pool = g
  patched : s.patched = b

/-- The cache shows versions with flags `x` up to a point, and `y` from there on. -/
def Turns (x y : Bool × Option String) (s : PoolWatch ι) : Prop :=
  ∃ old new, s.queue = old ++ new ∧ (∀ v ∈ old, v.pool.flags = x) ∧
    ∀ v ∈ new, v.pool.flags = y ∧ s.pausedAt ≤ v.number

/-- The cache shows versions with flags `y` only. -/
def AllShown (y : Bool × Option String) (s : PoolWatch ι) : Prop :=
  ∀ v ∈ s.queue, v.pool.flags = y ∧ s.pausedAt ≤ v.number

/-- The call is over, but for giving the mutex back. -/
def Ended (pool : String) (i : ι) (s : PoolWatch ι) : Prop :=
  s.mutex = some i ∧ PoolSettled pool s

/-- It has done its work. -/
def Ready (pool : String) (i : ι) (s : PoolWatch ι) : Prop :=
  Ended pool i s ∧ (s.target = some pool → s.world.flagsOf pool = some operatorPause)

/-- It has failed: the pool is as it was, if the call has not changed it or says that it is busy. -/
def Failed (pool : String) (i : ι) (err : Err) (s : PoolWatch ι) : Prop :=
  s.mutex = some i ∧ (s.patched = false ∨ err.is .errMachineConfigBusy = true →
    PoolSettled pool s ∧ s.world.flagsOf pool = s.before)

lemma InCall.drifted (hd : Drifted pool s s') (h : InCall pool i f g b s) : InCall pool i f g b s' :=
  ⟨hd.mutex.trans h.mutex, hd.before.trans h.before, hd.flags.trans h.flags, hd.patched.trans h.patched⟩

lemma Turns.drifted (hinv : WatchInv pool s) (hd : Drifted pool s s')
    (hy : s.world.flagsOf pool = some y) (h : Turns x y s) : Turns x y s' := by
  obtain ⟨old, new, hqueue, hold, hnew⟩ := h
  obtain ⟨n, added, hqueue', hadded⟩ := hd.queue
  refine ⟨old.drop n, new.drop (n - old.length) ++ added, ?_, fun v hv => hold v (List.mem_of_mem_drop hv),
    fun v hv => ?_⟩
  · rw [hqueue', hqueue, List.drop_append, List.append_assoc]
  · rw [hd.pausedAt]
    rcases List.mem_append.mp hv with hv | hv
    · exact hnew v (List.mem_of_mem_drop hv)
    · obtain ⟨hflags, hnum⟩ := hadded v hv
      have hle := hinv.pausedAt
      exact ⟨Option.some.inj (hflags.symm.trans hy), by omega⟩

/-- Once the turn is seen, it is behind. -/
lemma Turns.passed {v : PoolVersion} {rest : List PoolVersion} (h : Turns x y s)
    (hqueue : s.queue = v :: rest) (hv : v.pool.flags ≠ x) : AllShown y s := by
  obtain ⟨old, new, hsplit, hold, hnew⟩ := h
  cases old with
  | nil =>
    rw [List.nil_append] at hsplit
    intro u hu
    exact hnew u (hsplit ▸ hu)
  | cons u old =>
    rw [hqueue, List.cons_append] at hsplit
    obtain ⟨rfl, -⟩ := List.cons.inj hsplit
    exact absurd (hold v (.head _)) hv

lemma AllShown.drifted (hinv : WatchInv pool s) (hd : Drifted pool s s')
    (hy : s.world.flagsOf pool = some y) (h : AllShown y s) : AllShown y s' := by
  obtain ⟨n, added, hqueue', hadded⟩ := hd.queue
  intro v hv
  rw [hqueue'] at hv
  rw [hd.pausedAt]
  rcases List.mem_append.mp hv with hv | hv
  · exact h v (List.mem_of_mem_drop hv)
  · obtain ⟨hflags, hnum⟩ := hadded v hv
    have hle := hinv.pausedAt
    exact ⟨Option.some.inj (hflags.symm.trans hy), by omega⟩

/-- The pool is settled once all versions have its flags, unless it is paused and was not checked. -/
lemma AllShown.settled (h : AllShown y s) (hy : s.world.flagsOf pool = some y)
    (hobs : y = operatorPause → s.pausedAt ≤ s.observed) : PoolSettled pool s := by
  refine ⟨fun v hv => ?_, fun hf => hobs (Option.some.inj (hy.symm.trans hf))⟩
  rw [hy, (h v hv).1]

/-! ### What outlives the moves of the others -/

lemma stable_of_drifted {A : PoolWatch ι → Prop} (hmutex : ∀ s, A s → s.mutex = some i)
    (h : ∀ s s', WatchInv pool s → Drifted pool s s' → A s → A s') : (watching ι pool).Stable i A :=
  fun s s' hinv _ hr hA => h s s' hinv (hr (hmutex s hA)) hA

/-- The call has not changed the pool. -/
def Opened (pool : String) (i : ι) (f : Option (Bool × Option String)) (s : PoolWatch ι) : Prop :=
  InCall pool i f f false s ∧ PoolSettled pool s

/-- The call has paused the pool. -/
def Paused (pool : String) (i : ι) (s : PoolWatch ι) : Prop :=
  InCall pool i (some (false, none)) (some operatorPause) true s ∧ Turns (false, none) operatorPause s

/-- It has seen the pause, on this version of the pool. -/
def Seen (pool : String) (i : ι) (p : MachineConfigPool) (s : PoolWatch ι) : Prop :=
  InCall pool i (some (false, none)) (some operatorPause) true s ∧ AllShown operatorPause s ∧
    (p.configuring = false → s.pausedAt ≤ s.observed)

/-- It has taken the pause back. -/
def Undone (pool : String) (i : ι) (s : PoolWatch ι) : Prop :=
  InCall pool i (some (false, none)) (some (false, none)) true s ∧ Turns operatorPause (false, none) s

/-- It has seen that. -/
def Back (pool : String) (i : ι) (s : PoolWatch ι) : Prop :=
  InCall pool i (some (false, none)) (some (false, none)) true s ∧ PoolSettled pool s

lemma stable_opened : (watching ι pool).Stable i (Opened pool i f) :=
  stable_of_drifted (fun _ h => h.1.mutex) fun _ _ _ hd h => ⟨h.1.drifted hd, h.2.drifted hd⟩

lemma stable_paused : (watching ι pool).Stable i (Paused pool i) :=
  stable_of_drifted (fun _ h => h.1.mutex) fun _ _ hinv hd h =>
    ⟨h.1.drifted hd, h.2.drifted hinv hd h.1.flags⟩

lemma stable_seen : (watching ι pool).Stable i (Seen pool i p) := by
  refine stable_of_drifted (fun _ h => h.1.mutex) fun s s' hinv hd h => ?_
  refine ⟨h.1.drifted hd, h.2.1.drifted hinv hd h.1.flags, ?_⟩
  rw [hd.pausedAt, hd.observed]
  exact h.2.2

lemma stable_undone : (watching ι pool).Stable i (Undone pool i) :=
  stable_of_drifted (fun _ h => h.1.mutex) fun _ _ hinv hd h =>
    ⟨h.1.drifted hd, h.2.drifted hinv hd h.1.flags⟩

lemma stable_back : (watching ι pool).Stable i (Back pool i) :=
  stable_of_drifted (fun _ h => h.1.mutex) fun _ _ _ hd h => ⟨h.1.drifted hd, h.2.drifted hd⟩

lemma stable_ended : (watching ι pool).Stable i (Ended pool i) :=
  stable_of_drifted (fun _ h => h.1) fun _ _ _ hd h => ⟨hd.mutex.trans h.1, h.2.drifted hd⟩

lemma Ready.drifted (hd : Drifted pool s s') (h : Ready pool i s) : Ready pool i s' := by
  refine ⟨⟨hd.mutex.trans h.1.1, h.1.2.drifted hd⟩, fun ht => ?_⟩
  exact hd.flags.trans (h.2 (hd.target.symm.trans ht))

lemma stable_ready : (watching ι pool).Stable i (Ready pool i) :=
  stable_of_drifted (fun _ h => h.1.1) fun _ _ _ hd h => h.drifted hd

lemma Failed.drifted (hd : Drifted pool s s') (h : Failed pool i err s) : Failed pool i err s' := by
  refine ⟨hd.mutex.trans h.1, fun hc => ?_⟩
  rw [hd.patched] at hc
  rw [hd.flags, hd.before]
  exact ⟨(h.2 hc).1.drifted hd, (h.2 hc).2⟩

lemma stable_failed : (watching ι pool).Stable i (Failed pool i err) :=
  stable_of_drifted (fun _ h => h.1) fun _ _ _ hd h => h.drifted hd

/-- Wrapping an error keeps what it says. -/
lemma Failed.wrap {msg : String} (h : Failed pool i err s) : Failed pool i (.wrap msg err) s := by
  refine ⟨h.1, fun hc => h.2 (hc.imp_right fun hb => ?_)⟩
  simpa [Err.is] using hb

lemma Opened.failed (h : Opened pool i f s) : Failed pool i err s :=
  ⟨h.1.mutex, fun _ => ⟨h.2, h.1.flags.trans h.1.before.symm⟩⟩

lemma Back.failed (h : Back pool i s) : Failed pool i err s :=
  ⟨h.1.mutex, fun _ => ⟨h.2, h.1.flags.trans h.1.before.symm⟩⟩

/-- A call that has changed the pool fails with another error. -/
lemma InCall.failed (h : InCall pool i f g true s) (he : err.is .errMachineConfigBusy = false) :
    Failed pool i err s := by
  refine ⟨h.mutex, fun hc => ?_⟩
  rw [h.patched, he] at hc
  exact absurd hc (by simp)

lemma not_busy (h : err.fromServer = true) : err.is .errMachineConfigBusy = false := by
  cases err <;> simp_all [Err.fromServer, Err.is]

/-! ### Single calls -/

/-- Calls on the way to the pool. -/
def Aside : Op → Prop
  | .getMachineConfig _ | .update _ | .getNodeMaintenance _ => True
  | _ => False

/-- A call that leaves the pool alone and puts nothing on record. -/
lemma drifted_of_call (hexec : (pauses ι pool gate).exec i e s a s') (hmutex : e.part ≠ .mutex)
    (hpool : ∀ w', Perform .cached e s.world a w' → w'.pools.get pool = s.world.pools.get pool)
    (hnote : ∀ s : PoolWatch ι, s.note pool e a = s) : Drifted pool s s' := by
  obtain ⟨w', holder, hperf, hstep, -, -, rfl⟩ := hexec
  have hsame := hpool w' hperf
  refine ⟨hstep.eq_of_part hmutex, ?_, ?_, ?_, ?_, ?_, ?_, 0, [], ?_, nofun⟩
  · rw [world_after]
    exact flagsOf_of_same hsame
  all_goals simp [PoolWatch.after, hnote, push_of_same hsame, hsame]

lemma drifted_of_aside (he : Aside e) (hexec : (pauses ι pool gate).exec i e s a s') :
    Drifted pool s s' := by
  cases e with
  | getMachineConfig _ =>
    exact drifted_of_call hexec nofun (fun w' h => by rw [h.frame.pools nofun]) fun _ => rfl
  | update _ => exact drifted_of_call hexec nofun (fun w' h => by rw [h.frame.pools nofun]) fun _ => rfl
  | getNodeMaintenance _ =>
    exact drifted_of_call hexec nofun (fun w' h => by rw [h.frame.pools nofun]) fun _ => rfl
  | _ => exact he.elim

lemma drifted_of_trace {note : Note} {a : Resp (.trace note)}
    (hexec : (pauses ι pool gate).exec i (.trace note) s a s') : Drifted pool s s' :=
  drifted_of_call hexec nofun (fun w' h => by rw [h.frame.pools nofun]) fun _ => rfl

/-- A patch of another pool. -/
lemma drifted_of_patch {a : Resp (.patchMachineConfigPool name b)} (hne : name ≠ pool)
    (hexec : (pauses ι pool gate).exec i (.patchMachineConfigPool name b) s a s') : Drifted pool s s' := by
  refine drifted_of_call hexec nofun (fun w' h => ?_) fun _ => rfl
  rcases WriteAnswer.effect h with rfl | ⟨q, hq⟩
  · rfl
  · obtain ⟨p, hp, -, rfl⟩ := World.patchPool_eq_some hq
    refine Store.get_put_ne ?_
    rw [MachineConfigPool.name_patch, Store.key_of_get hp]
    exact hne.symm

/-- A read of a pool changes nothing but the record. -/
lemma read_eq {a : Resp (.getMachineConfigPool name)}
    (hexec : (pauses ι pool gate).exec i (.getMachineConfigPool name) s a s') :
    s' = { s with target := some name, observed := if name = pool then s.seen a else s.observed } ∧
      (name = pool → Shows s.queue a) ∧ (∀ p, a = .ok p → p.name = name) ∧
      ∀ err, a = .error err → err.fromServer = true := by
  obtain ⟨w', holder, hperf, hstep, hcache, -, rfl⟩ := hexec
  obtain ⟨rfl, hread⟩ := hperf
  obtain rfl : holder = s.mutex := hstep.eq_of_part nofun
  refine ⟨?_, hcache, ?_, ?_⟩
  · simp [PoolWatch.after, push_of_same, PoolWatch.note, PoolWatch.seen, PoolWatch.shown]
  · rintro p rfl
    exact hread
  · rintro err rfl
    exact hread.1

/-- A patch of the pool fails without effect, or makes a new version, or none if it changes nothing. -/
lemma patch_eq {a : Resp (.patchMachineConfigPool pool b)}
    (hexec : (pauses ι pool gate).exec i (.patchMachineConfigPool pool b) s a s') :
    (s' = s ∧ ∃ err, a = .error err ∧ err.fromServer = true) ∨
      ∃ p w', s.world.pools.get pool = some p ∧ w'.pools.get pool = some (p.patch b) ∧
        s' = { s.push pool w' with patched := s.patched || decide (p.patch b ≠ p) } ∧
        (a = .ok (p.patch b) ∨ ∃ err, a = .error err ∧ err.fromServer = true) := by
  obtain ⟨w', holder, hperf, hstep, -, -, rfl⟩ := hexec
  obtain rfl : holder = s.mutex := hstep.eq_of_part nofun
  rcases hperf with ⟨err, herr, ha, rfl⟩ | ⟨q, hq, ha⟩
  · refine .inl ⟨?_, err, ha, herr⟩
    simp [PoolWatch.after, push_of_same, PoolWatch.note]
  · obtain ⟨p, hp, rfl, hw⟩ := World.patchPool_eq_some hq
    have hget : w'.pools.get pool = some (p.patch b) := by
      have hname : (p.patch b).name = pool := by rw [MachineConfigPool.name_patch, Store.key_of_get hp]
      rw [hw, ← hname]
      exact Store.get_put_self _ _
    refine .inr ⟨p, w', hp, hget, ?_, ?_⟩
    · simp [PoolWatch.after, PoolWatch.note, hp, hget, PoolWatch.push]
    · rcases ha with ha | ⟨err, herr, ha⟩
      · exact .inl ha
      · exact .inr ⟨err, ha, herr⟩

/-- What a patch that changes the flags makes of the cache. -/
lemma patched_fresh {w' : World} (hp : s.world.pools.get pool = some p)
    (hget : w'.pools.get pool = some (p.patch b)) (hne : (p.patch b).flags ≠ p.flags) :
    s.fresh pool w' = [⟨s.revision + 1, p.patch b⟩] ∧ decide (p.patch b ≠ p) = true := by
  have hpne : p.patch b ≠ p := fun e => hne (by rw [e])
  refine ⟨?_, by simp [hpne]⟩
  simp [PoolWatch.fresh, hp, hget, hpne.symm]

/-! ### Triples -/

lemma le_seen (s : PoolWatch ι) (a : Except Err MachineConfigPool) : s.observed ≤ s.seen a := by
  cases a with
  | ok p =>
    simp only [PoolWatch.seen]
    split
    · exact Nat.le_refl _
    · exact Nat.le_max_left _ _
  | error err => exact Nat.le_refl _

lemma le_read (s : PoolWatch ι) (a : Except Err MachineConfigPool) :
    s.observed ≤ if name = pool then s.seen a else s.observed := by
  split
  · exact le_seen s a
  · exact Nat.le_refl _

/-- The version that is shown. -/
lemma exists_of_shows {queue : List PoolVersion} (h : Shows queue (.ok p)) :
    ∃ v rest, queue = v :: rest ∧ v.pool = p := by
  cases queue with
  | nil => cases h
  | cons v rest => exact ⟨v, rest, rfl, Option.some.inj h⟩

/-- The first read. -/
lemma firstRead_triple :
    (watching ι pool).TripleX i (Opened pool i f) (Client.getMachineConfigPool name)
      (fun p s => p.name = name ∧ Opened pool i f s ∧ s.target = some name ∧
        (name = pool → f = some p.flags)) (Failed pool i) := by
  have htarget : (watching ι pool).Stable i fun s => Opened pool i f s ∧ s.target = some name :=
    stable_of_drifted (fun _ h => h.1.1.mutex) fun s s' _ hd h =>
      ⟨⟨h.1.1.drifted hd, h.1.2.drifted hd⟩, hd.target.trans h.2⟩
  refine Triple.lift stable_opened (fun _ => Stable.outcome (fun p => ?_) fun _ => stable_failed)
    (fun _ _ h => h.1.mutex) ?_
  · intro s s' hi hi' hr ⟨hname, hopen, ht, hf⟩
    obtain ⟨hopen', ht'⟩ := htarget s s' hi hi' hr ⟨hopen, ht⟩
    exact ⟨hname, hopen', ht', hf⟩
  · intro s a s' _ _ h hexec
    obtain ⟨rfl, hshows, hname, herr⟩ := read_eq hexec
    have hopen : Opened pool i f { s with
        target := some name
        observed := if name = pool then s.seen a else s.observed } :=
      ⟨⟨h.1.mutex, h.1.before, h.1.flags, h.1.patched⟩, h.2.looked (le_read s a)⟩
    refine ⟨?_, fun err _ => hopen.failed⟩
    rintro p rfl
    refine ⟨hname p rfl, hopen, rfl, fun hn => ?_⟩
    obtain ⟨v, rest, hqueue, rfl⟩ := exists_of_shows (hshows hn)
    rw [← h.1.flags]
    exact h.2.shown v (by rw [hqueue]; exact .head _)

/-- The pause patch. -/
lemma pausePatch_triple :
    (watching ι pool).TripleX i (Opened pool i (some (false, none)))
      (Client.patchMachineConfigPool pool true) (fun p s => p.name = pool ∧ Paused pool i s)
      (Failed pool i) := by
  refine Triple.lift stable_opened
    (fun _ => Stable.outcome (fun _ => (Stable.const _).and stable_paused) fun _ => stable_failed)
    (fun _ _ h => h.1.mutex) ?_
  intro s a s' _ _ h hexec
  rcases patch_eq hexec with ⟨rfl, err, rfl, -⟩ | ⟨p, w', hp, hget, rfl, ha⟩
  · exact ⟨nofun, fun _ _ => h.failed⟩
  · have hflags : p.flags = (false, none) := by
      have := h.1.flags
      rw [World.flagsOf, hp] at this
      exact Option.some.inj this
    have hnew : (p.patch true).flags = operatorPause := flags_patch p true
    have hw' : w'.flagsOf pool = some operatorPause := by
      rw [World.flagsOf, hget, Option.map_some, hnew]
    -- the patch changes the pool, so the cache will show one more version
    obtain ⟨hfresh, hchanged⟩ := patched_fresh (s := s) hp hget (by rw [hnew, hflags]; exact nofun)
    have hpaused : Paused pool i
        { s.push pool w' with patched := s.patched || decide (p.patch true ≠ p) } := by
      refine ⟨⟨h.1.mutex, h.1.before, hw', by simp [hchanged]⟩, s.queue, s.fresh pool w', rfl,
        fun v hv => ?_, fun v hv => ?_⟩
      · exact Option.some.inj ((h.2.shown v hv).symm.trans h.1.flags)
      · rw [hfresh] at hv
        obtain rfl := List.mem_singleton.mp hv
        refine ⟨hnew, ?_⟩
        simp [PoolWatch.push, hw', h.1.flags, operatorPause]
    rcases ha with rfl | ⟨err, rfl, herr⟩
    · refine ⟨?_, nofun⟩
      rintro _ ⟨⟩
      exact ⟨by rw [MachineConfigPool.name_patch, Store.key_of_get hp], hpaused⟩
    · refine ⟨nofun, ?_⟩
      rintro _ ⟨⟩
      exact hpaused.1.failed (not_busy herr)

/-- Waiting for the pause to be seen. -/
lemma poll_triple :
    (watching ι pool).TripleX i (Paused pool i) (Client.getMachineConfigPool pool)
      (fun p s => p.name = pool ∧ (p.pausedByOperator = true → Seen pool i p s) ∧
        (p.pausedByOperator = false → Paused pool i s)) (Failed pool i) := by
  refine Triple.lift stable_paused
    (fun _ => Stable.outcome (fun _ => (Stable.const _).and (stable_seen.imp.and stable_paused.imp))
      fun _ => stable_failed) (fun _ _ h => h.1.mutex) ?_
  intro s a s' _ _ h hexec
  obtain ⟨rfl, hshows, hname, herr⟩ := read_eq hexec
  have hcall : InCall pool i (some (false, none)) (some operatorPause) true { s with
      target := some pool
      observed := if pool = pool then s.seen a else s.observed } :=
    ⟨h.1.mutex, h.1.before, h.1.flags, h.1.patched⟩
  refine ⟨?_, fun err he => hcall.failed (not_busy (herr err he))⟩
  rintro p rfl
  obtain ⟨v, rest, hqueue, rfl⟩ := exists_of_shows (hshows rfl)
  refine ⟨hname _ rfl, fun hop => ?_, fun _ => ⟨hcall, h.2⟩⟩
  have hall : AllShown operatorPause s := h.2.passed hqueue fun he => by
    have hnone : v.pool.annotations.get? mcpPausedAnnotKey = none := congrArg Prod.snd he
    simp [MachineConfigPool.pausedByOperator, hnone] at hop
  refine ⟨hcall, hall, fun hidle => ?_⟩
  have hnum := (hall v (by rw [hqueue]; exact .head _)).2
  have hshown : s.shown = v.number := by simp [PoolWatch.shown, hqueue]
  simp only [if_true, PoolWatch.seen, hidle, hshown]
  exact Nat.le_trans hnum (Nat.le_max_right _ _)

/-- The patch that takes the pause back. -/
lemma undo_triple :
    (watching ι pool).TripleX i (Seen pool i p) (Client.patchMachineConfigPool pool false)
      (fun q s => q.name = pool ∧ Undone pool i s) (Failed pool i) := by
  refine Triple.lift stable_seen
    (fun _ => Stable.outcome (fun _ => (Stable.const _).and stable_undone) fun _ => stable_failed)
    (fun _ _ h => h.1.mutex) ?_
  intro s a s' hinv _ h hexec
  rcases patch_eq hexec with ⟨rfl, err, rfl, herr⟩ | ⟨q, w', hq, hget, rfl, ha⟩
  · refine ⟨nofun, ?_⟩
    rintro _ ⟨⟩
    exact h.1.failed (not_busy herr)
  · have hflags : q.flags = operatorPause := by
      have := h.1.flags
      rw [World.flagsOf, hq] at this
      exact Option.some.inj this
    have hnew : (q.patch false).flags = (false, none) := flags_patch q false
    have hw' : w'.flagsOf pool = some (false, none) := by
      rw [World.flagsOf, hget, Option.map_some, hnew]
    obtain ⟨hfresh, -⟩ := patched_fresh (s := s) hq hget (by rw [hnew, hflags]; exact nofun)
    have hundone : Undone pool i
        { s.push pool w' with patched := s.patched || decide (q.patch false ≠ q) } := by
      refine ⟨⟨h.1.mutex, h.1.before, hw', by simp [h.1.patched]⟩, s.queue, s.fresh pool w', rfl,
        fun v hv => (h.2.1 v hv).1, fun v hv => ?_⟩
      rw [hfresh] at hv
      obtain rfl := List.mem_singleton.mp hv
      refine ⟨hnew, ?_⟩
      have hle := hinv.pausedAt
      simp only [PoolWatch.push, hw', operatorPause]
      simp
      omega
    rcases ha with rfl | ⟨err, rfl, herr⟩
    · refine ⟨?_, nofun⟩
      rintro _ ⟨⟩
      exact ⟨by rw [MachineConfigPool.name_patch, Store.key_of_get hq], hundone⟩
    · refine ⟨nofun, ?_⟩
      rintro _ ⟨⟩
      exact hundone.1.failed (not_busy herr)

/-- Waiting for that to be seen. -/
lemma pollBack_triple :
    (watching ι pool).TripleX i (Undone pool i) (Client.getMachineConfigPool pool)
      (fun p s => (p.annotated = false → Back pool i s) ∧ (p.annotated = true → Undone pool i s))
      (Failed pool i) := by
  refine Triple.lift stable_undone
    (fun _ => Stable.outcome (fun _ => stable_back.imp.and stable_undone.imp) fun _ => stable_failed)
    (fun _ _ h => h.1.mutex) ?_
  intro s a s' _ _ h hexec
  obtain ⟨rfl, hshows, -, herr⟩ := read_eq hexec
  have hcall : InCall pool i (some (false, none)) (some (false, none)) true { s with
      target := some pool
      observed := if pool = pool then s.seen a else s.observed } :=
    ⟨h.1.mutex, h.1.before, h.1.flags, h.1.patched⟩
  refine ⟨?_, fun err he => hcall.failed (not_busy (herr err he))⟩
  rintro p rfl
  obtain ⟨v, rest, hqueue, rfl⟩ := exists_of_shows (hshows rfl)
  refine ⟨fun hann => ⟨hcall, ?_⟩, fun _ => ⟨hcall, h.2⟩⟩
  have hall : AllShown (false, none) s := h.2.passed hqueue fun he => by
    have hsome : v.pool.annotations.get? mcpPausedAnnotKey = some mcpPausedAnnotValue :=
      congrArg Prod.snd he
    simp [MachineConfigPool.annotated, hsome] at hann
  exact (hall.settled h.1.flags fun he => by simp [operatorPause] at he).looked (le_read s _)

lemma deadline_not_busy : (Err.other "context deadline exceeded").is .errMachineConfigBusy = false := rfl

/-- Marks the operator may find on a pool, if the pool carries its annotation. -/
lemma flags_of_pausedByOperator {p : MachineConfigPool} (hmarks : p.flags.2 = none ∨ p.flags = operatorPause)
    (hop : p.pausedByOperator = true) : p.flags = operatorPause := by
  rcases hmarks with hnone | hpause
  · have hnone : p.annotations.get? mcpPausedAnnotKey = none := hnone
    simp [MachineConfigPool.pausedByOperator, hnone] at hop
  · exact hpause

/-- And if the pool is paused neither by the operator nor by another entity. -/
lemma flags_of_unpaused {p : MachineConfigPool} (hmarks : p.flags.2 = none ∨ p.flags = operatorPause)
    (hop : p.pausedByOperator = false) (hforeign : ¬(p.paused = true ∧ p.annotated = false)) :
    p.flags = (false, none) := by
  rcases hmarks with hnone | hpause
  · have hnone : p.annotations.get? mcpPausedAnnotKey = none := hnone
    have hann : p.annotated = false := by simp [MachineConfigPool.annotated, hnone]
    have hpaused : p.paused = false := by simpa [hann] using hforeign
    rw [MachineConfigPool.flags, hnone, hpaused]
  · have hsome : p.annotations.get? mcpPausedAnnotKey = some mcpPausedAnnotValue :=
      congrArg Prod.snd hpause
    simp [MachineConfigPool.pausedByOperator, hsome] at hop

/-- The pool step on this pool. -/
lemma walk_here : PauseWalk (watching ι pool) i pool (Opened pool i f) (Opened pool i (some (false, none)))
    (Paused pool i) (Undone pool i) (Back pool i) (Ready pool i)
    (fun p s => Opened pool i f s ∧ f = some p.flags) (Seen pool i) (Failed pool i) where
  stable_read _ := stable_opened.and (Stable.const _)
  stable_paused := stable_paused
  stable_seen _ := stable_seen
  stable_undone := stable_undone
  stable_back := stable_back
  stable_error _ := stable_failed
  wrap h := h.wrap
  read := firstRead_triple.conseq (fun _ _ h => h) (fun p s _ h => ⟨h.1, h.2.1, h.2.2.2 rfl⟩)
    fun _ _ _ h => h
  done {p s} hinv h hop := by
    refine ⟨⟨h.1.1.mutex, h.1.2⟩, fun _ => ?_⟩
    have hflags := h.1.1.flags.trans h.2
    rw [hflags, flags_of_pausedByOperator (hinv.marks _ hflags) hop]
  busy _ h _ := h.1.failed
  go {p s} hinv h hop hforeign := by
    have hflags := h.1.1.flags.trans h.2
    have hf : f = some (false, none) := by
      rw [h.2, flags_of_unpaused (hinv.marks _ hflags) hop hforeign]
    exact hf ▸ h.1
  pause := pausePatch_triple
  poll := poll_triple
  late _ h := h.1.failed deadline_not_busy
  idle _ h hidle := ⟨⟨h.1.mutex, h.2.1.settled h.1.flags fun _ => h.2.2 hidle⟩, fun _ => h.1.flags⟩
  undo _ := undo_triple
  pollBack := pollBack_triple
  lateBack _ h := h.1.failed deadline_not_busy
  back _ h := h.failed

/-- The call has not changed the pool, and works on another one. -/
def Elsewhere (pool : String) (i : ι) (f : Option (Bool × Option String)) (s : PoolWatch ι) : Prop :=
  Opened pool i f s ∧ s.target ≠ some pool

lemma Elsewhere.drifted (hd : Drifted pool s s') (h : Elsewhere pool i f s) : Elsewhere pool i f s' :=
  ⟨⟨h.1.1.drifted hd, h.1.2.drifted hd⟩, hd.target.symm ▸ h.2⟩

lemma stable_elsewhere : (watching ι pool).Stable i (Elsewhere pool i f) :=
  stable_of_drifted (fun _ h => h.1.1.mutex) fun _ _ _ hd h => h.drifted hd

lemma otherRead_triple (hne : name ≠ pool) :
    (watching ι pool).TripleX i (Opened pool i f) (Client.getMachineConfigPool name)
      (fun p s => p.name = name ∧ Elsewhere pool i f s) (Failed pool i) :=
  firstRead_triple.conseq (fun _ _ h => h) (fun _ _ _ h => ⟨h.1, h.2.1, fun ht =>
    hne (Option.some.inj (h.2.2.1.symm.trans ht))⟩) fun _ _ _ h => h

lemma otherPatch_triple (hne : name ≠ pool) :
    (watching ι pool).TripleX i (Elsewhere pool i f) (Client.patchMachineConfigPool name b)
      (fun p s => p.name = name ∧ Elsewhere pool i f s) (Failed pool i) := by
  refine Triple.lift stable_elsewhere
    (fun _ => Stable.outcome (fun _ => (Stable.const _).and stable_elsewhere) fun _ => stable_failed)
    (fun _ _ h => h.1.1.mutex) ?_
  intro s a s' _ _ h hexec
  have h' := h.drifted (drifted_of_patch hne hexec)
  refine ⟨?_, fun err _ => h'.1.failed⟩
  rintro q rfl
  obtain ⟨w', holder, hperf, -⟩ := hexec
  obtain ⟨p, hp, rfl, -⟩ := World.patchPool_eq_some (WriteAnswer.ok hperf)
  exact ⟨by rw [MachineConfigPool.name_patch, Store.key_of_get hp], h'⟩

/-- The pool step on another pool. -/
lemma walk_elsewhere (hne : name ≠ pool) : PauseWalk (watching ι pool) i name (Opened pool i f)
    (Elsewhere pool i f) (Elsewhere pool i f) (Elsewhere pool i f) (Elsewhere pool i f) (Ready pool i)
    (fun _ => Elsewhere pool i f) (fun _ => Elsewhere pool i f) (Failed pool i) where
  stable_read _ := stable_elsewhere
  stable_paused := stable_elsewhere
  stable_seen _ := stable_elsewhere
  stable_undone := stable_elsewhere
  stable_back := stable_elsewhere
  stable_error _ := stable_failed
  wrap h := h.wrap
  read := otherRead_triple hne
  done _ h _ := ⟨⟨h.1.1.mutex, h.1.2⟩, fun ht => absurd ht h.2⟩
  busy _ h _ := h.1.failed
  go _ h _ _ := h
  pause := otherPatch_triple hne
  poll := (otherRead_triple hne).conseq (fun _ _ h => h.1) (fun _ _ _ h => ⟨h.1, fun _ => h.2, fun _ => h.2⟩)
    fun _ _ _ h => h
  late _ h := h.1.failed
  idle _ h _ := ⟨⟨h.1.1.mutex, h.1.2⟩, fun ht => absurd ht h.2⟩
  undo _ := otherPatch_triple hne
  pollBack := (otherRead_triple hne).conseq (fun _ _ h => h.1) (fun _ _ _ h => ⟨fun _ => h.2, fun _ => h.2⟩)
    fun _ _ _ h => h
  lateBack _ h := h.1.failed
  back _ h := h.1.failed

/-- Calls on the way to the pool. -/
lemma aside_triple {β : Type} {y : Action β} (h : AllE Aside y) :
    (watching ι pool).TripleX i (Opened pool i f) y (fun _ => Opened pool i f) (Failed pool i) := by
  refine TripleX.conseq (TripleX.of_all stable_opened (fun s e _ hs he => ?_) ?_ h) (fun _ _ h => h)
    (fun _ _ _ h => h) fun _ _ _ h => h.failed
  · cases e with
    | getMachineConfig _ => exact hs.1.mutex
    | update _ => exact hs.1.mutex
    | getNodeMaintenance _ => exact hs.1.mutex
    | _ => exact he.elim
  · intro s e r s' _ _ hs he hexec
    have hd := drifted_of_aside he hexec
    exact ⟨hs.1.drifted hd, hs.2.drifted hd⟩

lemma pauseLocked_triple :
    (watching ι pool).TripleX i (Opened pool i f) (pauseLocked node nm) (fun _ => Ready pool i)
      (Failed pool i) := by
  have hname : AllE Aside (getMCPName node) := getMCPName_all fun _ => trivial
  have hlabel : ∀ mcpName, AllE Aside (setMCPLabel nm mcpName) := by
    intro mcpName
    refine .ite (.bind (.adapt (call_all trivial)) fun a => ?_) .pure
    have hget : AllE Aside (Client.getNodeMaintenance a.key) := call_all trivial
    exact .adapt (waitForObjectUpdate_all hget _)
  have hX : ∀ err, (watching ι pool).Stable i (Failed pool i err) := fun _ => stable_failed
  refine TripleX.bind hX (aside_triple (.adapt hname)) fun mcpName => ?_
  refine TripleX.bind hX (aside_triple (hlabel mcpName)) fun a => ?_
  refine TripleX.bind hX (B := fun _ => Ready pool i) ?_ fun _ => .pure stable_ready fun _ _ h => h
  by_cases hne : mcpName = pool
  · subst hne
    exact walk_here.pausePool_triple
  · exact (walk_elsewhere hne).pausePool_triple

/-- The mutex is taken. -/
lemma lock_triple :
    (watching ι pool).Triple i (fun _ => True) (issue .lock) fun _ s => ∃ f, Opened pool i f s := by
  refine Triple.lift (Stable.const _) (fun _ s s' hi hi' hr h => ?_) (fun _ _ _ => trivial) ?_
  · obtain ⟨f, hopen⟩ := h
    exact ⟨f, stable_opened s s' hi hi' hr hopen⟩
  · rintro s _ s' hinv - - ⟨w', holder, hperf, hstep, -, -, rfl⟩
    obtain rfl : w' = s.world := hperf
    have hset := hinv.idle hstep.1
    refine ⟨s.world.flagsOf pool, ⟨hstep.2, rfl, ?_, rfl⟩, ?_, ?_⟩
    · rw [world_after]
    · rw [world_after]
      intro v hv
      refine hset.shown v ?_
      simpa [PoolWatch.after, PoolWatch.note, push_of_same] using hv
    · rw [world_after]
      intro hf
      simpa [PoolWatch.after, PoolWatch.note, push_of_same] using hset.observed hf

/-- What the call says at its end is true, and after that the mutex can be given back. -/
lemma note_triple (res : Except Err NodeMaintenance) :
    (watching ι pool).Triple i
      (fun s => (∀ a, res = .ok a → Ready pool i s) ∧ ∀ err, res = .error err → Failed pool i err s)
      (issue (.trace (.pauseMCP nm (errorOf res)))) fun _ s => Ended pool i s := by
  cases res with
  | ok a =>
    refine Triple.pre (Triple.lift stable_ready (fun _ => stable_ended) ?_ ?_) fun s _ h => h.1 a rfl
    · exact fun s _ h => ⟨h.1.1, fun ht => ⟨h.2 ht, h.1.2.observed (h.2 ht)⟩⟩
    · exact fun s _ s' _ _ h hexec => (h.drifted (drifted_of_trace hexec)).1
  | error err =>
    refine Triple.pre (Triple.lift stable_failed (fun _ => stable_ended) ?_ ?_) fun s _ h => h.2 err rfl
    · exact fun s _ h => ⟨h.1, fun hbusy => (h.2 (.inr hbusy)).2⟩
    · intro s _ s' _ _ h hexec
      have hd := drifted_of_trace hexec
      obtain ⟨w', holder, -, -, -, hgate, -⟩ := hexec
      have hc : s.patched = false ∨ err.is .errMachineConfigBusy = true := by
        cases hp : s.patched with
        | false => exact .inl rfl
        | true => exact .inr (hgate hp)
      exact ⟨hd.mutex.trans h.1, (h.2 hc).1.drifted hd⟩

theorem pauseMCP_triple :
    (watching ι pool).TripleE i (fun _ => True) (pauseMCP node nm) fun _ _ => True := by
  have hbody : (watching ι pool).TripleX i (fun s => ∃ f, Opened pool i f s)
      (do let r ← observe (pauseLocked node nm)
          trace (.pauseMCP nm (errorOf r))
          liftExcept r) (fun _ => Ended pool i) fun _ => Ended pool i := by
    refine Triple.of_exists fun f => ?_
    refine TripleX.bind (fun _ => stable_ended) (TripleX.lift pauseLocked_triple) fun res => ?_
    refine TripleX.bind (fun _ => stable_ended) (TripleX.lift (note_triple res)) fun _ => ?_
    cases res with
    | ok a => exact .pure stable_ended fun _ _ h => h
    | error err => exact .throw stable_ended fun _ _ h => h
  refine Host.withLock_triple (fun _ => Stable.const _) lock_triple hbody fun res => ?_
  refine Triple.pre (B := Ended pool i) ?_ fun s _ h => ?_
  · exact Triple.lift stable_ended (fun _ => Stable.const _) (fun _ _ h => h)
      fun _ _ _ _ _ _ _ _ _ => trivial
  · cases res with
    | ok a => exact h.1 a rfl
    | error err => exact h.2 err rfl

end Watching

/-! ### Runs -/

section Runs
variable {ι : Type} [DecidableEq ι]

/-- No call is under way, and the cache is up to date. -/
def startWatch (w : World) (p : MachineConfigPool) :
    Config ι Op Resp (PoolWatch ι) (Except Err NodeMaintenance) :=
  ⟨⟨w, none, [⟨0, p⟩], 0, 0, 0, none, none, false⟩, fun _ => none⟩

end Runs

/-! ### Computed runs -/

/-- Moves of the others as data: a configuration change begins, and the cache is told of a version. -/
inductive WatchMove where
  | rollOut (config : String)
  | deliver

/-- The cluster once a configuration change has begun. -/
def World.rollOut (w : World) (p : MachineConfigPool) (config : String) : World :=
  { w with pools := w.pools.put { p with specConfiguration := config } }

/-- What such a move does, if it can happen. -/
def PoolWatch.drift {ι : Type} (s : PoolWatch ι) (pool : String) : WatchMove → Option (PoolWatch ι)
  | .rollOut config => (s.world.pools.get pool).map fun p => s.push pool (s.world.rollOut p config)
  | .deliver => match s.queue with
    | _ :: v :: queue => some { s with queue := v :: queue }
    | _ => none

lemma flagsOf_rollOut {w : World} {pool config : String} {p : MachineConfigPool}
    (hp : w.pools.get pool = some p) : (w.rollOut p config).flagsOf pool = w.flagsOf pool := by
  obtain rfl := Store.key_of_get hp
  have hput := Store.get_put_self w.pools { p with specConfiguration := config }
  have hget : (w.rollOut p config).pools.get p.name = some { p with specConfiguration := config } := hput
  rw [World.flagsOf, World.flagsOf, hget, hp]
  rfl

/-- Answers of a server that is up and of a cache that is asked; a deaf one does not answer the calls that
have changed the pool. -/
def PoolWatch.serve (deaf : Bool) (s : PoolWatch (Fin 2)) : (e : Op) → Option (Resp e × World)
  | .getMachineConfigPool name =>
    if deaf && s.patched then some (.error (.other "timeout"), s.world)
    else (s.queue.head?.filter fun v => v.pool.name = name).map fun v => (.ok v.pool, s.world)
  | e => if ∀ o ∈ s.world.nms.items, o ∈ s.world.history then s.world.serve e else none

lemma PoolWatch.spec_of_serve (pool : String) {deaf : Bool} {s : PoolWatch (Fin 2)} {e : Op} {a : Resp e}
    {w' : World} (h : s.serve deaf e = some (a, w')) :
    Perform .cached e s.world a w' ∧ CacheAnswer pool s.queue e a := by
  have hother : (if ∀ o ∈ s.world.nms.items, o ∈ s.world.history then s.world.serve e else none) =
      some (a, w') → Perform .cached e s.world a w' := by
    intro h
    split at h
    · rename_i hup
      exact (World.perform_of_serve h).cached hup
    · cases h
  cases e with
  | getMachineConfigPool name =>
    simp only [PoolWatch.serve] at h
    split at h
    · cases h
      exact ⟨⟨rfl, rfl, nofun⟩, fun _ => trivial⟩
    · obtain ⟨v, hv, heq⟩ := Option.map_eq_some_iff.mp h
      cases heq
      obtain ⟨hhead, hname⟩ := Option.filter_eq_some_iff.mp hv
      have hname : v.pool.name = name := of_decide_eq_true hname
      refine ⟨⟨rfl, hname⟩, fun _ => ?_⟩
      rw [Shows, hhead]
      rfl
  | _ => exact ⟨hother h, trivial⟩

/-- An object that carries the label of the pool already, as it does when a call is repeated. -/
def labelledMaintenance : NodeMaintenance :=
  { drainedMaintenance "nm" with labels := [(mcpNameLabelKey, "worker")] }

/-- A call that may end: one that has changed the pool says that it is busy. -/
def steadfast (s : PoolWatch (Fin 2)) : Op → Bool
  | .trace (.pauseMCP _ (some err)) => !s.patched || err.is .errMachineConfigBusy
  | _ => true

lemma steadfast_of_eq_true {s : PoolWatch (Fin 2)} {e : Op} (h : steadfast s e = true) : Steadfast s e := by
  cases e with
  | trace note =>
    cases note with
    | pauseMCP nm err =>
      cases err with
      | none => trivial
      | some err =>
        intro hp
        simpa [steadfast, hp] using h
    | _ => trivial
  | _ => trivial

/-- A player for two callers. -/
def cachePlayer {gate : PoolWatch (Fin 2) → Op → Prop} (deaf : Bool) (passes : PoolWatch (Fin 2) → Op → Bool)
    (hgate : ∀ s e, passes s e = true → gate s e) : Player (pauses (Fin 2) "worker" gate) WatchMove where
  program _ := some (pauseMCP workerNode labelledMaintenance).run
  body h := ⟨_, _, (Option.some.inj h).symm⟩
  answer i e s := if passes s e then
      (s.serve deaf e).bind fun aw => (mutexAfter i s.mutex e).map fun holder =>
        (aw.1, s.after "worker" e aw.1 aw.2 holder)
    else none
  exec {i e s a s'} h := by
    split at h
    · rename_i hpass
      obtain ⟨aw, hserve, h⟩ := Option.bind_eq_some_iff.mp h
      obtain ⟨holder, hstep, h⟩ := Option.map_eq_some_iff.mp h
      cases h
      obtain ⟨hperf, hcache⟩ := PoolWatch.spec_of_serve "worker" hserve
      exact ⟨aw.2, holder, hperf, mutexStep_of_after hstep, hcache, hgate s e hpass, rfl⟩
    · cases h
  event v s := s.drift "worker" v
  env {v c s'} h := by
    cases v with
    | rollOut config =>
      obtain ⟨p, hp, rfl⟩ := Option.map_eq_some_iff.mp h
      exact .change (flagsOf_rollOut hp)
    | deliver =>
      simp only [PoolWatch.drift] at h
      split at h
      · rename_i v₁ v queue hqueue
        cases h
        exact .deliver hqueue nofun
      · cases h

/-- The outcome that a caller is about to put on record. -/
def outcomeOf (c : Config (Fin 2) Op Resp (PoolWatch (Fin 2)) (Except Err NodeMaintenance)) (i : Fin 2) :
    Option (Option Err) :=
  match c.threads i with
  | some (.call (.trace (.pauseMCP _ outcome)) _) => some outcome
  | _ => none

lemma exists_of_outcomeOf {c : Config (Fin 2) Op Resp (PoolWatch (Fin 2)) (Except Err NodeMaintenance)}
    {i : Fin 2} {outcome : Option Err} (h : outcomeOf c i = some outcome) :
    ∃ nm k, c.threads i = some (.call (.trace (.pauseMCP nm outcome)) k) := by
  unfold outcomeOf at h
  split at h
  · rename_i nm outcome' k hcall
    cases h
    exact ⟨nm, k, hcall⟩
  · cases h

/-- The pool of the workers. -/
def restingPool : MachineConfigPool := ⟨"worker", [], none, false, "rendered-worker", "rendered-worker"⟩

end MaintenanceOperator
