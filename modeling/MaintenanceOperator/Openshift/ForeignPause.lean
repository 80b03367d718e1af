import MaintenanceOperator.Cluster.Serve
import MaintenanceOperator.Lib.Script
import MaintenanceOperator.Openshift.Walk

/-!
# Pauses of an administrator

Any number of callers run `PauseMCP` and `UnpauseMCP`, one call of the API at a time, next to an
administrator who pauses pools that are not paused, and takes these pauses back. `PauseMCP` reads the
pool, and patches it later on whatever has become of it: if the administrator has paused the pool in
between, the operator's annotation ends up on a pause that is not its own, and is taken for a licence to
unpause it (`foreign_pause_undone`). In runs in which no pause patch comes down on a pause of the
administrator, the latter is never undone (`foreign_pause_kept`).
-/

namespace MaintenanceOperator
open Lib Discipline

/-- The cluster, the holder of the manager's mutex, and the pools that the administrator keeps paused. -/
structure Contended (ι : Type) where
  world : World
  mutex : Option ι
  held : List String

/-- Calls of the pool manager. -/
inductive PoolCall where
  | pauseMCP (node : Node) (nm : NodeMaintenance)
  | unpauseMCP (node : Node) (nm : NodeMaintenance)

/-- Their programs. -/
def PoolCall.run : PoolCall → Action Unit
  | .pauseMCP node nm => do let _ ← MaintenanceOperator.pauseMCP node nm
  | .unpauseMCP node nm => MaintenanceOperator.unpauseMCP node nm

/-- The cluster with the paused flag of a pool set. -/
def World.setPaused (w : World) (p : MachineConfigPool) (paused : Bool) : World :=
  { w with pools := w.pools.put { p with paused := paused } }

/-- Moves of the others: the administrator pauses a pool and takes the pause back; everything but the
flags and the annotations of the pools may change at any time. -/
inductive Meddling {ι : Type} : Contended ι → Contended ι → Prop where
  | pause {s name p} : s.world.pools.get name = some p → p.paused = false →
      Meddling s { s with world := s.world.setPaused p true, held := name :: s.held }
  | unpause {s name p} : s.world.pools.get name = some p → name ∈ s.held →
      Meddling s { s with
        world := s.world.setPaused p false
        held := s.held.filter (· ≠ name) }
  | other {s : Contended ι} {w} :
      (∀ name, (w.pools.get name).map MachineConfigPool.flags =
        (s.world.pools.get name).map MachineConfigPool.flags) → Meddling s { s with world := w }

/-- Callers and the administrator; the calls taken into account are those that pass the gate. -/
def contended (ι : Type) (gate : Contended ι → Op → Contended ι → Prop) :
    System ι Op Resp (Contended ι) (Except Err Unit) where
  exec i e s a s' := Perform .current e s.world a s'.world ∧ mutexStep i e s.mutex s'.mutex ∧
    s'.held = s.held ∧ gate s e s'
  env c s' := Meddling c.state s'
  body _ p := ∃ call : PoolCall, p = call.run.run

/-- No pause patch takes effect on a pool that the administrator keeps paused. -/
def Respectful {ι : Type} (s : Contended ι) (e : Op) (s' : Contended ι) : Prop :=
  ∀ name, e = .patchMachineConfigPool name true → name ∈ s.held → s'.world = s.world

/-- The annotated pools are paused by the operator, those that the administrator keeps are paused. -/
structure PauseInv {ι : Type} (s : Contended ι) : Prop where
  annotated : ∀ {name p}, s.world.pools.get name = some p → p.annotated = true →
    p.paused = true ∧ name ∉ s.held
  held : ∀ {name p}, s.world.pools.get name = some p → name ∈ s.held → p.paused = true

namespace Foreign
variable {ι : Type} {i j : ι} {s s' : Contended ι} {e : Op} {a : Resp e} {name : String}
  {node : Node} {nm : NodeMaintenance}

/-! ### Steps -/

lemma get_setPaused {w : World} {p p' : MachineConfigPool} {paused : Bool} {name' : String}
    (hp : w.pools.get name = some p) (hp' : (w.setPaused p paused).pools.get name' = some p') :
    name' = name ∧ p' = { p with paused := paused } ∨ name' ≠ name ∧ w.pools.get name' = some p' := by
  obtain rfl := Store.key_of_get hp
  by_cases e : name' = p.name
  · subst e
    have hput := Store.get_put_self w.pools { p with paused := paused }
    exact .inl ⟨rfl, (Option.some.inj (hput.symm.trans hp')).symm⟩
  · have hput : (w.pools.put { p with paused := paused }).get name' = w.pools.get name' :=
      Store.get_put_ne e
    exact .inr ⟨e, hput.symm.trans hp'⟩

/-- A pool as it was before a move that keeps its flags. -/
lemma flags_before {w w' : World} {p' : MachineConfigPool}
    (h : (w'.pools.get name).map MachineConfigPool.flags =
      (w.pools.get name).map MachineConfigPool.flags) (hp' : w'.pools.get name = some p') :
    ∃ p, w.pools.get name = some p ∧ p'.paused = p.paused ∧ p'.annotated = p.annotated := by
  rw [hp'] at h
  obtain ⟨p, hp, hflags⟩ := Option.map_eq_some_iff.mp h.symm
  exact ⟨p, hp, (MachineConfigPool.paused_of_flags hflags).symm,
    (MachineConfigPool.annotated_of_flags hflags).symm⟩

lemma PauseInv.meddle (h : PauseInv s) (st : Meddling s s') : PauseInv s' := by
  cases st with
  | @pause name p hp hpaused =>
    -- an annotated pool is paused, so this one is not annotated
    have hannot : p.annotated = false := by
      by_contra hannot
      rw [(h.annotated hp (by simpa using hannot)).1] at hpaused
      cases hpaused
    refine ⟨fun {name' p'} hp' hannot' => ?_, fun {name' p'} hp' hheld => ?_⟩
    · rcases get_setPaused hp hp' with ⟨rfl, rfl⟩ | ⟨ne, hp'⟩
      · exact absurd (hannot.symm.trans hannot') nofun
      · obtain ⟨hpaused', hheld⟩ := h.annotated hp' hannot'
        exact ⟨hpaused', by simp [ne, hheld]⟩
    · rcases get_setPaused hp hp' with ⟨rfl, rfl⟩ | ⟨ne, hp'⟩
      · rfl
      · exact h.held hp' ((List.mem_cons.mp hheld).resolve_left ne)
  | @unpause name p hp hheld =>
    refine ⟨fun {name' p'} hp' hannot' => ?_, fun {name' p'} hp' hheld' => ?_⟩
    · rcases get_setPaused hp hp' with ⟨rfl, rfl⟩ | ⟨ne, hp'⟩
      · exact absurd hheld (h.annotated hp hannot').2
      · obtain ⟨hpaused', hheld'⟩ := h.annotated hp' hannot'
        exact ⟨hpaused', by simp [hheld']⟩
    · obtain ⟨hheld', ne⟩ := List.mem_filter.mp hheld'
      rcases get_setPaused hp hp' with ⟨rfl, rfl⟩ | ⟨-, hp'⟩
      · simp at ne
      · exact h.held hp' hheld'
  | @other w hflags =>
    refine ⟨fun {name' p'} hp' hannot' => ?_, fun {name' p'} hp' hheld => ?_⟩
    · obtain ⟨p, hp, hpaused, hannot⟩ := flags_before (hflags name') hp'
      rw [hpaused]
      exact h.annotated hp (hannot ▸ hannot')
    · obtain ⟨p, hp, hpaused, hannot⟩ := flags_before (hflags name') hp'
      rw [hpaused]
      exact h.held hp hheld

/-- The caller holds the mutex. -/
def Locked (i : ι) (s : Contended ι) : Prop := s.mutex = some i

/-- The caller holds the mutex, and the pool carries the operator's annotation. -/
def Marked (i : ι) (name : String) (s : Contended ι) : Prop :=
  s.mutex = some i ∧ ∀ p, s.world.pools.get name = some p → p.annotated = true

/-- What a caller must know before a call. -/
def perm (i : ι) (s : Contended ι) : Op → Prop
  | .patchMachineConfigPool name false => Marked i name s
  | .patchMachineConfigPool _ true => Locked i s
  | .unlock => Locked i s
  | _ => True

/-- What a caller relies on while it holds the mutex. -/
def Rely (j : ι) (s s' : Contended ι) : Prop :=
  s.mutex = some j → s'.mutex = some j ∧ ∀ name p', s'.world.pools.get name = some p' →
    ∃ p, s.world.pools.get name = some p ∧ p'.annotated = p.annotated

lemma PauseInv.call (h : PauseInv s) (hp : perm i s e)
    (hexec : (contended ι Respectful).exec i e s a s') : PauseInv s' := by
  obtain ⟨hperf, -, hheld, hgate⟩ := hexec
  by_cases hpart : e.part = .pools
  · cases e with
    | patchMachineConfigPool name pause =>
      rcases WriteAnswer.effect hperf with hw | ⟨p', hw⟩
      · exact ⟨by rw [hw, hheld]; exact h.annotated, by rw [hw, hheld]; exact h.held⟩
      · obtain ⟨p, hpool, -, hw⟩ := World.patchPool_eq_some hw
        -- the administrator does not keep this pool
        have hfree : s'.world = s.world ∨ name ∉ s.held := by
          cases pause with
          | true => exact or_iff_not_imp_right.mpr fun hin => hgate name rfl (not_not.mp hin)
          | false => exact .inr (h.annotated hpool (hp.2 p hpool)).2
        rcases hfree with hsame | hfree
        · exact ⟨by rw [hsame, hheld]; exact h.annotated, by rw [hsame, hheld]; exact h.held⟩
        refine ⟨fun {name' q} hq hannot => ?_, fun {name' q} hq hin => ?_⟩
        · rw [hheld]
          rw [hw] at hq
          rcases World.get_patchPool hpool hq with ⟨rfl, rfl⟩ | ⟨-, hq⟩
          · exact ⟨by simpa using hannot, hfree⟩
          · exact h.annotated hq hannot
        · rw [hheld] at hin
          rw [hw] at hq
          rcases World.get_patchPool hpool hq with ⟨rfl, rfl⟩ | ⟨-, hq⟩
          · exact absurd hin hfree
          · exact h.held hq hin
    | _ => cases hpart
  · have hpools := hperf.frame.pools hpart
    exact ⟨by rw [hpools, hheld]; exact h.annotated, by rw [hpools, hheld]; exact h.held⟩

/-- Calls that are neither on pools nor on the mutex. -/
lemma rely_quiet (hexec : (contended ι Respectful).exec i e s a s') (hpools : e.part ≠ .pools)
    (hmutex : e.part ≠ .mutex) : Rely j s s' := by
  obtain ⟨hperf, hstep, -⟩ := hexec
  intro hj
  refine ⟨(hstep.eq_of_part hmutex).trans hj, fun name p' hp' => ?_⟩
  rw [hperf.frame.pools hpools] at hp'
  exact ⟨p', hp', rfl⟩

/-- The holder of the mutex is not disturbed by the other callers. -/
lemma rely_call (ne : i ≠ j) (hp : perm i s e) (hexec : (contended ι Respectful).exec i e s a s') :
    Rely j s s' := by
  have hother : s.mutex = some i → Rely j s s' := fun hi hj =>
    absurd (Option.some.inj (hi.symm.trans hj)) ne
  cases e with
  | lock =>
    intro hj
    have hnone : s.mutex = none := hexec.2.1.1
    rw [hnone] at hj
    cases hj
  | unlock => exact hother hp
  | patchMachineConfigPool name pause =>
    cases pause with
    | true => exact hother hp
    | false => exact hother hp.1
  | _ => exact rely_quiet hexec nofun nofun

/-- Nor by the administrator. -/
lemma rely_meddle (st : Meddling s s') : Rely j s s' := by
  intro hj
  cases st with
  | @pause name p hp _ =>
    refine ⟨hj, fun name' p' hp' => ?_⟩
    rcases get_setPaused hp hp' with ⟨rfl, rfl⟩ | ⟨-, hp'⟩
    · exact ⟨p, hp, rfl⟩
    · exact ⟨p', hp', rfl⟩
  | @unpause name p hp _ =>
    refine ⟨hj, fun name' p' hp' => ?_⟩
    rcases get_setPaused hp hp' with ⟨rfl, rfl⟩ | ⟨-, hp'⟩
    · exact ⟨p, hp, rfl⟩
    · exact ⟨p', hp', rfl⟩
  | @other w hflags =>
    refine ⟨hj, fun name' p' hp' => ?_⟩
    obtain ⟨p, hp, -, hannot⟩ := flags_before (hflags name') hp'
    exact ⟨p, hp, hannot⟩

/-- The proof plan. -/
def plan (ι : Type) : Discipline (contended ι Respectful) where
  inv := PauseInv
  perm := perm
  rely := Rely
  inv_call := PauseInv.call
  rely_call ne _ := rely_call ne
  inv_env := PauseInv.meddle
  rely_env _ _ := rely_meddle

/-! ### Calls of the pool manager -/

lemma stable_locked : (plan ι).Stable i (Locked i) := fun _ _ _ _ hr h => (hr h).1

lemma stable_marked : (plan ι).Stable i (Marked i name) := by
  rintro s s' - - hr ⟨hi, h⟩
  refine ⟨(hr hi).1, fun p' hp' => ?_⟩
  obtain ⟨p, hp, e⟩ := (hr hi).2 name p' hp'
  exact e.trans (h p hp)

/-- Calls that are neither on pools nor on the mutex. -/
def Aside (e : Op) : Prop := e.part ≠ .pools ∧ e.part ≠ .mutex

lemma aside {β : Type} {A : Contended ι → Prop} {x : Action β} (hA : (plan ι).Stable i A)
    (hx : AllE Aside x) : (plan ι).TripleE i A x fun _ => A := by
  refine TripleE.of_all hA (fun s e _ _ he => ?_) ?_ hx
  · cases e with
    | patchMachineConfigPool name pause => exact absurd rfl he.1
    | unlock => exact absurd rfl he.2
    | _ => trivial
  · intro s e r s' hinv hinv' hAs he hexec
    exact hA s s' hinv hinv' (rely_quiet hexec he.1 he.2) hAs

/-- Reading a pool under the mutex. -/
lemma getPool_triple {A : Contended ι → Prop} (hA : (plan ι).Stable i A)
    (hlock : ∀ s, A s → Locked i s) :
    (plan ι).TripleE i A (Client.getMachineConfigPool name) fun p s =>
      p.name = name ∧ A s ∧ (p.annotated = true → Marked i name s) := by
  refine Triple.lift hA (fun _ => Stable.ok fun _ => (Stable.const _).and (hA.and stable_marked.imp))
    (fun _ _ _ => trivial) ?_
  rintro s _ s' hinv hinv' hAs hexec p rfl
  have hAs' := hA s s' hinv hinv' (rely_quiet hexec nofun nofun) hAs
  obtain ⟨⟨hw, hread⟩, -⟩ := hexec
  have hread : s.world.pools.get name = some p := hread
  refine ⟨Store.key_of_get hread, hAs', fun ha => ⟨hlock s' hAs', fun p' hp' => ?_⟩⟩
  rw [hw] at hp'
  obtain rfl := Option.some.inj (hread.symm.trans hp')
  exact ha

/-- Any patch of a pool. -/
lemma patchPool_triple {A : Contended ι → Prop} {pause : Bool} (hA : (plan ι).Stable i A)
    (hlock : ∀ s, A s → Locked i s) (hp : ∀ s, A s → perm i s (.patchMachineConfigPool name pause)) :
    (plan ι).TripleE i A (Client.patchMachineConfigPool name pause) fun p s =>
      p.name = name ∧ Locked i s ∧ (pause = true → Marked i name s) := by
  refine Triple.lift hA
    (fun _ => Stable.ok fun _ => (Stable.const _).and (stable_locked.and stable_marked.imp))
    (fun s _ => hp s) ?_
  rintro s _ s' - - hAs ⟨hperf, hstep, -⟩ q rfl
  obtain ⟨p, hpool, rfl, hw⟩ := World.patchPool_eq_some (WriteAnswer.ok hperf)
  have hl : Locked i s' := (hstep.eq_of_part nofun).trans (hlock s hAs)
  obtain rfl := Store.key_of_get hpool
  refine ⟨by simp, hl, fun ha => ⟨hl, fun p' hp' => ?_⟩⟩
  subst ha
  rw [hw] at hp'
  rcases World.get_patchPool hpool hp' with ⟨-, rfl⟩ | ⟨ne, -⟩
  · simp
  · exact absurd rfl ne

lemma pausePatch_triple :
    (plan ι).TripleE i (Locked i) (Client.patchMachineConfigPool name true)
      fun p s => p.name = name ∧ Marked i name s :=
  TripleE.conseq (patchPool_triple stable_locked (fun _ h => h) fun _ h => h) (fun _ _ h => h)
    fun _ _ _ h => ⟨h.1, h.2.2 rfl⟩

lemma clearPatch_triple :
    (plan ι).TripleE i (Marked i name) (Client.patchMachineConfigPool name false)
      fun p s => p.name = name ∧ Locked i s :=
  TripleE.conseq (patchPool_triple stable_marked (fun _ h => h.1) fun _ h => h) (fun _ _ h => h)
    fun _ _ _ h => ⟨h.1, h.2.1⟩

lemma pausePool_locked :
    (plan ι).TripleE i (Locked i) (pausePool name) fun _ => Locked i := by
  refine pausePool_triple (F := Locked i) (G := Marked i name) stable_locked stable_locked
    stable_marked ?_ pausePatch_triple ?_ ?_ ?_ fun s _ h => h.1
  · exact (getPool_triple stable_locked fun _ h => h).conseq (fun _ _ h => h)
      fun p s _ h => ⟨h.1, fun _ => h.2.1, fun _ => h.2.1⟩
  · exact (getPool_triple stable_marked fun _ h => h.1).conseq (fun _ _ h => h)
      fun p s _ h => ⟨h.1, h.2.1⟩
  · exact clearPatch_triple.conseq (fun _ _ h => h) fun p s _ h => h.1
  · exact aside (Stable.const _) (call_all ⟨nofun, nofun⟩)

lemma unpauseLocked_locked :
    (plan ι).TripleE i (Locked i) (unpauseLocked node nm) fun _ => Locked i := by
  refine unpauseLocked_triple (B := fun _ => Locked i) (G := fun name _ => Marked i name)
    (K := fun name => Marked i name) stable_locked ?_ (fun name => ?_) (fun name p => ?_)
    (fun name => ?_) fun name => ?_
  · exact aside stable_locked (getMCPName_all fun _ => ⟨nofun, nofun⟩)
  · exact (getPool_triple stable_locked fun _ h => h).conseq (fun _ _ h => h)
      fun p s _ h => ⟨h.1, h.2.2, fun _ => h.2.1⟩
  · refine TripleE.conseq (aside stable_marked ?_) (fun _ _ h => h) fun _ s _ h => ⟨fun _ => h.1, fun _ => h⟩
    refine .bind ?_ fun selector => ?_
    · cases labelSelectorAsSelector p.nodeSelector <;> trivial
    · exact .bind (call_all ⟨nofun, nofun⟩) fun _ => .bind (call_all ⟨nofun, nofun⟩) fun _ => .pure
  · exact clearPatch_triple.conseq (fun _ _ h => h) fun p s _ h => h.2
  · exact (getPool_triple stable_locked fun _ h => h).conseq (fun _ _ h => h) fun p s _ h => h.2.1

lemma setMCPLabel_aside {mcpName : String} : AllE Aside (setMCPLabel nm mcpName) := by
  refine .ite (.bind (.adapt (call_all ⟨nofun, nofun⟩)) fun a => ?_) .pure
  have hget : AllE Aside (Client.getNodeMaintenance a.key) := call_all ⟨nofun, nofun⟩
  exact .adapt (waitForObjectUpdate_all hget _)

lemma locked_call (s : Contended ι) (e : Op) (r : Resp e) (s' : Contended ι) (_ : PauseInv s)
    (_ : PauseInv s') (he : e.part ≠ .mutex) (hexec : (contended ι Respectful).exec i e s r s')
    (h : Locked i s) : Locked i s' :=
  (hexec.2.1.eq_of_part he).trans h

lemma lock_triple :
    (plan ι).Triple i (fun _ => True) (issue .lock) fun _ s => Locked i s ∧ Locked i s := by
  refine Triple.lift (Stable.const _) (fun _ => stable_locked.and stable_locked)
    (fun _ _ _ => trivial) ?_
  rintro s _ s' - - - ⟨-, ⟨-, hl⟩, -⟩
  exact ⟨hl, hl⟩

lemma unlock_triple {β : Type} (res : Except Err β) :
    (plan ι).Triple i (fun s => (∀ b, res = .ok b → True) ∧ Locked i s) (issue .unlock)
      fun _ _ => ∀ b, res = .ok b → True :=
  Triple.lift ((Stable.const _).and stable_locked) (fun _ => Stable.const _) (fun _ _ h => h.2)
    fun _ _ _ _ _ _ _ _ _ => trivial

lemma pauseMCP_triple :
    (plan ι).TripleE i (fun _ => True) (pauseMCP node nm) fun _ _ => True := by
  have hpause : (plan ι).TripleE i (Locked i) (pauseLocked node nm) fun _ => Locked i := by
    refine TripleE.bind (aside stable_locked (.adapt (getMCPName_all fun _ => ⟨nofun, nofun⟩)))
      fun mcpName => ?_
    refine TripleE.bind (aside stable_locked setMCPLabel_aside) fun a => ?_
    exact TripleE.bind pausePool_locked fun _ => .pure stable_locked fun _ _ h => h
  have htrace : ∀ err, (plan ι).Triple i (Locked i) (issue (.trace (.pauseMCP nm err)))
      fun _ _ => True := fun err =>
    Triple.lift stable_locked (fun _ => Stable.const _) (fun _ _ _ => trivial) fun _ _ _ _ _ _ _ => trivial
  exact pauseMCP_walk (P := fun _ _ => True) stable_locked locked_call lock_triple
    (fun _ => Stable.const _) hpause (fun _ => (htrace none).pre fun _ _ h => h.2)
    (fun err => htrace (some err)) (fun _ => Stable.const _) unlock_triple

lemma unpauseMCP_triple :
    (plan ι).TripleE i (fun _ => True) (unpauseMCP node nm) fun _ _ => True := by
  refine TripleE.bind (aside (Stable.const _) (.lift (call_all ⟨nofun, nofun⟩))) fun _ => ?_
  refine locked_triple stable_locked (fun _ => Stable.const _) locked_call lock_triple
    (unpauseLocked_all not_mutex_pools) ?_ unlock_triple
  exact unpauseLocked_locked.conseq (fun _ _ h => h) fun _ _ _ _ => trivial

end Foreign

section Runs
variable {ι : Type} [DecidableEq ι]

/-- No call of the pool manager is under way. -/
def unattended (s : Contended ι) : Config ι Op Resp (Contended ι) (Except Err Unit) :=
  ⟨s, fun _ => none⟩

end Runs

/-! ### Computed runs -/

/-- Moves of the administrator as data. -/
inductive AdminMove where
  | pause (name : String)
  | unpause (name : String)

/-- What such a move does, if it can happen. -/
def Contended.meddle {ι : Type} (s : Contended ι) : AdminMove → Option (Contended ι)
  | .pause name => match s.world.pools.get name with
    | some p => if p.paused then none
      else some { s with world := s.world.setPaused p true, held := name :: s.held }
    | none => none
  | .unpause name => match s.world.pools.get name with
    | some p => if name ∈ s.held then
        some { s with world := s.world.setPaused p false, held := s.held.filter (· ≠ name) }
      else none
    | none => none

lemma meddling_of_meddle {ι : Type} {s s' : Contended ι} {v : AdminMove} (h : s.meddle v = some s') :
    Meddling s s' := by
  cases v with
  | pause name =>
    simp only [Contended.meddle] at h
    split at h
    · rename_i p hp
      split at h
      · cases h
      · rename_i hpaused
        cases h
        exact .pause hp (by simpa using hpaused)
    · cases h
  | unpause name =>
    simp only [Contended.meddle] at h
    split at h
    · rename_i p hp
      split at h
      · rename_i hheld
        cases h
        exact .unpause hp hheld
      · cases h
    · cases h

/-- A call that comes down on a pause of the administrator. -/
def overrides (s : Contended (Fin 2)) : Op → Bool
  | .patchMachineConfigPool name true => name ∈ s.held
  | _ => false

lemma respectful_of_not_overrides {s s' : Contended (Fin 2)} {e : Op} (h : overrides s e = false) :
    Respectful s e s' := by
  rintro name rfl hin
  simp [overrides, hin] at h

/-- Answers of a server that is up. -/
def Contended.serve (i : Fin 2) (e : Op) (s : Contended (Fin 2)) :
    Option (Resp e × Contended (Fin 2)) :=
  (s.world.serve e).bind fun aw => (mutexAfter i s.mutex e).map fun holder => (aw.1, ⟨aw.2, holder, s.held⟩)

lemma exec_of_serve {gate : Contended (Fin 2) → Op → Contended (Fin 2) → Prop} {i : Fin 2} {e : Op}
    {s s' : Contended (Fin 2)} {a : Resp e} (h : s.serve i e = some (a, s')) (hgate : gate s e s') :
    (contended (Fin 2) gate).exec i e s a s' := by
  obtain ⟨aw, hserve, h⟩ := Option.bind_eq_some_iff.mp h
  obtain ⟨holder, hstep, h⟩ := Option.map_eq_some_iff.mp h
  cases h
  exact ⟨World.perform_of_serve hserve, mutexStep_of_after hstep, rfl, hgate⟩

/-- A node whose configuration belongs to the pool of workers. -/
def workerNode : Node :=
  { firstNode with annotations := [(desiredMachineConfigAnnotationKey, "rendered-worker")] }

/-- A cluster with that node, its pool, and an object for it. -/
def workerCluster : World :=
  { World.empty with
    nodes := .ofList [workerNode]
    machineConfigs := .ofList [⟨"rendered-worker", [⟨"", "MachineConfigPool", "worker", "worker"⟩]⟩]
    pools := .ofList [⟨"worker", [], none, false, "rendered-worker", "rendered-worker"⟩] }.write
      (drainedMaintenance "nm")

/-- The two calls for the object. -/
def workerCall (i : Fin 2) : PoolCall :=
  if i = 0 then .pauseMCP workerNode (World.empty.stamp (drainedMaintenance "nm"))
  else .unpauseMCP workerNode (World.empty.stamp (drainedMaintenance "nm"))

/-- A player for these calls, of which some are not taken into account. -/
def poolPlayer {gate : Contended (Fin 2) → Op → Contended (Fin 2) → Prop}
    (bars : Contended (Fin 2) → Op → Bool) (hgate : ∀ {s e s'}, bars s e = false → gate s e s') :
    Player (contended (Fin 2) gate) AdminMove where
  program i := some (workerCall i).run.run
  body h := ⟨_, (Option.some.inj h).symm⟩
  answer i e s := if bars s e then none else s.serve i e
  exec {i e s a s'} h := by
    split at h
    · cases h
    · rename_i hbars
      exact exec_of_serve h (hgate (by simpa using hbars))
  event v s := s.meddle v
  env h := meddling_of_meddle h

end MaintenanceOperator
