import MaintenanceOperator.Cluster.Serve
import MaintenanceOperator.Controller.Flow
import MaintenanceOperator.Lib.Script
import MaintenanceOperator.Openshift.Assignment

/-!
# A pool stays paused while it is needed

All NodeMaintenances at once, each with its reconciler, and the mutex of the pool manager. An object is
engaged from the moment that `PauseMCP` succeeds for it until `UnpauseMCP` is called for it. While the
holder of the mutex is at work, no other object becomes engaged; so a pool that was found without the
operator's annotation has no engaged object when the pause is rolled back, and neither has one whose
nodes carry no other labelled object when it is unpaused.
-/

namespace MaintenanceOperator
open Lib Discipline Reconciler Host

/-- The cluster and the holder of the manager's mutex. -/
structure Pausing where
  world : World
  mutex : Option NamespacedName

/-- The operator on a fixed assignment: one reconciler for each key, with a pool manager. Nobody else
writes the paused flag and the operator's annotation of a pool, or the pool label of an object. -/
def pausing (formats : Formats) (A : Assignment) :
    System NamespacedName Op Resp Pausing (Except Err Result) where
  exec key e s a s' := Perform .current e s.world a s'.world ∧ mutexStep key e s.mutex s'.mutex
  env c s' := Happens c.state.world s'.world ∧ LeavesPools c.state.world s'.world ∧
    Assigned A s'.world ∧ s'.mutex = c.state.mutex
  body key p := p = (Reconciler.reconcile ⟨true, formats⟩ key).run

/-- `PauseMCP` has succeeded for an object with this UID. -/
def PauseDone (w : World) (uid : String) : Prop := ∃ m, Note.pauseMCP m none ∈ w.notes ∧ m.uid = uid

/-- `UnpauseMCP` has been called for an object with this UID. -/
def UnpauseBegun (w : World) (uid : String) : Prop := ∃ m, Note.unpauseMCP m ∈ w.notes ∧ m.uid = uid

/-- The object needs its pool to be paused. -/
def Engaged (w : World) (o : NodeMaintenance) : Prop := PauseDone w o.uid ∧ ¬ UnpauseBegun w o.uid

/-- The pool is paused by the operator. -/
def PausedPool (name : String) (w : World) : Prop :=
  ∃ p, w.pools.get name = some p ∧ p.paused = true ∧ p.pausedByOperator = true

/-- The object shows that it uses its pool, and the pool is paused. -/
structure Involved (A : Assignment) (w : World) (o : NodeMaintenance) (name : String) : Prop where
  pool : A.pool o.spec.nodeName = some name
  named : name ≠ ""
  label : mcpLabel o = name
  node : (w.nodes.get o.spec.nodeName).isSome = true
  paused : PausedPool name w

/-- The invariant. -/
structure PausingInv (A : Assignment) (s : Pausing) : Prop where
  consistent : Consistent s.world
  assigned : Assigned A s.world
  annotated : ∀ {name p}, s.world.pools.get name = some p → p.annotated = true →
    p.paused = true ∧ p.pausedByOperator = true
  engaged : ∀ {k o}, s.world.nms.get k = some o → Engaged s.world o →
    ∃ name, Involved A s.world o name
  past : ∀ {k o}, s.world.nms.get k = some o → 3 ≤ phase o → PauseDone s.world o.uid
  notes : ∀ {uid}, PauseDone s.world uid → ∃ v ∈ s.world.history, v.uid = uid

/-- No object needs this pool to be paused. -/
def IdlePool (A : Assignment) (name : String) (w : World) : Prop :=
  ∀ k o, w.nms.get k = some o → Engaged w o → A.pool o.spec.nodeName ≠ some name

/-- Permissions. -/
def pausingPerm (A : Assignment) (key : NamespacedName) (s : Pausing) : Op → Prop
  | .update b => b.key = key ∧ ∀ o, s.world.nms.get key = some o → Matches o b →
      mcpLabel b = mcpLabel o ∨ A.pool o.spec.nodeName = some (mcpLabel b)
  | .statusUpdate b => b.key = key ∧ ∀ o, s.world.nms.get key = some o → Matches o b →
      3 ≤ phase b → PauseDone s.world o.uid
  | .patchMachineConfigPool _ true => s.mutex = some key
  | .patchMachineConfigPool name false => s.mutex = some key ∧ IdlePool A name s.world
  | .unlock => s.mutex = some key
  | .trace (.pauseMCP m none) => s.mutex = some key ∧
      (∃ v ∈ s.world.history, v.uid = m.uid ∧ v.key = key) ∧
      ∀ k o, s.world.nms.get k = some o → o.uid = m.uid → ∃ name, Involved A s.world o name
  | _ => True

/-- What a reconciler sees of all moves but those of its own under the mutex. Objects become engaged
only by the reconciler of their key, and only by the holder of the mutex. -/
structure PausingMoves (key : NamespacedName) (s s' : Pausing) : Prop where
  history : ∀ v ∈ s.world.history, v ∈ s'.world.history
  notes : ∀ n ∈ s.world.notes, n ∈ s'.world.notes
  node : ∀ {n}, (s.world.nodes.get n).isSome = true → (s'.world.nodes.get n).isSome = true
  engaged : ∀ {k o'}, s'.world.nms.get k = some o' → Engaged s'.world o' →
    s.mutex = some key ∨ k = key → ∃ o, s.world.nms.get k = some o ∧ o.uid = o'.uid ∧ Engaged s.world o
  mutex : s.mutex = some key → s'.mutex = some key
  pools : s.mutex = some key → ∀ {name p}, s.world.pools.get name = some p →
    ∃ p', s'.world.pools.get name = some p' ∧ p'.flags = p.flags

/-- What it relies on. -/
structure PausingRely (key : NamespacedName) (s s' : Pausing) : Prop extends PausingMoves key s s' where
  stands : ∀ {o}, s.world.nms.get key = some o → Guarded o → ∃ o', s'.world.nms.get key = some o' ∧
    Guarded o' ∧ o'.uid = o.uid ∧ mcpLabel o' = mcpLabel o

section Calls
variable {A : Assignment} {i key : NamespacedName} {s s' : Pausing} {e : Op} {a : Resp e}
  {w w' : World} {o o' b : NodeMaintenance} {name : String}

lemma PauseDone.mono {uid : String} (h : PauseDone w uid) (hn : ∀ n ∈ w.notes, n ∈ w'.notes) :
    PauseDone w' uid := by
  obtain ⟨m, hm, hu⟩ := h
  exact ⟨m, hn _ hm, hu⟩

/-- Only one note makes an object engaged. -/
lemma Engaged.before {mode : ReadMode} (hperf : Perform mode e w a w') (h : Engaged w' o') (hu : o'.uid = o.uid) :
    Engaged w o ∨ ∃ m, e = .trace (.pauseMCP m none) ∧ m.uid = o.uid := by
  obtain ⟨⟨m, hm, hmu⟩, hun⟩ := h
  have hun' : ¬ UnpauseBegun w o.uid := by
    rintro ⟨m', hm', hu'⟩
    exact hun ⟨m', hperf.notes_subset _ hm', hu'.trans hu.symm⟩
  by_cases he : e.part = .notes
  · cases e with
    | trace note =>
      obtain rfl := hperf
      rcases List.mem_cons.mp hm with rfl | hm
      · exact .inr ⟨m, rfl, hmu.trans hu⟩
      · exact .inl ⟨⟨m, hm, hmu.trans hu⟩, hun'⟩
    | _ => cases he
  · rw [hperf.frame.notes he] at hm
    exact .inl ⟨⟨m, hm, hmu.trans hu⟩, hun'⟩

/-- The others make no notes. -/
lemma Engaged.of_happens (h : Engaged w' o') (hc : Happens w w') (hu : o'.uid = o.uid) :
    Engaged w o := by
  obtain ⟨⟨m, hm, hmu⟩, hun⟩ := h
  rw [hc.notes] at hm
  refine ⟨⟨m, hm, hmu.trans hu⟩, ?_⟩
  rintro ⟨m', hm', hu'⟩
  exact hun ⟨m', hc.notes ▸ hm', hu'.trans hu.symm⟩

lemma PausedPool.of_flags (h : PausedPool name w)
    (hp : ∀ {p}, w.pools.get name = some p → ∃ p', w'.pools.get name = some p' ∧ p'.flags = p.flags) :
    PausedPool name w' := by
  obtain ⟨p, hpool, hpaused, hop⟩ := h
  obtain ⟨p', hp', hflags⟩ := hp hpool
  exact ⟨p', hp', (MachineConfigPool.paused_of_flags hflags).trans hpaused,
    (MachineConfigPool.pausedByOperator_of_flags hflags).trans hop⟩

/-- A pool stays paused but for a patch that takes the pause back. -/
lemma PausedPool.call {mode : ReadMode} (h : PausedPool name w) (hperf : Perform mode e w a w') :
    PausedPool name w' ∨ e = .patchMachineConfigPool name false := by
  obtain ⟨p, hpool, hpaused, hop⟩ := h
  rcases hperf.pool_after hpool with hp' | ⟨pause, he, hp'⟩
  · exact .inl ⟨p, hp', hpaused, hop⟩
  · cases pause with
    | true => exact .inl ⟨_, hp', by simp, by simp⟩
    | false => exact .inr he

/-- What a permitted call makes of an object. -/
lemma label_of_rewrite (hp : pausingPerm A key s e) (ho : s.world.nms.get key = some o)
    (hrw : Rewrite s.world o e o') : o'.uid = o.uid ∧ o'.spec.nodeName = o.spec.nodeName ∧
      (mcpLabel o' = mcpLabel o ∨ A.pool o.spec.nodeName = some (mcpLabel o')) ∧
      (3 ≤ phase o' → 3 ≤ phase o ∨ PauseDone s.world o.uid) := by
  cases hrw with
  | update hm hname => exact ⟨rfl, hname, hp.2 o ho hm, .inl⟩
  | statusUpdate hm => exact ⟨rfl, rfl, .inl rfl, fun h₃ => .inr (hp.2 o ho hm h₃)⟩

/-- The object that is rewritten is the one of the reconciler. -/
lemma key_of_rewrite (hp : pausingPerm A key s e) {k : NamespacedName}
    (ho : s.world.nms.get k = some o) (hrw : Rewrite s.world o e o') : k = key := by
  have hkey := Store.key_of_get ho
  cases hrw with
  | update hm hname => exact hkey.symm.trans (hm.1.trans hp.1)
  | statusUpdate hm => exact hkey.symm.trans (hm.1.trans hp.1)

/-- A stored object before a permitted call. -/
lemma stored_before (hp : pausingPerm A key s e) (hperf : Perform .current e s.world a s'.world)
    {k : NamespacedName} (ho' : s'.world.nms.get k = some o') :
    ∃ o, s.world.nms.get k = some o ∧ o'.uid = o.uid ∧ o'.spec.nodeName = o.spec.nodeName ∧
      (mcpLabel o' = mcpLabel o ∨ A.pool o.spec.nodeName = some (mcpLabel o')) ∧
      (3 ≤ phase o' → 3 ≤ phase o ∨ PauseDone s.world o.uid) := by
  rcases hperf.stored ho' with ho | ⟨o, ho, hrw⟩
  · exact ⟨o', ho, rfl, rfl, .inl rfl, .inl⟩
  · obtain rfl := key_of_rewrite hp ho hrw
    exact ⟨o, ho, label_of_rewrite hp ho hrw⟩

/-- A permitted call keeps the invariant. -/
lemma PausingInv.call (h : PausingInv A s) (hp : pausingPerm A key s e)
    (hperf : Perform .current e s.world a s'.world) : PausingInv A s' := by
  have hnotes := hperf.notes_subset
  refine ⟨hperf.consistent h.consistent, h.assigned.call hperf, fun {name p} hpool hann => ?_,
    fun {k o'} ho' heng => ?_, fun {k o'} ho' h₃ => ?_, fun {uid} hdone => ?_⟩
  · obtain ⟨p₀, hp₀, rfl | ⟨pause, -, rfl⟩⟩ := hperf.pool_before hpool
    · exact h.annotated hp₀ hann
    · simpa using hann
  · obtain ⟨o, ho, huid, hname, hlabel, -⟩ := stored_before hp hperf ho'
    -- the object was involved before, be it that it has become engaged by this call
    have hinv : ∃ name, Involved A s.world o name := by
      rcases heng.before hperf huid with heng | ⟨m, rfl, hm⟩
      · exact h.engaged ho heng
      · exact hp.2.2 k o ho hm.symm
    obtain ⟨name, hi⟩ := hinv
    refine ⟨name, hname ▸ hi.pool, hi.named, ?_, ?_, ?_⟩
    · rcases hlabel with e | e
      · exact e.trans hi.label
      · exact Option.some.inj (e.symm.trans hi.pool)
    · rw [hname]
      exact hperf.node_after hi.node
    · rcases hi.paused.call hperf with hpaused | rfl
      · exact hpaused
      · rcases heng.before hperf huid with heng | ⟨m, he, -⟩
        · exact absurd hi.pool (hp.2 k o ho heng)
        · cases he
  · obtain ⟨o, ho, huid, -, -, hphase⟩ := stored_before hp hperf ho'
    rw [huid]
    rcases hphase h₃ with h₃ | hdone
    · exact (h.past ho h₃).mono hnotes
    · exact hdone.mono hnotes
  · obtain ⟨m, hm, hmu⟩ := hdone
    by_cases he : e.part = .notes
    · cases e with
      | trace note =>
        have hw : s'.world = { s.world with notes := note :: s.world.notes } := hperf
        rw [hw] at hm ⊢
        rcases List.mem_cons.mp hm with rfl | hm
        · obtain ⟨v, hv, hvu, -⟩ := hp.2.1
          exact ⟨v, hv, hvu.trans hmu⟩
        · exact h.notes ⟨m, hm, hmu⟩
      | _ => cases he
    · rw [hperf.frame.notes he] at hm
      obtain ⟨v, hv, hvu⟩ := h.notes ⟨m, hm, hmu⟩
      exact ⟨v, hperf.history_subset v hv, hvu⟩

/-- Nothing is on record for an object that was just created. -/
lemma PausingInv.not_pauseDone (h : PausingInv A s) {k : NamespacedName} (hf : Created s.world k o) :
    ¬ PauseDone s.world o.uid := by
  intro hd
  obtain ⟨v, hv, hvu⟩ := h.notes hd
  exact hf.uid v hv hvu

/-- Moves of the others keep the invariant. -/
lemma PausingInv.change (h : PausingInv A s) (hc : Happens s.world s'.world)
    (hl : LeavesPools s.world s'.world) (hassigned : Assigned A s'.world) : PausingInv A s' := by
  have hdone : ∀ {uid}, PauseDone s'.world uid → PauseDone s.world uid :=
    fun hd => hd.mono fun n hn => hc.notes ▸ hn
  have hdone' : ∀ {uid}, PauseDone s.world uid → PauseDone s'.world uid :=
    fun hd => hd.mono fun n hn => hc.notes ▸ hn
  refine ⟨hc.consistent h.consistent, hassigned, fun {name p'} hp' hann => ?_,
    fun {k o'} ho' heng => ?_, fun {k o'} ho' h₃ => ?_, fun {uid} hd => ?_⟩
  · cases hp : s.world.pools.get name with
    | none =>
      have hflags := hl.created hp hp'
      have hnone : p'.annotations.get? mcpPausedAnnotKey = none := congrArg Prod.snd hflags
      rw [MachineConfigPool.annotated, hnone] at hann
      cases hann
    | some p =>
      obtain ⟨p₁, hp₁, hflags⟩ := hl.kept hp
      obtain rfl := Option.some.inj (hp₁.symm.trans hp')
      rw [MachineConfigPool.annotated_of_flags hflags] at hann
      rw [MachineConfigPool.paused_of_flags hflags, MachineConfigPool.pausedByOperator_of_flags hflags]
      exact h.annotated hp hann
  · rcases hc.stored ho' with ⟨o, ho, htr⟩ | hf
    · obtain ⟨name, hi⟩ := h.engaged ho (heng.of_happens hc htr.uid)
      refine ⟨name, htr.nodeName ▸ hi.pool, hi.named, (hl.label_eq ho ho').trans hi.label, ?_, ?_⟩
      · rw [htr.nodeName]
        exact hl.node hi.node
      · exact hi.paused.of_flags hl.kept
    · exact absurd (hdone heng.1) (h.not_pauseDone hf)
  · rcases hc.stored ho' with ⟨o, ho, htr⟩ | hf
    · rw [htr.uid]
      refine hdone' (h.past ho ?_)
      rcases htr.phase_cases with e | ⟨-, e⟩ <;> omega
    · rw [phase_of_reason hf.reason] at h₃
      exact absurd h₃ (by decide)
  · obtain ⟨v, hv, hvu⟩ := h.notes (hdone hd)
    exact ⟨v, hc.history_subset v hv, hvu⟩

/-! ### The moves of the others -/

/-- A call that neither writes objects or pools nor gives the mutex away; no pause is noted. -/
structure Aside (e : Op) : Prop where
  object : e.part ≠ .nodeMaintenances
  pool : e.part ≠ .pools
  unlock : e ≠ .unlock
  note : ∀ m, e ≠ .trace (.pauseMCP m none)

lemma Aside.read (he : e.part = .nothing) : Aside e := by
  refine ⟨by simp [he], by simp [he], ?_, ?_⟩
  · rintro rfl
    cases he
  · rintro m rfl
    cases he

lemma Aside.drain (he : e.part = .drain) : Aside e := by
  refine ⟨by simp [he], by simp [he], ?_, ?_⟩
  · rintro rfl
    cases he
  · rintro m rfl
    cases he

/-- The mutex stays with its holder, but for `unlock`. -/
lemma mutexStep.kept {i : NamespacedName} {holder holder' : Option NamespacedName}
    (h : mutexStep i e holder holder') (he : e ≠ .unlock) (hkey : holder = some key) :
    holder' = some key := by
  by_cases hpart : e.part = .mutex
  · cases e with
    | lock => exact absurd (h.1.symm.trans hkey) nofun
    | unlock => exact absurd rfl he
    | _ => cases hpart
  · exact (h.eq_of_part hpart).trans hkey

/-- Calls on the side, own or not. -/
lemma PausingRely.aside (he : Aside e) (hperf : Perform .current e s.world a s'.world)
    (hstep : mutexStep i e s.mutex s'.mutex) : PausingRely key s s' := by
  refine ⟨⟨hperf.history_subset, hperf.notes_subset, hperf.node_after, fun {k o'} ho' heng _ => ?_,
    hstep.kept he.unlock, fun _ {name p} hp => ?_⟩, fun {o} ho hg => ?_⟩
  · rw [hperf.frame.nms he.object] at ho'
    refine ⟨o', ho', rfl, (heng.before hperf rfl).resolve_right ?_⟩
    rintro ⟨m, rfl, -⟩
    exact he.note m rfl
  · exact ⟨p, by rwa [hperf.frame.pools he.pool], rfl⟩
  · exact ⟨o, by rwa [hperf.frame.nms he.object], hg, rfl, rfl⟩

/-- Writes of an object that keep its UID. -/
lemma PausingMoves.write (hpart : e.part = .nodeMaintenances)
    (hperf : Perform .current e s.world a s'.world) (hstep : mutexStep i e s.mutex s'.mutex)
    (huid : ∀ {k o'}, s'.world.nms.get k = some o' → ∃ o, s.world.nms.get k = some o ∧ o'.uid = o.uid) :
    PausingMoves key s s' := by
  have hunlock : e ≠ .unlock := by
    rintro rfl
    cases hpart
  refine ⟨hperf.history_subset, hperf.notes_subset, hperf.node_after, fun {k o'} ho' heng _ => ?_,
    hstep.kept hunlock, fun _ {name p} hp => ⟨p, ?_, rfl⟩⟩
  · obtain ⟨o, ho, hu⟩ := huid ho'
    refine ⟨o, ho, hu.symm, (heng.before hperf hu).resolve_right ?_⟩
    rintro ⟨m, rfl, -⟩
    cases hpart
  · rwa [hperf.frame.pools (by simp [hpart])]

/-- A reconciler's own writes. -/
lemma PausingMoves.own (hpart : e.part = .nodeMaintenances) (hp : pausingPerm A key s e)
    (hperf : Perform .current e s.world a s'.world) (hstep : mutexStep key e s.mutex s'.mutex) :
    PausingMoves key s s' := by
  refine .write hpart hperf hstep fun ho' => ?_
  obtain ⟨o, ho, hu, -⟩ := stored_before hp hperf ho'
  exact ⟨o, ho, hu⟩

/-- A reconciler's own writes that make no difference. -/
lemma PausingRely.alike (he : e = .update b ∨ e = .statusUpdate b)
    (hal : ∀ o, s.world.nms.get b.key = some o → Matches o b → Alike o b)
    (hperf : Perform .current e s.world a s'.world) (hstep : mutexStep key e s.mutex s'.mutex) :
    PausingRely key s s' := by
  have hpart : e.part = .nodeMaintenances := by rcases he with rfl | rfl <;> rfl
  refine ⟨.write hpart hperf hstep fun ho' => ?_, fun {o} ho hg => ?_⟩
  · obtain ⟨o, ho, h⟩ := Alike.stored hperf he hal ho'
    exact ⟨o, ho, h.uid⟩
  · obtain ⟨o', ho', h⟩ := Alike.kept hperf he hal ho hg
    exact ⟨o', ho', by rwa [Guarded, h.finalizers], h.uid, h.label⟩

/-- The calls of the other reconcilers. -/
lemma PausingRely.call (ne : i ≠ key) (h : PausingInv A s) (hp : pausingPerm A i s e)
    (hperf : Perform .current e s.world a s'.world) (hstep : mutexStep i e s.mutex s'.mutex) :
    PausingRely key s s' := by
  have hfree : s.mutex = some i → s.mutex ≠ some key :=
    fun hi hkey => ne (Option.some.inj (hi.symm.trans hkey))
  have hstands : ∀ {o}, s.world.nms.get key = some o → Guarded o → ∃ o',
      s'.world.nms.get key = some o' ∧ Guarded o' ∧ o'.uid = o.uid ∧ mcpLabel o' = mcpLabel o := by
    intro o ho hg
    rcases hperf.kept ho with hk | ⟨o', hrw, -⟩
    · exact ⟨o, hk, hg, rfl, rfl⟩
    · exact absurd (key_of_rewrite hp ho hrw).symm ne
  -- whoever notes a pause holds the mutex, and the note is about its own object
  have hengaged : ∀ {k o'}, s'.world.nms.get k = some o' → Engaged s'.world o' →
      s.mutex = some key ∨ k = key →
      ∃ o, s.world.nms.get k = some o ∧ o.uid = o'.uid ∧ Engaged s.world o := by
    intro k o' ho' heng hkey
    obtain ⟨o, ho, hu, -⟩ := stored_before hp hperf ho'
    rcases heng.before hperf hu with heng | ⟨m, rfl, hm⟩
    · exact ⟨o, ho, hu.symm, heng⟩
    · obtain ⟨hi, ⟨v, hv, hvu, hvk⟩, -⟩ := hp
      rcases hkey with hkey | rfl
      · exact absurd hkey (hfree hi)
      · have hid := (h.consistent.identity hv (h.consistent.stored ho) (hvu.trans hm)).1
        exact absurd (hvk.symm.trans (hid.trans (Store.key_of_get ho))) ne
  have hmutex : s.mutex = some key → s'.mutex = some key := by
    intro hkey
    refine hstep.kept ?_ hkey
    rintro rfl
    exact hfree hp hkey
  refine ⟨⟨hperf.history_subset, hperf.notes_subset, hperf.node_after, hengaged, hmutex,
    fun hkey {name p} hpool => ?_⟩, hstands⟩
  rcases hperf.pool_after hpool with hp' | ⟨pause, rfl, -⟩
  · exact ⟨p, hp', rfl⟩
  · exfalso
    cases pause with
    | true => exact hfree hp hkey
    | false => exact hfree hp.1 hkey

/-- The moves of everybody else. -/
lemma PausingRely.change (h : PausingInv A s) (hc : Happens s.world s'.world)
    (hl : LeavesPools s.world s'.world) (hmutex : s'.mutex = s.mutex) : PausingRely key s s' := by
  refine ⟨⟨hc.history_subset, fun n hn => hc.notes ▸ hn, hl.node, fun {k o'} ho' heng _ => ?_,
    fun hkey => hmutex.trans hkey, fun _ {name p} hp => hl.kept hp⟩, fun {o} ho hg => ?_⟩
  · rcases hc.stored ho' with ⟨o, ho, htr⟩ | hf
    · exact ⟨o, ho, htr.uid.symm, heng.of_happens hc htr.uid⟩
    · exact absurd (heng.of_happens hc rfl).1 (h.not_pauseDone hf)
  · obtain ⟨o', ho', htr⟩ := hc.persists ho hg
    exact ⟨o', ho', htr.guarded.mpr hg, htr.uid, hl.label_eq ho ho'⟩

end Calls

section Plan
variable (formats : Formats) (A : Assignment)

/-- The proof plan. -/
def keepingPaused : Discipline (pausing formats A) where
  inv := PausingInv A
  perm := pausingPerm A
  rely := PausingRely
  inv_call h hp he := h.call hp he.1
  rely_call ne h hp he := .call ne h hp he.1 he.2
  inv_env h he := h.change he.1 he.2.1 he.2.2.1
  rely_env _ h he := .change h he.1 he.2.1 he.2.2.2

/-- A reconciler, as a host. -/
def pausingHost (key : NamespacedName) : Host (keepingPaused formats A) key key where
  world s := s.world
  Keeps := PausingRely key
  Wrote := PausingMoves key
  MayUpdate _ o b := mcpLabel b = mcpLabel o ∨ A.pool o.spec.nodeName = some (mcpLabel b)
  MayStatus s o b := 3 ≤ phase b → PauseDone s.world o.uid
  consistent h := h.consistent
  perform h he := he.1.cached fun _ ho => h.consistent.stored (Store.mem_items.mp ho)
  perm_read {_ e} _ he := by
    cases e with
    | patchMachineConfigPool _ _ => cases he
    | update _ => cases he
    | statusUpdate _ => cases he
    | trace _ => cases he
    | unlock => cases he
    | _ => trivial
  perm_update hk h := ⟨hk, h⟩
  perm_status hk h := ⟨hk, h⟩
  history h := h.history
  keeps_rely _ _ h := h
  keeps_read _ _ hexec he := .aside (.read he) hexec.1 hexec.2
  keeps_alike _ _ hexec he hal := .alike he hal hexec.1 hexec.2
  wrote_update {b _ _ _} _ _ hp hexec := .own (A := A) (e := .update b) rfl hp hexec.1 hexec.2
  update_alike _ _ hal := .inl hal.label
  status_alike {s o b} hinv ho hal h₃ := by
    have hphase : phase b = phase o := by rw [phase, hal.reason, phase]
    exact hinv.past ho (hphase ▸ h₃)

end Plan

namespace PauseKept

/-- The reconciler holds the mutex. -/
def Locked (key : NamespacedName) (s : Pausing) : Prop := s.mutex = some key

/-- If the stored object is engaged, it has this UID. -/
def Sole (key : NamespacedName) (uid : String) (s : Pausing) : Prop :=
  ∀ o, s.world.nms.get key = some o → Engaged s.world o → o.uid = uid

/-- The stored object is not engaged. -/
def Retired (key : NamespacedName) (s : Pausing) : Prop :=
  ∀ o, s.world.nms.get key = some o → ¬ Engaged s.world o

/-- What is known of the version in hand, and of its node as it was read. -/
structure InHand (A : Assignment) (key : NamespacedName) (node : Node) (m : NodeMaintenance)
    (s : Pausing) : Prop extends OnNode A node m s.world where
  sole : Sole key m.uid s
  stands : Guarded m → Labelled key m.uid (mcpLabel m) s.world

variable {formats : Formats} {A : Assignment} {key : NamespacedName} {m a : NodeMaintenance} {node : Node}
  {uid name : String}

/-- Triples of a reconciler. -/
abbrev PauseTriple (formats : Formats) (A : Assignment) (key : NamespacedName) {α : Type}
    (B : Pausing → Prop) (x : Action α) (Q : α → Pausing → Prop) : Prop :=
  (keepingPaused formats A).TripleE key B x Q

/-! ### What lasts -/

lemma firm_locked : (pausingHost formats A key).Firm (Locked key) :=
  ⟨fun _ _ _ _ hk h => hk.mutex h, fun _ _ _ _ hk h => hk.mutex h⟩

lemma firm_done : (pausingHost formats A key).Firm fun s => PauseDone s.world uid :=
  ⟨fun _ _ _ _ hk h => h.mono hk.notes, fun _ _ _ _ hk h => h.mono hk.notes⟩

lemma firm_onNode : (pausingHost formats A key).Firm fun s => OnNode A node m s.world :=
  ⟨fun _ _ _ _ hk h => ⟨h.name, h.covers, hk.node h.found⟩,
    fun _ _ _ _ hk h => ⟨h.name, h.covers, hk.node h.found⟩⟩

lemma Sole.moves {s s' : Pausing} (hk : PausingMoves key s s') (h : Sole key uid s) :
    Sole key uid s' := by
  intro o' ho' heng
  obtain ⟨o, ho, hu, heng⟩ := hk.engaged ho' heng (.inr rfl)
  exact hu.symm.trans (h o ho heng)

lemma firm_sole : (pausingHost formats A key).Firm (Sole key uid) :=
  ⟨fun _ _ _ _ hk h => h.moves hk.toPausingMoves, fun _ _ _ _ hk h => h.moves hk⟩

lemma lasting_retired : (pausingHost formats A key).Lasting (Retired key) := by
  intro s s' _ _ hk h o' ho' heng
  obtain ⟨o, ho, -, heng⟩ := hk.engaged ho' heng (.inr rfl)
  exact h o ho heng

lemma lasting_labelled (uid name : String) :
    (pausingHost formats A key).Lasting fun s => Labelled key uid name s.world := by
  rintro s s' - - hk ⟨o, ho, hg, hu, hl⟩
  obtain ⟨o', ho', hg', hu', hl'⟩ := hk.stands ho hg
  exact ⟨o', ho', hg', hu'.trans hu, hl'.trans hl⟩

lemma lasting_inHand : (pausingHost formats A key).Lasting (InHand A key node m) := by
  intro s s' hi hi' hk h
  refine ⟨firm_onNode.1 s s' hi hi' hk h.toOnNode, h.sole.moves hk.toPausingMoves, fun hg => ?_⟩
  exact lasting_labelled _ _ s s' hi hi' hk (h.stands hg)

/-- What is said of the engaged objects of a pool lasts under the mutex. -/
lemma firm_engaged {P : NamespacedName → String → Prop} :
    (pausingHost formats A key).Firm fun s => Locked key s ∧ ∀ k o, s.world.nms.get k = some o →
      Engaged s.world o → P k o.spec.nodeName := by
  have hmoves : ∀ s s' : Pausing, PausingInv A s → PausingInv A s' → PausingMoves key s s' →
      (Locked key s ∧ ∀ k o, s.world.nms.get k = some o → Engaged s.world o → P k o.spec.nodeName) →
      Locked key s' ∧ ∀ k o, s'.world.nms.get k = some o → Engaged s'.world o → P k o.spec.nodeName := by
    rintro s s' hi hi' hk ⟨hl, h⟩
    refine ⟨hk.mutex hl, fun k o' ho' heng => ?_⟩
    obtain ⟨o, ho, hu, heng⟩ := hk.engaged ho' heng (.inl hl)
    have hid := (hi'.consistent.identity (hk.history o (hi.consistent.stored ho))
      (hi'.consistent.stored ho') hu).2
    exact hid ▸ h k o ho heng
  exact ⟨fun s s' hi hi' hk h => hmoves s s' hi hi' hk.toPausingMoves h, hmoves⟩

/-- The pool is idle while the mutex is held. -/
def Idle (A : Assignment) (key : NamespacedName) (name : String) (s : Pausing) : Prop :=
  Locked key s ∧ IdlePool A name s.world

lemma firm_idle : (pausingHost formats A key).Firm (Idle A key name) :=
  firm_engaged (P := fun _ n => A.pool n ≠ some name)

/-- The pool is paused while the mutex is held. -/
def Held (key : NamespacedName) (name : String) (s : Pausing) : Prop :=
  Locked key s ∧ PausedPool name s.world

lemma firm_held : (pausingHost formats A key).Firm (Held key name) :=
  ⟨fun _ _ _ _ hk h => ⟨hk.mutex h.1, h.2.of_flags (hk.pools h.1)⟩,
    fun _ _ _ _ hk h => ⟨hk.mutex h.1, h.2.of_flags (hk.pools h.1)⟩⟩

lemma InHand.alike {s : Pausing} (hal : Alike m a) (h : InHand A key node m s) :
    InHand A key node a s := by
  refine ⟨h.toOnNode.alike hal.nodeName, ?_, fun hg => ?_⟩
  · rw [hal.uid]
    exact h.sole
  · rw [hal.uid, hal.label]
    exact h.stands (by rwa [Guarded, ← hal.finalizers])

/-! ### Calls -/

lemma quiet_aside {e : Op} (he : Aside e) : (pausingHost formats A key).Quiet e := by
  refine fun s _ => ⟨?_, fun ans s' _ hexec => .aside he hexec.1 hexec.2⟩
  cases e with
  | update _ => exact absurd rfl he.object
  | statusUpdate _ => exact absurd rfl he.object
  | patchMachineConfigPool _ _ => exact absurd rfl he.pool
  | unlock => exact absurd rfl he.unlock
  | trace note =>
    cases note with
    | pauseMCP m err =>
      cases err with
      | none => exact absurd rfl (he.note m)
      | some err => trivial
    | _ => trivial
  | _ => trivial

lemma lock_triple {B : Pausing → Prop} (hB : (pausingHost formats A key).Lasting B) :
    (keepingPaused formats A).Triple key B (issue .lock) fun _ s => (Locked key s ∧ B s) ∧ Locked key s := by
  have hL : (pausingHost formats A key).Lasting (Locked key) := firm_locked.1
  have hLB := (hL.and hB).and hL
  refine Triple.lift hB.stable (fun _ => hLB.stable) (fun _ _ _ => trivial) ?_
  rintro s _ s' hi hi' hBs hexec
  have he : Aside .lock := ⟨nofun, nofun, nofun, fun _ => nofun⟩
  have hl : Locked key s' := hexec.2.2
  exact ⟨⟨hl, hB s s' hi hi' (.aside he hexec.1 hexec.2) hBs⟩, hl⟩

/-- The mutex may be given away at any time; what does not depend on it stays. -/
lemma unlock_triple {β : Type} {Q : β → Pausing → Prop} (hQ : ∀ b, (keepingPaused formats A).Stable key (Q b))
    (hworld : ∀ b s s', s'.world = s.world → Q b s → Q b s') (res : Except Err β) :
    (keepingPaused formats A).Triple key (fun s => (∀ b, res = .ok b → Q b s) ∧ Locked key s)
      (issue .unlock) fun _ s => ∀ b, res = .ok b → Q b s := by
  have hres : (keepingPaused formats A).Stable key fun s => ∀ b, res = .ok b → Q b s :=
    Stable.ok hQ
  refine Triple.lift (hres.and firm_locked.1.stable) (fun _ => hres) (fun s _ h => h.2) ?_
  rintro s _ s' - - h hexec b hb
  exact hworld b s s' hexec.1 (h.1 b hb)

lemma locked_call (s : Pausing) (e : Op) (r : Resp e) (s' : Pausing) (_ : PausingInv A s)
    (_ : PausingInv A s') (he : e.part ≠ .mutex) (hexec : (pausing formats A).exec key e s r s')
    (h : Locked key s) : Locked key s' :=
  (hexec.2.eq_of_part he).trans h

/-- Reading a pool under the mutex. -/
lemma getPool_triple {B : Pausing → Prop} {K : MachineConfigPool → Pausing → Prop}
    (hB : (pausingHost formats A key).Lasting B) (hK : ∀ p, (pausingHost formats A key).Lasting (K p))
    (h : ∀ s p, PausingInv A s → B s → s.world.pools.get name = some p → K p s) :
    PauseTriple formats A key B (Client.getMachineConfigPool name) fun p s => p.name = name ∧ K p s :=
  getPool_current (H := pausingHost formats A key) (fun he => he.1) hB hK h

/-- A patch of a pool under the mutex. -/
lemma patchPool_triple {B Q : Pausing → Prop} {pause : Bool}
    (hB : (pausingHost formats A key).Lasting B) (hQ : (pausingHost formats A key).Lasting Q)
    (hperm : ∀ s, B s → pausingPerm A key s (.patchMachineConfigPool name pause))
    (h : ∀ s s' p, B s → s.world.pools.get name = some p → s'.mutex = s.mutex →
      s'.world = { s.world with pools := s.world.pools.put (p.patch pause) } → Q s') :
    PauseTriple formats A key B (Client.patchMachineConfigPool name pause)
      fun p s => p.name = name ∧ Q s := by
  refine patchPool_current (H := pausingHost formats A key) (fun he => he.1) hB hQ hperm ?_
  exact fun s _ s' p hBs hexec hpool hw => h s s' p hBs hpool (hexec.2.eq_of_part nofun) hw

/-! ### Pausing -/

/-- A pool that the operator has not paused is idle. -/
lemma idlePool_of_get {s : Pausing} {p : MachineConfigPool} (hinv : PausingInv A s)
    (hp : s.world.pools.get name = some p) (hop : p.pausedByOperator = false) :
    IdlePool A name s.world := by
  intro k o ho heng hpool
  obtain ⟨name', hi⟩ := hinv.engaged ho heng
  obtain rfl := Option.some.inj (hi.pool.symm.trans hpool)
  obtain ⟨p', hp', -, hop'⟩ := hi.paused
  obtain rfl := Option.some.inj (hp.symm.trans hp')
  rw [hop] at hop'
  cases hop'

/-- The patch that pauses an idle pool. -/
lemma pausePatch_triple :
    PauseTriple formats A key (Idle A key name) (Client.patchMachineConfigPool name true)
      fun p s => p.name = name ∧ Idle A key name s ∧ Held key name s := by
  refine patchPool_triple firm_idle.1 (firm_idle.1.and firm_held.1) (fun s h => h.1) ?_
  intro s s' p h hp hm hw
  have hl : Locked key s' := hm.trans h.1
  refine ⟨⟨hl, ?_⟩, hl, p.patch true, ?_, by simp, by simp⟩
  · rw [hw]
    exact h.2
  · obtain rfl := Store.key_of_get hp
    have hget := Store.get_put_self s.world.pools (p.patch true)
    rw [MachineConfigPool.name_patch] at hget
    rw [hw]
    exact hget

/-- The patch that takes the pause of an idle pool back. -/
lemma clearPatch_triple :
    PauseTriple formats A key (Idle A key name) (Client.patchMachineConfigPool name false)
      fun p _ => p.name = name ∧ True :=
  patchPool_triple firm_idle.1 (Lasting.const _) (fun _ h => h) fun _ _ _ _ _ _ _ => trivial

/-- The pool is found paused, or it is idle and gets paused. -/
lemma pausePool_held : PauseTriple formats A key (Locked key) (pausePool name) fun _ => Held key name := by
  have hI : (pausingHost formats A key).Lasting (Idle A key name) := firm_idle.1
  have hH : (pausingHost formats A key).Lasting (Held key name) := firm_held.1
  refine pausePool_triple (F := Idle A key name) (G := fun s => Idle A key name s ∧ Held key name s)
    hH.stable hI.stable (hI.and hH).stable ?_ pausePatch_triple ?_ ?_ ?_ fun s _ h => h.2
  · refine getPool_triple firm_locked.1 (fun p s s' hi hi' hk h => ?_) fun s p hinv hl hp => ⟨?_, ?_⟩
    · exact ⟨fun he => hH s s' hi hi' hk (h.1 he), fun he => hI s s' hi hi' hk (h.2 he)⟩
    · intro hop
      have hann := MachineConfigPool.annotated_of_pausedByOperator hop
      exact ⟨hl, p, hp, (hinv.annotated hp hann).1, hop⟩
    · exact fun hop => ⟨hl, idlePool_of_get hinv hp hop⟩
  · exact getPool_triple (hI.and hH) (fun _ => hI.and hH) fun s p _ h _ => h
  · exact clearPatch_triple.conseq (fun _ _ h => h.1) fun p s _ h => h.1
  · exact (getPool_triple (K := fun _ _ => True) (Lasting.const _) (fun _ => Lasting.const _)
      fun _ _ _ _ _ => trivial).conseq (fun _ _ h => h) fun _ _ _ _ => trivial

/-! ### Phase Scheduled -/

/-- The reconciler is about to pause the pool of its object, under the mutex. -/
structure AtWork (A : Assignment) (key : NamespacedName) (node : Node) (m : NodeMaintenance)
    (s : Pausing) : Prop extends OnNode A node m s.world where
  locked : Locked key s
  known : ∃ v ∈ s.world.history, v.uid = m.uid ∧ v.key = key ∧ v.spec.nodeName = m.spec.nodeName

lemma AtWork.moves {s s' : Pausing} (hk : PausingMoves key s s') (h : AtWork A key node m s) :
    AtWork A key node m s' := by
  obtain ⟨v, hv, hvm⟩ := h.known
  exact ⟨⟨h.name, h.covers, hk.node h.found⟩, hk.mutex h.locked, v, hk.history v hv, hvm⟩

lemma firm_atWork : (pausingHost formats A key).Firm (AtWork A key node m) :=
  ⟨fun _ _ _ _ hk h => h.moves hk.toPausingMoves, fun _ _ _ _ hk h => h.moves hk⟩

/-- And the object is labelled with the name of the pool. -/
def Prepared (A : Assignment) (key : NamespacedName) (node : Node) (m : NodeMaintenance) (name : String)
    (s : Pausing) : Prop :=
  AtWork A key node m s ∧ Labelled key m.uid name s.world

lemma lasting_prepared : (pausingHost formats A key).Lasting (Prepared A key node m name) :=
  firm_atWork.1.and (lasting_labelled _ _)

/-- Work on pools does not interfere. -/
lemma Prepared.call {s s' : Pausing} {e : Op} {ans : Resp e} (h : Prepared A key node m name s)
    (he : e.part = .nothing ∨ e.part = .pools) (hexec : (pausing formats A).exec key e s ans s') :
    Prepared A key node m name s' := by
  have hf := hexec.1.frame
  have hne : e.part ≠ .nodeMaintenances ∧ e.part ≠ .nodes ∧ e.part ≠ .mutex := by
    rcases he with he | he <;> simp [he]
  obtain ⟨hw, hl⟩ := h
  refine ⟨⟨⟨hw.name, hw.covers, ?_⟩, (hexec.2.eq_of_part hne.2.2).trans hw.locked, ?_⟩, ?_⟩
  · rw [hf.nodes hne.2.1]
    exact hw.found
  · rw [hf.history hne.1]
    exact hw.known
  · unfold Labelled
    rw [hf.nms hne.1]
    exact hl

/-- The pool of the object is found paused or gets paused. -/
lemma pauseLocked_triple (hg : Guarded m) :
    PauseTriple formats A key (fun s => Locked key s ∧ (pausingHost formats A key).Holds m s ∧
        OnNode A node m s.world ∧ Labelled key m.uid (mcpLabel m) s.world) (pauseLocked node m)
      fun a s => (a.key = key ∧ a.uid = m.uid) ∧
        ∃ name, (A.pool m.spec.nodeName = some name ∧ name ≠ "") ∧
          Held key name s ∧ Prepared A key node m name s := by
  refine Triple.assume (fun s _ h => And.intro h.2.2.1.name h.2.2.1.covers) fun ⟨hname, hcov⟩ => ?_
  have hB : (pausingHost formats A key).Lasting fun s => (pausingHost formats A key).Holds m s ∧
      Prepared A key node m (mcpLabel m) s := lasting_holds.and lasting_prepared
  refine TripleE.pre (TripleE.bind (TripleE.adapt (getMCPName_assigned (fun he => he.1)
    (fun hi => hi.assigned) hB hcov)) fun name => TripleE.of_pure fun hpool => ?_) ?_
  · rw [hname] at hpool
    have hlabel : PauseTriple formats A key (fun s => (pausingHost formats A key).Holds m s ∧
        Prepared A key node m (mcpLabel m) s) (setMCPLabel m name)
        fun a s => (a.key = key ∧ a.uid = m.uid) ∧ Prepared A key node m name s := by
      refine setMCPLabel_labelled firm_atWork lasting_labelled (fun he => he.1) hg ?_
      intro s refs _ _ _
      refine .inr (hpool.1.trans (congrArg some ?_))
      simp [mcpLabel]
    refine hlabel.bind fun a => TripleE.of_pure fun ha => ?_
    -- the label is stored before the pool is touched, so the pool step keeps it
    have hpause : PauseTriple formats A key (fun s => Locked key s ∧ Prepared A key node m name s)
        (pausePool name) fun _ s => Held key name s ∧ Prepared A key node m name s :=
      TripleE.frame lasting_prepared.stable (fun _ _ _ _ _ _ he hexec h => h.call he hexec)
        (pausePool_all (P := fun e => e.part = .nothing ∨ e.part = .pools)
          ⟨fun _ => .inl rfl, fun _ => .inl rfl, fun _ _ => .inr rfl, fun _ => .inl rfl, .inl rfl⟩)
        pausePool_held
    refine TripleE.pre (TripleE.bind hpause fun _ => ?_) fun s _ h => ⟨h.1.locked, h⟩
    exact .pure (firm_held.1.and lasting_prepared).stable fun s _ h => ⟨ha, name, hpool, h⟩
  · rintro s - ⟨hl, hm, hn, hlab⟩
    obtain ⟨hkey, v, hv, e⟩ := hm
    refine ⟨⟨hkey, v, hv, e⟩, ⟨hn, hl, v, hv, ?_⟩, hlab⟩
    rw [e]
    exact ⟨rfl, by rw [← hkey, e], rfl⟩

/-- The success is put on record. -/
lemma notePause_triple (hpool : A.pool m.spec.nodeName = some name)
    (hne : name ≠ "") :
    (keepingPaused formats A).Triple key (fun s => Held key name s ∧ Prepared A key node m name s)
      (issue (.trace (.pauseMCP m none))) fun _ s => PauseDone s.world m.uid := by
  have hA : (pausingHost formats A key).Lasting fun s =>
      Held key name s ∧ Prepared A key node m name s := firm_held.1.and lasting_prepared
  refine Triple.lift hA.stable (fun _ => firm_done.1.stable) ?_ ?_
  · rintro s hinv ⟨hheld, hw, o₁, ho₁, hg, hu₁, hl⟩
    obtain ⟨v, hv, hvu, hvk, hvn⟩ := hw.known
    refine ⟨hw.locked, ⟨v, hv, hvu, hvk⟩, fun k o ho hu => ⟨name, ?_⟩⟩
    -- the only object with this UID is the one that is labelled
    obtain ⟨hk, hn⟩ := hinv.consistent.identity hv (hinv.consistent.stored ho) (hvu.trans hu.symm)
    have hkey : k = key := (Store.key_of_get ho).symm.trans (hk.symm.trans hvk)
    subst hkey
    obtain rfl := Option.some.inj (ho₁.symm.trans ho)
    have hnode : o₁.spec.nodeName = m.spec.nodeName := hn.symm.trans hvn
    exact ⟨hnode ▸ hpool, hne, hl, hnode ▸ hw.found, hheld.2⟩
  · rintro s _ s' - - - hexec
    have hw : s'.world = { s.world with notes := .pauseMCP m none :: s.world.notes } := hexec.1
    rw [hw]
    exact ⟨m, .head _, rfl⟩

/-- `PauseMCP`, when it succeeds, has put that on record. -/
lemma pauseMCP_triple (hg : Guarded m) :
    PauseTriple formats A key (fun s => (pausingHost formats A key).Holds m s ∧
        OnNode A node m s.world ∧ Labelled key m.uid (mcpLabel m) s.world) (pauseMCP node m)
      fun a s => (a.key = key ∧ a.uid = m.uid) ∧ PauseDone s.world m.uid := by
  have hB : (pausingHost formats A key).Lasting fun s => (pausingHost formats A key).Holds m s ∧
      OnNode A node m s.world ∧ Labelled key m.uid (mcpLabel m) s.world :=
    lasting_holds.and (firm_onNode.1.and (lasting_labelled _ _))
  have hQ : ∀ a : NodeMaintenance, (keepingPaused formats A).Stable key fun s =>
      (a.key = key ∧ a.uid = m.uid) ∧ PauseDone s.world m.uid :=
    fun a => (Stable.const _).and firm_done.1.stable
  refine pauseMCP_walk firm_locked.1.stable locked_call (lock_triple hB) hQ (pauseLocked_triple hg)
    (fun a => ?_) (fun err => ?_) hQ (unlock_triple hQ fun a s s' hw h => ⟨h.1, hw ▸ h.2⟩)
  · refine Triple.pre (Triple.of_pure fun ha => Triple.of_exists fun name => Triple.of_pure fun hpool =>
      Triple.conseq (notePause_triple hpool.1 hpool.2) (fun _ _ h => h)
        fun _ _ _ h => ⟨ha, h⟩) fun s _ h => h.1
  · exact Triple.lift firm_locked.1.stable (fun _ => Stable.const _) (fun _ _ _ => trivial)
      fun _ _ _ _ _ _ _ => trivial

/-- `AddFinalizer` leaves the object with the finalizer and its label. -/
lemma addFinalizer_triple :
    PauseTriple formats A key (fun s => (pausingHost formats A key).Holds m s ∧ InHand A key node m s)
      (addFinalizer m maintenanceFinalizerName) fun a s => Guarded a ∧
        (pausingHost formats A key).Holds a s ∧ OnNode A node a s.world ∧
          Labelled key a.uid (mcpLabel a) s.world := by
  refine TripleE.conseq (addFinalizer_labelled firm_onNode lasting_labelled fun s refs _ _ => .inl rfl)
    (fun s _ h => ⟨h.1, h.2.toOnNode, h.2.stands⟩) ?_
  rintro a s - ⟨⟨hg, hal⟩, hm, hn, hl⟩
  exact ⟨hg, hm, hn.alike hal.nodeName, hl⟩

/-! ### Unpausing -/

/-- From the note on, the object is not engaged. -/
lemma noteUnpause_triple :
    PauseTriple formats A key (Sole key m.uid) (trace (.unpauseMCP m)) fun _ => Retired key := by
  refine TripleE.lift (Triple.lift firm_sole.1.stable (fun _ => lasting_retired.stable)
    (fun _ _ _ => trivial) ?_)
  rintro s _ s' - - h hexec o ho heng
  have hw : s'.world = { s.world with notes := .unpauseMCP m :: s.world.notes } := hexec.1
  have hbefore : Engaged s.world o := by
    refine (heng.before hexec.1 rfl).resolve_right ?_
    rintro ⟨m', he, -⟩
    cases he
  rw [hw] at ho heng
  exact heng.2 ⟨m, .head _, (h o ho hbefore).symm⟩

/-- The engaged objects of the pool are on the listed nodes. -/
def Listed (A : Assignment) (key : NamespacedName) (name : String) (nodes : List Node) (s : Pausing) :
    Prop :=
  Locked key s ∧ ∀ k o, s.world.nms.get k = some o → Engaged s.world o →
    k ≠ key ∧ (A.pool o.spec.nodeName = some name → ∃ nd ∈ nodes, nd.name = o.spec.nodeName)

lemma lasting_listed {nodes : List Node} :
    (pausingHost formats A key).Lasting (Listed A key name nodes) :=
  (firm_engaged (P := fun k n => k ≠ key ∧ (A.pool n = some name → ∃ nd ∈ nodes, nd.name = n))).1

/-- The list of the pool's nodes. -/
lemma listNodes_triple :
    PauseTriple formats A key (fun s => Locked key s ∧ Retired key s)
      (Client.listNodes (selectorAccepts (A.selector name))) (Listed A key name) := by
  have hA : (pausingHost formats A key).Lasting fun s => Locked key s ∧ Retired key s :=
    firm_locked.1.and lasting_retired
  refine Triple.lift hA.stable (fun _ => Stable.ok fun _ => lasting_listed.stable)
    (fun _ _ _ => trivial) ?_
  rintro s _ s' hinv hinv' hs hexec nodes rfl
  obtain ⟨hl, hret⟩ := hA s s' hinv hinv' (.aside (.read rfl) hexec.1 hexec.2) hs
  refine ⟨hl, fun k o ho heng => ⟨?_, fun hpool => ?_⟩⟩
  · rintro rfl
    exact hret o ho heng
  · -- the node of an engaged object exists and is selected by its pool
    obtain ⟨_, hi⟩ := hinv'.engaged ho heng
    obtain ⟨nd, hnd⟩ := Option.isSome_iff_exists.mp hi.node
    have hsel := hinv'.assigned.selected hnd hpool
    obtain ⟨hw, hperm⟩ := hexec.1
    have hperm : nodes.Perm (s.world.nodes.items.filter
      fun n => selectorAccepts (A.selector name) n.labels) := hperm
    rw [hw] at hnd
    exact ⟨nd, hperm.mem_iff.mpr (List.mem_filter.mpr ⟨Store.get_mem hnd, hsel⟩), Store.key_of_get hnd⟩

/-- When no other labelled object is on these nodes, the pool is idle. -/
lemma listNodeMaintenances_triple {nodes : List Node} (hkey : m.key = key) (hne : name ≠ "") :
    PauseTriple formats A key (Listed A key name nodes) Client.listNodeMaintenances
      fun nml s => nml.any (usesPool nodes m) = false → Idle A key name s := by
  refine Triple.lift lasting_listed.stable (fun _ => Stable.ok fun _ => firm_idle.1.stable.imp)
    (fun _ _ _ => trivial) ?_
  rintro s _ s' hinv hinv' hs hexec nml rfl hused
  obtain ⟨hl, hlist⟩ := lasting_listed s s' hinv hinv' (.aside (.read rfl) hexec.1 hexec.2) hs
  refine ⟨hl, fun k o ho heng hpool => ?_⟩
  obtain ⟨hk, hnode⟩ := hlist k o ho heng
  obtain ⟨nd, hnd, hname⟩ := hnode hpool
  obtain ⟨name', hi⟩ := hinv'.engaged ho heng
  obtain rfl := Option.some.inj (hi.pool.symm.trans hpool)
  obtain ⟨hw, hperm⟩ := hexec.1
  have hperm : nml.Perm s.world.nms.items := hperm
  rw [hw] at ho
  have huses : usesPool nodes m o = true := by
    have hkeys : o.key ≠ m.key := by
      rw [Store.key_of_get ho, hkey]
      exact hk
    have hany : nodes.any (·.name = o.spec.nodeName) = true :=
      List.any_eq_true.mpr ⟨nd, hnd, by simpa using hname⟩
    simp [usesPool, hany, hi.label, hne, hkeys]
  rw [List.any_eq_false] at hused
  exact hused o (hperm.mem_iff.mpr (Store.get_mem ho)) huses

/-- `UnpauseMCP` takes back the pause of a pool that is idle, or none. -/
lemma unpauseLocked_retired (hkey : m.key = key) (hcov : A.Covers node) :
    PauseTriple formats A key (fun s => Locked key s ∧ Retired key s) (unpauseLocked node m)
      fun _ _ => True := by
  have hA : (pausingHost formats A key).Lasting fun s => Locked key s ∧ Retired key s :=
    firm_locked.1.and lasting_retired
  refine unpauseLocked_triple (R := fun _ => True)
    (B := fun name s => (A.pool node.name = some name ∧ name ≠ "") ∧ Locked key s ∧ Retired key s)
    (G := fun name p s => (p.nodeSelector = A.selector name ∧ name ≠ "") ∧ Locked key s ∧ Retired key s)
    (K := fun name => Idle A key name) (Stable.const _)
    (getMCPName_assigned (fun he => he.1) (fun hi => hi.assigned) hA hcov) (fun name => ?_)
    (fun name p => ?_) (fun name => ?_) fun name => ?_
  · refine TripleE.of_pure fun hpool => ?_
    refine (getPool_triple (K := fun p s => (p.nodeSelector = A.selector name ∧ name ≠ "") ∧
      Locked key s ∧ Retired key s) hA (fun p => (Lasting.const _).and hA) ?_).conseq (fun _ _ h => h)
      fun p s _ h => ⟨h.1, fun _ => h.2, fun _ => trivial⟩
    exact fun s p hinv hs hp => ⟨⟨hinv.assigned.selector hp, hpool.2⟩, hs⟩
  -- the lists are read under the mutex: no other object can pause the pool in between
  · refine TripleE.of_pure fun ⟨hsel, hne⟩ => ?_
    refine mcpUsedByOther_triple (L := Listed A key name) (fun used => ?_) ?_ fun nodes => ?_
    · exact (Stable.const _).and firm_idle.1.stable.imp
    · rw [hsel]
      exact listNodes_triple
    · exact (listNodeMaintenances_triple hkey hne).conseq (fun _ _ h => h)
        fun nml s _ h => ⟨fun _ => trivial, h⟩
  · exact clearPatch_triple.conseq (fun _ _ h => h) fun _ _ _ _ => trivial
  · exact (getPool_triple (K := fun _ _ => True) (Lasting.const _) (fun _ => Lasting.const _)
      fun _ _ _ _ _ => trivial).conseq (fun _ _ h => h) fun _ _ _ _ => trivial

lemma unpause_triple {r : Reconciler} (hcov : A.Covers node) :
    PauseTriple formats A key (fun s => (pausingHost formats A key).Holds m s ∧ Sole key m.uid s)
      (r.unpause m node) fun _ => (pausingHost formats A key).Holds m := by
  refine Triple.assume (fun s _ h => h.1.1) fun hkey => ?_
  have hunpause : PauseTriple formats A key (Sole key m.uid) (r.unpause m node) fun _ _ => True := by
    unfold Reconciler.unpause
    split
    · refine noteUnpause_triple.bind fun _ => ?_
      refine locked_triple (P := fun _ _ => True) firm_locked.1.stable (fun _ => Stable.const _) locked_call
        (lock_triple lasting_retired) (unpauseLocked_all not_mutex_pools)
        (unpauseLocked_retired hkey hcov) (unlock_triple (fun _ => Stable.const _) fun _ _ _ _ h => h)
    · exact .pure firm_sole.1.stable fun _ _ _ => trivial
  exact (frame_holds hunpause).conseq (fun s _ h => ⟨h.2, h.1⟩) fun _ s _ h => h.2

/-! ### The handlers -/

/-- The finalizer comes off, the label stays. -/
lemma release_triple :
    PauseTriple formats A key ((pausingHost formats A key).Holds m)
      (removeFinalizer m maintenanceFinalizerName) fun _ _ => True := by
  refine TripleE.pre (removeFinalizer_triple (F := fun _ => True) (Lasting.const _) ?_)
    fun s _ h => ⟨h, trivial⟩
  exact fun s refs _ _ _ => .inl rfl

lemma cleanup_triple {r : Reconciler} :
    PauseTriple formats A key (fun s => (pausingHost formats A key).Holds m s ∧ InHand A key node m s)
      (r.cleanup m node) fun _ _ => True := by
  refine Triple.assume (fun s _ h => h.2.covers) fun hcov => ?_
  refine TripleE.pre (TripleE.bind (uncordonStep_triple firm_sole (fun s refs l _ _ _ => .inl rfl) ?_)
    fun a => TripleE.of_pure fun ha => ?_) fun s _ h => ⟨h.1, h.2.sole⟩
  · exact quiet_all (lasting_holds.and firm_sole.1) (runCordonOrUncordon_all
      (quiet_aside ⟨nofun, nofun, nofun, fun _ => nofun⟩))
  · rw [show m.uid = a.uid from ha.uid.symm]
    exact (unpause_triple hcov).bind fun _ => done_triple release_triple

lemma handleScheduledState_triple :
    PauseTriple formats A key (fun s => (pausingHost formats A key).Holds m s ∧ InHand A key node m s)
      (Reconciler.handleScheduledState ⟨true, formats⟩ m node) fun _ _ => True := by
  refine Triple.assume (fun s _ h => h.2.covers) fun hcov => ?_
  refine scheduledState_triple (R := (pausingHost formats A key).Holds m)
    (C := fun a s => a.key = key ∧ PauseDone s.world a.uid) ?_ (fun _ => done_triple release_triple)
    addFinalizer_triple (fun a => TripleE.of_pure fun hg => ?_) nofun fun a => TripleE.of_pure fun ha => ?_
  · exact (unpause_triple hcov).pre fun s _ h => ⟨h.1, h.2.sole⟩
  · refine (pauseMCP_triple hg).conseq (fun _ _ h => h) fun a' s _ h => ⟨h.1.1, ?_⟩
    rw [h.1.2]
    exact h.2
  · refine setReady_stable (H := pausingHost formats A key) firm_done.1.stable ha
      (silent firm_done.1 ⟨.inl rfl, fun _ => trivial⟩) ?_
    intro s o now _ hdone _ hm _
    rw [show o.uid = a.uid from hm.2.1]
    exact hdone

/-- An object that is past phase Scheduled stays so. -/
lemma toWait_triple (hm : getReadyConditionReason m = .cordon) :
    PauseTriple formats A key (fun s => (pausingHost formats A key).Holds m s ∧ InHand A key node m s)
      (do let a ← (if m.spec.cordon then handleCordon m node else pure m)
          let _ ← setReadyConditionReason a .waitForPodCompletion
          return Result.zero) fun _ _ => True := by
  refine TripleE.pre (cordonState_triple (H := pausingHost formats A key) (Firm.const True)
    (fun s refs l _ _ _ => .inl rfl) (quiet_aside ⟨nofun, nofun, nofun, fun _ => nofun⟩) fun a ha => ?_)
    fun s _ h => ⟨h.1, trivial⟩
  refine setReady_triple (Lasting.const True) fun s refs now hinv _ ho _ => hinv.past ho ?_
  exact Nat.le_of_eq (phase_of_reason (ha.trans hm)).symm

/-- Nothing else is left to show. -/
lemma plan : Plan (pausingHost formats A key) ⟨true, formats⟩ node (InHand A key node) where
  lasting _ := lasting_inHand
  alike hal h := h.alike hal
  drain he := quiet_aside (.drain he)
  podCompletion _ _ _ := quiet_aside ⟨nofun, nofun, nofun, fun _ => nofun⟩
  advance {s o b} hinv ho adv hs hc hw := by
    intro h₃
    refine hinv.past ho ?_
    unfold phase at h₃ ⊢
    generalize getReadyConditionReason o = ro at adv
    generalize getReadyConditionReason b = rb at adv hs hc hw h₃
    cases adv <;> simp_all [Reason.order]
  cleanup _ _ _ := cleanup_triple
  scheduled _ := handleScheduledState_triple
  cordon hm _ := toWait_triple hm

/-! ### The body -/

/-- What reading an object tells. -/
def Seen (key : NamespacedName) (m : NodeMaintenance) (s : Pausing) : Prop :=
  Sole key m.uid s ∧ (Guarded m → Labelled key m.uid (mcpLabel m) s.world)

lemma lasting_seen : (pausingHost formats A key).Lasting (Seen key m) :=
  fun s s' hi hi' hk h => ⟨h.1.moves hk.toPausingMoves, fun hg => lasting_labelled _ _ s s' hi hi' hk (h.2 hg)⟩

lemma getNodeMaintenance_triple :
    PauseTriple formats A key (fun _ => True) (observe (Client.getNodeMaintenance key))
      fun res s => ∀ m, res = .ok m → (pausingHost formats A key).Holds m s ∧ Seen key m s := by
  refine Host.getNodeMaintenance_triple (fun m => lasting_holds.and lasting_seen) ?_
  intro s m s' _ hinv' hexec
  obtain ⟨hw, hread⟩ := hexec.1
  have ho : s'.world.nms.get key = some m := hw ▸ hread
  refine ⟨⟨Store.key_of_get ho, m, hinv'.consistent.stored ho, rfl⟩, fun o ho' _ => ?_,
    fun hg => ⟨m, ho, hg, rfl, rfl⟩⟩
  rw [Option.some.inj (ho.symm.trans ho')]

lemma getNode_triple :
    PauseTriple formats A key (fun s => (pausingHost formats A key).Holds m s ∧ Seen key m s)
      (observe (Client.getNode m.spec.nodeName)) fun res s =>
        (res = .error .notFound → (pausingHost formats A key).Holds m s) ∧
        ∀ node, res = .ok node → (pausingHost formats A key).Holds m s ∧ InHand A key node m s := by
  have hA : (pausingHost formats A key).Lasting fun s =>
      (pausingHost formats A key).Holds m s ∧ Seen key m s := lasting_holds.and lasting_seen
  refine Host.getNode_triple hA lasting_holds (fun node => lasting_holds.and lasting_inHand) ?_ ?_
  · exact fun s s' hi hi' h hexec => (hA s s' hi hi' (.aside (.read rfl) hexec.1 hexec.2) h).1
  · intro s node s' hi hi' h hexec
    obtain ⟨hm, hsole, hstands⟩ := hA s s' hi hi' (.aside (.read rfl) hexec.1 hexec.2) h
    obtain ⟨hw, hread⟩ := hexec.1
    have hn : s'.world.nodes.get m.spec.nodeName = some node := hw ▸ hread
    exact ⟨hm, ⟨Store.key_of_get hn, hi'.assigned.covers hn, by rw [hn]; rfl⟩, hsole, hstands⟩

/-- The body of a reconciler. -/
theorem reconcile_triple :
    PauseTriple formats A key (fun _ => True) (Reconciler.reconcile ⟨true, formats⟩ key)
      fun _ _ => True := by
  refine reconcileBody_triple getNodeMaintenance_triple (fun m => getNode_triple) (fun m => ?_)
    fun m node => plan.dispatch_triple
  exact nodeNotFound_triple lasting_holds (quiet_aside ⟨nofun, nofun, nofun, fun _ => nofun⟩) release_triple

end PauseKept

/-! ### Runs -/

/-- A cluster on which the operator has paused nothing yet. -/
structure Unpaused (A : Assignment) (w : World) : Prop where
  consistent : Consistent w
  assigned : Assigned A w
  pools : ∀ {name p}, w.pools.get name = some p → p.annotated = false
  early : ∀ {k o}, w.nms.get k = some o → phase o < 3
  notes : w.notes = []

lemma Unpaused.inv {A : Assignment} {w : World} (h : Unpaused A w) : PausingInv A ⟨w, none⟩ := by
  have hdone : ∀ uid, ¬ PauseDone w uid := by
    rintro uid ⟨m, hm, -⟩
    rw [h.notes] at hm
    cases hm
  refine ⟨h.consistent, h.assigned, fun {name p} hp hann => ?_, fun _ heng => absurd heng.1 (hdone _),
    fun {k o} ho h₃ => ?_, fun hd => absurd hd (hdone _)⟩
  · rw [h.pools hp] at hann
    cases hann
  · have := h.early ho
    omega

section Runs
variable {formats : Formats} {A : Assignment} {w₀ : World}
  {c : Config NamespacedName Op Resp Pausing (Except Err Result)}

end Runs
/-! ### A computed run -/

/-- Answers of a server that is up. -/
def Pausing.serve (key : NamespacedName) (e : Op) (s : Pausing) : Option (Resp e × Pausing) :=
  (s.world.serve e).bind fun aw => (mutexAfter key s.mutex e).map fun holder => (aw.1, ⟨aw.2, holder⟩)

lemma exec_of_pausingServe {formats : Formats} {A : Assignment} {key : NamespacedName} {e : Op}
    {s s' : Pausing} {a : Resp e} (h : s.serve key e = some (a, s')) :
    (pausing formats A).exec key e s a s' := by
  obtain ⟨aw, hserve, h⟩ := Option.bind_eq_some_iff.mp h
  obtain ⟨holder, hstep, h⟩ := Option.map_eq_some_iff.mp h
  cases h
  exact ⟨World.perform_of_serve hserve, mutexStep_of_after hstep⟩

/-- A turn of the others. -/
def Pausing.turn (A : Assignment) (t : Turn) (s : Pausing) : Option Pausing :=
  (A.turn s.world t).map fun w => ⟨w, s.mutex⟩

lemma env_of_pausingTurn {formats : Formats} {A : Assignment} {t : Turn}
    {c : Config NamespacedName Op Resp Pausing (Except Err Result)} {s' : Pausing}
    (h : Pausing.turn A t c.state = some s') : (pausing formats A).env c s' := by
  obtain ⟨w, hw, rfl⟩ := Option.map_eq_some_iff.mp h
  obtain ⟨hc, hl, hassigned⟩ := A.env_of_turn hw
  exact ⟨hc, hl, hassigned, rfl⟩

lemma body_of_reconcile {formats : Formats} {A : Assignment} {key : NamespacedName}
    {p : Proc (Except Err Result)}
    (h : some (Reconciler.reconcile ⟨true, formats⟩ key).run = some p) :
    (pausing formats A).body key p :=
  (Option.some.inj h).symm

/-- A player for the operator on an assignment. -/
def pausingPlayer (formats : Formats) (A : Assignment) : Player (pausing formats A) Turn where
  program key := some (Reconciler.reconcile ⟨true, formats⟩ key).run
  body := body_of_reconcile
  answer := Pausing.serve
  exec := exec_of_pausingServe
  event := Pausing.turn A
  env := env_of_pausingTurn

lemma unpaused_twoWorkers : Unpaused workers twoWorkers := by
  have hpools : ∀ p ∈ twoWorkers.pools.items, p.annotated = false := by decide
  have hearly : ∀ o ∈ twoWorkers.nms.items, phase o < 3 := by decide
  exact ⟨consistent_poolCluster _ _ _, assigned_of_agrees (by decide +kernel),
    fun hp => hpools _ (Store.get_mem hp), fun ho => hearly _ (Store.get_mem ho), rfl⟩

end MaintenanceOperator
