import MaintenanceOperator.Lib.Refine

/-!
# Mailboxes

A mailbox passes the values of some fields `F` from a writer to a reader. It holds two copies of the
fields: the writer stores into the pending copy, the reader loads the pending copy into its own and
reads that one without a lock; one mutex guards storing and loading, which go field by field. The log
of a mailbox puts the stores, the loads and the uses of loaded values in an order. Seen through the log
a mailbox is atomic: what a use gets are the values of one store, the last one before the last load
(`Faithful`). `Seat` is a thread of some system with one side of a mailbox; `Seat.store_triple`,
`Seat.load_triple` and `Seat.get_triple` are the rules for the operations in any such system.
-/

namespace MaintenanceOperator.Lib

/-- The two sides of a mailbox. -/
inductive Side where
  | writer
  | reader
  deriving DecidableEq

/-- Entries of the log. -/
inductive Entry (F V : Type) where
  | stored (v : F → V)
  | loaded
  | used (v : F → V)

/-- The mutex, the two copies, and the log, with the latest entry first. -/
structure Mailbox (F V : Type) where
  holder : Option Side
  pending : F → V
  loaded : F → V
  log : List (Entry F V)

namespace Mailbox
variable {F V : Type}

/-- An unused mailbox: both copies hold the initial values. -/
def fresh (init : F → V) : Mailbox F V := ⟨none, init, init, []⟩

/-! ### What the log says -/

/-- The values stored last. -/
def lastStored (init : F → V) : List (Entry F V) → F → V
  | [] => init
  | .stored v :: _ => v
  | _ :: log => lastStored init log

/-- The values stored last when the reader loaded last. -/
def lastLoaded (init : F → V) : List (Entry F V) → F → V
  | [] => init
  | .loaded :: log => lastStored init log
  | _ :: log => lastLoaded init log

/-- The values used last. -/
def lastUsed : List (Entry F V) → Option (F → V)
  | [] => none
  | .used v :: _ => some v
  | _ :: log => lastUsed log

/-- Every use got the values stored last before the last load. -/
def Faithful (init : F → V) : List (Entry F V) → Prop
  | [] => True
  | .used v :: log => v = lastLoaded init log ∧ Faithful init log
  | _ :: log => Faithful init log

/-- Values that were stored, or the initial ones. -/
def Known (init : F → V) (log : List (Entry F V)) (v : F → V) : Prop := v = init ∨ .stored v ∈ log

lemma known_lastStored (init : F → V) (log : List (Entry F V)) : Known init log (lastStored init log) := by
  induction log with
  | nil => exact .inl rfl
  | cons e log ih =>
    cases e with
    | stored v => exact .inr (.head _)
    | loaded => exact ih.imp id (.tail _)
    | used v => exact ih.imp id (.tail _)

lemma known_lastLoaded (init : F → V) (log : List (Entry F V)) : Known init log (lastLoaded init log) := by
  induction log with
  | nil => exact .inl rfl
  | cons e log ih =>
    cases e with
    | stored v => exact ih.imp id (.tail _)
    | loaded => exact (known_lastStored init log).imp id (.tail _)
    | used v => exact ih.imp id (.tail _)

lemma used_of_lastUsed {log : List (Entry F V)} {v : F → V} (h : lastUsed log = some v) : .used v ∈ log := by
  induction log with
  | nil => cases h
  | cons e log ih =>
    cases e with
    | stored v' => exact .tail _ (ih h)
    | loaded => exact .tail _ (ih h)
    | used v' =>
      cases h
      exact .head _

/-- What is used was stored, all of it at once, or is initial. -/
lemma Faithful.known {init : F → V} {log : List (Entry F V)} (h : Faithful init log) {v : F → V}
    (hv : .used v ∈ log) : Known init log v := by
  induction log with
  | nil => cases hv
  | cons e log ih =>
    cases e with
    | stored v' =>
      obtain hv | hv := List.mem_cons.mp hv
      · cases hv
      · exact (ih h hv).imp id (.tail _)
    | loaded =>
      obtain hv | hv := List.mem_cons.mp hv
      · cases hv
      · exact (ih h hv).imp id (.tail _)
    | used v' =>
      obtain hv | hv := List.mem_cons.mp hv
      · cases hv
        rw [h.1]
        exact (known_lastLoaded init log).imp id (.tail _)
      · exact (ih h.2 hv).imp id (.tail _)

/-! ### Operations -/

/-- Calls on a mailbox; `note` puts an entry into the log. -/
inductive Op (F V : Type) where
  | lock
  | unlock
  | getPending (f : F)
  | setPending (f : F) (v : V)
  | getLoaded (f : F)
  | setLoaded (f : F) (v : V)
  | note (e : Entry F V)

/-- Response types. -/
abbrev Resp : Op F V → Type
  | .getPending _ => V
  | .getLoaded _ => V
  | _ => Unit

/-- Meaning of the calls of one side. -/
def Exec [DecidableEq F] (side : Side) : (e : Op F V) → Mailbox F V → Resp e → Mailbox F V → Prop
  | .lock, b, _, b' => b.holder = none ∧ b' = { b with holder := some side }
  | .unlock, b, _, b' => b' = { b with holder := none }
  | .getPending f, b, r, b' => b' = b ∧ r = b.pending f
  | .setPending f v, b, _, b' => b' = { b with pending := Function.update b.pending f v }
  | .getLoaded f, b, r, b' => b' = b ∧ r = b.loaded f
  | .setLoaded f v, b, _, b' => b' = { b with loaded := Function.update b.loaded f v }
  | .note e, b, _, b' => b' = { b with log := e :: b.log }

/-- How a side is answered; it waits for the mutex. -/
def answer [DecidableEq F] (side : Side) : (e : Op F V) → Mailbox F V → Option (Resp e × Mailbox F V)
  | .lock, b => if b.holder = none then some ((), { b with holder := some side }) else none
  | .unlock, b => some ((), { b with holder := none })
  | .getPending f, b => some (b.pending f, b)
  | .setPending f v, b => some ((), { b with pending := Function.update b.pending f v })
  | .getLoaded f, b => some (b.loaded f, b)
  | .setLoaded f v, b => some ((), { b with loaded := Function.update b.loaded f v })
  | .note e, b => some ((), { b with log := e :: b.log })

lemma exec_of_answer [DecidableEq F] {side : Side} {e : Op F V} {b b' : Mailbox F V} {r : Resp e}
    (h : answer side e b = some (r, b')) : Exec side e b r b' := by
  cases e with
  | lock =>
    simp only [answer] at h
    split at h
    · rename_i hfree
      cases h
      exact ⟨hfree, rfl⟩
    · cases h
  | getPending f =>
    cases h
    exact ⟨rfl, rfl⟩
  | getLoaded f =>
    cases h
    exact ⟨rfl, rfl⟩
  | _ =>
    cases h
    rfl

/-- Issue one call. -/
def issue (e : Op F V) : Prog (Op F V) Resp (Resp e) := Prog.lift e

/-- Write the pending copy, field by field. -/
def setAll (v : F → V) : List F → Prog (Op F V) Resp Unit
  | [] => .ret ()
  | f :: fs => do
    let _ ← issue (.setPending f (v f))
    setAll v fs

/-- Copy the pending values, field by field. -/
def copyAll : List F → Prog (Op F V) Resp Unit
  | [] => .ret ()
  | f :: fs => do
    let v ← issue (.getPending f)
    let _ ← issue (.setLoaded f v)
    copyAll fs

/-- Store the values of the fields. -/
def store (fields : List F) (v : F → V) : Prog (Op F V) Resp Unit := do
  let _ ← issue .lock
  setAll v fields
  let _ ← issue (.note (.stored v))
  issue .unlock

/-- Load the values of the fields. -/
def load (fields : List F) : Prog (Op F V) Resp Unit := do
  let _ ← issue .lock
  copyAll fields
  let _ ← issue (.note .loaded)
  issue .unlock

/-- Read a loaded value. -/
def get (f : F) : Prog (Op F V) Resp V := issue (.getLoaded f)

/-- The call notes no use. -/
def Op.NoUse (e : Op F V) : Prop := ∀ v, e ≠ .note (.used v)

lemma lastUsed_of_exec [DecidableEq F] {side : Side} {e : Op F V} {b b' : Mailbox F V} {r : Resp e}
    (he : e.NoUse) (h : Exec side e b r b') : lastUsed b'.log = lastUsed b.log := by
  cases e with
  | note e =>
    obtain rfl : b' = { b with log := e :: b.log } := h
    cases e with
    | used v => exact (he v rfl).elim
    | stored v => rfl
    | loaded => rfl
  | lock => rw [h.2]
  | getPending f => rw [h.1]
  | getLoaded f => rw [h.1]
  | unlock =>
    obtain rfl : b' = { b with holder := none } := h
    rfl
  | setPending f v =>
    obtain rfl : b' = { b with pending := Function.update b.pending f v } := h
    rfl
  | setLoaded f v =>
    obtain rfl : b' = { b with loaded := Function.update b.loaded f v } := h
    rfl

lemma store_noUse (fields : List F) (v : F → V) : (store fields v).All Op.NoUse := by
  have hset : (setAll v fields).All Op.NoUse := by
    induction fields with
    | nil => trivial
    | cons f fs ih => exact .bind (.lift nofun) fun _ => ih
  exact .bind (.lift nofun) fun _ => .bind hset fun _ => .bind (.lift nofun) fun _ => .lift nofun

lemma load_noUse (fields : List F) : (load fields : Prog (Op F V) Resp Unit).All Op.NoUse := by
  have hcopy : (copyAll fields : Prog (Op F V) Resp Unit).All Op.NoUse := by
    induction fields with
    | nil => trivial
    | cons f fs ih => exact .bind (.lift nofun) fun _ => .bind (.lift nofun) fun _ => ih
  exact .bind (.lift nofun) fun _ => .bind hcopy fun _ => .bind (.lift nofun) fun _ => .lift nofun

lemma get_noUse (f : F) : (get f : Prog (Op F V) Resp V).All Op.NoUse := .lift nofun

/-! ### The protocol -/

/-- While the writer does not hold the mutex, the pending values are those stored last; while the reader
does not hold it, the loaded values are those loaded last. -/
structure Inv (init : F → V) (b : Mailbox F V) : Prop where
  pending : b.holder ≠ some .writer → b.pending = lastStored init b.log
  loaded : b.holder ≠ some .reader → b.loaded = lastLoaded init b.log
  faithful : Faithful init b.log

/-- What a side may do: write its copy, and add its entries, with the mutex; release the mutex once its
copy is what the log says; and use what was loaded last. -/
def Perm (init : F → V) (side : Side) (b : Mailbox F V) : Op F V → Prop
  | .lock => True
  | .unlock => b.holder = some side ∧ (side = .writer → b.pending = lastStored init b.log) ∧
      (side = .reader → b.loaded = lastLoaded init b.log)
  | .getPending _ => True
  | .setPending _ _ => side = .writer ∧ b.holder = some .writer
  | .getLoaded _ => True
  | .setLoaded _ _ => side = .reader ∧ b.holder = some .reader
  | .note (.stored _) => side = .writer ∧ b.holder = some .writer
  | .note .loaded => side = .reader ∧ b.holder = some .reader
  | .note (.used v) => v = lastLoaded init b.log

/-- What a side can rely upon: the mutex stays as it is for this side; the other side leaves the own copy
alone, and while this side holds the mutex also its own. -/
structure Rely (init : F → V) (side : Side) (b b' : Mailbox F V) : Prop where
  holder : b'.holder = some side ↔ b.holder = some side
  pending : side = .writer ∨ b.holder = some side →
    b'.pending = b.pending ∧ lastStored init b'.log = lastStored init b.log
  loaded : side = .reader → b'.loaded = b.loaded ∧ lastLoaded init b'.log = lastLoaded init b.log

lemma inv_fresh (init : F → V) : Inv init (fresh init) := ⟨fun _ => rfl, fun _ => rfl, trivial⟩

lemma Rely.refl (init : F → V) (side : Side) (b : Mailbox F V) : Rely init side b b :=
  ⟨Iff.rfl, fun _ => ⟨rfl, rfl⟩, fun _ => ⟨rfl, rfl⟩⟩

section Steps
variable [DecidableEq F] {init : F → V} {side : Side} {b b' : Mailbox F V} {e : Op F V} {r : Resp e}

/-- A call with permission keeps the invariant. -/
lemma Inv.exec (h : Inv init b) (hp : Perm init side b e) (hx : Exec side e b r b') : Inv init b' := by
  cases e with
  | lock =>
    obtain ⟨hfree, rfl⟩ := hx
    exact ⟨fun _ => h.pending (by simp [hfree]), fun _ => h.loaded (by simp [hfree]), h.faithful⟩
  | unlock =>
    obtain rfl := hx
    obtain ⟨hheld, hw, hr⟩ := hp
    -- the copy of this side is as it should be, that of the other was so all the time
    cases side with
    | writer => exact ⟨fun _ => hw rfl, fun _ => h.loaded (by simp [hheld]), h.faithful⟩
    | reader => exact ⟨fun _ => h.pending (by simp [hheld]), fun _ => hr rfl, h.faithful⟩
  | getPending f => exact hx.1 ▸ h
  | getLoaded f => exact hx.1 ▸ h
  | setPending f v =>
    obtain rfl := hx
    exact ⟨fun hne => absurd hp.2 hne, h.loaded, h.faithful⟩
  | setLoaded f v =>
    obtain rfl := hx
    exact ⟨h.pending, fun hne => absurd hp.2 hne, h.faithful⟩
  | note entry =>
    obtain rfl := hx
    cases entry with
    | stored v => exact ⟨fun hne => absurd hp.2 hne, h.loaded, h.faithful⟩
    | loaded => exact ⟨h.pending, fun hne => absurd hp.2 hne, h.faithful⟩
    | used v => exact ⟨h.pending, h.loaded, hp, h.faithful⟩

/-- The other side can rely on it. -/
lemma Rely.exec {other : Side} (hne : side ≠ other) (hp : Perm init side b e) (hx : Exec side e b r b') :
    Rely init other b b' := by
  cases e with
  | lock =>
    obtain ⟨hfree, rfl⟩ := hx
    exact ⟨by simp [hfree, hne], fun _ => ⟨rfl, rfl⟩, fun _ => ⟨rfl, rfl⟩⟩
  | unlock =>
    obtain rfl := hx
    exact ⟨by simp [hp.1, hne], fun _ => ⟨rfl, rfl⟩, fun _ => ⟨rfl, rfl⟩⟩
  | getPending f => exact hx.1 ▸ .refl init other b
  | getLoaded f => exact hx.1 ▸ .refl init other b
  | setPending f v =>
    obtain rfl := hx
    obtain ⟨rfl, hheld⟩ := hp
    refine ⟨Iff.rfl, fun h => ?_, fun _ => ⟨rfl, rfl⟩⟩
    rcases h with rfl | h
    · exact absurd rfl hne
    · exact absurd (Option.some.inj (hheld.symm.trans h)) hne
  | setLoaded f v =>
    obtain rfl := hx
    exact ⟨Iff.rfl, fun _ => ⟨rfl, rfl⟩, fun h => absurd (hp.1.trans h.symm) hne⟩
  | note entry =>
    obtain rfl := hx
    cases entry with
    | stored v =>
      obtain ⟨rfl, hheld⟩ := hp
      refine ⟨Iff.rfl, fun h => ?_, fun _ => ⟨rfl, rfl⟩⟩
      rcases h with rfl | h
      · exact absurd rfl hne
      · exact absurd (Option.some.inj (hheld.symm.trans h)) hne
    | loaded => exact ⟨Iff.rfl, fun _ => ⟨rfl, rfl⟩, fun h => absurd (hp.1.trans h.symm) hne⟩
    | used v => exact ⟨Iff.rfl, fun _ => ⟨rfl, rfl⟩, fun _ => ⟨rfl, rfl⟩⟩

/-- New entries of a log that were added by one call. -/
lemma stored_of_exec (hx : Exec side e b r b') {v : F → V} (hv : .stored v ∈ b'.log) :
    .stored v ∈ b.log ∨ e = .note (.stored v) := by
  cases e with
  | lock =>
    obtain ⟨-, rfl⟩ := hx
    exact .inl hv
  | unlock =>
    obtain rfl := hx
    exact .inl hv
  | getPending f => exact .inl (hx.1 ▸ hv)
  | getLoaded f => exact .inl (hx.1 ▸ hv)
  | setPending f x =>
    obtain rfl := hx
    exact .inl hv
  | setLoaded f x =>
    obtain rfl := hx
    exact .inl hv
  | note entry =>
    obtain rfl := hx
    rcases List.mem_cons.mp hv with rfl | hv
    · exact .inr rfl
    · exact .inl hv

end Steps
end Mailbox

open Mailbox Discipline

variable {ι E S α F V : Type} {R : E → Type} {Y : System ι E R S α} [DecidableEq F]

/-- A thread with one side of a mailbox: where the mailbox is, how its calls are issued, what else of the
state they leave alone (`Same`), and which values may be stored. -/
structure Seat (D : Discipline Y) (i : ι) (init : F → V) (side : Side) where
  box : S → Mailbox F V
  Same : S → S → Prop
  May : S → (F → V) → Prop
  issue : (e : Mailbox.Op F V) → Prog E R (Mailbox.Resp e)
  inv : ∀ {s}, D.inv s → Inv init (box s)
  rely : ∀ {s s'}, D.rely i s s' → Rely init side (box s) (box s')
  triple : ∀ {e A B}, D.Stable i A → (∀ r, D.Stable i (B r)) →
    (∀ s, D.inv s → A s → Perm init side (box s) e ∧ ∀ v, e = .note (.stored v) → May s v) →
    (∀ s r s', D.inv s → D.inv s' → A s → Exec side e (box s) r (box s') → Same s s' → B r s') →
    D.Triple i A (issue e) B

namespace Seat
variable {D : Discipline Y} {i : ι} {init : F → V} {side : Side} (K : Seat D i init side)
  {C : S → Prop}

/-- A program on the mailbox, as a program of the thread. -/
def run {β : Type} (p : Prog (Mailbox.Op F V) Mailbox.Resp β) : Prog E R β := p.translate K.issue

lemma run_issue (e : Mailbox.Op F V) : K.run (Mailbox.issue e) = K.issue e :=
  Prog.bind_ret (K.issue e)

@[simp] lemma run_bind {β γ : Type} (p : Prog (Mailbox.Op F V) Mailbox.Resp β)
    (f : β → Prog (Mailbox.Op F V) Mailbox.Resp γ) : K.run (p >>= f) = K.run p >>= fun b => K.run (f b) :=
  Prog.translate_bind K.issue p f

/-- What is known about the rest of the state: the others and the calls on the mailbox keep it. -/
def Carried (C : S → Prop) : Prop := D.Stable i C ∧ ∀ s s', K.Same s s' → C s → C s'

/-- The side does not hold the mutex. -/
def Free (s : S) : Prop := (K.box s).holder ≠ some side

/-- It holds the mutex. -/
def Held (s : S) : Prop := (K.box s).holder = some side

/-- The loaded values are `v`, and the side does not hold the mutex. -/
def Loaded (v : F → V) (s : S) : Prop := (K.box s).loaded = v ∧ K.Free s

variable {K}

lemma stable_free : D.Stable i K.Free :=
  fun _ _ _ _ hr h => fun h' => h ((K.rely hr).holder.mp h')

lemma stable_held : D.Stable i K.Held := fun _ _ _ _ hr h => (K.rely hr).holder.mpr h

lemma Carried.const (P : Prop) : K.Carried fun _ => P := ⟨Stable.const P, fun _ _ _ h => h⟩

/-- One call that needs and gives only what is known of the mailbox, with the rest carried along. -/
lemma call_triple {e : Mailbox.Op F V} {A : S → Prop} {B : Mailbox.Resp e → S → Prop} (hC : K.Carried C)
    (hA : D.Stable i A) (hB : ∀ r, D.Stable i (B r))
    (hp : ∀ s, D.inv s → A s → Perm init side (K.box s) e)
    (hmay : ∀ s v, e = .note (.stored v) → C s → K.May s v)
    (h : ∀ s r s', D.inv s → A s → Exec side e (K.box s) r (K.box s') → B r s') :
    D.Triple i (fun s => A s ∧ C s) (K.run (Mailbox.issue e)) fun r s => B r s ∧ C s := by
  rw [run_issue]
  refine K.triple (hA.and hC.1) (fun r => (hB r).and hC.1) ?_ ?_
  · exact fun s hs hAC => ⟨hp s hs hAC.1, fun v he => hmay s v he hAC.2⟩
  · exact fun s r s' hs _ hAC hx hsame => ⟨h s r s' hs hAC.1 hx, hC.2 s s' hsame hAC.2⟩

/-- One field, and then some others; a field that comes again gets the same value again. -/
lemma update_fields {v w : F → V} {f : F} {fields : List F} :
    (fun g => if g ∈ fields then v g else Function.update w f (v f) g) =
      fun g => if g ∈ f :: fields then v g else w g := by
  funext g
  by_cases hg : g ∈ fields
  · simp [hg]
  · by_cases hgf : g = f
    · subst hgf
      simp
    · simp [hg, hgf]

/-- The mutex is taken. -/
lemma lock_triple (hC : K.Carried C) :
    D.Triple i (fun s => True ∧ C s) (K.run (Mailbox.issue .lock)) fun _ s => K.Held s ∧ C s := by
  refine call_triple hC (Stable.const _) (fun _ => stable_held) (fun _ _ _ => trivial) (fun _ _ he => by cases he) ?_
  intro s r s' _ _ hx
  rw [Held, hx.2]

section Writer
variable {K : Seat D i init .writer} {v w : F → V}

/-- The writer holds the mutex, and these values are pending. -/
def Writing (K : Seat D i init .writer) (w : F → V) (s : S) : Prop := K.Held s ∧ (K.box s).pending = w

lemma stable_writing : D.Stable i (K.Writing w) := fun s s' hs hs' hr h =>
  ⟨stable_held s s' hs hs' hr h.1, ((K.rely hr).pending (.inl rfl)).1.trans h.2⟩

lemma stable_pending : D.Stable i fun s => K.Writing w s ∧ lastStored init (K.box s).log = v := by
  intro s s' hs hs' hr h
  exact ⟨stable_writing s s' hs hs' hr h.1, ((K.rely hr).pending (.inl rfl)).2.trans h.2⟩

/-- Writing the fields one after the other. -/
lemma setAll_triple (hC : K.Carried C) (fields : List F) :
    D.Triple i (fun s => K.Writing w s ∧ C s) (K.run (setAll v fields)) fun _ s =>
      K.Writing (fun f => if f ∈ fields then v f else w f) s ∧ C s := by
  induction fields generalizing w with
  | nil =>
    refine .ret (stable_writing.and hC.1) fun s _ h => ?_
    simpa using h
  | cons f fields ih =>
    simp only [setAll, run_bind]
    have hset : D.Triple i (fun s => K.Writing w s ∧ C s) (K.run (Mailbox.issue (.setPending f (v f))))
        fun _ s => K.Writing (Function.update w f (v f)) s ∧ C s := by
      refine call_triple hC stable_writing (fun _ => stable_writing) (fun s _ h => ⟨rfl, h.1⟩)
        (fun _ _ he => by cases he) ?_
      intro s r s' _ h hx
      refine ⟨?_, ?_⟩
      · rw [Held, hx]
        exact h.1
      · rw [hx]
        exact congrArg (Function.update · f (v f)) h.2
    refine Triple.bind hset fun _ => Triple.conseq ih (fun _ _ h => h) fun _ s _ h => ?_
    have hfields : (fun g => if g ∈ fields then v g else Function.update w f (v f) g) =
        fun g => if g ∈ f :: fields then v g else w g := update_fields
    exact hfields ▸ h

/-- A store of values that may be stored. -/
theorem store_triple {fields : List F} (hall : ∀ f, f ∈ fields) (hC : K.Carried C)
    (hmay : ∀ s, C s → K.May s v) :
    D.Triple i C (K.run (store fields v)) fun _ => C := by
  simp only [store, run_bind]
  refine Triple.bind (Triple.pre (lock_triple hC) fun _ _ h => ⟨trivial, h⟩) fun _ => ?_
  refine Triple.pre (Triple.of_exists (A := fun w s => K.Writing w s ∧ C s) fun w => ?_)
    fun s _ h => ⟨_, ⟨h.1, rfl⟩, h.2⟩
  have hset : D.Triple i (fun s => K.Writing w s ∧ C s) (K.run (setAll v fields))
      fun _ s => K.Writing v s ∧ C s := by
    refine Triple.conseq (setAll_triple (v := v) hC fields) (fun _ _ h => h) fun _ s _ h => ?_
    simpa [hall] using h
  have hnote : D.Triple i (fun s => K.Writing v s ∧ C s) (K.run (Mailbox.issue (.note (.stored v))))
      fun _ s => (K.Writing v s ∧ lastStored init (K.box s).log = v) ∧ C s := by
    refine call_triple hC stable_writing (fun _ => stable_pending) (fun s _ h => ⟨rfl, h.1⟩) ?_ ?_
    · rintro s _ ⟨⟩ hCs
      exact hmay s hCs
    · intro s r s' _ h hx
      refine ⟨⟨?_, ?_⟩, ?_⟩
      · rw [Held, hx]
        exact h.1
      · rw [hx]
        exact h.2
      · rw [hx]
        rfl
  have hunlock : D.Triple i (fun s => (K.Writing v s ∧ lastStored init (K.box s).log = v) ∧ C s)
      (K.run (Mailbox.issue .unlock)) fun _ s => True ∧ C s := by
    refine call_triple hC stable_pending (fun _ => Stable.const _) ?_ (fun _ _ he => by cases he)
      fun _ _ _ _ _ _ => trivial
    exact fun s _ h => ⟨h.1.1, fun _ => h.1.2.trans h.2.symm, fun he => by cases he⟩
  refine Triple.bind hset fun _ => Triple.bind hnote fun _ => ?_
  exact hunlock.conseq (fun _ _ h => h) fun _ _ _ h => h.2

end Writer

section Reader
variable {K : Seat D i init .reader} {v w : F → V}

lemma stable_loaded : D.Stable i (K.Loaded v) := fun s s' hs hs' hr h =>
  ⟨((K.rely hr).loaded rfl).1.trans h.1, stable_free s s' hs hs' hr h.2⟩

/-- The reader holds the mutex with `v` pending, and has loaded `w`. -/
structure Reading (K : Seat D i init .reader) (v w : F → V) (s : S) : Prop where
  held : K.Held s
  pending : (K.box s).pending = v
  stored : lastStored init (K.box s).log = v
  loaded : (K.box s).loaded = w

lemma stable_reading : D.Stable i (K.Reading v w) := by
  intro s s' hs hs' hr h
  have hown := (K.rely hr).pending (.inr h.held)
  exact ⟨stable_held s s' hs hs' hr h.held, hown.1.trans h.pending, hown.2.trans h.stored,
    ((K.rely hr).loaded rfl).1.trans h.loaded⟩

lemma stable_taken : D.Stable i fun s => K.Reading v v s ∧ lastLoaded init (K.box s).log = v := by
  intro s s' hs hs' hr h
  exact ⟨stable_reading s s' hs hs' hr h.1, ((K.rely hr).loaded rfl).2.trans h.2⟩

/-- Copying the fields one after the other. -/
lemma copyAll_triple (hC : K.Carried C) (fields : List F) :
    D.Triple i (fun s => K.Reading v w s ∧ C s) (K.run (copyAll fields)) fun _ s =>
      K.Reading v (fun f => if f ∈ fields then v f else w f) s ∧ C s := by
  induction fields generalizing w with
  | nil =>
    refine .ret (stable_reading.and hC.1) fun s _ h => ?_
    simpa using h
  | cons f fields ih =>
    simp only [copyAll, run_bind]
    have hget : D.Triple i (fun s => K.Reading v w s ∧ C s) (K.run (Mailbox.issue (.getPending f)))
        fun x s => (K.Reading v w s ∧ x = v f) ∧ C s := by
      refine call_triple hC stable_reading (fun _ => stable_reading.and (Stable.const _))
        (fun _ _ _ => trivial) (fun _ _ he => by cases he) ?_
      intro s x s' _ h hx
      obtain ⟨hsame, rfl⟩ := hx
      refine ⟨⟨?_, hsame ▸ h.pending, hsame ▸ h.stored, hsame ▸ h.loaded⟩, ?_⟩
      · rw [Held, hsame]
        exact h.held
      · rw [h.pending]
    have hset : ∀ x, D.Triple i (fun s => (K.Reading v w s ∧ x = v f) ∧ C s) (K.run (Mailbox.issue (.setLoaded f x)))
        fun _ s => K.Reading v (Function.update w f (v f)) s ∧ C s := by
      intro x
      refine call_triple hC (stable_reading.and (Stable.const _)) (fun _ => stable_reading)
        (fun s _ h => ⟨rfl, h.1.held⟩) (fun _ _ he => by cases he) ?_
      rintro s r s' _ ⟨h, rfl⟩ hx
      have hx : K.box s' = { K.box s with loaded := Function.update (K.box s).loaded f (v f) } := hx
      refine ⟨?_, ?_, ?_, ?_⟩
      · rw [Held, hx]
        exact h.held
      · rw [hx]
        exact h.pending
      · rw [hx]
        exact h.stored
      · rw [hx]
        exact congrArg (Function.update · f (v f)) h.loaded
    refine Triple.bind hget fun x => Triple.bind (hset x) fun _ => ?_
    refine Triple.conseq ih (fun _ _ h => h) fun _ s _ h => ?_
    have hfields : (fun g => if g ∈ fields then v g else Function.update w f (v f) g) =
        fun g => if g ∈ f :: fields then v g else w g := update_fields
    exact hfields ▸ h

/-- A load leaves the reader with some values, and without the mutex. -/
theorem load_triple {fields : List F} (hall : ∀ f, f ∈ fields) (hC : K.Carried C) :
    D.Triple i C (K.run (load fields)) fun _ s => (∃ v, K.Loaded v s) ∧ C s := by
  simp only [load, run_bind]
  have hlock : D.Triple i (fun s => True ∧ C s) (K.run (Mailbox.issue .lock))
      fun _ s => (∃ v w, K.Reading v w s) ∧ C s := by
    -- the mutex was free, so the pending values are those stored last
    refine call_triple hC (Stable.const _) (fun _ => ?_) (fun _ _ _ => trivial) (fun _ _ he => by cases he) ?_
    · rintro s s' hs hs' hr ⟨v, w, h⟩
      exact ⟨v, w, stable_reading s s' hs hs' hr h⟩
    · rintro s r s' hs _ ⟨hfree, hx⟩
      have hp := (K.inv hs).pending (by simp [hfree])
      refine ⟨_, _, ?_, rfl, ?_, rfl⟩
      · rw [Held, hx]
      · rw [hx]
        exact hp.symm
  refine Triple.bind (Triple.pre hlock fun _ _ h => ⟨trivial, h⟩) fun _ => ?_
  refine Triple.pre (Triple.of_exists (A := fun x s => K.Reading x.1 x.2 s ∧ C s) fun x => ?_)
    fun s _ h => ⟨(h.1.choose, h.1.choose_spec.choose), h.1.choose_spec.choose_spec, h.2⟩
  obtain ⟨v, w⟩ := x
  have hcopy : D.Triple i (fun s => K.Reading v w s ∧ C s) (K.run (copyAll fields))
      fun _ s => K.Reading v v s ∧ C s := by
    refine Triple.conseq (copyAll_triple hC fields) (fun _ _ h => h) fun _ s _ h => ?_
    simpa [hall] using h
  have hnote : D.Triple i (fun s => K.Reading v v s ∧ C s) (K.run (Mailbox.issue (.note .loaded)))
      fun _ s => (K.Reading v v s ∧ lastLoaded init (K.box s).log = v) ∧ C s := by
    refine call_triple hC stable_reading (fun _ => stable_taken) (fun s _ h => ⟨rfl, h.held⟩)
      (fun _ _ he => by cases he) ?_
    intro s r s' _ h hx
    have hx : K.box s' = { K.box s with log := .loaded :: (K.box s).log } := hx
    refine ⟨⟨?_, ?_, ?_, ?_⟩, ?_⟩
    · rw [Held, hx]
      exact h.held
    · rw [hx]
      exact h.pending
    · rw [hx]
      exact h.stored
    · rw [hx]
      exact h.loaded
    · rw [hx]
      exact h.stored
  have hunlock : D.Triple i (fun s => (K.Reading v v s ∧ lastLoaded init (K.box s).log = v) ∧ C s)
      (K.run (Mailbox.issue .unlock)) fun _ s => K.Loaded v s ∧ C s := by
    refine call_triple hC stable_taken (fun _ => stable_loaded) ?_ (fun _ _ he => by cases he) ?_
    · exact fun s _ h => ⟨h.1.held, nofun, fun _ => h.1.loaded.trans h.2.symm⟩
    · intro s r s' _ h hx
      have hx : K.box s' = { K.box s with holder := none } := hx
      refine ⟨?_, ?_⟩
      · rw [hx]
        exact h.1.loaded
      · simp [Free, hx]
  refine Triple.bind hcopy fun _ => Triple.bind hnote fun _ => ?_
  exact hunlock.conseq (fun _ _ h => h) fun _ s _ h => ⟨⟨v, h.1⟩, h.2⟩

/-- A loaded value is read. -/
theorem get_triple {f : F} (hC : K.Carried C) :
    D.Triple i (fun s => K.Loaded v s ∧ C s) (K.run (Mailbox.get f)) fun x s => (K.Loaded v s ∧ x = v f) ∧ C s := by
  rw [Mailbox.get]
  refine call_triple hC stable_loaded (fun _ => stable_loaded.and (Stable.const _)) (fun _ _ _ => trivial)
    (fun _ _ he => by cases he) ?_
  rintro s x s' _ h ⟨hsame, rfl⟩
  refine ⟨⟨hsame ▸ h.1, ?_⟩, ?_⟩
  · rw [Free, hsame]
    exact h.2
  · rw [h.1]

/-- Loaded values are used. -/
theorem use_triple (hC : K.Carried C) :
    D.Triple i (fun s => K.Loaded v s ∧ C s) (K.run (Mailbox.issue (.note (.used v)))) fun _ s =>
      K.Loaded v s ∧ C s := by
  refine call_triple hC stable_loaded (fun _ => stable_loaded) ?_ (fun _ _ he => by cases he) ?_
  · exact fun s hs h => h.1.symm.trans ((K.inv hs).loaded h.2)
  · intro s r s' _ h hx
    have hx : K.box s' = { K.box s with log := .used v :: (K.box s).log } := hx
    refine ⟨?_, ?_⟩
    · rw [hx]
      exact h.1
    · rw [Free, hx]
      exact h.2

end Reader
end Seat
end MaintenanceOperator.Lib
