import MaintenanceOperator.Controller.Flow
import MaintenanceOperator.Operator.Discipline

/-!
# What a reconciler knows

The reconciler of a key as a host of the controller's functions (`keyHost`), and the assertions that its
proofs carry from call to call. When the server accepts a write of the version in hand, the stored object
still was that version, which is what makes the permissions of the writes provable from what the
reconciler has read. What survives `RelyOwn` survives all writes of the object; what only survives
`RelyReconciler` is about the stored object itself, and is kept as long as the reconciler leaves the
finalizer and the phase alone.
-/

namespace MaintenanceOperator
open Lib Drain Discipline

/-- The drain manager holds no request of the object. -/
def NoEntry (key : NamespacedName) (u : String) (s : OperatorState) : Prop :=
  key.Valid ∧ s.world.drainRequests.get? (drainRequestUID key u) = none

/-- A request of the object, not canceled, with the given property. -/
def OwnRequest (key : NamespacedName) (u : String) (req : Nat) (P : DrainRequest → Prop)
    (s : OperatorState) : Prop :=
  key.Valid ∧ ∃ q, s.world.requests[req]? = some q ∧ q.uid = drainRequestUID key u ∧
    q.canceled = false ∧ P q

/-- The stored object is scheduled and carries the finalizer. -/
def Pinned (key : NamespacedName) (s : OperatorState) : Prop :=
  ∃ o, s.world.nms.get key = some o ∧ getReadyConditionReason o = .scheduled ∧ Guarded o

section Calls
variable {σ : Scope} {key : NamespacedName} {s s' : OperatorState} {e : Op} {a : Resp e}
  {o b : NodeMaintenance}

/-- A call that leaves the drain manager alone gives the reconciler what lasts. -/
lemma relyOwn_call (hd : e.part ≠ .drain) (h : Perform .cached e s.world a s'.world) :
    RelyOwn key s s' := by
  refine ⟨h.history_subset, h.notes_subset, ?_, ?_⟩
  · intro _ id q u hq _
    exact ⟨q, by rw [h.frame.requests hd, hq], .refl q, rfl⟩
  · exact fun _ u => by rw [h.frame.drainRequests hd]

lemma relyOwn_update {a : Resp (.update b)} (h : Perform .cached (.update b) s.world a s'.world) :
    RelyOwn key s s' :=
  relyOwn_call (e := .update b) nofun h

/-- A call on neither the objects nor the drain manager is no different from a move of others. -/
lemma rely_call (hn : e.part ≠ .nodeMaintenances) (hd : e.part ≠ .drain)
    (h : Perform .cached e s.world a s'.world) : RelyReconciler key s s' := by
  refine ⟨relyOwn_call hd h, fun {o} ho hg => ?_⟩
  exact ⟨o, by rw [h.frame.nms hn, ho], rfl, hg, fun _ => rfl⟩

/-- Nor is a write that makes no difference. -/
lemma rely_alike (h : Perform .cached e s.world a s'.world) (he : e = .update b ∨ e = .statusUpdate b)
    (hal : ∀ o, s.world.nms.get b.key = some o → Matches o b → Alike o b) :
    RelyReconciler key s s' := by
  have hd : e.part ≠ .drain := by rcases he with rfl | rfl <;> nofun
  refine ⟨relyOwn_call hd h, fun {o} ho hg => ?_⟩
  obtain ⟨o', ho', hal'⟩ := Alike.kept h he hal ho hg
  refine ⟨o', ho', hal'.uid, ?_, fun _ => hal'.reason⟩
  rwa [Guarded, hal'.finalizers]

/-- Calls on neither need no permission. -/
lemma perm_quiet (hn : e.part ≠ .nodeMaintenances) (hd : e.part ≠ .drain) :
    perm σ (.reconciler key) s e := by
  cases e <;> trivial

/-- An update that keeps the finalizers is in order. -/
lemma guarded_of_alike (h : Alike o b) (hg : Guarded o) : Guarded b := by
  rwa [Guarded, h.finalizers]

/-- A status update that leaves the Ready condition alone is in order. -/
lemma statusOk_of_alike {w : World} (h : Alike o b) : StatusOk w o b where
  advance := .inl h.reason
  ready hok := hok.congr h.ready
  enter ho hb := by rw [h.reason, ho] at hb; cases hb
  leave ho hb := absurd (h.reason.trans ho) hb
  drained ho hb := by rw [h.reason, ho] at hb; cases hb
  waited ho hb := by rw [h.reason, ho] at hb; cases hb

lemma ne_of_nothing (h : e.part = .nothing) : e.part ≠ .nodeMaintenances ∧ e.part ≠ .drain := by
  rw [h]
  exact ⟨by decide, by decide⟩

end Calls

/-- The reconciler of a key, as a host. -/
def keyHost (σ : Scope) (r : Reconciler) (sorter : Sorter Scheduler.compareRanked)
    (key : NamespacedName) : Host (discipline σ r sorter) (.reconciler key) key where
  world := OperatorState.world
  Keeps := RelyReconciler key
  Wrote := RelyOwn key
  MayUpdate s o b := Guarded o → Guarded b ∨ Release σ s.world o
  MayStatus s o b := StatusOk s.world o b
  consistent hinv := hinv.consistent
  perform _ hexec := hexec.1
  perm_read _ he := perm_quiet (ne_of_nothing he).1 (ne_of_nothing he).2
  perm_update hkey h := ⟨hkey, fun o ho => h o (hkey ▸ ho)⟩
  perm_status hkey h := ⟨hkey, h⟩
  history hk := hk.history
  keeps_rely _ _ hr := hr
  keeps_read _ _ hexec he := rely_call (ne_of_nothing he).1 (ne_of_nothing he).2 hexec.1
  keeps_alike _ _ hexec he hal := rely_alike hexec.1 he hal
  wrote_update _ _ _ hexec := relyOwn_update hexec.1
  update_alike _ _ hal hg := .inl (guarded_of_alike hal hg)
  status_alike _ _ hal := statusOk_of_alike hal

/-- Triples of the reconciler of one key. -/
abbrev KeyTriple (σ : Scope) (r : Reconciler) (sorter : Sorter Scheduler.compareRanked)
    (key : NamespacedName) {α : Type} (A : OperatorState → Prop) (x : Action α)
    (Q : α → OperatorState → Prop) : Prop :=
  (discipline σ r sorter).TripleE (.reconciler key) A x Q

section Assertions
variable {σ : Scope} {r : Reconciler} {sorter : Sorter Scheduler.compareRanked}
  {key : NamespacedName} {A F : OperatorState → Prop} {m : NodeMaintenance} {u : String}

/-- Names of objects are valid. -/
lemma Host.Holds.valid {s : OperatorState} (hinv : Inv σ s) (h : (keyHost σ r sorter key).Holds m s) :
    key.Valid := by
  obtain ⟨hkey, v, hv, e⟩ := h
  have hk : v.key = key := by rw [← hkey, e]
  exact hk ▸ hinv.names hv

/-- What survives the writes of the object survives everything else, too. -/
lemma firm_of_own (h : ∀ s s', RelyOwn key s s' → A s → A s') : (keyHost σ r sorter key).Firm A :=
  ⟨fun s s' _ _ hk => h s s' hk.toRelyOwn, fun s s' _ _ hw => h s s' hw⟩

lemma firm_note {n : Note} : (keyHost σ r sorter key).Firm fun s => n ∈ s.world.notes :=
  firm_of_own fun _ _ hr h => hr.notes _ h

lemma firm_noEntry : (keyHost σ r sorter key).Firm (NoEntry key u) := by
  refine firm_of_own ?_
  rintro s s' hr ⟨hval, h⟩
  exact ⟨hval, (hr.entries hval u).trans h⟩

lemma lasting_ownRequest {req : Nat} {P : DrainRequest → Prop}
    (hP : ∀ q q', Evolves q q' → P q → P q') :
    (keyHost σ r sorter key).Lasting (OwnRequest key u req P) := by
  refine (firm_of_own ?_).1
  rintro s s' hr ⟨hval, q, hq, hu, hc, hPq⟩
  obtain ⟨q', hq', hev, hc'⟩ := hr.own hval hq hu
  exact ⟨hval, q', hq', hev.uid.trans hu, hc'.trans hc, hP q q' hev hPq⟩

/-- A finished drain stays finished. -/
lemma Drain.Evolves.succeeded {q q' : DrainRequest} (h : Evolves q q') (hs : q.succeeded = true) :
    q'.succeeded = true := by
  simp only [DrainRequest.succeeded, Bool.and_eq_true] at hs ⊢
  obtain ⟨hf, he⟩ := h.finished hs.1
  exact ⟨hf, he ▸ hs.2⟩

lemma lasting_drained (hk : m.key = key) :
    (keyHost σ r sorter key).Lasting fun s => key.Valid ∧ Drained s.world m := by
  refine (firm_of_own ?_).1
  rintro s s' hr ⟨hval, id, q, hq, hu, hspec, hs⟩
  have hu' : q.uid = drainRequestUID key m.uid := by rw [hu, ← hk]; rfl
  obtain ⟨q', hq', hev, -⟩ := hr.own hval hq hu'
  exact ⟨hval, id, q', hq', hev.uid.trans hu, hev.drainSpec ▸ hspec, hev.succeeded hs⟩

lemma lasting_pinned : (keyHost σ r sorter key).Lasting (Pinned key) := by
  rintro s s' - - hr ⟨o, ho, hsch, hg⟩
  obtain ⟨o', ho', -, hg', hkeep⟩ := hr.stored ho hg
  exact ⟨o', ho', (hkeep (phase_of_reason hsch).ge).trans hsch, hg'⟩

/-- Requests that may be held stay so, as long as the object keeps its finalizer and its phase. -/
lemma lasting_entryOk (hval : key.Valid) :
    (keyHost σ r sorter key).Lasting fun s => EntryOk σ s.world (drainRequestUID key u) := by
  rintro s s' hinv - hr (⟨k, o, ho, huid, hd, hg⟩ | ⟨n, hn, rest⟩ | h)
  · obtain rfl := Store.key_of_get ho
    obtain ⟨rfl, -⟩ := drainRequestUID_injective hval (hinv.names (hinv.consistent.stored ho)) huid
    obtain ⟨o', ho', hu', hg', hkeep⟩ := hr.stored ho hg
    have h₂ : 2 ≤ phase o := by rw [phase_of_reason hd]; decide
    refine .inl ⟨_, o', ho', ?_, (hkeep h₂).trans hd, hg'⟩
    rw [huid, hu', Store.key_of_get ho']
  · exact .inr (.inl ⟨n, hr.notes _ hn, rest⟩)
  · exact .inr (.inr h)

/-- Calls on neither the objects nor the drain manager keep what lasts. -/
lemma quiet_op {e : Op} (hn : e.part ≠ .nodeMaintenances) (hd : e.part ≠ .drain) :
    (keyHost σ r sorter key).Quiet e :=
  fun _ _ => ⟨perm_quiet hn hd, fun _ _ _ hexec => rely_call hn hd hexec.1⟩

/-- An action on neither. -/
lemma touches_triple {α : Type} {parts : List Part} {x : Action α} (hF : (keyHost σ r sorter key).Lasting F)
    (hx : Touches parts x) (hn : .nodeMaintenances ∉ parts) (hd : .drain ∉ parts) :
    KeyTriple σ r sorter key F x fun _ => F := by
  refine Host.quiet hF hx fun p hp e he => quiet_op ?_ ?_
  · rintro hpart
    exact hn (hpart ▸ he ▸ hp)
  · rintro hpart
    exact hd (hpart ▸ he ▸ hp)

/-- A read: what is learned holds from then on. -/
lemma read_triple {e : Op} {Q : Resp e → OperatorState → Prop} (he : e.part = .nothing)
    (hA : (keyHost σ r sorter key).Lasting A) (hQ : ∀ a, (keyHost σ r sorter key).Lasting (Q a))
    (h : ∀ s a, Inv σ s → A s → Perform .cached e s.world a s.world → Q a s) :
    (discipline σ r sorter).Triple (.reconciler key) A (issue e) Q := by
  refine .lift hA.stable (fun a => (hQ a).stable) (fun s _ _ => ?_) ?_
  · exact perm_quiet (ne_of_nothing he).1 (ne_of_nothing he).2
  rintro s a ⟨w', written⟩ hinv - hAs ⟨hperf, rfl⟩
  obtain rfl : w' = s.world := by
    have hf := hperf.frame
    rw [he] at hf
    exact hf.eq
  exact h s a hinv hAs hperf

/-- A note is on record once it is traced. -/
lemma trace_triple {note : Note} (hF : (keyHost σ r sorter key).Lasting F) :
    KeyTriple σ r sorter key F (trace note) fun _ s => F s ∧ note ∈ s.world.notes := by
  refine TripleE.lift (Triple.lift hF.stable (fun _ => (hF.and firm_note.1).stable)
    (fun s _ _ => trivial) ?_)
  rintro s _ ⟨w', written⟩ hinv hinv' hFs ⟨hperf, rfl⟩
  have hkeep : RelyReconciler key s ⟨w', s.written⟩ := rely_call (e := .trace note) nofun nofun hperf
  obtain rfl : w' = { s.world with notes := note :: s.world.notes } := hperf
  exact ⟨hF _ _ hinv hinv' hkeep hFs, .head _⟩

end Assertions
end MaintenanceOperator
