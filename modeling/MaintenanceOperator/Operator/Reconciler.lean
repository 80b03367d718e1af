import MaintenanceOperator.Operator.Assertions

/-!
# The phase handlers keep to their permissions

The triples of the phase handlers up to `reconcile_triple`: from any state that satisfies the invariant,
every call that a reconcile issues is permitted, whatever the others do in between. The heart is
`followDrainRequest_triple`: the state of the request is read several times while its drain may end at
any moment, and the object still becomes Ready only after a drain with its spec has succeeded.
-/

namespace MaintenanceOperator
open Lib Drain Discipline Reconciler Host

variable {σ : Scope} {r : Reconciler} {sorter : Sorter Scheduler.compareRanked}
  {key : NamespacedName} {A F : OperatorState → Prop} {m a b : NodeMaintenance} {node : Node}

/-! ### Steps between phases -/

/-- Owner references do not matter to a status update. -/
lemma StatusOk.ownerReferences {w : World} (h : StatusOk w m b) (refs : List OwnerReference) :
    StatusOk w { m with ownerReferences := refs } b :=
  ⟨h.advance, h.ready, h.enter, h.leave, h.drained, h.waited⟩

/-- What a step of the phase needs, apart from the steps with a proviso of their own. -/
lemma statusOk_of_advance {w : World} {reason : Reason} (adv : Advance (getReadyConditionReason m) reason)
    (hsched : reason ≠ .scheduled) (hcordon : reason = .cordon → Guarded m)
    (hleave : getReadyConditionReason m = .draining →
      w.drainRequests.get? (drainRequestUID m.key m.uid) = none)
    (hdrained : getReadyConditionReason m = .draining → m.spec.drainSpec = none ∨ Drained w m)
    (hwaited : getReadyConditionReason m = .waitForPodCompletion →
      m.spec.waitForPodCompletion = none ∨ Waited w m) (now : Nat) :
    StatusOk w m (withReadyReason m reason "" now) where
  advance := .inr (by simpa using ⟨adv, hsched⟩)
  ready _ := readyStatusOk_withReadyReason m reason "" now
  enter _ h := hcordon (by simpa using h)
  leave h _ := hleave h
  drained h _ := hdrained h
  waited h _ := hwaited h

/-- Setting the Ready condition of the version in hand. -/
lemma advance_triple {reason : Reason} (hF : (keyHost σ r sorter key).Lasting F)
    (h : ∀ s now, F s → StatusOk s.world m (withReadyReason m reason "" now)) :
    KeyTriple σ r sorter key (fun s => (keyHost σ r sorter key).Holds m s ∧ F s)
      (setReadyConditionReason m reason) fun _ _ => True :=
  setReady_triple hF fun s refs now _ hFs _ => (h s now hFs).ownerReferences refs

/-- A step with no proviso. -/
lemma free_step_triple {reason : Reason} (adv : Advance (getReadyConditionReason m) reason)
    (hsched : reason ≠ .scheduled) (hcordon : reason = .cordon → Guarded m)
    (hd : getReadyConditionReason m ≠ .draining) (hw : getReadyConditionReason m ≠ .waitForPodCompletion) :
    KeyTriple σ r sorter key ((keyHost σ r sorter key).Holds m) (setReadyConditionReason m reason)
      fun _ _ => True := by
  refine TripleE.pre (advance_triple (Lasting.const True) fun s now _ => ?_) fun s _ h => ⟨h, trivial⟩
  exact statusOk_of_advance adv hsched hcordon (absurd · hd) (absurd · hd) (absurd · hw) now

/-! ### Delete paths -/

/-- An object that is being deleted may lose its finalizer, unless it has a request. -/
lemma release_of_deleting {s : OperatorState} (hdel : m.deleting = true)
    (h : getReadyConditionReason m = .draining → NoEntry m.key m.uid s) : Release σ s.world m :=
  .inr ⟨fun _ => .inl hdel, fun hd => .inl (h hd).2⟩

lemma cleanup_triple (hdel : m.deleting = true) :
    KeyTriple σ r sorter key (fun s => (keyHost σ r sorter key).Holds m s ∧
      (getReadyConditionReason m = .draining → NoEntry key m.uid s)) (r.cleanup m node)
      fun _ _ => True := by
  have hF : (keyHost σ r sorter key).Firm fun s =>
      getReadyConditionReason m = .draining → NoEntry key m.uid s := by
    refine ⟨fun s s' hi hi' hk h hd => ?_, fun s s' hi hi' hw h hd => ?_⟩
    · exact firm_noEntry.1 s s' hi hi' hk (h hd)
    · exact firm_noEntry.2 s s' hi hi' hw (h hd)
  refine TripleE.bind (uncordonStep_triple hF (fun s refs l _ _ _ hg => .inl hg) (touches_triple
    (lasting_holds.and hF.1) runCordonOrUncordon_touches (by decide) (by decide)))
    fun a => TripleE.of_pure fun ha => ?_
  refine TripleE.bind (touches_triple (lasting_holds.and hF.1) unpause_touches (by decide)
    (by decide)) fun _ => ?_
  refine Triple.assume (fun s _ h => h.1.1) fun hkey => handleFinalizerRemoval_triple hF.1 ?_
  intro s refs _ hentry _ _
  refine .inr (release_of_deleting (ha.deleting.trans hdel) fun hd => ?_)
  rw [hkey, ha.uid]
  exact hentry (ha.reason.symm.trans hd)

/-! ### Phase Scheduled -/

/-- The object that `PauseMCP` leaves: the version in hand, or, after polling, any version of it while
the stored object is as the one in hand was. -/
def CordonReady (σ : Scope) (r : Reconciler) (sorter : Sorter Scheduler.compareRanked)
    (key : NamespacedName) (a : NodeMaintenance) (s : OperatorState) : Prop :=
  a.key = key ∧ ((keyHost σ r sorter key).Holds a s ∧ getReadyConditionReason a = .scheduled ∧
    Guarded a ∨ Pinned key s)

lemma lasting_cordonReady : (keyHost σ r sorter key).Lasting (CordonReady σ r sorter key a) := by
  rintro s s' hi hi' hk ⟨ha, ⟨hm, rest⟩ | hp⟩
  · exact ⟨ha, .inl ⟨lasting_holds s s' hi hi' hk hm, rest⟩⟩
  · exact ⟨ha, .inr (lasting_pinned s s' hi hi' hk hp)⟩

/-- An update of a scheduled object with the finalizer pins the stored object. -/
lemma pin_update (hb : Matches b m) (hsched : getReadyConditionReason m = .scheduled)
    (hg : Guarded b) :
    KeyTriple σ r sorter key ((keyHost σ r sorter key).Holds m) (Client.update b)
      fun a s => a.key = key ∧ Pinned key s := by
  refine Triple.assume (fun s _ h => h.1) fun hkey => ?_
  refine TripleE.pre (Outcome.ok (update_triple (H := keyHost σ r sorter key) (F := fun _ => True)
    (Firm.const _) (fun a => (Stable.const _).and lasting_pinned.stable) hb
    (fun s refs _ _ _ _ => .inl hg) ?_)) fun s _ h => ⟨h, trivial⟩
  intro s s' refs _ _ _ _ hw
  have hga : Guarded (s.world.merge { m with ownerReferences := refs } b b.spec.normalize) := hg
  refine ⟨hkey, s.world.merge { m with ownerReferences := refs } b b.spec.normalize, ?_, hsched, hga⟩
  subst hkey
  have hw : s'.world = s.world.write
    (s.world.merge { m with ownerReferences := refs } b b.spec.normalize) := hw
  rw [hw]
  exact (World.get_write_self _ _).trans (by rw [hga.not_gone]; rfl)

lemma keySetMCPLabel_triple {name : String} (hsched : getReadyConditionReason m = .scheduled)
    (hg : Guarded m) :
    KeyTriple σ r sorter key ((keyHost σ r sorter key).Holds m) (setMCPLabel m name)
      (CordonReady σ r sorter key) := by
  unfold setMCPLabel
  split
  · refine TripleE.bind (TripleE.adapt (pin_update (m := m) ⟨rfl, rfl, rfl⟩ hsched hg))
      fun a => TripleE.of_pure fun hkey => ?_
    rw [hkey]
    refine (TripleE.adapt (pollNodeMaintenance_triple (K := fun a => a.key = key) lasting_pinned ?_
      _)).conseq (fun _ _ h => h) fun a' s _ h => ⟨h.1, .inr h.2⟩
    exact fun s a s' _ _ hexec => hexec.1.2.2
  · exact .pure lasting_holds.stable fun s _ h => ⟨h.1, .inl ⟨h, hsched, hg⟩⟩

/-- The step to phase Cordon after `PauseMCP`. -/
lemma toCordon_triple :
    KeyTriple σ r sorter key (CordonReady σ r sorter key a) (setReadyConditionReason a .cordon)
      fun _ _ => True := by
  refine Triple.assume (fun s _ h => h.1) fun hkey => ?_
  refine setReady_stable (H := keyHost σ r sorter key) lasting_cordonReady.stable hkey
    (silent lasting_cordonReady ⟨.inl rfl, fun _ => trivial⟩) ?_
  rintro s o now hinv ⟨-, hready⟩ ho hm
  have ho' : getReadyConditionReason o = .scheduled ∧ Guarded o := by
    rcases hready with ⟨hheld, hsched, hg⟩ | ⟨o', ho', hsched, hg⟩
    · obtain ⟨refs, rfl⟩ := hheld.stored hinv ho hm rfl
      exact ⟨hsched, hg⟩
    · obtain rfl : o' = o := Option.some.inj (ho'.symm.trans ho)
      exact ⟨hsched, hg⟩
  exact
    { advance := .inr ⟨by simpa [ho'.1] using .toCordon, by simp⟩
      ready := fun _ => readyStatusOk_withReadyReason a .cordon "" now
      enter := fun _ _ => ho'.2
      leave := fun h => by rw [ho'.1] at h; cases h
      drained := fun h => by rw [ho'.1] at h; cases h
      waited := fun h => by rw [ho'.1] at h; cases h }

lemma handleScheduledState_triple (hm : getReadyConditionReason m = .scheduled) :
    KeyTriple σ r sorter key (fun s => (keyHost σ r sorter key).Holds m s ∧ True)
      (r.handleScheduledState m node) fun _ _ => True := by
  have hA : (keyHost σ r sorter key).Lasting fun s => (keyHost σ r sorter key).Holds m s ∧ True :=
    lasting_holds.and (Lasting.const True)
  refine scheduledState_triple (touches_triple hA unpause_touches (by decide) (by decide))
    (fun hdel => handleFinalizerRemoval_triple (Lasting.const True) fun s refs _ _ _ _ => ?_)
    (TripleE.pre (addFinalizer_triple (H := keyHost σ r sorter key) (F := fun _ => True)
      (L := fun _ => True) (E := fun _ => True) (Firm.const _) (Lasting.const _) (Stable.const _)
      (fun s refs _ _ _ => .inl (List.mem_append_right _ (.head _))) (fun _ _ _ => trivial)
      fun _ _ _ _ _ _ => trivial) fun s _ h => ⟨h.1, trivial, trivial⟩)
    (fun a => TripleE.of_pure fun ⟨hg, hal⟩ => ?_) (fun _ a => TripleE.of_pure fun ⟨hg, hal⟩ => ?_)
    fun a => toCordon_triple
  · refine .inr (release_of_deleting (m := m) hdel fun hd => ?_)
    rw [hm] at hd
    cases hd
  · refine TripleE.pre (pauseMCP_of_label lasting_holds (fun _ => lasting_cordonReady)
      (fun he => quiet_op ?_ ?_) fun name => keySetMCPLabel_triple (hal.reason.trans hm) hg)
      fun s _ h => h.1
    · rcases he with he | he | he <;> rw [he] <;> decide
    · rcases he with he | he | he <;> rw [he] <;> decide
  · have ha : getReadyConditionReason a = .scheduled := hal.reason.trans hm
    refine TripleE.pre (free_step_triple (ha ▸ .toCordon) nofun (fun _ => hg) ?_ ?_) fun s _ h => h.1
    · simp [ha]
    · simp [ha]

/-! ### Phases Cordon and WaitForPodCompletion -/

lemma handleCordonState_triple (hm : getReadyConditionReason m = .cordon) :
    KeyTriple σ r sorter key (fun s => (keyHost σ r sorter key).Holds m s ∧ True)
      (r.handleCordonState m node) fun _ _ => True := by
  unfold handleCordonState
  split
  · rename_i hdel
    refine done_triple (TripleE.pre (cleanup_triple hdel) fun s _ h => ⟨h.1, fun hd => ?_⟩)
    rw [hm] at hd
    cases hd
  · refine cordonState_triple (Firm.const True) (fun s refs l _ _ _ hg => .inl hg) (quiet_op nofun nofun)
      fun a ha => ?_
    have hreason : getReadyConditionReason a = .cordon := ha.trans hm
    refine TripleE.pre (free_step_triple (hreason ▸ .toWait) nofun nofun ?_ ?_) fun s _ h => h.1
    · simp [hreason]
    · simp [hreason]

/-- The step to phase Draining, after waiting or without. -/
lemma toDraining_triple (ha : getReadyConditionReason a = .waitForPodCompletion)
    (hF : (keyHost σ r sorter key).Lasting F)
    (h : ∀ s, F s → a.spec.waitForPodCompletion = none ∨ Waited s.world a) :
    KeyTriple σ r sorter key (fun s => (keyHost σ r sorter key).Holds a s ∧ F s)
      (setReadyConditionReason a .draining) fun _ _ => True := by
  refine advance_triple hF fun s now hFs => ?_
  apply statusOk_of_advance <;> simp only [ha, reduceCtorEq, ne_eq, not_false_eq_true, false_implies]
  · exact .toDraining
  · exact fun _ => h s hFs

lemma handleWaitPodCompletionState_triple (hm : getReadyConditionReason m = .waitForPodCompletion) :
    KeyTriple σ r sorter key (fun s => (keyHost σ r sorter key).Holds m s ∧ True)
      (r.handleWaitPodCompletionState m node) fun _ _ => True := by
  refine waitState_triple (N := fun a pods err s => .podCompletion a pods err ∈ s.world.notes)
    (Lasting.const True) (fun _ _ _ => firm_note.1.stable)
    (fun hdel => TripleE.pre (cleanup_triple hdel) fun s _ h => ⟨h.1, fun hd => ?_⟩)
    (fun hnone => toDraining_triple hm (Lasting.const True) fun s _ => .inl hnone)
    (fun p a pods err => trace_triple lasting_settled) fun a pods err hal hout => ?_
  · rw [hm] at hd
    cases hd
  · refine toDraining_triple (hal.reason.trans hm) firm_note.1 fun s hn => .inr ?_
    exact ⟨a, pods, err, hn, rfl, rfl, rfl, hout⟩

/-! ### Draining -/

/-- A draining object that is not being deleted may have a request. -/
lemma entryOk_of_stored {s : OperatorState} {o : NodeMaintenance} (hinv : Inv σ s)
    (ho : s.world.nms.get o.key = some o) (hd : getReadyConditionReason o = .draining)
    (hdel : o.deleting = false) : EntryOk σ s.world (drainRequestUID o.key o.uid) := by
  have hval := hinv.names (hinv.consistent.stored ho)
  by_cases hx : σ.exempt o.uid
  · exact .inr (.inr ⟨_, _, hval, hx, rfl⟩)
  · have h₃ : 3 ≤ phase o := by rw [phase_of_reason hd]; decide
    rcases hinv.guarded ho hx h₃ hdel with hg | hmiss
    · exact .inl ⟨_, _, ho, rfl, hd, hg⟩
    · exact .of_missed hval hmiss hd

/-- `updateDrainStatus`, on the version in hand or a copy with another drain status: once the new
version is stored, the invariant allows a request for it. -/
lemma drainStatus_triple {n : NodeMaintenance} {req : Nat} (hF : (keyHost σ r sorter key).Lasting F)
    (hn : Matches n m) (hal : Alike m n) :
    KeyTriple σ r sorter key (fun s => (keyHost σ r sorter key).Holds m s ∧ F s)
      (updateDrainStatus n req) fun a s =>
        (Alike m a ∧ a.spec = m.spec) ∧ (keyHost σ r sorter key).Holds a s ∧ F s ∧
          (getReadyConditionReason m = .draining → m.deleting = false →
            EntryOk σ s.world (drainRequestUID key m.uid)) := by
  refine Triple.assume (fun s hinv h => (⟨h.1.1, h.1.valid hinv⟩ : m.key = key ∧ key.Valid))
    fun ⟨hkey, hval⟩ => updateDrainStatus_triple hF ?_ hn hal ?_
  · intro s s' hi hi' hr h hd hdel
    exact (lasting_entryOk hval).stable s s' hi hi' hr (h hd hdel)
  · intro s o hinv halo hget hd hdel
    have hok : o.key = key := halo.key.trans hkey
    rw [← halo.uid, ← hok]
    exact entryOk_of_stored hinv (hok ▸ hget hdel) (halo.reason.trans hd) (halo.deleting.trans hdel)

/-- The history survives `RemoveRequest`. -/
lemma Host.Holds.removeRequest {s : OperatorState} {uid : String} {err : Option Err}
    (h : (keyHost σ r sorter key).Holds m s) :
    (keyHost σ r sorter key).Holds m ⟨s.world.removeRequest uid err, s.written⟩ := by
  obtain ⟨hk, v, hv, e⟩ := h
  refine ⟨hk, v, ?_, e⟩
  change v ∈ (s.world.removeRequest uid err).history
  unfold World.removeRequest
  split <;> exact hv

/-- So does a drain that has succeeded. -/
lemma Drained.removeRequest {w : World} {uid : String} {err : Option Err} (h : Drained w m) :
    Drained (w.removeRequest uid err) m := by
  unfold World.removeRequest
  split
  · exact h
  · rename_i id₁ _
    obtain ⟨id, q, hq, hu, hspec, hs⟩ := h
    by_cases e : id₁ = id
    · have hev := Evolves.cancelDrain q err
      exact ⟨id, q.cancelDrain err, by simp [e, hq], hev.uid.trans hu, hev.drainSpec ▸ hspec,
        hev.succeeded hs⟩
    · exact ⟨id, q, by simp [e, hq], hu, hspec, hs⟩

lemma noEntry_removeRequest {s : OperatorState} {u : String} {err : Option Err} (hval : key.Valid) :
    NoEntry key u ⟨s.world.removeRequest (drainRequestUID key u) err, s.written⟩ := by
  refine ⟨hval, ?_⟩
  unfold World.removeRequest
  split
  · assumption
  · exact GoMap.get?_delete_self _ _

lemma removeRequest_triple {u : String} (hA : (keyHost σ r sorter key).Lasting A) (hval : ∀ s, Inv σ s → A s → key.Valid)
    (hkeep : ∀ s err, A s → A ⟨s.world.removeRequest (drainRequestUID key u) err, s.written⟩) :
    KeyTriple σ r sorter key A (DrainManager.removeRequest (drainRequestUID key u))
      fun _ s => A s ∧ NoEntry key u s := by
  refine TripleE.lift (Triple.lift hA.stable (fun _ => (hA.and firm_noEntry.1).stable)
    (fun s hinv hAs => ⟨hval s hinv hAs, u, rfl⟩) ?_)
  rintro s _ ⟨w', written⟩ hinv - hAs ⟨⟨err, rfl⟩, rfl⟩
  exact ⟨hkeep s err hAs, noEntry_removeRequest (hval s hinv hAs)⟩

/-- A request that the drain manager returns for the object is the object's own, and started. -/
lemma getRequest_triple {u : String} (hF : (keyHost σ r sorter key).Lasting F) (hval : ∀ s, Inv σ s → F s → key.Valid) :
    KeyTriple σ r sorter key F (DrainManager.getRequest (drainRequestUID key u)) fun res s =>
      F s ∧ ∀ req, res = some req → OwnRequest key u req (fun q => q.started = true) s := by
  have hown : ∀ res : Option Nat, (keyHost σ r sorter key).Lasting fun s =>
      ∀ req, res = some req → OwnRequest key u req (fun q => q.started = true) s :=
    fun res s s' hi hi' hk h req hreq =>
      lasting_ownRequest (fun _ _ hev hst => hev.started hst) s s' hi hi' hk (h req hreq)
  refine TripleE.lift (read_triple rfl hF (fun res => hF.and (hown res)) ?_)
  rintro s res hinv hFs ⟨-, rfl⟩
  refine ⟨hFs, fun req hreq => ?_⟩
  obtain ⟨q, hq, hu, hst, hc⟩ := hinv.requests hreq
  exact ⟨hval s hinv hFs, q, hq, hu, hc, hst⟩

section Request
variable {u : String} {req : Nat} {P : DrainRequest → Prop}

/-- Reading the state of an own request: what the state tells must stay true while it runs on. -/
lemma state_triple {T : DrainState → DrainRequest → Prop} (hF : (keyHost σ r sorter key).Lasting F)
    (hP : ∀ q q', Evolves q q' → P q → P q')
    (hT : ∀ st q q', Evolves q q' → T st q → T st q')
    (h : ∀ q, q.canceled = false → P q → T q.state q) :
    KeyTriple σ r sorter key (fun s => F s ∧ OwnRequest key u req P s) (DrainManager.state req)
      fun st s => F s ∧ OwnRequest key u req (T st) s := by
  refine TripleE.lift (read_triple rfl (hF.and (lasting_ownRequest hP))
    (fun st => hF.and (lasting_ownRequest (hT st))) ?_)
  rintro s _ - ⟨hFs, hval, q, hq, hu, hc, hPq⟩ ⟨-, q₁, hq₁, rfl⟩
  obtain rfl : q = q₁ := Option.some.inj (hq.symm.trans hq₁)
  exact ⟨hFs, hval, q, hq, hu, hc, h q hc hPq⟩

/-- Its UID. -/
lemma uid_triple (hF : (keyHost σ r sorter key).Lasting F) (hP : ∀ q q', Evolves q q' → P q → P q') :
    KeyTriple σ r sorter key (fun s => F s ∧ OwnRequest key u req P s) (DrainManager.uid req)
      fun uid s => uid = drainRequestUID key u ∧ F s ∧ OwnRequest key u req P s := by
  have hown : (keyHost σ r sorter key).Lasting (OwnRequest key u req P) := lasting_ownRequest hP
  have hA := hF.and hown
  refine TripleE.lift (read_triple rfl hA (fun _ => (Lasting.const _).and hA) ?_)
  rintro s _ - ⟨hFs, hval, q, hq, hu, rest⟩ ⟨-, q₁, hq₁, rfl⟩
  obtain rfl : q = q₁ := Option.some.inj (hq.symm.trans hq₁)
  exact ⟨hu, hFs, hval, q, hq, hu, rest⟩

/-- Its spec. -/
lemma spec_triple (hF : (keyHost σ r sorter key).Lasting F) (hP : ∀ q q', Evolves q q' → P q → P q') :
    KeyTriple σ r sorter key (fun s => F s ∧ OwnRequest key u req P s) (DrainManager.spec req)
      fun spec s => F s ∧ OwnRequest key u req (fun q => P q ∧ q.drainSpec = spec) s := by
  have hQ : ∀ spec, (keyHost σ r sorter key).Lasting (OwnRequest key u req fun q => P q ∧ q.drainSpec = spec) :=
    fun spec => lasting_ownRequest fun q q' hev h => ⟨hP q q' hev h.1, hev.drainSpec.trans h.2⟩
  refine TripleE.lift (read_triple rfl (hF.and (lasting_ownRequest hP))
    (fun spec => hF.and (hQ spec)) ?_)
  rintro s _ - ⟨hFs, hval, q, hq, hu, hc, hPq⟩ ⟨-, q₁, hq₁, rfl⟩
  obtain rfl : q = q₁ := Option.some.inj (hq.symm.trans hq₁)
  exact ⟨hFs, hval, q, hq, hu, hc, hPq, rfl⟩

/-- The drain has ended, and its request has the given spec. -/
def Ended (spec : DrainRequestSpec) (q : DrainRequest) : Prop :=
  q.finished = true ∧ q.drainSpec = spec

lemma Ended.evolves {spec : DrainRequestSpec} (q q' : DrainRequest) (hev : Evolves q q')
    (h : Ended spec q) : Ended spec q' :=
  ⟨(hev.finished h.1).1, hev.drainSpec.trans h.2⟩

/-- A drain that has ended is no failure only if it succeeded, although the state is read twice: its
error stays what it is, and once its context is canceled it stays so. -/
lemma drainFailed_triple {d : DrainRequestSpec} (hF : (keyHost σ r sorter key).Lasting F) :
    KeyTriple σ r sorter key (fun s => F s ∧ OwnRequest key u req (Ended d) s) (drainFailed req)
      fun failed s => F s ∧
        OwnRequest key u req (fun q => Ended d q ∧ (failed = false → q.succeeded = true)) s := by
  have hfirst : ∀ (st : DrainState) q q', Evolves q q' →
      Ended d q ∧ (st ≠ .error → q.lastErr.isSome = true → q.ctxDone = true) →
      Ended d q' ∧ (st ≠ .error → q'.lastErr.isSome = true → q'.ctxDone = true) := by
    rintro st q q' hev ⟨hend, hctx⟩
    refine ⟨hend.evolves _ _ hev, fun hst herr => hev.ctxDone (hctx hst ?_)⟩
    rwa [← (hev.finished hend.1).2]
  have hsecond : ∀ (failed : Bool) q q', Evolves q q' →
      Ended d q ∧ (failed = false → q.succeeded = true) →
      Ended d q' ∧ (failed = false → q'.succeeded = true) :=
    fun failed q q' hev h => ⟨h.1.evolves _ _ hev, fun hf => hev.succeeded (h.2 hf)⟩
  refine TripleE.bind (state_triple hF Ended.evolves hfirst ?_) fun st => ?_
  · intro q _ hend
    refine ⟨hend, fun hst herr => ?_⟩
    by_contra hctx
    simp [DrainRequest.state, hend.1, herr, hctx] at hst
  · split
    · refine .pure (hF.and (lasting_ownRequest (hfirst st))).stable ?_
      rintro s - ⟨hFs, hval, q, hq, hu, hc, hend, -⟩
      exact ⟨hFs, hval, q, hq, hu, hc, hend, nofun⟩
    · rename_i hst
      refine TripleE.bind (state_triple (T := fun st' q => Ended d q ∧
        (decide (st' = .canceled) = false → q.succeeded = true)) hF (hfirst st)
        (fun st' => hsecond _) ?_) fun st' => ?_
      · rintro q _ ⟨hend, hctx⟩
        refine ⟨hend, fun hcan => ?_⟩
        cases herr : q.lastErr with
        | none => simp [DrainRequest.succeeded, hend.1, herr]
        | some err =>
          have hdone := hctx hst (by rw [herr]; rfl)
          simp [DrainRequest.state, hend.1, herr, hdone] at hcan
      · exact .pure (hF.and (lasting_ownRequest (hsecond _))).stable fun s _ h => h

end Request

lemma handleDrainStateDelete_triple (hdel : m.deleting = true) :
    KeyTriple σ r sorter key (fun s => (keyHost σ r sorter key).Holds m s ∧ True)
      (r.handleDrainStateDelete m node) fun _ _ => True := by
  refine Triple.assume (fun s _ h => h.1.1) fun hkey => ?_
  have huid : drainRequestUIDFromNodeMaintenance m = drainRequestUID key m.uid := by rw [← hkey]; rfl
  have hA : (keyHost σ r sorter key).Lasting fun s => (keyHost σ r sorter key).Holds m s ∧ True :=
    lasting_holds.and (Lasting.const True)
  unfold handleDrainStateDelete
  rw [huid]
  refine TripleE.bind (silent hA ⟨.inl rfl, fun _ => trivial⟩) fun req => ?_
  refine TripleE.bind (silent hA ?_) fun _ => ?_
  · cases req with
    | none => exact .pure
    | some req => exact .bind ⟨.inl rfl, fun _ => trivial⟩ fun _ => .pure
  · refine TripleE.bind (removeRequest_triple hA (fun s hinv h => h.1.valid hinv) fun s err h => ?_)
      fun _ => ?_
    · exact ⟨h.1.removeRequest, trivial⟩
    · exact done_triple (TripleE.pre (cleanup_triple hdel) fun s _ h => ⟨h.1.1, fun _ => h.2⟩)

/-- The step to phase Ready. -/
lemma toReady_triple (ha : getReadyConditionReason a = .draining)
    (hF : (keyHost σ r sorter key).Lasting F)
    (h : ∀ s, F s → a.spec.drainSpec = none ∨ Drained s.world a) :
    KeyTriple σ r sorter key
      (fun s => (keyHost σ r sorter key).Holds a s ∧ F s ∧ NoEntry key a.uid s)
      (setReadyConditionReason a .ready) fun _ _ => True := by
  refine Triple.assume (fun s _ h => h.1.1) fun hkey => ?_
  refine advance_triple (hF.and firm_noEntry.1) fun s now hFs => ?_
  apply statusOk_of_advance <;> simp only [ha, reduceCtorEq, ne_eq, not_false_eq_true, false_implies]
  · exact .toReady
  · rw [hkey]
    exact fun _ => hFs.2.2
  · exact fun _ => h s hFs.1

lemma sendDrainRequest_triple (hm : getReadyConditionReason m = .draining) (hdel : m.deleting = false) :
    KeyTriple σ r sorter key (fun s => (keyHost σ r sorter key).Holds m s ∧ True) (sendDrainRequest m)
      fun _ _ => True := by
  have hown : ∀ req, (keyHost σ r sorter key).Lasting (OwnRequest key m.uid req fun _ => True) :=
    fun req => lasting_ownRequest fun _ _ _ h => h
  have hnew : KeyTriple σ r sorter key (fun s => (keyHost σ r sorter key).Holds m s ∧ True)
      (DrainManager.newDrainRequest m) fun req s =>
        (keyHost σ r sorter key).Holds m s ∧ OwnRequest key m.uid req (fun _ => True) s := by
    refine TripleE.lift (Triple.lift (lasting_holds.and (Lasting.const True)).stable
      (fun req => (lasting_holds.and (hown req)).stable) (fun s _ _ => trivial) ?_)
    rintro s _ ⟨w', written⟩ hinv - ⟨hheld, -⟩ ⟨⟨q, hq, rfl, rfl⟩, rfl⟩
    refine ⟨hheld, hheld.valid hinv, q, by simp, ?_⟩
    obtain ⟨spec, -, rfl⟩ := Option.map_eq_some_iff.mp hq
    exact ⟨by rw [← hheld.1]; rfl, rfl, trivial⟩
  refine hnew.bind fun req => ?_
  refine TripleE.bind (drainStatus_triple (m := m) (hown req) ⟨rfl, rfl, rfl⟩ (.of_status rfl))
    fun a => TripleE.of_pure fun _ => done_triple ?_
  refine Triple.assume (fun s hinv h => h.1.valid hinv) fun hval => ?_
  refine TripleE.lift (Triple.lift (A := fun s => OwnRequest key m.uid req (fun _ => True) s ∧
    EntryOk σ s.world (drainRequestUID key m.uid)) ?_ (fun _ => Stable.const _) ?_ ?_ |>.pre ?_)
  · exact ((hown req).and (lasting_entryOk hval)).stable
  · rintro s - ⟨⟨-, q, hq, hu, hc, -⟩, hok⟩
    exact ⟨hval, q, m.uid, hq, hu, hc, hu ▸ hok⟩
  · intros
    trivial
  · exact fun s _ h => ⟨h.2.1, h.2.2 hm hdel⟩

/-- A request that is of no use any more is removed, to be sent again. -/
lemma requeueDrain_triple :
    KeyTriple σ r sorter key ((keyHost σ r sorter key).Holds m)
      (do DrainManager.removeRequest (drainRequestUID key m.uid); return drainReqeueTime)
      fun _ _ => True := by
  refine TripleE.bind (removeRequest_triple lasting_holds (fun s hinv h => h.valid hinv)
    fun s err h => h.removeRequest) fun _ => ?_
  exact .pure (lasting_holds.and firm_noEntry.1).stable fun _ _ _ => trivial

/-- The drain is done: from here on it counts as such, whatever becomes of the request. -/
lemma drainSucceeded_triple {req : Nat} (hkey : m.key = key)
    (hm : getReadyConditionReason m = .draining) :
    KeyTriple σ r sorter key
      (fun s => (keyHost σ r sorter key).Holds m s ∧ key.Valid ∧ Drained s.world m)
      (do let nm ← updateDrainStatus m req
          DrainManager.removeRequest (drainRequestUID key m.uid)
          let _ ← setReadyConditionReason nm .ready
          return Result.zero) fun _ _ => True := by
  refine TripleE.bind (drainStatus_triple (m := m) (lasting_drained hkey) ⟨rfl, rfl, rfl⟩ (.refl m))
    fun a => TripleE.of_pure fun ⟨hal, haspec⟩ => ?_
  have hremove := removeRequest_triple (u := m.uid)
    ((lasting_holds (H := keyHost σ r sorter key) (m := a)).and (lasting_drained hkey))
    (fun s _ h => h.2.1) fun s err h => ⟨h.1.removeRequest, h.2.1, h.2.2.removeRequest⟩
  refine TripleE.bind (TripleE.pre hremove fun s _ h => ⟨h.1, h.2.1⟩) fun _ => done_triple ?_
  refine Triple.assume (fun s _ h => h.1.1.1) fun hakey => ?_
  refine TripleE.pre (toReady_triple (hal.reason.trans hm) (lasting_drained hkey)
    fun s h => ?_) fun s _ h => ⟨h.1.1, h.1.2, hal.uid ▸ h.2⟩
  obtain ⟨-, id, q, hq, hu, hsp, hsucc⟩ := h
  refine .inr ⟨id, q, hq, ?_, haspec ▸ hsp, hsucc⟩
  rw [hu, drainRequestUIDFromNodeMaintenance_eq, drainRequestUIDFromNodeMaintenance_eq,
    hakey, hkey, hal.uid]

/-- The request has ended, well or not. -/
lemma drainEnded_triple {reqSpec : DrainRequestSpec} {req : Nat} (hkey : m.key = key)
    (hm : getReadyConditionReason m = .draining) (hspec : m.spec.drainSpec = some reqSpec.spec) :
    KeyTriple σ r sorter key
      (fun s => (keyHost σ r sorter key).Holds m s ∧ OwnRequest key m.uid req (Ended reqSpec) s)
      (do let failed ← drainFailed req
          let _ ← DrainManager.state req
          if failed then
            DrainManager.removeRequest (drainRequestUID key m.uid)
            return drainReqeueTime
          else
            let nm ← updateDrainStatus m req
            DrainManager.removeRequest (drainRequestUID key m.uid)
            let _ ← setReadyConditionReason nm .ready
            return Result.zero) fun _ _ => True := by
  refine (drainFailed_triple (u := m.uid) (d := reqSpec) lasting_holds).bind fun failed => ?_
  have hres : (keyHost σ r sorter key).Lasting fun s => (keyHost σ r sorter key).Holds m s ∧
      OwnRequest key m.uid req (fun q => Ended reqSpec q ∧ (failed = false → q.succeeded = true)) s :=
    lasting_holds.and (lasting_ownRequest fun q q' hev h =>
      ⟨h.1.evolves _ _ hev, fun hf => hev.succeeded (h.2 hf)⟩)
  refine TripleE.bind (silent hres ⟨.inl rfl, fun _ => trivial⟩) fun _ => ?_
  split
  · exact requeueDrain_triple.pre fun s _ h => h.1
  · rename_i hfailed
    have hfailed : failed = false := by simpa using hfailed
    refine TripleE.pre (drainSucceeded_triple hkey hm) ?_
    rintro s - ⟨hh, hval, q, hq, hu, hc, ⟨-, hsp⟩, hsucc⟩
    refine ⟨hh, hval, req, q, hq, by rw [hu, ← hkey]; rfl, ?_, hsucc hfailed⟩
    rw [hsp, hspec]

lemma followDrainRequest_triple {spec : DrainSpec} {req : Nat}
    (hm : getReadyConditionReason m = .draining) (hspec : m.spec.drainSpec = some spec) :
    KeyTriple σ r sorter key
      (fun s => (keyHost σ r sorter key).Holds m s ∧ OwnRequest key m.uid req (fun q => q.started = true) s)
      (followDrainRequest m spec req) fun _ _ => True := by
  have hheld : (keyHost σ r sorter key).Lasting ((keyHost σ r sorter key).Holds m) := lasting_holds
  have hstarted : ∀ q q', Evolves q q' → q.started = true → q'.started = true :=
    fun _ _ hev h => hev.started h
  refine Triple.assume (fun s _ h => h.1.1) fun hkey => ?_
  refine (uid_triple hheld hstarted).bind fun uid => TripleE.of_pure fun huid => ?_
  subst huid
  refine TripleE.bind (silent (hheld.and (lasting_ownRequest hstarted))
    ⟨.inl rfl, fun _ => trivial⟩) fun _ => ?_
  refine (spec_triple hheld hstarted).bind fun reqSpec => ?_
  have hspecs : ∀ q q', Evolves q q' → q.started = true ∧ q.drainSpec = reqSpec →
      q'.started = true ∧ q'.drainSpec = reqSpec :=
    fun q q' hev h => ⟨hev.started h.1, hev.drainSpec.trans h.2⟩
  split
  · exact requeueDrain_triple.pre fun s _ h => h.1
  · rename_i heq
    obtain rfl : reqSpec.spec = spec := by simpa using heq
    -- a started request that is not in progress has ended
    refine (state_triple (T := fun st q => q.drainSpec = reqSpec ∧ (st ≠ .inProgress → q.finished = true))
      hheld hspecs ?_ ?_).bind fun st => ?_
    · exact fun st q q' hev h =>
        ⟨hev.drainSpec.trans h.1, fun hst => (hev.finished (h.2 hst)).1⟩
    · rintro q hc ⟨hst, hsp⟩
      refine ⟨hsp, fun hne => ?_⟩
      by_contra hfin
      simp [DrainRequest.state, hfin, hc, hst] at hne
    · split
      · refine done_triple (TripleE.conseq (drainStatus_triple (m := m) (Lasting.const True)
          ⟨rfl, rfl, rfl⟩ (.refl m)) (fun s _ h => ⟨h.1, trivial⟩) fun _ _ _ _ => trivial)
      · rename_i hst
        refine TripleE.pre (drainEnded_triple hkey hm hspec) ?_
        rintro s - ⟨hh, hval, q, hq, hu, hc, hsp, hfin⟩
        exact ⟨hh, hval, q, hq, hu, hc, hfin hst, hsp⟩

lemma handleDrainState_triple (hm : getReadyConditionReason m = .draining) :
    KeyTriple σ r sorter key (fun s => (keyHost σ r sorter key).Holds m s ∧ True)
      (r.handleDrainState m node) fun _ _ => True := by
  have hA : (keyHost σ r sorter key).Lasting fun s => (keyHost σ r sorter key).Holds m s ∧ True :=
    lasting_holds.and (Lasting.const True)
  refine Triple.assume (fun s _ h => h.1.1) fun hkey => ?_
  have huid : drainRequestUIDFromNodeMaintenance m = drainRequestUID key m.uid := by rw [← hkey]; rfl
  unfold handleDrainState
  split
  · rename_i hdel
    exact handleDrainStateDelete_triple hdel
  · rename_i hdel
    split
    · rename_i spec hspec
      rw [huid]
      refine (getRequest_triple hA fun s hinv h => h.1.valid hinv).bind fun res => ?_
      cases res with
      | none => exact (sendDrainRequest_triple hm (by simpa using hdel)).pre fun s _ h => h.1
      | some req =>
        exact (followDrainRequest_triple hm hspec).pre fun s _ h => ⟨h.1.1, h.2 req rfl⟩
    · rename_i hspec
      rw [huid]
      refine TripleE.bind (removeRequest_triple hA (fun s hinv h => h.1.valid hinv) fun s err h => ?_)
        fun _ => ?_
      · exact ⟨h.1.removeRequest, trivial⟩
      · refine (TripleE.pre (clearDrainStatus_triple (m := m) firm_noEntry.1)
          fun s _ h => ⟨h.1.1, h.2⟩).bind fun a => TripleE.of_pure fun ⟨hal, haspec⟩ => ?_
        refine done_triple (TripleE.pre (toReady_triple (hal.reason.trans hm) (Lasting.const True)
          fun s _ => .inl ?_) fun s _ h => ⟨h.1, trivial, hal.uid ▸ h.2⟩)
        rw [haspec, hspec]

/-! ### Reconcile -/

/-- The handlers of all phases keep to their permissions. -/
lemma handled : Handled (keyHost σ r sorter key) r node fun _ _ => True where
  lasting _ := Lasting.const True
  alike _ h := h
  uninitialized {m} hm := by
    refine done_triple (TripleE.pre (free_step_triple (hm ▸ .toPending) nofun nofun ?_ ?_)
      fun s _ h => h.1)
    · simp [hm]
    · simp [hm]
  scheduled := handleScheduledState_triple
  cordon := handleCordonState_triple
  waitForPodCompletion := handleWaitPodCompletionState_triple
  draining := handleDrainState_triple
  terminal {m} hm := by
    refine terminalState_triple (Lasting.const True) (fun hdel _ => ?_) (fun a ha => ?_) fun a ha => ?_
    · refine TripleE.pre (cleanup_triple hdel) fun s _ h => ⟨h.1, fun hd => ?_⟩
      simp [Terminal, hd] at hm
    · exact free_step_triple (ha ▸ .fail) nofun nofun (by simp [ha]) (by simp [ha])
    · exact free_step_triple (ha ▸ .recover) nofun nofun (by simp [ha]) (by simp [ha])

/-- The finalizer comes off with the missing node on record. -/
lemma handleNodeNotFound_triple :
    KeyTriple σ r sorter key ((keyHost σ r sorter key).Holds m) (handleNodeNotFound m)
      fun _ _ => True := by
  refine (trace_triple lasting_holds).bind fun _ => done_triple ?_
  refine removeFinalizer_triple firm_note.1 fun s refs _ hn _ _ => ?_
  have hmiss : 3 ≤ phase m → MissedNode s.world m :=
    fun h₃ => ⟨m, hn, rfl, rfl, h₃, Nat.le_refl _⟩
  refine .inr (.inr ⟨fun h₃ => .inr (hmiss h₃), fun hd => .inr (hmiss ?_)⟩)
  have hm : getReadyConditionReason m = .draining := hd
  rw [phase_of_reason hm]
  decide

/-- The body of a reconciler. -/
theorem reconcile_triple :
    KeyTriple σ r sorter key (fun _ => True) (r.reconcile key) fun _ _ => True := by
  refine reconcileBody_triple (K := (keyHost σ r sorter key).Holds) (N := (keyHost σ r sorter key).Holds)
    (F := fun _ m s => (keyHost σ r sorter key).Holds m s ∧ True) ?_ (fun m => ?_)
    (fun m => handleNodeNotFound_triple) fun m node => handled.dispatch_triple
  · refine getNodeMaintenance_triple (fun m => lasting_holds) ?_
    rintro s m ⟨w', written⟩ hinv - ⟨hperf, -⟩
    exact ⟨hperf.2.2, m, hperf.history_subset m hperf.2.1, rfl⟩
  · refine TripleE.conseq (silent lasting_holds (.observe ⟨.inl rfl, fun _ => trivial⟩))
      (fun _ _ h => h) ?_
    exact fun res s _ h => ⟨fun _ => h, fun _ _ => ⟨h, trivial⟩⟩

end MaintenanceOperator
