import MaintenanceOperator.Controller.ReadyTime
import MaintenanceOperator.Operator.Complete
import MaintenanceOperator.Operator.Safety

/-!
# What the garbage collector deletes

The garbage collector goes by the ready-time annotation. Along every run of the process the annotation of
an object is a time at which the clock stood when a terminal version of the object was at hand
(`recorded`), so the object has been terminal for the configured time, but for the second that the format
of the time cuts off (`collected_after_max_time`). The times of the garbage collector are read before its
loop; they only fall behind.
-/

namespace MaintenanceOperator
open Lib Discipline

/-- The users of the cluster make no ready times: a version that appears has none, or that of the stored
version of the object. -/
def KeepsReadyTime (w w' : World) : Prop :=
  ∀ v ∈ w'.history, v ∈ w.history ∨ readyTimeOf v = none ∨
    ∃ o ∈ w.nms.items, o.uid = v.uid ∧ readyTimeOf v = readyTimeOf o

instance (w w' : World) : Decidable (KeepsReadyTime w w') := by
  unfold KeepsReadyTime
  infer_instance

namespace ProcessState
variable (F : Formats) (past : List NodeMaintenance) (s : ProcessState)

/-- The ready time of `v` was read from the clock when the version `o` of the same object had been
written. -/
structure ReadAt (v o : NodeMaintenance) (t : Nat) : Prop where
  version : o ∈ s.cluster.world.history
  uid : o.uid = v.uid
  terminal : Terminal o
  annotation : readyTimeOf v = some (F.format t)
  after : s.writtenAt o.resourceVersion ≤ t
  before : t ≤ s.clock

/-- Where the ready time of a version comes from: from the past, or from the clock. -/
def Sourced (v : NodeMaintenance) : Prop :=
  (∃ o ∈ past, o.uid = v.uid ∧ readyTimeOf o = readyTimeOf v) ∨ ∃ o t, s.ReadAt F v o t

/-- What holds of the times on record. -/
structure TimesInv : Prop where
  consistent : Consistent s.cluster.world
  written : ∀ v ∈ s.cluster.world.history, s.writtenAt v.resourceVersion ≤ s.clock
  recorded : ∀ v ∈ s.cluster.world.history, readyTimeOf v ≠ none → s.Sourced F past v

/-- Later states: versions and their times stay on record. -/
structure Later (s s' : ProcessState) : Prop where
  history : ∀ v ∈ s.cluster.world.history, v ∈ s'.cluster.world.history
  written : ∀ v ∈ s.cluster.world.history, s'.writtenAt v.resourceVersion = s.writtenAt v.resourceVersion
  clock : s.clock ≤ s'.clock

/-- The ready time of a new version: none, that of another version of the object, or just read. -/
def Derived (v : NodeMaintenance) : Prop :=
  readyTimeOf v = none ∨
    (∃ o ∈ s.cluster.world.history, o.uid = v.uid ∧ readyTimeOf v = readyTimeOf o) ∨ ∃ o t, s.ReadAt F v o t

/-- What a move may do to the versions: nothing, or one new version. -/
def Appends (w : World) (h : List NodeMaintenance) : Prop :=
  h = w.history ∨ ∃ v, h = v :: w.history ∧ v.resourceVersion = w.revision + 1

end ProcessState

open ProcessState

section Moves
variable {F : Formats} {past : List NodeMaintenance} {s s' : ProcessState} {cluster : OperatorState}

lemma ProcessState.ReadAt.later {v o : NodeMaintenance} {t : Nat} (h : s.ReadAt F v o t) (hl : s.Later s') :
    s'.ReadAt F v o t where
  version := hl.history o h.version
  uid := h.uid
  terminal := h.terminal
  annotation := h.annotation
  after := (hl.written o h.version).trans_le h.after
  before := h.before.trans hl.clock

lemma ProcessState.Sourced.later {v : NodeMaintenance} (h : s.Sourced F past v) (hl : s.Later s') :
    s'.Sourced F past v :=
  h.imp id fun ⟨o, t, h⟩ => ⟨o, t, h.later hl⟩

/-- Nothing happens to the versions. -/
lemma ProcessState.Later.of_same (hh : s'.cluster.world.history = s.cluster.world.history)
    (hw : s'.writtenAt = s.writtenAt) (hc : s.clock ≤ s'.clock) : s.Later s' :=
  ⟨fun v hv => hh ▸ hv, fun _ _ => by rw [hw], hc⟩

lemma ProcessState.TimesInv.of_same (h : s.TimesInv F past) (hworld : s'.cluster = s.cluster)
    (hw : s'.writtenAt = s.writtenAt) (hc : s.clock ≤ s'.clock) : s'.TimesInv F past := by
  have hl : s.Later s' := .of_same (by rw [hworld]) hw hc
  refine ⟨hworld ▸ h.consistent, fun v hv => ?_, fun v hv hne => ?_⟩
  · rw [hworld] at hv
    rw [hw]
    exact (h.written v hv).trans hc
  · rw [hworld] at hv
    exact (h.recorded v hv hne).later hl

/-- New versions do not disturb what is on record. -/
lemma ProcessState.TimesInv.later_withCluster (h : s.TimesInv F past)
    (hsub : ∀ v ∈ s.cluster.world.history, v ∈ cluster.world.history) : s.Later (s.withCluster cluster) :=
  ⟨hsub, fun _ hv => if_pos (h.consistent.le_revision hv), Nat.le_refl _⟩

/-- A move of the cluster: the new version has its time from where it may. -/
lemma ProcessState.TimesInv.withCluster (h : s.TimesInv F past) (hcons : Consistent cluster.world)
    (happ : Appends s.cluster.world cluster.world.history)
    (hnew : ∀ v ∈ cluster.world.history, v ∈ s.cluster.world.history ∨ s.Derived F v) :
    (s.withCluster cluster).TimesInv F past := by
  have hsub : ∀ v ∈ s.cluster.world.history, v ∈ cluster.world.history := by
    intro v hv
    rcases happ with hh | ⟨v', hh, -⟩
    · rwa [hh]
    · rw [hh]
      exact .tail _ hv
  have hl := h.later_withCluster hsub
  refine ⟨hcons, fun v hv => ?_, fun v hv hne => ?_⟩
  · have hv' : v ∈ s.cluster.world.history ∨ v.resourceVersion = s.cluster.world.revision + 1 := by
      change v ∈ cluster.world.history at hv
      rcases happ with hh | ⟨v', hh, hrv⟩
      · exact .inl (hh ▸ hv)
      · rw [hh] at hv
        rcases List.mem_cons.mp hv with rfl | hv
        · exact .inr hrv
        · exact .inl hv
    rcases hv' with hv' | hrv
    · exact (hl.written v hv').trans_le (h.written v hv')
    · have hnot : ¬ v.resourceVersion ≤ s.cluster.world.revision := by omega
      exact (if_neg hnot).le
  · rcases hnew v hv with hv | hnone | ⟨o, ho, huid, heq⟩ | ⟨o, t, hread⟩
    · exact (h.recorded v hv hne).later hl
    · exact (hne hnone).elim
    · -- the same time as that of a version on record
      refine Sourced.later ?_ hl
      rcases h.recorded o ho (heq ▸ hne) with ⟨v₀, hv₀, hu, hr⟩ | ⟨o', t, hread⟩
      · exact .inl ⟨v₀, hv₀, hu.trans huid, hr.trans heq.symm⟩
      · exact .inr ⟨o', t, hread.version, hread.uid.trans huid, hread.terminal, heq.trans hread.annotation,
          hread.after, hread.before⟩
    · exact Sourced.later (.inr ⟨o, t, hread⟩) hl

lemma appends_write (w : World) (o : NodeMaintenance) : Appends w (w.write o).history :=
  .inr ⟨w.stamp o, rfl, rfl⟩

lemma Event.appends {w w' : World} (h : Event w w') : Appends w w'.history := by
  rcases h.nmsCases with ⟨-, hh, -⟩ | ⟨o, -, -, -, -, rfl⟩ | ⟨o, o', -, -, -, -, -, -, rfl⟩
  · exact .inl hh
  · exact appends_write w o
  · exact appends_write w o'

/-- The body of an update has the ready time of the stored version, or one that was read from the clock
since a terminal version was written. -/
def TimeKept (F : Formats) (s : ProcessState) (o b : NodeMaintenance) : Prop :=
  readyTimeOf b = readyTimeOf o ∨ Terminal o ∧ ∃ t, readyTimeOf b = some (F.format t) ∧
    s.writtenAt o.resourceVersion ≤ t ∧ t ≤ s.clock

/-- A version that is written in place of `o`. -/
lemma derived_of_kept {o v : NodeMaintenance} (ho : o ∈ s.cluster.world.history) (huid : v.uid = o.uid)
    (h : TimeKept F s o v) : s.Derived F v := by
  rcases h with h | ⟨hterm, t, h, hlo, hhi⟩
  · exact .inr (.inl ⟨o, ho, huid.symm, h⟩)
  · exact .inr (.inr ⟨o, t, ho, huid.symm, hterm, h, hlo, hhi⟩)

/-- A call that reaches the cluster. -/
lemma ProcessState.TimesInv.perform {mode : ReadMode} {e : Op} {r : Resp e} (h : s.TimesInv F past)
    (hx : Perform mode e s.cluster.world r cluster.world)
    (hp : ∀ b o, e = .update b → s.cluster.world.nms.get b.key = some o → Matches o b → TimeKept F s o b) :
    (s.withCluster cluster).TimesInv F past := by
  have hcons := hx.consistent h.consistent
  have heff := hx.nmsEffect
  clear hx
  generalize hw : cluster.world = w' at heff hcons
  have hwrite : ∀ o v, s.cluster.world.nms.get v.key = some o → v.uid = o.uid → TimeKept F s o v →
      w' = s.cluster.world.write v → (s.withCluster cluster).TimesInv F past := by
    rintro o v ho huid hkept rfl
    refine h.withCluster (hw ▸ hcons) (hw ▸ appends_write _ v) fun v' hv' => ?_
    rw [hw] at hv'
    rcases List.mem_cons.mp hv' with rfl | hv'
    · exact .inr (derived_of_kept (v := s.cluster.world.stamp v) (h.consistent.stored ho) huid hkept)
    · exact .inl hv'
  cases heff with
  | same hn hh hr =>
    refine h.withCluster (hw ▸ hcons) (hw ▸ .inl hh) fun v hv => .inl ?_
    rwa [hw, hh] at hv
  | @update _ b o spec ho hm hspec hname =>
    have hkey : (s.cluster.world.merge o b spec).key = b.key := hm.1
    exact hwrite o (s.cluster.world.merge o b spec) (hkey ▸ ho) rfl (hp b o rfl ho hm) rfl
  | @statusUpdate _ b o ho hm =>
    have hkey : (s.cluster.world.mergeStatus o b).key = b.key := hm.1
    exact hwrite o (s.cluster.world.mergeStatus o b) (hkey ▸ ho) rfl (.inl rfl) rfl

/-- A request for deletion. -/
lemma ProcessState.TimesInv.delete {w' : World} {key : NamespacedName} {r : Option Err} (h : s.TimesInv F past)
    (hx : DeleteAnswer s.cluster.world key s.clock r w') :
    (s.withCluster { s.cluster with world := w' }).TimesInv F past := by
  have hcons : Consistent w' := by
    rcases hx.event with rfl | hevent
    · exact h.consistent
    · exact hevent.consistent h.consistent
  have hsame : w' = s.cluster.world → (s.withCluster { s.cluster with world := w' }).TimesInv F past := by
    rintro rfl
    exact h.withCluster h.consistent (.inl rfl) fun v hv => .inl hv
  rcases hx with ⟨-, rfl⟩ | hx
  · exact hsame rfl
  · obtain ⟨o, ho, hx⟩ := Option.bind_eq_some_iff.mp hx
    split at hx
    · cases hx
      exact hsame rfl
    · cases hx
      refine h.withCluster hcons (appends_write _ _) fun v hv => ?_
      rcases List.mem_cons.mp hv with rfl | hv
      · exact .inr (derived_of_kept (h.consistent.stored ho) rfl (.inl rfl))
      · exact .inl hv

/-- An event outside the process, with users who make no ready times. -/
lemma ProcessState.TimesInv.event {U : Setup} (h : s.TimesInv F past)
    (husers : ∀ w w', U.users w w' → KeepsReadyTime w w') (he : ProcessEvent U s s') : s'.TimesInv F past := by
  cases he with
  | cluster hevent hu =>
    refine h.withCluster (hevent.consistent h.consistent) hevent.appends fun v hv => ?_
    rcases husers _ _ hu v hv with hv | hnone | ⟨o, ho, huid, heq⟩
    · exact .inl hv
    · exact .inr (.inl hnone)
    · exact .inr (.inr (.inl ⟨o, h.consistent.stored (Store.mem_items.mp ho), huid, heq⟩))
  | config cfg _ => exact h.of_same rfl rfl (Nat.le_refl _)
  | tick ht => exact h.of_same rfl rfl ht

end Moves

/-! ### The discipline of the process -/

/-- The object is one that the garbage collector has listed, and its time is up by the option it used
last. -/
def Due (U : Setup) (s : ProcessState) (nm : NodeMaintenance) : Prop :=
  nm ∈ s.cluster.world.history ∧ ∃ maxTime : Int,
    Mailbox.lastUsed s.collectorOptions.log = some (fun _ => maxTime) ∧
      GarbageCollector.Stale U.times maxTime s.clock nm

/-- Which calls are in order. -/
def timesPerm (U : Setup) (i : Worker ⊕ Service) (s : ProcessState) : Op ⊕ OwnOp → Prop
  | .inl e => ∀ b o, e = .update b → s.cluster.world.nms.get b.key = some o → Matches o b →
      TimeKept U.reconciler.formats s o b
  | .inr (.collectorOptions e) => i = .inr .garbageCollector ∨ e.NoUse
  | .inr (.deleteNodeMaintenance nm) => i = .inr .garbageCollector → Due U s nm
  | .inr _ => True

/-- What a thread can rely upon; the uses of its options are the garbage collector's own. -/
structure TimesRely (i : Worker ⊕ Service) (s s' : ProcessState) : Prop where
  later : s.Later s'
  used : i = .inr .garbageCollector →
    Mailbox.lastUsed s'.collectorOptions.log = Mailbox.lastUsed s.collectorOptions.log

section Discipline
variable {U : Setup} {past : List NodeMaintenance} {i j : Worker ⊕ Service} {s s' : ProcessState}
  {e : Op ⊕ OwnOp} {r : Sum.elim Resp OwnResp e}

/-- A call reaches the cluster as one of an operator would. -/
lemma clusterExec_perform {i : Worker ⊕ Service} {e : Op} {r : Resp e} {a a' : OperatorState}
    (h : clusterExec i e a r a') : Perform .cached e a.world r a'.world := by
  rcases i with (_ | key) | j
  · exact h.1
  · exact h.1
  · exact h.1

lemma processExec_inv (h : s.TimesInv U.reconciler.formats past) (hp : timesPerm U i s e)
    (hx : (process U).exec i e s r s') : s'.TimesInv U.reconciler.formats past := by
  cases e with
  | inl e =>
    obtain ⟨cluster, hexec, -, rfl⟩ := hx
    exact h.perform (clusterExec_perform hexec) hp
  | inr e =>
    cases e with
    | schedulerOptions e =>
      obtain ⟨side, b, -, -, rfl⟩ := hx
      exact h.of_same rfl rfl (Nat.le_refl _)
    | collectorOptions e =>
      obtain ⟨side, b, -, -, rfl⟩ := hx
      exact h.of_same rfl rfl (Nat.le_refl _)
    | getConfig key =>
      obtain ⟨rfl, -⟩ := hx
      exact h
    | level =>
      obtain ⟨rfl, -⟩ := hx
      exact h
    | setLevel l =>
      obtain rfl : s' = { s with level := l } := hx
      exact h.of_same rfl rfl (Nat.le_refl _)
    | deleteNodeMaintenance nm =>
      obtain ⟨w', hans, rfl⟩ := hx
      exact h.delete hans

/-- Calls leave the record of the past alone. -/
lemma processExec_later (h : s.TimesInv U.reconciler.formats past) (hx : (process U).exec i e s r s') :
    s.Later s' := by
  cases e with
  | inl e =>
    obtain ⟨cluster, hexec, -, rfl⟩ := hx
    exact h.later_withCluster (clusterExec_perform hexec).history_subset
  | inr e =>
    cases e with
    | schedulerOptions e =>
      obtain ⟨side, b, -, -, rfl⟩ := hx
      exact .of_same rfl rfl (Nat.le_refl _)
    | collectorOptions e =>
      obtain ⟨side, b, -, -, rfl⟩ := hx
      exact .of_same rfl rfl (Nat.le_refl _)
    | getConfig key =>
      obtain ⟨rfl, -⟩ := hx
      exact .of_same rfl rfl (Nat.le_refl _)
    | level =>
      obtain ⟨rfl, -⟩ := hx
      exact .of_same rfl rfl (Nat.le_refl _)
    | setLevel l =>
      obtain rfl : s' = { s with level := l } := hx
      exact .of_same rfl rfl (Nat.le_refl _)
    | deleteNodeMaintenance nm =>
      obtain ⟨w', hans, rfl⟩ := hx
      refine h.later_withCluster fun v hv => ?_
      rcases hans.event with rfl | hevent
      · exact hv
      · exact hevent.history_subset v hv

/-- What is used last is left alone by calls that note no use. -/
lemma processExec_lastUsed (he : ∀ e', e = .inr (.collectorOptions e') → e'.NoUse)
    (hx : (process U).exec i e s r s') :
    Mailbox.lastUsed s'.collectorOptions.log = Mailbox.lastUsed s.collectorOptions.log := by
  cases e with
  | inl e =>
    obtain ⟨cluster, -, -, rfl⟩ := hx
    rfl
  | inr e =>
    cases e with
    | schedulerOptions e =>
      obtain ⟨side, b, -, -, rfl⟩ := hx
      rfl
    | collectorOptions e =>
      obtain ⟨side, b, -, hb, rfl⟩ := hx
      exact Mailbox.lastUsed_of_exec (he e rfl) hb
    | getConfig key =>
      obtain ⟨rfl, -⟩ := hx
      rfl
    | level =>
      obtain ⟨rfl, -⟩ := hx
      rfl
    | setLevel l =>
      obtain rfl : s' = { s with level := l } := hx
      rfl
    | deleteNodeMaintenance nm =>
      obtain ⟨w', -, rfl⟩ := hx
      rfl

/-- The permission of a call on the collector's options, for another thread. -/
lemma timesPerm_noUse (hne : i ≠ .inr .garbageCollector) (hp : timesPerm U i s e) :
    ∀ e', e = .inr (.collectorOptions e') → e'.NoUse := by
  rintro e' rfl
  exact hp.resolve_left hne

lemma processEvent_rely (h : s.TimesInv U.reconciler.formats past) (he : ProcessEvent U s s') :
    TimesRely i s s' := by
  cases he with
  | cluster hevent _ => exact ⟨h.later_withCluster hevent.history_subset, fun _ => rfl⟩
  | config cfg _ => exact ⟨.of_same rfl rfl (Nat.le_refl _), fun _ => rfl⟩
  | tick ht => exact ⟨.of_same rfl rfl ht, fun _ => rfl⟩

/-- The plan, with users who make no ready times. -/
def times (U : Setup) (past : List NodeMaintenance) (husers : ∀ w w', U.users w w' → KeepsReadyTime w w') :
    Discipline (process U) where
  inv s := s.TimesInv U.reconciler.formats past
  perm := timesPerm U
  rely := TimesRely
  inv_call := processExec_inv
  rely_call {_ j _ _ _ _} hne h hp hx := by
    refine ⟨processExec_later h hx, ?_⟩
    rintro rfl
    exact processExec_lastUsed (timesPerm_noUse hne hp) hx
  inv_env h he := h.event husers he
  rely_env _ h he := processEvent_rely h he

variable {husers : ∀ w w', U.users w w' → KeepsReadyTime w w'}

/-- What is said of the record of the past stays true. -/
lemma stable_of_later {A : ProcessState → Prop} (h : ∀ s s', s.Later s' → A s → A s') :
    (times U past husers).Stable i A :=
  fun s s' _ _ hr => h s s' hr.later

/-! ### Reconcilers -/

/-- What the facts of a reconcile mean. -/
def Seen.holds : Seen → ProcessState → Prop
  | .version m, s => m ∈ s.cluster.world.history
  | .reading m t, s => m ∈ s.cluster.world.history ∧ s.writtenAt m.resourceVersion ≤ t ∧ t ≤ s.clock

lemma Seen.holds_later {φ : Seen} (hl : s.Later s') (h : φ.holds s) : φ.holds s' := by
  cases φ with
  | version m => exact hl.history m h
  | reading m t => exact ⟨hl.history m h.1, (hl.written m h.1).trans_le h.2.1, h.2.2.trans hl.clock⟩

/-- The version that a write returns is on record. -/
lemma version_of_write {w w' : World} {b a : NodeMaintenance}
    (h : w.update b = some (a, w') ∨ w.statusUpdate b = some (a, w')) : a ∈ w'.history := by
  rcases h with h | h
  · obtain ⟨o, spec, -, -, -, -, rfl, rfl⟩ := World.update_eq_some h
    exact .head _
  · obtain ⟨o, -, -, rfl, rfl⟩ := World.statusUpdate_eq_some h
    exact .head _

/-- The facts of a reconcile are true, and give it the permissions of its updates. -/
def readyEvidence (past : List NodeMaintenance) (husers : ∀ w w', U.users w w' → KeepsReadyTime w w')
    (key : NamespacedName) :
    Evidence (times U past husers).onVisible (.reconciler key) (readyTimes U.reconciler.formats) where
  holds := Seen.holds
  stable φ := fun s s' _ _ hr => Seen.holds_later hr.later
  kept {_ e _ _ _} h hx := Seen.holds_later (processExec_later (i := .inl (.reconciler key)) (e := .inl e) h hx)
  learnt {K e s r s'} h _ hx hK φ hφ := by
    obtain ⟨cluster, hexec, hclock, rfl⟩ := hx
    have hperf := clusterExec_perform hexec
    cases e with
    | getNodeMaintenance k =>
      cases r with
      | error err => cases hφ
      | ok m =>
        obtain rfl : φ = .version m := hφ
        obtain ⟨hw, hans⟩ := hperf
        change m ∈ cluster.world.history
        rw [hw]
        exact hans.1
    | update b =>
      cases r with
      | error err => cases hφ
      | ok m =>
        obtain rfl : φ = .version m := hφ
        exact version_of_write (.inl (WriteAnswer.ok hperf))
    | statusUpdate b =>
      cases r with
      | error err => cases hφ
      | ok m =>
        obtain rfl : φ = .version m := hφ
        exact version_of_write (.inr (WriteAnswer.ok hperf))
    | now =>
      obtain ⟨m, hm, rfl⟩ := hφ
      have hmem : m ∈ s.cluster.world.history := hK _ hm
      obtain rfl : r = s.clock := hclock
      have hl := h.later_withCluster hperf.history_subset
      exact ⟨hl.history m hmem, (hl.written m hmem).trans_le (h.written m hmem), Nat.le_refl _⟩
    | _ => cases hφ
  perm {K e s} h hK hneed := by
    rintro b o rfl ho hm
    obtain ⟨m, hshown, huid, hrv, hready⟩ := hneed
    -- the stored version that the body matches is the one that was shown
    have hmem : m ∈ s.cluster.world.history := hK _ hshown
    obtain rfl : o = m := h.consistent.unique (h.consistent.stored ho) hmem (hm.2.2.trans hrv)
    rcases hready with hready | ⟨hterm, t, ht, hready⟩
    · exact .inl hready
    · exact .inr ⟨hterm, t, hready, (hK _ ht).2⟩

/-! ### The other threads -/

/-- Calls that make no difference to the times, whatever the state. -/
def Timeless : Op ⊕ OwnOp → Prop
  | .inl e => ∀ b, e ≠ .update b
  | .inr (.collectorOptions e) => e.NoUse
  | .inr (.deleteNodeMaintenance _) => False
  | .inr _ => True

lemma Timeless.perm (h : Timeless e) : timesPerm U i s e := by
  cases e with
  | inl e =>
    rintro b o rfl
    exact (h b rfl).elim
  | inr e =>
    cases e with
    | collectorOptions e => exact .inr h
    | deleteNodeMaintenance nm => exact h.elim
    | _ => trivial

/-- A program of such calls keeps what is said of the past. -/
lemma timeless_triple {α : Type} {A : ProcessState → Prop} {p : ProcessProc α}
    (hA : ∀ s s', s.Later s' → A s → A s') (h : p.All Timeless) :
    (times U past husers).Triple i A p fun _ => A :=
  Triple.of_all (stable_of_later hA) (fun _ _ _ _ he => he.perm)
    (fun s _ _ s' hs _ hAs _ hx => hA s s' (processExec_later hs hx) hAs) h

lemma timeless_schedulerOptions {α : Type}
    (p : Prog (Mailbox.Op SchedulerOption (Option Scheduler.IntOrString)) Mailbox.Resp α) :
    (onSchedulerOptions p).All Timeless :=
  Prog.All.translate (f := fun e => ownCall (.schedulerOptions e)) (fun _ => ⟨trivial, fun _ => trivial⟩) p

lemma timeless_collectorOptions {α : Type} {p : Prog (Mailbox.Op CollectorOption Int) Mailbox.Resp α}
    (h : p.All Mailbox.Op.NoUse) : (onCollectorOptions p).All Timeless :=
  .translate_of h fun _ he => ⟨he, fun _ => trivial⟩

lemma timeless_inside {α : Type} {p : ProcessProc α} (h : p.All Timeless) : AllE Timeless (inside p) := .lift h

lemma timeless_shown {α : Type} {x : Action α} (h : AllE (OnUpdate fun _ => False) x) :
    AllE Timeless (shown x) := by
  refine Prog.All.shown (Prog.All.mono h fun e he => ?_)
  rintro b rfl
  exact he

lemma noUpdate_placeMaintenances {sorter : Sorter Scheduler.compareRanked} {o : Scheduler.Options}
    {nodes : List Node} {nms : List NodeMaintenance} :
    AllE (OnUpdate fun _ => False) (Scheduler.placeMaintenances sorter o nodes nms) := by
  refine .bind ?_ fun toSchedule => ?_
  · cases Scheduler.decision sorter o nodes nms <;> trivial
  · cases toSchedule with
    | none => exact .throw
    | some toSchedule =>
      exact .bind (.lift (call_all trivial)) fun order => .bind (markAll_all everyday_onUpdate order) fun _ => .pure

lemma timeless_reconcileScheduler {sorter : Sorter Scheduler.compareRanked} :
    AllE Timeless (reconcileScheduler sorter) := by
  have hget : ∀ f, AllE Timeless (inside (onSchedulerOptions (Mailbox.get f))) :=
    fun f => timeless_inside (timeless_schedulerOptions _)
  refine .bind (timeless_inside (timeless_schedulerOptions _)) fun _ => .bind (hget _) fun _ =>
    .bind (hget _) fun _ => ?_
  refine .bind (timeless_shown (call_all trivial)) fun nodes => .bind (timeless_shown (call_all trivial)) fun nms =>
    .bind (hget _) fun a => .bind (hget _) fun b => ?_
  exact .bind (timeless_inside (timeless_schedulerOptions _)) fun _ => timeless_shown noUpdate_placeMaintenances

lemma timeless_reconcileConfig {P : LevelParser} {operatorNamespace : String} {req : NamespacedName} :
    (reconcileConfig P operatorNamespace req).All Timeless := by
  have hlevel : ∀ lvl, (setLogLevel P lvl).All Timeless := by
    intro lvl
    unfold setLogLevel
    split
    · trivial
    · refine .bind ⟨trivial, fun _ => trivial⟩ fun l => ?_
      split
      · trivial
      · exact ⟨trivial, fun _ => trivial⟩
  unfold reconcileConfig
  split
  · trivial
  · refine .bind ⟨trivial, fun _ => trivial⟩ fun res => ?_
    cases res with
    | error err => dsimp only; split <;> trivial
    | ok cfg =>
      refine .bind (timeless_schedulerOptions _) fun _ =>
        .bind (timeless_collectorOptions (Mailbox.store_noUse _ _)) fun _ => .bind (hlevel _) fun res => ?_
      cases res <;> trivial

/-! ### The garbage collector -/

/-- The loop of the garbage collector deletes what is stale. -/
lemma collect_all {T : TimeParser} {options : GarbageCollectorOptions} {now : Int} {nm : NodeMaintenance} :
    (GarbageCollector.collect T options now nm).All fun e =>
      e = .delete nm ∧ GarbageCollector.Stale T options.maxNodeMaintenanceTime now nm := by
  unfold GarbageCollector.collect
  split
  · trivial
  · rename_i hign
    split
    · split
      · trivial
      · rename_i t ht
        split
        · rename_i hlt
          split
          · trivial
          · rename_i hdel
            rw [GarbageCollector.parse_getD] at ht
            refine .bind (.lift ⟨rfl, ?_, ⟨t, ht, hlt⟩, by simpa using hdel⟩) fun _ => trivial
            intro h
            rw [h] at hign
            exact hign rfl
        · trivial
    · trivial

/-- What the garbage collector has at hand in its loop: the time, and the rest of its list. -/
def AtHand (now : Int) (items : List NodeMaintenance) (s : ProcessState) : Prop :=
  now ≤ s.clock ∧ ∀ nm ∈ items, nm ∈ s.cluster.world.history

lemma AtHand.later {now : Int} {items : List NodeMaintenance} (hl : s.Later s') (h : AtHand now items s) :
    AtHand now items s' :=
  ⟨h.1.trans (by exact_mod_cast hl.clock), fun nm hnm => hl.history nm (h.2 nm hnm)⟩

/-- An object that is stale stays so. -/
lemma stale_mono {T : TimeParser} {maxTime now now' : Int} {nm : NodeMaintenance}
    (h : GarbageCollector.Stale T maxTime now nm) (hle : now ≤ now') :
    GarbageCollector.Stale T maxTime now' nm := by
  obtain ⟨t, ht, hlt⟩ := h.expired
  exact ⟨h.notIgnored, ⟨t, ht, by omega⟩, h.notDeleting⟩

/-- The option that the garbage collector goes by. -/
def Uses (maxTime : Int) (s : ProcessState) : Prop :=
  Mailbox.lastUsed s.collectorOptions.log = some (fun _ => maxTime)

lemma stable_uses {maxTime : Int} : (times U past husers).Stable (.inr .garbageCollector) (Uses maxTime) :=
  fun _ _ _ _ hr h => (hr.used rfl).trans h

/-- The note of the option. -/
lemma use_triple {maxTime now : Int} {items : List NodeMaintenance} :
    (times U past husers).Triple (.inr .garbageCollector) (AtHand now items)
      (onCollectorOptions (Mailbox.issue (.note (.used fun _ => maxTime))))
      fun _ s => AtHand now items s ∧ Uses maxTime s := by
  have hstable : (times U past husers).Stable (.inr .garbageCollector) (AtHand now items) :=
    stable_of_later fun _ _ => AtHand.later
  refine Triple.call (B := fun _ s => AtHand now items s ∧ Uses maxTime s) hstable (fun _ _ _ => .inl rfl)
    (fun s r s' hs _ hA hx => ⟨hA.later (processExec_later hs hx), ?_⟩)
    fun _ => .ret (hstable.and stable_uses) fun _ _ h => h
  obtain ⟨side, b, -, hb, rfl⟩ := hx
  obtain rfl : b = { s.collectorOptions with log := .used (fun _ => maxTime) :: s.collectorOptions.log } := hb
  rfl

/-- The body of the loop: it deletes the object, or does nothing. -/
lemma collect_triple {maxTime now : Int} {nm : NodeMaintenance} {items : List NodeMaintenance} :
    (times U past husers).Triple (.inr .garbageCollector)
      (fun s => AtHand now (nm :: items) s ∧ Uses maxTime s)
      ((GarbageCollector.collect U.times ⟨maxTime, maxTime⟩ now nm).translate collectorCall)
      fun _ => AtHand now items := by
  have hstable : (times U past husers).Stable (.inr .garbageCollector) (AtHand now (nm :: items)) :=
    stable_of_later fun _ _ => AtHand.later
  have hall : ((GarbageCollector.collect U.times ⟨maxTime, maxTime⟩ now nm).translate collectorCall).All fun e =>
      e = .inr (.deleteNodeMaintenance nm) ∧ GarbageCollector.Stale U.times maxTime now nm := by
    refine .translate_of collect_all ?_
    rintro _ ⟨rfl, hstale⟩
    exact ⟨⟨rfl, hstale⟩, fun _ => trivial⟩
  refine (Triple.of_all (hstable.and stable_uses) ?_ ?_ hall).conseq (fun _ _ h => h) ?_
  · rintro s _ _ ⟨⟨hnow, hitems⟩, hused⟩ ⟨rfl, hstale⟩ _
    exact ⟨hitems nm (.head _), maxTime, hused, stale_mono hstale hnow⟩
  · rintro s _ r s' hs _ ⟨hhand, hused⟩ ⟨rfl, -⟩ hx
    have hkept : Mailbox.lastUsed s'.collectorOptions.log = Mailbox.lastUsed s.collectorOptions.log := by
      refine processExec_lastUsed ?_ hx
      rintro e' ⟨⟩
    exact ⟨hhand.later (processExec_later hs hx), hkept.trans hused⟩
  · rintro _ s _ ⟨⟨hnow, hitems⟩, -⟩
    exact ⟨hnow, fun nm' h => hitems nm' (.tail _ h)⟩

/-- The loop. -/
lemma collectAll_due {now : Int} (items : List NodeMaintenance) :
    (times U past husers).Triple (.inr .garbageCollector) (AtHand now items) (collectAll U.times now items)
      fun _ _ => True := by
  induction items with
  | nil => exact .ret (stable_of_later fun _ _ => AtHand.later) fun _ _ _ => trivial
  | cons nm items ih =>
    have hread : maxNodeMaintenanceTime.All Timeless := timeless_collectorOptions (Mailbox.get_noUse _)
    refine Triple.bind (timeless_triple (fun _ _ => AtHand.later) hread) fun maxTime => ?_
    exact Triple.bind use_triple fun _ => Triple.bind collect_triple fun _ => ih

/-- A round of the garbage collector asks for the deletion of what is due. -/
lemma collectGarbage_due : (times U past husers).Triple (.inr .garbageCollector) (fun _ => True)
    (collectGarbage U.times) fun _ _ => True := by
  have htrue : ∀ {α : Type} {p : ProcessProc α}, p.All Timeless →
      (times U past husers).Triple (.inr .garbageCollector) (fun _ => True) p fun _ _ => True :=
    fun h => timeless_triple (fun _ _ _ h => h) h
  unfold collectGarbage
  refine Triple.bind (htrue (timeless_collectorOptions (Mailbox.load_noUse _))) fun _ => ?_
  refine Triple.bind (htrue (timeless_collectorOptions (Mailbox.get_noUse _))) fun _ => ?_
  -- the list comes from the history, the time is that of the clock
  refine Triple.bind (B := fun res s => ∀ items, res = .ok items → ∀ nm ∈ items, nm ∈ s.cluster.world.history) ?_
    fun res => ?_
  · refine Triple.call (Stable.const _) (fun _ _ _ b o h => nomatch h) (fun s r s' _ _ _ hx => ?_) fun r =>
      .ret (stable_of_later ?_) fun _ _ h => h
    · obtain ⟨cluster, hexec, -, rfl⟩ := hx
      obtain ⟨hw, hans⟩ := clusterExec_perform hexec
      rintro items rfl nm hnm
      change nm ∈ cluster.world.history
      rw [hw]
      exact hans.1 nm hnm
    · exact fun s s' hl h items hi nm hnm => hl.history nm (h items hi nm hnm)
  · cases res with
    | error err => exact .ret (stable_of_later fun _ _ _ _ _ h => nomatch h) fun _ _ _ => trivial
    | ok items =>
      refine Triple.bind (B := fun now => AtHand now items) ?_ fun now =>
        Triple.bind (collectAll_due items) fun _ => .ret (Stable.const _) fun _ _ _ => trivial
      refine Triple.call (B := fun (t : Nat) => AtHand t items) (stable_of_later ?_)
        (fun _ _ _ b o h => nomatch h) (fun s r s' hs _ hA hx => ?_)
        fun r => .ret (stable_of_later fun _ _ => AtHand.later) fun _ _ h => h
      · exact fun s s' hl h items hi nm hnm => hl.history nm (h items hi nm hnm)
      · have hl := processExec_later hs hx
        obtain ⟨cluster, -, hclock, rfl⟩ := hx
        obtain rfl : r = s.clock := hclock
        exact ⟨Int.le_refl _, fun nm hnm => hl.history nm (hA items rfl nm hnm)⟩

/-- Every body keeps to the plan. -/
lemma processBody_times (i : Worker ⊕ Service) (p : ProcessProc (Except Err Result)) (h : (process U).body i p) :
    (times U past husers).Triple i (fun _ => True) p fun _ _ => True := by
  rcases i with (_ | key) | (_ | _)
  · obtain rfl := h
    exact timeless_triple (fun _ _ _ h => h) timeless_reconcileScheduler
  · obtain rfl := h
    have htriple := (readyEvidence past husers key).triple (reconcile_informed U.reconciler key)
    exact (Triple.shown htriple).conseq (fun _ _ _ _ hφ => hφ.elim) fun _ _ _ _ => trivial
  · obtain ⟨req, rfl⟩ := h
    exact timeless_triple (fun _ _ _ h => h) timeless_reconcileConfig
  · obtain rfl := h
    exact collectGarbage_due

end Discipline

/-! ### Whole runs -/

section Runs
variable {U : Setup} {cluster : OperatorState} {level : Level} {clock : Nat}
  {c : Config (Worker ⊕ Service) (Op ⊕ OwnOp) (Sum.elim Resp OwnResp) ProcessState (Except Err Result)}

/-- The times on record are right along every run. -/
lemma times_ok (husers : ∀ w w', U.users w w' → KeepsReadyTime w w') (hcons : Consistent cluster.world)
    (run : (process U).Run (idleProcess (.start cluster level clock)) c) :
    (times U cluster.world.history husers).Ok c := by
  refine sound processBody_times ⟨⟨hcons, fun _ _ => Nat.zero_le _, fun v hv _ => ?_⟩, fun _ _ h => by cases h⟩ run
  exact .inl ⟨v, hv, rfl, rfl⟩

/-- Phases never go back along a run of the process. -/
lemma process_monotone (h : Started cluster)
    (run : (process U).Run (idleProcess (.start cluster level clock)) c) {v v' : NodeMaintenance}
    (hv : v ∈ c.state.cluster.world.history) (hv' : v' ∈ c.state.cluster.world.history) (huid : v.uid = v'.uid)
    (hle : v.resourceVersion ≤ v'.resourceVersion) : phase v ≤ phase v' := by
  obtain ⟨a, hrun, hmir⟩ := process_mirrored run
  have hstate : a.state = c.state.cluster := hmir.state
  rw [← hstate] at hv hv'
  exact (h.ok hrun).1.monotone hv hv' huid hle

lemma Terminal.phase_eq {m : NodeMaintenance} (h : Terminal m) : phase m = 6 := by
  rcases h with h | h
  · exact phase_of_reason h
  · exact phase_of_reason h

/-- A time that is read and written down falls behind by less than a second. -/
lemma parsed_readyTime (U : Setup) {nm : NodeMaintenance} {t : Nat} {time : Int}
    (h : readyTimeOf nm = some (U.reconciler.formats.format t))
    (htime : GarbageCollector.readyTime? U.times nm = some time) : (t : Int) < time + second := by
  have hparse : GarbageCollector.readyTime? U.times nm = some ((t / second * second : Nat) : Int) := by
    change (readyTimeOf nm).bind U.times.parse = _
    rw [h]
    exact U.times_format t
  obtain rfl : ((t / second * second : Nat) : Int) = time := Option.some.inj (hparse.symm.trans htime)
  have hmod : t < t / second * second + second := Nat.lt_div_mul_add (by decide)
  exact_mod_cast hmod

/-- The garbage collector is about to ask for a deletion. -/
def deletes? (c : Config (Worker ⊕ Service) (Op ⊕ OwnOp) (Sum.elim Resp OwnResp) ProcessState (Except Err Result)) :
    Bool :=
  match c.threads (.inr .garbageCollector) with
  | some (.call (.inr (.deleteNodeMaintenance _)) _) => true
  | _ => false

lemma exists_of_deletes? (h : deletes? c = true) :
    ∃ nm k, c.threads (.inr .garbageCollector) = some (.call (.inr (.deleteNodeMaintenance nm)) k) := by
  unfold deletes? at h
  split at h
  · rename_i nm k hcall
    exact ⟨nm, k, hcall⟩
  · cases h

end Runs
end MaintenanceOperator
