import MaintenanceOperator.Cluster.Serve
import MaintenanceOperator.Controller.Changes
import MaintenanceOperator.Lib.Script
import MaintenanceOperator.PodCompletion

/-!
# The clock of the wait for pod completion

`HandlePodCompletion` is called again and again on one NodeMaintenance while time passes and calls fail.
The start of the wait exists twice: with nanoseconds in the memory of the call that begins it, and in
whole seconds in the annotation that this call leaves for the later ones. The state of the system holds
the time, and what is needed to say what the theorem says: when the start was stored, and what the
present call has seen.
-/

namespace MaintenanceOperator
open Lib Discipline

/-- The start annotation; Go reads a missing one as empty. -/
def startAnnot (o : NodeMaintenance) : String :=
  (o.annotations.get? waitForPodCompletionStartAnnot).getD ""

/-- The timeout that the spec asks for. -/
def waitTimeout (o : NodeMaintenance) : Option Int :=
  o.spec.waitForPodCompletion.map WaitForPodCompletionSpec.timeoutSecond

/-- A listing of pods: what was asked for, the answer, and the revision of the cluster at that time. -/
structure PodListing where
  nodeName : String
  selector : String
  pods : List NamespacedName
  revision : Nat

/-- The present call: when it read the object, the last time it read off the clock, its pod listing. -/
structure WaitCall where
  calledAt : Nat
  reading : Nat
  listing : Option PodListing

/-- The state: the cluster, the time, and the time at which the stored start was read off the clock. -/
structure WaitState where
  world : World
  clock : Nat
  started : Option Nat
  call : WaitCall

/-- The start annotation that is stored. -/
def storedStart (key : NamespacedName) (w : World) : String :=
  ((w.nms.get key).map startAnnot).getD ""

/-- A successful listing is put on record. -/
def WaitCall.list (call : WaitCall) (w : World) (nodeName selector : String) :
    Except Err (List NamespacedName) → WaitCall
  | .ok pods => { call with listing := some ⟨nodeName, selector, pods, w.revision⟩ }
  | .error _ => call

/-- What a response adds to the record of the call. -/
def WaitCall.note (call : WaitCall) (w : World) (clock : Nat) : (e : Op) → Resp e → WaitCall
  | .getNodeMaintenance _, _ => ⟨clock, clock, none⟩
  | .now, _ => { call with reading := clock }
  | .listPods nodeName selector, res => call.list w nodeName selector res
  | _, _ => call

/-- The clock is answered with the time. -/
def ClockAnswer (clock : Nat) : (e : Op) → Resp e → Prop
  | .now, (t : Nat) => t = clock
  | _, _ => True

/-- The start is on record from the moment at which the annotation appears. -/
def noteStart (key : NamespacedName) (s : WaitState) (w' : World) : Option Nat :=
  if storedStart key s.world = "" ∧ storedStart key w' ≠ "" then some s.call.reading else s.started

/-- One call on the freshly read object; `none` if it could not be read. -/
def waitRound (F : Formats) (key : NamespacedName) :
    Action (Option (NodeMaintenance × Except Err (List String))) := do
  match ← observe (Client.getNodeMaintenance key) with
  | .error _ => return none
  | .ok nm =>
    let res ← handlePodCompletion F nm
    return some res

/-- Nobody else writes the start annotation or changes the timeout, or makes a new object of the name. -/
def KeepsWait (key : NamespacedName) (w w' : World) : Prop :=
  ∀ o', w'.nms.get key = some o' →
    ∃ o, w.nms.get key = some o ∧ startAnnot o' = startAnnot o ∧ waitTimeout o' = waitTimeout o

/-- Calls one after the other, at times that do not decrease. -/
def podWaits (F : Formats) (key : NamespacedName) : System Unit Op Resp WaitState
    (Except Err (Option (NodeMaintenance × Except Err (List String)))) where
  exec _ e s a s' := Perform .current e s.world a s'.world ∧ s.clock ≤ s'.clock ∧
    ClockAnswer s'.clock e a ∧ s'.call = s.call.note s.world s'.clock e a ∧
    s'.started = noteStart key s s'.world
  env c s' := (s'.world = c.state.world ∨ Happens c.state.world s'.world) ∧
    KeepsWait key c.state.world s'.world ∧ c.state.clock ≤ s'.clock ∧ s'.call = c.state.call ∧
    s'.started = c.state.started
  body _ p := p = (waitRound F key).run

/-- The cluster at some time, with no call under way. -/
def betweenWaits (w : World) (t : Nat) : Config Unit Op Resp WaitState
    (Except Err (Option (NodeMaintenance × Except Err (List String)))) :=
  ⟨⟨w, t, none, ⟨t, t, none⟩⟩, fun _ => none⟩

/-! ### What is stored -/

section Stored
variable {w w' : World} {k : NamespacedName} {o : NodeMaintenance} {mode : ReadMode} {e : Op} {a : Resp e}

/-- The objects are left alone, or one version is written. -/
def Written (w w' : World) : Prop :=
  w'.nms = w.nms ∧ w'.revision = w.revision ∨ ∃ o, w' = w.write o

lemma Happens.written (h : Happens w w') : Written w w' := by
  cases h with
  | event he =>
    rcases he.nmsCases with ⟨hn, -, hr⟩ | ⟨o, -, -, -, -, hw⟩ | ⟨o, o', -, -, -, -, -, -, hw⟩
    · exact .inl ⟨hn, hr⟩
    · exact .inr ⟨o, hw⟩
    · exact .inr ⟨o', hw⟩
  | schedule b _ _ _ => exact .inr ⟨_, rfl⟩

lemma Perform.written (h : Perform mode e w a w') : Written w w' := by
  cases h.nmsEffect with
  | same hn _ hr => exact .inl ⟨hn, hr⟩
  | update _ _ _ _ => exact .inr ⟨_, rfl⟩
  | statusUpdate _ _ => exact .inr ⟨_, rfl⟩

lemma Written.revision_le (h : Written w w') : w.revision ≤ w'.revision := by
  rcases h with ⟨-, hr⟩ | ⟨o, rfl⟩
  · exact Nat.le_of_eq hr.symm
  · exact Nat.le_succ _

/-- An object whose deletion is complete is not stored. -/
lemma Written.not_gone (h : Written w w') (hw : ∀ {o}, w.nms.get k = some o → o.gone = false)
    (ho : w'.nms.get k = some o) : o.gone = false := by
  rcases h with ⟨hn, -⟩ | ⟨b, rfl⟩
  · exact hw (hn ▸ ho)
  · rcases World.get_write ho with ⟨-, hk⟩ | ⟨-, hgone, rfl⟩
    · exact hw hk
    · exact hgone

lemma storedStart_of_get (h : w.nms.get k = some o) : storedStart k w = startAnnot o := by
  simp [storedStart, h]

lemma storedStart_of_none (h : w.nms.get k = none) : storedStart k w = "" := by
  simp [storedStart, h]

end Stored

/-! ### The plan -/

/-- The invariant. -/
structure WaitInv (F : Formats) (key : NamespacedName) (T : Int) (s : WaitState) : Prop where
  consistent : Consistent s.world
  not_gone : ∀ {o}, s.world.nms.get key = some o → o.gone = false
  timeout : ∀ {o}, s.world.nms.get key = some o → waitTimeout o = some T
  start : ∀ {o}, s.world.nms.get key = some o → startAnnot o = (s.started.map F.format).getD ""
  calledAt : s.call.calledAt ≤ s.call.reading
  reading : s.call.reading ≤ s.clock

/-- Permissions: an update stores the start that was just read off the clock, where there is none. -/
def waitPerm (F : Formats) (key : NamespacedName) (s : WaitState) : Op → Prop
  | .update b => b.key = key ∧ ∀ o, s.world.nms.get key = some o → Matches o b →
      startAnnot o = "" ∧ startAnnot b = F.format s.call.reading ∧ waitTimeout b = waitTimeout o
  | .statusUpdate b => b.key = key
  | e => e.part = .nothing

/-- What a call relies on. -/
structure WaitRely (s s' : WaitState) : Prop where
  history : ∀ v ∈ s.world.history, v ∈ s'.world.history
  revision : s.world.revision ≤ s'.world.revision
  clock : s.clock ≤ s'.clock
  started : s'.started = s.started
  call : s'.call = s.call

section Calls
variable {F : Formats} {key : NamespacedName} {T : Int} {s s' : WaitState} {e : Op} {a : Resp e} {t : Nat}

/-- Without a start on record, none is stored. -/
lemma WaitInv.storedStart_of_not_started (h : WaitInv F key T s) (hs : s.started = none) :
    storedStart key s.world = "" := by
  cases ho : s.world.nms.get key with
  | none => exact storedStart_of_none ho
  | some o =>
    rw [storedStart_of_get ho, h.start ho, hs]
    rfl

/-- What a call makes of the stored object, if the start annotation is not written. -/
lemma KeepsWait.of_perform (h : Perform .current e s.world a s'.world) (he : ∀ b, e ≠ .update b) :
    KeepsWait key s.world s'.world := by
  intro o' ho'
  rcases h.stored ho' with hk | ⟨o, ho, hrw⟩
  · exact ⟨o', hk, rfl, rfl⟩
  · cases hrw with
    | @update b _ _ => exact absurd rfl (he b)
    | @statusUpdate b _ => exact ⟨o, ho, rfl, rfl⟩

/-- Then the record of the start stays as it is. -/
lemma noteStart_of_keeps (h : KeepsWait key s.world s'.world) :
    noteStart key s s'.world = s.started := by
  refine if_neg ?_
  rintro ⟨hnone, hsome⟩
  cases ho' : s'.world.nms.get key with
  | none => exact hsome (storedStart_of_none ho')
  | some o' =>
    obtain ⟨o, ho, hstart, -⟩ := h o' ho'
    rw [storedStart_of_get ho', hstart, ← storedStart_of_get ho] at hsome
    exact hsome hnone

/-- The times stay in order. -/
lemma WaitInv.note (h : WaitInv F key T s) (hclock : s.clock ≤ s'.clock) :
    (s.call.note s.world s'.clock e a).calledAt ≤ (s.call.note s.world s'.clock e a).reading ∧
      (s.call.note s.world s'.clock e a).reading ≤ s'.clock := by
  have hc := h.calledAt
  have hr := Nat.le_trans h.reading hclock
  cases e with
  | getNodeMaintenance => exact ⟨Nat.le_refl _, Nat.le_refl _⟩
  | now => exact ⟨Nat.le_trans hc hr, Nat.le_refl _⟩
  | listPods n sel =>
    cases a with
    | ok pods => exact ⟨hc, hr⟩
    | error err => exact ⟨hc, hr⟩
  | _ => exact ⟨hc, hr⟩

/-- A permitted update that has its effect stores the start. -/
lemma WaitInv.update {b o' : NodeMaintenance} (h : WaitInv F key T s) (hp : waitPerm F key s (.update b))
    {a : Resp (.update b)} (hperf : Perform .current (.update b) s.world a s'.world)
    (ho' : s'.world.nms.get key = some o') :
    s'.world = s.world ∨ waitTimeout o' = some T ∧ startAnnot o' = F.format s.call.reading ∧
      s.started = none := by
  rcases WriteAnswer.effect hperf with hsame | ⟨x, heff⟩
  · exact .inl hsame
  · obtain ⟨o, spec, ho, hm, hspec, -, rfl, hw⟩ := World.update_eq_some heff
    obtain rfl := putSpec_eq hspec
    rw [hp.1] at ho
    obtain ⟨hnone, hstart, htimeout⟩ := hp.2 o ho hm
    rw [hw] at ho'
    rcases World.get_write ho' with ⟨ne, -⟩ | ⟨-, -, rfl⟩
    · exact absurd (hp.1.symm.trans hm.1.symm) ne
    · refine .inr ⟨htimeout.trans (h.timeout ho), hstart, ?_⟩
      cases hs : s.started with
      | none => rfl
      | some t =>
        have := h.start ho
        rw [hnone, hs] at this
        exact absurd this.symm (F.format_ne t)

/-- A permitted call keeps the invariant. -/
lemma WaitInv.call (h : WaitInv F key T s) (hp : waitPerm F key s e)
    (hexec : (podWaits F key).exec () e s a s') : WaitInv F key T s' := by
  obtain ⟨hperf, hclock, -, hcall, hstarted⟩ := hexec
  have hnote := h.note hclock (e := e) (a := a)
  rw [← hcall] at hnote
  have hkeeps : ∀ (hk : KeepsWait key s.world s'.world), WaitInv F key T s' := by
    intro hk
    refine ⟨hperf.consistent h.consistent, hperf.written.not_gone h.not_gone, fun {o'} ho' => ?_,
      fun {o'} ho' => ?_, hnote.1, hnote.2⟩
    · obtain ⟨o, ho, -, ht⟩ := hk o' ho'
      exact ht.trans (h.timeout ho)
    · obtain ⟨o, ho, hstart, -⟩ := hk o' ho'
      rw [hstarted, noteStart_of_keeps hk]
      exact hstart.trans (h.start ho)
  -- only a whole-object update can write the start time
  by_cases he : ∃ b, e = .update b
  · obtain ⟨b, rfl⟩ := he
    cases ho' : s'.world.nms.get key with
    | none => exact hkeeps fun o' ho => by rw [ho'] at ho; cases ho
    | some o' =>
      rcases h.update hp hperf ho' with hsame | ⟨htimeout, hstart, hnone⟩
      · exact hkeeps fun o' ho => ⟨o', hsame ▸ ho, rfl, rfl⟩
      · have hrec : s'.started = some s.call.reading := by
          rw [hstarted, noteStart, if_pos]
          refine ⟨h.storedStart_of_not_started hnone, ?_⟩
          rw [storedStart_of_get ho', hstart]
          exact F.format_ne _
        refine ⟨hperf.consistent h.consistent, hperf.written.not_gone h.not_gone, fun {o} ho => ?_,
          fun {o} ho => ?_, hnote.1, hnote.2⟩
        · obtain rfl : o' = o := Option.some.inj (ho'.symm.trans ho)
          exact htimeout
        · obtain rfl : o' = o := Option.some.inj (ho'.symm.trans ho)
          rw [hstart, hrec]
          rfl
  · exact hkeeps (.of_perform hperf fun b hb => he ⟨b, hb⟩)

/-- Moves of the others keep the invariant. -/
lemma WaitInv.env (h : WaitInv F key T s) (hw : s'.world = s.world ∨ Happens s.world s'.world)
    (hk : KeepsWait key s.world s'.world) (hr : WaitRely s s') : WaitInv F key T s' := by
  have hcons : Consistent s'.world := by
    rcases hw with hsame | hh
    · rw [hsame]
      exact h.consistent
    · exact hh.consistent h.consistent
  have hwritten : Written s.world s'.world := by
    rcases hw with hsame | hh
    · exact .inl ⟨by rw [hsame], by rw [hsame]⟩
    · exact hh.written
  refine ⟨hcons, hwritten.not_gone h.not_gone, fun {o'} ho' => ?_, fun {o'} ho' => ?_, ?_, ?_⟩
  · obtain ⟨o, ho, -, ht⟩ := hk o' ho'
    exact ht.trans (h.timeout ho)
  · obtain ⟨o, ho, hstart, -⟩ := hk o' ho'
    rw [hr.started]
    exact hstart.trans (h.start ho)
  · rw [hr.call]
    exact h.calledAt
  · rw [hr.call]
    exact Nat.le_trans h.reading hr.clock

end Calls

/-- What a call may rely on while the others move. -/
lemma WaitRely.of_env {F : Formats} {key : NamespacedName} {s' : WaitState} {c : Config Unit Op Resp WaitState
    (Except Err (Option (NodeMaintenance × Except Err (List String))))}
    (h : (podWaits F key).env c s') : WaitRely c.state s' := by
  obtain ⟨hw, -, hclock, hcall, hstarted⟩ := h
  rcases hw with hsame | hh
  · exact ⟨fun v hv => by rwa [hsame], Nat.le_of_eq (by rw [hsame]), hclock, hstarted, hcall⟩
  · exact ⟨hh.history_subset, hh.written.revision_le, hclock, hstarted, hcall⟩

/-- The proof plan. -/
def waiting (F : Formats) (key : NamespacedName) (T : Int) : Discipline (podWaits F key) where
  inv := WaitInv F key T
  perm _ := waitPerm F key
  rely _ := WaitRely
  inv_call h hp he := h.call hp he
  rely_call ne := absurd rfl ne
  inv_env h he := h.env he.1 he.2.1 (.of_env he)
  rely_env _ _ he := .of_env he

namespace PodWait
variable {F : Formats} {key : NamespacedName} {T : Int} {m nm b : NodeMaintenance} {x : Option Nat}
  {t₀ startTime : Nat} {C : Nat → Prop}

/-- A call holds this version, and the start on record is this one. -/
structure Holding (key : NamespacedName) (m : NodeMaintenance) (x : Option Nat) (s : WaitState) : Prop where
  key : m.key = key
  version : m ∈ s.world.history
  started : s.started = x

lemma Holding.rely {s s' : WaitState} (hr : WaitRely s s') (h : Holding key m x s) : Holding key m x s' :=
  ⟨h.key, hr.history m h.version, hr.started.trans h.started⟩

lemma stable_holding : (waiting F key T).Stable () (Holding key m x) := fun _ _ _ _ hr h => h.rely hr

lemma stable_calledAt : (waiting F key T).Stable () fun s => C s.call.calledAt := by
  intro s s' _ _ hr h
  rw [hr.call]
  exact h

/-- A call that changes nothing leaves the start on record as it is. -/
lemma Holding.read {s s' : WaitState} {e : Op} {a : Resp e} (he : e.part = .nothing)
    (hexec : (podWaits F key).exec () e s a s') (h : Holding key m x s) : Holding key m x s' := by
  obtain ⟨hperf, -, -, -, hstarted⟩ := hexec
  have hf := hperf.frame
  rw [he] at hf
  refine ⟨h.key, hperf.history_subset m h.version, ?_⟩
  rw [hstarted, noteStart_of_keeps fun o' ho' => ⟨o', hf.eq ▸ ho', rfl, rfl⟩]
  exact h.started

/-- The pods of a successful call were listed in it, and recorded after that. -/
structure PodsRecorded (key : NamespacedName) (nm : NodeMaintenance) (pods : List String) (s : WaitState)
    (l : PodListing) (spec : WaitForPodCompletionSpec) : Prop where
  asked : nm.spec.waitForPodCompletion = some spec
  listing : s.call.listing = some l
  nodeName : l.nodeName = nm.spec.nodeName
  selector : l.selector = spec.podSelector
  answer : pods = l.pods.map NamespacedName.toStr
  name : nm.key = key
  version : nm ∈ s.world.history
  recorded : nm.status.waitForCompletion = pods
  after : l.revision < nm.resourceVersion

/-- What a call returns: no timeout too early, a timeout if it comes late, and otherwise the pods. -/
structure Done (key : NamespacedName) (T : Int) (nm : NodeMaintenance) (r : Except Err (List String))
    (s : WaitState) : Prop where
  early : ∀ err, r = .error err → err.is .errPodCompletionTimeout = true →
    0 < T ∧ ∃ t₀, s.started = some t₀ ∧ t₀ + T.toNat * second < s.clock + second
  late : ∀ t₀, s.started = some t₀ → 0 < T → t₀ + T.toNat * second < s.call.calledAt →
    r = .error .errPodCompletionTimeout
  pods : ∀ pods, r = .ok pods → ∃ l spec, PodsRecorded key nm pods s l spec

lemma Done.rely {r : Except Err (List String)} {s s' : WaitState} (hr : WaitRely s s')
    (h : Done key T nm r s) : Done key T nm r s' := by
  refine ⟨fun err he hto => ?_, fun t₀ hs => ?_, fun pods hp => ?_⟩
  · obtain ⟨hT, t₀, hs, hlt⟩ := h.early err he hto
    have := hr.clock
    exact ⟨hT, t₀, hr.started.trans hs, by omega⟩
  · rw [hr.call]
    exact h.late t₀ (hr.started.symm.trans hs)
  · obtain ⟨l, spec, hrec⟩ := h.pods pods hp
    exact ⟨l, spec, { hrec with listing := hr.call ▸ hrec.listing, version := hr.history _ hrec.version }⟩

lemma stable_done {r : Except Err (List String)} : (waiting F key T).Stable () (Done key T nm r) :=
  fun _ _ _ _ hr h => h.rely hr

/-- An error of the server, where the call is not late. -/
lemma Done.of_error {err : Err} {s : WaitState} (he : err.is .errPodCompletionTimeout = false)
    (hlate : ∀ t₀, s.started = some t₀ → 0 < T → s.call.calledAt ≤ t₀ + T.toNat * second) :
    Done key T nm (.error err) s := by
  refine ⟨fun e heq hto => ?_, fun t₀ hs hT hlt => ?_, nofun⟩
  · cases heq
    rw [he] at hto
    cases hto
  · have := hlate t₀ hs hT
    omega

/-- The clock was just read. -/
structure Timed (key : NamespacedName) (m : NodeMaintenance) (x : Option Nat) (now : Nat) (s : WaitState) :
    Prop where
  holding : Holding key m x s
  reading : s.call.reading = now
  calledAt : s.call.calledAt ≤ now
  clock : now ≤ s.clock

lemma Timed.rely {now : Nat} {s s' : WaitState} (hr : WaitRely s s') (h : Timed key m x now s) :
    Timed key m x now s' := by
  refine ⟨h.holding.rely hr, ?_, ?_, Nat.le_trans h.clock hr.clock⟩
  · rw [hr.call]
    exact h.reading
  · rw [hr.call]
    exact h.calledAt

lemma stable_timed {now : Nat} : (waiting F key T).Stable () (Timed key m x now) :=
  fun _ _ _ _ hr h => h.rely hr

lemma timeNow_triple :
    (waiting F key T).TripleOk () (Holding key m x) timeNow fun now s => Timed key m x now s := by
  refine TripleX.lift (Triple.lift stable_holding (fun now => stable_timed) (fun _ _ _ => rfl) ?_)
  rintro s now s' hinv hinv' hh hexec
  have hans : now = s'.clock := hexec.2.2.1
  have hreading : s'.call.reading = s'.clock := by rw [hexec.2.2.2.1]; rfl
  have hcalled := hinv'.calledAt
  rw [hreading, ← hans] at hcalled
  exact ⟨hh.read rfl hexec, hreading.trans hans.symm, hcalled, Nat.le_of_eq hans⟩

/-- The expiry check: the start in hand is the one on record, up to a second. -/
lemma waitExpired_triple {spec : WaitForPodCompletionSpec} (hT : spec.timeoutSecond = T)
    (hle : startTime ≤ t₀) (hlt : t₀ < startTime + second) :
    (waiting F key T).TripleOk () (Holding key m (some t₀)) (waitExpired spec startTime) fun expired s =>
      Holding key m (some t₀) s ∧
        (expired = true → 0 < T ∧ t₀ + T.toNat * second < s.clock + second) ∧
        (expired = false → 0 < T → s.call.calledAt ≤ t₀ + T.toNat * second) := by
  unfold waitExpired
  rw [hT]
  split
  · rename_i hpos
    refine timeNow_triple.bind fun now => TripleX.pure stable_timed fun s _ h => ?_
    have hclock := h.clock
    have hcalled := h.calledAt
    refine ⟨h.holding, fun hexp => ⟨hpos, ?_⟩, fun hexp _ => ?_⟩
    · have hgt : now > startTime + T.toNat * second := of_decide_eq_true hexp
      omega
    · have hngt : ¬ now > startTime + T.toNat * second := of_decide_eq_false hexp
      omega
  · rename_i hpos
    exact TripleX.pure stable_holding fun s _ h => ⟨h, nofun, fun _ h => absurd h hpos⟩

/-- The listing of the pods; `C` is what is known of the time of the call. -/
lemma listPods_triple {n sel : String} :
    (waiting F key T).TripleOk () (fun s => Holding key m x s ∧ C s.call.calledAt)
      (observe (Client.listPods n sel)) fun res s => Holding key m x s ∧ C s.call.calledAt ∧
        (∀ err, res = .error err → err.fromServer = true) ∧
        ∀ pods, res = .ok pods → ∃ l, s.call.listing = some l ∧ l.nodeName = n ∧ l.selector = sel ∧
          l.pods = pods ∧ l.revision ≤ s.world.revision := by
  refine TripleX.lift (Triple.lift (stable_holding.and stable_calledAt) (fun res s s' hi hi' hr h => ?_)
    (fun _ _ _ => rfl) ?_)
  · refine ⟨h.1.rely hr, stable_calledAt s s' hi hi' hr h.2.1, h.2.2.1, fun pods hp => ?_⟩
    obtain ⟨l, hl, hn, hsel, hpods, hrev⟩ := h.2.2.2 pods hp
    exact ⟨l, hr.call ▸ hl, hn, hsel, hpods, Nat.le_trans hrev hr.revision⟩
  · rintro s res s' - - ⟨hh, hC⟩ hexec
    have hcall : s'.call = s.call.list s.world n sel res := hexec.2.2.2.1
    have hans : s'.world = s.world ∧ ReadAnswer (fun _ => True) True res := hexec.1
    cases res with
    | ok pods =>
      refine ⟨hh.read rfl hexec, by rw [hcall]; exact hC, nofun, ?_⟩
      rintro _ ⟨⟩
      exact ⟨_, by rw [hcall]; rfl, rfl, rfl, rfl, Nat.le_of_eq (by rw [hans.1])⟩
    | error err =>
      refine ⟨hh.read rfl hexec, by rw [hcall]; exact hC, ?_, nofun⟩
      rintro _ ⟨⟩
      exact hans.2.1

/-- The status update; `C` is what is known of the record of the call. -/
lemma statusUpdate_triple {C : WaitCall → Prop} {rev : Nat} (hb : Matches b m) :
    (waiting F key T).TripleOk ()
      (fun s => Holding key m x s ∧ C s.call ∧ rev ≤ s.world.revision)
      (observe (Client.statusUpdate b)) fun res s => s.started = x ∧ C s.call ∧
        (∀ err, res = .error err → err.fromServer = true) ∧
        ∀ nm, res = .ok nm → nm.key = key ∧ nm ∈ s.world.history ∧ nm.spec = m.spec ∧
          nm.status = b.status ∧ rev < nm.resourceVersion := by
  have hC : (waiting F key T).Stable () fun s => C s.call := by
    intro s s' _ _ hr h
    rw [hr.call]
    exact h
  refine TripleX.lift (Triple.lift ?_ (fun res s s' hi hi' hr h => ?_) ?_ ?_)
  · exact stable_holding.and (hC.and fun s s' _ _ hr h => Nat.le_trans h hr.revision)
  · refine ⟨hr.started.trans h.1, hC s s' hi hi' hr h.2.1, h.2.2.1, fun nm hnm => ?_⟩
    obtain ⟨hkey, hver, hrest⟩ := h.2.2.2 nm hnm
    exact ⟨hkey, hr.history nm hver, hrest⟩
  · exact fun s _ h => hb.1.trans h.1.key
  · rintro s res s' hinv - ⟨hh, hCs, hrev⟩ hexec
    obtain ⟨hperf, -, -, hcall, hstarted⟩ := hexec
    have hcall : s'.call = s.call := hcall
    have hkeeps : KeepsWait key s.world s'.world := .of_perform hperf (by simp)
    refine ⟨?_, by rw [hcall]; exact hCs, ?_, ?_⟩
    · rw [hstarted, noteStart_of_keeps hkeeps]
      exact hh.started
    · rintro err rfl
      exact WriteAnswer.fromServer hperf
    · rintro nm rfl
      obtain ⟨o, ho, hmat, rfl, hw⟩ := World.statusUpdate_eq_some (WriteAnswer.ok hperf)
      obtain rfl : o = m := hinv.consistent.eq_of_version ho hh.version (hmat.2.2.trans hb.2.2)
      refine ⟨hh.key, ?_, rfl, rfl, Nat.lt_succ_of_le hrev⟩
      rw [hw]
      exact .head _

/-- Known of a call that is not late. -/
def OnTime (T : Int) (t₀ calledAt : Nat) : Prop := 0 < T → calledAt ≤ t₀ + T.toNat * second

/-- An error of the server in a call that is not late. -/
lemma Done.onTime {err : Err} {s : WaitState} (he : err.is .errPodCompletionTimeout = false)
    (hs : s.started = some t₀) (hC : OnTime T t₀ s.call.calledAt) : Done key T nm (.error err) s := by
  refine Done.of_error he fun t hs' hpos => ?_
  obtain rfl : t₀ = t := Option.some.inj (hs.symm.trans hs')
  exact hC hpos

/-- The pods of a listing, recorded in a call that is not late. -/
lemma Done.of_recorded {s : WaitState} {l : PodListing} {spec : WaitForPodCompletionSpec}
    (hs : s.started = some t₀) (hC : OnTime T t₀ s.call.calledAt)
    (hpods : PodsRecorded key nm (l.pods.map NamespacedName.toStr) s l spec) :
    Done key T nm (.ok (l.pods.map NamespacedName.toStr)) s := by
  refine ⟨nofun, fun t hs' hpos hlate => ?_, ?_⟩
  · obtain rfl : t₀ = t := Option.some.inj (hs.symm.trans hs')
    have := hC hpos
    omega
  · rintro _ ⟨⟩
    exact ⟨l, spec, hpods⟩

lemma done_triple {r : Except Err (List String)} :
    (waiting F key T).TripleOk () (Done key T nm r) (pure (nm, r) : Action _) fun res s =>
      Done key T res.1 res.2 s :=
  TripleX.pure stable_done fun _ _ h => h

/-- The wait once the start is known, in whole seconds or to the nanosecond. -/
lemma waitForPods_triple (hT : waitTimeout m = some T) (hle : startTime ≤ t₀)
    (hlt : t₀ < startTime + second) :
    (waiting F key T).TripleOk () (Holding key m (some t₀)) (waitForPods F m startTime) fun res s =>
      Done key T res.1 res.2 s := by
  unfold waitForPods
  cases hspec : m.spec.waitForPodCompletion with
  | none => simp [waitTimeout, hspec] at hT
  | some spec =>
    have hTs : spec.timeoutSecond = T := by simpa [waitTimeout, hspec] using hT
    refine (waitExpired_triple hTs hle hlt).bind fun expired => ?_
    cases expired with
    | true =>
      refine done_triple.pre fun s _ h => ?_
      exact ⟨fun _ _ _ => ⟨(h.2.1 rfl).1, t₀, h.1.started, (h.2.1 rfl).2⟩, fun _ _ _ _ => rfl, nofun⟩
    | false =>
      -- the listing is reached only by a call that is not late
      refine TripleX.pre (B := fun s => Holding key m (some t₀) s ∧ OnTime T t₀ s.call.calledAt) ?_
        fun s _ h => ⟨h.1, h.2.2 rfl⟩
      simp only [Bool.false_eq_true, if_false]
      split
      · refine TripleOk.bind listPods_triple fun res => ?_
        cases res with
        | error err =>
          refine done_triple.pre fun s _ h => Done.onTime ?_ h.1.started h.2.1
          simpa [Err.is] using Err.is_timeout_of_fromServer (h.2.2.1 err rfl)
        | ok pods =>
          refine TripleX.pre (B := fun s => ∃ l : PodListing, (l.nodeName = m.spec.nodeName ∧
            l.selector = spec.podSelector ∧ l.pods = pods) ∧ Holding key m (some t₀) s ∧
            (OnTime T t₀ s.call.calledAt ∧ s.call.listing = some l) ∧ l.revision ≤ s.world.revision)
            (Triple.of_exists fun l => TripleX.of_pure fun hl => ?_) ?_
          · obtain ⟨hnode, hsel, rfl⟩ := hl
            refine TripleOk.bind (statusUpdate_triple
              (C := fun call => OnTime T t₀ call.calledAt ∧ call.listing = some l) ⟨rfl, rfl, rfl⟩)
              fun res => ?_
            cases res with
            | error err =>
              refine done_triple.pre fun s _ h => Done.onTime ?_ h.1 h.2.1.1
              simpa [Err.is] using Err.is_timeout_of_fromServer (h.2.2.1 err rfl)
            | ok nm =>
              refine done_triple.pre fun s _ h => ?_
              obtain ⟨hstarted, ⟨honTime, hlisting⟩, -, hnm⟩ := h
              obtain ⟨hkey, hver, hspecs, hstatus, hrev⟩ := hnm nm rfl
              exact Done.of_recorded hstarted honTime ⟨by rw [hspecs, hspec], hlisting,
                by rw [hspecs, hnode], hsel, rfl, hkey, hver, by rw [hstatus], hrev⟩
          · rintro s - ⟨hh, hC, -, hres⟩
            obtain ⟨l, hlisting, hn, hsel, hpods, hrev⟩ := hres pods rfl
            exact ⟨l, ⟨hn, hsel, hpods⟩, hh, ⟨hC, hlisting⟩, hrev⟩
      · exact done_triple.pre fun s _ h => Done.onTime rfl h.1.started h.2

/-- The object that a call stores when it begins the wait. -/
def begun (F : Formats) (m : NodeMaintenance) (now : Nat) : NodeMaintenance :=
  { m with annotations := m.annotations.set waitForPodCompletionStartAnnot (F.format now) }

lemma startAnnot_begun {now : Nat} : startAnnot (begun F m now) = F.format now := by
  simp [startAnnot, begun, GoMap.get?_set_self]

/-- The update that begins the wait: it is stored with the time that was just read, if at all. -/
lemma update_triple {now : Nat} (hT : waitTimeout m = some T) (hstart : startAnnot m = "") :
    (waiting F key T).TripleOk () (Timed key m none now) (observe (Client.update (begun F m now)))
      fun res s => (∀ err, res = .error err → err.fromServer = true ∧
          ∀ t₀, s.started = some t₀ → s.call.calledAt ≤ t₀) ∧
        ∀ nm, res = .ok nm → waitTimeout nm = some T ∧ Holding key nm (some now) s := by
  refine TripleX.lift (Triple.lift stable_timed (fun res s s' hi hi' hr h => ?_) ?_ ?_)
  · refine ⟨fun err he => ⟨(h.1 err he).1, ?_⟩, fun nm hnm => ⟨(h.2 nm hnm).1, (h.2 nm hnm).2.rely hr⟩⟩
    rw [hr.started, hr.call]
    exact (h.1 err he).2
  · intro s hinv h
    refine ⟨h.holding.key, fun o ho hm => ?_⟩
    obtain rfl : o = m := hinv.consistent.eq_of_version ho h.holding.version hm.2.2
    exact ⟨hstart, by rw [startAnnot_begun, h.reading], rfl⟩
  · rintro s res s' hinv - h ⟨hperf, -, -, hcall, hstarted⟩
    have hcall : s'.call = s.call := hcall
    refine ⟨?_, ?_⟩
    · rintro err rfl
      refine ⟨WriteAnswer.fromServer hperf, fun t₀ hs => ?_⟩
      rw [hstarted, noteStart] at hs
      split at hs
      · rw [hcall, ← Option.some.inj hs, h.reading]
        exact h.calledAt
      · rw [h.holding.started] at hs
        cases hs
    · rintro nm rfl
      obtain ⟨o, spec, ho, hmat, hspec, -, rfl, hw⟩ := World.update_eq_some (WriteAnswer.ok hperf)
      obtain rfl := putSpec_eq hspec
      have hkey : (begun F m now).key = key := h.holding.key
      rw [hkey] at ho
      obtain rfl : o = m := hinv.consistent.eq_of_version ho h.holding.version hmat.2.2
      -- the finalizers are those of the stored object, so the new version is stored
      have hold : o.gone = false := hinv.not_gone ho
      have hgone : (s.world.merge o (begun F o now) (begun F o now).spec.normalize).gone = false := hold
      have ho' : s'.world.nms.get key =
          some (s.world.stamp (s.world.merge o (begun F o now) (begun F o now).spec.normalize)) := by
        rw [hw, ← h.holding.key]
        exact (World.get_write_self _ _).trans (by rw [hgone]; rfl)
      refine ⟨hT, h.holding.key, by rw [hw]; exact .head _, ?_⟩
      rw [hstarted, noteStart, if_pos, h.reading]
      refine ⟨(storedStart_of_get ho).trans hstart, ?_⟩
      rw [storedStart_of_get ho']
      exact fun e => F.format_ne now (startAnnot_begun.symm.trans e)

/-- The whole handler, on an object that was read when this start was on record. -/
lemma handlePodCompletion_triple (hT : waitTimeout m = some T)
    (hm : startAnnot m = (x.map F.format).getD "") :
    (waiting F key T).TripleOk () (Holding key m x) (handlePodCompletion F m) fun res s =>
      Done key T res.1 res.2 s := by
  have hannot : (m.annotations.get? waitForPodCompletionStartAnnot).getD "" =
    (x.map F.format).getD "" := hm
  unfold handlePodCompletion
  rw [hannot]
  cases x with
  | none =>
    rw [if_pos (by rfl)]
    refine timeNow_triple.bind fun now => TripleOk.bind (update_triple hT hm) fun res => ?_
    cases res with
    | error err =>
      refine done_triple.pre fun s _ h => ?_
      obtain ⟨herr, hle⟩ := h.1 err rfl
      refine Done.of_error (Err.is_timeout_of_fromServer herr) fun t₀ hs _ => ?_
      have := hle t₀ hs
      omega
    | ok nm =>
      refine Triple.assume (fun s _ h => (h.2 nm rfl).1) fun hT' => ?_
      have hlt : now < now + second := Nat.lt_add_of_pos_right (by decide)
      exact (waitForPods_triple hT' (Nat.le_refl now) hlt).pre fun s _ h => (h.2 nm rfl).2
  | some t₀ =>
    have hne : F.format t₀ ≠ "" := F.format_ne t₀
    simp only [Option.map_some, Option.getD_some, hne, if_false, F.parse_format]
    refine waitForPods_triple hT (Nat.div_mul_le_self t₀ second) ?_
    have hmod := Nat.mod_lt t₀ (show second > 0 by decide)
    have hdiv := Nat.div_add_mod' t₀ second
    omega

/-- One call. -/
theorem waitRound_triple :
    (waiting F key T).TripleOk () (fun _ => True) (waitRound F key) fun out s =>
      ∀ nm r, out = some (nm, r) → Done key T nm r s := by
  have hget : (waiting F key T).TripleOk () (fun _ => True) (observe (Client.getNodeMaintenance key))
      fun res s => ∀ m, res = .ok m → ∃ x, (waitTimeout m = some T ∧
        startAnnot m = (x.map F.format).getD "") ∧ Holding key m x s := by
    refine TripleX.lift (Triple.lift (Stable.const _) (fun res s s' hi hi' hr h m hm => ?_)
      (fun _ _ _ => rfl) ?_)
    · obtain ⟨x, hx, hh⟩ := h m hm
      exact ⟨x, hx, hh.rely hr⟩
    · rintro s res s' hinv hinv' - hexec m rfl
      have hread : s'.world = s.world ∧ s.world.nms.get key = some m := hexec.1
      -- reads are current, so the start time in hand is the one that was noted
      have ho : s'.world.nms.get key = some m := by rw [hread.1]; exact hread.2
      exact ⟨s'.started, ⟨hinv'.timeout ho, hinv'.start ho⟩, Store.key_of_get ho,
        hinv'.consistent.stored ho, rfl⟩
  refine hget.bind fun res => ?_
  cases res with
  | error err =>
    refine TripleX.pre (B := fun _ => True) (TripleX.pure (Stable.const _) ?_) fun _ _ _ => trivial
    intro s _ _ nm r he
    cases he
  | ok m =>
    refine TripleX.pre (Triple.of_exists fun x => TripleX.of_pure fun hx => ?_) fun s _ h => h m rfl
    refine (handlePodCompletion_triple hx.1 hx.2).bind fun res => ?_
    refine TripleX.pure stable_done fun s _ h nm r he => ?_
    cases he
    exact h

end PodWait

/-! ### Runs -/

/-- An object that waits for pods with this timeout, before the wait has begun. -/
structure BeforeWait (key : NamespacedName) (T : Int) (w : World) (o : NodeMaintenance) : Prop where
  consistent : Consistent w
  stored : w.nms.get key = some o
  not_gone : o.gone = false
  timeout : waitTimeout o = some T
  start : startAnnot o = ""

section Runs
variable {F : Formats} {key : NamespacedName} {T : Int} {w₀ : World} {o₀ : NodeMaintenance} {t : Nat}
  {c c' : Config Unit Op Resp WaitState (Except Err (Option (NodeMaintenance × Except Err (List String))))}

/-- What holds along a run, and of what a call returns. -/
abbrev WaitOk (F : Formats) (key : NamespacedName) (T : Int)
    (c : Config Unit Op Resp WaitState (Except Err (Option (NodeMaintenance × Except Err (List String))))) :
    Prop :=
  (waiting F key T).OkWith (fun _ res s => ∃ out, res = .ok out ∧
    ∀ nm r, out = some (nm, r) → PodWait.Done key T nm r s) c

lemma WaitOk.step (h : WaitOk F key T c) (st : (podWaits F key).Step c c') : WaitOk F key T c' := by
  refine OkWith.step ?_ h st
  rintro _ _ rfl
  exact PodWait.waitRound_triple.returns

lemma BeforeWait.ok (h : BeforeWait key T w₀ o₀) (run : (podWaits F key).Run (betweenWaits w₀ t) c) :
    WaitOk F key T c := by
  have hstored : ∀ {o}, w₀.nms.get key = some o → o = o₀ := fun ho =>
    Option.some.inj (ho.symm.trans h.stored)
  refine soundWith ?_ (c := betweenWaits w₀ t) ⟨⟨h.consistent, fun {o} ho => ?_, fun {o} ho => ?_,
    fun {o} ho => ?_, Nat.le_refl _, Nat.le_refl _⟩, nofun⟩ run
  · rintro _ _ rfl
    exact PodWait.waitRound_triple.returns
  · rw [hstored ho]
    exact h.not_gone
  · rw [hstored ho]
    exact h.timeout
  · rw [hstored ho]
    exact h.start

/-- The start on record stays. -/
lemma WaitOk.started_step (h : WaitOk F key T c) (st : (podWaits F key).Step c c') {t₀ : Nat}
    (hs : c.state.started = some t₀) : c'.state.started = some t₀ := by
  rcases h.step_cases st with hsame | henv | ⟨_, e, a, -, hperf, -, -, -, hstarted⟩
  · rw [hsame]
    exact hs
  · exact henv.2.2.2.2.trans hs
  · rw [hstarted, noteStart, if_neg]
    · exact hs
    · rintro ⟨hnone, hsome⟩
      cases ho' : c'.state.world.nms.get key with
      | none => exact hsome (storedStart_of_none ho')
      | some o' =>
        have hold : ∃ o, c.state.world.nms.get key = some o := by
          rcases hperf.stored ho' with hk | ⟨o, ho, -⟩
          · exact ⟨o', hk⟩
          · exact ⟨o, ho⟩
        obtain ⟨o, ho⟩ := hold
        rw [storedStart_of_get ho, h.1.start ho, hs] at hnone
        exact F.format_ne t₀ hnone

lemma WaitOk.started_run (h : WaitOk F key T c) (run : (podWaits F key).Run c c') {t₀ : Nat}
    (hs : c.state.started = some t₀) : WaitOk F key T c' ∧ c'.state.started = some t₀ := by
  induction run with
  | refl => exact ⟨h, hs⟩
  | tail _ st ih => exact ⟨ih.1.step st, ih.1.started_step st ih.2⟩

/-- The stored start is that of the call whose update was persisted, and it stays. No call returns the
timeout up to a second before it is due, every call that comes after it does, and none without a
timeout in the spec. A call returns a list of pods only if it has listed and recorded them. -/
theorem podCompletion_clock (h : BeforeWait key T w₀ o₀)
    (run : (podWaits F key).Run (betweenWaits w₀ t) c) :
    (c.state.started = none → ∀ o, c.state.world.nms.get key = some o → startAnnot o = "") ∧
    (∀ t₀, c.state.started = some t₀ →
      (∀ o, c.state.world.nms.get key = some o → startAnnot o = F.format t₀) ∧
      ∀ c', (podWaits F key).Run c c' → c'.state.started = some t₀) ∧
    ∀ res, c.threads () = some (.ret res) → ∃ out, res = .ok out ∧
      ∀ nm r, out = some (nm, r) → PodWait.Done key T nm r c.state := by
  have hok := h.ok run
  refine ⟨fun hs o ho => ?_, fun t₀ hs => ⟨fun o ho => ?_, fun c' run' => ?_⟩, fun res hret => ?_⟩
  · rw [hok.1.start ho, hs]
    rfl
  · rw [hok.1.start ho, hs]
    rfl
  · exact (hok.started_run run' hs).2
  · exact hok.returned hret

end Runs

/-! ### Computed runs -/

/-- A server that is up, and a clock. -/
def World.serveAt (w : World) (clock : Nat) : (e : Op) → Option (Resp e × World)
  | .now => some (clock, w)
  | e => w.serve e

lemma World.spec_of_serveAt {w w' : World} {clock : Nat} {e : Op} {a : Resp e}
    (h : w.serveAt clock e = some (a, w')) : Perform .current e w a w' ∧ ClockAnswer clock e a := by
  cases e with
  | now =>
    cases h
    exact ⟨rfl, rfl⟩
  | _ => exact ⟨World.perform_of_serve h, trivial⟩

/-- A player that calls the handler; its events let time pass. -/
def waitPlayer (key : NamespacedName) : Player (podWaits strokeFormats key) Nat where
  program _ := some (waitRound strokeFormats key).run
  body h := (Option.some.inj h).symm
  answer _ e s := (s.world.serveAt s.clock e).map fun aw =>
    (aw.1, ⟨aw.2, s.clock, noteStart key s aw.2, s.call.note s.world s.clock e aw.1⟩)
  exec h := by
    obtain ⟨aw, hserve, heq⟩ := Option.map_eq_some_iff.mp h
    cases heq
    obtain ⟨hperf, hclock⟩ := World.spec_of_serveAt hserve
    exact ⟨hperf, Nat.le_refl _, hclock, rfl, rfl⟩
  event n s := some { s with clock := s.clock + n }
  env h := by
    cases h
    exact ⟨.inl rfl, fun o' ho' => ⟨o', ho', rfl, rfl⟩, Nat.le_add_right _ _, rfl, rfl⟩

/-- An object that is to wait for pods for two seconds. -/
def waitingMaintenance : NodeMaintenance :=
  { drainedMaintenance "nm" with
    spec := { (drainedMaintenance "nm").spec with waitForPodCompletion := some ⟨"", 2⟩ } }

/-- The last call has returned the timeout. -/
def timedOut (c : Config Unit Op Resp WaitState
    (Except Err (Option (NodeMaintenance × Except Err (List String))))) : Bool :=
  match c.threads () with
  | some (.ret (.ok (some (_, .error .errPodCompletionTimeout)))) => true
  | _ => false

/-- A wait that begins at half past a second ends before its two seconds are over. -/
theorem podCompletion_clock_half_second :
    BeforeWait ⟨"default", "nm"⟩ 2 (World.empty.write waitingMaintenance)
      (World.empty.stamp waitingMaintenance) ∧
    ∃ c, (podWaits strokeFormats ⟨"default", "nm"⟩).Run
        (betweenWaits (World.empty.write waitingMaintenance) 1500000000) c ∧
      timedOut c = true ∧ c.state.clock = 3100000000 ∧ c.state.started = some 1500000000 ∧
      1500000000 + 2 * second < c.state.clock + second := by
  have h : BeforeWait ⟨"default", "nm"⟩ 2 (World.empty.write waitingMaintenance)
      (World.empty.stamp waitingMaintenance) :=
    ⟨Consistent.write Consistent.empty fun _ hv => (nomatch hv), by decide, by decide, by decide,
      by decide⟩
  obtain ⟨c, run, hc⟩ := (waitPlayer ⟨"default", "nm"⟩).exists_run_of_play
    [.start (), .finish () 10, .event 1600000000, .start (), .calls () 2]
    (betweenWaits (World.empty.write waitingMaintenance) 1500000000)
    (fun c => timedOut c && decide (c.state.clock = 3100000000) &&
      decide (c.state.started = some 1500000000)) (by decide +kernel)
  simp only [Bool.and_eq_true, decide_eq_true_eq] at hc
  obtain ⟨⟨hout, hclock⟩, hstarted⟩ := hc
  refine ⟨h, c, run, hout, hclock, hstarted, ?_⟩
  unfold timedOut at hout
  split at hout
  · rename_i nm hret
    obtain ⟨out, hres, hdone⟩ := (podCompletion_clock h run).2.2 _ hret
    cases hres
    obtain ⟨-, t₀, hs, hlt⟩ := (hdone nm _ rfl).early _ rfl rfl
    obtain rfl : 1500000000 = t₀ := Option.some.inj (hstarted.symm.trans hs)
    simpa using hlt
  · cases hout

end MaintenanceOperator
