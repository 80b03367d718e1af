import MaintenanceOperator.Operator.Player
import MaintenanceOperator.Operator.Reconciler
import MaintenanceOperator.Operator.Scheduling

/-!
# Safety of the operator

What the invariant says about whole runs: at most one maintenance is under way on each node, the Ready
condition passes through its phases in order and only when they are done, the finalizer guards objects
under maintenance, and the drain manager holds requests only for objects that are draining.
-/

namespace MaintenanceOperator
open Lib Drain Discipline

/-- The operator has just been started on a cluster with a past: its versions belong together, phases
never went back, and there are no drain requests yet. -/
structure Started (s : OperatorState) : Prop where
  consistent : Consistent s.world
  names : ∀ v ∈ s.world.history, v.key.Valid
  monotone : ∀ v ∈ s.world.history, ∀ v' ∈ s.world.history, v.uid = v'.uid →
    v.resourceVersion ≤ v'.resourceVersion → phase v ≤ phase v'
  drainRequests : s.world.drainRequests = []

/-- The UID belongs to an object that existed before the operator was started. -/
def Old (s : OperatorState) (u : String) : Prop := ∃ v ∈ s.world.history, v.uid = u

lemma started_empty : Started emptyState where
  consistent := .empty
  names := fun _ h => (nomatch h)
  monotone := fun _ h => (nomatch h)
  drainRequests := rfl

lemma not_old_empty (u : String) : ¬ Old emptyState u := fun ⟨_, h, _⟩ => nomatch h

section Runs
variable {r : Reconciler} {sorter : Sorter Scheduler.compareRanked} {s : OperatorState}
  {c c' : Config Worker Op Resp OperatorState (Except Err Result)}

/-- Every body that a worker may start keeps to its permissions. -/
lemma body_triple (σ : Scope) (i : Worker) (p : Proc (Except Err Result))
    (h : (operator r sorter).body i p) :
    (discipline σ r sorter).Triple i (fun _ => True) p fun _ _ => True := by
  cases i with
  | reconciler key =>
    obtain rfl := h
    exact Triple.conseq reconcile_triple (fun _ _ h => h) fun _ _ _ _ => trivial
  | scheduler =>
    obtain ⟨o, rfl⟩ := h
    exact Triple.conseq scheduler_triple (fun _ _ h => h) fun _ _ _ _ => trivial

/-- The invariant at the start, where nothing is known about the objects of the past. -/
lemma Started.inv (h : Started s) {exclusive : Prop}
    (hone : exclusive → ∀ {k o k' o'}, s.world.nms.get k = some o → s.world.nms.get k' = some o' →
      2 ≤ phase o → 2 ≤ phase o' → o.spec.nodeName = o'.spec.nodeName → k = k')
    (hwritten : exclusive → ∀ {k o}, s.world.nms.get k = some o → 2 ≤ phase o →
      ∃ v ∈ s.written, v ∈ s.world.history ∧ v.uid = o.uid ∧ 2 ≤ phase v) :
    Inv ⟨Old s, exclusive⟩ s where
  consistent := h.consistent
  names hv := h.names _ hv
  monotone hv hv' := h.monotone _ hv _ hv'
  ready ho hx := absurd ⟨_, h.consistent.stored ho, rfl⟩ hx
  guarded ho hx := absurd ⟨_, h.consistent.stored ho, rfl⟩ hx
  entries he := by
    rw [h.drainRequests] at he
    cases he
  requests he := by
    rw [h.drainRequests] at he
    cases he
  exclusive := hone
  written := hwritten

/-- The invariant and the permissions along a run. -/
lemma Inv.ok {σ : Scope} (h : Inv σ s) (run : (operator r sorter).Run (idle s) c) :
    (discipline σ r sorter).Ok c :=
  sound (c := idle s) (body_triple σ) ⟨h, fun _ _ hp => by cases hp⟩ run

/-- The same from the start of the operator, leaving out what the maintenances have to do with each
other. -/
lemma Started.ok (h : Started s) (run : (operator r sorter).Run (idle s) c) :
    (discipline ⟨Old s, False⟩ r sorter).Ok c :=
  (h.inv False.elim False.elim).ok run

/-! ### One maintenance per node -/

/-- What is under maintenance was put there by the scheduler. -/
def ScheduledByUs (s : OperatorState) : Prop :=
  ∀ k o, s.world.nms.get k = some o → isUnderMaintenance o = true →
    ∃ v ∈ s.written, v ∈ s.world.history ∧ v.uid = o.uid ∧ isUnderMaintenance v = true

/-- At most one maintenance is under way on each node, in every state of every run. -/
theorem one_maintenance_per_node (h : Started s) (hone : OnePerNode s.world) (hours : ScheduledByUs s)
    (run : (operator r sorter).Run (idle s) c) : OnePerNode c.state.world := by
  have hinv : Inv ⟨Old s, True⟩ s := by
    refine h.inv (fun _ => ?_) fun _ => ?_
    · intro k o k' o' ho ho' h₂ h₂'
      exact hone k o k' o' ho ho' ((isUnderMaintenance_iff o).mpr h₂)
        ((isUnderMaintenance_iff o').mpr h₂')
    · intro k o ho h₂
      obtain ⟨v, hv, hh, hu, hv₂⟩ := hours k o ho ((isUnderMaintenance_iff o).mpr h₂)
      exact ⟨v, hv, hh, hu, (isUnderMaintenance_iff v).mp hv₂⟩
  intro k o k' o' ho ho' h₂ h₂'
  exact (hinv.ok run).1.exclusive trivial ho ho' ((isUnderMaintenance_iff o).mp h₂)
    ((isUnderMaintenance_iff o').mp h₂')

/-- Two objects on one node: when one of them is in phase Cordon, the other is still pending. -/
theorem one_maintenance_per_node_of_two :
    ∃ c, strokeOperator.Run (idle emptyState) c ∧
      (c.state.world.nms.items.map getReadyConditionReason).Perm [.cordon, .pending] ∧
      OnePerNode c.state.world := by
  obtain ⟨c, run, hc⟩ := Player.exists_run_of_play player
    ([.event (.nodes [firstNode]), .event (.create (drainedMaintenance "nm")),
      .event (.create (drainedMaintenance "nm2"))] ++ fullReconcile (reconcilerOf "nm") ++
      fullReconcile (reconcilerOf "nm2") ++ fullReconcile .scheduler ++
      fullReconcile (reconcilerOf "nm") ++ fullReconcile .scheduler) (idle emptyState)
    (fun c => c.state.world.nms.items.map getReadyConditionReason = [.cordon, .pending]) (by decide +kernel)
  refine ⟨c, run, .of_eq (by simpa using hc), one_maintenance_per_node started_empty ?_ ?_ run⟩
  · exact fun _ _ _ _ h => nomatch h
  · exact fun _ _ h => nomatch h

/-! ### The phases -/

/-- What a step of the system may do to the Ready reason of an object. -/
structure GatedStep (w : World) (o o' : NodeMaintenance) : Prop where
  advance : getReadyConditionReason o' = getReadyConditionReason o ∨
    Advance (getReadyConditionReason o) (getReadyConditionReason o')
  drained : getReadyConditionReason o = .draining → getReadyConditionReason o' = .ready →
    o'.spec.drainSpec = none ∨ Drained w o'
  waited : getReadyConditionReason o = .waitForPodCompletion →
    getReadyConditionReason o' = .draining → o'.spec.waitForPodCompletion = none ∨ Waited w o

/-- A step that leaves the reason alone. -/
lemma GatedStep.of_same {w : World} {o o' : NodeMaintenance}
    (h : getReadyConditionReason o' = getReadyConditionReason o) : GatedStep w o o' where
  advance := .inl h
  drained hd hr := by rw [h, hd] at hr; cases hr
  waited hd hr := by rw [h, hd] at hr; cases hr

/-- A status update that a reconciler may make. -/
lemma StatusOk.gated {w : World} {o b : NodeMaintenance} (h : StatusOk w o b) (w' : World) :
    GatedStep w o (w'.mergeStatus o b) where
  advance := h.advance.imp id And.left
  drained := h.drained
  waited := h.waited

/-- A status update that the scheduler may make. -/
lemma ScheduleOk.gated {σ : Scope} {w : World} {o b : NodeMaintenance} (h : ScheduleOk σ w o b)
    (w' : World) : GatedStep w o (w'.mergeStatus o b) := by
  have hb : getReadyConditionReason (w'.mergeStatus o b) = .scheduled := h.scheduled
  have hw := h.waiting
  refine ⟨.inr ?_, ?_, ?_⟩
  · rw [hb]
    unfold phase at hw
    cases hr : getReadyConditionReason o with
    | uninitialized => exact .skipPending
    | pending => exact .toScheduled
    | _ => simp [hr, Reason.order] at hw
  · intro _ hr
    rw [hb] at hr
    cases hr
  · intro _ hr
    rw [hb] at hr
    cases hr

/-- Where the stored object did not change, its reason did not. -/
lemma GatedStep.of_eq {w : World} {k : NamespacedName} {o o' : NodeMaintenance}
    {nms nms' : Store NodeMaintenance NodeMaintenance.key} (hn : nms' = nms)
    (ho : nms.get k = some o) (ho' : nms'.get k = some o') : GatedStep w o o' := by
  rw [hn, ho] at ho'
  cases ho'
  exact .of_same rfl

/-- A write that does to the reason what it may. -/
lemma GatedStep.of_write {w w' : World} {k : NamespacedName} {o o' a b : NodeMaintenance}
    (hw : w' = w.write b) (hb : w.nms.get b.key = some a) (h : GatedStep w a b)
    (ho : w.nms.get k = some o) (ho' : w'.nms.get k = some o') : GatedStep w o o' := by
  rw [hw] at ho'
  rcases World.get_write ho' with ⟨-, hk⟩ | ⟨rfl, -, rfl⟩
  · exact .of_eq rfl ho hk
  · obtain rfl : o = a := Option.some.inj (ho.symm.trans hb)
    exact ⟨h.advance, h.drained, h.waited⟩

/-- What one step of the system does to the reason of an object that exists before and after. -/
lemma gated_step {σ : Scope} (hok : (discipline σ r sorter).Ok c) (st : (operator r sorter).Step c c')
    {k : NamespacedName} {o o' : NodeMaintenance} (ho : c.state.world.nms.get k = some o)
    (ho' : c'.state.world.nms.get k = some o') : GatedStep c.state.world o o' := by
  rcases hok.step_cases st with hs | henv | ⟨i, e, a, hperm, hexec⟩
  · rw [hs, ho] at ho'
    cases ho'
    exact .of_same rfl
  · rcases henv.1.nmsCases with ⟨hn, -, -⟩ | ⟨b, hfree, -, -, -, hw⟩ |
      ⟨a, b, ha, -, -, hready, -, -, hw⟩
    · exact .of_eq hn ho ho'
    · -- a new object is stored under a name that was free
      rw [hw] at ho'
      rcases World.get_write ho' with ⟨-, hk⟩ | ⟨rfl, -, rfl⟩
      · exact .of_eq rfl ho hk
      · rw [hfree] at ho
        cases ho
    · exact .of_write hw ha (.of_same (reason_congr hready)) ho ho'
  · have hperf : Perform .cached e c.state.world a c'.state.world := by cases i <;> exact hexec.1
    have heff := hperf.nmsEffect
    generalize c'.state.world = w' at heff ho'
    cases heff with
    | same hn _ _ => exact .of_eq hn ho ho'
    | @update _ b o₁ spec ho₁ hm _ _ =>
      have hkey : (c.state.world.merge o₁ b spec).key = b.key := hm.1
      have hgate : GatedStep c.state.world o₁ (c.state.world.merge o₁ b spec) := .of_same rfl
      exact .of_write rfl (hkey ▸ ho₁) hgate ho ho'
    | @statusUpdate _ b o₁ ho₁ hm =>
      have hkey : (c.state.world.mergeStatus o₁ b).key = b.key := hm.1
      have hgate : GatedStep c.state.world o₁ (c.state.world.mergeStatus o₁ b) := by
        cases i with
        | scheduler => exact (hperm o₁ ho₁ hm).gated _
        | reconciler key =>
          obtain ⟨rfl, hp⟩ := hperm
          exact (hp o₁ ho₁ hm).gated _
      exact .of_write rfl (hkey ▸ ho₁) hgate ho ho'

/-- Versions of the past stay in the history. -/
lemma history_subset {σ : Scope} (hok : (discipline σ r sorter).Ok c)
    (st : (operator r sorter).Step c c') : ∀ v ∈ c.state.world.history, v ∈ c'.state.world.history := by
  rcases hok.step_cases st with hs | henv | ⟨i, e, a, -, hexec⟩
  · exact fun v hv => hs ▸ hv
  · exact henv.1.history_subset
  · have hperf : Perform .cached e c.state.world a c'.state.world := by cases i <;> exact hexec.1
    exact hperf.history_subset

/-- The Ready condition of an object is true exactly in phase Ready; its reason goes through the phases
one by one and never back; it becomes Ready only without a drain spec or after a successful drain with
it, and Draining only without a wait or after the wait is over. -/
theorem ready_gate (h : Started s) (run : (operator r sorter).Run (idle s) c) :
    (∀ k o, c.state.world.nms.get k = some o → ¬ Old s o.uid → ReadyStatusOk o) ∧
    (∀ c', (operator r sorter).Step c c' → ∀ k o o', c.state.world.nms.get k = some o →
      c'.state.world.nms.get k = some o' → GatedStep c.state.world o o') ∧
    ∀ c', (operator r sorter).Run c c' → ∀ k o o', c.state.world.nms.get k = some o →
      c'.state.world.nms.get k = some o' → o'.uid = o.uid → phase o ≤ phase o' := by
  have hok := h.ok run
  refine ⟨fun k o ho hnew => hok.1.ready ho hnew, fun c' st k o o' ho ho' => ?_, ?_⟩
  · exact gated_step hok st ho ho'
  · intro c' run' k o o' ho ho' huid
    have hinv' := (sound (body_triple _) hok run').1
    have hmem : o ∈ c'.state.world.history := by
      -- a version once stored stays in the history
      clear hinv' ho'
      induction run' with
      | refl => exact hok.1.consistent.stored ho
      | tail run'' st ih => exact history_subset (sound (body_triple _) hok run'') st o ih
    exact hinv'.monotone hmem (hinv'.consistent.stored ho') huid.symm
      (hinv'.consistent.latest ho' hmem huid.symm)

/-- An object with a drain spec whose drain has succeeded becomes Ready, through the gate. -/
theorem ready_gate_of_drained :
    ∃ c, strokeOperator.Run (idle emptyState) c ∧
      (∃ o, c.state.world.nms.get ⟨"default", "nm"⟩ = some o ∧ getReadyConditionReason o = .ready) ∧
      ∀ k o, c.state.world.nms.get k = some o → ReadyStatusOk o := by
  obtain ⟨c, run, hc⟩ := Player.exists_run_of_play player
    (toDraining ++ [.event (.drained 0)] ++ fullReconcile (reconcilerOf "nm")) (idle emptyState)
    (fun c => (c.state.world.nms.get ⟨"default", "nm"⟩).any
      fun o => getReadyConditionReason o = .ready) (by decide +kernel)
  obtain ⟨o, ho, hr⟩ := (Option.any_eq_true _ _).mp hc
  refine ⟨c, run, ⟨o, ho, by simpa using hr⟩, fun k o ho => ?_⟩
  exact (ready_gate started_empty run).1 k o ho (not_old_empty _)

/-! ### The finalizer -/

/-- The finalizer is on the object if it is in a phase with something to clean up, it is not being
deleted and its node exists. -/
def FinalizerGuards (w : World) (o : NodeMaintenance) : Prop :=
  getReadyConditionReason o ∈
      [.cordon, .waitForPodCompletion, .draining, .ready, .requestorFailed] →
    o.deleting = false → (w.nodes.get o.spec.nodeName).isSome = true → Guarded o

instance (w : World) (o : NodeMaintenance) : Decidable (FinalizerGuards w o) :=
  inferInstanceAs (Decidable (_ → _))

/-- No reconcile has taken the node-not-found branch for this object in phase Cordon or later. -/
def NodeNeverMissed (w : World) (k : NamespacedName) (u : String) : Prop :=
  ∀ n, .nodeNotFound n ∈ w.notes → n.key = k → n.uid = u → phase n < 3

/-- The finalizer guards every object under maintenance whose node no reconcile has missed. -/
theorem finalizer_guards_maintenance (h : Started s) (run : (operator r sorter).Run (idle s) c)
    {k : NamespacedName} {o : NodeMaintenance} (ho : c.state.world.nms.get k = some o)
    (hnew : ¬ Old s o.uid) (hnode : NodeNeverMissed c.state.world k o.uid) :
    FinalizerGuards c.state.world o := by
  intro hreason hdel _
  have h₃ : 3 ≤ phase o := by
    simp only [List.mem_cons, List.not_mem_nil, or_false] at hreason
    rcases hreason with e | e | e | e | e <;> rw [phase_of_reason e] <;> decide
  rcases (h.ok run).1.guarded ho hnew h₃ hdel with hg | ⟨n, hn, hk, hu, hn₃, -⟩
  · exact hg
  · have := hnode n hn (hk.trans (Store.key_of_get ho)) hu
    omega

/-- An object in phase Cordon whose node has always been there carries the finalizer. -/
theorem finalizer_guards_cordon :
    ∃ c o, strokeOperator.Run (idle emptyState) c ∧
      c.state.world.nms.get ⟨"default", "nm"⟩ = some o ∧ getReadyConditionReason o = .cordon ∧
      FinalizerGuards c.state.world o := by
  obtain ⟨c, run, hc⟩ := Player.exists_run_of_play player
    toCordon (idle emptyState)
    (fun c => c.state.world.notes.isEmpty && (c.state.world.nms.get ⟨"default", "nm"⟩).any
      fun o => getReadyConditionReason o = .cordon) (by decide +kernel)
  simp only [Bool.and_eq_true, List.isEmpty_iff, Option.any_eq_true, decide_eq_true_eq] at hc
  obtain ⟨hnotes, o, ho, hr⟩ := hc
  refine ⟨c, o, run, ho, hr, finalizer_guards_maintenance started_empty run ho (not_old_empty _) ?_⟩
  intro n hn
  rw [hnotes] at hn
  cases hn

/-- The node of an object in phase Cordon is deleted and re-created: a reconcile in between takes the
finalizer off, and nothing puts it on again. -/
theorem finalizer_lost_with_node :
    Started emptyState ∧
      ∃ c o, strokeOperator.Run (idle emptyState) c ∧
        c.state.world.nms.get ⟨"default", "nm"⟩ = some o ∧ ¬ FinalizerGuards c.state.world o := by
  obtain ⟨c, run, hc⟩ := Player.exists_run_of_play player
    (toCordon ++ [.event (.nodes [])] ++ fullReconcile (reconcilerOf "nm") ++
      [.event (.nodes [firstNode])]) (idle emptyState)
    (fun c => (c.state.world.nms.get ⟨"default", "nm"⟩).any
      fun o => ¬ FinalizerGuards c.state.world o) (by decide +kernel)
  obtain ⟨o, ho, hr⟩ := (Option.any_eq_true _ _).mp hc
  exact ⟨started_empty, c, o, run, ho, by simpa using hr⟩

/-! ### The drain manager -/

/-- The drain manager holds no request for the object with this name and UID, unless the stored object
is that object, draining and with the finalizer on. -/
def NoLeakedDrain (w : World) (k : NamespacedName) (u : String) : Prop :=
  (∀ o, w.nms.get k = some o → o.uid = u → getReadyConditionReason o = .draining → ¬ Guarded o) →
    w.drainRequests.get? (drainRequestUID k u) = none

/-- No reconcile has taken the node-not-found branch for this object in a phase from Cordon to
Draining. -/
def NodeNotMissedInDrain (w : World) (k : NamespacedName) (u : String) : Prop :=
  ∀ n, .nodeNotFound n ∈ w.notes → n.key = k → n.uid = u → ¬ (3 ≤ phase n ∧ phase n ≤ 5)

/-- No drain request outlives the draining of its object, unless a reconcile has missed the node. -/
theorem no_leaked_drain (h : Started s) (run : (operator r sorter).Run (idle s) c)
    {k : NamespacedName} {u : String} (hk : k.Valid) (hnew : ¬ Old s u)
    (hnode : NodeNotMissedInDrain c.state.world k u) : NoLeakedDrain c.state.world k u := by
  intro hgone
  have hinv := (h.ok run).1
  cases he : c.state.world.drainRequests.get? (drainRequestUID k u) with
  | none => rfl
  | some id =>
    exfalso
    rcases hinv.entries he with ⟨k', o, ho, huid, hd, hg⟩ | ⟨n, hn, hval, huid, hphase⟩ |
      ⟨k', u', hval, hx, huid⟩
    · have hval := hinv.names (hinv.consistent.stored ho)
      -- the entry is of this very object, which is stored in phase Draining
      obtain ⟨rfl, rfl⟩ := drainRequestUID_injective hk hval huid
      obtain rfl := Store.key_of_get ho
      exact hgone o ho rfl hd hg
    -- or its node was missed
    · obtain ⟨rfl, rfl⟩ := drainRequestUID_injective hk hval huid
      exact hnode n hn rfl rfl hphase
    -- or it was there before the operator started
    · obtain ⟨-, rfl⟩ := drainRequestUID_injective hk hval huid
      exact hnew hx

/-- Once the object is Ready, its request is gone. -/
theorem no_leaked_drain_when_ready :
    ∃ c, strokeOperator.Run (idle emptyState) c ∧
      (∃ o, c.state.world.nms.get ⟨"default", "nm"⟩ = some o ∧ getReadyConditionReason o = .ready) ∧
      NoLeakedDrain c.state.world ⟨"default", "nm"⟩ "nm" := by
  obtain ⟨c, run, hc⟩ := Player.exists_run_of_play player
    (toDraining ++ [.event (.drained 0)] ++ fullReconcile (reconcilerOf "nm")) (idle emptyState)
    (fun c => c.state.world.notes.isEmpty && (c.state.world.nms.get ⟨"default", "nm"⟩).any
      fun o => getReadyConditionReason o = .ready) (by decide +kernel)
  simp only [Bool.and_eq_true, List.isEmpty_iff, Option.any_eq_true, decide_eq_true_eq] at hc
  obtain ⟨hnotes, o, ho, hr⟩ := hc
  refine ⟨c, run, ⟨o, ho, hr⟩, no_leaked_drain started_empty run (by decide) (not_old_empty _) ?_⟩
  intro n hn
  rw [hnotes] at hn
  cases hn

/-- The node of a draining object is deleted: the reconcile that finds it missing takes the finalizer
off and returns, and the drain manager still holds the request. -/
theorem drain_leaked_with_node :
    Started emptyState ∧
      ∃ c, strokeOperator.Run (idle emptyState) c ∧
        (c.threads (reconcilerOf "nm")).isNone = true ∧
        (c.state.world.nms.get ⟨"default", "nm"⟩).all (fun o => ¬ Guarded o) = true ∧
        ¬ NoLeakedDrain c.state.world ⟨"default", "nm"⟩ "nm" := by
  obtain ⟨c, run, hc⟩ := Player.exists_run_of_play player
    (toDraining ++ [.event (.nodes [])] ++ fullReconcile (reconcilerOf "nm")) (idle emptyState)
    (fun c => (c.threads (reconcilerOf "nm")).isNone &&
      (c.state.world.nms.get ⟨"default", "nm"⟩).all (fun o => ¬ Guarded o) &&
      (c.state.world.drainRequests.get? (drainRequestUID ⟨"default", "nm"⟩ "nm")).isSome) (by decide +kernel)
  simp only [Bool.and_eq_true] at hc
  obtain ⟨⟨hidle, hguard⟩, hheld⟩ := hc
  refine ⟨started_empty, c, run, hidle, hguard, fun hleak => ?_⟩
  have hnone := hleak fun o ho _ _ hg => by simp [ho, hg] at hguard
  simp [hnone] at hheld

end Runs
end MaintenanceOperator
