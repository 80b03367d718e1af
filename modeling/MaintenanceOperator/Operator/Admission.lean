import MaintenanceOperator.Controller.Calls
import MaintenanceOperator.Lib.Refine
import MaintenanceOperator.Operator.Restart

/-!
# Admission of NodeMaintenances

Port of `internal/webhook/nodemaintenance_webhook.go`, with the API server on the other side: a request to
create an object is stored once the webhook has let it pass. The webhook asks the cache that the
reconcilers ask: the two share the client of the manager. So a node that the cache does not lose again is
there whenever a reconcile looks for it, and the node-not-found branch, which drops the finalizer without
cleaning up, is never taken for an object on it. What holds of an object unless its node was missed then
holds without exception.
-/

namespace MaintenanceOperator
open Lib Drain Discipline Reconciler

/-- Go `NodeMaintenanceWebhook`, with Go `Error()` of what its client returns. -/
structure NodeMaintenanceWebhook where
  errorText : Err → String

/-- Go `ValidateCreate`. -/
def NodeMaintenanceWebhook.validateCreate (r : NodeMaintenanceWebhook) (nm : NodeMaintenance) :
    Action Unit := do
  match ← observe (Client.getNode nm.spec.nodeName) with
  | .error err =>
    -- `%s`: the text of the error, not the error
    throw (.other ("invalid spec.nodeName, failed to get node " ++ nm.spec.nodeName ++
      " for NodeMaintenance. " ++ r.errorText err))
  | .ok _ => return ()

/-- What the API server does with a request that was admitted. -/
inductive ServerOp where
  | create (nm : NodeMaintenance)

/-- Answers of the store. -/
abbrev ServerResp (_ : ServerOp) : Type := Option Err

/-- A request to create an object; the failure policy of the webhook is to fail. -/
def createRequest (webhook : NodeMaintenanceWebhook) (nm : NodeMaintenance) :
    ExceptT Err (Prog (Op ⊕ ServerOp) (Sum.elim Resp ServerResp)) Result := do
  ExceptT.mk (webhook.validateCreate nm).run.shown
  match ← ExceptT.lift (Prog.call (.inr (.create nm)) .ret) with
  | some err => throw err
  | none => return .zero

/-- The cluster, and the names of the nodes in the cache of the manager. -/
structure AdmissionState where
  cluster : OperatorState
  cachedNodes : Finset String

/-- Nodes are looked up in the cache. -/
def NodeAnswer (cachedNodes : Finset String) : (e : Op) → Resp e → Prop
  | .getNode name, r => (∀ node, r = .ok node → name ∈ cachedNodes) ∧
      (r = .error .notFound → name ∉ cachedNodes)
  | _, _ => True

/-- The server gives the object its identity, and stores it with the spec that was sent. -/
def CreateAnswer (w : World) (nm : NodeMaintenance) (r : Option Err) (w' : World) : Prop :=
  (r.isSome = true ∧ w' = w) ∨
    ∃ o, o.key = nm.key ∧ o.spec = nm.spec ∧ w.nms.get o.key = none ∧ (∀ v ∈ w.history, v.uid ≠ o.uid) ∧
      o.key.Valid ∧ o.deletionTimestamp = none ∧ o.status = ⟨[], [], none⟩ ∧ w' = w.write o

/-- Calls that reach the cluster: of the workers, and of the webhook. -/
def admissionExec : Worker ⊕ Nat → (e : Op) → OperatorState → Resp e → OperatorState → Prop
  | .inl i, e, s, r, s' => operatorExec i e s r s'
  | .inr _, e, s, r, s' => Perform .cached e s.world r s'.world ∧ s'.written = s.written

/-- No object was created in between. -/
def NoCreation (w w' : World) : Prop := ∀ v ∈ w'.history, ∃ v₀ ∈ w.history, v₀.uid = v.uid

/-- Events of the cluster other than creations, and of the cache, which does not lose certain nodes. -/
inductive AdmissionEvent (kept : String → Prop) (s : AdmissionState) : AdmissionState → Prop where
  | cluster {w'} : Event s.cluster.world w' → NoCreation s.cluster.world w' →
      AdmissionEvent kept s { s with cluster := { s.cluster with world := w' } }
  | cache (cachedNodes : Finset String) : (∀ n, kept n → n ∈ s.cachedNodes → n ∈ cachedNodes) →
      AdmissionEvent kept s { s with cachedNodes }

/-- The operator, and the requests to create objects, with what the cache keeps. -/
structure AdmissionSetup where
  reconciler : Reconciler
  sorter : Sorter Scheduler.compareRanked
  webhook : NodeMaintenanceWebhook
  kept : String → Prop

/-- The operator with its webhook at work. -/
def admission (U : AdmissionSetup) :
    System (Worker ⊕ Nat) (Op ⊕ ServerOp) (Sum.elim Resp ServerResp) AdmissionState (Except Err Result) where
  exec
    | i, .inl e, s, r, s' => ∃ cluster, admissionExec i e s.cluster r cluster ∧
        NodeAnswer s.cachedNodes e r ∧ s' = { s with cluster }
    | _, .inr (.create nm), s, r, s' => ∃ w', CreateAnswer s.cluster.world nm r w' ∧
        s' = { s with cluster := { s.cluster with world := w' } }
  env c := AdmissionEvent U.kept c.state
  body
    | .inl (.reconciler key), p => p = (U.reconciler.reconcile key).run.shown
    | .inl .scheduler, p => ∃ o, p = (Scheduler.reconcile U.sorter o).run.shown
    | .inr _, p => ∃ nm, p = (createRequest U.webhook nm).run

/-! ### The invariant -/

/-- Objects that came through the webhook are on nodes in the cache, as far as the cache keeps its nodes, and
no reconcile has missed such a node. -/
structure Admitted (old kept : String → Prop) (s : AdmissionState) : Prop where
  consistent : Consistent s.cluster.world
  cached : ∀ {v}, v ∈ s.cluster.world.history → ¬ old v.uid → kept v.spec.nodeName →
    v.spec.nodeName ∈ s.cachedNodes
  missed : ∀ {n}, .nodeNotFound n ∈ s.cluster.world.notes →
    n ∈ s.cluster.world.history ∧ (old n.uid ∨ ¬ kept n.spec.nodeName)

/-- Which calls are in order. -/
def admissionPerm (old kept : String → Prop) : Worker ⊕ Nat → AdmissionState → Op ⊕ ServerOp → Prop
  | .inl _, s, .inl (.trace (.nodeNotFound n)) =>
      n ∈ s.cluster.world.history ∧ (old n.uid ∨ ¬ kept n.spec.nodeName)
  | .inl _, _, .inl _ => True
  | .inl _, _, .inr _ => False
  | .inr _, _, .inl e => e.part = .nothing
  | .inr _, s, .inr (.create nm) => kept nm.spec.nodeName → nm.spec.nodeName ∈ s.cachedNodes

/-- What every thread can rely upon. -/
structure AdmissionRely (kept : String → Prop) (s s' : AdmissionState) : Prop where
  history : ∀ v ∈ s.cluster.world.history, v ∈ s'.cluster.world.history
  cache : ∀ n, kept n → n ∈ s.cachedNodes → n ∈ s'.cachedNodes

section Moves
variable {old kept : String → Prop} {s s' : AdmissionState} {w w' : World} {mode : ReadMode} {e : Op}
  {a : Resp e}

/-- Calls do not create objects. -/
lemma Perform.noCreation (h : Perform mode e w a w') (hw : Consistent w) : NoCreation w w' := by
  intro v hv
  cases h.nmsEffect with
  | same _ hh _ => exact ⟨v, hh ▸ hv, rfl⟩
  | @update _ b o spec ho hm _ _ =>
    rcases List.mem_cons.mp hv with rfl | hv
    · exact ⟨o, hw.stored ho, rfl⟩
    · exact ⟨v, hv, rfl⟩
  | @statusUpdate _ b o ho hm =>
    rcases List.mem_cons.mp hv with rfl | hv
    · exact ⟨o, hw.stored ho, rfl⟩
    · exact ⟨v, hv, rfl⟩

/-- Notes come from traces. -/
lemma Perform.note_cases (h : Perform mode e w a w') {n : Note} (hn : n ∈ w'.notes) :
    n ∈ w.notes ∨ e = .trace n := by
  by_cases he : e.part = .notes
  · cases e with
    | trace note =>
      obtain rfl : w' = { w with notes := note :: w.notes } := h
      rcases List.mem_cons.mp hn with rfl | hn
      · exact .inr rfl
      · exact .inl hn
    | _ => cases he
  · rw [h.frame.notes he] at hn
    exact .inl hn

/-- Without creations, and with no node missed, the invariant stays. -/
lemma Admitted.move (h : Admitted old kept s) (hcons : Consistent s'.cluster.world)
    (hnew : NoCreation s.cluster.world s'.cluster.world) (hr : AdmissionRely kept s s')
    (hnotes : ∀ {n}, .nodeNotFound n ∈ s'.cluster.world.notes →
      .nodeNotFound n ∈ s.cluster.world.notes ∨
        n ∈ s.cluster.world.history ∧ (old n.uid ∨ ¬ kept n.spec.nodeName)) : Admitted old kept s' where
  consistent := hcons
  cached {v} hv hold hk := by
    obtain ⟨v₀, hv₀, huid⟩ := hnew v hv
    have hname := (hcons.identity (hr.history v₀ hv₀) hv huid).2
    rw [← hname] at hk ⊢
    exact hr.cache _ hk (h.cached hv₀ (huid ▸ hold) hk)
  missed hn := by
    rcases hnotes hn with hn | ⟨hn, hor⟩
    · exact ⟨hr.history _ (h.missed hn).1, (h.missed hn).2⟩
    · exact ⟨hr.history _ hn, hor⟩

/-- An object on a node in the cache is created. -/
lemma Admitted.create {cluster : OperatorState} {o : NodeMaintenance} (h : Admitted old kept s)
    (hfresh : ∀ v ∈ s.cluster.world.history, v.uid ≠ o.uid)
    (hcached : kept o.spec.nodeName → o.spec.nodeName ∈ s.cachedNodes)
    (hw : cluster.world = s.cluster.world.write o) : Admitted old kept { s with cluster } where
  consistent := by
    change Consistent cluster.world
    rw [hw]
    exact h.consistent.write fun v hv e => absurd e (hfresh v hv)
  cached {v} hv hold hk := by
    change v ∈ cluster.world.history at hv
    rw [hw] at hv
    rcases List.mem_cons.mp hv with rfl | hv
    · exact hcached hk
    · exact h.cached hv hold hk
  missed {n} hn := by
    change .nodeNotFound n ∈ cluster.world.notes at hn
    change n ∈ cluster.world.history ∧ _
    rw [hw] at hn ⊢
    exact ⟨.tail _ (h.missed hn).1, (h.missed hn).2⟩

/-- What a call leaves alone. -/
lemma AdmissionRely.call {U : AdmissionSetup} {i : Worker ⊕ Nat} {e : Op ⊕ ServerOp}
    {a : Sum.elim Resp ServerResp e} (hexec : (admission U).exec i e s a s') : AdmissionRely U.kept s s' := by
  cases e with
  | inl e =>
    obtain ⟨cluster, hexec, -, rfl⟩ := hexec
    refine ⟨?_, fun _ _ hn => hn⟩
    cases i with
    | inl i => cases i <;> exact hexec.1.history_subset
    | inr j => exact hexec.1.history_subset
  | inr e =>
    cases e with
    | create nm =>
      obtain ⟨w', hans, rfl⟩ := hexec
      refine ⟨fun v hv => ?_, fun _ _ hn => hn⟩
      rcases hans with ⟨-, rfl⟩ | ⟨o, -, -, -, -, -, -, -, rfl⟩
      · exact hv
      · exact .tail _ hv

end Moves

/-- The plan of the operator with its webhook. -/
def admitting (old : String → Prop) (U : AdmissionSetup) : Discipline (admission U) where
  inv := Admitted old U.kept
  perm := admissionPerm old U.kept
  rely _ := AdmissionRely U.kept
  inv_call {i s e a s'} hinv hperm hexec := by
    have hrely := AdmissionRely.call hexec
    cases e with
    | inl e =>
      obtain ⟨cluster, hexec, -, rfl⟩ := hexec
      have hperf : Perform .cached e s.cluster.world a cluster.world := by
        cases i with
        | inl i => cases i <;> exact hexec.1
        | inr j => exact hexec.1
      refine hinv.move (hperf.consistent hinv.consistent) (hperf.noCreation hinv.consistent) hrely fun hn => ?_
      refine (hperf.note_cases hn).imp_right ?_
      rintro rfl
      cases i with
      | inl i => exact hperm
      | inr j => cases hperm
    | inr e =>
      cases e with
      | create nm =>
        obtain ⟨w', hans, rfl⟩ := hexec
        cases i with
        | inl i => exact hperm.elim
        | inr j =>
          rcases hans with ⟨-, rfl⟩ | ⟨o, -, hspec, -, hfresh, -, -, -, rfl⟩
          · exact hinv
          · refine hinv.create hfresh ?_ rfl
            rw [hspec]
            exact hperm
  rely_call _ _ _ hexec := .call hexec
  inv_env {c s'} hinv henv := by
    cases henv with
    | cluster hevent hnew =>
      refine hinv.move (hevent.consistent hinv.consistent) hnew ⟨hevent.history_subset, fun _ _ hn => hn⟩ ?_
      intro n hn
      refine .inl ?_
      rw [← hevent.notes]
      exact hn
    | cache cachedNodes hkept =>
      exact ⟨hinv.consistent, fun hv hold hk => hkept _ hk (hinv.cached hv hold hk), hinv.missed⟩
  rely_env _ _ henv := by
    cases henv with
    | cluster hevent _ => exact ⟨hevent.history_subset, fun _ _ hn => hn⟩
    | cache cachedNodes hkept => exact ⟨fun _ hv => hv, hkept⟩

section Bodies
variable {old : String → Prop} {U : AdmissionSetup} {i : Worker} {nm : NodeMaintenance}

lemma admissionPerm_of_everyday {e : Op} (h : e.missesNode = false) {s : AdmissionState} :
    admissionPerm old U.kept (.inl i) s (.inl e) := by
  cases e with
  | trace note =>
    cases note with
    | nodeNotFound nm => cases h
    | _ => trivial
  | _ => trivial

/-- Programs that do not go through the branch. -/
lemma NeverMisses.triple {β : Type} {x : Action β} (h : NeverMisses x) :
    (admitting old U).onVisible.TripleE i (fun _ => True) x fun _ _ => True :=
  TripleE.of_all (Stable.const _) (fun _ _ _ _ he => admissionPerm_of_everyday he)
    (fun _ _ _ _ _ _ _ _ _ => trivial) h

/-- Versions stay in the history. -/
lemma stable_history : (admitting old U).onVisible.Stable i fun s => nm ∈ s.cluster.world.history :=
  fun _ _ _ _ hr h => hr.history nm h

/-- The node of a version that came through the webhook is found, if the cache keeps it. -/
lemma getNode_triple : (admitting old U).onVisible.Triple i (fun s => nm ∈ s.cluster.world.history)
    (issue (.getNode nm.spec.nodeName)) fun res s => nm ∈ s.cluster.world.history ∧
      (res = .error .notFound → old nm.uid ∨ ¬ U.kept nm.spec.nodeName) := by
  refine Triple.lift stable_history (fun _ => stable_history.and (Stable.const _)) (fun _ _ _ => trivial) ?_
  rintro s a s' hinv - hnm ⟨cluster, hexec, hnode, rfl⟩
  refine ⟨(AdmissionRely.call (U := U) (i := .inl i) (e := .inl _) ⟨cluster, hexec, hnode, rfl⟩).history nm hnm, ?_⟩
  intro hmiss
  by_contra hcon
  rw [not_or, not_not] at hcon
  exact hnode.2 hmiss (hinv.cached hnm hcon.1 hcon.2)

/-- The body of a reconciler. -/
lemma admitted_reconcile {key : NamespacedName} : (admitting old U).onVisible.TripleE i (fun _ => True)
    (U.reconciler.reconcile key) fun _ _ => True := by
  have hT : (admitting old U).onVisible.Stable i fun _ => True := Stable.const True
  have hget : (admitting old U).onVisible.Triple i (fun _ => True) (issue (.getNodeMaintenance key))
      fun res s => ∀ nm, res = .ok nm → nm ∈ s.cluster.world.history := by
    refine Triple.lift hT (fun _ => Stable.ok fun _ => stable_history) (fun _ _ _ => trivial) ?_
    rintro s _ s' - - - ⟨cluster, hexec, -, rfl⟩ nm rfl
    have hperf : Perform .cached (.getNodeMaintenance key) s.cluster.world (.ok nm) cluster.world := by
      cases i <;> exact hexec.1
    obtain ⟨hw, hnm⟩ := hperf
    change nm ∈ cluster.world.history
    rw [hw]
    exact hnm.1
  refine TripleE.bind (TripleE.lift hget) fun res => ?_
  cases res with
  | error err =>
    dsimp only
    split
    · exact .pre (.pure hT fun _ _ h => h) fun _ _ _ => trivial
    · exact .throw
  | ok nm =>
    refine .pre (TripleE.bind (TripleE.lift getNode_triple) fun res => ?_) fun s _ h => h nm rfl
    cases res with
    | ok node => exact .pre dispatch_neverMisses.triple fun _ _ _ => trivial
    | error err =>
      dsimp only
      split
      · rename_i hmiss
        have hnote : (admitting old U).onVisible.TripleE i (fun s => nm ∈ s.cluster.world.history ∧
            (Except.error err = (.error .notFound : Except Err Node) →
              old nm.uid ∨ ¬ U.kept nm.spec.nodeName)) (trace (.nodeNotFound nm)) fun _ _ => True := by
          refine TripleE.lift (Triple.lift (stable_history.and (Stable.const _)) (fun _ => hT) ?_
            fun _ _ _ _ _ _ _ => trivial)
          exact fun s _ h => ⟨h.1, h.2 (by rw [hmiss])⟩
        refine TripleE.bind hnote fun _ => TripleE.bind removeFinalizer_neverMisses.triple fun _ => ?_
        exact .pure hT fun _ _ h => h
      · exact .throw

/-- A request is stored if the webhook has found the node in the cache. -/
lemma createRequest_triple {j : Nat} : (admitting old U).Triple (.inr j) (fun _ => True)
    (createRequest U.webhook nm).run fun _ _ => True := by
  have hT : (admitting old U).Stable (.inr j) fun _ => True := Stable.const True
  have hcached : (admitting old U).Stable (.inr j) fun s =>
      U.kept nm.spec.nodeName → nm.spec.nodeName ∈ s.cachedNodes :=
    fun _ _ _ _ hr h hk => hr.cache _ hk (h hk)
  refine Triple.call (B := fun (res : Except Err Node) s => ∀ node, res = .ok node →
    U.kept nm.spec.nodeName → nm.spec.nodeName ∈ s.cachedNodes) hT (fun _ _ _ => rfl) ?_ fun res => ?_
  · rintro s res s' - - - ⟨cluster, -, hnode, rfl⟩ node hres -
    exact hnode.1 node hres
  · cases res with
    | error err => exact .pre (.ret hT fun _ _ _ => trivial) fun _ _ _ => trivial
    | ok node =>
      refine .pre (Triple.call (B := fun _ _ => True) hcached (fun _ _ h => h) (fun _ _ _ _ _ _ _ => trivial)
        fun res => ?_) fun s _ h => h node rfl
      cases res <;> exact .ret hT fun _ _ _ => trivial

/-- Every body keeps to its permissions. -/
lemma admission_body (i : Worker ⊕ Nat) (p : Prog (Op ⊕ ServerOp) (Sum.elim Resp ServerResp) (Except Err Result))
    (h : (admission U).body i p) : (admitting old U).Triple i (fun _ => True) p fun _ _ => True := by
  cases i with
  | inr j =>
    obtain ⟨nm, rfl⟩ := h
    exact createRequest_triple
  | inl i =>
    cases i with
    | reconciler key =>
      obtain rfl := h
      exact Triple.shown (Triple.conseq admitted_reconcile (fun _ _ h => h) fun _ _ _ _ => trivial)
    | scheduler =>
      obtain ⟨o, rfl⟩ := h
      have hround : NeverMisses (Scheduler.reconcile U.sorter o) := scheduler_all everyday_neverMisses
      exact Triple.shown (Triple.conseq hround.triple (fun _ _ h => h) fun _ _ _ _ => trivial)

/-- Without the requests and the cache it is the operator. -/
def admissionView (old : String → Prop) (U : AdmissionSetup) :
    View (admitting old U) (operator U.reconciler U.sorter) where
  see s := s.cluster
  exec := by
    rintro i e s r s' ⟨cluster, hexec, -, rfl⟩
    exact hexec
  hidden hperm _ := hperm.elim
  service {j e s r s'} hperm hexec := by
    cases e with
    | inl e =>
      obtain ⟨cluster, ⟨hperf, hwritten⟩, -, rfl⟩ := hexec
      have hframe := hperf.frame
      rw [show e.part = .nothing from hperm] at hframe
      refine .inl ?_
      change cluster = s.cluster
      obtain ⟨w, written⟩ := cluster
      obtain rfl : w = s.cluster.world := hframe.eq
      obtain rfl : written = s.cluster.written := hwritten
      rfl
    | inr e =>
      cases e with
      | create nm =>
        obtain ⟨w', hans, rfl⟩ := hexec
        rcases hans with ⟨-, rfl⟩ | ⟨o, -, -, hfree, hfresh, hvalid, hdel, hstatus, rfl⟩
        · exact .inl rfl
        · refine .inr fun a ha => ?_
          change Event a.state.world _ ∧ _ = a.state.written
          rw [ha]
          exact ⟨.create hfree hfresh hvalid hdel hstatus, rfl⟩
  env {c s'} henv := by
    cases henv with
    | cluster hevent _ =>
      refine .inr fun a ha => ?_
      change Event a.state.world _ ∧ _ = a.state.written
      rw [ha]
      exact ⟨hevent, rfl⟩
    | cache cachedNodes _ => exact .inl rfl

end Bodies

/-! ### Objects on nodes that stay -/

/-- All threads are idle. -/
def idleAdmission (s : AdmissionState) :
    Config (Worker ⊕ Nat) (Op ⊕ ServerOp) (Sum.elim Resp ServerResp) AdmissionState (Except Err Result) :=
  ⟨s, fun _ => none⟩

section Runs
variable {U : AdmissionSetup} {s : AdmissionState}
  {c : Config (Worker ⊕ Nat) (Op ⊕ ServerOp) (Sum.elim Resp ServerResp) AdmissionState (Except Err Result)}

/-- At the start no node has been missed, and no object has come through the webhook. -/
lemma Started.admitted (h : Started s.cluster) (hnotes : s.cluster.world.notes = []) :
    (admitting (Old s.cluster) U).Ok (idleAdmission s) := by
  refine ⟨⟨h.consistent, ?_, ?_⟩, fun _ _ hp => by cases hp⟩
  · exact fun hv hold => absurd ⟨_, hv, rfl⟩ hold
  · intro n hn
    change .nodeNotFound n ∈ s.cluster.world.notes at hn
    rw [hnotes] at hn
    cases hn

/-- The run as one of the operator. -/
lemma admission_seen (h : (admitting (Old s.cluster) U).Ok (idleAdmission s))
    (run : (admission U).Run (idleAdmission s) c) :
    ∃ a, (operator U.reconciler U.sorter).Run (idle s.cluster) a ∧ a.state = c.state.cluster := by
  have hstart : (admissionView (Old s.cluster) U).Mirrors (idleAdmission s) (idle s.cluster) :=
    ⟨rfl, fun _ => rfl, fun hp => by cases hp⟩
  have hshows : ∀ i p, (admission U).body (.inl i) p →
      (admissionView (Old s.cluster) U).Tells i (fun _ => True) p none := by
    intro i p hp
    cases i with
    | reconciler key =>
      obtain rfl := hp
      exact View.Tells.body rfl
    | scheduler =>
      obtain ⟨o, rfl⟩ := hp
      exact View.Tells.body ⟨o, rfl⟩
  obtain ⟨a, hrun, hmir⟩ := View.run_mirrored admission_body hshows h hstart run
  exact ⟨a, hrun, hmir.state⟩

/-- An object that came through the webhook, on a node that the cache does not lose: its node is in the cache,
no reconcile ever misses it, the finalizer guards the object, and no drain request outlives its draining, all
without exception. -/
theorem kept_node_never_missed (h : Started s.cluster) (hnotes : s.cluster.world.notes = [])
    (run : (admission U).Run (idleAdmission s) c) {v : NodeMaintenance}
    (hv : v ∈ c.state.cluster.world.history) (hnew : ¬ Old s.cluster v.uid) (hkept : U.kept v.spec.nodeName) :
    v.spec.nodeName ∈ c.state.cachedNodes ∧
    (∀ n, .nodeNotFound n ∈ c.state.cluster.world.notes → n.uid ≠ v.uid) ∧
    (∀ o, c.state.cluster.world.nms.get v.key = some o → o.uid = v.uid →
      FinalizerGuards c.state.cluster.world o) ∧
    NoLeakedDrain c.state.cluster.world v.key v.uid := by
  have hstart := h.admitted (U := U) hnotes
  have hadm := (sound admission_body hstart run).1
  obtain ⟨a, hrun, ha⟩ := admission_seen hstart run
  have hinv := (h.ok hrun).1
  rw [ha] at hinv
  have hmissed : ∀ n, .nodeNotFound n ∈ c.state.cluster.world.notes → n.uid ≠ v.uid := by
    intro n hn huid
    obtain ⟨hnh, hor⟩ := hadm.missed hn
    rcases hor with hold | hlost
    · exact hnew (huid ▸ hold)
    · exact hlost ((hadm.consistent.identity hnh hv huid).2 ▸ hkept)
  refine ⟨hadm.cached hv hnew hkept, hmissed, fun o ho huid => ?_, ?_⟩
  · refine hinv.finalizerGuards ho (huid ▸ hnew) fun n hn _ hnu => ?_
    exact absurd (hnu.trans huid) (hmissed n hn)
  · refine hinv.noLeakedDrain (hinv.names hv) hnew fun n hn _ hnu => ?_
    exact absurd hnu (hmissed n hn)

end Runs

/-! ### A computed run -/

/-- The answer is that of the cache. -/
def answeredFrom (cachedNodes : Finset String) : (e : Op) → Resp e → Bool
  | .getNode name, .ok _ => decide (name ∈ cachedNodes)
  | .getNode name, .error err => decide (err = .notFound → name ∉ cachedNodes)
  | _, _ => true

lemma nodeAnswer_of_answeredFrom {cachedNodes : Finset String} {e : Op} {a : Resp e}
    (h : answeredFrom cachedNodes e a = true) : NodeAnswer cachedNodes e a := by
  cases e with
  | getNode name =>
    refine ⟨?_, ?_⟩
    · rintro node rfl
      exact of_decide_eq_true h
    · rintro rfl
      have hnot : Err.notFound = .notFound → name ∉ cachedNodes := of_decide_eq_true h
      exact hnot rfl
  | _ => trivial

/-- An operator with the stroke formats, and a cache that keeps all nodes. -/
def strokeAdmission : AdmissionSetup :=
  ⟨⟨false, strokeFormats⟩, Sorter.insertion Scheduler.compareRanked, ⟨fun _ => ""⟩, fun _ => True⟩

/-- Answers from the present cluster; the webhook is answered as a reconciler is. -/
def admissionAnswer (i : Worker ⊕ Nat) : (e : Op ⊕ ServerOp) → AdmissionState →
    Option (Sum.elim Resp ServerResp e × AdmissionState)
  | .inl e, s => ((operatorAnswer (i.elim id fun _ => reconcilerOf "nm") e s.cluster).filter fun rs =>
      answeredFrom s.cachedNodes e rs.1).map fun rs => (rs.1, { s with cluster := rs.2 })
  | .inr (.create nm), s => (s.cluster.world.suffer (.create nm)).map fun w =>
      (none, { s with cluster := { s.cluster with world := w } })

lemma admissionExec_of_answer {i : Worker ⊕ Nat} {e : Op ⊕ ServerOp} {s s' : AdmissionState}
    {a : Sum.elim Resp ServerResp e} (h : admissionAnswer i e s = some (a, s')) :
    (admission strokeAdmission).exec i e s a s' := by
  cases e with
  | inl e =>
    obtain ⟨⟨a', cluster⟩, hfilter, heq⟩ := Option.map_eq_some_iff.mp h
    cases heq
    obtain ⟨hans, hnode⟩ := Option.filter_eq_some_iff.mp hfilter
    refine ⟨cluster, ?_, nodeAnswer_of_answeredFrom hnode, rfl⟩
    cases i with
    | inl i => exact operatorExec_of_answer hans
    | inr j => exact operatorExec_of_answer hans
  | inr e =>
    cases e with
    | create nm =>
      obtain ⟨w, hw, heq⟩ := Option.map_eq_some_iff.mp h
      cases heq
      simp only [World.suffer] at hw
      split at hw
      · rename_i hc
        cases hw
        exact ⟨_, .inr ⟨nm, rfl, rfl, hc.1, hc.2.1, hc.2.2.1, hc.2.2.2.1, hc.2.2.2.2, rfl⟩, rfl⟩
      · cases hw

instance (w w' : World) : Decidable (NoCreation w w') :=
  inferInstanceAs (Decidable (∀ v ∈ w'.history, ∃ v₀ ∈ w.history, v₀.uid = v.uid))

/-- A player with one request to create an object; its events are those of the cluster and of the cache. -/
def admissionPlayer : Player (admission strokeAdmission) (Incident ⊕ Finset String) where
  program
    | .inl (.reconciler key) => some (Reconciler.reconcile ⟨false, strokeFormats⟩ key).run.shown
    | .inl .scheduler =>
      some (Scheduler.reconcile (Sorter.insertion Scheduler.compareRanked) ⟨none, none⟩).run.shown
    | .inr _ => some (createRequest strokeAdmission.webhook (drainedMaintenance "nm")).run
  body {i _} h := by
    cases i with
    | inr j => exact ⟨_, (Option.some.inj h).symm⟩
    | inl i =>
      cases i with
      | reconciler key => exact (Option.some.inj h).symm
      | scheduler => exact ⟨_, (Option.some.inj h).symm⟩
  answer := admissionAnswer
  exec := admissionExec_of_answer
  event
    | .inl v, s => ((s.cluster.world.suffer v).filter fun w => decide (NoCreation s.cluster.world w)).map
        fun w => { s with cluster := { s.cluster with world := w } }
    | .inr cachedNodes, s => if s.cachedNodes ⊆ cachedNodes then some { s with cachedNodes } else none
  env {v c s'} h := by
    cases v with
    | inl v =>
      obtain ⟨w, hw, rfl⟩ := Option.map_eq_some_iff.mp h
      obtain ⟨hw, hnew⟩ := Option.filter_eq_some_iff.mp hw
      exact .cluster (World.event_of_suffer hw) (of_decide_eq_true hnew)
    | inr cachedNodes =>
      simp only [Option.ite_none_right_eq_some] at h
      obtain ⟨hsub, hs⟩ := h
      cases hs
      exact .cache cachedNodes fun n _ hn => hsub hn

/-- A request for a node that the cache does not have is refused; later it passes, and the object reaches phase
Cordon with the finalizer on. -/
theorem kept_node_never_missed_in_cordon :
    ∃ c o, (admission strokeAdmission).Run (idleAdmission ⟨emptyState, ∅⟩) c ∧
      c.state.cluster.world.nms.get o.key = some o ∧ getReadyConditionReason o = .cordon ∧
      FinalizerGuards c.state.cluster.world o := by
  obtain ⟨c, run, hc⟩ := Player.exists_run_of_play admissionPlayer
    [.start (.inr 0), .finish (.inr 0) 9, .event (.inl (.nodes [firstNode])), .event (.inr {"node-1"}),
      .start (.inr 1), .finish (.inr 1) 9, .start (.inl (reconcilerOf "nm")), .finish (.inl (reconcilerOf "nm")) 60,
      .start (.inl .scheduler), .finish (.inl .scheduler) 60, .start (.inl (reconcilerOf "nm")),
      .finish (.inl (reconcilerOf "nm")) 60]
    (idleAdmission ⟨emptyState, ∅⟩) (fun c => c.state.cluster.world.nms.items.any fun o =>
      decide (o ∈ c.state.cluster.world.history ∧ getReadyConditionReason o = .cordon)) (by decide +kernel)
  obtain ⟨o, hmem, ho⟩ := List.any_eq_true.mp hc
  obtain ⟨hhistory, hreason⟩ := of_decide_eq_true ho
  have hget := Store.mem_items.mp hmem
  obtain ⟨-, -, hguard, -⟩ := kept_node_never_missed (s := ⟨emptyState, ∅⟩) started_empty rfl run hhistory
    (not_old_empty _) trivial
  exact ⟨c, o, run, hget, hreason, hguard o hget rfl⟩

end MaintenanceOperator
