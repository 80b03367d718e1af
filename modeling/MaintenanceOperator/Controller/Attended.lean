import MaintenanceOperator.Cluster.Serve
import MaintenanceOperator.Controller.Flow
import MaintenanceOperator.Controller.ReadyTime
import MaintenanceOperator.Lib.Turns

/-!
# A reconciler with a server that answers

What the functions of the reconciler achieve when nothing stands in their way: calls are answered at
once and from the present cluster, writes fail only if they have to, and the others leave the object
alone, whatever else they do (`Others`). Drains come to an end without an error, at some time. The functions
then end without an error, and what they have written is stored.
-/

namespace MaintenanceOperator.Attended
open Lib Discipline Drain Reconciler

/-- Answers of such a server; where `quiet` says so there are no pods. -/
def Prompt (quiet : String → Prop) : (e : Op) → World → Resp e → World → Prop
  | .listPods _ selector, w, r, w' => w' = w ∧ ∃ pods, r = .ok pods ∧ (quiet selector → pods = [])
  | .getPodsForDeletion _, w, r, w' => w' = w ∧ ∃ pods, r = .ok pods
  | .listNodeMaintenances, w, r, w' => w' = w ∧ ∃ l, r = .ok l ∧ l.Perm w.nms.items
  | .listNodes matching, w, r, w' => w' = w ∧ ∃ l, r = .ok l ∧
      l.Perm (w.nodes.items.filter fun n => matching n.labels)
  | .removeRequest uid, w, _, w' => ∃ err, w' = w.removeRequest uid err
  | .now, w, _, w' => w' = w
  | .shuffle l, w, r, w' => w' = w ∧ List.Perm r l
  | e, w, r, w' => w.serve e = some (r, w')

/-- They are among the answers that a call may get. -/
lemma Prompt.perform {quiet : String → Prop} {e : Op} {w w' : World} {r : Resp e} (h : Prompt quiet e w r w') :
    Perform .current e w r w' := by
  cases e with
  | listPods _ _ =>
    obtain ⟨rfl, pods, rfl, -⟩ := h
    exact ⟨rfl, trivial⟩
  | getPodsForDeletion _ =>
    obtain ⟨rfl, pods, rfl⟩ := h
    exact ⟨rfl, trivial⟩
  | listNodeMaintenances =>
    obtain ⟨rfl, l, rfl, hl⟩ := h
    exact ⟨rfl, hl⟩
  | listNodes matching =>
    obtain ⟨rfl, l, rfl, hl⟩ := h
    exact ⟨rfl, hl⟩
  | removeRequest uid => exact h
  | now => exact h
  | shuffle l => exact h
  | _ => exact World.perform_of_serve h

/-- What the others do: they leave the object, the pools and the drain requests of the object alone,
nodes that exist stay and keep their configuration, and a drain may end without an error. -/
structure Others (key : NamespacedName) (w w' : World) : Prop where
  stored : w'.nms.get key = w.nms.get key
  nodes : ∀ {name n}, w.nodes.get name = some n → ∃ n', w'.nodes.get name = some n' ∧
    n'.annotations.get? desiredMachineConfigAnnotationKey = n.annotations.get? desiredMachineConfigAnnotationKey
  pools : w'.pools = w.pools
  machineConfigs : w'.machineConfigs = w.machineConfigs
  entries : ∀ u, w'.drainRequests.get? (drainRequestUID key u) = w.drainRequests.get? (drainRequestUID key u)
  requests : ∀ {id : Nat} {q}, w.requests[id]? = some q →
    w'.requests[id]? = some q ∨ w'.requests[id]? = some (finishDrain none q)

/-- The reconciler of one object with such a server. -/
def attended (r : Reconciler) (quiet : String → Prop) (key : NamespacedName) :
    System Unit Op Resp World (Except Err Result) where
  exec _ := Prompt quiet
  env c := Others key c.state
  body _ p := p = (r.reconcile key).run

/-- The plan asks for nothing: only the others have to be reckoned with. -/
def attending (r : Reconciler) (quiet : String → Prop) (key : NamespacedName) :
    Discipline (attended r quiet key) where
  inv _ := True
  perm _ _ _ := True
  rely _ := Others key
  inv_call _ _ _ := trivial
  rely_call hne := (hne rfl).elim
  inv_env _ _ := trivial
  rely_env _ _ h := h

section Rules
variable {r : Reconciler} {quiet : String → Prop} {key : NamespacedName} {α β : Type} {A F : World → Prop}

/-- What the others do not touch. -/
def Untouched (key : NamespacedName) (F : World → Prop) : Prop := ∀ w w', Others key w w' → F w → F w'

lemma Untouched.stable (h : Untouched key F) : (attending r quiet key).Stable () F :=
  fun w w' _ _ hr => h w w' hr

lemma Untouched.const (P : Prop) : Untouched key fun _ => P := fun _ _ _ h => h

lemma Untouched.and {A B : World → Prop} (hA : Untouched key A) (hB : Untouched key B) :
    Untouched key fun w => A w ∧ B w :=
  fun w w' ho h => ⟨hA w w' ho h.1, hB w w' ho h.2⟩

lemma Untouched.or {A B : World → Prop} (hA : Untouched key A) (hB : Untouched key B) :
    Untouched key fun w => A w ∨ B w :=
  fun w w' ho h => h.imp (hA w w' ho) (hB w w' ho)

lemma Untouched.exists {κ : Type} {A : κ → World → Prop} (hA : ∀ k, Untouched key (A k)) :
    Untouched key fun w => ∃ k, A k w :=
  fun w w' ho ⟨k, h⟩ => ⟨k, hA k w w' ho h⟩

/-- Calls that leave alone the nodes, the pools and the drain requests. -/
def Aside (e : Op) : Prop := e.part ≠ .nodes ∧ e.part ≠ .pools ∧ e.part ≠ .drain

/-- Facts about the nodes, the pools and the drain requests, which the others do not touch. -/
structure Apart (key : NamespacedName) (F : World → Prop) : Prop where
  others : Untouched key F
  calls : ∀ {w w' : World}, w'.nodes = w.nodes → w'.pools = w.pools → w'.machineConfigs = w.machineConfigs →
    w'.requests = w.requests → w'.drainRequests = w.drainRequests → F w → F w'

lemma Apart.const (P : Prop) : Apart key fun _ => P := ⟨.const P, fun _ _ _ _ _ h => h⟩

lemma Apart.and {A B : World → Prop} (hA : Apart key A) (hB : Apart key B) : Apart key fun w => A w ∧ B w :=
  ⟨hA.others.and hB.others, fun h₁ h₂ h₃ h₄ h₅ h =>
    ⟨hA.calls h₁ h₂ h₃ h₄ h₅ h.1, hB.calls h₁ h₂ h₃ h₄ h₅ h.2⟩⟩

lemma Apart.or {A B : World → Prop} (hA : Apart key A) (hB : Apart key B) : Apart key fun w => A w ∨ B w :=
  ⟨hA.others.or hB.others, fun h₁ h₂ h₃ h₄ h₅ h => h.imp (hA.calls h₁ h₂ h₃ h₄ h₅) (hB.calls h₁ h₂ h₃ h₄ h₅)⟩

lemma Apart.imp {P : Prop} {A : World → Prop} (hA : Apart key A) : Apart key fun w => P → A w :=
  ⟨fun w w' ho h hP => hA.others w w' ho (h hP), fun h₁ h₂ h₃ h₄ h₅ h hP => hA.calls h₁ h₂ h₃ h₄ h₅ (h hP)⟩

lemma Apart.exists {κ : Type} {A : κ → World → Prop} (hA : ∀ k, Apart key (A k)) :
    Apart key fun w => ∃ k, A k w :=
  ⟨.exists fun k => (hA k).others, fun h₁ h₂ h₃ h₄ h₅ ⟨k, h⟩ => ⟨k, (hA k).calls h₁ h₂ h₃ h₄ h₅ h⟩⟩

/-- A call on another part keeps them. -/
lemma Apart.keep (hF : Apart key F) {e : Op} {w w' : World} {a : Resp e} (he : Aside e)
    (h : Prompt quiet e w a w') (hFw : F w) : F w' := by
  have hframe := h.perform.frame
  exact hF.calls (hframe.nodes he.1) (hframe.pools he.2.1) hframe.machineConfigs (hframe.requests he.2.2)
    (hframe.drainRequests he.2.2) hFw

/-- Programs that end without an error. -/
abbrev Achieves (r : Reconciler) (quiet : String → Prop) (key : NamespacedName) (A : World → Prop)
    (x : Action α) (Q : α → World → Prop) : Prop :=
  (attending r quiet key).TripleOk () A x Q

/-- One call with an answer that is no error. -/
lemma achieves_call {e : Op} {Q : Resp e → World → Prop} (hA : Untouched key A) (hQ : ∀ a, Untouched key (Q a))
    (h : ∀ w a w', A w → Prompt quiet e w a w' → Q a w') :
    (attending r quiet key).Triple () A (issue e) Q :=
  Triple.lift hA.stable (fun a => (hQ a).stable) (fun _ _ _ => trivial) fun w a w' _ _ => h w a w'

/-- A program that returns a result as such. -/
lemma achieves_mk {p : Proc (Except Err α)} {Q : α → World → Prop}
    (h : (attending r quiet key).Triple () A p fun res w => ∃ a, res = .ok a ∧ Q a w) :
    Achieves r quiet key A (ExceptT.mk p) Q := by
  refine Triple.conseq h (fun _ _ h => h) fun res w _ hres => ?_
  obtain ⟨a, rfl, hQ⟩ := hres
  refine ⟨?_, nofun⟩
  rintro _ ⟨⟩
  exact hQ

lemma achieves_pure {a : α} {Q : α → World → Prop} (hA : Untouched key A) (h : ∀ w, A w → Q a w) :
    Achieves r quiet key A (pure a) Q :=
  TripleX.pure hA.stable fun w _ => h w

lemma Achieves.ite {c : Prop} [Decidable c] {x y : Action α} {Q : α → World → Prop}
    (hx : c → Achieves r quiet key A x Q) (hy : ¬ c → Achieves r quiet key A y Q) :
    Achieves r quiet key A (if c then x else y) Q := by
  split
  · rename_i h
    exact hx h
  · rename_i h
    exact hy h

lemma Achieves.post {x : Action α} {Q P : α → World → Prop} (h : Achieves r quiet key A x P)
    (hQ : ∀ a w, P a w → Q a w) : Achieves r quiet key A x Q :=
  TripleX.conseq h (fun _ _ h => h) (fun a w _ => hQ a w) fun _ _ _ h => h

lemma Achieves.pre {B : World → Prop} {x : Action α} {Q : α → World → Prop} (h : Achieves r quiet key B x Q)
    (hA : ∀ w, A w → B w) : Achieves r quiet key A x Q :=
  TripleX.pre h fun w _ => hA w

/-- Either of two situations. -/
lemma Achieves.or {B : World → Prop} {x : Action α} {Q : α → World → Prop} (hA : Achieves r quiet key A x Q)
    (hB : Achieves r quiet key B x Q) : Achieves r quiet key (fun w => A w ∨ B w) x Q :=
  fun w hw h => h.elim (hA w hw) (hB w hw)

/-- An error message does not matter where there is no error. -/
lemma Achieves.wrapErr {msg : String} {x : Action α} {Q : α → World → Prop} (h : Achieves r quiet key A x Q) :
    Achieves r quiet key A (MaintenanceOperator.wrapErr msg x) Q :=
  TripleX.adapt h

/-- The outcome is a value. -/
lemma Achieves.observe {x : Action α} {Q : α → World → Prop} (h : Achieves r quiet key A x Q) :
    Achieves r quiet key A (MaintenanceOperator.observe x) fun res w => ∃ a, res = .ok a ∧ Q a w :=
  TripleX.lift h.returns

/-- The result is followed up, in the way a value is. -/
lemma Achieves.observe_bind {x : Action α} {B : α → World → Prop} {f : Except Err α → Action β}
    {Q : β → World → Prop} (hx : Achieves r quiet key A x B) (hf : ∀ a, Achieves r quiet key (B a) (f (.ok a)) Q) :
    Achieves r quiet key A (MaintenanceOperator.observe x >>= f) Q := by
  refine TripleOk.bind hx.observe fun res => Triple.of_exists fun a => Triple.of_pure fun hres => ?_
  subst hres
  exact hf a

/-- Such facts can be carried along. -/
lemma Achieves.frame {x : Action α} {Q : α → World → Prop} (hF : Apart key F) (hx : AllE Aside x)
    (h : Achieves r quiet key A x Q) : Achieves r quiet key (fun w => A w ∧ F w) x fun a w => Q a w ∧ F w := by
  refine (Triple.frame hF.others.stable (fun w e a w' _ _ he hexec => hF.keep he hexec) hx h).conseq
    (fun _ _ h => h) fun res w _ h => ?_
  exact ⟨fun a ha => ⟨h.1.1 a ha, h.2⟩, fun e he => h.1.2 e he⟩

end Rules

/-! ### Objects that nothing is wrong with -/

/-- The object is stored in this version. -/
def Stored (key : NamespacedName) (m : NodeMaintenance) (w : World) : Prop := w.nms.get key = some m

lemma untouched_stored {key : NamespacedName} {m : NodeMaintenance} : Untouched key (Stored key m) :=
  fun _ _ ho h => ho.stored.trans h

/-- The start of the wait for pods is not on record, or can be read. -/
def StartOk (F : Formats) (annotations : GoMap String) : Prop :=
  (annotations.get? waitForPodCompletionStartAnnot).getD "" = "" ∨
    (F.parse ((annotations.get? waitForPodCompletionStartAnnot).getD "")).isSome = true

/-- Nothing about the object itself makes a call fail, or a wait last. -/
structure Fit (r : Reconciler) (quiet : String → Prop) (m : NodeMaintenance) : Prop where
  admitted : CrdAdmits m.spec
  start : StartOk r.formats m.annotations
  wait : ∀ spec, m.spec.waitForPodCompletion = some spec →
    r.formats.parsesSelector spec.podSelector = true ∧ quiet spec.podSelector

/-- A `PUT` leaves the spec as it is. -/
def Normal (m : NodeMaintenance) : Prop := m.spec.normalize = m.spec

lemma normalize_normalize (s : NodeMaintenanceSpec) : s.normalize.normalize = s.normalize := by
  refine (normalize_eq_iff _).mpr ⟨rfl, fun d hd => ?_⟩
  simp only [NodeMaintenanceSpec.normalize, Option.map_eq_some_iff] at hd
  obtain ⟨d', -, rfl⟩ := hd
  simp only [DrainSpec.normalize]
  split
  · decide
  · assumption

/-- What the server stores is admitted. -/
lemma admits_normalize {s : NodeMaintenanceSpec} (h : CrdAdmits s) : CrdAdmits s.normalize := by
  have hput := putSpec_of_admitted h
  unfold putSpec at hput
  dsimp only at hput
  split at hput
  · rename_i hvalid
    exact ⟨_, hvalid, hput⟩
  · cases hput

/-- `a` is a later version of `m`, in the same phase. -/
structure SamePhase (r : Reconciler) (quiet : String → Prop) (m a : NodeMaintenance) : Prop where
  key : a.key = m.key
  uid : a.uid = m.uid
  deletionTimestamp : a.deletionTimestamp = m.deletionTimestamp
  finalizers : m.deleting = true → a.finalizers = m.finalizers
  spec : a.spec = m.spec ∨ a.spec = m.spec.normalize
  conditions : a.status.conditions = m.status.conditions
  fit : Fit r quiet m → Fit r quiet a

namespace SamePhase
variable {r : Reconciler} {quiet : String → Prop} {m a b : NodeMaintenance}

lemma refl (m : NodeMaintenance) : SamePhase r quiet m m := ⟨rfl, rfl, rfl, fun _ => rfl, .inl rfl, rfl, id⟩

lemma deleting (h : SamePhase r quiet m a) : a.deleting = m.deleting := by
  rw [NodeMaintenance.deleting, h.deletionTimestamp, NodeMaintenance.deleting]

lemma reason (h : SamePhase r quiet m a) : getReadyConditionReason a = getReadyConditionReason m := by
  rw [getReadyConditionReason, h.conditions, getReadyConditionReason]

lemma normal (h : SamePhase r quiet m a) (hm : Normal m) : Normal a := by
  have hspec : a.spec = m.spec := h.spec.elim id fun e => e.trans hm
  rw [Normal, hspec]
  exact hm

lemma spec_eq (h : SamePhase r quiet m a) (hm : Normal m) : a.spec = m.spec :=
  h.spec.elim id fun e => e.trans hm

lemma nodeName (h : SamePhase r quiet m a) : a.spec.nodeName = m.spec.nodeName := by
  rcases h.spec with e | e
  · rw [e]
  · rw [e]
    rfl

lemma additionalRequestors (h : SamePhase r quiet m a) :
    a.spec.additionalRequestors = m.spec.additionalRequestors := by
  rcases h.spec with e | e
  · rw [e]
  · rw [e]
    rfl

lemma trans (h : SamePhase r quiet m a) (h' : SamePhase r quiet a b) : SamePhase r quiet m b := by
  refine ⟨h'.key.trans h.key, h'.uid.trans h.uid, h'.deletionTimestamp.trans h.deletionTimestamp,
    fun hd => (h'.finalizers (h.deleting.trans hd)).trans (h.finalizers hd), ?_,
    h'.conditions.trans h.conditions, fun hf => h'.fit (h.fit hf)⟩
  rcases h.spec with e | e <;> rcases h'.spec with e' | e' <;> rw [e', e]
  · exact .inl rfl
  · exact .inr rfl
  · exact .inr rfl
  · exact .inr (normalize_normalize _)

/-- An object that is not being deleted stays when it is written. -/
lemma gone (h : SamePhase r quiet m a) (hm : m.gone = false) (hdel : m.deleting = true) : a.gone = false := by
  rw [NodeMaintenance.gone, h.deleting, h.finalizers hdel]
  exact hm

end SamePhase

/-! ### Writes -/

/-- What is stored under the name, after a write of `a`. -/
def Written (key : NamespacedName) (a : NodeMaintenance) (w : World) : Prop :=
  w.nms.get key = if a.gone then none else some a

lemma untouched_written {key : NamespacedName} {a : NodeMaintenance} : Untouched key (Written key a) :=
  fun _ _ ho h => ho.stored.trans h

/-- The version stays stored, unless it was the last finalizer that went. -/
lemma Written.stored {key : NamespacedName} {a : NodeMaintenance} {w : World} (h : Written key a w)
    (hgone : a.gone = false) : Stored key a w := by
  rw [Written, hgone] at h
  exact h

/-- `a` is what an update with body `b` makes of `m`. -/
def Updated (m b a : NodeMaintenance) : Prop :=
  ∃ generation resourceVersion, a = { m with
    labels := b.labels
    annotations := b.annotations
    finalizers := b.finalizers
    ownerReferences := b.ownerReferences
    spec := b.spec.normalize
    generation := generation
    resourceVersion := resourceVersion }

/-- `a` is what a status update with body `b` makes of `m`. -/
def Restated (m b a : NodeMaintenance) : Prop :=
  ∃ resourceVersion, a = { m with status := b.status, resourceVersion := resourceVersion }

/-- A body that the server has no reason to refuse. -/
structure Acceptable (m b : NodeMaintenance) : Prop where
  same : Matches m b
  admitted : CrdAdmits b.spec
  nodeName : b.spec.nodeName = m.spec.nodeName
  requestorID : b.spec.requestorID = m.spec.requestorID
  finalizers : m.deleting = true → ∀ f ∈ b.finalizers, f ∈ m.finalizers

lemma Acceptable.update {w : World} {m b : NodeMaintenance} (h : Acceptable m b) (hm : w.nms.get b.key = some m) :
    w.update b = some (w.merge m b b.spec.normalize, w.write (w.merge m b b.spec.normalize)) := by
  simp only [World.update, Option.bind_eq_bind, hm, putSpec_of_admitted h.admitted, Option.bind_some]
  exact if_pos ⟨h.same.2.1, h.same.2.2, h.finalizers, h.nodeName, h.requestorID⟩

lemma written_write {key : NamespacedName} {w : World} {a : NodeMaintenance} (hkey : a.key = key)
    (hrev : a.resourceVersion = w.revision + 1) : Written key a (w.write a) := by
  subst hkey
  rw [Written, World.get_write_self]
  have hstamp : w.stamp a = a := by rw [World.stamp, ← hrev]
  rw [hstamp]

section Writes
variable {r : Reconciler} {quiet : String → Prop} {key : NamespacedName} {m b : NodeMaintenance} {F : World → Prop}

lemma update_achieves (hkey : m.key = key) (hF : Apart key F) (h : Acceptable m b) :
    Achieves r quiet key (fun w => Stored key m w ∧ F w) (Client.update b) fun a w =>
      (Updated m b a ∧ Written key a w) ∧ F w := by
  refine Achieves.frame hF ⟨by simp [Aside, Op.part], fun _ => trivial⟩
    (achieves_mk (achieves_call untouched_stored ?_ fun w res w' hm hans => ?_))
  · rintro res w w' ho ⟨a, rfl, hup, hw⟩
    exact ⟨a, rfl, hup, untouched_written w w' ho hw⟩
  · subst hkey
    have hup := h.update (h.same.1 ▸ hm)
    change some (w.accept (w.update b)) = some (res, w') at hans
    rw [hup] at hans
    cases hans
    exact ⟨_, rfl, ⟨_, _, rfl⟩, written_write rfl rfl⟩

lemma statusUpdate_achieves (hkey : m.key = key) (hF : Apart key F) (h : Matches m b) (hgone : m.gone = false) :
    Achieves r quiet key (fun w => Stored key m w ∧ F w) (Client.statusUpdate b) fun a w =>
      Restated m b a ∧ Stored key a w ∧ F w := by
  have hown : Achieves r quiet key (Stored key m) (Client.statusUpdate b) fun a w =>
      Restated m b a ∧ Stored key a w := by
    refine achieves_mk (achieves_call untouched_stored ?_ fun w res w' hm hans => ?_)
    · rintro res w w' ho ⟨a, rfl, hup, hw⟩
      exact ⟨a, rfl, hup, untouched_stored w w' ho hw⟩
    · subst hkey
      have hup : w.statusUpdate b = some (w.mergeStatus m b, w.write (w.mergeStatus m b)) := by
        have hm : w.nms.get b.key = some m := h.1 ▸ hm
        simp only [World.statusUpdate, Option.bind_eq_bind, hm, Option.bind_some]
        exact if_pos ⟨h.2.1, h.2.2⟩
      change some (w.accept (w.statusUpdate b)) = some (res, w') at hans
      rw [hup] at hans
      cases hans
      exact ⟨_, rfl, ⟨_, rfl⟩, (written_write rfl rfl).stored hgone⟩
  have hall : AllE Aside (Client.statusUpdate b) := ⟨by simp [Aside, Op.part], fun _ => trivial⟩
  exact (Achieves.frame hF hall hown).post fun a w h => ⟨h.1.1, h.1.2, h.2⟩

/-- A change of the metadata of a fit object. -/
lemma touch_achieves (hkey : m.key = key) (hF : Apart key F) (hfit : Fit r quiet m) (hgone : m.gone = false)
    (hb : Matches m b) (hspec : b.spec = m.spec) (hfin : m.deleting = true → b.finalizers = m.finalizers)
    (hstart : StartOk r.formats m.annotations → StartOk r.formats b.annotations) :
    Achieves r quiet key (fun w => Stored key m w ∧ F w) (Client.update b) fun a w =>
      (SamePhase r quiet m a ∧ Normal a ∧ Updated m b a) ∧ Stored key a w ∧ F w := by
  have hacc : Acceptable m b := ⟨hb, hspec ▸ hfit.admitted, by rw [hspec], by rw [hspec], fun hd => by simp [hfin hd]⟩
  refine (update_achieves hkey hF hacc).post ?_
  rintro a w ⟨⟨⟨g, v, rfl⟩, hw⟩, hFw⟩
  refine ⟨⟨⟨rfl, rfl, rfl, hfin, .inr (by rw [hspec]), rfl, fun hf => ⟨?_, hstart hf.start, ?_⟩⟩,
    normalize_normalize _, ⟨g, v, rfl⟩⟩, hw.stored ?_, hFw⟩
  · rw [hspec]
    exact admits_normalize hf.admitted
  · rw [hspec]
    exact hf.wait
  · cases hd : m.deleting with
    | true =>
      rw [NodeMaintenance.gone, hd] at hgone
      change (m.deleting && b.finalizers.isEmpty) = false
      rw [hd, hfin hd]
      exact hgone
    | false =>
      change (m.deleting && b.finalizers.isEmpty) = false
      rw [hd]
      rfl

/-- A change of the status, but for the conditions. -/
lemma Restated.follows {a : NodeMaintenance} (h : Restated m b a)
    (hcond : b.status.conditions = m.status.conditions) : SamePhase r quiet m a := by
  obtain ⟨v, rfl⟩ := h
  exact ⟨rfl, rfl, rfl, fun _ => rfl, .inl rfl, hcond, fun hf => ⟨hf.admitted, hf.start, hf.wait⟩⟩

/-- A call beside the objects, whose answer does not matter. -/
lemma aside_achieves {e : Op} (hF : Apart key F) (he : Aside e) (hnms : e.part ≠ .nodeMaintenances) :
    Achieves r quiet key (fun w => Stored key m w ∧ F w) (ExceptT.lift (issue e)) fun _ w =>
      Stored key m w ∧ F w := by
  have hall : Untouched key fun w => Stored key m w ∧ F w := untouched_stored.and hF.others
  refine TripleX.lift (achieves_call hall (fun _ => hall) fun w a w' h hans => ⟨?_, hF.keep he hans h.2⟩)
  rw [Stored, hans.perform.frame.nms hnms]
  exact h.1

/-- The conditions change, unless the Ready condition is as wanted. -/
lemma reason_of_unchanged {new : Condition} {now : Nat} {cs : List Condition}
    (h : (setStatusCondition new now cs).2 = false) :
    ∃ c, findStatusCondition cs new.type = some c ∧ c.reason = new.reason := by
  induction cs with
  | nil => cases h
  | cons c cs ih =>
    rw [setStatusCondition] at h
    split at h
    · rename_i htype
      refine ⟨c, by simp [findStatusCondition, htype], ?_⟩
      simp only [Bool.or_eq_false_iff, decide_eq_false_iff_not, ne_eq, not_not] at h
      exact h.1.1.2
    · rename_i htype
      obtain ⟨c', hc', hreason⟩ := ih h
      exact ⟨c', by simpa [findStatusCondition, htype] using hc', hreason⟩

/-- `a` is `m` in another phase. -/
structure Advanced (r : Reconciler) (quiet : String → Prop) (m a : NodeMaintenance) (reason : Reason) : Prop where
  reason : getReadyConditionReason a = reason
  annotations : a.annotations = m.annotations
  same : SamePhase r quiet { m with status := a.status } a

/-- The object moves on to another phase. -/
lemma setReady_achieves {reason : Reason} (hkey : m.key = key) (hF : Apart key F)
    (hne : getReadyConditionReason m ≠ reason) (hgone : m.gone = false) :
    Achieves r quiet key (fun w => Stored key m w ∧ F w) (setReadyConditionReason m reason) fun a w =>
      Advanced r quiet m a reason ∧ Stored key a w ∧ F w := by
  refine TripleOk.bind (aside_achieves hF ⟨nofun, nofun, nofun⟩ nofun) fun now =>
    Achieves.ite (fun _ => ?_) fun hunchanged => ?_
  · refine (statusUpdate_achieves (b := withReadyReason m reason "" now) hkey hF ⟨rfl, rfl, rfl⟩ hgone).post ?_
    rintro a w ⟨⟨v, rfl⟩, hrest⟩
    refine ⟨⟨getReadyConditionReason_withReadyReason m reason "" now, rfl, ?_⟩, hrest⟩
    exact ⟨rfl, rfl, rfl, fun _ => rfl, .inl rfl, rfl, fun hf => ⟨hf.admitted, hf.start, hf.wait⟩⟩
  · obtain ⟨c, hc, hreason⟩ := reason_of_unchanged (by simpa using hunchanged)
    have hc : findStatusCondition m.status.conditions conditionTypeReady = some c := hc
    refine absurd ?_ hne
    rw [getReadyConditionReason, hc]
    exact hreason

end Writes
end MaintenanceOperator.Attended
