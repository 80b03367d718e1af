import MaintenanceOperator.Controller.Parts

/-!
# Whole-object updates and the stored spec

The operator never means to change a spec, but each of its whole-object updates sends the spec back
to the server, which decodes it with the defaults of the CRD. `UpdateSite` lists the functions that
issue such updates; `updates_keep_spec` says that every body they send carries the spec they were
given, and `stored_spec_unchanged_iff` says for which specs the stored one then stays as it was.
-/

namespace MaintenanceOperator
open Lib Reconciler

/-- The functions of the operator that issue whole-object updates. -/
inductive UpdateSite where
  | setOwnerRef (owner : Node)
  | addFinalizer (finalizer : String)
  | removeFinalizer (finalizer : String)
  | handleCordon (node : Node)
  | handleUnCordon (node : Node)
  | handlePodCompletion (F : Formats)
  | setReadyTime (r : Reconciler)
  | setMCPLabel (mcpName : String)

/-- The function, run on an object. -/
def UpdateSite.program (nm : NodeMaintenance) : UpdateSite → Action Unit
  | .setOwnerRef owner => do let _ ← MaintenanceOperator.setOwnerRef owner nm
  | .addFinalizer f => do let _ ← MaintenanceOperator.addFinalizer nm f
  | .removeFinalizer f => do let _ ← MaintenanceOperator.removeFinalizer nm f
  | .handleCordon node => do let _ ← MaintenanceOperator.handleCordon nm node
  | .handleUnCordon node => do let _ ← MaintenanceOperator.handleUnCordon nm node
  | .handlePodCompletion F => do let _ ← MaintenanceOperator.handlePodCompletion F nm
  | .setReadyTime r => do let _ ← r.setReadyTime nm
  | .setMCPLabel mcpName => do let _ ← MaintenanceOperator.setMCPLabel nm mcpName

/-- `P` holds of the body, if the call is a whole-object update. -/
def OnUpdate (P : NodeMaintenance → Prop) : Op → Prop
  | .update b => P b
  | _ => True

section Bodies
variable {P : NodeMaintenance → Prop} {nm : NodeMaintenance}

lemma all_update {b : NodeMaintenance} (h : P b) : AllE (OnUpdate P) (Client.update b) :=
  call_all h

lemma all_timeNow : AllE (OnUpdate P) timeNow := call_all trivial

lemma all_waitForPods {F : Formats} {t : Nat} : AllE (OnUpdate P) (waitForPods F nm t) := by
  unfold waitForPods
  split
  · exact .throw
  · refine .bind (.ite (.bind all_timeNow fun _ => .pure) .pure) fun expired => ?_
    refine .ite .pure (.ite (.bind (.lift (call_all trivial)) fun pods => ?_) .pure)
    cases pods with
    | error err => exact .pure
    | ok pods =>
      refine .bind (.lift (call_all trivial)) fun r => ?_
      cases r <;> exact .pure

lemma all_handlePodCompletion {F : Formats} (h : ∀ annotations, P { nm with annotations }) :
    AllE (OnUpdate P) (handlePodCompletion F nm) := by
  refine .ite (.bind all_timeNow fun t => .bind (.lift (all_update (h _))) fun r => ?_) ?_
  · cases r with
    | error err => exact .pure
    | ok nm => exact all_waitForPods
  · split
    · exact all_waitForPods
    · refine .bind (.lift (all_update (h _))) fun r => ?_
      cases r <;> exact .pure

end Bodies

/-- Every body that the operator sends in a whole-object update carries the spec it was given. -/
theorem updates_keep_spec (nm : NodeMaintenance) (site : UpdateSite) :
    AllE (OnUpdate fun b => b.spec = nm.spec) (site.program nm) := by
  cases site with
  | setOwnerRef owner =>
    refine .bind (.bind (.lift (all_update rfl)) fun r => ?_) fun _ => .pure
    cases r <;> exact .pure
  | addFinalizer f => exact .bind (.ite .pure (all_update rfl)) fun _ => .pure
  | removeFinalizer f => exact .bind (.ite (all_update rfl) .pure) fun _ => .pure
  | handleCordon node =>
    refine .bind (.bind (.ite (all_update rfl) .pure) fun nm => ?_) fun _ => .pure
    exact .ite (.bind (runCordonOrUncordon_all trivial) fun _ => .pure) .pure
  | handleUnCordon node =>
    have drop : AllE (OnUpdate fun b => b.spec = nm.spec) (dropInitialState nm) :=
      .ite (all_update rfl) .pure
    exact .bind (.ite (.bind (runCordonOrUncordon_all trivial) fun _ => drop) drop) fun _ => .pure
  | handlePodCompletion F => exact .bind (all_handlePodCompletion fun _ => rfl) fun _ => .pure
  | setReadyTime r =>
    exact .bind (.ite (.bind all_timeNow fun _ => all_update rfl) .pure) fun _ => .pure
  | setMCPLabel mcpName =>
    refine .bind (.ite (.bind (.adapt (all_update rfl)) fun labelled => ?_) .pure) fun _ => .pure
    have hget : AllE (OnUpdate fun b => b.spec = nm.spec) (Client.getNodeMaintenance labelled.key) :=
      call_all trivial
    exact .adapt (waitForObjectUpdate_all hget _)

/-- What a whole-object update stores is its spec as the server decodes it. -/
lemma World.update_spec {w w' : World} {b o : NodeMaintenance} (h : w.update b = some (o, w')) :
    putSpec b.spec = some o.spec := by
  simp only [World.update, Option.bind_eq_bind, Option.bind_eq_some_iff] at h
  obtain ⟨_, -, spec, hspec, h⟩ := h
  split at h
  · cases h
    exact hspec
  · cases h

/-- No field of the spec holds a Go zero value that the CRD would overwrite by a default. -/
def NodeMaintenanceSpec.Survives (s : NodeMaintenanceSpec) : Prop :=
  s.cordon = true ∧ ∀ d, s.drainSpec = some d → d.timeoutSecond ≠ 0

/-- A spec comes back from the server as it was sent exactly when it survives the defaults, and so
does the stored spec under each whole-object update that the operator issues. -/
theorem stored_spec_unchanged_iff (nm : NodeMaintenance) (h : CrdAdmits nm.spec) :
    (putSpec nm.spec = some nm.spec ↔ nm.spec.Survives) ∧
      ∀ site : UpdateSite, AllE
        (OnUpdate fun b => ∀ w o w', World.update w b = some (o, w') →
          (o.spec = nm.spec ↔ nm.spec.Survives))
        (site.program nm) := by
  have round : ∀ s, putSpec nm.spec = some s → (s = nm.spec ↔ nm.spec.Survives) := by
    intro s hs
    rw [putSpec_eq hs]
    exact normalize_eq_iff _
  constructor
  · rw [putSpec_of_admitted h, Option.some.injEq]
    exact normalize_eq_iff _
  · intro site
    refine (updates_keep_spec nm site).mono fun e he => ?_
    cases e with
    | update b =>
      intro w o w' hu
      have hb : b.spec = nm.spec := he
      exact round o.spec (hb ▸ World.update_spec hu)
    | _ => trivial

/-- A spec as a requestor would write it, with the given cordon field. -/
def plainSpec (cordon : Bool) : NodeMaintenanceSpec where
  requestorID := "requestor.nvidia.com"
  additionalRequestors := []
  nodeName := "node-1"
  cordon := cordon
  waitForPodCompletion := none
  drainSpec := none

/-- The same, as the JSON the requestor sends. -/
def plainJson (cordon : Bool) : Json :=
  .obj [("requestorID", .str "requestor.nvidia.com"), ("nodeName", .str "node-1"),
    ("cordon", .bool cordon)]

/-- An object with that spec. -/
def plainNodeMaintenance (cordon : Bool) : NodeMaintenance :=
  newNodeMaintenance ⟨"default", "nm"⟩ "uid-1" (plainSpec cordon)

/-- With the default for cordon, the spec is admitted and every whole-object update keeps it. -/
theorem stored_spec_unchanged_plain :
    CrdAdmits (plainSpec true) ∧ (plainSpec true).Survives ∧
      (putSpec (plainSpec true) = some (plainSpec true) ↔ (plainSpec true).Survives) :=
  have admitted : CrdAdmits (plainSpec true) := ⟨plainJson true, by decide, by decide⟩
  ⟨admitted, ⟨rfl, by simp [plainSpec]⟩,
    (stored_spec_unchanged_iff (plainNodeMaintenance true) admitted).1⟩

/-- A requestor asks not to cordon; the update that adds the finalizer turns cordon on. -/
theorem cordon_lost_by_addFinalizer :
    let nm := { plainNodeMaintenance false with resourceVersion := 1 }
    let b := { nm with finalizers := [maintenanceFinalizerName] }
    let w := World.empty.write (plainNodeMaintenance false)
    CrdAdmits nm.spec ∧ w.nms.get nm.key = some nm ∧
      addFinalizer nm maintenanceFinalizerName = Client.update b ∧
      nm.spec.cordon = false ∧ (w.update b).map (fun r => r.1.spec.cordon) = some true :=
  ⟨⟨plainJson false, by decide, by decide⟩, by decide, rfl, rfl, by decide⟩

end MaintenanceOperator
