import MaintenanceOperator.Cluster.Consistent
import MaintenanceOperator.Controller.NodeMaintenance

/-!
# Which parts of the cluster the functions touch

For the functions that leave most of the cluster alone, the parts that their calls may change. Proofs
about the other parts then pass over them.
-/

namespace MaintenanceOperator
open Lib Reconciler

/-- All calls of the action are on the given parts, or change nothing. -/
def Touches {α : Type} (parts : List Part) (x : Action α) : Prop :=
  AllE (fun e => e.part = .nothing ∨ e.part ∈ parts) x

namespace Touches
variable {α β : Type} {parts : List Part}

lemma pure {a : α} : Touches parts (Pure.pure a : Action α) := AllE.pure

lemma bind {x : Action α} {f : α → Action β} (hx : Touches parts x)
    (hf : ∀ a, Touches parts (f a)) : Touches parts (x >>= f) := AllE.bind hx hf

lemma ite {c : Prop} [Decidable c] {x y : Action α} (hx : Touches parts x) (hy : Touches parts y) :
    Touches parts (if c then x else y) := AllE.ite hx hy

lemma wrapErr {msg : String} {x : Action α} (hx : Touches parts x) :
    Touches parts (MaintenanceOperator.wrapErr msg x) := AllE.adapt hx

lemma observe {x : Action α} (hx : Touches parts x) :
    Touches parts (MaintenanceOperator.observe x) := AllE.lift hx

end Touches

/-! ### The calls of the functions -/

/-- `P` holds of the calls on pools. -/
structure PoolCalls (P : Op → Prop) : Prop where
  getMachineConfig : ∀ name, P (.getMachineConfig name)
  getMachineConfigPool : ∀ name, P (.getMachineConfigPool name)
  patchMachineConfigPool : ∀ name pause, P (.patchMachineConfigPool name pause)
  listNodes : ∀ matching, P (.listNodes matching)
  listNodeMaintenances : P .listNodeMaintenances

section Calls
variable {P : Op → Prop} {node : Node} {nm : NodeMaintenance}

lemma call_all {e : Op} (h : P e) : (issue e).All P := ⟨h, fun _ => trivial⟩

lemma waitForObjectUpdate_all {α : Type} {get : Action α} {checkFn : α → Bool} (h : AllE P get)
    (n : Nat) : AllE P (waitForObjectUpdate get checkFn n) := by
  induction n with
  | zero => exact .throw
  | succ n ih => exact .bind h fun _ => .ite .pure ih

lemma getMCPName_all (h : ∀ name, P (.getMachineConfig name)) : AllE P (getMCPName node) := by
  unfold getMCPName
  split
  · exact .throw
  · refine .bind (.adapt (call_all (h _))) fun mc => ?_
    split
    · exact .pure
    · exact .throw

lemma rollBack_all (h : PoolCalls P) {mcpName : String} {mcp : MachineConfigPool} :
    AllE P (rollBack mcpName mcp) := by
  refine .bind (.adapt (.adapt (call_all (h.patchMachineConfigPool _ _)))) fun mcp => ?_
  have hget : AllE P (Client.getMachineConfigPool mcp.name) := call_all (h.getMachineConfigPool _)
  exact .bind (.adapt (waitForObjectUpdate_all hget _)) fun _ => .throw

lemma pausePool_all (h : PoolCalls P) {mcpName : String} : AllE P (pausePool mcpName) := by
  refine .bind (.adapt (call_all (h.getMachineConfigPool _))) fun mcp => ?_
  refine .ite .pure (.ite .throw (.ite .throw ?_))
  refine .bind (.adapt (.adapt (call_all (h.patchMachineConfigPool _ _)))) fun mcp => ?_
  have hget : AllE P (Client.getMachineConfigPool mcp.name) := call_all (h.getMachineConfigPool _)
  refine .bind (.adapt (waitForObjectUpdate_all hget _)) fun mcp => ?_
  exact .ite (rollBack_all h) .pure

lemma mcpUsedByOtherNodeMaintenance_all (h : PoolCalls P) {mcp : MachineConfigPool} :
    AllE P (mcpUsedByOtherNodeMaintenance mcp nm) := by
  refine .bind ?_ fun selector => ?_
  · cases labelSelectorAsSelector mcp.nodeSelector <;> trivial
  · refine .bind (call_all (h.listNodes _)) fun nodesInPool => ?_
    exact .bind (call_all h.listNodeMaintenances) fun nml => .pure

lemma unpauseLocked_all (h : PoolCalls P) : AllE P (unpauseLocked node nm) := by
  refine .bind (.adapt (getMCPName_all h.getMachineConfig)) fun mcpName => ?_
  refine .bind (.adapt (call_all (h.getMachineConfigPool _))) fun mcp => ?_
  refine .ite (.bind (.adapt (mcpUsedByOtherNodeMaintenance_all h)) fun used => ?_) .pure
  refine .ite (.bind (.adapt (.adapt (call_all (h.patchMachineConfigPool _ _)))) fun mcp => ?_) .pure
  have hget : AllE P (Client.getMachineConfigPool mcp.name) := call_all (h.getMachineConfigPool _)
  exact .bind (.adapt (waitForObjectUpdate_all hget _)) fun _ => .pure

lemma withLock_all {α : Type} {x : Action α} (hlock : P .lock) (hunlock : P .unlock) (h : AllE P x) :
    AllE P (withLock x) := by
  refine .bind (.lift (call_all hlock)) fun _ => ?_
  refine .bind (.lift h) fun r => ?_
  refine .bind (.lift (call_all hunlock)) fun _ => ?_
  cases r <;> trivial

lemma unpause_all (h : PoolCalls P) (hlock : P .lock) (hunlock : P .unlock)
    (htrace : P (.trace (.unpauseMCP nm))) {r : Reconciler} : AllE P (r.unpause nm node) :=
  .ite (.bind (.lift (call_all htrace)) fun _ => withLock_all hlock hunlock (unpauseLocked_all h)) .pure

lemma runCordonOrUncordon_all {desired : Bool} (h : P (.patchUnschedulable node.name desired)) :
    AllE P (runCordonOrUncordon node desired) :=
  .ite .pure (call_all h)

lemma currentDrainStatus_all {pods : List String} (h : P (.listPods nm.spec.nodeName "")) :
    AllE P (currentDrainStatus nm pods) := by
  unfold currentDrainStatus
  split
  · exact .pure
  · exact .bind (.adapt (call_all h)) fun _ => .pure

end Calls

section Functions
variable {parts : List Part} {node : Node} {nm : NodeMaintenance}

lemma getNodeMaintenance_touches {key : NamespacedName} :
    Touches parts (Client.getNodeMaintenance key) := ⟨.inl rfl, fun _ => trivial⟩

lemma runCordonOrUncordon_touches {desired : Bool} :
    Touches [.nodes] (runCordonOrUncordon node desired) := runCordonOrUncordon_all (.inr (.head _))

lemma getMCPName_touches : Touches parts (getMCPName node) := getMCPName_all fun _ => .inl rfl

/-- Of the calls on pools, only the patch changes something. -/
lemma poolCalls_touch (h : .pools ∈ parts) :
    PoolCalls fun e => e.part = .nothing ∨ e.part ∈ parts :=
  ⟨fun _ => .inl rfl, fun _ => .inl rfl, fun _ _ => .inr h, fun _ => .inl rfl, .inl rfl⟩

lemma pausePool_touches {mcpName : String} : Touches [.pools] (pausePool mcpName) :=
  pausePool_all (poolCalls_touch (.head _))

lemma unpause_touches {r : Reconciler} : Touches [.pools, .notes, .mutex] (r.unpause nm node) := by
  have hmutex : Part.mutex ∈ [Part.pools, .notes, .mutex] := by decide
  have hnotes : Part.notes ∈ [Part.pools, .notes, .mutex] := by decide
  exact unpause_all (poolCalls_touch (.head _)) (.inr hmutex) (.inr hmutex) (.inr hnotes)

lemma podsToDelete_touches {req : Nat} : Touches parts (podsToDelete req) :=
  .bind ⟨.inl rfl, fun _ => trivial⟩ fun _ =>
    .bind (.wrapErr ⟨.inl rfl, fun _ => trivial⟩) fun _ => .pure

lemma currentDrainStatus_touches {pods : List String} :
    Touches parts (currentDrainStatus nm pods) := currentDrainStatus_all (.inl rfl)

end Functions
end MaintenanceOperator
