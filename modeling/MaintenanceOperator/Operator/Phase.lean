import MaintenanceOperator.K8sUtils

/-!
# Phases

The phases of a maintenance as the reasons of the Ready condition run through them, after the state
diagram of the README: the order of the phases, and the steps from one to the next.
-/

namespace MaintenanceOperator

/-- Place of a reason in the order of the phases. -/
def Reason.order : Reason → Nat
  | .uninitialized => 0
  | .pending => 1
  | .scheduled => 2
  | .cordon => 3
  | .waitForPodCompletion => 4
  | .draining => 5
  | .ready | .requestorFailed => 6
  | .failedMaintenance | .other _ => 7

/-- Steps between phases. -/
inductive Advance : Reason → Reason → Prop where
  | toPending : Advance .uninitialized .pending
  | skipPending : Advance .uninitialized .scheduled
  | toScheduled : Advance .pending .scheduled
  | toCordon : Advance .scheduled .cordon
  | toWait : Advance .cordon .waitForPodCompletion
  | toDraining : Advance .waitForPodCompletion .draining
  | toReady : Advance .draining .ready
  | fail : Advance .ready .requestorFailed
  | recover : Advance .requestorFailed .ready

lemma Advance.order_le {r r' : Reason} (h : Advance r r') : r.order ≤ r'.order := by
  cases h <;> decide

/-- Place of an object in the order of the phases. -/
def phase (nm : NodeMaintenance) : Nat := (getReadyConditionReason nm).order

lemma isUnderMaintenance_iff (nm : NodeMaintenance) : isUnderMaintenance nm = true ↔ 2 ≤ phase nm := by
  unfold isUnderMaintenance phase
  cases getReadyConditionReason nm <;> simp [Reason.order]

lemma phase_of_reason {nm : NodeMaintenance} {r : Reason} (h : getReadyConditionReason nm = r) :
    phase nm = r.order := by
  rw [phase, h]

/-- The Ready condition is true exactly with reason Ready. -/
def ReadyStatusOk (nm : NodeMaintenance) : Prop :=
  ∀ c, findStatusCondition nm.status.conditions conditionTypeReady = some c →
    (c.status = .true ↔ c.reason = .ready)

/-- Setting the Ready condition gives it the status that its reason calls for. -/
lemma readyStatusOk_withReadyReason (nm : NodeMaintenance) (reason : Reason) (msg : String)
    (now : Nat) : ReadyStatusOk (withReadyReason nm reason msg now) := by
  intro c hc
  obtain ⟨c', hc', hs, hr⟩ := findStatusCondition_setStatusCondition_self
    (readyCondition nm reason msg) now nm.status.conditions
  obtain rfl : c' = c := Option.some.inj (hc'.symm.trans hc)
  rw [hs, hr]
  by_cases h : reason = .ready <;> simp [readyCondition, h]

/-- Objects with the same Ready condition are in the same phase. -/
lemma reason_congr {nm nm' : NodeMaintenance}
    (h : findStatusCondition nm'.status.conditions conditionTypeReady =
      findStatusCondition nm.status.conditions conditionTypeReady) :
    getReadyConditionReason nm' = getReadyConditionReason nm := by
  simp [getReadyConditionReason, h]

lemma ReadyStatusOk.congr {nm nm' : NodeMaintenance} (hok : ReadyStatusOk nm)
    (h : findStatusCondition nm'.status.conditions conditionTypeReady =
      findStatusCondition nm.status.conditions conditionTypeReady) : ReadyStatusOk nm' := by
  intro c hc
  exact hok c (h ▸ hc)

end MaintenanceOperator
