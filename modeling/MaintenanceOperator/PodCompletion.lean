import MaintenanceOperator.K8sUtils

/-!
# Waiting for pod completion

Port of `internal/podcompletion/podcompletion.go`. Times are nanoseconds. The time format and the
label selector parser belong to the standard libraries, so they are a parameter (`Formats`), of which
only the truncation to whole seconds is known.
-/

namespace MaintenanceOperator
open Lib

/-- Nanoseconds in a second. -/
def second : Nat := 1000000000

/-- The string formats of the standard libraries: RFC 3339 times, and label selectors. -/
structure Formats where
  format : Nat → String
  parse : String → Option Nat
  parse_format : ∀ t, parse (format t) = some (t / second * second)
  format_ne : ∀ t, format t ≠ ""
  parsesSelector : String → Bool

/-- Formats in which a time is as many strokes as it has seconds, and one more. -/
def strokeFormats : Formats where
  format t := String.ofList (List.replicate (t / second + 1) '|')
  parse str := some ((str.length - 1) * second)
  parse_format t := by simp
  format_ne t := by simp [String.ext_iff, List.replicate]
  parsesSelector _ := true

/-- Go `WaitForPodCompletionStartAnnot`. -/
def waitForPodCompletionStartAnnot : String :=
  "maintenance.nvidia.com/wait-pod-completion-start-time"

/-- The expiry check of `HandlePodCompletion`. -/
def waitExpired (spec : WaitForPodCompletionSpec) (startTime : Nat) : Action Bool := do
  if spec.timeoutSecond > 0 then
    let now ← timeNow
    return now > startTime + spec.timeoutSecond.toNat * second
  else
    return false

/-- `HandlePodCompletion` once the start time is known: the expiry check and the pod listing. -/
def waitForPods (F : Formats) (nm : NodeMaintenance) (startTime : Nat) :
    Action (NodeMaintenance × Except Err (List String)) := do
  match nm.spec.waitForPodCompletion with
  | none => throw (.other "invalid memory address or nil pointer dereference")
  | some spec =>
    let expired ← waitExpired spec startTime
    if expired then
      return (nm, .error .errPodCompletionTimeout)
    else if F.parsesSelector spec.podSelector then
      match ← observe (Client.listPods nm.spec.nodeName spec.podSelector) with
      | .error err => return (nm, .error (.wrap "failed to list pods. " err))
      | .ok pods =>
        let waitingPods := pods.map NamespacedName.toStr
        let nm := { nm with status := { nm.status with waitForCompletion := waitingPods } }
        match ← observe (Client.statusUpdate nm) with
        | .error err => return (nm, .error (.wrap "failed to update NodeMaintenance status. " err))
        | .ok nm => return (nm, .ok waitingPods)
    else
      return (nm, .error
        (.other "failed to parse Spec.WaitForPodCompletion.PodSelector as label selectors"))

/-- Go `HandlePodCompletion`: the object as it is left, and the pods waited for or an error. -/
def handlePodCompletion (F : Formats) (nm : NodeMaintenance) :
    Action (NodeMaintenance × Except Err (List String)) := do
  let annot := (nm.annotations.get? waitForPodCompletionStartAnnot).getD ""
  if annot = "" then
    let startTime ← timeNow
    let nm := { nm with
      annotations := nm.annotations.set waitForPodCompletionStartAnnot (F.format startTime) }
    match ← observe (Client.update nm) with
    | .error err => return (nm, .error err)
    | .ok nm => waitForPods F nm startTime
  else
    match F.parse annot with
    | some startTime => waitForPods F nm startTime
    | none =>
      -- the annotation is reset so that a later call can succeed
      let err := Err.other ("parsing time " ++ annot)
      let nm := { nm with annotations := nm.annotations.delete waitForPodCompletionStartAnnot }
      match ← observe (Client.update nm) with
      | .ok nm => return (nm, .error err)
      | .error _ => return (nm, .error err)

end MaintenanceOperator
