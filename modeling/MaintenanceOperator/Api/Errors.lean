import MaintenanceOperator.Api.Types

/-!
# Errors

Go errors as the operator tells them apart: the API errors it asks about (`IsNotFound`), the sentinel
errors of its packages, and `fmt.Errorf` with `%w`, which keeps the wrapped error visible to
`errors.Is`.
-/

namespace MaintenanceOperator

/-- Errors. -/
inductive Err where
  | notFound
  | conflict
  | other (msg : String)
  | errMachineConfigBusy
  | errPodCompletionTimeout
  | errDrainRequestExists
  | wrap (msg : String) (err : Err)
  deriving DecidableEq, Repr

/-- Errors that come from the API server or the client, as opposed to the operator's own. -/
def Err.fromServer : Err → Bool
  | .notFound | .conflict | .other _ => true
  | _ => false

/-- Go `errors.Is`. -/
def Err.is : Err → Err → Bool
  | .wrap msg err, target => Err.wrap msg err = target || err.is target
  | e, target => e = target

/-- Server errors are none of the operator's own. -/
lemma Err.is_timeout_of_fromServer {err : Err} (h : err.fromServer = true) :
    err.is .errPodCompletionTimeout = false := by
  cases err with
  | notFound => rfl
  | conflict => rfl
  | other msg => rfl
  | _ => cases h

/-- What a reconcile asks of the work queue (Go `ctrl.Result`); times are in seconds. -/
structure Result where
  requeueAfter : Nat
  deriving DecidableEq, Repr

/-- Go `ctrl.Result{}`. -/
def Result.zero : Result := ⟨0⟩

end MaintenanceOperator
