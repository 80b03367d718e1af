import MaintenanceOperator.Api.Errors

/-!
# Drain requests

Port of `internal/drain/request.go`: the flags of a `drainRequestImpl` and the state that `State`
derives from them. The goroutine that `StartDrain` launches is outside the request; what it does to
the flags is `doDrain`, with the outcome of `RunNodeDrain` as an argument. `CancelDrain` returns only
after that goroutine has exited, so it too takes the outcome of a drain it had to wait for.
-/

namespace MaintenanceOperator.Drain

/-- Go `DrainState`. -/
inductive DrainState where
  | notStarted
  | inProgress
  | canceled
  | success
  | error
  deriving DecidableEq, Repr

/-- Go `DrainRequestSpec`. -/
structure DrainRequestSpec where
  nodeName : String
  spec : DrainSpec
  deriving DecidableEq, Repr

/-- Go `drainRequestImpl`; `ctxDone` is whether its context has been canceled. -/
structure DrainRequest where
  uid : String
  started : Bool
  finished : Bool
  canceled : Bool
  lastErr : Option Err
  ctxDone : Bool
  drainSpec : DrainRequestSpec
  deriving DecidableEq, Repr

/-- Go `DrainRequestUIDFromNodeMaintenance`. -/
def drainRequestUIDFromNodeMaintenance (nm : NodeMaintenance) : String :=
  nm.key.ns ++ "/" ++ nm.key.name ++ ":" ++ nm.uid

/-- Go `NewDrainRequest`; without a drain spec it would dereference nil. -/
def newDrainRequest (nm : NodeMaintenance) : Option DrainRequest :=
  nm.spec.drainSpec.map fun spec =>
    { uid := drainRequestUIDFromNodeMaintenance nm
      started := false
      finished := false
      canceled := false
      lastErr := none
      ctxDone := false
      drainSpec := ⟨nm.spec.nodeName, spec⟩ }

namespace DrainRequest

/-- Go `StartDrain`. -/
def startDrain (dr : DrainRequest) : DrainRequest :=
  if dr.canceled || dr.started then dr else { dr with started := true }

/-- Go `doDrain`, when `RunNodeDrain` returned `err`. -/
def doDrain (dr : DrainRequest) (err : Option Err) : DrainRequest :=
  { dr with lastErr := err, finished := true }

/-- The drain goroutine is alive. -/
def running (dr : DrainRequest) : Bool := dr.started && !dr.finished

/-- Go `CancelDrain`; a running drain is waited for, and ended with `err`. -/
def cancelDrain (dr : DrainRequest) (err : Option Err) : DrainRequest :=
  let dr := if dr.running then dr.doDrain err else dr
  { dr with canceled := true, ctxDone := true }

/-- Go `State`. -/
def state (dr : DrainRequest) : DrainState :=
  if dr.finished then
    if dr.lastErr.isSome then
      if dr.ctxDone then .canceled else .error
    else .success
  else if dr.canceled then .canceled
  else if dr.started then .inProgress
  else .notStarted

/-- The drain has ended, and without an error. -/
def succeeded (dr : DrainRequest) : Bool := dr.finished && dr.lastErr.isNone

end DrainRequest
end MaintenanceOperator.Drain
