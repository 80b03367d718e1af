import MaintenanceOperator.Cluster.World
import MaintenanceOperator.Lib.Prog

/-!
# Calls of the operator

Everything a reconcile does to the outside is a call: requests to the API server, operations of the
drain manager, the mutex of the pool manager, the clock. `Op` lists them with their arguments and
`Resp` gives the type of the response. `Perform` is their meaning: which responses a call may get in
a given cluster, and the cluster after it. A write may be rejected, may fail without effect, and may
take effect while its reply is lost. Reads of API objects are answered from the present cluster
(`current`) or from the informer cache, which may lag behind arbitrarily (`cached`).
-/

namespace MaintenanceOperator
open Lib Drain

/-- Calls. -/
inductive Op where
  | getNodeMaintenance (key : NamespacedName)
  | listNodeMaintenances
  | update (nm : NodeMaintenance)
  | statusUpdate (nm : NodeMaintenance)
  | getNode (name : String)
  | listNodes (matching : GoMap String → Bool)
  | patchUnschedulable (name : String) (desired : Bool)
  | listPods (nodeName selector : String)
  | getMachineConfig (name : String)
  | getMachineConfigPool (name : String)
  | patchMachineConfigPool (name : String) (pause : Bool)
  | getRequest (uid : String)
  | newDrainRequest (nm : NodeMaintenance)
  | addRequest (req : Nat)
  | removeRequest (uid : String)
  | uid (req : Nat)
  | state (req : Nat)
  | spec (req : Nat)
  | getPodsForDeletion (req : Nat)
  | lock
  | unlock
  | now
  | shuffle (l : List NodeMaintenance)
  | trace (note : Note)

/-- Response types. -/
def Resp : Op → Type
  | .getNodeMaintenance _ => Except Err NodeMaintenance
  | .listNodeMaintenances => Except Err (List NodeMaintenance)
  | .update _ => Except Err NodeMaintenance
  | .statusUpdate _ => Except Err NodeMaintenance
  | .getNode _ => Except Err Node
  | .listNodes _ => Except Err (List Node)
  | .patchUnschedulable _ _ => Except Err Unit
  | .listPods _ _ => Except Err (List NamespacedName)
  | .getMachineConfig _ => Except Err MachineConfig
  | .getMachineConfigPool _ => Except Err MachineConfigPool
  | .patchMachineConfigPool _ _ => Except Err MachineConfigPool
  | .getRequest _ => Option Nat
  | .newDrainRequest _ => Nat
  | .addRequest _ => Option Err
  | .removeRequest _ => Unit
  | .uid _ => String
  | .state _ => DrainState
  | .spec _ => DrainRequestSpec
  | .getPodsForDeletion _ => Except Err (List NamespacedName)
  | .lock => Unit
  | .unlock => Unit
  | .now => Nat
  | .shuffle _ => List NodeMaintenance
  | .trace _ => Unit

/-- Programs of the operator. -/
abbrev Proc (α : Type) : Type := Prog Op Resp α

/-- Programs that may end with an error. -/
abbrev Action (α : Type) : Type := ExceptT Err (Prog Op Resp) α

/-- How reads of API objects are answered. -/
inductive ReadMode where
  | current
  | cached
  deriving DecidableEq

/-- Answers to a read: something the reader may see, not-found if it may see nothing, or any other
error. -/
def ReadAnswer {α : Type} (sees : α → Prop) (seesNone : Prop) : Except Err α → Prop
  | .ok a => sees a
  | .error e => e.fromServer = true ∧ (e = .notFound → seesNone)

/-- Answers to a write with the given effect: a failure without effect, or the effect, whose reply
may be lost. -/
def WriteAnswer {α : Type} (w : World) (effect : Option (α × World)) (r : Except Err α)
    (w' : World) : Prop :=
  (∃ e : Err, e.fromServer = true ∧ r = .error e ∧ w' = w) ∨
    ∃ a, effect = some (a, w') ∧ (r = .ok a ∨ ∃ e : Err, e.fromServer = true ∧ r = .error e)

/-- Meaning of the calls. -/
def Perform (mode : ReadMode) : (e : Op) → World → Resp e → World → Prop
  | .getNodeMaintenance key, w, r, w' => w' = w ∧
      match mode with
      | .current => ReadAnswer (fun o => w.nms.get key = some o) (w.nms.get key = none) r
      | .cached => ReadAnswer (fun o => o ∈ w.history ∧ o.key = key) True r
  | .listNodeMaintenances, w, r, w' => w' = w ∧
      match mode with
      | .current => ReadAnswer (fun l => l.Perm w.nms.items) True r
      | .cached => ReadAnswer
          (fun l => (∀ o ∈ l, o ∈ w.history) ∧ (l.map NodeMaintenance.key).Nodup) True r
  | .update b, w, r, w' => WriteAnswer w (w.update b) r w'
  | .statusUpdate b, w, r, w' => WriteAnswer w (w.statusUpdate b) r w'
  | .getNode name, w, r, w' => w' = w ∧
      match mode with
      | .current => ReadAnswer (fun n => w.nodes.get name = some n) (w.nodes.get name = none) r
      | .cached => ReadAnswer (fun n => n.name = name) True r
  | .listNodes matching, w, r, w' => w' = w ∧
      match mode with
      | .current => ReadAnswer
          (fun l => l.Perm (w.nodes.items.filter fun n => matching n.labels)) True r
      | .cached => ReadAnswer (fun l => (l.map Node.name).Nodup) True r
  | .patchUnschedulable name desired, w, r, w' =>
      WriteAnswer w ((w.patchUnschedulable name desired).map fun w₁ => ((), w₁)) r w'
  | .listPods _ _, w, r, w' => w' = w ∧ ReadAnswer (fun _ => True) True r
  | .getMachineConfig name, w, r, w' => w' = w ∧
      match mode with
      | .current => ReadAnswer (fun c => w.machineConfigs.get name = some c) True r
      | .cached => ReadAnswer (fun c => c.name = name) True r
  | .getMachineConfigPool name, w, r, w' => w' = w ∧
      match mode with
      | .current => ReadAnswer (fun p => w.pools.get name = some p) True r
      | .cached => ReadAnswer (fun p => p.name = name) True r
  | .patchMachineConfigPool name pause, w, r, w' => WriteAnswer w (w.patchPool name pause) r w'
  | .getRequest uid, w, r, w' => w' = w ∧ r = w.drainRequests.get? uid
  | .newDrainRequest nm, w, r, w' => ∃ q, newDrainRequest nm = some q ∧ r = w.requests.length ∧
      w' = { w with requests := w.requests ++ [q] }
  | .addRequest req, w, r, w' => w.addRequest req = some (r, w')
  | .removeRequest uid, w, _, w' => ∃ err, w' = w.removeRequest uid err
  | .uid req, w, r, w' => w' = w ∧ ∃ q, w.requests[req]? = some q ∧ r = q.uid
  | .state req, w, r, w' => w' = w ∧ ∃ q, w.requests[req]? = some q ∧ r = q.state
  | .spec req, w, r, w' => w' = w ∧ ∃ q, w.requests[req]? = some q ∧ r = q.drainSpec
  | .getPodsForDeletion _, w, r, w' => w' = w ∧ ReadAnswer (fun _ => True) True r
  | .lock, w, _, w' => w' = w
  | .unlock, w, _, w' => w' = w
  | .now, w, _, w' => w' = w
  | .shuffle l, w, r, w' => w' = w ∧ List.Perm r l
  | .trace note, w, _, w' => w' = { w with notes := note :: w.notes }

/-! ### The calls as programs -/

/-- Issue one call. -/
def issue (e : Op) : Proc (Resp e) := Prog.lift e

/-- Go `client.Client`. -/
def Client.getNodeMaintenance (key : NamespacedName) : Action NodeMaintenance :=
  ExceptT.mk (issue (.getNodeMaintenance key))

def Client.listNodeMaintenances : Action (List NodeMaintenance) :=
  ExceptT.mk (issue .listNodeMaintenances)

def Client.update (nm : NodeMaintenance) : Action NodeMaintenance :=
  ExceptT.mk (issue (.update nm))

def Client.statusUpdate (nm : NodeMaintenance) : Action NodeMaintenance :=
  ExceptT.mk (issue (.statusUpdate nm))

def Client.getNode (name : String) : Action Node :=
  ExceptT.mk (issue (.getNode name))

def Client.listNodes (matching : GoMap String → Bool) : Action (List Node) :=
  ExceptT.mk (issue (.listNodes matching))

def Client.listPods (nodeName selector : String) : Action (List NamespacedName) :=
  ExceptT.mk (issue (.listPods nodeName selector))

def Client.getMachineConfig (name : String) : Action MachineConfig :=
  ExceptT.mk (issue (.getMachineConfig name))

def Client.getMachineConfigPool (name : String) : Action MachineConfigPool :=
  ExceptT.mk (issue (.getMachineConfigPool name))

def Client.patchMachineConfigPool (name : String) (pause : Bool) : Action MachineConfigPool :=
  ExceptT.mk (issue (.patchMachineConfigPool name pause))

/-- `drain.RunCordonOrUncordon`. -/
def runCordonOrUncordon (node : Node) (desired : Bool) : Action Unit :=
  if node.unschedulable = desired then pure ()
  else ExceptT.mk (issue (.patchUnschedulable node.name desired))

/-- Go `drain.Manager`. -/
def DrainManager.getRequest (uid : String) : Action (Option Nat) := ExceptT.lift (issue (.getRequest uid))

def DrainManager.newDrainRequest (nm : NodeMaintenance) : Action Nat :=
  ExceptT.lift (issue (.newDrainRequest nm))

def DrainManager.addRequest (req : Nat) : Action (Option Err) := ExceptT.lift (issue (.addRequest req))

def DrainManager.removeRequest (uid : String) : Action Unit := ExceptT.lift (issue (.removeRequest uid))

/-- Go `drain.DrainRequest`. -/
def DrainManager.uid (req : Nat) : Action String := ExceptT.lift (issue (.uid req))

def DrainManager.state (req : Nat) : Action DrainState := ExceptT.lift (issue (.state req))

def DrainManager.spec (req : Nat) : Action DrainRequestSpec := ExceptT.lift (issue (.spec req))

def DrainManager.getPodsForDeletion (req : Nat) : Action (List NamespacedName) :=
  ExceptT.mk (issue (.getPodsForDeletion req))

/-- Go `time.Now`, in nanoseconds. -/
def timeNow : Action Nat := ExceptT.lift (issue .now)

/-- Put an event on record. -/
def trace (note : Note) : Action Unit := ExceptT.lift (issue (.trace note))

/-- The outcome of an action, error or not, as a value (Go `x, err := f()`). -/
def observe {α : Type} (x : Action α) : Action (Except Err α) := ExceptT.lift x.run

/-- Go `fmt.Errorf("msg%w", err)` on the error of an action. -/
def wrapErr {α : Type} (msg : String) (x : Action α) : Action α := ExceptT.adapt (Err.wrap msg) x

end MaintenanceOperator
