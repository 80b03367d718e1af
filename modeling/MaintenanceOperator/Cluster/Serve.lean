import MaintenanceOperator.Cluster.Events

/-!
# A server that answers

The calls answered by a server that is up: reads from the present cluster, writes applied when they
can be, no pods anywhere, the clock at zero. It is one of the behaviours that `Perform` allows
(`World.perform_of_serve`). With events as data (`Incident`), runs can be computed.
-/

namespace MaintenanceOperator
open Lib Drain

/-- The result of a read. -/
def found {α : Type} : Option α → Except Err α
  | some a => .ok a
  | none => .error .notFound

/-- Answer of a write with the given effect. -/
def World.accept {α : Type} (w : World) : Option (α × World) → Except Err α × World
  | some (a, w') => (.ok a, w')
  | none => (.error .conflict, w)

/-- Answer a call; `none` where the Go program would dereference nil. -/
def World.serve (w : World) : (e : Op) → Option (Resp e × World)
  | .getNodeMaintenance key => some (found (w.nms.get key), w)
  | .listNodeMaintenances => some (.ok w.nms.items, w)
  | .update b => some (w.accept (w.update b))
  | .statusUpdate b => some (w.accept (w.statusUpdate b))
  | .getNode name => some (found (w.nodes.get name), w)
  | .listNodes matching => some (.ok (w.nodes.items.filter fun n => matching n.labels), w)
  | .patchUnschedulable name desired =>
      some (w.accept ((w.patchUnschedulable name desired).map fun w₁ => ((), w₁)))
  | .listPods _ _ => some (.ok [], w)
  | .getMachineConfig name => some (found (w.machineConfigs.get name), w)
  | .getMachineConfigPool name => some (found (w.pools.get name), w)
  | .patchMachineConfigPool name pause => some (w.accept (w.patchPool name pause))
  | .getRequest uid => some (w.drainRequests.get? uid, w)
  | .newDrainRequest nm => (newDrainRequest nm).map fun q =>
      (w.requests.length, { w with requests := w.requests ++ [q] })
  | .addRequest req => w.addRequest req
  | .removeRequest uid => some ((), w.removeRequest uid none)
  | .uid req => w.requests[req]?.map fun q => (q.uid, w)
  | .state req => w.requests[req]?.map fun q => (q.state, w)
  | .spec req => w.requests[req]?.map fun q => (q.drainSpec, w)
  | .getPodsForDeletion _ => some (.ok [], w)
  | .lock => some ((), w)
  | .unlock => some ((), w)
  | .now => some ((0 : Nat), w)
  | .shuffle l => some (l, w)
  | .trace note => some ((), { w with notes := note :: w.notes })

/-- Events as data. -/
inductive Incident where
  | create (o : NodeMaintenance)
  | delete (key : NamespacedName)
  | nodes (l : List Node)
  | drained (id : Nat)

/-- What an incident does, if it can happen. -/
def World.suffer (w : World) : Incident → Option World
  | .create o =>
    if w.nms.get o.key = none ∧ (∀ v ∈ w.history, v.uid ≠ o.uid) ∧ o.key.Valid ∧
        o.deletionTimestamp = none ∧ o.status = ⟨[], [], none⟩ then
      some (w.write o)
    else none
  | .delete key =>
    match w.nms.get key with
    | some o => if o.deleting then none else some (w.write { o with deletionTimestamp := some 1 })
    | none => none
  | .nodes l => some { w with nodes := .ofList l }
  | .drained id => some { w with requests := w.requests.modify id (finishDrain none) }

lemma World.event_of_suffer {w w' : World} {v : Incident} (h : w.suffer v = some w') : Event w w' := by
  cases v with
  | create o =>
    simp only [suffer] at h
    split at h
    · rename_i hc
      cases h
      exact .create hc.1 hc.2.1 hc.2.2.1 hc.2.2.2.1 hc.2.2.2.2
    · cases h
  | delete key =>
    simp only [suffer] at h
    split at h
    · rename_i o ho
      split at h
      · cases h
      · rename_i hdel
        cases h
        exact .delete 1 ho (by simpa using hdel)
    · cases h
  | nodes l =>
    cases h
    exact .nodes _
  | drained id =>
    cases h
    exact .drainFinished id none

section Sound
variable {w w' : World} {e : Op} {r : Resp e}

lemma readAnswer_found {α : Type} (o : Option α) : ReadAnswer (fun a => o = some a) (o = none) (found o) := by
  cases o with
  | some a => rfl
  | none => exact ⟨rfl, fun _ => rfl⟩

lemma ReadAnswer.mono {α : Type} {sees sees' : α → Prop} {none none' : Prop} {a : Except Err α}
    (h : ReadAnswer sees none a) (hs : ∀ a, sees a → sees' a) (hn : none → none') :
    ReadAnswer sees' none' a := by
  cases a with
  | ok a => exact hs a h
  | error e => exact ⟨h.1, fun he => hn (h.2 he)⟩

lemma writeAnswer_accept {α : Type} {f : Option (α × World)} {a : Except Err α}
    (h : some (w.accept f) = some (a, w')) : WriteAnswer w f a w' := by
  cases f with
  | some aw =>
    cases h
    exact .inr ⟨aw.1, rfl, .inl rfl⟩
  | none =>
    cases h
    exact .inl ⟨.conflict, rfl, rfl, rfl⟩

/-- The server's answers are among those a call may get. -/
theorem World.perform_of_serve (h : w.serve e = some (r, w')) : Perform .current e w r w' := by
  cases e with
  | newDrainRequest nm =>
    obtain ⟨q, hq, hr⟩ := Option.map_eq_some_iff.mp h
    cases hr
    exact ⟨q, hq, rfl, rfl⟩
  | addRequest req => exact h
  | uid req =>
    obtain ⟨q, hq, hr⟩ := Option.map_eq_some_iff.mp h
    cases hr
    exact ⟨rfl, q, hq, rfl⟩
  | state req =>
    obtain ⟨q, hq, hr⟩ := Option.map_eq_some_iff.mp h
    cases hr
    exact ⟨rfl, q, hq, rfl⟩
  | spec req =>
    obtain ⟨q, hq, hr⟩ := Option.map_eq_some_iff.mp h
    cases hr
    exact ⟨rfl, q, hq, rfl⟩
  | getNodeMaintenance key =>
    cases h
    exact ⟨rfl, readAnswer_found _⟩
  | getNode name =>
    cases h
    exact ⟨rfl, readAnswer_found _⟩
  | getMachineConfig name =>
    cases h
    exact ⟨rfl, (readAnswer_found _).mono (fun _ h => h) fun _ => trivial⟩
  | getMachineConfigPool name =>
    cases h
    exact ⟨rfl, (readAnswer_found _).mono (fun _ h => h) fun _ => trivial⟩
  | listNodeMaintenances =>
    cases h
    exact ⟨rfl, .refl _⟩
  | listNodes matching =>
    cases h
    exact ⟨rfl, .refl _⟩
  | update b => exact writeAnswer_accept h
  | statusUpdate b => exact writeAnswer_accept h
  | patchUnschedulable name desired => exact writeAnswer_accept h
  | patchMachineConfigPool name pause => exact writeAnswer_accept h
  | removeRequest uid =>
    cases h
    exact ⟨none, rfl⟩
  | listPods _ _ =>
    cases h
    exact ⟨rfl, trivial⟩
  | getPodsForDeletion _ =>
    cases h
    exact ⟨rfl, trivial⟩
  | getRequest uid =>
    cases h
    exact ⟨rfl, rfl⟩
  | shuffle l =>
    cases h
    exact ⟨rfl, .refl _⟩
  | _ =>
    cases h
    rfl

/-- A cache may be up to date. -/
theorem Perform.cached (hstored : ∀ o ∈ w.nms.items, o ∈ w.history) (h : Perform .current e w r w') :
    Perform .cached e w r w' := by
  cases e with
  | getNodeMaintenance key =>
    refine ⟨h.1, ReadAnswer.mono h.2 (fun o ho => ?_) fun _ => trivial⟩
    exact ⟨hstored o (Store.get_mem ho), Store.key_of_get ho⟩
  | listNodeMaintenances =>
    refine ⟨h.1, ReadAnswer.mono h.2 (fun l hl => ?_) fun _ => trivial⟩
    exact ⟨fun o ho => hstored o (hl.mem_iff.mp ho), (hl.map _).nodup_iff.mpr w.nms.nodup⟩
  | getNode name =>
    exact ⟨h.1, ReadAnswer.mono h.2 (fun n hn => Store.key_of_get hn) fun _ => trivial⟩
  | listNodes matching =>
    refine ⟨h.1, ReadAnswer.mono h.2 (fun l hl => ?_) fun _ => trivial⟩
    exact (hl.map _).nodup_iff.mpr (w.nodes.nodup.sublist (List.filter_sublist.map _))
  | getMachineConfig name =>
    exact ⟨h.1, ReadAnswer.mono h.2 (fun n hn => Store.key_of_get hn) fun _ => trivial⟩
  | getMachineConfigPool name =>
    exact ⟨h.1, ReadAnswer.mono h.2 (fun n hn => Store.key_of_get hn) fun _ => trivial⟩
  | _ => exact h

end Sound

/-! ### Objects of the computed runs -/

/-- A requestor's object with a drain spec on the first node. -/
def drainedMaintenance (name : String) : NodeMaintenance :=
  newNodeMaintenance ⟨"default", name⟩ name
    ⟨"requestor.nvidia.com", [], "node-1", true, none, some ⟨false, "", 300, false, []⟩⟩

/-- The first node, schedulable and ready. -/
def firstNode : Node := ⟨"node-1", "node-1", [], [], false, []⟩

/-- An object that was just created on the first node. -/
def createdMaintenance : World :=
  { World.empty with nodes := .ofList [firstNode] }.write (drainedMaintenance "nm")

lemma consistent_created : Consistent createdMaintenance :=
  Consistent.write (w := { World.empty with nodes := .ofList [firstNode] })
    (Consistent.empty.of_eq rfl rfl rfl) fun _ hv => (nomatch hv)

end MaintenanceOperator
