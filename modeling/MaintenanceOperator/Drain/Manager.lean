import MaintenanceOperator.Cluster.Events
import MaintenanceOperator.Cluster.Serve

/-!
# The drain manager

`internal/drain/manager.go` over whole runs: calls of the manager in any order, by anyone, for any
requests made with `NewDrainRequest`, while drains end at any time. The map, the flags of the requests
and the running goroutines stay in step (`ManagerInv`), and the calls for one object leave the
requests of all others alone (`drain_manager_isolation`).
-/

namespace MaintenanceOperator
open Lib Drain Relation

/-- Calls of the drain manager. -/
def Op.isManagerCall : Op → Bool
  | .newDrainRequest _ | .addRequest _ | .getRequest _ | .removeRequest _ => true
  | _ => false

/-- A call of the manager, the end of a drain, or the end of the operator's context. -/
inductive ManagerStep : World → World → Prop where
  | call {w w'} {e : Op} {r : Resp e} : e.isManagerCall = true → Perform .current e w r w' →
      ManagerStep w w'
  | drainFinished {w} (id : Nat) (err : Option Err) :
      ManagerStep w { w with requests := w.requests.modify id (finishDrain err) }
  | shutdown {w} :
      ManagerStep w { w with requests := w.requests.map fun q => { q with ctxDone := true } }

/-- The request has been started, or canceled before. -/
def Drain.DrainRequest.handled (q : DrainRequest) : Bool := q.started || q.canceled

lemma Drain.DrainRequest.state_ne_notStarted {q : DrainRequest} (h : q.handled = true) :
    q.state ≠ .notStarted := by
  unfold DrainRequest.handled at h
  unfold DrainRequest.state
  cases hf : q.finished with
  | true => cases q.lastErr <;> cases q.ctxDone <;> simp
  | false => cases hc : q.canceled <;> simp_all

/-- What ties the map, the flags and the goroutines together. -/
structure ManagerInv (w : World) : Prop where
  keyed : ∀ {uid id}, w.drainRequests.get? uid = some id →
    ∃ q, w.requests[id]? = some q ∧ q.uid = uid ∧ q.handled = true
  running : ∀ {id q}, w.requests[id]? = some q → q.running = true →
    w.drainRequests.get? q.uid = some id

/-- What a move may do to a request: it keeps its UID, and it stays handled. -/
structure Moved (q q' : DrainRequest) : Prop where
  uid : q'.uid = q.uid
  handled : q.handled = true → q'.handled = true

section Steps
variable {w w' : World} {id : Nat} {q : DrainRequest} {uid : String}

/-- Flags that others set do not start a goroutine. -/
lemma finishDrain_moved (err : Option Err) (q : DrainRequest) :
    Moved q (finishDrain err q) ∧ ((finishDrain err q).running = true → q.running = true) := by
  unfold finishDrain
  split
  · exact ⟨⟨rfl, id⟩, fun _ => ‹_›⟩
  · exact ⟨⟨rfl, id⟩, id⟩

lemma cancelDrain_moved (err : Option Err) (q : DrainRequest) :
    Moved q (q.cancelDrain err) ∧ (q.cancelDrain err).running = false := by
  unfold DrainRequest.cancelDrain
  split
  · exact ⟨⟨rfl, fun _ => by simp [DrainRequest.handled]⟩,
      by simp [DrainRequest.running, DrainRequest.doDrain]⟩
  · rename_i h
    exact ⟨⟨rfl, fun _ => by simp [DrainRequest.handled]⟩, by simpa [DrainRequest.running] using h⟩

lemma startDrain_moved (q : DrainRequest) :
    Moved q q.startDrain ∧ q.startDrain.handled = true := by
  unfold DrainRequest.startDrain
  split
  · rename_i h
    have hq : q.handled = true := by simpa [DrainRequest.handled, Bool.or_comm] using h
    exact ⟨⟨rfl, fun _ => hq⟩, hq⟩
  · exact ⟨⟨rfl, fun _ => by simp [DrainRequest.handled]⟩, by simp [DrainRequest.handled]⟩

/-- What `AddRequest` does. -/
lemma addRequest_cases {r : Option Err} (h : w.addRequest id = some (r, w')) :
    ∃ q, w.requests[id]? = some q ∧
      ((w.drainRequests.get? q.uid).isSome = true ∧ r = some .errDrainRequestExists ∧ w' = w ∨
        w.drainRequests.get? q.uid = none ∧ r = none ∧
          w' = { w with
            requests := w.requests.modify id DrainRequest.startDrain
            drainRequests := w.drainRequests.set q.uid id }) := by
  simp only [World.addRequest, Option.bind_eq_bind, Option.bind_eq_some_iff] at h
  obtain ⟨q, hq, h⟩ := h
  refine ⟨q, hq, ?_⟩
  split at h
  · cases h
    exact .inl ⟨‹_›, rfl, rfl⟩
  · rename_i hnone
    cases h
    exact .inr ⟨by simpa using hnone, rfl, rfl⟩

/-- What `RemoveRequest` does. -/
lemma removeRequest_cases (w : World) (uid : String) (err : Option Err) :
    w.drainRequests.get? uid = none ∧ w.removeRequest uid err = w ∨
      ∃ id, w.drainRequests.get? uid = some id ∧ w.removeRequest uid err =
        { w with
          requests := w.requests.modify id (·.cancelDrain err)
          drainRequests := w.drainRequests.delete uid } := by
  unfold World.removeRequest
  split
  · exact .inl ⟨‹_›, rfl⟩
  · exact .inr ⟨_, ‹_›, rfl⟩

/-- A request after one of them was modified. -/
lemma getElem?_modify {l : List DrainRequest} {f : DrainRequest → DrainRequest} {i : Nat}
    (h : l[i]? = some q) (j : Nat) : (l.modify j f)[i]? = some (if j = i then f q else q) := by
  rw [List.getElem?_modify, h]
  split <;> simp_all

lemma getElem?_of_modify {l : List DrainRequest} {f : DrainRequest → DrainRequest} {i j : Nat}
    {q' : DrainRequest} (h : (l.modify j f)[i]? = some q') :
    ∃ q, l[i]? = some q ∧ q' = if j = i then f q else q := by
  rw [List.getElem?_modify] at h
  obtain ⟨q, hq, rfl⟩ := Option.map_eq_some_iff.mp h
  exact ⟨q, hq, by split <;> simp_all⟩

/-- Where the map stays and no goroutine is started, the invariant is kept. -/
lemma ManagerInv.quiet (h : ManagerInv w) (hmap : w'.drainRequests = w.drainRequests)
    (hfwd : ∀ (id : Nat) q, w.requests[id]? = some q → ∃ q', w'.requests[id]? = some q' ∧ Moved q q')
    (hbwd : ∀ (id : Nat) q', w'.requests[id]? = some q' → q'.running = true →
      ∃ q, w.requests[id]? = some q ∧ q'.uid = q.uid ∧ q.running = true) : ManagerInv w' := by
  refine ⟨fun {uid id} hid => ?_, fun {id q'} hq' hrun => ?_⟩
  · rw [hmap] at hid
    obtain ⟨q, hq, huid, hh⟩ := h.keyed hid
    obtain ⟨q', hq', hm⟩ := hfwd id q hq
    exact ⟨q', hq', hm.uid.trans huid, hm.handled hh⟩
  · obtain ⟨q, hq, huid, hrun'⟩ := hbwd id q' hq' hrun
    rw [hmap, huid]
    exact h.running hq hrun'

/-- `AddRequest` of a request whose UID is free. -/
lemma ManagerInv.add (h : ManagerInv w) (hq : w.requests[id]? = some q)
    (hfree : w.drainRequests.get? q.uid = none) :
    ManagerInv { w with
      requests := w.requests.modify id DrainRequest.startDrain
      drainRequests := w.drainRequests.set q.uid id } := by
  refine ⟨fun {uid' id'} hid => ?_, fun {id' q'} hq' hrun => ?_⟩
  · by_cases e : uid' = q.uid
    · subst e
      rw [GoMap.get?_set_self, Option.some.injEq] at hid
      subst hid
      refine ⟨_, getElem?_modify hq id, ?_, ?_⟩
      · rw [if_pos rfl]
        exact (startDrain_moved q).1.uid
      · rw [if_pos rfl]
        exact (startDrain_moved q).2
    · rw [GoMap.get?_set_ne _ e] at hid
      obtain ⟨q₁, hq₁, huid, hh⟩ := h.keyed hid
      refine ⟨_, getElem?_modify hq₁ id, ?_, ?_⟩
      · split
        · exact (startDrain_moved q₁).1.uid.trans huid
        · exact huid
      · split
        · exact (startDrain_moved q₁).2
        · exact hh
  · obtain ⟨q₁, hq₁, rfl⟩ := getElem?_of_modify hq'
    split at hrun
    · rename_i e
      subst e
      obtain rfl : q = q₁ := Option.some.inj (hq.symm.trans hq₁)
      rw [if_pos rfl, (startDrain_moved q).1.uid]
      exact GoMap.get?_set_self _ _ _
    · rw [if_neg ‹_›]
      have hother := h.running hq₁ hrun
      -- a running request with the same UID would have been in the map
      have ne : q₁.uid ≠ q.uid := by
        intro e
        rw [e, hfree] at hother
        cases hother
      rw [GoMap.get?_set_ne _ ne]
      exact hother

/-- `RemoveRequest` of a request that is held. -/
lemma ManagerInv.remove (h : ManagerInv w) (hid : w.drainRequests.get? uid = some id)
    (err : Option Err) :
    ManagerInv { w with
      requests := w.requests.modify id (·.cancelDrain err)
      drainRequests := w.drainRequests.delete uid } := by
  refine ⟨fun {uid' id'} hid' => ?_, fun {id' q'} hq' hrun => ?_⟩
  · have ne : uid' ≠ uid := by
      rintro rfl
      rw [GoMap.get?_delete_self] at hid'
      cases hid'
    rw [GoMap.get?_delete_ne ne] at hid'
    obtain ⟨q, hq, huid, hh⟩ := h.keyed hid'
    refine ⟨_, getElem?_modify hq id, ?_, ?_⟩
    · split
      · exact (cancelDrain_moved err q).1.uid.trans huid
      · exact huid
    · split
      · exact (cancelDrain_moved err q).1.handled hh
      · exact hh
  · obtain ⟨q, hq, rfl⟩ := getElem?_of_modify hq'
    split at hrun
    · -- the canceled request is not running
      rw [(cancelDrain_moved err q).2] at hrun
      cases hrun
    · rename_i hne
      rw [if_neg hne]
      have hother := h.running hq hrun
      have ne : q.uid ≠ uid := by
        intro e
        rw [e, hid] at hother
        exact hne (Option.some.inj hother)
      rw [GoMap.get?_delete_ne ne]
      exact hother

/-- A move keeps every request, with its UID, and handled if it was. -/
lemma ManagerStep.moved (st : ManagerStep w w') (hq : w.requests[id]? = some q) :
    ∃ q', w'.requests[id]? = some q' ∧ Moved q q' := by
  have hrefl : Moved q q := ⟨rfl, fun h => h⟩
  cases st with
  | @call _ e r he hperf =>
    cases e with
    | newDrainRequest nm =>
      obtain ⟨q₁, -, -, rfl⟩ := hperf
      refine ⟨q, ?_, hrefl⟩
      rw [List.getElem?_append_left (List.getElem?_eq_some_iff.mp hq).1]
      exact hq
    | addRequest id₁ =>
      obtain ⟨q₁, -, ⟨-, -, rfl⟩ | ⟨-, -, rfl⟩⟩ := addRequest_cases hperf
      · exact ⟨q, hq, hrefl⟩
      · refine ⟨_, getElem?_modify hq id₁, ?_⟩
        split
        · exact (startDrain_moved q).1
        · exact hrefl
    | getRequest uid =>
      obtain ⟨rfl, -⟩ := hperf
      exact ⟨q, hq, hrefl⟩
    | removeRequest uid =>
      obtain ⟨err, rfl⟩ := hperf
      rcases removeRequest_cases w uid err with ⟨-, e⟩ | ⟨id₁, -, e⟩
      · rw [e]
        exact ⟨q, hq, hrefl⟩
      · rw [e]
        refine ⟨_, getElem?_modify hq id₁, ?_⟩
        split
        · exact (cancelDrain_moved err q).1
        · exact hrefl
    | _ => cases he
  | drainFinished id₁ err =>
    refine ⟨_, getElem?_modify hq id₁, ?_⟩
    split
    · exact (finishDrain_moved err q).1
    · exact hrefl
  | shutdown => exact ⟨{ q with ctxDone := true }, by simp [hq], rfl, fun h => h⟩

/-- Every move keeps the invariant. -/
lemma ManagerInv.step (h : ManagerInv w) (st : ManagerStep w w') : ManagerInv w' := by
  have hfwd : ∀ (id : Nat) q, w.requests[id]? = some q → ∃ q', w'.requests[id]? = some q' ∧ Moved q q' :=
    fun id q hq => st.moved hq
  cases st with
  | @call _ e r he hperf =>
    cases e with
    | newDrainRequest nm =>
      obtain ⟨q, hnew, -, rfl⟩ := hperf
      refine h.quiet rfl hfwd fun id q' hq' hrun => ?_
      rcases Nat.lt_or_ge id w.requests.length with hlt | hge
      · exact ⟨q', by rwa [List.getElem?_append_left hlt] at hq', rfl, hrun⟩
      · -- the new request has not been started
        obtain ⟨spec, -, rfl⟩ := Option.map_eq_some_iff.mp hnew
        rw [List.getElem?_append_right hge, List.getElem?_singleton] at hq'
        split at hq'
        · cases hq'
          cases hrun
        · cases hq'
    | addRequest id =>
      obtain ⟨q, hq, ⟨-, -, rfl⟩ | ⟨hfree, -, rfl⟩⟩ := addRequest_cases hperf
      · exact h
      · exact h.add hq hfree
    | getRequest uid =>
      obtain ⟨rfl, -⟩ := hperf
      exact h
    | removeRequest uid =>
      obtain ⟨err, rfl⟩ := hperf
      rcases removeRequest_cases w uid err with ⟨-, e⟩ | ⟨id, hid, e⟩
      · rw [e]
        exact h
      · rw [e]
        exact h.remove hid err
    | _ => cases he
  | drainFinished id₁ err =>
    refine h.quiet rfl hfwd fun id q' hq' hrun => ?_
    obtain ⟨q, hq, rfl⟩ := getElem?_of_modify hq'
    refine ⟨q, hq, ?_, ?_⟩
    · split
      · exact (finishDrain_moved err q).1.uid
      · rfl
    · split at hrun
      · exact (finishDrain_moved err q).2 hrun
      · exact hrun
  | shutdown =>
    refine h.quiet rfl hfwd fun id q' hq' hrun => ?_
    rw [List.getElem?_map] at hq'
    obtain ⟨q, hq, rfl⟩ := Option.map_eq_some_iff.mp hq'
    exact ⟨q, hq, rfl, hrun⟩

/-- A handled request stays so along every run. -/
lemma handled_of_run (run : ReflTransGen ManagerStep w w') (hq : w.requests[id]? = some q)
    (h : q.handled = true) : ∃ q', w'.requests[id]? = some q' ∧ q'.handled = true := by
  induction run with
  | refl => exact ⟨q, hq, h⟩
  | tail _ st ih =>
    obtain ⟨q₁, hq₁, h₁⟩ := ih
    obtain ⟨q₂, hq₂, hm⟩ := st.moved hq₁
    exact ⟨q₂, hq₂, hm.handled h₁⟩

/-- The invariant along a run from an empty manager. -/
lemma managerInv_of_run (run : ReflTransGen ManagerStep World.empty w) : ManagerInv w := by
  induction run with
  | refl => exact ⟨fun h => (nomatch h), fun h => (nomatch h)⟩
  | tail _ st ih => exact ih.step st

end Steps

/-- The request with this UID, if the manager holds one, and all requests made with it are the same. -/
def SameFor (uid : String) (w w' : World) : Prop :=
  w'.drainRequests.get? uid = w.drainRequests.get? uid ∧
    ∀ (id : Nat) q, w.requests[id]? = some q → q.uid = uid → w'.requests[id]? = some q

section Isolation
variable {w w' : World} {uid uid' : String} {id : Nat} {q : DrainRequest}

/-- A change of a request leaves those with other UIDs alone. -/
lemma sameFor_modify (hq : w.requests[id]? = some q) (ne : uid ≠ q.uid)
    (f : DrainRequest → DrainRequest) {m : GoMap Nat}
    (hm : m.get? uid = w.drainRequests.get? uid) :
    SameFor uid w { w with requests := w.requests.modify id f, drainRequests := m } := by
  refine ⟨hm, fun id' q' hq' huid => ?_⟩
  rw [getElem?_modify hq' id, if_neg]
  rintro rfl
  obtain rfl : q = q' := Option.some.inj (hq.symm.trans hq')
  exact ne huid.symm

/-- Calls with one UID do not touch what belongs to another. -/
lemma sameFor_remove (h : ManagerInv w) (ne : uid' ≠ uid) {r : Unit}
    (hperf : Perform .current (.removeRequest uid) w r w') : SameFor uid' w w' := by
  obtain ⟨err, rfl⟩ := hperf
  rcases removeRequest_cases w uid err with ⟨-, e⟩ | ⟨id, hid, e⟩
  · rw [e]
    exact ⟨rfl, fun _ _ hq _ => hq⟩
  · obtain ⟨q, hq, huid, -⟩ := h.keyed hid
    rw [e]
    exact sameFor_modify hq (huid ▸ ne) _ (GoMap.get?_delete_ne ne)

lemma sameFor_add (hq : w.requests[id]? = some q) (ne : uid' ≠ q.uid) {r : Option Err}
    (hperf : Perform .current (.addRequest id) w r w') : SameFor uid' w w' := by
  obtain ⟨q₁, hq₁, ⟨-, -, rfl⟩ | ⟨-, -, rfl⟩⟩ := addRequest_cases hperf
  · exact ⟨rfl, fun _ _ hq _ => hq⟩
  · obtain rfl : q = q₁ := Option.some.inj (hq.symm.trans hq₁)
    exact sameFor_modify hq ne _ (GoMap.get?_set_ne _ ne)

end Isolation

/-- Over every run of the manager: keys are the UIDs of the requests stored under them; goroutines run
for at most one request of each UID, and only while the manager holds it; a request once returned never
reports NotStarted; a rejected `AddRequest` changes nothing; and calls for one object return, cancel and
replace no request of another. -/
theorem drain_manager_isolation {w : World} (run : ReflTransGen ManagerStep World.empty w) :
    (∀ uid id, w.drainRequests.get? uid = some id → ∃ q, w.requests[id]? = some q ∧ q.uid = uid) ∧
    (∀ (id : Nat) q, w.requests[id]? = some q → q.running = true →
      w.drainRequests.get? q.uid = some id ∧
      ∀ (id' : Nat) q', w.requests[id']? = some q' → q'.running = true → q'.uid = q.uid → id' = id) ∧
    (∀ uid id w₁, Perform .current (.getRequest uid) w (some id) w₁ →
      ∀ w', ReflTransGen ManagerStep w₁ w' →
        ∃ q, w'.requests[id]? = some q ∧ q.state ≠ .notStarted) ∧
    (∀ id w', Perform .current (.addRequest id) w (some .errDrainRequestExists) w' → w' = w) ∧
    ∀ nm nm' : NodeMaintenance, nm.key.Valid → nm'.key.Valid → nm.key ≠ nm'.key ∨ nm.uid ≠ nm'.uid →
      drainRequestUIDFromNodeMaintenance nm ≠ drainRequestUIDFromNodeMaintenance nm' ∧
      (∀ id w', Perform .current (.getRequest (drainRequestUIDFromNodeMaintenance nm)) w (some id) w' →
        ∃ q, w.requests[id]? = some q ∧ q.uid ≠ drainRequestUIDFromNodeMaintenance nm') ∧
      (∀ r w', Perform .current (.removeRequest (drainRequestUIDFromNodeMaintenance nm)) w r w' →
        SameFor (drainRequestUIDFromNodeMaintenance nm') w w') ∧
      ∀ id q r w', w.requests[id]? = some q → q.uid = drainRequestUIDFromNodeMaintenance nm →
        Perform .current (.addRequest id) w r w' →
          SameFor (drainRequestUIDFromNodeMaintenance nm') w w' := by
  have h := managerInv_of_run run
  refine ⟨fun uid id hid => ?_, fun id q hq hrun => ⟨h.running hq hrun, ?_⟩, ?_, ?_, ?_⟩
  · obtain ⟨q, hq, huid, -⟩ := h.keyed hid
    exact ⟨q, hq, huid⟩
  · intro id' q' hq' hrun' huid
    have hget := h.running hq' hrun'
    rw [huid, h.running hq hrun] at hget
    exact (Option.some.inj hget).symm
  · rintro uid id w₁ ⟨rfl, hid⟩ w' run'
    obtain ⟨q, hq, -, hh⟩ := h.keyed hid.symm
    obtain ⟨q', hq', hh'⟩ := handled_of_run run' hq hh
    exact ⟨q', hq', DrainRequest.state_ne_notStarted hh'⟩
  · intro id w' hperf
    obtain ⟨q, -, ⟨-, -, rfl⟩ | ⟨-, hr, -⟩⟩ := addRequest_cases hperf
    · rfl
    · cases hr
  · intro nm nm' hv hv' hne
    have huid : drainRequestUIDFromNodeMaintenance nm ≠ drainRequestUIDFromNodeMaintenance nm' := by
      intro e
      -- no slash in a namespace, no colon in a name: the joined text tells the objects apart
      obtain ⟨hkey, huid⟩ := drainRequestUID_injective hv hv' e
      exact hne.elim (fun h => h hkey) fun h => h huid
    refine ⟨huid, ?_, fun r w' hperf => sameFor_remove h huid.symm hperf, ?_⟩
    · rintro id w' ⟨-, hid⟩
      obtain ⟨q, hq, hquid, -⟩ := h.keyed hid.symm
      exact ⟨q, hq, hquid ▸ huid⟩
    · intro id q r w' hq hquid hperf
      exact sameFor_add hq (hquid ▸ huid.symm) hperf

/-- Calls of the manager, one after the other. -/
def World.serveAll (w : World) : List Op → Option World
  | [] => some w
  | e :: es => if e.isManagerCall then (w.serve e).bind fun aw => aw.2.serveAll es else none

lemma run_of_serveAll {w w' : World} {es : List Op} (h : w.serveAll es = some w') :
    ReflTransGen ManagerStep w w' := by
  induction es generalizing w with
  | nil =>
    cases h
    exact .refl
  | cons e es ih =>
    simp only [World.serveAll] at h
    split at h
    · rename_i he
      obtain ⟨aw, hserve, hrest⟩ := Option.bind_eq_some_iff.mp h
      exact .head (.call he (World.perform_of_serve hserve)) (ih hrest)
    · cases h

/-- A request is added, then a second one for the same object, which is rejected: the first one is
running, and the only one. -/
theorem drain_manager_second_request :
    ∃ w q, ReflTransGen ManagerStep World.empty w ∧ w.requests.length = 2 ∧
      w.requests[0]? = some q ∧ q.running = true ∧ w.drainRequests.get? q.uid = some 0 ∧
      ∀ (id' : Nat) q', w.requests[id']? = some q' → q'.running = true → q'.uid = q.uid → id' = 0 := by
  have hplay : (World.empty.serveAll [.newDrainRequest (drainedMaintenance "nm"), .addRequest 0,
      .newDrainRequest (drainedMaintenance "nm"), .addRequest 1]).any (fun w =>
        w.requests.length = 2 && w.requests[0]?.any (·.running)) = true := by decide +kernel
  obtain ⟨w, hw, hprop⟩ := (Option.any_eq_true _ _).mp hplay
  simp only [Bool.and_eq_true, decide_eq_true_eq, Option.any_eq_true] at hprop
  obtain ⟨hlen, q, hq, hrun⟩ := hprop
  have hrunning := (drain_manager_isolation (run_of_serveAll hw)).2.1 0 q hq hrun
  exact ⟨w, q, run_of_serveAll hw, hlen, hq, hrun, hrunning.1, hrunning.2⟩

end MaintenanceOperator
