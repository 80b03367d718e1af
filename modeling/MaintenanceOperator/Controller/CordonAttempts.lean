import MaintenanceOperator.Cluster.Serve
import MaintenanceOperator.Controller.CordonHandler
import MaintenanceOperator.Lib.Script

/-!
# Cordon and uncordon, attempted again and again

`HandleCordon` and `HandleUnCordon` on their own: they are attempted in any order, each on objects that
it has just read, calls fail with and without effect, and the process may stop after any call. Whatever
an attempt leaves, the next one can build on: the flag of the node is what it was at first, or the
annotation says so.
-/

namespace MaintenanceOperator
open Lib Discipline Host

/-- The operations of the cordon handler. -/
inductive CordonOp where
  | handleCordon
  | handleUnCordon
deriving DecidableEq

/-- What they do. -/
def CordonOp.run : CordonOp → NodeMaintenance → Node → Action NodeMaintenance
  | .handleCordon => MaintenanceOperator.handleCordon
  | .handleUnCordon => MaintenanceOperator.handleUnCordon

/-- An attempt, on objects that it reads first. -/
def CordonOp.attempt (key : NamespacedName) (op : CordonOp) : Action NodeMaintenance := do
  let nm ← Client.getNodeMaintenance key
  let node ← Client.getNode nm.spec.nodeName
  op.run nm node

/-- An attempt that stops after some calls, unless it has come to its end by then. -/
def CordonOp.stopped (key : NamespacedName) (op : CordonOp) (calls : Nat) :
    Prog Op Resp (Option (CordonOp × Except Err NodeMaintenance)) :=
  (op.attempt key).run.cutAt calls >>= fun res => .ret (res.map fun r => (op, r))

/-- Attempts at the allowed operations, one after the other; nobody else writes the flag of a node. -/
def attempts (key : NamespacedName) (allowed : CordonOp → Prop) :
    System Unit Op Resp World (Option (CordonOp × Except Err NodeMaintenance)) where
  exec _ e w a w' := Perform .current e w a w'
  env c w' := Change c.state w' ∧ (∀ n, unschedulable w' n = unschedulable c.state n) ∧
    (c.state.nms.get key = none → w'.nms.get key = none)
  body _ p := ∃ op calls, allowed op ∧ p = op.stopped key calls

lemma attempts_perform {key : NamespacedName} {allowed : CordonOp → Prop} {e : Op} {w w' : World}
    {a : Resp e} (h : (attempts key allowed).exec () e w a w') : Perform .current e w a w' := h

/-- No attempt is under way. -/
def betweenAttempts (w : World) :
    Config Unit Op Resp World (Option (CordonOp × Except Err NodeMaintenance)) :=
  ⟨w, fun _ => none⟩

/-- The invariant. -/
structure AttemptInv (key : NamespacedName) (n : String) (init : Bool) (w : World) : Prop where
  consistent : Consistent w
  nodeName : ∀ {o}, w.nms.get key = some o → o.spec.nodeName = n
  reversible : ∀ {o}, w.nms.get key = some o → Reversible n init w o

/-- Permissions. -/
def attemptPerm (key : NamespacedName) (n : String) (init : Bool) (w : World) : Op → Prop
  | .update b => b.key = key ∧ ∀ o, w.nms.get key = some o → Matches o b → MarkStep n init w o b
  | .statusUpdate b => b.key = key
  | .patchUnschedulable name desired =>
      ∀ o, w.nms.get key = some o → name = n → desired = init ∨ initialState o = some falseString
  | _ => True

section Calls
variable {key : NamespacedName} {n : String} {init : Bool} {w w' : World} {e : Op} {a : Resp e}

/-- A permitted call keeps the invariant. -/
lemma AttemptInv.call (h : AttemptInv key n init w) (hp : attemptPerm key n init w e)
    (hperf : Perform .current e w a w') : AttemptInv key n init w' := by
  refine ⟨hperf.consistent h.consistent, fun {o} ho => ?_, fun {o} ho => ?_⟩
  · rcases hperf.stored ho with hk | ⟨o₁, ho₁, hrw⟩
    · exact h.nodeName hk
    · exact hrw.nodeName.trans (h.nodeName ho₁)
  · refine Reversible.call h.reversible hperf ?_ ?_ ho
    · rintro b rfl o ho hm
      exact hp.2 o ho hm
    · rintro desired rfl o ho
      exact hp o ho rfl

/-- Moves of the others keep the invariant. -/
lemma AttemptInv.change (h : AttemptInv key n init w) (hc : Change w w')
    (hflag : unschedulable w' n = unschedulable w n)
    (hgone : w.nms.get key = none → w'.nms.get key = none) : AttemptInv key n init w' := by
  have hstored : ∀ {o'}, w'.nms.get key = some o' → ∃ o, w.nms.get key = some o ∧ Follows o o' := by
    intro o' ho'
    rcases hc.stored ho' with hfol | hfresh
    · exact hfol
    · rw [hgone hfresh.free] at ho'
      cases ho'
  refine ⟨hc.consistent h.consistent, fun {o'} ho' => ?_, fun {o'} ho' => ?_⟩
  · obtain ⟨o, ho, hfol⟩ := hstored ho'
    exact hfol.nodeName.trans (h.nodeName ho)
  · obtain ⟨o, ho, hfol⟩ := hstored ho'
    exact (h.reversible ho).congr hfol.initial hflag

end Calls

section Plan
variable (key : NamespacedName) (allowed : CordonOp → Prop) (n : String) (init : Bool)

/-- The proof plan. -/
def attempting : Discipline (attempts key allowed) where
  inv := AttemptInv key n init
  perm _ := attemptPerm key n init
  rely _ := CordonRely key n
  inv_call h hp he := h.call hp he
  rely_call ne := absurd rfl ne
  inv_env h he := h.change he.1 (he.2.1 n) he.2.2
  rely_env _ _ he := .change he.1 (he.2.1 n) he.2.2

/-- The handler, as a host. -/
def attemptingHost : Host (attempting key allowed n init) () key where
  world := id
  Keeps := CordonRely key n
  Wrote w w' := unschedulable w' n = unschedulable w n
  MayUpdate := MarkStep n init
  MayStatus _ _ _ := True
  consistent h := h.consistent
  perform h he := (attempts_perform he).cached fun _ ho => h.consistent.stored (Store.mem_items.mp ho)
  perm_read {_ e} _ he := by cases e <;> trivial
  perm_update hk h := ⟨hk, h⟩
  perm_status hk _ := hk
  history h := h.history
  keeps_rely _ _ h := h
  keeps_read _ _ hexec he := .read (attempts_perform hexec) he
  keeps_alike _ _ hexec he hal := .alike (attempts_perform hexec) he hal
  wrote_update _ _ _ hexec := unschedulable_update (attempts_perform hexec) n
  update_alike _ _ hal := .inl hal.initial
  status_alike _ _ _ := trivial

end Plan

namespace Attempting
variable {key : NamespacedName} {allowed : CordonOp → Prop} {n : String} {init : Bool}
  {m : NodeMaintenance} {node : Node}

/-- Triples of the attempts. -/
abbrev AttemptTriple (key : NamespacedName) (allowed : CordonOp → Prop) (n : String) (init : Bool)
    {α : Type} (A : World → Prop) (x : Action α) (Q : α → World → Prop) : Prop :=
  (attempting key allowed n init).TripleE () A x Q

/-- The version in hand. -/
abbrev AttemptHolds (key : NamespacedName) (allowed : CordonOp → Prop) (n : String) (init : Bool)
    (m : NodeMaintenance) (w : World) : Prop :=
  (attemptingHost key allowed n init).Holds m w

/-- The stored object has this annotation. -/
abbrev AttemptMark (key : NamespacedName) (allowed : CordonOp → Prop) (n : String) (init : Bool)
    (v : Option String) (w : World) : Prop :=
  CordonRules.Mark (attemptingHost key allowed n init) v w

lemma rules : CordonRules (attemptingHost key allowed n init) n init fun _ => True where
  reversible hinv ho := hinv.reversible ho
  keeps_flag hk := hk.flag
  keeps_mark hk ho' := hk.mark ho'
  wrote_flag hw := hw
  record _ _ _ _ hnone hrec := .inr (.inl ⟨hnone, hrec⟩)
  drop _ _ _ hnone hflag := .inr (.inr ⟨hnone, hflag⟩)
  patch _ h := fun o ho _ => h o ho

/-- What an operation is to achieve. -/
def Achieved (key : NamespacedName) (n : String) (init : Bool) : CordonOp → World → Prop
  | .handleCordon, w => unschedulable w n = some true
  | .handleUnCordon, w =>
      (∀ o, w.nms.get key = some o → initialState o = none) ∧ unschedulable w n = some init

/-- What the annotation says about the flag. -/
lemma stable_flag : (attempting key allowed n init).Stable () fun w =>
    unschedulable w n = some init ∨ initialState m = some falseString :=
  rules.firm_flag.1.stable.or (Stable.const _)

lemma getNodeMaintenance_triple :
    AttemptTriple key allowed n init (fun _ => True) (Client.getNodeMaintenance key) fun m w =>
      (m.spec.nodeName = n ∧ ∀ {v}, initialState m = some v → v = formatBool init) ∧
        AttemptHolds key allowed n init m w ∧ AttemptMark key allowed n init (initialState m) w ∧
        (unschedulable w n = some init ∨ initialState m = some falseString) := by
  refine Triple.lift (Stable.const _) (fun _ => Stable.ok fun _ => (Stable.const _).and
    (lasting_holds.stable.and (rules.lasting_mark.stable.and stable_flag))) (fun _ _ _ => trivial) ?_
  rintro w _ w' hinv hinv' - ⟨rfl, hread⟩ m rfl
  have ho : w'.nms.get key = some m := hread
  refine ⟨⟨hinv.nodeName ho, (hinv.reversible ho).value⟩,
    ⟨Store.key_of_get ho, m, hinv.consistent.stored ho, rfl⟩, fun o ho' => ?_, (hinv.reversible ho).flag⟩
  rw [Option.some.inj (ho'.symm.trans ho)]

lemma getNode_triple {A : World → Prop} (hA : (attemptingHost key allowed n init).Lasting A) :
    AttemptTriple key allowed n init
      (fun w => A w ∧ (unschedulable w n = some init ∨ initialState m = some falseString))
      (Client.getNode n) fun node w =>
        (node.name = n ∧ (node.unschedulable = init ∨ initialState m = some falseString)) ∧
          A w ∧ unschedulable w n = some node.unschedulable := by
  refine Triple.lift (hA.stable.and stable_flag)
    (fun _ => Stable.ok fun _ => (Stable.const _).and (hA.and rules.firm_flag.1).stable)
    (fun _ _ _ => trivial) ?_
  rintro w _ w' hinv - ⟨hA, hread⟩ ⟨rfl, hnode⟩ node rfl
  have hn : w'.nodes.get n = some node := hnode
  have hu : unschedulable w' n = some node.unschedulable := by simp [unschedulable, hn]
  refine ⟨⟨Store.key_of_get hn, hread.imp_left fun h => ?_⟩, hA, hu⟩
  exact Option.some.inj (hu.symm.trans h)

/-- An attempt that ends well has done its work. -/
lemma attempt_triple (op : CordonOp) :
    AttemptTriple key allowed n init (fun _ => True) (op.attempt key) fun _ w =>
      Achieved key n init op w := by
  refine getNodeMaintenance_triple.bind fun m => TripleE.of_pure fun hm => ?_
  obtain ⟨hname, hvalue⟩ := hm
  rw [hname]
  refine TripleE.bind (TripleE.pre (getNode_triple (m := m) (lasting_holds.and rules.lasting_mark))
    fun w _ h => ⟨⟨h.1, h.2.1⟩, h.2.2⟩) fun node => TripleE.of_pure fun hnode => ?_
  obtain ⟨hnode, hread⟩ := hnode
  cases op with
  | handleCordon =>
    refine (rules.handleCordon_triple hnode trivial).conseq (fun w _ h => ⟨h.1.1, h.2, h.1.2⟩)
      fun a w _ h => h.2.2 ?_
    -- an annotation other than `false` was recorded from a cordoned node, and the node is as it was
    rcases hread with hinit | hfalse
    · cases hmark : initialState m with
      | none => exact .inr (.inl rfl)
      | some v =>
        rw [hinit, hvalue hmark]
        cases init with
        | true => exact .inl rfl
        | false => exact .inr (.inr rfl)
    · exact .inr (.inr hfalse)
  | handleUnCordon =>
    refine (rules.handleUnCordon_triple hnode).conseq (fun w _ h => ⟨h.1.1, h.2, h.1.2⟩)
      fun a w _ h => ⟨h.2.2.2, h.2.2.1.trans ?_⟩
    split
    · rename_i hfalse
      rw [formatBool_injective (y := init) (x := false) (hvalue hfalse)]
    · rename_i hne
      rw [hread.resolve_right hne]

end Attempting

/-! ### Further uncordoning -/

/-- The plan for attempts at uncordoning an object without the annotation: they only read. -/
def resting (key : NamespacedName) : Discipline (attempts key (· = .handleUnCordon)) where
  inv w := ∀ o, w.nms.get key = some o → initialState o = none
  perm _ _ e := e.part = .nothing
  rely _ _ _ := True
  inv_call {_ w e a w'} h hp he := by
    have hf := (attempts_perform he).frame
    rw [hp] at hf
    obtain rfl := hf.eq
    exact h
  rely_call _ _ _ _ := trivial
  inv_env {c w'} h he o' ho' := by
    obtain ⟨o, ho, hmark⟩ := (CordonRely.change (n := "") he.1 (he.2.1 "") he.2.2).mark ho'
    exact hmark.trans (h o ho)
  rely_env _ _ _ := trivial

lemma resting_triple {key : NamespacedName} :
    (resting key).TripleE () (fun _ => True) (CordonOp.handleUnCordon.attempt key) fun _ _ => True := by
  have hget : (resting key).TripleE () (fun _ => True) (Client.getNodeMaintenance key)
      fun m _ => initialState m = none ∧ True := by
    refine Triple.lift (Stable.const _) (fun _ => ?_) (fun _ _ _ => rfl) ?_
    · exact fun _ _ _ _ _ h => h
    · rintro w _ w' hinv - - ⟨rfl, hread⟩ m rfl
      exact ⟨hinv m hread, trivial⟩
  have hnode : ∀ name, (resting key).TripleE () (fun _ => True) (Client.getNode name) fun _ _ => True := by
    intro name
    exact Triple.lift (Stable.const _) (fun _ _ _ _ _ _ h => h) (fun _ _ _ => rfl)
      fun _ _ _ _ _ _ _ _ _ => trivial
  refine hget.bind fun m => TripleE.of_pure fun hm => (hnode _).bind fun node => ?_
  have hdo : CordonOp.handleUnCordon.run m node = pure m := by
    simp [CordonOp.run, handleUnCordon, dropInitialState, hm]
  rw [hdo]
  exact .pure (Stable.const _) fun _ _ _ => trivial

/-! ### Runs -/

section Runs
variable {key : NamespacedName} {w₀ : World} {o₀ : NodeMaintenance} {init : Bool}
  {c : Config Unit Op Resp World (Option (CordonOp × Except Err NodeMaintenance))}

/-- A stopped attempt that came to its end says what the whole one says. -/
lemma stopped_triple {ι' : Type} {Y : System Unit Op Resp World ι'} {D : Discipline Y} {op : CordonOp}
    {Q : World → Prop} (h : D.TripleE () (fun _ => True) (op.attempt key) fun _ w => Q w) (calls : Nat) :
    D.Triple () (fun _ => True) (op.stopped key calls) fun res w =>
      ∀ op' a, res = some (op', .ok a) → op' = op ∧ Q w := by
  refine Triple.map ((Triple.cutAt h calls).conseq (fun _ _ h => h) fun res w _ hres op' a he => ?_)
  obtain ⟨r, hr, he'⟩ := Option.map_eq_some_iff.mp he
  obtain ⟨rfl, rfl⟩ := Prod.mk.inj he'
  exact ⟨rfl, hres _ hr a rfl⟩

/-- A NodeMaintenance without the annotation, on a node with this flag. -/
structure Unmarked (key : NamespacedName) (w : World) (o : NodeMaintenance) (init : Bool) : Prop where
  consistent : Consistent w
  stored : w.nms.get key = some o
  initial : initialState o = none
  flag : unschedulable w o.spec.nodeName = some init

/-- The invariant, and what ended attempts have achieved, along a run. -/
lemma Unmarked.ok (h : Unmarked key w₀ o₀ init)
    (run : (attempts key fun _ => True).Run (betweenAttempts w₀) c) :
    (attempting key (fun _ => True) o₀.spec.nodeName init).OkWith
      (fun _ res w => ∀ op a, res = some (op, .ok a) →
        Attempting.Achieved key o₀.spec.nodeName init op w) c := by
  refine soundWith ?_ (c := betweenAttempts w₀) ⟨⟨h.consistent, fun {o} ho => ?_, fun {o} ho => ?_⟩, nofun⟩ run
  · rintro _ _ ⟨op, calls, -, rfl⟩
    refine (stopped_triple (Attempting.attempt_triple op) calls).conseq (fun _ _ h => h) ?_
    intro res w _ hres op' a he
    obtain ⟨rfl, hach⟩ := hres op' a he
    exact hach
  · rw [Option.some.inj (ho.symm.trans h.stored)]
  · obtain rfl : o₀ = o := Option.some.inj (h.stored.symm.trans ho)
    refine ⟨fun {v} hv => ?_, .inl h.flag⟩
    rw [h.initial] at hv
    cases hv

/-- Attempts at uncordoning change nothing where the annotation is absent. -/
lemma uncordon_rests {w : World}
    {c' c'' : Config Unit Op Resp World (Option (CordonOp × Except Err NodeMaintenance))}
    (hw : ∀ o, w.nms.get key = some o → initialState o = none)
    (run : (attempts key (· = .handleUnCordon)).Run (betweenAttempts w) c')
    (st : (attempts key (· = .handleUnCordon)).Step c' c'') :
    c''.state = c'.state ∨ (attempts key (· = .handleUnCordon)).env c' c''.state := by
  have hok : (resting key).Ok c' := by
    refine sound ?_ (c := betweenAttempts w) ⟨hw, nofun⟩ run
    rintro _ _ ⟨op, calls, rfl, rfl⟩
    exact (stopped_triple resting_triple calls).conseq (fun _ _ h => h) fun _ _ _ _ => trivial
  rcases hok.step_cases st with hs | henv | ⟨_, e, a, hperm, hexec⟩
  · exact .inl hs
  · exact .inr henv
  · have hf := (attempts_perform hexec).frame
    have he : e.part = .nothing := hperm
    rw [he] at hf
    exact .inl hf.eq

/-- Cordon and uncordon are crash-safe inverses: without the annotation the flag is the initial one, a
successful `HandleCordon` leaves the node unschedulable, a successful `HandleUnCordon` leaves the
initial flag and no annotation, and more of it changes nothing. -/
theorem cordon_crash_safe (h : Unmarked key w₀ o₀ init)
    (run : (attempts key fun _ => True).Run (betweenAttempts w₀) c) :
    (∀ o, c.state.nms.get key = some o → initialState o = none →
      unschedulable c.state o₀.spec.nodeName = some init) ∧
    (∀ a, c.threads () = some (.ret (some (.handleCordon, .ok a))) →
      unschedulable c.state o₀.spec.nodeName = some true) ∧
    (∀ a, c.threads () = some (.ret (some (.handleUnCordon, .ok a))) →
      (∀ o, c.state.nms.get key = some o → initialState o = none) ∧
      unschedulable c.state o₀.spec.nodeName = some init ∧
      ∀ c' c'', (attempts key (· = .handleUnCordon)).Run (betweenAttempts c.state) c' →
        (attempts key (· = .handleUnCordon)).Step c' c'' →
        c''.state = c'.state ∨ (attempts key (· = .handleUnCordon)).env c' c''.state) := by
  have hok := h.ok run
  refine ⟨fun o ho hnone => ?_, fun a hret => ?_, fun a hret => ?_⟩
  -- no mark: the node is as it was at the start
  · refine (hok.1.reversible ho).flag.resolve_right fun hfalse => ?_
    rw [hnone] at hfalse
    cases hfalse
  · exact hok.returned hret _ a rfl
  · obtain ⟨hmark, hflag⟩ := hok.returned hret _ a rfl
    exact ⟨hmark, hflag, fun c' c'' run' st => uncordon_rests hmark run' st⟩

end Runs

/-! ### Computed runs -/

/-- A player that attempts one operation, and stops it after some calls. -/
def attemptPlayer (key : NamespacedName) (op : CordonOp) (calls : Nat) :
    Player (attempts key fun _ => True) Turn where
  program _ := some (op.stopped key calls)
  body h := ⟨op, calls, trivial, (Option.some.inj h).symm⟩
  answer _ e w := w.serve e
  exec h := World.perform_of_serve h
  event _ _ := none
  env h := nomatch h

/-- The last attempt has come to its end, with success. -/
def endedWell (op : CordonOp)
    (c : Config Unit Op Resp World (Option (CordonOp × Except Err NodeMaintenance))) : Bool :=
  match c.threads () with
  | some (.ret (some (op', .ok _))) => op' = op
  | _ => false

lemma exists_of_endedWell {op : CordonOp}
    {c : Config Unit Op Resp World (Option (CordonOp × Except Err NodeMaintenance))}
    (h : endedWell op c = true) : ∃ a, c.threads () = some (.ret (some (op, .ok a))) := by
  unfold endedWell at h
  split at h
  · rename_i op' a hret
    obtain rfl : op' = op := of_decide_eq_true h
    exact ⟨a, hret⟩
  · cases h

/-- The first attempt to cordon stops once the annotation is stored; a second one cordons the node, and
an attempt to uncordon it restores its flag. -/
theorem cordon_crash_safe_retried :
    Unmarked ⟨"default", "nm"⟩ createdMaintenance (World.empty.stamp (drainedMaintenance "nm")) false ∧
    (∃ c, (attempts ⟨"default", "nm"⟩ fun _ => True).Run (betweenAttempts createdMaintenance) c ∧
      endedWell .handleCordon c = true ∧ unschedulable c.state "node-1" = some true) ∧
    ∃ c, (attempts ⟨"default", "nm"⟩ fun _ => True).Run (betweenAttempts createdMaintenance) c ∧
      endedWell .handleUnCordon c = true ∧ unschedulable c.state "node-1" = some false := by
  have h : Unmarked ⟨"default", "nm"⟩ createdMaintenance
      (World.empty.stamp (drainedMaintenance "nm")) false :=
    ⟨consistent_created, by decide, by decide, by decide⟩
  obtain ⟨c₁, run₁, hc₁⟩ := Player.exists_run_of_relay
    [(attemptPlayer ⟨"default", "nm"⟩ .handleCordon 3, [.start (), .finish () 10]),
      (attemptPlayer ⟨"default", "nm"⟩ .handleCordon 10, [.start (), .calls () 3])]
    (betweenAttempts createdMaintenance) (endedWell .handleCordon) (by decide +kernel)
  obtain ⟨c₂, run₂, hc₂⟩ := Player.exists_run_of_relay
    [(attemptPlayer ⟨"default", "nm"⟩ .handleCordon 3, [.start (), .finish () 10]),
      (attemptPlayer ⟨"default", "nm"⟩ .handleCordon 10, [.start (), .finish () 10]),
      (attemptPlayer ⟨"default", "nm"⟩ .handleUnCordon 10, [.start (), .calls () 4])]
    (betweenAttempts createdMaintenance) (endedWell .handleUnCordon) (by decide +kernel)
  obtain ⟨a₁, ha₁⟩ := exists_of_endedWell hc₁
  obtain ⟨a₂, ha₂⟩ := exists_of_endedWell hc₂
  refine ⟨h, ⟨c₁, run₁, hc₁, ?_⟩, c₂, run₂, hc₂, ?_⟩
  · exact (cordon_crash_safe h run₁).2.1 a₁ ha₁
  · exact ((cordon_crash_safe h run₂).2.2 a₂ ha₂).2.1

end MaintenanceOperator
