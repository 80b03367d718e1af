import MaintenanceOperator.Cluster.Serve
import MaintenanceOperator.Controller.Changes
import MaintenanceOperator.Openshift.Walk

/-!
# Nodes and their pools

The assignment of nodes to MachineConfigPools: `getMCPName` finds the pool of a node through the
MachineConfig that the node asks for, while the check in `UnpauseMCP` goes the other way, from the node
selector of a pool to nodes. Here the assignment is fixed and the two agree on the nodes of a pool; the
selector of a pool may match nodes of other pools, too. The second part follows the pool label of an
object through phase Scheduled, in any system whose reads are up to date.
-/

namespace MaintenanceOperator
open Lib Discipline Host

/-- The pool of each node, the pool that owns each MachineConfig, and the node selector of each pool. -/
structure Assignment where
  pool : String → Option String
  owner : String → Option String
  selector : String → Option LabelSelector
  named : ∀ {config name}, owner config = some name → name ≠ ""

/-- The MachineConfig that this version of a node asks for belongs to the pool of the node. -/
def Assignment.Covers (A : Assignment) (node : Node) : Prop :=
  ∀ config name, node.annotations.get? desiredMachineConfigAnnotationKey = some config →
    A.owner config = some name → A.pool node.name = some name

/-- The cluster agrees with the assignment, and the pool of each node selects it. -/
structure Assigned (A : Assignment) (w : World) : Prop where
  config : ∀ {c mc}, w.machineConfigs.get c = some mc → poolOwner mc = A.owner c
  covers : ∀ {n node}, w.nodes.get n = some node → A.Covers node
  selected : ∀ {n node name}, w.nodes.get n = some node → A.pool n = some name →
    selectorAccepts (A.selector name) node.labels = true
  selector : ∀ {name p}, w.pools.get name = some p → p.nodeSelector = A.selector name

/-- What the others leave alone: the paused flag and the operator's annotation of pools, and the pool
label of objects. Nodes stay. -/
structure LeavesPools (w w' : World) : Prop where
  kept : ∀ {name p}, w.pools.get name = some p →
    ∃ p', w'.pools.get name = some p' ∧ p'.flags = p.flags
  created : ∀ {name p'}, w.pools.get name = none → w'.pools.get name = some p' →
    p'.flags = (false, none)
  node : ∀ {n}, (w.nodes.get n).isSome = true → (w'.nodes.get n).isSome = true
  label : ∀ {k o'}, w'.nms.get k = some o' → (∃ o, w.nms.get k = some o ∧ mcpLabel o' = mcpLabel o) ∨
    w.nms.get k = none ∧ mcpLabel o' = ""

lemma LeavesPools.label_eq {w w' : World} {k : NamespacedName} {o o' : NodeMaintenance}
    (h : LeavesPools w w') (ho : w.nms.get k = some o) (ho' : w'.nms.get k = some o') :
    mcpLabel o' = mcpLabel o := by
  rcases h.label ho' with ⟨o₁, ho₁, e⟩ | ⟨hnone, -⟩
  · obtain rfl := Option.some.inj (ho₁.symm.trans ho)
    exact e
  · rw [hnone] at ho
    cases ho

section Calls
variable {mode : ReadMode} {A : Assignment} {e : Op} {w w' : World} {a : Resp e} {n : String}
  {node : Node}

/-- A node after a call is as it was before, up to the flag. -/
lemma Perform.node_before (h : Perform mode e w a w') (hn : w'.nodes.get n = some node) :
    ∃ u, w.nodes.get n = some { node with unschedulable := u } := by
  by_cases he : e.part = .nodes
  · cases e with
    | patchUnschedulable name desired =>
      rcases WriteAnswer.effect h with rfl | ⟨_, heff⟩
      · exact ⟨node.unschedulable, hn⟩
      · obtain ⟨nd, hnd, rfl⟩ := World.patchUnschedulable_eq_some heff
        obtain rfl := Store.key_of_get hnd
        by_cases hname : n = nd.name
        · subst hname
          have hget := Store.get_put_self w.nodes { nd with unschedulable := desired }
          obtain rfl := Option.some.inj (hget.symm.trans hn)
          exact ⟨nd.unschedulable, hnd⟩
        · have hget : (w.nodes.put { nd with unschedulable := desired }).get n = w.nodes.get n :=
            Store.get_put_ne hname
          exact ⟨node.unschedulable, hget.symm.trans hn⟩
    | _ => cases he
  · rw [h.frame.nodes he] at hn
    exact ⟨node.unschedulable, hn⟩

/-- A node before a call is still there after it. -/
lemma Perform.node_after (h : Perform mode e w a w') (hn : (w.nodes.get n).isSome = true) :
    (w'.nodes.get n).isSome = true := by
  by_cases he : e.part = .nodes
  · cases e with
    | patchUnschedulable name desired =>
      rcases WriteAnswer.effect h with rfl | ⟨_, heff⟩
      · exact hn
      · obtain ⟨nd, hnd, rfl⟩ := World.patchUnschedulable_eq_some heff
        obtain rfl := Store.key_of_get hnd
        by_cases hname : n = nd.name
        · subst hname
          exact Option.isSome_of_mem (Store.get_put_self w.nodes { nd with unschedulable := desired })
        · have hget : (w.nodes.put { nd with unschedulable := desired }).get n = w.nodes.get n :=
            Store.get_put_ne hname
          rw [hget]
          exact hn
    | _ => cases he
  · rw [h.frame.nodes he]
    exact hn

/-- No call of the operator touches the assignment. -/
lemma Assigned.call (h : Assigned A w) (hperf : Perform mode e w a w') : Assigned A w' := by
  refine ⟨fun {c mc} hmc => ?_, fun {n node} hn => ?_, fun {n node name} hn hpool => ?_,
    fun {name p} hp => ?_⟩
  · rw [hperf.frame.machineConfigs] at hmc
    exact h.config hmc
  · obtain ⟨u, hn'⟩ := hperf.node_before hn
    have hcov := h.covers hn'
    exact hcov
  · obtain ⟨u, hn'⟩ := hperf.node_before hn
    have hsel := h.selected hn' hpool
    exact hsel
  · obtain ⟨p₁, hp₁, rfl | ⟨pause, -, rfl⟩⟩ := hperf.pool_before hp
    · exact h.selector hp₁
    · rw [MachineConfigPool.nodeSelector_patch]
      exact h.selector hp₁

end Calls

variable {ι S α : Type} {Y : System ι Op Resp S α} {D : Discipline Y} {i : ι} {key : NamespacedName}
  {H : Host D i key} {A : Assignment} {B : S → Prop} {node : Node}

section Pools
variable (hcur : ∀ {e s a s'}, Y.exec i e s a s' → Perform .current e (H.world s) a (H.world s'))
  {name : String}
include hcur

/-- Reading a pool. -/
lemma getPool_current {K : MachineConfigPool → S → Prop} (hB : H.Lasting B)
    (hK : ∀ p, H.Lasting (K p))
    (h : ∀ s p, D.inv s → B s → (H.world s).pools.get name = some p → K p s) :
    D.TripleE i B (Client.getMachineConfigPool name) fun p s => p.name = name ∧ K p s := by
  refine Triple.lift hB.stable (fun _ => Stable.ok fun p => (Stable.const _).and (hK p).stable)
    (fun s hs _ => H.perm_read hs rfl) ?_
  rintro s _ s' hs hs' hBs hexec p rfl
  have hread : (H.world s).pools.get name = some p := (hcur hexec).2
  refine ⟨Store.key_of_get hread, hK p s s' hs hs' ?_ (h s p hs hBs hread)⟩
  exact H.keeps_read hs hs' hexec rfl

/-- A patch of a pool. -/
lemma patchPool_current {Q : S → Prop} {pause : Bool} (hB : H.Lasting B) (hQ : H.Lasting Q)
    (hperm : ∀ s, B s → D.perm i s (.patchMachineConfigPool name pause))
    (h : ∀ s a s' p, B s → Y.exec i (.patchMachineConfigPool name pause) s a s' →
      (H.world s).pools.get name = some p →
      H.world s' = { H.world s with pools := (H.world s).pools.put (p.patch pause) } → Q s') :
    D.TripleE i B (Client.patchMachineConfigPool name pause) fun p s => p.name = name ∧ Q s := by
  refine Triple.lift hB.stable (fun _ => Stable.ok fun _ => (Stable.const _).and hQ.stable)
    (fun s _ => hperm s) ?_
  rintro s _ s' - - hBs hexec q rfl
  obtain ⟨p, hpool, rfl, hw⟩ := World.patchPool_eq_some (WriteAnswer.ok (hcur hexec))
  refine ⟨?_, h s _ s' p hBs hexec hpool hw⟩
  rw [MachineConfigPool.name_patch]
  exact Store.key_of_get hpool

/-- `getMCPName` finds the pool of the node. -/
lemma getMCPName_assigned
    (hinv : ∀ {s}, D.inv s → Assigned A (H.world s)) (hB : H.Lasting B) (hnode : A.Covers node) :
    D.TripleE i B (getMCPName node) fun name s =>
      (A.pool node.name = some name ∧ name ≠ "") ∧ B s := by
  unfold getMCPName
  split
  · exact .throw
  · rename_i config hconfig
    have hread : D.TripleE i B (Client.getMachineConfig config) fun mc s =>
        poolOwner mc = A.owner config ∧ B s := by
      refine Triple.lift hB.stable (fun _ => Stable.ok fun _ => (Stable.const _).and hB.stable)
        (fun s hs _ => H.perm_read hs rfl) ?_
      rintro s _ s' hs hs' hBs hexec mc rfl
      refine ⟨(hinv hs).config (hcur hexec).2, ?_⟩
      exact hB s s' hs hs' (H.keeps_read hs hs' hexec rfl) hBs
    refine TripleE.bind (TripleE.adapt hread) fun mc => TripleE.of_pure fun howner => ?_
    split
    · rename_i name hname
      have hown : A.owner config = some name := howner.symm.trans hname
      exact .pure hB.stable fun s _ h => ⟨⟨hnode config name hconfig hown, A.named hown⟩, h⟩
    · exact .throw

end Pools

/-! ### The label of an object -/

/-- The node of an object, as it was read. -/
structure OnNode (A : Assignment) (node : Node) (m : NodeMaintenance) (w : World) : Prop where
  name : node.name = m.spec.nodeName
  covers : A.Covers node
  found : (w.nodes.get m.spec.nodeName).isSome = true

/-- The stored object has the finalizer, this UID and this label. -/
def Labelled (key : NamespacedName) (uid name : String) (w : World) : Prop :=
  ∃ o, w.nms.get key = some o ∧ Guarded o ∧ o.uid = uid ∧ mcpLabel o = name

lemma OnNode.alike {m a : NodeMaintenance} {w : World} (h : OnNode A node m w)
    (hal : a.spec.nodeName = m.spec.nodeName) : OnNode A node a w :=
  ⟨h.name.trans hal.symm, h.covers, hal ▸ h.found⟩

section Labels
variable {F : S → Prop} {m : NodeMaintenance} {name : String} (hF : H.Firm F)
  (hlasting : ∀ uid name, H.Lasting fun s => Labelled key uid name (H.world s))
include hF hlasting

/-- After `AddFinalizer` the object stands there with the finalizer and its label. -/
lemma addFinalizer_labelled
    (hok : ∀ s refs, D.inv s → (H.world s).nms.get key = some { m with ownerReferences := refs } →
      H.MayUpdate s { m with ownerReferences := refs }
        { m with finalizers := m.finalizers ++ [maintenanceFinalizerName] }) :
    D.TripleE i (fun s => H.Holds m s ∧ F s ∧ (Guarded m → Labelled key m.uid (mcpLabel m) (H.world s)))
      (addFinalizer m maintenanceFinalizerName) fun a s =>
        (Guarded a ∧ Alike { m with finalizers := a.finalizers } a) ∧ H.Holds a s ∧ F s ∧
          Labelled key a.uid (mcpLabel a) (H.world s) := by
  refine TripleE.conseq (addFinalizer_triple (m := m)
    (L := fun s => Guarded m → Labelled key m.uid (mcpLabel m) (H.world s))
    (E := fun s => Labelled key m.uid (mcpLabel m) (H.world s)) hF ?_ (hlasting _ _).stable hok ?_ ?_)
    (fun _ _ h => h) ?_
  · exact fun s s' hi hi' hk h hg => hlasting _ _ s s' hi hi' hk (h hg)
  · exact fun hg s h => h hg
  · exact fun s a _ ho hg hal => ⟨a, ho, hg, hal.uid, hal.label⟩
  · rintro a s - ⟨⟨hg, hal⟩, hm, hFs, hl⟩
    rw [show a.uid = m.uid from hal.uid, show mcpLabel a = mcpLabel m from hal.label]
    exact ⟨⟨hg, hal⟩, hm, hFs, hl⟩

/-- The label step leaves the stored object labelled. -/
lemma setMCPLabel_labelled
    (hcur : ∀ {e s a s'}, Y.exec i e s a s' → Perform .current e (H.world s) a (H.world s'))
    (hg : Guarded m)
    (hok : ∀ s refs, D.inv s → F s →
      (H.world s).nms.get key = some { m with ownerReferences := refs } →
      H.MayUpdate s { m with ownerReferences := refs }
        { m with labels := m.labels.set mcpNameLabelKey name }) :
    D.TripleE i (fun s => H.Holds m s ∧ F s ∧ Labelled key m.uid (mcpLabel m) (H.world s))
      (setMCPLabel m name) fun a s =>
        (a.key = key ∧ a.uid = m.uid) ∧ F s ∧ Labelled key m.uid name (H.world s) := by
  have hG : ∀ name, H.Lasting fun s => F s ∧ Labelled key m.uid name (H.world s) :=
    fun name => hF.1.and (hlasting _ _)
  refine setMCPLabel_triple (hG _) (hG name) ?_ ?_ ?_
  · intro hname s hm h
    exact ⟨⟨hm.1, rfl⟩, hname ▸ h⟩
  · rintro s a s' - ⟨-, o, ho, -, hu, -⟩ hexec
    -- the poll reads the stored object, which carries the label since the update
    have hread : (H.world s).nms.get key = some a := (hcur hexec).2
    obtain rfl := Option.some.inj (ho.symm.trans hread)
    exact ⟨Store.key_of_get hread, hu⟩
  · refine Triple.assume (fun s _ h => h.1.1) fun hkey => ?_
    refine TripleE.pre (Outcome.ok (update_triple (m := m) hF
      (fun a => (Stable.const _).and (hG name).stable) ⟨rfl, rfl, rfl⟩ hok ?_))
      fun s _ h => ⟨h.1, h.2.1⟩
    intro s s' refs _ _ hFs _ hw
    have hg' : Guarded ((H.world s).merge { m with ownerReferences := refs }
        { m with labels := m.labels.set mcpNameLabelKey name } m.spec.normalize) := hg
    refine ⟨hkey, hFs, _, ?_, hg', rfl, by simp [mcpLabel, World.merge]⟩
    subst hkey
    rw [hw]
    exact (World.get_write_self _ _).trans (by rw [hg'.not_gone]; rfl)

end Labels

/-! ### Computed runs -/

/-- A test for `Assigned`. -/
def Assignment.agrees (A : Assignment) (w : World) : Bool :=
  w.machineConfigs.items.all (fun mc => poolOwner mc = A.owner mc.name) &&
  w.nodes.items.all (fun node => (A.pool node.name).all (fun name =>
      selectorAccepts (A.selector name) node.labels) &&
    (node.annotations.get? desiredMachineConfigAnnotationKey).all fun config =>
      (A.owner config).all fun name => A.pool node.name = some name) &&
  w.pools.items.all fun p => p.nodeSelector = A.selector p.name

lemma assigned_of_agrees {w : World} (h : A.agrees w = true) : Assigned A w := by
  simp only [Assignment.agrees, Bool.and_eq_true, List.all_eq_true, decide_eq_true_eq] at h
  obtain ⟨⟨hconfigs, hnodes⟩, hpools⟩ := h
  refine ⟨fun {c mc} hmc => ?_, fun {n node} hn config name hconfig hown => ?_,
    fun {n node name} hn hpool => ?_, fun {name p} hp => ?_⟩
  · rw [← Store.key_of_get hmc]
    exact hconfigs mc (Store.get_mem hmc)
  · have hall := (hnodes node (Store.get_mem hn)).2
    rw [hconfig, Option.all_some, hown, Option.all_some] at hall
    simpa using hall
  · have hall := (hnodes node (Store.get_mem hn)).1
    have hname : node.name = n := Store.key_of_get hn
    rw [hname, hpool, Option.all_some] at hall
    exact hall
  · rw [← Store.key_of_get hp]
    exact hpools p (Store.get_mem hp)

/-- A turn of the others, as long as the cluster agrees with the assignment. -/
def Assignment.turn (A : Assignment) (w : World) (t : Turn) : Option World :=
  (w.turn t).filter A.agrees

lemma Assignment.env_of_turn {w w' : World} {t : Turn} (h : A.turn w t = some w') :
    Happens w w' ∧ LeavesPools w w' ∧ Assigned A w' := by
  obtain ⟨hturn, hagrees⟩ := Option.filter_eq_some_iff.mp h
  obtain ⟨hc, o, o', rfl, -, -⟩ := World.change_of_turn hturn
  refine ⟨hc.happens, ⟨fun {name p} hp => ⟨p, hp, rfl⟩, fun {name p'} hnone hp' => ?_, fun hn => hn,
    fun {k a} ha => ?_⟩, assigned_of_agrees hagrees⟩
  · exact absurd (hnone.symm.trans hp') nofun
  · exact (hc.marks k a ha).imp (fun ⟨o, ho, _, hl⟩ => ⟨o, ho, hl⟩) fun hnew => ⟨hnew.1, hnew.2.2⟩

/-- The pool of workers. -/
def workerPool : MachineConfigPool :=
  ⟨"worker", [], some ⟨[("worker", "")], []⟩, false, "rendered-worker", "rendered-worker"⟩

/-- The MachineConfig of the workers. -/
def workerConfig : MachineConfig := ⟨"rendered-worker", [⟨"", "MachineConfigPool", "worker", "worker"⟩]⟩

/-- A node with these roles that asks for this MachineConfig. -/
def roleNode (name config : String) (roles : List (String × String)) : Node :=
  ⟨name, name, roles, [(desiredMachineConfigAnnotationKey, config)], false, []⟩

/-- An object for a node. -/
def maintenanceOn (name node : String) : NodeMaintenance :=
  newNodeMaintenance ⟨"default", name⟩ name
    ⟨"requestor.nvidia.com", [], node, true, none, some ⟨false, "", 300, false, []⟩⟩

/-- All nodes are in the pool of workers. -/
def workers : Assignment where
  pool _ := some "worker"
  owner config := if config = "rendered-worker" then some "worker" else none
  selector _ := workerPool.nodeSelector
  named {config name} h := by
    split at h
    · cases h
      decide
    · cases h

/-- A cluster with these nodes and pools, and with an object for each of the first two nodes. -/
def poolCluster (nodes : List Node) (configs : List MachineConfig) (pools : List MachineConfigPool) :
    World :=
  ({ World.empty with
    nodes := .ofList nodes
    machineConfigs := .ofList configs
    pools := .ofList pools }.write (maintenanceOn "nm" "node-1")).write (maintenanceOn "nm2" "node-2")

lemma consistent_poolCluster (nodes : List Node) (configs : List MachineConfig)
    (pools : List MachineConfigPool) : Consistent (poolCluster nodes configs pools) := by
  refine Consistent.write (Consistent.write (w := { World.empty with
    nodes := .ofList nodes
    machineConfigs := .ofList configs
    pools := .ofList pools }) (Consistent.empty.of_eq rfl rfl rfl) fun v hv => nomatch hv)
    fun v hv e => ?_
  obtain rfl := List.mem_singleton.mp hv
  have huid : "nm" = "nm2" := e
  exact absurd huid (by decide)

/-- Two workers, with an object for each of them. -/
def twoWorkers : World :=
  poolCluster [roleNode "node-1" "rendered-worker" [("worker", "")],
    roleNode "node-2" "rendered-worker" [("worker", "")]] [workerConfig] [workerPool]

/-- The UID of the object that `PauseMCP` succeeded for. -/
def Note.paused? : Note → Option String
  | .pauseMCP nm none => some nm.uid
  | _ => none

/-- The UID of the object that `UnpauseMCP` was called for. -/
def Note.unpaused? : Note → Option String
  | .unpauseMCP nm => some nm.uid
  | _ => none

end MaintenanceOperator
