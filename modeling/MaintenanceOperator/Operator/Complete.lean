import MaintenanceOperator.Operator.ProcessPlayer

/-!
# The process and the operator

What the options do in the whole process. The mailboxes keep to their protocol in every run
(`options`), so a scheduler round works with the limits of one version of the configuration, those stored
last before the round loaded them, however the calls of the threads interleave
(`options_protocol`). With its options loaded, a round of the process shows the calls of a round of the
operator with these options, and all that the services do to the cluster is asking for deletions, as the
users may: every run of the process is seen as a run of the operator (`process_refines_operator`).
-/

namespace MaintenanceOperator
open Lib Discipline Scheduler

/-- The name of the configuration of the operator. -/
def Setup.configKey (U : Setup) : NamespacedName := ⟨U.operatorNamespace, defaultMaintenanceOperatorConifgName⟩

/-- Some version of the configuration has this property. -/
def Configured (U : Setup) (s : ProcessState) (P : MaintenanceOperatorConfigSpec → Prop) : Prop :=
  ∃ cfg ∈ s.configs, cfg.key = U.configKey ∧ P cfg.spec

/-- The mailboxes keep to their protocol, and what is stored comes from a version of the configuration. -/
structure OptionsInv (U : Setup) (s : ProcessState) : Prop where
  scheduler : Mailbox.Inv newSchedulerOptions.values s.schedulerOptions
  collector : Mailbox.Inv newCollectorOptions s.collectorOptions
  limits : ∀ v, .stored v ∈ s.schedulerOptions.log → Configured U s fun spec => v = spec.limits.values
  maxTimes : ∀ v, .stored v ∈ s.collectorOptions.log → Configured U s fun spec => v = fun _ => spec.maxTime
  configs : ∀ cfg ∈ s.configs, cfg.spec.WellFormed

/-- Which calls are in order. -/
def optionsPerm (U : Setup) (i : Worker ⊕ Service) (s : ProcessState) : Op ⊕ OwnOp → Prop
  | .inl e => i.isRight = true → e = .listNodeMaintenances ∨ e = .now
  | .inr (.schedulerOptions e) => ∀ side, schedulerSide i = some side →
      Mailbox.Perm newSchedulerOptions.values side s.schedulerOptions e ∧
        ∀ v, e = .note (.stored v) → Configured U s fun spec => v = spec.limits.values
  | .inr (.collectorOptions e) => ∀ side, collectorSide i = some side →
      Mailbox.Perm newCollectorOptions side s.collectorOptions e ∧
        ∀ v, e = .note (.stored v) → Configured U s fun spec => v = fun _ => spec.maxTime
  | .inr (.deleteNodeMaintenance _) => i.isRight = true
  | .inr _ => True

/-- What a thread can rely upon. -/
structure OptionsRely (i : Worker ⊕ Service) (s s' : ProcessState) : Prop where
  configs : ∀ cfg ∈ s.configs, cfg ∈ s'.configs
  scheduler : ∀ side, schedulerSide i = some side →
    Mailbox.Rely newSchedulerOptions.values side s.schedulerOptions s'.schedulerOptions
  collector : ∀ side, collectorSide i = some side →
    Mailbox.Rely newCollectorOptions side s.collectorOptions s'.collectorOptions

section Moves
variable {U : Setup} {s s' : ProcessState} {i j : Worker ⊕ Service}

lemma Configured.mono {P : MaintenanceOperatorConfigSpec → Prop} (h : Configured U s P)
    (hc : ∀ cfg ∈ s.configs, cfg ∈ s'.configs) : Configured U s' P := by
  obtain ⟨cfg, hcfg, rest⟩ := h
  exact ⟨cfg, hc cfg hcfg, rest⟩

/-- Each side of a mailbox belongs to one thread. -/
lemma schedulerSide_ne {a b : Side} (hne : i ≠ j) (hi : schedulerSide i = some a)
    (hj : schedulerSide j = some b) : a ≠ b := by
  rintro rfl
  apply hne
  rcases i with (_ | _) | _ | _ <;> rcases j with (_ | _) | _ | _ <;> simp_all [schedulerSide] <;> grind

lemma collectorSide_ne {a b : Side} (hne : i ≠ j) (hi : collectorSide i = some a)
    (hj : collectorSide j = some b) : a ≠ b := by
  rintro rfl
  apply hne
  rcases i with (_ | _) | _ | _ <;> rcases j with (_ | _) | _ | _ <;> simp_all [collectorSide] <;> grind

/-- Where mailboxes and configurations stay, there is nothing to show. -/
lemma OptionsInv.of_same (h : OptionsInv U s) (hs : s'.schedulerOptions = s.schedulerOptions)
    (hc : s'.collectorOptions = s.collectorOptions) (hcfg : s'.configs = s.configs) : OptionsInv U s' := by
  have hmono : ∀ cfg ∈ s.configs, cfg ∈ s'.configs := fun cfg h => hcfg ▸ h
  refine ⟨hs ▸ h.scheduler, hc ▸ h.collector, fun v hv => ?_, fun v hv => ?_, hcfg ▸ h.configs⟩
  · exact (h.limits v (hs ▸ hv)).mono hmono
  · exact (h.maxTimes v (hc ▸ hv)).mono hmono

lemma OptionsRely.of_same (hs : s'.schedulerOptions = s.schedulerOptions)
    (hc : s'.collectorOptions = s.collectorOptions) (hcfg : ∀ cfg ∈ s.configs, cfg ∈ s'.configs) :
    OptionsRely i s s' :=
  ⟨hcfg, fun side _ => hs ▸ .refl _ side _, fun side _ => hc ▸ .refl _ side _⟩

lemma OptionsInv.call {e : Op ⊕ OwnOp} {r : Sum.elim Resp OwnResp e} (h : OptionsInv U s)
    (hp : optionsPerm U i s e) (hx : processExec i e s r s') : OptionsInv U s' := by
  cases e with
  | inl e =>
    obtain ⟨cluster, -, -, rfl⟩ := hx
    exact h.of_same rfl rfl rfl
  | inr e =>
    cases e with
    | schedulerOptions e =>
      obtain ⟨side, b, hside, hexec, rfl⟩ := hx
      obtain ⟨hperm, hmay⟩ := hp side hside
      refine ⟨h.scheduler.exec hperm hexec, h.collector, fun v hv => ?_, h.maxTimes, h.configs⟩
      rcases Mailbox.stored_of_exec hexec hv with hv | rfl
      · exact h.limits v hv
      · exact hmay v rfl
    | collectorOptions e =>
      obtain ⟨side, b, hside, hexec, rfl⟩ := hx
      obtain ⟨hperm, hmay⟩ := hp side hside
      refine ⟨h.scheduler, h.collector.exec hperm hexec, h.limits, fun v hv => ?_, h.configs⟩
      rcases Mailbox.stored_of_exec hexec hv with hv | rfl
      · exact h.maxTimes v hv
      · exact hmay v rfl
    | getConfig key =>
      obtain ⟨rfl, -⟩ := hx
      exact h
    | level =>
      obtain ⟨rfl, -⟩ := hx
      exact h
    | setLevel l =>
      obtain rfl := hx
      exact h.of_same rfl rfl rfl
    | deleteNodeMaintenance nm =>
      obtain ⟨w', -, rfl⟩ := hx
      exact h.of_same rfl rfl rfl

lemma OptionsRely.of_call {e : Op ⊕ OwnOp} {r : Sum.elim Resp OwnResp e} (hne : i ≠ j)
    (hp : optionsPerm U i s e) (hx : processExec i e s r s') : OptionsRely j s s' := by
  cases e with
  | inl e =>
    obtain ⟨cluster, -, -, rfl⟩ := hx
    exact .of_same rfl rfl fun _ h => h
  | inr e =>
    cases e with
    | schedulerOptions e =>
      obtain ⟨side, b, hside, hexec, rfl⟩ := hx
      refine ⟨fun _ h => h, fun other hother => ?_, fun side _ => .refl _ side _⟩
      exact .exec (schedulerSide_ne hne hside hother) (hp side hside).1 hexec
    | collectorOptions e =>
      obtain ⟨side, b, hside, hexec, rfl⟩ := hx
      refine ⟨fun _ h => h, fun side _ => .refl _ side _, fun other hother => ?_⟩
      exact .exec (collectorSide_ne hne hside hother) (hp side hside).1 hexec
    | getConfig key =>
      obtain ⟨rfl, -⟩ := hx
      exact .of_same rfl rfl fun _ h => h
    | level =>
      obtain ⟨rfl, -⟩ := hx
      exact .of_same rfl rfl fun _ h => h
    | setLevel l =>
      obtain rfl := hx
      exact .of_same rfl rfl fun _ h => h
    | deleteNodeMaintenance nm =>
      obtain ⟨w', -, rfl⟩ := hx
      exact .of_same rfl rfl fun _ h => h

lemma OptionsInv.event (h : OptionsInv U s) (he : ProcessEvent U s s') : OptionsInv U s' := by
  cases he with
  | cluster _ _ => exact h.of_same rfl rfl rfl
  | config cfg hcfg =>
    refine ⟨h.scheduler, h.collector, fun v hv => ?_, fun v hv => ?_, ?_⟩
    · exact (h.limits v hv).mono fun _ => .tail _
    · exact (h.maxTimes v hv).mono fun _ => .tail _
    · intro c hc
      rcases List.mem_cons.mp hc with rfl | hc
      · exact hcfg
      · exact h.configs c hc
  | tick _ => exact h.of_same rfl rfl rfl

lemma OptionsRely.of_event (he : ProcessEvent U s s') : OptionsRely i s s' := by
  cases he with
  | cluster _ _ => exact .of_same rfl rfl fun _ h => h
  | config cfg _ => exact .of_same rfl rfl fun _ => .tail _
  | tick _ => exact .of_same rfl rfl fun _ h => h

end Moves

/-- The proof plan for the options. -/
def options (U : Setup) : Discipline (process U) where
  inv := OptionsInv U
  perm := optionsPerm U
  rely := OptionsRely
  inv_call := OptionsInv.call
  rely_call hne _ hp hx := .of_call hne hp hx
  inv_env := OptionsInv.event
  rely_env _ _ he := .of_event he

section Seats
variable {U : Setup}

/-- The scheduler's options, for the thread with the given side. -/
def schedulerSeat (U : Setup) (i : Worker ⊕ Service) (side : Side) (hside : schedulerSide i = some side) :
    Seat (options U) i newSchedulerOptions.values side where
  box := ProcessState.schedulerOptions
  Same s s' := ∃ b, s' = { s with schedulerOptions := b }
  May s v := Configured U s fun spec => v = spec.limits.values
  issue e := ownCall (.schedulerOptions e)
  inv h := h.scheduler
  rely h := h.scheduler side hside
  triple := by
    intro e A B hA hB hp h
    refine Triple.lift hA hB ?_ ?_
    · intro s hs hAs other hother
      obtain rfl : side = other := Option.some.inj (hside.symm.trans hother)
      exact hp s hs hAs
    · rintro s r s' hs hs' hAs ⟨other, b, hother, hexec, rfl⟩
      obtain rfl : side = other := Option.some.inj (hside.symm.trans hother)
      exact h s r _ hs hs' hAs hexec ⟨b, rfl⟩

/-- The garbage collector's options, for the thread with the given side. -/
def collectorSeat (U : Setup) (i : Worker ⊕ Service) (side : Side) (hside : collectorSide i = some side) :
    Seat (options U) i newCollectorOptions side where
  box := ProcessState.collectorOptions
  Same s s' := ∃ b, s' = { s with collectorOptions := b }
  May s v := Configured U s fun spec => v = fun _ => spec.maxTime
  issue e := ownCall (.collectorOptions e)
  inv h := h.collector
  rely h := h.collector side hside
  triple := by
    intro e A B hA hB hp h
    refine Triple.lift hA hB ?_ ?_
    · intro s hs hAs other hother
      obtain rfl : side = other := Option.some.inj (hside.symm.trans hother)
      exact hp s hs hAs
    · rintro s r s' hs hs' hAs ⟨other, b, hother, hexec, rfl⟩
      obtain rfl : side = other := Option.some.inj (hside.symm.trans hother)
      exact h s r _ hs hs' hAs hexec ⟨b, rfl⟩

end Seats

/-! ### The threads -/

section Threads
variable {U : Setup} {i : Worker ⊕ Service} {α : Type}

/-- The scheduler's side of its options. -/
abbrev schedulerReader (U : Setup) := schedulerSeat U (.inl .scheduler) .reader rfl

/-- The garbage collector's side of its options. -/
abbrev collectorReader (U : Setup) := collectorSeat U (.inr .garbageCollector) .reader rfl

lemma mem_schedulerOptions (f : SchedulerOption) : f ∈ schedulerOptions := by cases f <;> decide

lemma mem_collectorOptions (f : CollectorOption) : f ∈ collectorOptions := by cases f; decide

/-- Calls that reach the cluster leave the loaded options alone. -/
lemma schedulerLoaded_cluster {v : SchedulerOption → Option IntOrString} {e : Op} {s s' : ProcessState}
    {r : Resp e} (hx : processExec i (.inl e) s r s') (h : (schedulerReader U).Loaded v s) :
    (schedulerReader U).Loaded v s' := by
  obtain ⟨cluster, -, -, rfl⟩ := hx
  exact h

/-- Load. -/
lemma loadSchedulerOptions_triple : (options U).Triple (.inl .scheduler) (fun _ => True) loadSchedulerOptions
    fun _ s => ∃ v, (schedulerReader U).Loaded v s :=
  (Seat.load_triple (K := schedulerReader U) mem_schedulerOptions (.const True)).conseq (fun _ _ h => h)
    fun _ _ _ h => h.1

/-- The getters. -/
lemma schedulerOption_triple {v : SchedulerOption → Option IntOrString} (f : SchedulerOption) :
    (options U).Triple (.inl .scheduler) ((schedulerReader U).Loaded v) (onSchedulerOptions (Mailbox.get f))
      fun x s => x = v f ∧ (schedulerReader U).Loaded v s :=
  (Seat.get_triple (K := schedulerReader U) (.const True)).conseq (fun _ _ h => ⟨h, trivial⟩)
    fun _ _ _ h => ⟨h.1.2, h.1.1⟩

/-- The use of the options. -/
lemma schedulerUse_triple {v : SchedulerOption → Option IntOrString} :
    (options U).Triple (.inl .scheduler) ((schedulerReader U).Loaded v)
      (onSchedulerOptions (Mailbox.issue (.note (.used v)))) fun _ => (schedulerReader U).Loaded v :=
  (Seat.use_triple (K := schedulerReader U) (.const True)).conseq (fun _ _ h => ⟨h, trivial⟩)
    fun _ _ _ h => h.1

/-- The options that the values of the fields stand for. -/
def optionsOf (v : SchedulerOption → Option IntOrString) : Options := ⟨v .maxUnavailable, v .maxParallelOperations⟩

lemma values_optionsOf (v : SchedulerOption → Option IntOrString) : (optionsOf v).values = v := by
  funext f
  cases f <;> rfl

/-- What stays outside the process keeps what is known of the options. -/
lemma shown_triple {w : Worker} {A : ProcessState → Prop} (hA : (options U).Stable (.inl w) A)
    (hcall : ∀ s e r s', processExec (.inl w) (.inl e) s r s' → A s → A s') (p : Proc α) :
    (options U).Triple (.inl w) A p.shown fun _ => A := by
  refine Triple.of_all (P := fun e => e.isLeft = true) hA ?_ ?_ ?_
  · intro s e _ _ he
    cases e with
    | inl e => exact nofun
    | inr e => cases he
  · intro s e r s' _ _ hAs he hx
    cases e with
    | inl e => exact hcall s e r s' hx hAs
    | inr e => cases he
  · exact Prog.All.shown (Prog.All.of_forall (fun _ => rfl) p)

/-- A scheduler round keeps to the protocol of its options. -/
lemma reconcileScheduler_triple {sorter : Sorter compareRanked} :
    (options U).TripleE (.inl .scheduler) (fun _ => True) (reconcileScheduler sorter) fun _ _ => True := by
  have hread : ∀ {v} (f : SchedulerOption), (options U).TripleE (.inl .scheduler)
      ((schedulerReader U).Loaded v) (inside (onSchedulerOptions (Mailbox.get f)))
      fun x s => x = v f ∧ (schedulerReader U).Loaded v s := fun f => .lift (schedulerOption_triple f)
  have hshown : ∀ {β : Type} {v} (x : Action β), (options U).TripleE (.inl .scheduler)
      ((schedulerReader U).Loaded v) (shown x) fun _ => (schedulerReader U).Loaded v := by
    intro β v x
    have h := shown_triple (U := U) (Seat.stable_loaded (K := schedulerReader U) (v := v))
      (fun _ _ _ _ hx h => schedulerLoaded_cluster hx h) x.run
    exact Triple.conseq h (fun _ _ h => h) fun _ _ _ h _ _ => h
  unfold reconcileScheduler
  refine TripleE.bind (TripleE.lift loadSchedulerOptions_triple) fun _ => TripleE.of_exists fun v => ?_
  refine TripleE.bind (hread .maxUnavailable) fun _ => TripleE.of_pure fun _ => ?_
  refine TripleE.bind (hread .maxParallelOperations) fun _ => TripleE.of_pure fun _ => ?_
  unfold scheduleRound
  refine TripleE.bind (hshown _) fun nodes => TripleE.bind (hshown _) fun nms => ?_
  refine TripleE.bind (hread .maxUnavailable) fun a => TripleE.of_pure fun ha => ?_
  refine TripleE.bind (hread .maxParallelOperations) fun b => TripleE.of_pure fun hb => ?_
  have hv : (Options.mk a b).values = v := by
    rw [ha, hb]
    exact values_optionsOf v
  refine TripleE.bind (B := fun _ => (schedulerReader U).Loaded v) (TripleE.lift (hv ▸ schedulerUse_triple)) fun _ => ?_
  exact (hshown _).conseq (fun _ _ h => h) fun _ _ _ _ => trivial

/-- The calls by which the garbage collector reaches the cluster. -/
def collectorCalls : Op ⊕ OwnOp → Prop
  | .inl e => e = .listNodeMaintenances ∨ e = .now
  | .inr (.deleteNodeMaintenance _) => True
  | .inr _ => False

lemma collectorCall_all (e : GarbageCollector.Op) : (collectorCall e).All collectorCalls := by
  cases e with
  | listNodeMaintenances => exact ⟨.inl rfl, fun _ => trivial⟩
  | now => exact ⟨.inr rfl, fun _ => trivial⟩
  | delete nm => exact ⟨trivial, fun _ => trivial⟩

/-- They leave its options alone. -/
lemma collectorProgram_triple {v : CollectorOption → Int} (p : Prog GarbageCollector.Op GarbageCollector.Resp α) :
    (options U).Triple (.inr .garbageCollector) ((collectorReader U).Loaded v) (p.translate collectorCall)
      fun _ => (collectorReader U).Loaded v := by
  refine Triple.of_all (P := collectorCalls) Seat.stable_loaded ?_ ?_ (Prog.All.translate collectorCall_all p)
  · intro s e _ _ he
    cases e with
    | inl e => exact fun _ => he
    | inr e =>
      cases e with
      | deleteNodeMaintenance nm => rfl
      | _ => cases he
  · intro s e r s' _ _ h he hx
    cases e with
    | inl e =>
      obtain ⟨cluster, -, -, rfl⟩ := hx
      exact h
    | inr e =>
      cases e with
      | deleteNodeMaintenance nm =>
        obtain ⟨w', -, rfl⟩ := hx
        exact h
      | _ => cases he

/-- The getter. -/
lemma maxNodeMaintenanceTime_triple {v : CollectorOption → Int} :
    (options U).Triple (.inr .garbageCollector) ((collectorReader U).Loaded v) maxNodeMaintenanceTime
      fun x s => x = v .maxNodeMaintenanceTime ∧ (collectorReader U).Loaded v s :=
  (Seat.get_triple (K := collectorReader U) (.const True)).conseq (fun _ _ h => ⟨h, trivial⟩)
    fun _ _ _ h => ⟨h.1.2, h.1.1⟩

/-- The loop of the garbage collector. -/
lemma collectAll_triple {T : TimeParser} {timeNow : Int} {v : CollectorOption → Int}
    (items : List NodeMaintenance) :
    (options U).Triple (.inr .garbageCollector) ((collectorReader U).Loaded v) (collectAll T timeNow items)
      fun _ => (collectorReader U).Loaded v := by
  induction items with
  | nil => exact .ret Seat.stable_loaded fun _ _ h => h
  | cons nm items ih =>
    refine Triple.bind maxNodeMaintenanceTime_triple fun maxTime => Triple.of_pure fun hmax => ?_
    have hv : (fun _ => maxTime) = v := by
      funext f
      cases f
      exact hmax
    have huse := Seat.use_triple (K := collectorReader U) (v := v) (.const True)
    refine Triple.bind (B := fun _ => (collectorReader U).Loaded v) ?_ fun _ =>
      Triple.bind (collectorProgram_triple _) fun _ => ih
    exact hv ▸ huse.conseq (fun _ _ h => ⟨h, trivial⟩) fun _ _ _ h => h.1

/-- A round of the garbage collector keeps to the protocol of its options. -/
lemma collectGarbage_triple {T : TimeParser} :
    (options U).Triple (.inr .garbageCollector) (fun _ => True) (collectGarbage T) fun _ _ => True := by
  have hload : (options U).Triple (.inr .garbageCollector) (fun _ => True) loadCollectorOptions
      fun _ s => ∃ v, (collectorReader U).Loaded v s :=
    (Seat.load_triple (K := collectorReader U) mem_collectorOptions (.const True)).conseq (fun _ _ h => h)
      fun _ _ _ h => h.1
  unfold collectGarbage
  refine Triple.bind hload fun _ => Triple.of_exists fun v => ?_
  refine Triple.bind maxNodeMaintenanceTime_triple fun _ => Triple.of_pure fun _ => ?_
  refine Triple.bind (collectorProgram_triple _) fun res => ?_
  cases res with
  | error err => exact .ret Seat.stable_loaded fun _ _ _ => trivial
  | ok items =>
    refine Triple.bind (collectorProgram_triple _) fun timeNow => Triple.bind (collectAll_triple items) fun _ => ?_
    exact .ret Seat.stable_loaded fun _ _ _ => trivial

/-- This version of the configuration has been there. -/
def IsConfig (U : Setup) (cfg : MaintenanceOperatorConfig) (s : ProcessState) : Prop :=
  cfg ∈ s.configs ∧ cfg.key = U.configKey

lemma stable_isConfig {cfg : MaintenanceOperatorConfig} :
    (options U).Stable i (IsConfig U cfg) :=
  fun _ _ _ _ hr h => ⟨hr.configs cfg h.1, h.2⟩

/-- A configuration that the operator can decode has a level that it can parse. -/
lemma setLogLevel_triple {P : LevelParser} {A : ProcessState → Prop} {lvl : String}
    (hA : (options U).Stable (.inr .config) A) (hlvl : lvl ∈ logLevels)
    (hlevel : ∀ s l, A s → A { s with level := l }) :
    (options U).Triple (.inr .config) A (setLogLevel P lvl) fun err s => err = none ∧ A s := by
  have hparse : ∃ l, P.parse lvl = some l := by
    simp only [logLevels, List.mem_cons, List.not_mem_nil, or_false] at hlvl
    rcases hlvl with rfl | rfl | rfl
    · exact ⟨_, P.debug⟩
    · exact ⟨_, P.info⟩
    · exact ⟨_, P.error⟩
  obtain ⟨l, hl⟩ := hparse
  unfold setLogLevel
  rw [hl]
  have hread : (options U).Triple (.inr .config) A (ownCall .level) fun _ => A := by
    refine Triple.lift hA (fun _ => hA) (fun _ _ _ => trivial) ?_
    rintro s r s' _ _ hAs ⟨rfl, -⟩
    exact hAs
  have hset : (options U).Triple (.inr .config) A (ownCall (.setLevel l)) fun _ => A := by
    refine Triple.lift hA (fun _ => hA) (fun _ _ _ => trivial) ?_
    rintro s r s' _ _ hAs hx
    have hx : s' = { s with level := l } := hx
    exact hx ▸ hlevel s l hAs
  refine Triple.bind hread fun _ => ?_
  split
  · exact .ret hA fun _ _ h => ⟨rfl, h⟩
  · exact Triple.bind hset fun _ => .ret hA fun _ _ h => ⟨rfl, h⟩

/-- The configuration controller stores what a version of the configuration says, and fails only if it
could not read it. -/
lemma reconcileConfig_triple {P : LevelParser} {req : NamespacedName} :
    (options U).Triple (.inr .config) (fun _ => True) (reconcileConfig P U.operatorNamespace req)
      fun res _ => ∀ err, res = .error err → err.fromServer = true := by
  unfold reconcileConfig
  split
  · exact .ret (Stable.const _) fun _ _ _ => nofun
  · rename_i hreq
    have hkey : req = U.configKey := by
      simp only [ne_eq, not_or, not_not] at hreq
      rw [Setup.configKey, ← hreq.1, ← hreq.2]
    have hget : (options U).Triple (.inr .config) (fun _ => True) (ownCall (.getConfig req)) fun res s =>
        (∀ cfg, res = .ok cfg → cfg.spec.WellFormed ∧ IsConfig U cfg s) ∧
          ∀ err, res = .error err → err.fromServer = true := by
      refine Triple.lift (Stable.const _) (fun res => (Stable.ok fun cfg => ?_).and (Stable.const _))
        (fun _ _ _ => trivial) ?_
      · exact (Stable.const _).and stable_isConfig
      · rintro s r s' hs - - ⟨rfl, hans⟩
        refine ⟨?_, ?_⟩
        · rintro cfg rfl
          exact ⟨hs.configs cfg hans.1, hans.1, hans.2.trans hkey⟩
        · rintro err rfl
          exact hans.1
    refine Triple.bind hget fun res => ?_
    cases res with
    | error err =>
      refine Triple.pre (B := fun _ => err.fromServer = true) ?_ fun _ _ h => h.2 err rfl
      dsimp only
      split
      · exact .ret (Stable.const _) fun _ _ _ => nofun
      · refine .ret (Stable.const _) fun _ _ h => ?_
        rintro _ ⟨⟩
        exact h
    | ok cfg =>
      refine Triple.pre (B := fun s => cfg.spec.WellFormed ∧ IsConfig U cfg s) ?_ fun _ _ h => h.1 cfg rfl
      refine Triple.of_pure fun hwf => ?_
      have hlimits := Seat.store_triple (K := schedulerSeat U (.inr .config) .writer rfl)
        (v := cfg.spec.limits.values) (C := IsConfig U cfg) mem_schedulerOptions
        ⟨stable_isConfig, by rintro s s' ⟨b, rfl⟩ h; exact h⟩ fun s h => ⟨cfg, h.1, h.2, rfl⟩
      have htime := Seat.store_triple (K := collectorSeat U (.inr .config) .writer rfl)
        (v := fun _ => cfg.spec.maxTime) (C := IsConfig U cfg) mem_collectorOptions
        ⟨stable_isConfig, by rintro s s' ⟨b, rfl⟩ h; exact h⟩ fun s h => ⟨cfg, h.1, h.2, rfl⟩
      refine Triple.bind hlimits fun _ => Triple.bind htime fun _ => ?_
      refine Triple.bind (setLogLevel_triple stable_isConfig hwf.logLevel fun _ _ h => h) fun err => ?_
      refine Triple.of_pure fun herr => ?_
      subst herr
      exact .ret stable_isConfig fun _ _ _ => nofun

/-- What a thread returns with: the configuration controller has no errors of its own. -/
def ConfigResult (i : Worker ⊕ Service) (res : Except Err Result) (_ : ProcessState) : Prop :=
  i = .inr .config → ∀ err, res = .error err → err.fromServer = true

/-- Every thread keeps to the protocol. -/
lemma processBody_triple (i : Worker ⊕ Service) (p : ProcessProc (Except Err Result))
    (h : (process U).body i p) : (options U).Triple i (fun _ => True) p (ConfigResult i) := by
  rcases i with w | j
  · cases w with
    | reconciler key =>
      obtain rfl := h
      exact (shown_triple (Stable.const _) (fun _ _ _ _ _ h => h) _).conseq (fun _ _ h => h) fun _ _ _ _ => nofun
    | scheduler =>
      obtain rfl := h
      exact Triple.conseq reconcileScheduler_triple (fun _ _ h => h) fun _ _ _ _ => nofun
  · cases j with
    | config =>
      obtain ⟨req, rfl⟩ := h
      exact reconcileConfig_triple.conseq (fun _ _ h => h) fun _ _ _ h _ => h
    | garbageCollector =>
      obtain rfl := h
      exact collectGarbage_triple.conseq (fun _ _ h => h) fun _ _ _ _ => nofun

end Threads

/-! ### What the operator sees of the process -/

section Refinement
variable {U : Setup}

/-- A request for deletion does nothing, or what a user may do. -/
lemma DeleteAnswer.event {w w' : World} {key : NamespacedName} {t : Nat} {r : Option Err}
    (h : DeleteAnswer w key t r w') : w' = w ∨ Event w w' := by
  rcases h with ⟨-, h⟩ | h
  · exact .inl h
  · obtain ⟨o, ho, h⟩ := Option.bind_eq_some_iff.mp h
    split at h
    · cases h
      exact .inl rfl
    · rename_i hdel
      cases h
      exact .inr (.delete t ho (by simpa using hdel))

/-- The operator sees the cluster. -/
def clusterView (U : Setup) : View (options U) (operator U.reconciler U.sorter) where
  see := ProcessState.cluster
  exec hx := by
    obtain ⟨cluster, hexec, -, rfl⟩ := hx
    exact hexec
  hidden {i e s r s'} hp hx := by
    cases e with
    | schedulerOptions e =>
      obtain ⟨side, b, -, -, rfl⟩ := hx
      rfl
    | collectorOptions e =>
      obtain ⟨side, b, -, -, rfl⟩ := hx
      rfl
    | getConfig key => exact congrArg _ hx.1
    | level => exact congrArg _ hx.1
    | setLevel l =>
      have hx : s' = { s with level := l } := hx
      rw [hx]
    | deleteNodeMaintenance nm => cases hp
  service {j e s r s'} hp hx := by
    cases e with
    | inl e =>
      -- the services only read
      obtain ⟨cluster, ⟨hexec, hwritten⟩, -, rfl⟩ := hx
      left
      have hworld : cluster.world = s.cluster.world := by
        rcases hp rfl with rfl | rfl
        · exact hexec.1
        · exact hexec
      cases cluster
      cases hc : s.cluster
      simp_all [ProcessState.withCluster]
    | inr e =>
      cases e with
      | schedulerOptions e =>
        obtain ⟨side, b, -, -, rfl⟩ := hx
        exact .inl rfl
      | collectorOptions e =>
        obtain ⟨side, b, -, -, rfl⟩ := hx
        exact .inl rfl
      | getConfig key => exact .inl (congrArg _ hx.1)
      | level => exact .inl (congrArg _ hx.1)
      | setLevel l =>
        have hx : s' = { s with level := l } := hx
        exact .inl (by rw [hx])
      | deleteNodeMaintenance nm =>
        obtain ⟨w', hans, rfl⟩ := hx
        rcases hans.event with rfl | hevent
        · exact .inl rfl
        · refine .inr fun a ha => ⟨?_, ?_⟩
          · rw [ha]
            exact hevent
          · rw [ha]
            rfl
  env {c s'} he := by
    cases he with
    | cluster hevent _ =>
      refine .inr fun a ha => ⟨?_, ?_⟩
      · rw [ha]
        exact hevent
      · rw [ha]
        rfl
    | config cfg _ => exact .inl rfl
    | tick _ => exact .inl rfl

lemma run_inside_bind {α β : Type} (p : ProcessProc α) (f : α → ProcessAction β) :
    (inside p >>= f).run = p >>= fun a => (f a).run := by
  change (p >>= fun a => .ret (.ok a)) >>= ExceptT.bindCont f = _
  rw [Prog.bind_bind]
  rfl

/-- A part inside the process shows nothing. -/
lemma tells_inside {α : Type} {i : Worker} {A : ProcessState → Prop} {p : ProcessProc α}
    {B : α → ProcessState → Prop} {f : α → ProcessAction Result} {t : Option (Proc (Except Err Result))}
    (hidden : p.Hidden) (hp : (options U).Triple (.inl i) A p B)
    (h : ∀ a, (clusterView U).Tells i (B a) (f a).run t) :
    (clusterView U).Tells i A (inside p >>= f).run t := by
  rw [run_inside_bind]
  exact View.Tells.hidden_bind hidden hp h

/-- A part outside shows itself. -/
lemma tells_shown {α : Type} {i : Worker} {A : ProcessState → Prop} {x : Action α}
    {f : α → ProcessAction Result} {g : α → Action Result} (hA : (options U).Stable (.inl i) A)
    (hcall : ∀ s e r s', processExec (.inl i) (.inl e) s r s' → A s → A s')
    (h : ∀ a, (clusterView U).Tells i A (f a).run (some (g a).run)) :
    (clusterView U).Tells i A (shown x >>= f).run (some (x >>= g).run) := by
  refine View.Tells.shown_bind hA (fun s e r s' _ _ => hcall s e r s') fun res => ?_
  cases res with
  | ok a => exact h a
  | error err => exact .ret

lemma hidden_options {α : Type} (p : Prog (Mailbox.Op SchedulerOption (Option IntOrString)) Mailbox.Resp α) :
    (onSchedulerOptions p).Hidden :=
  Prog.All.translate (f := fun e => ownCall (.schedulerOptions e)) (fun _ => ⟨rfl, fun _ => trivial⟩) p

/-- With its options loaded, a round of the process shows a round of the operator with these options. -/
lemma tells_scheduleRound {v : SchedulerOption → Option IntOrString} :
    (clusterView U).Tells .scheduler ((schedulerReader U).Loaded v) (scheduleRound U.sorter).run
      (some (Scheduler.reconcile U.sorter (optionsOf v)).run) := by
  have hstable : (options U).Stable (.inl .scheduler) ((schedulerReader U).Loaded v) := Seat.stable_loaded
  have hcall : ∀ s e r s', processExec (.inl .scheduler) (.inl e) s r s' →
      (schedulerReader U).Loaded v s → (schedulerReader U).Loaded v s' :=
    fun _ _ _ _ hx h => schedulerLoaded_cluster hx h
  unfold scheduleRound
  refine tells_shown hstable hcall fun nodes => tells_shown hstable hcall fun nms => ?_
  refine tells_inside (hidden_options _) (schedulerOption_triple .maxUnavailable) fun a => ?_
  refine View.Tells.of_pure fun ha => ?_
  refine tells_inside (hidden_options _) (schedulerOption_triple .maxParallelOperations) fun b => ?_
  refine View.Tells.of_pure fun hb => ?_
  have hv : (Options.mk a b).values = v := by
    rw [ha, hb]
    exact values_optionsOf v
  subst ha hb
  dsimp only
  refine tells_inside (B := fun _ => (schedulerReader U).Loaded v) (hidden_options _)
    (by rw [hv]; exact schedulerUse_triple) fun _ => ?_
  exact View.Tells.pre View.Tells.shown fun _ _ _ => trivial

/-- A round with its load: the round of the operator starts with the first list, when the options are
known. -/
lemma tells_reconcileScheduler : (clusterView U).Tells .scheduler (fun _ => True)
    (reconcileScheduler U.sorter).run none := by
  unfold reconcileScheduler
  refine tells_inside (hidden_options _) loadSchedulerOptions_triple fun _ => View.Tells.of_exists fun v => ?_
  refine tells_inside (hidden_options _) (schedulerOption_triple .maxUnavailable) fun _ => ?_
  refine View.Tells.pre (B := (schedulerReader U).Loaded v) ?_ fun _ _ h => h.2
  refine tells_inside (hidden_options _) (schedulerOption_triple .maxParallelOperations) fun _ => ?_
  refine View.Tells.pre (B := (schedulerReader U).Loaded v) ?_ fun _ _ h => h.2
  have hbody : (operator U.reconciler U.sorter).body .scheduler (Scheduler.reconcile U.sorter (optionsOf v)).run :=
    ⟨optionsOf v, rfl⟩
  exact View.Tells.start (e := .listNodes fun _ => true) hbody tells_scheduleRound

/-- Every body of a worker shows a body of the operator. -/
lemma processBody_tells (i : Worker) (p : ProcessProc (Except Err Result)) (h : (process U).body (.inl i) p) :
    (clusterView U).Tells i (fun _ => True) p none := by
  cases i with
  | reconciler key =>
    obtain rfl := h
    have hbody : (operator U.reconciler U.sorter).body (.reconciler key) (U.reconciler.reconcile key).run := rfl
    exact View.Tells.body hbody
  | scheduler =>
    obtain rfl := h
    exact tells_reconcileScheduler

variable {cluster : OperatorState} {level : Level} {clock : Nat}
  {c : Config (Worker ⊕ Service) (Op ⊕ OwnOp) (Sum.elim Resp OwnResp) ProcessState (Except Err Result)}

/-- The protocol holds along every run from the start of the process. -/
lemma process_ok (run : (process U).Run (idleProcess (.start cluster level clock)) c) :
    (options U).OkWith ConfigResult c := by
  refine soundWith processBody_triple ⟨?_, fun _ _ h => by cases h⟩ run
  exact ⟨Mailbox.inv_fresh _, Mailbox.inv_fresh _, fun _ h => (nomatch h), fun _ h => (nomatch h),
    fun _ h => (nomatch h)⟩

/-- The maximal times that the garbage collector goes by. -/
lemma OptionsInv.maxTime_used {s : ProcessState} (h : OptionsInv U s) {v : CollectorOption → Int}
    (hv : .used v ∈ s.collectorOptions.log) :
    v = newCollectorOptions ∨ Configured U s fun spec => v = fun _ => spec.maxTime :=
  (h.collector.faithful.known hv).imp id (h.maxTimes v)

/-- A run of the process mirrors one of the operator. -/
lemma process_mirrored (run : (process U).Run (idleProcess (.start cluster level clock)) c) :
    ∃ a, (operator U.reconciler U.sorter).Run (idle cluster) a ∧ (clusterView U).Mirrors c a := by
  have hstart : (options U).OkWith ConfigResult (idleProcess (.start cluster level clock)) :=
    process_ok .refl
  have hmirror : (clusterView U).Mirrors (idleProcess (.start cluster level clock)) (idle cluster) :=
    ⟨rfl, fun _ => rfl, fun h => by cases h⟩
  exact View.run_mirrored processBody_triple processBody_tells hstart hmirror run

/-- What a mailbox of options has passed on: what was used is what was stored last before the last load,
and that is the initial value or the value of some version of the configuration. -/
theorem options_protocol (run : (process U).Run (idleProcess (.start cluster level clock)) c) :
    Mailbox.Faithful newSchedulerOptions.values c.state.schedulerOptions.log ∧
    Mailbox.Faithful newCollectorOptions c.state.collectorOptions.log ∧
    (∀ v, .used v ∈ c.state.schedulerOptions.log → v = newSchedulerOptions.values ∨
      Configured U c.state fun spec => v = spec.limits.values) ∧
    (∀ v, .used v ∈ c.state.collectorOptions.log → v = newCollectorOptions ∨
      Configured U c.state fun spec => v = fun _ => spec.maxTime) ∧
    ∀ err, c.threads (.inr .config) = some (.ret (.error err)) → err.fromServer = true := by
  have hok := process_ok run
  have hinv : OptionsInv U c.state := hok.1
  refine ⟨hinv.scheduler.faithful, hinv.collector.faithful, fun v hv => ?_, fun v hv => hinv.maxTime_used hv,
    fun err h => ?_⟩
  · exact (hinv.scheduler.faithful.known hv).imp id (hinv.limits v)
  · exact hok.returned h rfl err rfl

/-- A round after a reconcile of the configuration, which was changed while the round was going on, works
with the limits of the configuration as it was read. -/
theorem options_protocol_two_at_a_time :
    ∃ c, (process (strokeSetup fun _ _ => True)).Run (idleProcess (.start emptyState .info 0)) c ∧
      (∃ v, .used v ∈ c.state.schedulerOptions.log ∧ v .maxParallelOperations = some (.int 2)) ∧
      Mailbox.Faithful newSchedulerOptions.values c.state.schedulerOptions.log := by
  obtain ⟨c, run, hc⟩ := Player.exists_run_of_play (processPlayer fun _ _ => True)
    (twoConfigured ++ [.start (.inl .scheduler), .calls (.inl .scheduler) 9] ++ configure 1 (by decide) ++
      [.finish (.inl .scheduler) 90])
    (idleProcess (.start emptyState .info 0))
    (fun c => c.state.schedulerOptions.log.any (usesParallel 2)) (by decide +kernel)
  obtain ⟨e, he, hv⟩ := List.any_eq_true.mp hc
  refine ⟨c, run, ?_, (options_protocol run).1⟩
  cases e with
  | used v => exact ⟨v, he, by simpa [usesParallel] using hv⟩
  | _ => cases hv

end Refinement
end MaintenanceOperator
