import MaintenanceOperator.Operator.Player
import MaintenanceOperator.Operator.Process

/-!
# Computed runs of the process

A player for the whole process: the cluster answers at once and from its present state, the clock shows
the time, and versions of configurations and the passing of time come from the script.
-/

namespace MaintenanceOperator
open Lib

/-- The worker as which a thread reaches the cluster. -/
def seenAs : Worker ⊕ Service → Worker
  | .inl i => i
  | .inr _ => .reconciler ⟨"", ""⟩

/-- Answer a call to the cluster, at a time. -/
def clusterAnswer (i : Worker ⊕ Service) (clock : Nat) (s : OperatorState) :
    (e : Op) → Option (Resp e × OperatorState)
  | .now => some (clock, s)
  | e => operatorAnswer (seenAs i) e s

lemma clusterExec_of_seenAs {i : Worker ⊕ Service} {e : Op} {s s' : OperatorState} {r : Resp e}
    (h : operatorExec (seenAs i) e s r s') : clusterExec i e s r s' := by
  cases i with
  | inl i => exact h
  | inr j => exact h

lemma operatorExec_now (i : Worker) (clock : Nat) (s : OperatorState) : operatorExec i .now s clock s := by
  cases i with
  | reconciler key => exact ⟨rfl, rfl⟩
  | scheduler => exact ⟨rfl, by simp [newVersions], trivial⟩

lemma clusterExec_of_answer {i : Worker ⊕ Service} {clock : Nat} {e : Op} {s s' : OperatorState} {r : Resp e}
    (h : clusterAnswer i clock s e = some (r, s')) : clusterExec i e s r s' ∧ ClockAnswer clock e r := by
  cases e with
  | now =>
    cases h
    exact ⟨clusterExec_of_seenAs (operatorExec_now _ _ _), rfl⟩
  | _ => exact ⟨clusterExec_of_seenAs (operatorExec_of_answer h), trivial⟩

/-- Answer a request for deletion. -/
def World.acceptDeletion (w : World) (key : NamespacedName) (t : Nat) : Option Err × World :=
  match w.requestDeletion key t with
  | some w' => (none, w')
  | none => (some .notFound, w)

lemma deleteAnswer_accept (w : World) (key : NamespacedName) (t : Nat) :
    DeleteAnswer w key t (w.acceptDeletion key t).1 (w.acceptDeletion key t).2 := by
  unfold World.acceptDeletion
  split
  · rename_i h
    exact .inr h
  · exact .inl ⟨rfl, rfl⟩

/-- Answer a call inside the process. -/
def ownAnswer (i : Worker ⊕ Service) (s : ProcessState) : (e : OwnOp) → Option (OwnResp e × ProcessState)
  | .schedulerOptions e => (schedulerSide i).bind fun side =>
      (Mailbox.answer side e s.schedulerOptions).map fun rb => (rb.1, { s with schedulerOptions := rb.2 })
  | .collectorOptions e => (collectorSide i).bind fun side =>
      (Mailbox.answer side e s.collectorOptions).map fun rb => (rb.1, { s with collectorOptions := rb.2 })
  | .getConfig key => some (found (s.configs.find? fun cfg => cfg.key = key), s)
  | .level => some (s.level, s)
  | .setLevel l => some ((), { s with level := l })
  | .deleteNodeMaintenance nm =>
      let rw := s.cluster.world.acceptDeletion nm.key s.clock
      some (rw.1, s.withCluster { s.cluster with world := rw.2 })

lemma ownExec_of_answer {i : Worker ⊕ Service} {e : OwnOp} {s s' : ProcessState} {r : OwnResp e}
    (h : ownAnswer i s e = some (r, s')) : ownExec i e s r s' := by
  cases e with
  | schedulerOptions e =>
    obtain ⟨side, hside, h⟩ := Option.bind_eq_some_iff.mp h
    obtain ⟨⟨a, b⟩, hans, heq⟩ := Option.map_eq_some_iff.mp h
    cases heq
    exact ⟨side, b, hside, Mailbox.exec_of_answer hans, rfl⟩
  | collectorOptions e =>
    obtain ⟨side, hside, h⟩ := Option.bind_eq_some_iff.mp h
    obtain ⟨⟨a, b⟩, hans, heq⟩ := Option.map_eq_some_iff.mp h
    cases heq
    exact ⟨side, b, hside, Mailbox.exec_of_answer hans, rfl⟩
  | getConfig key =>
    cases h
    refine ⟨rfl, (readAnswer_found _).mono (fun cfg hcfg => ?_) fun _ => trivial⟩
    exact ⟨List.mem_of_find?_eq_some hcfg, by simpa using List.find?_some hcfg⟩
  | level =>
    cases h
    exact ⟨rfl, rfl⟩
  | setLevel l =>
    cases h
    rfl
  | deleteNodeMaintenance nm =>
    cases h
    exact ⟨_, deleteAnswer_accept _ _ _, rfl⟩

/-- Answer a call of the process. -/
def processAnswer (i : Worker ⊕ Service) :
    (e : Op ⊕ OwnOp) → ProcessState → Option (Sum.elim Resp OwnResp e × ProcessState)
  | .inl e, s => (clusterAnswer i s.clock s.cluster e).map fun rc => (rc.1, s.withCluster rc.2)
  | .inr e, s => ownAnswer i s e

lemma processExec_of_answer {i : Worker ⊕ Service} {e : Op ⊕ OwnOp} {s s' : ProcessState}
    {r : Sum.elim Resp OwnResp e} (h : processAnswer i e s = some (r, s')) : processExec i e s r s' := by
  cases e with
  | inl e =>
    obtain ⟨⟨a, cluster⟩, hans, heq⟩ := Option.map_eq_some_iff.mp h
    cases heq
    obtain ⟨hexec, hclock⟩ := clusterExec_of_answer hans
    exact ⟨cluster, hexec, hclock, rfl⟩
  | inr e => exact ownExec_of_answer h

/-- The stroke formats, in which the empty text is no time. -/
def strokeTimes : TimeParser where
  parse str := if str = "" then none else (strokeFormats.parse str).map Nat.cast
  parse_empty := rfl

lemma strokeTimes_format (t : Nat) :
    strokeTimes.parse (strokeFormats.format t) = some ((t / second * second : Nat) : Int) := by
  have hne := strokeFormats.format_ne t
  simp only [strokeTimes, if_neg hne, strokeFormats.parse_format, Option.map_some]

/-- The names of the levels. -/
def levelNames : LevelParser where
  parse str := if str = "debug" then some .debug else if str = "info" then some .info else
    if str = "error" then some .error else none
  debug := rfl
  info := rfl
  error := rfl

/-- A setup with the stroke formats, an insertion sort and no pool manager. -/
def strokeSetup (users : World → World → Prop) : Setup where
  reconciler := ⟨false, strokeFormats⟩
  sorter := Sorter.insertion Scheduler.compareRanked
  times := strokeTimes
  times_format := strokeTimes_format
  levels := levelNames
  operatorNamespace := "maintenance"
  users := users

/-- What the threads run. -/
def strokeProgram : Worker ⊕ Service → ProcessProc (Except Err Result)
  | .inl (.reconciler key) => (Reconciler.reconcile ⟨false, strokeFormats⟩ key).run.shown
  | .inl .scheduler => (reconcileScheduler (Sorter.insertion Scheduler.compareRanked)).run
  | .inr .config => reconcileConfig levelNames "maintenance" ⟨"maintenance", "default"⟩
  | .inr .garbageCollector => collectGarbage strokeTimes

lemma body_strokeProgram (users : World → World → Prop) (i : Worker ⊕ Service) :
    (process (strokeSetup users)).body i (strokeProgram i) := by
  rcases i with (_ | key) | (_ | _)
  · rfl
  · rfl
  · exact ⟨_, rfl⟩
  · rfl

/-- Events of the process as data. -/
inductive Occurrence where
  | cluster (v : Incident)
  | config (cfg : MaintenanceOperatorConfig) (h : cfg.spec.WellFormed)
  | wait (n : Nat)

section Players
variable (users : World → World → Prop) [∀ w w', Decidable (users w w')]

/-- What an occurrence does, if it can happen. -/
def ProcessState.suffer (s : ProcessState) : Occurrence → Option ProcessState
  | .cluster v => (s.cluster.world.suffer v).bind fun w' =>
      if users s.cluster.world w' then some (s.withCluster { s.cluster with world := w' }) else none
  | .config cfg _ => some { s with configs := cfg :: s.configs }
  | .wait n => some { s with clock := s.clock + n }

lemma ProcessState.event_of_suffer {s s' : ProcessState} {v : Occurrence}
    (h : s.suffer users v = some s') : ProcessEvent (strokeSetup users) s s' := by
  cases v with
  | cluster v =>
    obtain ⟨w', hw', h⟩ := Option.bind_eq_some_iff.mp h
    split at h
    · rename_i husers
      cases h
      exact .cluster (World.event_of_suffer hw') husers
    · cases h
  | config cfg hcfg =>
    cases h
    exact .config cfg hcfg
  | wait n =>
    cases h
    exact .tick (Nat.le_add_right _ _)

/-- A player of the process. -/
def processPlayer : Player (process (strokeSetup users)) Occurrence where
  program i := some (strokeProgram i)
  body h := Option.some.inj h ▸ body_strokeProgram users _
  answer := processAnswer
  exec := processExec_of_answer
  event v s := s.suffer users v
  env := ProcessState.event_of_suffer users

end Players

/-- A configuration that allows some operations at a time, and a maintenance of one minute. -/
def allowing (n : Nat) : MaintenanceOperatorConfig :=
  ⟨⟨"maintenance", "default"⟩, ⟨some (.int n), none, "debug", 60⟩⟩

lemma wellFormed_allowing {n : Nat} (h : n < 100) : (allowing n).spec.WellFormed where
  fits := by
    refine ⟨?_, nofun, by simp [allowing]⟩
    rintro v ⟨⟩
    exact ⟨by omega, by omega⟩
  parallel := rfl
  logLevel := by simp [allowing, logLevels]
  seconds := by simp [allowing]

/-- A whole run of the body of a thread. -/
def fullRound (i : Worker ⊕ Service) : List (Move (Worker ⊕ Service) Occurrence) := [.start i, .finish i 90]

/-- A version of the configuration is created and read. -/
def configure (n : Nat) (h : n < 100) : List (Move (Worker ⊕ Service) Occurrence) :=
  .event (.config (allowing n) (wellFormed_allowing h)) :: fullRound (.inr .config)

/-- The entry is the use of such a limit. -/
def usesParallel (n : Nat) : Entry SchedulerOption (Option Scheduler.IntOrString) → Bool
  | .used v => v .maxParallelOperations = some (.int n)
  | _ => false

/-- Two operations at a time are allowed, and then come two nodes with an object on each. -/
def twoConfigured : List (Move (Worker ⊕ Service) Occurrence) :=
  configure 2 (by decide) ++
  [.event (.cluster (.nodes [firstNode, { firstNode with name := "node-2", uid := "node-2" }])),
    .event (.cluster (.create (drainedMaintenance "nm"))),
    .event (.cluster (.create { drainedMaintenance "nm2" with
      spec := { (drainedMaintenance "nm2").spec with nodeName := "node-2" } }))] ++
  fullRound (.inl (reconcilerOf "nm")) ++ fullRound (.inl (reconcilerOf "nm2"))

end MaintenanceOperator
