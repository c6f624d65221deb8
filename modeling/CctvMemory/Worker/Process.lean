import CctvMemory.Worker.Job

/-!
# Processing a claimed task

`AnalysisWorker._process_claimed_task` on the rows of its job: the sequential
loop over the scale tasks and the cross-scale path, with what each writes in
its own transaction. `WorkerEnv` is what the outside answers in one run; the
units run in a pool under any schedule.
-/

namespace CctvMemory.Worker

/-! ## Configuration and environment -/

structure WorkerConfig where
  crossScaleEnabled : Bool
  highFreqQuota : ℕ
  maxUnitWorkersPerJob : ℕ
  dbWriteMaxAttempts : ℕ
  windowSeconds : ℤ
  overlapSeconds : ℤ
  highFreqWindowSeconds : ℤ
  highFreqStepMs : Option ℤ

/-- The steps of the worker that may raise without writing. -/
inductive WorkerStep where
  | jobRunning
  | hasTriggers
  | scaleRunning (scale : AnalysisScale)
  | motionScan
  | plan (scale : AnalysisScale)
  | closeSession (scale : AnalysisScale)
  | scaleFinished (scale : AnalysisScale)
  | scaleSkipped (scale : AnalysisScale)
  | scaleFailed (scale : AnalysisScale)
  | requiredScaleFailed
  | jobFailed
  | taskFailed
  | jobFinished
  | taskFinished
deriving DecidableEq, Repr

/-- The transactions of the worker. -/
inductive WorkerWrite where
  | markJobRunning
  | scaleRunning (scale : AnalysisScale)
  | finalizeScale (scale : AnalysisScale)
  | skipScale (scale : AnalysisScale)
  | failScale (scale : AnalysisScale)
  | requiredFailure
  | reconcile
  | finalizeScales
  | finalizeJob
deriving DecidableEq, Repr

/-- A trigger window of the motion planner. -/
structure MotionWindow where
  startMs : ℤ
  endMs : ℤ
  reason : String
deriving DecidableEq, Repr

/-- The unit pools: one for the cross-scale path, one a scale on the other. -/
inductive UnitPool where
  | crossScale
  | sequential (scale : AnalysisScale)
deriving DecidableEq, Repr

structure WorkerEnv where
  raises : WorkerStep → Option Exn
  writeFault : WorkerWrite → ℕ → Option Exn
  now : Iso.DateTime
  /-- What the probe reports. -/
  durationMs : ℤ
  motionWindows : List MotionWindow
  newTriggerId : ℕ → String
  /-- What each unit meets, whatever the path. -/
  unitEnv : AnalysisScale → SegmentWindow → UnitEnv
  schedule : UnitPool → List ℕ
  /-- Which of the exceptions of a pool is met first. -/
  firstCompleted : UnitPool → ℕ

abbrev JobAct (α : Type) := Act Exn JobRows Unit α

/-- `_SCALE_ORDER`. -/
def scaleOrder : List AnalysisScale :=
  [.defaultSegment, .motionScan, .highFreqEvent, .lowFreqSummary]

/-- The scale tasks of the job, in processing order. -/
def JobState.scaleTasks {U : Type} (db : JobState U) : List AnalysisScale :=
  scaleOrder.filter fun s => (db.tasks s).isSome

section Process

variable (cfg : WorkerConfig) (env : WorkerEnv)

/-- `_per_job_unit_workers`. -/
def WorkerConfig.perJobUnitWorkers : ℕ := max 1 cfg.maxUnitWorkersPerJob

def workerStep (s : WorkerStep) : JobAct Unit :=
  match env.raises s with
  | none => pure ()
  | some e => throw e

def workerStepIf (b : Bool) (s : WorkerStep) : JobAct Unit :=
  if b = true then workerStep env s else pure ()

/-- `_write_session`. -/
def writeSession {α : Type} (w : WorkerWrite) (work : JobRows → Except Exn (α × JobRows)) :
    JobAct α :=
  dbWrite cfg.dbWriteMaxAttempts (env.writeFault w) fun db =>
    match work db with
    | .ok (a, db') => .ok (a, db', [])
    | .error e => .error e

/-- A session that is not retried: it raises, or reads and writes once. -/
def session {α : Type} (s : WorkerStep) (work : JobRows → Except Exn (α × JobRows)) : JobAct α :=
  attemptWrite (env.raises s) fun db =>
    match work db with
    | .ok (a, db') => .ok (a, db', [])
    | .error e => .error e

/-! ## Transitions and their events -/

def hasTriggers : JobAct Bool := session env .hasTriggers fun db => .ok (db.hasTriggers, db)

/-- A session with one transition of a scale task. -/
def taskWrite (w : WorkerWrite) (scale : AnalysisScale) (target : TaskStatus)
    (errorCode : Option ErrorCode) (skippedReason : Option SkippedReason) : JobAct Unit :=
  writeSession cfg env w fun db => do
    .ok ((), ← db.transitionScaleTask scale target errorCode skippedReason)

/-- `_transition_running`. -/
def transitionRunning (scale : AnalysisScale) : JobAct Unit :=
  taskWrite cfg env (.scaleRunning scale) scale .running none none

/-- `_skip_scale_task`. -/
def skipScaleTask (scale : AnalysisScale) (reason : SkippedReason) : JobAct Unit := do
  taskWrite cfg env (.skipScale scale) scale .skipped none (some reason)
  workerStep env (.scaleSkipped scale)

/-- `_classify_error`. -/
def classifyError (e : Exn) : ErrorCode :=
  match e.cls with
  | .vlmSchemaValidation => .vlmSchemaValidationFailed
  | .vlmProvider => .vlmProviderError
  | .runtime => .videoDecodeError
  | _ => .analysisUnitFailed

/-- `_fail_scale_task`. -/
def failScaleTask (scale : AnalysisScale) (e : Exn) : JobAct Unit := do
  taskWrite cfg env (.failScale scale) scale .failed (some (classifyError e)) none
  workerStep env (.scaleFailed scale)

def isRunning (t : Option ScaleTaskRow) : Bool :=
  t.any fun t => decide (t.status = .running)

/-- The default scale task fails with its job, if it is running. -/
def failRunningDefault {U : Type} (e : Exn) (db : JobState U) : Except Exn (JobState U) :=
  if isRunning (db.tasks .defaultSegment) = true then
    db.transitionScaleTask .defaultSegment .failed (some (classifyError e)) none
  else .ok db

/-- The transaction of `_handle_required_failure`: whether it failed the scale. -/
def requiredFailureWrite {U : Type} (e : Exn) (db : JobState U) :
    Except Exn (Bool × JobState U) := do
  let errorCode := classifyError e
  let message := e.cls.name ++ ": " ++ clip 200 e.message
  let db₁ ← failRunningDefault e db
  let db₂ ← db₁.transitionJob .failed (some errorCode) (some message)
  .ok (isRunning (db.tasks .defaultSegment), db₂.queueMarkFailed errorCode message)

/-- `_handle_required_failure`. -/
def handleRequiredFailure (e : Exn) : JobAct Unit := do
  let failedScale ← writeSession cfg env .requiredFailure (requiredFailureWrite e)
  workerStepIf env failedScale .requiredScaleFailed
  workerStep env .jobFailed
  workerStep env .taskFailed

/-- The row `_reconcile_running_units_for_job` writes for a residual unit. -/
def reconcileUnit (row : UnitRow) : UnitRow :=
  if row.status = .running then
    row.markFailed env.now .analysisUnitFailed
      (some "residual running reconciled at job finalize (terminal write did not persist)")
      row.latestModelCallId none
  else row

/-- Units are found through the scale tasks of the job. -/
def reconcileRunningUnits (db : JobRows) : JobRows :=
  { db with units :=
      { rows := db.units.rows.map fun u =>
          if (u.key.scaleTask.bind db.tasks).isSome then ⟨u.key, reconcileUnit env u.row⟩ else u
        nodup := by
          rw [List.map_map]
          have hkeys : UnitEntry.key ∘ (fun u : UnitEntry =>
              if (u.key.scaleTask.bind db.tasks).isSome then ⟨u.key, reconcileUnit env u.row⟩
              else u) = UnitEntry.key := by
            funext u
            dsimp only [Function.comp]
            split <;> rfl
          rw [hkeys]
          exact db.units.nodup } }

/-- `_reconcile_running_units_for_job`. -/
def reconcileRunningUnitsForJob : JobAct Unit :=
  writeSession cfg env .reconcile fun db => .ok ((), reconcileRunningUnits env db)

/-- The last transaction of a job that did not fail. -/
def finalizeJobWrite {U : Type} (status : JobStatus) (db : JobState U) :
    Except Exn (Unit × JobState U) := do
  let db ← db.transitionJob status none none
  .ok ((), db.markVideoReady.queueMarkSucceeded)

def finalizeJob (anyPartial : Bool) : JobAct Unit := do
  let finalStatus : JobStatus := if anyPartial = true then .partialFailed else .succeeded
  writeSession cfg env .finalizeJob (finalizeJobWrite finalStatus)
  workerStep env .jobFinished
  workerStep env .taskFinished

/-! ## Units -/

def processorOf (scale : AnalysisScale) : UnitProcessor :=
  match scale with
  | .defaultSegment => .defaultSegment
  | _ => .highFreqEvent

/-- The planning session found the job row, and no step deletes one. -/
def JobLookup.present : JobLookup := ⟨true, true⟩

/-- What unit `u` meets. -/
def WorkerEnv.envOf (u : PlannedUnit) : UnitEnv :=
  { env.unitEnv u.key.analysisScale u.key.window with
    windowIndex := u.windowIndex
    triggerId := u.triggerId }

/-- A unit on its own row. -/
def unitAct (u : PlannedUnit) : UnitAct UnitOutcome :=
  (processorOf u.key.analysisScale).runUnit (env.envOf u) JobLookup.present

/-- A unit of the pool. -/
def unitProg (u : PlannedUnit) : Act.Prog JobRows Unit (Except Exn UnitOutcome) :=
  unitParts.zoom u.key (ExceptT.run (unitAct env u))

/-- `_safe_run`. -/
def safeRun : Except Exn UnitOutcome → UnitOutcome
  | .ok o => o
  | .error _ => .failed

/-- The exceptions of a pool. -/
def escapes (results : List (Except Exn UnitOutcome)) : List Exn :=
  results.filterMap fun r => match r with
    | .ok _ => none
    | .error e => some e

/-- Units one after the other; an exception ends the loop. -/
def serialUnits : List PlannedUnit → JobAct (List UnitOutcome)
  | [] => pure []
  | u :: us => do
      let o ← ExceptT.mk (unitProg env u)
      let os ← serialUnits us
      pure (o :: os)

/-- The units of `process`: a pool whose `future.result()` raises again, or a
serial loop. -/
def processUnits (scale : AnalysisScale) (us : List PlannedUnit) : JobAct ScaleProcessResult :=
  if 1 < cfg.perJobUnitWorkers then do
    let results ← ExceptT.lift
      (Act.pool (env.schedule (.sequential scale)) (us.map (unitProg env)))
    match escapes results with
    | [] => pure (.tally (results.map safeRun))
    | e :: es => throw ((e :: es).getD (env.firstCompleted (.sequential scale)) e)
  else do
    let outcomes ← serialUnits env us
    pure (.tally outcomes)

/-! ## Planning -/

/-- Probe the video and plan the default windows. -/
def planDefault : JobAct (List PlannedUnit) :=
  session env (.plan .defaultSegment) fun db => do
    let windows ← planDefaultSegments env.durationMs cfg.windowSeconds cfg.overlapSeconds
    .ok (planDefaultUnits windows, db.updateProbeMetadata env.durationMs)

/-- The high-frequency units of a state. -/
def highFreqPlan {U : Type} (scaleTask : Option AnalysisScale) (db : JobState U) :
    Except Exn (List PlannedUnit) :=
  planHighFreqUnits scaleTask
    (fun t => planHighFreqWindows t.triggerStartMs t.triggerEndMs cfg.highFreqWindowSeconds
      cfg.highFreqStepMs db.video.durationMs)
    (db.triggers.filter fun t => decide (t.videoId = db.video.videoId))

/-- Plan the windows of the triggers, for units of scale task `scaleTask`. -/
def planHighFreq (scaleTask : Option AnalysisScale) : JobAct (List PlannedUnit) :=
  session env (.plan .highFreqEvent) fun db => do
    let us ← highFreqPlan cfg scaleTask db
    .ok (us, db)

/-- The trigger rows of the sampled motion. -/
def motionTriggers (videoId : String) : List TriggerRow :=
  env.motionWindows.zipIdx.map fun wi =>
    ⟨env.newTriggerId wi.2, videoId, wi.1.startMs, wi.1.endMs, wi.1.reason⟩

def persistTriggers {U : Type} (db : JobState U) : JobState U :=
  { db with triggers :=
      (motionTriggers env db.video.videoId).foldl JobState.createOrGetTrigger db.triggers }

/-- `_run_motion_scan`: the number of triggers. -/
def runMotionScan : JobAct ℕ :=
  session env .motionScan fun db => .ok (env.motionWindows.length, persistTriggers env db)

/-! ## One scale, the sequential way -/

/-- Why a scale task is skipped, if it is. -/
def inactiveReason (scale : AnalysisScale) : JobAct (Option SkippedReason) :=
  match scale with
  | .lowFreqSummary => pure (some .notEnabled)
  | .highFreqEvent => do
      let active ← hasTriggers env
      pure (if active = true then none else some .noMotionTrigger)
  | _ => pure none

/-- The processor of a scale. The sequential `high_freq_event` processor is
built without a scale task id. -/
def runScale (scale : AnalysisScale) : JobAct ScaleProcessResult :=
  match scale with
  | .motionScan => do
      let produced ← runMotionScan env
      pure ⟨produced, produced, 0, 0⟩
  | .highFreqEvent => do
      let us ← planHighFreq cfg env none
      let result ← processUnits cfg env .highFreqEvent us
      workerStep env (.closeSession .highFreqEvent)
      pure result
  | _ => do
      let us ← planDefault cfg env
      let result ← processUnits cfg env .defaultSegment us
      workerStep env (.closeSession .defaultSegment)
      pure result

/-- The part of `_process_scale_task` from the transition to running. -/
def runActiveScale (scale : AnalysisScale) : JobAct ScaleProcessResult := do
  transitionRunning cfg env scale
  workerStep env (.scaleRunning scale)
  let result ← runScale cfg env scale
  writeSession cfg env (.finalizeScale scale) fun db => do
    .ok ((), ← db.finalizeScaleTask scale result)
  workerStep env (.scaleFinished scale)
  pure result

/-- `_process_scale_task`. -/
def processScaleTask (scale : AnalysisScale) : JobAct (Option ScaleProcessResult) := do
  match ← inactiveReason env scale with
  | some reason => do
      skipScaleTask cfg env scale reason
      pure none
  | none => do
      let result ← runActiveScale cfg env scale
      pure (some result)

/-- The baseline produced no record. -/
def baselineEmpty (r : ScaleProcessResult) : Bool := decide (0 < r.total ∧ r.succeeded = 0)

def baselineError (r : ScaleProcessResult) : Exn :=
  ⟨.runtime, if r.failed ≠ 0 then "all default_segment units failed"
    else "default_segment produced no usable frames", false⟩

/-- The loop over the scale tasks: the required failure, or whether some scale
was partial. -/
def sequentialLoop : List AnalysisScale → Bool → JobAct (Except Exn Bool)
  | [], anyPartial => pure (.ok anyPartial)
  | scale :: rest, anyPartial => do
      match ← Act.attempt (processScaleTask cfg env scale) with
      | .ok none => sequentialLoop rest anyPartial
      | .ok (some r) =>
          if scale = .defaultSegment ∧ baselineEmpty r = true then pure (.error (baselineError r))
          else sequentialLoop rest (anyPartial || decide (r.failed ≠ 0))
      | .error e =>
          if scale = .defaultSegment then pure (.error e)
          else do
            failScaleTask cfg env scale e
            sequentialLoop rest true

def processSequential (scales : List AnalysisScale) : JobAct Unit := do
  match ← sequentialLoop cfg env scales false with
  | .error e => handleRequiredFailure cfg env e
  | .ok anyPartial => do
      reconcileRunningUnitsForJob cfg env
      finalizeJob cfg env anyPartial

/-! ## Cross-scale -/

/-- Phase 1: `motion_scan`; whether it failed. -/
def motionPhase (scales : List AnalysisScale) : JobAct Bool :=
  if .motionScan ∈ scales then do
    match ← Act.attempt (processScaleTask cfg env .motionScan) with
    | .ok _ => pure false
    | .error e => do
        failScaleTask cfg env .motionScan e
        pure true
  else pure false

/-- Whether `high_freq_event` has anything to do. -/
def highFreqActive (scales : List AnalysisScale) : JobAct Bool :=
  if .highFreqEvent ∈ scales then hasTriggers env else pure false

def skipScaleTaskIf (b : Bool) (scale : AnalysisScale) (reason : SkippedReason) : JobAct Unit :=
  if b = true then skipScaleTask cfg env scale reason else pure ()

/-- Phase 2: skip what does not run; whether `high_freq_event` does. -/
def skipPhase (scales : List AnalysisScale) : JobAct Bool := do
  let active ← highFreqActive env scales
  skipScaleTaskIf cfg env (decide (.highFreqEvent ∈ scales) && !active)
    .highFreqEvent .noMotionTrigger
  skipScaleTaskIf cfg env (decide (.lowFreqSummary ∈ scales)) .lowFreqSummary .notEnabled
  pure active

/-- Phase 3, the required scale. -/
def planDefaultPhase (scales : List AnalysisScale) : JobAct (List PlannedUnit) :=
  if .defaultSegment ∈ scales then do
    transitionRunning cfg env .defaultSegment
    workerStep env (.scaleRunning .defaultSegment)
    planDefault cfg env
  else pure []

/-- Phase 3, the optional scale: its units, or `none` when it is not active any
more. -/
def planHighFreqPhase (active : Bool) : JobAct (Option (List PlannedUnit)) :=
  if active = true then do
    match ← Act.attempt (do
        transitionRunning cfg env .highFreqEvent
        workerStep env (.scaleRunning .highFreqEvent)
        planHighFreq cfg env (some .highFreqEvent)) with
    | .ok us => pure (some us)
    | .error e => do
        failScaleTask cfg env .highFreqEvent e
        pure none
  else pure none

/-- The tally of one scale over the dispatched units. -/
def tallyOf (scale : AnalysisScale) (ordered : List PlannedUnit)
    (outcomes : List UnitOutcome) : ScaleProcessResult :=
  .tally (((ordered.zip outcomes).filter fun uo => decide (uo.1.key.analysisScale = scale)).map
    Prod.snd)

/-- Phase 4: run every planned unit; the outcomes, in dispatch order. -/
def dispatchPhase (ordered : List PlannedUnit) : JobAct (List UnitOutcome) := do
  let sched := if cfg.perJobUnitWorkers = 1 then [] else env.schedule .crossScale
  let results ← ExceptT.lift (Act.pool sched (ordered.map (unitProg env)))
  pure (results.map safeRun)

/-- `_finalize_scale_task`, of a scale that runs. -/
def finalizeScaleTaskIf {U : Type} (scale : AnalysisScale) (r : Option ScaleProcessResult)
    (db : JobState U) : Except Exn (JobState U) :=
  match r with
  | some r => db.finalizeScaleTask scale r
  | none => .ok db

/-- The transaction of phase 5. -/
def finalizeScalesWrite {U : Type} (default highFreq : Option ScaleProcessResult)
    (db : JobState U) : Except Exn (Unit × JobState U) := do
  let db ← finalizeScaleTaskIf .defaultSegment default db
  let db ← finalizeScaleTaskIf .highFreqEvent highFreq db
  .ok ((), db)

/-- Phase 5: finalize each scale on its own units' counts. -/
def finalizeScalesPhase (default highFreq : Option ScaleProcessResult) : JobAct Unit := do
  writeSession cfg env .finalizeScales (finalizeScalesWrite default highFreq)
  workerStepIf env default.isSome (.scaleFinished .defaultSegment)
  workerStepIf env highFreq.isSome (.scaleFinished .highFreqEvent)

/-- Phase 6: the job outcome. -/
def jobOutcomePhase (default highFreq : Option ScaleProcessResult) (anyPartial : Bool) :
    JobAct Unit :=
  match default.filter baselineEmpty with
  | some r => handleRequiredFailure cfg env (baselineError r)
  | none => finalizeJob cfg env (anyPartial || default.any (fun r => decide (r.failed ≠ 0)) ||
      highFreq.any fun r => decide (r.failed ≠ 0))

/-- Phases 4 to 6, on the planned units; `none` for a scale that does not run. -/
def runPlanned (default highFreq : Option (List PlannedUnit)) (anyPartial : Bool) :
    JobAct Unit := do
  let ordered := dispatchOrder (max 1 cfg.highFreqQuota) (highFreq.getD []) (default.getD [])
  let outcomes ← dispatchPhase cfg env ordered
  reconcileRunningUnitsForJob cfg env
  let ds := default.map fun _ => tallyOf .defaultSegment ordered outcomes
  let hf := highFreq.map fun _ => tallyOf .highFreqEvent ordered outcomes
  finalizeScalesPhase cfg env ds hf
  jobOutcomePhase cfg env ds hf anyPartial

/-- `_process_cross_scale`. -/
def processCrossScale (scales : List AnalysisScale) : JobAct Unit := do
  let motionFailed ← motionPhase cfg env scales
  let active ← skipPhase cfg env scales
  match ← Act.attempt (planDefaultPhase cfg env scales) with
  | .error e => handleRequiredFailure cfg env e
  | .ok defaultUnits => do
      let highFreqUnits ← planHighFreqPhase cfg env active
      runPlanned cfg env
        (if .defaultSegment ∈ scales then some defaultUnits else none) highFreqUnits
        (motionFailed || (active && highFreqUnits.isNone))

/-- `_process_claimed_task`. -/
def processClaimedTask : JobAct Unit := do
  let scales ← writeSession cfg env .markJobRunning fun db => do
    let db ← db.transitionJob .running none none
    .ok (db.scaleTasks, db)
  workerStep env .jobRunning
  if cfg.crossScaleEnabled = true then processCrossScale cfg env scales
  else processSequential cfg env scales

end Process

/-! ## A run without a fault -/

/-- Units one at a time, windows of thirty seconds. -/
def WorkerConfig.basic (crossScaleEnabled : Bool) : WorkerConfig where
  crossScaleEnabled
  highFreqQuota := 1
  maxUnitWorkersPerJob := 1
  dbWriteMaxAttempts := 3
  windowSeconds := 30
  overlapSeconds := 0
  highFreqWindowSeconds := 3
  highFreqStepMs := some 3000

/-- A run in which every step works: one second of video, no motion. -/
def WorkerEnv.smooth : WorkerEnv where
  raises _ := none
  writeFault _ _ := none
  now := Iso.DateTime.utc 0
  durationMs := 1000
  motionWindows := []
  newTriggerId _ := "trg_0"
  unitEnv _ _ := UnitEnv.smooth
  schedule _ := []
  firstCompleted _ := 0

/-- A queued job with its three scale tasks, its queue task claimed. -/
def JobRows.queuedJob : JobRows where
  job := ⟨"job_0", .queued, none, none⟩
  tasks s := if s = .lowFreqSummary then none else some .created
  triggers := []
  queueTask := ⟨.running, 0, 3, some "worker_0", some (Iso.DateTime.utc 1), none, none⟩
  video := ⟨"video_0", false, none⟩
  units := Keyed.Table.empty

end CctvMemory.Worker
