import CctvMemory.Library.Pool
import CctvMemory.Library.Table
import CctvMemory.Worker.Plan
import CctvMemory.Worker.Unit
import Mathlib.Logic.Function.Basic

/-!
# The rows of one job

Every row the worker reads or writes for a job names it: the job row, its
scale tasks (one for each scale), its triggers and units, its queue task and
its video. `JobState` collects them; the units are a table, or only a lookup.

The repository writes and the validated transitions of
`application/analysis_orchestrator.py` are functions on these rows.
-/

namespace CctvMemory.Worker

open Keyed (Table)

/-! ## Rows -/

structure JobRow where
  analysisJobId : String
  jobStatus : JobStatus
  errorCode : Option ErrorCode
  errorMessage : Option String
deriving DecidableEq

def JobRow.moveTo (job : JobRow) (target : JobStatus) (errorCode : Option ErrorCode)
    (errorMessage : Option String) : JobRow :=
  if job.jobStatus = target then job
  else { job with jobStatus := target, errorCode, errorMessage }

@[simp] theorem JobRow.jobStatus_moveTo (job : JobRow) (target : JobStatus)
    (ec : Option ErrorCode) (em : Option String) :
    (job.moveTo target ec em).jobStatus = target := by
  unfold moveTo
  split
  · assumption
  · rfl

inductive SkippedReason where
  | notEnabled
  | noMotionTrigger
deriving DecidableEq, Repr

structure ScaleTaskRow where
  status : TaskStatus
  totalUnits : ℕ
  succeededUnits : ℕ
  failedUnits : ℕ
  errorCode : Option ErrorCode
  skippedReason : Option SkippedReason
deriving DecidableEq

/-- The row a scale task is created with. -/
def ScaleTaskRow.created : ScaleTaskRow := ⟨.pending, 0, 0, 0, none, none⟩

/-- The row after a transition to `target`; an equal status is left alone. -/
def ScaleTaskRow.moveTo (t : ScaleTaskRow) (target : TaskStatus) (errorCode : Option ErrorCode)
    (skippedReason : Option SkippedReason) : ScaleTaskRow :=
  if t.status = target then t else { t with status := target, errorCode, skippedReason }

@[simp] theorem ScaleTaskRow.status_moveTo (t : ScaleTaskRow) (target : TaskStatus)
    (ec : Option ErrorCode) (sr : Option SkippedReason) : (t.moveTo target ec sr).status = target := by
  unfold moveTo
  split
  · assumption
  · rfl

inductive QueueStatus where
  | queued
  | running
  | succeeded
  | failed
  | retryScheduled
deriving DecidableEq, Repr

structure QueueTaskRow where
  status : QueueStatus
  retryCount : ℕ
  maxRetries : ℕ
  leaseOwner : Option String
  leaseExpiresAt : Option Iso.DateTime
  errorCode : Option ErrorCode
  errorMessage : Option String
deriving DecidableEq

structure VideoRow where
  videoId : String
  ready : Bool
  durationMs : Option ℤ
deriving DecidableEq

structure UnitEntry where
  key : UnitKey
  row : UnitRow
deriving DecidableEq

/-! ## Scale results -/

/-- `ScaleProcessResult`. -/
structure ScaleProcessResult where
  total : ℕ
  succeeded : ℕ
  failed : ℕ
  skipped : ℕ
deriving DecidableEq, Repr

/-- The status a scale gets from its counts. -/
def ScaleProcessResult.status (r : ScaleProcessResult) : TaskStatus :=
  if r.failed ≠ 0 ∧ r.succeeded ≠ 0 then .partialFailed
  else if r.failed ≠ 0 then .failed
  else .succeeded

/-- The row of a scale task that was finalized on its counts. -/
def ScaleProcessResult.finishedRow (r : ScaleProcessResult) : ScaleTaskRow :=
  ⟨r.status, r.total, r.succeeded, r.failed, none, none⟩

/-- `_tally`, over all units of a scale. -/
def ScaleProcessResult.tally (outcomes : List UnitOutcome) : ScaleProcessResult where
  total := outcomes.length
  succeeded := outcomes.count .succeeded
  failed := outcomes.count .failed
  skipped := outcomes.count .skipped

/-- The rows of one job; `U` holds the unit rows. -/
structure JobState (U : Type) where
  job : JobRow
  tasks : AnalysisScale → Option ScaleTaskRow
  triggers : List TriggerRow
  queueTask : QueueTaskRow
  video : VideoRow
  units : U

abbrev JobRows := JobState (Table UnitEntry UnitEntry.key)

/-- The rows of a job, its units only looked up. -/
abbrev JobView := JobState (UnitKey → Option UnitRow)

def unitRow (units : Table UnitEntry UnitEntry.key) (key : UnitKey) : Option UnitRow :=
  (units.get? key).map UnitEntry.row

def JobRows.view (db : JobRows) : JobView := { db with units := unitRow db.units }

/-- A unit writes its own row. Model call logs, gate logs and records go to
tables that no step of the worker reads. -/
def unitParts : Act.Parts UnitKey JobRows (Option UnitRow) Effect where
  get key db := unitRow db.units key
  put key row db := { db with units := match row with
    | none => db.units.erase key
    | some r => db.units.put ⟨key, r⟩ }
  emit _ db := db
  get_put_self key row db := by
    cases row with
    | none => simp [unitRow, Table.get?_erase]
    | some r => simp [unitRow, Table.get?_put]
  get_put_of_ne {key key'} row db h := by
    cases row with
    | none => simp [unitRow, Table.get?_erase, h]
    | some r => simp [unitRow, Table.get?_put, h]
  get_emit _ _ _ := rfl

namespace JobState

variable {U : Type}

def setTask (db : JobState U) (scale : AnalysisScale) (t : ScaleTaskRow) : JobState U :=
  { db with tasks := Function.update db.tasks scale (some t) }

@[simp] theorem tasks_setTask (db : JobState U) (scale : AnalysisScale) (t : ScaleTaskRow) :
    (db.setTask scale t).tasks = Function.update db.tasks scale (some t) := rfl

theorem tasks_setTask_self (db : JobState U) (scale : AnalysisScale) (t : ScaleTaskRow) :
    (db.setTask scale t).tasks scale = some t := Function.update_self ..

theorem tasks_setTask_of_ne {scale s : AnalysisScale} (h : s ≠ scale) (db : JobState U)
    (t : ScaleTaskRow) : (db.setTask scale t).tasks s = db.tasks s := Function.update_of_ne h _ _

/-! ## Transitions -/

def invalidStateTransition (what current target : String) : Exn :=
  ⟨.invalidStateTransition, what ++ ": " ++ current ++ " -> " ++ target, false⟩

/-- `transition_job`. -/
def transitionJob (target : JobStatus) (errorCode : Option ErrorCode)
    (errorMessage : Option String) (db : JobState U) : Except Exn (JobState U) :=
  if db.job.jobStatus = target then .ok db
  else if canTransitionJob db.job.jobStatus target then
    .ok { db with job := { db.job with jobStatus := target, errorCode, errorMessage } }
  else .error (invalidStateTransition ("job " ++ db.job.analysisJobId)
    db.job.jobStatus.value target.value)

/-- `transition_scale_task`. -/
def transitionScaleTask (scale : AnalysisScale) (target : TaskStatus)
    (errorCode : Option ErrorCode) (skippedReason : Option SkippedReason) (db : JobState U) :
    Except Exn (JobState U) :=
  match db.tasks scale with
  | none => .error ⟨.notFound, "scale task " ++ scale.value ++ " not found", false⟩
  | some t =>
      if t.status = target then .ok db
      else if canTransitionTask t.status target then
        .ok (db.setTask scale { t with status := target, errorCode, skippedReason })
      else .error (invalidStateTransition ("scale_task " ++ scale.value)
        t.status.value target.value)

def updateCounters (scale : AnalysisScale) (r : ScaleProcessResult) (db : JobState U) :
    JobState U :=
  { db with tasks := Function.update db.tasks scale ((db.tasks scale).map fun t =>
      { t with totalUnits := r.total, succeededUnits := r.succeeded, failedUnits := r.failed }) }

/-- `_finalize_scale_task`. -/
def finalizeScaleTask (scale : AnalysisScale) (r : ScaleProcessResult) (db : JobState U) :
    Except Exn (JobState U) :=
  transitionScaleTask scale r.status none none (db.updateCounters scale r)

theorem setTask_eq_self {db : JobState U} {scale : AnalysisScale} {t : ScaleTaskRow}
    (h : db.tasks scale = some t) : db.setTask scale t = db := by
  unfold setTask
  rw [← h, Function.update_eq_self]

theorem transitionScaleTask_of_legal {db : JobState U} {scale : AnalysisScale}
    {t : ScaleTaskRow} {target : TaskStatus} {ec : Option ErrorCode}
    {sr : Option SkippedReason} (h : db.tasks scale = some t)
    (hlegal : legalTask t.status target = true) :
    db.transitionScaleTask scale target ec sr
      = .ok (db.setTask scale (t.moveTo target ec sr)) := by
  unfold transitionScaleTask ScaleTaskRow.moveTo
  rw [h]
  by_cases heq : t.status = target
  · simp [heq, setTask_eq_self h]
  · have hcan : canTransitionTask t.status target = true := by
      simpa [legalTask, heq] using hlegal
    simp [heq, hcan]

theorem transitionScaleTask_of_not_legal {db : JobState U} {scale : AnalysisScale}
    {t : ScaleTaskRow} {target : TaskStatus} {ec : Option ErrorCode}
    {sr : Option SkippedReason} (h : db.tasks scale = some t)
    (hlegal : legalTask t.status target = false) :
    db.transitionScaleTask scale target ec sr
      = .error (invalidStateTransition ("scale_task " ++ scale.value) t.status.value
          target.value) := by
  unfold transitionScaleTask
  rw [h]
  rw [legalTask, Bool.or_eq_false_iff, decide_eq_false_iff_not] at hlegal
  simp [hlegal.1, hlegal.2]

theorem transitionJob_of_not_legal {db : JobState U} {target : JobStatus}
    {ec : Option ErrorCode} {em : Option String}
    (hlegal : legalJob db.job.jobStatus target = false) :
    db.transitionJob target ec em
      = .error (invalidStateTransition ("job " ++ db.job.analysisJobId) db.job.jobStatus.value
          target.value) := by
  unfold transitionJob
  rw [legalJob, Bool.or_eq_false_iff, decide_eq_false_iff_not] at hlegal
  simp [hlegal.1, hlegal.2]

theorem transitionJob_of_legal {db : JobState U} {target : JobStatus} {ec : Option ErrorCode}
    {em : Option String} (hlegal : legalJob db.job.jobStatus target = true) :
    db.transitionJob target ec em = .ok { db with job := db.job.moveTo target ec em } := by
  unfold transitionJob JobRow.moveTo
  by_cases heq : db.job.jobStatus = target
  · simp [heq]
  · have hcan : canTransitionJob db.job.jobStatus target = true := by
      simpa [legalJob, heq] using hlegal
    simp [heq, hcan]

/-- A running scale task takes the status of its counts. -/
theorem finalizeScaleTask_of_running {db : JobState U} {scale : AnalysisScale}
    {t : ScaleTaskRow} {r : ScaleProcessResult} (h : db.tasks scale = some t)
    (hrunning : t.status = .running) :
    db.finalizeScaleTask scale r = .ok (db.setTask scale r.finishedRow) := by
  have htasks : (db.updateCounters scale r).tasks scale = some { t with
      totalUnits := r.total, succeededUnits := r.succeeded, failedUnits := r.failed } := by
    simp [updateCounters, h]
  have hlegal : legalTask t.status r.status = true := by
    rw [hrunning, ScaleProcessResult.status]
    split
    · rfl
    · split <;> rfl
  rw [finalizeScaleTask, transitionScaleTask_of_legal htasks hlegal]
  have hne : t.status ≠ r.status := by
    rw [hrunning, ScaleProcessResult.status]
    split
    · decide
    · split <;> decide
  simp [setTask, updateCounters, ScaleTaskRow.moveTo, ScaleProcessResult.finishedRow, hne]

/-! ## The queue task and the video -/

def queueMarkSucceeded (db : JobState U) : JobState U :=
  { db with queueTask := { db.queueTask with
      status := .succeeded, leaseOwner := none, leaseExpiresAt := none } }

def queueMarkFailed (errorCode : ErrorCode) (errorMessage : String) (db : JobState U) :
    JobState U :=
  { db with queueTask := { db.queueTask with
      status := if db.queueTask.retryCount < db.queueTask.maxRetries then .retryScheduled
        else .failed
      errorCode := some errorCode
      errorMessage := some errorMessage
      leaseOwner := none
      leaseExpiresAt := none } }

def markVideoReady (db : JobState U) : JobState U :=
  { db with video := { db.video with ready := true } }

def updateProbeMetadata (durationMs : ℤ) (db : JobState U) : JobState U :=
  { db with video := { db.video with durationMs := some durationMs } }

/-! ## Triggers -/

def hasTriggers (db : JobState U) : Bool :=
  db.triggers.any fun t => decide (t.videoId = db.video.videoId)

/-- `create_or_get_by_idempotency`, on job, video, span and reason. -/
def createOrGetTrigger (triggers : List TriggerRow) (t : TriggerRow) : List TriggerRow :=
  if (triggers.any fun t' => decide (t'.videoId = t.videoId ∧
      t'.triggerStartMs = t.triggerStartMs ∧ t'.triggerEndMs = t.triggerEndMs ∧
      t'.triggerReason = t.triggerReason)) = true then triggers
  else triggers ++ [t]

end JobState

end CctvMemory.Worker
