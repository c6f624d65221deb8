import CctvMemory.Ingestion.Store
import CctvMemory.Library.Act

/-!
# Submitting a video

`IngestionService.submit` on its four tables: the source is created or found by
camera and start time, the job is looked up by its key, and a new job gets its
scale tasks and one queue task. A raised error rolls the request back.
-/

namespace CctvMemory.Ingestion

open Keyed (Indexed Table)
open CctvMemory.Authorization (Capability)
open CctvMemory.Provisioning (SourceType VideoSource setRef)

/-! ## Rows -/

structure AnalysisJob where
  analysisJobId : String
  videoId : String
  jobStatus : JobStatus := .queued
  idempotencyKey : String
  analysisOptions : List (String × Bool)
  modelVersion : Option String
  promptVersion : Option String
  pipelineVersion : Option String
deriving DecidableEq

structure AnalysisScaleTask where
  scaleTaskId : String
  analysisJobId : String
  analysisScale : AnalysisScale
  status : TaskStatus := .pending
deriving DecidableEq

/-- The unique constraint of a scale task. -/
def AnalysisScaleTask.jobScale (t : AnalysisScaleTask) : String × AnalysisScale :=
  (t.analysisJobId, t.analysisScale)

structure AnalyzeVideo where
  analysisJobId : String
  videoId : String
  scaleTaskId : String
deriving DecidableEq

structure QueueTask where
  taskId : String
  taskType : String
  payload : AnalyzeVideo
  status : String := "queued"
  nextRunAt : ℤ
deriving DecidableEq

structure JobCreated where
  eventType : String := "analysis_job_created"
  principalId : String
  videoId : String
  cameraId : String
  analysisJobId : String
deriving DecidableEq

structure Store (b : Backend) where
  sources : (videoSources b).Rows
  jobs : Indexed AnalysisJob AnalysisJob.analysisJobId AnalysisJob.idempotencyKey
  scaleTasks : Indexed AnalysisScaleTask AnalysisScaleTask.scaleTaskId AnalysisScaleTask.jobScale
  tasks : Table QueueTask QueueTask.taskId
  audit : List JobCreated

/-! ## Requests -/

structure SubmitRequest where
  sourceType : SourceType
  sourceUri : String
  cameraId : String
  videoStartTime : Iso.DateTime
  externalSourceId : Option String := none
  idempotencyKey : Option String := none
  analysisOptions : List (String × Bool) := []
deriving DecidableEq

structure SubmitResponse where
  videoId : String
  sourceStatus : String
  analysisJobId : String
  accepted : Bool
deriving DecidableEq

structure IngestionConfig where
  modelVersion : String
  promptVersion : String
  pipelineVersion : String

/-- The clock of a request and the ids it draws. -/
structure SubmitEnv where
  now : ℤ
  videoId : String
  jobId : String
  scaleTaskId : AnalysisScale → String
  taskId : String

namespace SubmitRequest

def source (q : SubmitRequest) (videoId : String) : VideoSource where
  videoId := videoId
  sourceType := q.sourceType
  sourceUri := q.sourceUri
  cameraId := q.cameraId
  videoStartTime := q.videoStartTime
  externalSourceId := q.externalSourceId

/-- `idempotency_key or external_source_id or video_id`. -/
def jobKey (q : SubmitRequest) (videoId : String) : String :=
  match setRef q.idempotencyKey with
  | some key => key
  | none => match setRef q.externalSourceId with
    | some key => key
    | none => videoId

/-- `analysis_options or {"enable_default_segment": True}`. -/
def options (q : SubmitRequest) : List (String × Bool) :=
  if q.analysisOptions = [] then [("enable_default_segment", true)] else q.analysisOptions

def scales (q : SubmitRequest) : List AnalysisScale :=
  if q.options.lookup "enable_motion_triggered_high_freq" = some true then
    [.defaultSegment, .motionScan, .highFreqEvent]
  else [.defaultSegment]

end SubmitRequest

/-! ## The service -/

section Service

variable (b : Backend) (cfg : IngestionConfig) (env : SubmitEnv) (q : SubmitRequest)

def newJob (videoId : String) : AnalysisJob where
  analysisJobId := env.jobId
  videoId := videoId
  idempotencyKey := q.jobKey videoId
  analysisOptions := q.options
  modelVersion := some cfg.modelVersion
  promptVersion := some cfg.promptVersion
  pipelineVersion := some cfg.pipelineVersion

def createJob (jobs : Indexed AnalysisJob AnalysisJob.analysisJobId AnalysisJob.idempotencyKey)
    (job : AnalysisJob) : Except StoreError
      (AnalysisJob × Indexed AnalysisJob AnalysisJob.analysisJobId AnalysisJob.idempotencyKey) :=
  match jobs.find? job.idempotencyKey with
  | some existing =>
      if existing.videoId ≠ job.videoId then
        .error (.idempotencyConflict "AnalysisJob idempotency_key reused with different video_id")
      else .ok (existing, jobs)
  | none => match jobs.insert? job with
      | some jobs' => .ok (job, jobs')
      | none => .error (Repository.uniqueViolation b "analysis_jobs.analysis_job_id")

/-- A unique violation without the idempotency mapping. -/
def scaleTaskViolation : StoreError :=
  match b with
  | .sqlite => .conflict "UNIQUE constraint failed: analysis_scale_tasks"
  | .postgres =>
      .integrity "duplicate key value violates unique constraint on analysis_scale_tasks"

/-- `create_scale_task`, one after the other. -/
def createScaleTasks :
    List AnalysisScaleTask →
    Indexed AnalysisScaleTask AnalysisScaleTask.scaleTaskId AnalysisScaleTask.jobScale →
    Except StoreError
      (Indexed AnalysisScaleTask AnalysisScaleTask.scaleTaskId AnalysisScaleTask.jobScale)
  | [], t => .ok t
  | row :: rows, t => match t.insert? row with
      | some t' => createScaleTasks rows t'
      | none => .error (scaleTaskViolation b)

def enqueueTask (tasks : Table QueueTask QueueTask.taskId) (task : QueueTask) :
    Except StoreError (Table QueueTask QueueTask.taskId) :=
  match tasks.insert? task with
  | some tasks' => .ok tasks'
  | none => .error (.integrity "UNIQUE constraint failed: analysis_tasks.task_id")

def scaleTaskRows (jobId : String) : List AnalysisScaleTask :=
  q.scales.map fun scale => {
    scaleTaskId := env.scaleTaskId scale
    analysisJobId := jobId
    analysisScale := scale }

def analyzeTask (jobId videoId : String) : QueueTask where
  taskId := env.taskId
  taskType := "analyze_video"
  payload := ⟨jobId, videoId, env.scaleTaskId .defaultSegment⟩
  nextRunAt := env.now

def respondTo (source : VideoSource) (jobId : String) : SubmitResponse :=
  ⟨source.videoId, source.sourceStatus, jobId, true⟩

/-- A job that is not there yet, with its scale tasks and its queue task. -/
def createAnalysis (principalId : String) (s : Store b) (source : VideoSource) :
    Except StoreError (SubmitResponse × Store b) := do
  let created ← createJob b s.jobs (newJob cfg env q source.videoId)
  let scaleTasks ← createScaleTasks b (scaleTaskRows env q created.1.analysisJobId) s.scaleTasks
  let tasks ← enqueueTask s.tasks (analyzeTask env created.1.analysisJobId source.videoId)
  pure (respondTo source created.1.analysisJobId, {
    sources := s.sources
    jobs := created.2
    scaleTasks := scaleTasks
    tasks := tasks
    audit := s.audit ++ [{
      principalId := principalId
      videoId := source.videoId
      cameraId := source.cameraId
      analysisJobId := created.1.analysisJobId }] })

def submit (principalId : String) (capabilities : List Capability) (s : Store b) :
    Except StoreError (SubmitResponse × Store b) :=
  if Capability.analysisSubmit ∈ capabilities then do
    let found ← (videoSources b).createOrGet b s.sources (q.source env.videoId)
    let s' : Store b := { s with sources := found.2 }
    match s'.jobs.find? (q.jobKey found.1.videoId) with
    | some existing => pure (respondTo found.1 existing.analysisJobId, s')
    | none => createAnalysis b cfg env q principalId s' found.1
  else .error (.capabilityDenied "analysis.submit required")

/-- A request in its session, which rolls back on an error. -/
def handleSubmit (principalId : String) (capabilities : List Capability) (s : Store b) :
    Except StoreError SubmitResponse × Store b :=
  match submit b cfg env q principalId capabilities s with
  | .ok (resp, s') => (.ok resp, s')
  | .error e => (.error e, s)

end Service

end CctvMemory.Ingestion
