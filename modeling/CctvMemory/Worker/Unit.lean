import CctvMemory.Domain.Enums
import CctvMemory.Library.IsoText
import CctvMemory.Worker.Retry

/-!
# One analysis unit

The unit row and its repository writes (`mark_running`, `mark_succeeded`,
`mark_failed`, `mark_skipped`), and `_run_unit_in_fresh_session` of the two
processors as a program on the unit's own row: one atomic step for each
transaction, an exception wherever a step can raise one.

What the outside answers in one run is a `UnitEnv`: what each step raises,
what the database answers to each attempt of each write, how many frames are
usable, the gate decisions and the VLM outcomes. A timeline event raises only
where the recorder is not fail-open.
-/

namespace CctvMemory.Worker

open Act (txn)

/-! ## The row -/

structure UnitRow where
  windowIndex : ℕ
  triggerId : Option String
  status : TaskStatus
  attemptCount : ℕ
  latestModelCallId : Option String
  successfulModelCallId : Option String
  producedRecordIds : List String
  lastErrorCode : Option ErrorCode
  lastErrorMessage : Option String
  startedAt : Option Iso.DateTime
  finishedAt : Option Iso.DateTime
deriving DecidableEq

namespace UnitRow

/-- The row `create_or_get_by_idempotency` inserts. -/
def created (windowIndex : ℕ) (triggerId : Option String) : UnitRow where
  windowIndex
  triggerId
  status := .pending
  attemptCount := 0
  latestModelCallId := none
  successfulModelCallId := none
  producedRecordIds := []
  lastErrorCode := none
  lastErrorMessage := none
  startedAt := none
  finishedAt := none

def markRunning (now : Iso.DateTime) (modelCallId : Option String) (row : UnitRow) : UnitRow :=
  { row with
    status := .running
    attemptCount := row.attemptCount + 1
    latestModelCallId := modelCallId
    startedAt := row.startedAt.or (some now) }

def markSucceeded (now : Iso.DateTime) (modelCallId : Option String) (recordIds : List String)
    (attemptCount : Option ℕ) (row : UnitRow) : UnitRow :=
  { row with
    status := .succeeded
    latestModelCallId := modelCallId
    successfulModelCallId := modelCallId
    producedRecordIds := recordIds
    attemptCount := attemptCount.getD row.attemptCount
    finishedAt := some now
    lastErrorCode := none
    lastErrorMessage := none }

def markFailed (now : Iso.DateTime) (errorCode : ErrorCode) (errorMessage : Option String)
    (modelCallId : Option String) (attemptCount : Option ℕ) (row : UnitRow) : UnitRow :=
  { row with
    status := .failed
    latestModelCallId := modelCallId.or row.latestModelCallId
    attemptCount := attemptCount.getD row.attemptCount
    lastErrorCode := some errorCode
    lastErrorMessage := errorMessage
    finishedAt := some now }

def markSkipped (now : Iso.DateTime) (skippedReason : ErrorCode) (modelCallId : Option String)
    (row : UnitRow) : UnitRow :=
  { row with
    status := .skipped
    latestModelCallId := modelCallId.or row.latestModelCallId
    lastErrorCode := some skippedReason
    lastErrorMessage := none
    finishedAt := some now }

@[simp] theorem status_markRunning (now : Iso.DateTime) (m : Option String) (r : UnitRow) :
    (r.markRunning now m).status = .running := rfl

@[simp] theorem status_markSucceeded (now : Iso.DateTime) (m : Option String)
    (ids : List String) (n : Option ℕ) (r : UnitRow) :
    (r.markSucceeded now m ids n).status = .succeeded := rfl

@[simp] theorem status_markFailed (now : Iso.DateTime) (c : ErrorCode) (t m : Option String)
    (n : Option ℕ) (r : UnitRow) : (r.markFailed now c t m n).status = .failed := rfl

@[simp] theorem status_markSkipped (now : Iso.DateTime) (c : ErrorCode) (m : Option String)
    (r : UnitRow) : (r.markSkipped now c m).status = .skipped := rfl

theorem startedAt_markRunning_of_none {now : Iso.DateTime} {m : Option String} {r : UnitRow}
    (h : r.startedAt = none) : (r.markRunning now m).startedAt = some now := by
  simp [markRunning, h]

end UnitRow

/-! ## What a unit writes beside its row -/

inductive UnitPhase where
  | preVlm
  | vlm
  | postVlm
deriving DecidableEq, Repr

def UnitPhase.name : UnitPhase → String
  | preVlm => "pre_vlm"
  | vlm => "vlm"
  | postVlm => "post_vlm"

inductive ModelCallError where
  | raised (cls : ExnClass)
  | lifecycleGuard (phase : UnitPhase) (cls : ExnClass)
deriving DecidableEq, Repr

structure ModelCallLog where
  modelCallId : String
  succeeded : Bool
  attemptCount : ℕ
  errorType : Option ModelCallError
  errorMessage : Option String
deriving DecidableEq, Repr

/-- Rows that other tables gain in the same transaction. -/
inductive Effect where
  | modelCall (log : ModelCallLog)
  | gateLog
  | published (recordIds : List String)
deriving DecidableEq, Repr

/-! ## The environment of a run -/

inductive SpanStep where
  | start
  | body
  | fail
  | finish
deriving DecidableEq, Repr

/-- The steps of a unit that may raise without writing the row. A
`…Finished` step is the `unit_finished` event of that branch; the gate's
suppression is recorded before a detector-only publication, or after a skip. -/
inductive UnitStep where
  | unitRunning
  | frameSelect (s : SpanStep)
  | noFramesFinished
  | mediaRefs (s : SpanStep)
  | insufficientFinished
  | extractionFailedFinished
  | preVlmGate
  | preVlmGateSuppressed
  | suppressedAfterSkip
  | detectorFrameInputs
  | detectorGate (s : SpanStep)
  | detectorGateSuppressed
  | inputManifest
  | vlmAttemptStart (attempt : ℕ)
  | vlmAttemptFinish (attempt : ℕ)
  | vlmAttemptFail (attempt : ℕ)
  | vlmFailedFinished
  | serializeOutput
  | publicationFinished
  | succeededFinished
  | cleanupSelected
deriving DecidableEq, Repr

/-- The transactions of a unit. -/
inductive UnitWrite where
  | claim
  | noFramesSkipped
  | insufficientSkipped
  | extractionFailed
  | gateSchemaFailed
  | gateLog
  | gateSkipped
  | detectorOnlyPublish
  | attemptLog (attempt : ℕ)
  | vlmFailed
  | publish
  | forceTerminalize
deriving DecidableEq, Repr

structure UnitEnv where
  windowIndex : ℕ
  triggerId : Option String
  raises : UnitStep → Option Exn
  /-- What the database answers to attempt `n` of a transaction. -/
  writeFault : UnitWrite → ℕ → Option Exn
  /-- The local clock of the host at each transaction. -/
  now : UnitWrite → Iso.DateTime
  mcallId : String
  /-- The new id of attempt `n`; `0` is the lifecycle guard's. -/
  freshMcallId : ℕ → String
  usableFrames : ℕ
  /-- The pre-VLM gate, when one is configured: whether it triggers the VLM. -/
  preVlmGate : Option Bool
  /-- The legacy detector gate, when enabled: whether it triggers the VLM. -/
  detectorGate : Option Bool
  /-- What the `n`-th scheduled VLM call raises, with or without strict schema. -/
  vlm : ℕ → Bool → Option Exn
  retryPolicy : RetryPolicy
  terminalWriteMaxAttempts : ℕ
  /-- The record ids that publishing gives. -/
  recordIds : List String

/-- Whether the job row is found, when claiming the unit and when publishing. -/
structure JobLookup where
  atClaim : Bool
  atPublish : Bool

abbrev UnitAct (α : Type) := Act Exn (Option UnitRow) Effect α

section Steps

variable (env : UnitEnv)

/-- A step that leaves the row alone, or raises. -/
def step (s : UnitStep) : UnitAct Unit :=
  match env.raises s with
  | none => pure ()
  | some e => throw e

/-- `timeline.span`: a failing body records `fail` and is raised again. -/
def span (place : SpanStep → UnitStep) : UnitAct Unit := do
  step env (place .start)
  tryCatch (step env (place .body)) fun e => do
    step env (place .fail)
    throw e
  step env (place .finish)

/-- A terminal write of this unit, with bounded retry. -/
def dbWriteUnit (w : UnitWrite) (f : UnitRow → UnitRow) (out : List Effect) : UnitAct Unit :=
  dbWrite env.terminalWriteMaxAttempts (env.writeFault w) fun row => .ok ((), row.map f, out)

/-! ## Terminal writes -/

def terminalizeUnitSkipped (w : UnitWrite) (skippedReason : ErrorCode) : UnitAct Unit :=
  dbWriteUnit env w (UnitRow.markSkipped (env.now w) skippedReason (some env.mcallId)) []

def terminalizeUnitFailed (errorCode : ErrorCode) (e : Exn) : UnitAct Unit :=
  dbWriteUnit env .extractionFailed
    (UnitRow.markFailed (env.now .extractionFailed) errorCode (some (clip 500 e.message))
      (some env.mcallId) none)
    [.modelCall ⟨env.mcallId, false, 1, some (.raised e.cls), some (clip 500 e.message)⟩]

/-- `_mark_unit_failed`, and `_mark_pre_vlm_schema_failed`. -/
def markUnitFailed (w : UnitWrite) (errorCode : ErrorCode) (e : Exn) (attempts : ℕ) :
    UnitAct Unit :=
  dbWriteUnit env w
    (UnitRow.markFailed (env.now w) errorCode (some (clip 500 e.message))
      (some env.mcallId) (some attempts)) []

/-- `_force_terminalize_running`: a write that fails is logged and dropped. -/
def forceTerminalizeRunning (phase : UnitPhase) (e : Exn) : UnitAct Unit :=
  tryCatch
    (dbWriteUnit env .forceTerminalize
      (UnitRow.markFailed (env.now .forceTerminalize) .analysisUnitFailed
        (some ("lifecycle_guard:" ++ phase.name ++ ": " ++ clip 400 e.message))
        (some env.mcallId) none)
      [.modelCall ⟨env.freshMcallId 0, false, 1, some (.lifecycleGuard phase e.cls),
        some (clip 400 e.message)⟩])
    fun _ => pure ()

/-! ## The body of a running unit -/

/-- Frame selection and media refs. `some o` is an early return. -/
def framesStage : UnitAct (Option UnitOutcome) :=
  tryCatch
    (do
      span env .frameSelect
      if env.usableFrames = 0 then do
        terminalizeUnitSkipped env .noFramesSkipped .insufficientFrames
        step env .noFramesFinished
        pure (some .skipped)
      else do
        span env .mediaRefs
        pure none)
    fun e =>
      if e.cls = .insufficientFrames then do
        terminalizeUnitSkipped env .insufficientSkipped .insufficientFrames
        step env .insufficientFinished
        pure (some .skipped)
      else do
        terminalizeUnitFailed env .frameExtractionFailed e
        step env .extractionFailedFinished
        pure (some .failed)

/-- `run_pre_vlm_gate` under its handler: `.inl` is an early return. -/
def runPreVlmGate : UnitAct (UnitOutcome ⊕ Option Bool) :=
  tryCatch
    (do
      step env .preVlmGate
      pure (.inr env.preVlmGate))
    fun e =>
      if e.cls = .objectDetectionSchemaValidation then do
        markUnitFailed env .gateSchemaFailed .objectDetectionSchemaValidationFailed e 0
        pure (.inl .failed)
      else throw e

/-- What follows a publication that marked the unit succeeded. -/
def afterPublication : UnitAct UnitOutcome := do
  step env .publicationFinished
  step env .succeededFinished
  step env .cleanupSelected
  pure .succeeded

/-- `_publish_detector_only_unit`. -/
def publishDetectorOnlyUnit : UnitAct UnitOutcome := do
  dbWriteUnit env .detectorOnlyPublish
    (UnitRow.markSucceeded (env.now .detectorOnlyPublish) none env.recordIds (some 0))
    [.published env.recordIds]
  afterPublication env

/-- The gates of `default_segment`: a suppressed VLM call still publishes a
detector-only record. -/
def defaultSegmentGates : UnitAct (Option UnitOutcome) := do
  match ← runPreVlmGate env with
  | .inl o => pure (some o)
  | .inr (some true) => pure none
  | .inr (some false) => do
      step env .preVlmGateSuppressed
      let o ← publishDetectorOnlyUnit env
      pure (some o)
  | .inr none =>
      match env.detectorGate with
      | none => pure none
      | some triggered => do
          step env .detectorFrameInputs
          span env .detectorGate
          dbWriteUnit env .gateLog id [.gateLog]
          if triggered then pure none
          else do
            step env .detectorGateSuppressed
            let o ← publishDetectorOnlyUnit env
            pure (some o)

/-- The gate of `high_freq_event`: a suppressed VLM call skips the unit. -/
def highFreqEventGates : UnitAct (Option UnitOutcome) := do
  match ← runPreVlmGate env with
  | .inl o => pure (some o)
  | .inr (some false) => do
      terminalizeUnitSkipped env .gateSkipped .preVlmGateSuppressed
      step env .suppressedAfterSkip
      pure (some .skipped)
  | .inr _ => pure none

def vlmCallbacks : VlmCallbacks (Option UnitRow) Effect where
  onAttemptStarted n := step env (.vlmAttemptStart n)
  onAttemptSucceeded n := step env (.vlmAttemptFinish n)
  onAttemptFailed n e := do
    dbWriteUnit env (.attemptLog n) id
      [.modelCall ⟨if n = 1 then env.mcallId else env.freshMcallId n, false, n,
        some (.raised e.cls), some (clip 500 e.message)⟩]
    step env (.vlmAttemptFail n)

/-- The VLM call. `.inl` is an early return, `.inr` the attempts it took. -/
def vlmStage : UnitAct (UnitOutcome ⊕ ℕ) := do
  let result ← executeVlmWithRetry env.retryPolicy env.vlm (vlmCallbacks env)
  match result.error with
  | some e => do
      markUnitFailed env .vlmFailed (vlmFailureErrorCode e) e result.attempts
      step env .vlmFailedFinished
      pure (.inl .failed)
  | none => do
      step env .serializeOutput
      pure (.inr result.attempts)

/-- Publish the record, log the call and mark the unit succeeded, in one
transaction; without its job row the transaction does nothing. -/
def publishStage (job : JobLookup) (attempts : ℕ) : UnitAct UnitOutcome := do
  let successMcallId := if attempts = 1 then env.mcallId else env.freshMcallId attempts
  if job.atPublish then do
    dbWriteUnit env .publish
      (UnitRow.markSucceeded (env.now .publish) (some successMcallId) env.recordIds
        (some attempts))
      [.published env.recordIds, .modelCall ⟨successMcallId, true, attempts, none, none⟩]
    afterPublication env
  else do
    dbWriteUnit env .publish id []
    pure .failed

/-- Frames, gates and the input manifest: the `pre_vlm` phase. -/
def preVlmPhase (gates : UnitAct (Option UnitOutcome)) : UnitAct (Option UnitOutcome) := do
  match ← framesStage env with
  | some o => pure (some o)
  | none =>
      match ← gates with
      | some o => pure (some o)
      | none => do
          step env .inputManifest
          pure none

/-- An action of the body, its exceptions tagged with the phase. -/
abbrev PhasedAct (α : Type) := Act (UnitPhase × Exn) (Option UnitRow) Effect α

/-- The body up to the publication: `.inl` is an early return. -/
def beforePublication (gates : UnitAct (Option UnitOutcome)) :
    PhasedAct (UnitOutcome ⊕ ℕ) := do
  match ← Act.mapError (Prod.mk .preVlm) (preVlmPhase env gates) with
  | some o => pure (.inl o)
  | none => Act.mapError (Prod.mk .vlm) (vlmStage env)

/-- `_execute_running_unit`. -/
def executeRunningUnit (gates : UnitAct (Option UnitOutcome)) (job : JobLookup) :
    PhasedAct UnitOutcome := do
  match ← beforePublication env gates with
  | .inl o => pure o
  | .inr attempts => Act.mapError (Prod.mk .postVlm) (publishStage env job attempts)

/-- What the claim transaction of a unit ends with. -/
inductive Claim where
  | jobMissing
  | alreadySucceeded
  | alreadySkipped
  | running
deriving DecidableEq, Repr

/-- The claim transaction: create or get the row, and set it running unless it
is done. -/
def claimUnit (job : JobLookup) : UnitAct Claim :=
  attemptWrite (env.writeFault .claim 1) fun row =>
    if job.atClaim then
      let unit := row.getD (UnitRow.created env.windowIndex env.triggerId)
      match unit.status with
      | .succeeded => .ok (.alreadySucceeded, some unit, [])
      | .skipped => .ok (.alreadySkipped, some unit, [])
      | _ => .ok (.running, some (unit.markRunning (env.now .claim) (some env.mcallId)), [])
    else .ok (.jobMissing, row, [])

/-- The lifecycle guard around the body. -/
def guarded (body : PhasedAct UnitOutcome) : UnitAct UnitOutcome :=
  Act.catching body fun escape => do
    forceTerminalizeRunning env escape.1 escape.2
    pure .failed

/-- `_run_unit_in_fresh_session`, with the gates of a processor. -/
def runUnitInFreshSession (gates : UnitAct (Option UnitOutcome)) (job : JobLookup) :
    UnitAct UnitOutcome := do
  match ← claimUnit env job with
  | .jobMissing => pure .failed
  | .alreadySucceeded => pure .succeeded
  | .alreadySkipped => pure .skipped
  | .running => do
      step env .unitRunning
      guarded env (executeRunningUnit env gates job)

end Steps

/-! ## The two processors -/

inductive UnitProcessor where
  | defaultSegment
  | highFreqEvent
deriving DecidableEq, Repr

def UnitProcessor.gates (p : UnitProcessor) (env : UnitEnv) : UnitAct (Option UnitOutcome) :=
  match p with
  | defaultSegment => defaultSegmentGates env
  | highFreqEvent => highFreqEventGates env

def UnitProcessor.body (p : UnitProcessor) (env : UnitEnv) (job : JobLookup) :
    PhasedAct UnitOutcome :=
  executeRunningUnit env (p.gates env) job

def UnitProcessor.runUnit (p : UnitProcessor) (env : UnitEnv) (job : JobLookup) :
    UnitAct UnitOutcome :=
  runUnitInFreshSession env (p.gates env) job

/-- A run in which every step works: three frames, no gate, the VLM answers. -/
def UnitEnv.smooth : UnitEnv where
  windowIndex := 0
  triggerId := none
  raises _ := none
  writeFault _ _ := none
  now _ := Iso.DateTime.utc 0
  mcallId := "mcall_0"
  freshMcallId _ := "mcall_1"
  usableFrames := 3
  preVlmGate := none
  detectorGate := none
  vlm _ _ := none
  retryPolicy := {
    maxAttempts := 1
    backoffBaseMs := 500
    backoffCapMs := 8000
    jitter := 0
    schemaRegenerateMaxAttempts := 0
    schemaRetryBackoffMs := 0
    maxAttempts_pos := Nat.one_pos
    jitter_mem := noJitter_mem }
  terminalWriteMaxAttempts := 3
  recordIds := ["obs_0"]

/-- The same run with an exception at step `s`. -/
def UnitEnv.raisingAt (s : UnitStep) (e : Exn) : UnitEnv :=
  { UnitEnv.smooth with raises := fun s' => if s' = s then some e else none }

/-- The timeline table is locked. -/
def timelineLocked : Exn := ⟨.operational, "database is locked", true⟩

end CctvMemory.Worker
