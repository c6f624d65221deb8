import CctvMemory.Library.Base64
import CctvMemory.Video.FramePaths
import CctvMemory.Worker.GateEvidence
import CctvMemory.Worker.ObjectDetection

/-!
# The gate runner

`infrastructure/pre_vlm_gate/gate_runner.py`: the frames of a unit are sent to
the detector, again as long as its answer fails the schema, what it says becomes
the signal that the gate decides on, and one row is logged. The detector, the
disk, the clock and the log are parameters.

* `detections_settle`: which call decides, and what is told of the others.
* `sent_iff_shown`: with Google Vision behind it, a window is let through for what
  the vendor's answer shows of its frames.
-/

namespace CctvMemory.Worker.GateRunner

open ObjectDetection

/-! ## Contracts -/

structure GateFrameInput where
  uri : List Char
  frameIndex : Option ℕ
  timestampMs : ℕ
  frameHash : Option String
  widthPx : Option ℕ
  heightPx : Option ℕ
  mimeType : Option String
deriving DecidableEq

/-- What a log row says of the unit it is about. -/
structure GateSubject where
  gateLogId : String
  analysisJobId : String
  scaleTaskId : String
  unitId : String
  videoId : String
  analysisScale : AnalysisScale
  unitKind : String
  segmentStartMs : ℕ
  segmentEndMs : ℕ
deriving DecidableEq

structure PreVlmGateRequest where
  requestId : String
  subject : GateSubject
  provider : String
  modelId : Option String
  profile : GateProfile
  frames : List GateFrameInput
  triggerContext : Option TriggerContext

structure EvidenceDetection where
  label : String
  confidence : ℚ
  bbox : BoundingBox
  category : Option DetectionCategory
  sourceProvider : String

/-- An entry of `frame_evidence`. -/
structure EvidenceRow where
  frameIndex : Option ℕ
  timestampMs : ℕ
  uriBasename : Option (List Char)
  frameHash : Option String
  detections : List EvidenceDetection
  error : Option ObjectDetectionError

inductive SignalStatus where
  | succeeded
  | failed
deriving DecidableEq, Repr

/-- A `GateSignal` of object detection. -/
structure DetectionSignal where
  provider : String
  modelId : Option String
  status : SignalStatus
  frameCount : ℕ
  usage : Option Usage
  frameEvidence : List EvidenceRow

/-- The signal, as far as a rule reads it. -/
def DetectionSignal.toGateSignal (signal : DetectionSignal) : GateSignal :=
  ⟨.objectDetection, signal.frameCount, signal.frameEvidence.map fun row =>
    row.detections.map fun d => ⟨d.label, d.confidence⟩⟩

structure GateDecisionBundle where
  decision : PreVlmGateDecision
  signals : List DetectionSignal
  frameEvidence : List EvidenceRow

/-- A call that failed the schema, as it is listed; the details are those of the error. -/
structure DetectionAttempt where
  attempt : ℕ
  errorType : String
  validationStatus : String
  schemaDetails : SchemaError

/-- What a row says of an evaluation, which failed or came to a decision. -/
inductive LogResult where
  | succeeded (bundle : GateDecisionBundle)
  | failed (errorType errorMessage : String) (rawTextOutput : Option String)
      (parsedOutput : Option Payload) (validationStatus : String)
      (attemptDetails : List DetectionAttempt)

structure PreVlmGateLog where
  subject : GateSubject
  profileName : String
  provider : String
  modelId : Option String
  result : LogResult
  suppressionPolicy : GateSuppressionPolicy
  startedAt : ℤ
  finishedAt : ℤ
  durationMs : ℕ

/-! ## The detector -/

/-- What an evaluation meets; times are microseconds. -/
structure RunnerEnv where
  /-- The content of a path that is a file. -/
  files : List Char → Option (List UInt8)
  /-- The answer to a call, by its number. -/
  detect : ℕ → BatchRequest → Except Raised BatchResult
  maxResults : Option ℕ
  minConfidence : Option ℚ
  schemaRegenerateMaxAttempts : ℕ
  modelDump : BatchResult → Payload
  dumps : Payload → String
  /-- The log writer, or the repository where there is none. -/
  writeLog : Option (PreVlmGateLog → Option Raised)
  started : ℤ
  finished : ℤ

variable (env : RunnerEnv)

def schemaErrorType : String := "ObjectDetectionSchemaValidationError"

/-- `_image_input`. -/
def imageInput (frame : GateFrameInput) (index : ℕ) : Except Raised ImageInput :=
  let input (content : ImageContent) : ImageInput :=
    ⟨"frame_" ++ toString index, content,
      some ((frame.mimeType.filter fun mime => mime ≠ "").getD "image/jpeg"),
      ⟨frame.widthPx, frame.heightPx, frame.frameIndex, some frame.timestampMs, frame.frameHash⟩⟩
  match env.files frame.uri with
  | some bytes =>
      let content := String.ofList (Base64.encode Base64.standard bytes)
      if content = "" then .error (.validation [""]) else .ok (input (.bytesBase64 content))
  | none =>
      let ref := String.ofList (Video.basename frame.uri)
      if ref = "" then .error (.validation [""]) else .ok (input (.artifactRef ref))

/-- The options of a request: `gt=0`, and between 0 and 1. -/
def requestOptions : Except Raised RequestOptions :=
  let positive := (env.maxResults.map fun n => decide (0 < n)).getD true
  let share := (env.minConfidence.map fun c => decide (0 ≤ c ∧ c ≤ 1)).getD true
  if positive && share then .ok ⟨env.maxResults, env.minConfidence⟩
  else .error (.validation (failing [("max_results", positive), ("min_confidence", share)]))

/-- The request to the detector. -/
def batchRequest (request : PreVlmGateRequest) : Except Raised BatchRequest := do
  let images ← request.frames.zipIdx.mapM fun a => imageInput env a.1 a.2
  let options ← requestOptions env
  if images = [] ∨ request.provider = "" then
    .error (.validation (failing [("provider", decide (request.provider ≠ "")),
      ("images", decide (images ≠ []))]))
  else .ok ⟨request.requestId ++ ":object_detection", request.provider, images, options⟩

/-- A call: its result has to have an entry for every image. -/
def checkedCall (od : BatchRequest) (n : ℕ) : Except Raised BatchResult :=
  match env.detect n od with
  | .ok result =>
      if result.results.length ≠ od.images.length then
        .error (.schema ⟨"Object detection result count does not match request image count",
          "schema_validation_failed", some (env.dumps (env.modelDump result)),
          some (env.modelDump result), ["result count mismatch"], some od.provider,
          result.modelId⟩)
      else .ok result
  | .error e => .error e

/-- How the calls end: with a result, with an answer that fails the schema once
too often, or with any other exception. -/
inductive Detected where
  | found (result : BatchResult)
  | refused (e : SchemaError) (attempts : List DetectionAttempt)
  | raised (e : Raised)

def attemptOf (n : ℕ) (e : SchemaError) : DetectionAttempt := ⟨n, schemaErrorType, e.stage, e⟩

/-- The calls from number `n` on, with `left` more allowed behind it; the number
of the last call, and how they end. -/
def detectFrom (od : BatchRequest) : ℕ → ℕ → List DetectionAttempt → ℕ × Detected
  | left, n, attempts =>
      match checkedCall env od n with
      | .ok result => (n, .found result)
      | .error (.schema e) =>
          match left with
          | 0 => (n, .refused e (attempts ++ [attemptOf n e]))
          | left + 1 => detectFrom od left (n + 1) (attempts ++ [attemptOf n e])
      | .error e => (n, .raised e)

/-- `_detect_with_schema_retry`. -/
def detectWithSchemaRetry (od : BatchRequest) : ℕ × Detected :=
  detectFrom env od env.schemaRegenerateMaxAttempts 1 []

/-! ## The signal -/

/-- `int(text)` of the digits behind the last `_`. -/
def imageIndex (imageId : String) : Option ℕ :=
  let tail := imageId.toList.rtakeWhile fun c => c ≠ '_'
  if '_' ∈ imageId.toList then JsonText.readDigits tail else none

/-- `_basename_for`. -/
def basenameFor (request : PreVlmGateRequest) (imageId : String) : Option (List Char) :=
  (imageIndex imageId).bind fun index =>
    request.frames[index]?.map fun frame => Video.basename frame.uri

def evidenceRow (request : PreVlmGateRequest) (r : ImageResult) : EvidenceRow where
  frameIndex := r.image.frameIndex
  timestampMs := r.image.timestampMs.getD 0
  uriBasename := basenameFor request r.imageId
  frameHash := r.image.sha256
  detections := r.detections.map fun d =>
    ⟨d.label, d.confidence, d.bbox, d.category, d.sourceProvider⟩
  error := match r.status with
    | .succeeded => none
    | .failed e => some e

def hasFailed (r : ImageResult) : Bool :=
  match r.status with
  | .succeeded => false
  | .failed _ => true

/-- The signal of a result. -/
def objectDetectionSignal (request : PreVlmGateRequest) (result : BatchResult) : DetectionSignal where
  provider := result.provider
  modelId := result.modelId
  status := if result.results.any hasFailed then .failed else .succeeded
  frameCount := result.results.length
  usage := result.usage
  frameEvidence := result.results.map (evidenceRow request)

/-! ## Evaluating -/

/-- What an evaluation raises, with the calls that are told with it. -/
structure Failure where
  raised : Raised
  attempts : List DetectionAttempt

/-- How many calls were made, the rows that were written, and the end. -/
structure Evaluation where
  calls : ℕ
  logs : List PreVlmGateLog
  outcome : Except Failure GateDecisionBundle

/-- `duration_ms` is not negative, which a clock that is set back breaks. -/
def durationMs : ℤ := (env.finished - env.started).tdiv 1000

def logRow (request : PreVlmGateRequest) (result : LogResult) : PreVlmGateLog :=
  ⟨request.subject, request.profile.profileName, request.provider, request.modelId, result,
    request.profile.suppressionPolicy, env.started, env.finished, (durationMs env).toNat⟩

/-- Build the row and write it. -/
def logged (request : PreVlmGateRequest) (calls : ℕ) (result : LogResult)
    (outcome : Except Failure GateDecisionBundle) : Evaluation :=
  if durationMs env < 0 then ⟨calls, [], .error ⟨.validation ["duration_ms"], []⟩⟩
  else
    match env.writeLog with
    | none =>
        ⟨calls, [], .error ⟨.runtime "PreVlmGateRunner requires logs or log_writer", []⟩⟩
    | some write =>
        match write (logRow env request result) with
        | some e => ⟨calls, [], .error ⟨e, []⟩⟩
        | none => ⟨calls, [logRow env request result], outcome⟩

/-- `_disabled_bundle`. -/
def disabledBundle (request : PreVlmGateRequest) : GateDecisionBundle :=
  ⟨disabledDecision request.profile.suppressionPolicy, [], []⟩

def bundleOf (request : PreVlmGateRequest) (signal : DetectionSignal) : GateDecisionBundle :=
  ⟨decidePreVlmGate [signal.toGateSignal] request.profile.rules request.profile.suppressionPolicy
    request.triggerContext (some request.profile), [signal], signal.frameEvidence⟩

/-- `evaluate`. -/
def evaluate (request : PreVlmGateRequest) : Evaluation :=
  if request.profile.enabled = false then
    logged env request 0 (.succeeded (disabledBundle request)) (.ok (disabledBundle request))
  else
    match batchRequest env request with
    | .error e => ⟨0, [], .error ⟨e, []⟩⟩
    | .ok od =>
        match detectWithSchemaRetry env od with
        | (calls, .found result) =>
            let bundle := bundleOf request (objectDetectionSignal request result)
            logged env request calls (.succeeded bundle) (.ok bundle)
        | (calls, .refused e attempts) =>
            logged env request calls
              (.failed schemaErrorType (clip 500 e.message) e.rawResponse e.parsedPayload e.stage
                attempts)
              (.error ⟨.schema e, attempts⟩)
        | (calls, .raised e) => ⟨calls, [], .error ⟨e, []⟩⟩

/-! ## The calls -/

/-- The first `n` calls failed the schema, and `told` lists them. -/
def FailedFirst (od : BatchRequest) (n : ℕ) (told : List DetectionAttempt) : Prop :=
  told.length = n ∧ ∀ i (hi : i < told.length), ∃ e,
    checkedCall env od (i + 1) = .error (.schema e) ∧ told[i] = attemptOf (i + 1) e

theorem FailedFirst.snoc {od : BatchRequest} {n : ℕ} {told : List DetectionAttempt} {e : SchemaError}
    (h : FailedFirst env od n told) (hcall : checkedCall env od (n + 1) = .error (.schema e)) :
    FailedFirst env od (n + 1) (told ++ [attemptOf (n + 1) e]) := by
  obtain ⟨hlength, hfailed⟩ := h
  refine ⟨by rw [List.length_append, hlength]; rfl, fun i hi => ?_⟩
  by_cases hlt : i < told.length
  · obtain ⟨e', hcall', htold⟩ := hfailed i hlt
    exact ⟨e', hcall', by rw [List.getElem_append_left hlt, htold]⟩
  · have hi' : i = n := by
      rw [List.length_append, List.length_singleton] at hi
      omega
    subst hi'
    refine ⟨e, hcall, ?_⟩
    rw [List.getElem_append_right (by omega)]
    simp

/-- How the calls end behind `n` that failed the schema. -/
inductive Settles (od : BatchRequest) (n : ℕ) (told : List DetectionAttempt) : Detected → Prop
  | found {result : BatchResult} (h : checkedCall env od (n + 1) = .ok result) :
      Settles od n told (.found result)
  | refused {e : SchemaError} (h : checkedCall env od (n + 1) = .error (.schema e))
      (hlast : n = env.schemaRegenerateMaxAttempts) :
      Settles od n told (.refused e (told ++ [attemptOf (n + 1) e]))
  | raised {e : Raised} (h : checkedCall env od (n + 1) = .error e) (hother : ∀ s, e ≠ .schema s) :
      Settles od n told (.raised e)

theorem detectFrom_settles (od : BatchRequest) (left n : ℕ) (told : List DetectionAttempt)
    (hleft : n + left = env.schemaRegenerateMaxAttempts) (htold : FailedFirst env od n told) :
    ∃ m told', m ≤ env.schemaRegenerateMaxAttempts ∧ FailedFirst env od m told' ∧
      (detectFrom env od left (n + 1) told).1 = m + 1 ∧
      Settles env od m told' (detectFrom env od left (n + 1) told).2 := by
  induction left generalizing n told with
  | zero =>
      unfold detectFrom
      cases hcall : checkedCall env od (n + 1) with
      | ok result => exact ⟨n, told, by omega, htold, rfl, .found hcall⟩
      | error e =>
          cases e with
          | schema e => exact ⟨n, told, by omega, htold, rfl, .refused hcall hleft⟩
          | _ => exact ⟨n, told, by omega, htold, rfl, .raised hcall (by rintro s ⟨⟩)⟩
  | succ left ih =>
      unfold detectFrom
      cases hcall : checkedCall env od (n + 1) with
      | ok result => exact ⟨n, told, by omega, htold, rfl, .found hcall⟩
      | error e =>
          cases e with
          | schema e => exact ih (n + 1) _ (by omega) (htold.snoc env hcall)
          | _ => exact ⟨n, told, by omega, htold, rfl, .raised hcall (by rintro s ⟨⟩)⟩

/-- Whatever the detector answers. -/
theorem detections_settle (od : BatchRequest) :
    ∃ n told, n ≤ env.schemaRegenerateMaxAttempts ∧ FailedFirst env od n told ∧
      (detectWithSchemaRetry env od).1 = n + 1 ∧
      Settles env od n told (detectWithSchemaRetry env od).2 :=
  detectFrom_settles env od _ 0 [] (Nat.zero_add _) ⟨rfl, fun i hi => absurd hi (Nat.not_lt_zero i)⟩

/-! ## What is told of an evaluation -/

variable {env} {request : PreVlmGateRequest}

theorem detectWithSchemaRetry_found {od : BatchRequest} {result : BatchResult}
    (h : checkedCall env od 1 = .ok result) :
    detectWithSchemaRetry env od = (1, .found result) := by
  unfold detectWithSchemaRetry detectFrom
  rw [h]

theorem checkedCall_ok {od : BatchRequest} {result : BatchResult} {n : ℕ}
    (h : env.detect n od = .ok result) (hlength : result.results.length = od.images.length) :
    checkedCall env od n = .ok result := by
  unfold checkedCall
  rw [h]
  exact if_neg (not_not_intro hlength)

theorem logged_written {calls : ℕ} {result : LogResult}
    {outcome : Except Failure GateDecisionBundle} {write : PreVlmGateLog → Option Raised}
    (hclock : 0 ≤ durationMs env) (hlog : env.writeLog = some write)
    (hwritten : write (logRow env request result) = none) :
    logged env request calls result outcome
      = ⟨calls, [logRow env request result], outcome⟩ := by
  unfold logged
  rw [if_neg (not_lt.mpr hclock), hlog]
  dsimp only
  rw [hwritten]

theorem logged_cases (env : RunnerEnv) (request : PreVlmGateRequest) (calls : ℕ)
    (result : LogResult) (outcome : Except Failure GateDecisionBundle) :
    logged env request calls result outcome = ⟨calls, [logRow env request result], outcome⟩ ∨
      ∃ e, logged env request calls result outcome = ⟨calls, [], .error ⟨e, []⟩⟩ := by
  unfold logged
  split
  · exact Or.inr ⟨_, rfl⟩
  · split
    · exact Or.inr ⟨_, rfl⟩
    · split
      · exact Or.inr ⟨_, rfl⟩
      · exact Or.inl rfl

/-- An outcome that is a bundle is the one that was logged. -/
theorem logged_ok {calls : ℕ} {result : LogResult} {outcome : Except Failure GateDecisionBundle}
    {bundle : GateDecisionBundle}
    (hok : (logged env request calls result outcome).outcome = .ok bundle) :
    logged env request calls result outcome
      = ⟨calls, [logRow env request result], outcome⟩ := by
  rcases logged_cases env request calls result outcome with hlog | ⟨e, hlog⟩
  · exact hlog
  · rw [hlog] at hok
    cases hok

/-- What came to the bundle: the first call that did not fail the schema. -/
def DecidedBy (env : RunnerEnv) (request : PreVlmGateRequest) (calls : ℕ)
    (bundle : GateDecisionBundle) : Prop :=
  ∃ od n told result, batchRequest env request = .ok od ∧ FailedFirst env od n told ∧
    calls = n + 1 ∧ checkedCall env od calls = .ok result ∧
    bundle = bundleOf request (objectDetectionSignal request result)

/-- What came to the failure: as many calls as are allowed, all of which failed the schema. -/
def RefusedBy (env : RunnerEnv) (request : PreVlmGateRequest) (calls : ℕ) (f : Failure) : Prop :=
  ∃ od e, batchRequest env request = .ok od ∧ f.raised = .schema e ∧
    calls = 1 + env.schemaRegenerateMaxAttempts ∧ FailedFirst env od calls f.attempts ∧
    checkedCall env od calls = .error (.schema e)

/-- The row of a failure. -/
def failureRow (env : RunnerEnv) (request : PreVlmGateRequest) (f : Failure) :
    List PreVlmGateLog :=
  match f.raised with
  | .schema e => [logRow env request (.failed schemaErrorType (clip 500 e.message) e.rawResponse
      e.parsedPayload e.stage f.attempts)]
  | _ => []

/-- The calls, the rows and the end of an evaluation tell the same. -/
structure Accounted (env : RunnerEnv) (request : PreVlmGateRequest) (r : Evaluation) : Prop where
  bounded : r.calls ≤ 1 + env.schemaRegenerateMaxAttempts
  decided : ∀ bundle, r.outcome = .ok bundle →
    r.logs = [logRow env request (.succeeded bundle)] ∧
    (request.profile.enabled = true → DecidedBy env request r.calls bundle)
  failed : ∀ f, r.outcome = .error f → (r.logs = [] ∧ f.attempts = []) ∨
    (RefusedBy env request r.calls f ∧ r.logs = failureRow env request f)

theorem Accounted.unlogged {calls : ℕ} {e : Raised}
    (h : calls ≤ 1 + env.schemaRegenerateMaxAttempts) :
    Accounted env request ⟨calls, [], .error ⟨e, []⟩⟩ where
  bounded := h
  decided := by rintro _ ⟨⟩
  failed := by
    rintro _ ⟨⟩
    exact Or.inl ⟨rfl, rfl⟩

theorem Accounted.logged {calls : ℕ} {result : LogResult}
    {outcome : Except Failure GateDecisionBundle}
    (h : Accounted env request ⟨calls, [logRow env request result], outcome⟩) :
    Accounted env request (logged env request calls result outcome) := by
  rcases logged_cases env request calls result outcome with hlog | ⟨e, hlog⟩
  · rw [hlog]
    exact h
  · rw [hlog]
    exact .unlogged h.bounded

/-- An evaluation behind an enabled profile, by how its calls end. -/
inductive Evaluates (env : RunnerEnv) (request : PreVlmGateRequest) : Evaluation → Prop
  | unasked {e : Raised} (h : batchRequest env request = .error e) :
      Evaluates env request ⟨0, [], .error ⟨e, []⟩⟩
  | decided {calls : ℕ} {bundle : GateDecisionBundle}
      (hle : calls ≤ 1 + env.schemaRegenerateMaxAttempts)
      (h : DecidedBy env request calls bundle) :
      Evaluates env request (logged env request calls (.succeeded bundle) (.ok bundle))
  | refused {calls : ℕ} {e : SchemaError} {attempts : List DetectionAttempt}
      (h : RefusedBy env request calls ⟨.schema e, attempts⟩) :
      Evaluates env request (logged env request calls
        (.failed schemaErrorType (clip 500 e.message) e.rawResponse e.parsedPayload e.stage attempts)
        (.error ⟨.schema e, attempts⟩))
  | raised {calls : ℕ} {e : Raised} (hle : calls ≤ 1 + env.schemaRegenerateMaxAttempts) :
      Evaluates env request ⟨calls, [], .error ⟨e, []⟩⟩

theorem evaluates_of_enabled (env : RunnerEnv) (henabled : request.profile.enabled = true) :
    Evaluates env request (evaluate env request) := by
  unfold evaluate
  rw [henabled, if_neg Bool.noConfusion]
  cases hod : batchRequest env request with
  | error e => exact .unasked hod
  | ok od =>
      obtain ⟨n, told, hle, htold, hcalls, hend⟩ := detections_settle env od
      dsimp only
      rcases hdetect : detectWithSchemaRetry env od with ⟨calls, detected⟩
      rw [hdetect] at hcalls hend
      dsimp only at hcalls hend
      subst hcalls
      have hbound : n + 1 ≤ 1 + env.schemaRegenerateMaxAttempts := by omega
      cases hend with
      | found hcall => exact .decided hbound ⟨od, n, told, _, hod, htold, rfl, hcall, rfl⟩
      | refused hcall hlast =>
          have hcalls : n + 1 = 1 + env.schemaRegenerateMaxAttempts := by omega
          exact .refused ⟨od, _, hod, rfl, hcalls, htold.snoc env hcall, hcall⟩
      | raised hcall hother => exact .raised hbound

theorem Evaluates.decidedBy {r : Evaluation} {bundle : GateDecisionBundle}
    (h : Evaluates env request r) (hok : r.outcome = .ok bundle) :
    DecidedBy env request r.calls bundle := by
  cases h with
  | unasked _ => cases hok
  | decided _ hdecided =>
      have hlog := logged_ok hok
      rw [hlog] at hok ⊢
      obtain rfl := Except.ok.inj hok
      exact hdecided
  | refused _ =>
      rw [logged_ok hok] at hok
      cases hok
  | raised _ => cases hok

/-- Whatever the disk, the detector, the clock and the log do. -/
theorem accounted_evaluate (env : RunnerEnv) (request : PreVlmGateRequest) :
    Accounted env request (evaluate env request) := by
  by_cases henabled : request.profile.enabled = true
  · have hends := evaluates_of_enabled env henabled
    generalize evaluate env request = r at hends ⊢
    cases hends with
    | unasked _ => exact .unlogged (Nat.zero_le _)
    | decided hle h =>
        refine Accounted.logged ⟨hle, ?_, ?_⟩
        · rintro _ ⟨⟩
          exact ⟨rfl, fun _ => h⟩
        · rintro _ ⟨⟩
    | refused h =>
        have ⟨_, _, _, _, hcalls, _⟩ := h
        refine Accounted.logged ⟨hcalls.le, ?_, ?_⟩
        · rintro _ ⟨⟩
        · rintro _ ⟨⟩
          exact Or.inr ⟨h, rfl⟩
    | raised hle => exact .unlogged hle
  · unfold evaluate
    rw [if_pos (Bool.not_eq_true _ ▸ henabled)]
    refine Accounted.logged ⟨Nat.zero_le _, ?_, ?_⟩
    · rintro _ ⟨⟩
      exact ⟨rfl, fun h => absurd h henabled⟩
    · rintro _ ⟨⟩

/-! ## Google Vision behind it -/

/-- The runner with the adapter of Google Vision, whose call `n` is answered by `post n`. -/
def withVision (env : RunnerEnv) (T : Texts) (modelId : String)
    (post : ℕ → List VendorRequest → Reply) : RunnerEnv :=
  { env with detect := fun n od => detectObjects T modelId (post n) od }

/-- The share of the frames whose response shows what the rule asks for. -/
def shownShare (T : Texts) (responses : List Payload) (frames : ℕ) (rule : GateRule) : ℚ :=
  if rule.signalType = .objectDetection then
    (responses.countP fun response =>
      decide (Shows T rule.label rule.minConfidence response) : ℕ) / (frames : ℚ)
  else 0

variable {od : BatchRequest} {result : BatchResult}

theorem length_images (h : batchRequest env request = .ok od) :
    od.images.length = request.frames.length := by
  obtain ⟨images, himages, h⟩ := Checked.bind_eq_ok.mp h
  obtain ⟨options, _, h⟩ := Checked.bind_eq_ok.mp h
  split at h
  · cases h
  · obtain rfl := Except.ok.inj h
    have hlength := (Checked.mapM_eq_ok.mp himages).length_eq
    rw [List.length_zipIdx] at hlength
    exact hlength.symm

theorem checkedCall_eq_ok {n : ℕ} (h : checkedCall env od n = .ok result) :
    env.detect n od = .ok result ∧ result.results.length = od.images.length := by
  unfold checkedCall at h
  cases hdetect : env.detect n od with
  | error e =>
      rw [hdetect] at h
      cases h
  | ok found =>
      rw [hdetect] at h
      dsimp only at h
      split at h
      · cases h
      · rename_i hlength
        obtain rfl := Except.ok.inj h
        exact ⟨rfl, not_ne_iff.mp hlength⟩

theorem positiveFrame_evidenceRow (request : PreVlmGateRequest) (rule : GateRule) (r : ImageResult) :
    decide (PositiveFrame rule ((evidenceRow request r).detections.map fun d =>
      ⟨d.label, d.confidence⟩)) = r.detections.any fun d =>
        decide (d.label = rule.label) && decide (rule.minConfidence ≤ d.confidence) := by
  rw [Bool.eq_iff_iff, decide_eq_true_eq, List.any_eq_true]
  unfold PositiveFrame evidenceRow
  simp only [List.map_map, List.mem_map, Function.comp_apply, exists_exists_and_eq_and,
    Bool.and_eq_true, decide_eq_true_eq]

/-- The share a rule reads off the signal, by the detections of the images. -/
theorem shareOf_signal (request : PreVlmGateRequest) (result : BatchResult) (rule : GateRule) :
    shareOf [(objectDetectionSignal request result).toGateSignal] rule
      = if rule.signalType = .objectDetection then
          (result.results.countP fun r => r.detections.any fun d =>
            decide (d.label = rule.label) && decide (rule.minConfidence ≤ d.confidence) : ℕ)
            / (result.results.length : ℚ)
        else 0 := by
  unfold shareOf framesOf frameCountOf
  by_cases hty : rule.signalType = .objectDetection
  · rw [if_pos hty, hty]
    simp only [DetectionSignal.toGateSignal, objectDetectionSignal, List.filter_cons, decide_true,
      if_true, List.filter_nil, List.flatMap_cons, List.flatMap_nil, List.append_nil, List.map_cons,
      List.map_nil, List.sum_cons, List.sum_nil, Nat.add_zero, List.countP_map, Function.comp_def,
      positiveFrame_evidenceRow]
  · have hother : ¬ GateSignalType.objectDetection = rule.signalType := fun h => hty h.symm
    rw [if_neg hty]
    simp [DetectionSignal.toGateSignal, hother]

/-- The decision on a result of Google Vision. -/
theorem triggered_bundleOf {T : Texts} {modelId : String} {post : List VendorRequest → Reply}
    (hdetect : detectObjects T modelId post od = .ok result)
    (hlength : result.results.length = request.frames.length) :
    (bundleOf request (objectDetectionSignal request result)).decision.triggeredVlm = true ↔
      ForcedReason (some request.profile) request.triggerContext ∨
        ∃ rule ∈ request.profile.rules, rule.action = .callVlm ∧ rule.minPositiveFrameRatio
          ≤ shownShare T (responsesOf T post od) request.frames.length rule := by
  have hshare : ∀ rule, shareOf [(objectDetectionSignal request result).toGateSignal] rule
      = shownShare T (responsesOf T post od) request.frames.length rule := by
    intro rule
    rw [shareOf_signal, positive_iff_shows hdetect, hlength]
    rfl
  unfold bundleOf
  rw [triggered_iff]
  unfold Reached
  simp only [hshare]

/-- The decision is the one of `GateWindow.evaluate`, for a detection without a fault. -/
theorem gateWindow_of_ok {bundle : GateDecisionBundle} (henabled : request.profile.enabled = true)
    (hok : (evaluate env request).outcome = .ok bundle) :
    ∃ frames : List FrameEvidence, frames.length = request.frames.length ∧
      ∀ detectFrames, GateWindow.evaluate ⟨.ok frames, none, detectFrames⟩ request.profile
        request.triggerContext = .ok bundle.decision := by
  obtain ⟨od, _, _, result, hod, _, _, hcall, rfl⟩ :=
    (evaluates_of_enabled env henabled).decidedBy hok
  refine ⟨(objectDetectionSignal request result).toGateSignal.frameEvidence, ?_, fun _ => ?_⟩
  · have hlength := (checkedCall_eq_ok hcall).2.trans (length_images hod)
    simpa [DetectionSignal.toGateSignal, objectDetectionSignal] using hlength
  · unfold GateWindow.evaluate bundleOf
    simp [henabled, DetectionSignal.toGateSignal, objectDetectionSignal]

/-- What the call that decided was answered is what decides. -/
theorem sent_iff_shown (env : RunnerEnv) (T : Texts) (modelId : String)
    (post : ℕ → List VendorRequest → Reply) (request : PreVlmGateRequest)
    (bundle : GateDecisionBundle) (henabled : request.profile.enabled = true)
    (hok : (evaluate (withVision env T modelId post) request).outcome = .ok bundle) :
    ∃ od n told, batchRequest env request = .ok od ∧
      FailedFirst (withVision env T modelId post) od n told ∧
      (evaluate (withVision env T modelId post) request).calls = n + 1 ∧
      (bundle.decision.triggeredVlm = true ↔
        ForcedReason (some request.profile) request.triggerContext ∨
          ∃ rule ∈ request.profile.rules, rule.action = .callVlm ∧ rule.minPositiveFrameRatio
            ≤ shownShare T (responsesOf T (post (n + 1)) od) request.frames.length rule) := by
  obtain ⟨od, n, told, result, hod, htold, hcalls, hcall, hbundle⟩ :=
    (evaluates_of_enabled (withVision env T modelId post) henabled).decidedBy hok
  rw [hcalls] at hcall
  obtain ⟨hdetect, hlength⟩ := checkedCall_eq_ok hcall
  refine ⟨od, n, told, hod, htold, hcalls, ?_⟩
  rw [hbundle]
  exact triggered_bundleOf hdetect (hlength.trans (length_images hod))

/-- The profile of a unit that is looked at before it is sent, with `personRule`. -/
def personProfile : GateProfile :=
  ⟨"people", true, .defaultSegment, .publishGateOnlyRecord, [personRule (1 / 2)], []⟩

def oneFrame : PreVlmGateRequest where
  requestId := "pgate_req_1"
  subject := ⟨"pgate_1", "job_1", "task_1", "unit_1", "video_1", .defaultSegment, "segment", 0, 4000⟩
  provider := "google_vision"
  modelId := none
  profile := personProfile
  frames := [⟨"frames/f0.jpg".toList, some 0, 0, none, none, none, none⟩]
  triggerContext := none

/-- A runner that logs, on a disk on which `bytes` are in every file. -/
def quietRunner (bytes : Option (List UInt8)) : RunnerEnv where
  files := fun _ => bytes
  detect := fun _ _ => .error .type
  maxResults := some 10
  minConfidence := none
  schemaRegenerateMaxAttempts := 1
  modelDump := fun _ => .null
  dumps := fun _ => "null"
  writeLog := some fun _ => none
  started := 0
  finished := 250000

/-- It asks Google Vision, which sees a person. -/
def visionRunner (bytes : Option (List UInt8)) : RunnerEnv :=
  withVision (quietRunner bytes) personTexts "vision" fun _ => personReply

/-- The vendor sees a person in the only frame. -/
theorem sent_iff_shown_person :
    ∃ bundle, (evaluate (visionRunner (some [255, 216])) oneFrame).outcome = .ok bundle ∧
      ∃ od n told, batchRequest (quietRunner (some [255, 216])) oneFrame = .ok od ∧
        FailedFirst (visionRunner (some [255, 216])) od n told ∧
        (evaluate (visionRunner (some [255, 216])) oneFrame).calls = n + 1 ∧
        (bundle.decision.triggeredVlm = true ↔
          ForcedReason (some oneFrame.profile) oneFrame.triggerContext ∨
            ∃ rule ∈ oneFrame.profile.rules, rule.action = .callVlm ∧ rule.minPositiveFrameRatio
              ≤ shownShare personTexts (responsesOf personTexts personReply od)
                oneFrame.frames.length rule) := by
  have hsent : (evaluate (visionRunner (some [255, 216])) oneFrame).outcome.isOk = true := by
    decide +kernel
  cases hok : (evaluate (visionRunner (some [255, 216])) oneFrame).outcome with
  | ok bundle =>
      exact ⟨bundle, rfl, sent_iff_shown (quietRunner (some [255, 216])) personTexts "vision"
        (fun _ => personReply) oneFrame bundle rfl hok⟩
  | error f =>
      rw [hok] at hsent
      cases hsent

/-! ## Outages -/

theorem notFile_asks (request : PreVlmGateRequest) {frame : GateFrameInput}
    (h : batchRequest env request = .ok od) (hframe : frame ∈ request.frames)
    (hfile : env.files frame.uri = none) :
    ∃ image ∈ od.images, ∃ ref, image.content = .artifactRef ref := by
  obtain ⟨images, himages, h⟩ := Checked.bind_eq_ok.mp h
  obtain ⟨options, _, h⟩ := Checked.bind_eq_ok.mp h
  split at h
  · cases h
  · obtain rfl := Except.ok.inj h
    obtain ⟨i, hi, rfl⟩ := List.mem_iff_getElem.mp hframe
    have hmem : (request.frames[i], i) ∈ request.frames.zipIdx :=
      List.mem_zipIdx_iff_getElem?.mpr (List.getElem?_eq_getElem hi)
    obtain ⟨image, himage, hinput⟩ := Checked.exists_result_of_mem himages hmem
    refine ⟨image, himage, ?_⟩
    unfold imageInput at hinput
    dsimp only at hinput
    rw [hfile] at hinput
    dsimp only at hinput
    split at hinput
    · cases hinput
    · obtain rfl := Except.ok.inj hinput
      exact ⟨_, rfl⟩

theorem toVendorRequest_of_artifactRef {image : ImageInput} {ref : String}
    (himage : image ∈ od.images) (hcontent : image.content = .artifactRef ref) :
    ∃ message, toVendorRequest od = .error message := by
  cases hvendor : toVendorRequest od with
  | error message => exact ⟨message, rfl⟩
  | ok vendor =>
      obtain ⟨v, _, hv⟩ := Checked.exists_result_of_mem hvendor himage
      rw [hcontent] at hv
      cases hv

/-- The vendor cannot be asked, or does not answer with JSON. -/
def Outage (env : RunnerEnv) (T : Texts) (post : List VendorRequest → Reply) (od : BatchRequest)
    (request : PreVlmGateRequest) : Prop :=
  (∃ frame ∈ request.frames, env.files frame.uri = none) ∨ ∃ e, answered T post od = .error e

theorem Outage.answered {T : Texts} {post : List VendorRequest → Reply}
    (h : Outage env T post od request) (hod : batchRequest env request = .ok od) :
    ∃ e, answered T post od = .error e := by
  rcases h with ⟨frame, hframe, hfile⟩ | h
  · obtain ⟨image, himage, ref, hcontent⟩ := notFile_asks request hod hframe hfile
    obtain ⟨message, hvendor⟩ := toVendorRequest_of_artifactRef himage hcontent
    refine ⟨.other message, ?_⟩
    unfold ObjectDetection.answered
    rw [hvendor]
  · exact h

end CctvMemory.Worker.GateRunner
