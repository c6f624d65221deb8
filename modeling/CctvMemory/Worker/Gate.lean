import CctvMemory.Worker.Plan
import CctvMemory.Worker.UnitSpec
import Mathlib.Algebra.Order.Ring.Rat

/-!
# The gate before the VLM

`domain/policies/pre_vlm_gate.py`, the gate runner and the gate arguments of
the four places that build a processor: `_run_default_segment` and
`_run_high_freq_event` on the sequential path, `_build_default_processor` and
`_build_high_freq_processor` on the cross-scale path. Ratios and confidences
are exact rationals; hashes, summaries and provider names are left out, no
decision reads them.

A window is sent to the VLM when the gates of its unit let it through
(`SentToVlm`, on the program of the unit).

* `sameGate_iff`: when both paths send the same windows.
* `gates_differ`: a window the detector gate suppresses, and a forced trigger.
-/

namespace CctvMemory.Worker

/-! ## Contracts -/

inductive GateSignalType where
  | objectDetection
  | motion
  | quality
  | custom
deriving DecidableEq, Repr

inductive GateRuleAction where
  | callVlm
  | suppressVlm
deriving DecidableEq, Repr

inductive GateSuppressionPolicy where
  | publishGateOnlyRecord
  | skipWithoutRecord
deriving DecidableEq, Repr

inductive GateDecisionAction where
  | callVlm
  | suppressVlm
  | disabled
  | forceVlm
deriving DecidableEq, Repr

structure GateRule where
  ruleId : Option String
  signalType : GateSignalType
  label : String
  minPositiveFrameRatio : ℚ
  minConfidence : ℚ
  action : GateRuleAction
deriving DecidableEq

structure GateProfile where
  profileName : String
  enabled : Bool
  analysisScale : AnalysisScale
  suppressionPolicy : GateSuppressionPolicy
  rules : List GateRule
  forceVlmOnTriggerReasons : List String
deriving DecidableEq

structure Detection where
  label : String
  confidence : ℚ
deriving DecidableEq

/-- The evidence of a frame, as far as a rule reads it. -/
abbrev FrameEvidence := List Detection

structure GateSignal where
  signalType : GateSignalType
  frameCount : ℕ
  frameEvidence : List FrameEvidence
deriving DecidableEq

structure PreVlmGateDecision where
  triggeredVlm : Bool
  action : GateDecisionAction
  matchedRules : List GateRule
  positiveFrameRatioByLabel : List (String × ℚ)
  reason : String
  suppressionPolicy : GateSuppressionPolicy
deriving DecidableEq

/-- What a trigger hands to the gate. -/
structure TriggerContext where
  triggerId : String
  triggerReason : String
deriving DecidableEq

/-! ## The decision -/

def detectionMatches (d : Detection) (rule : GateRule) : Bool :=
  decide (d.label = rule.label) && decide (rule.minConfidence ≤ d.confidence)

def positiveFrameRatio (signals : List GateSignal) (rule : GateRule) : ℚ :=
  let mine := signals.filter fun s => decide (s.signalType = rule.signalType)
  let frameCount := (mine.map GateSignal.frameCount).sum
  let positiveFrames := (mine.map fun s =>
    s.frameEvidence.countP fun frame => frame.any fun d => detectionMatches d rule).sum
  if frameCount = 0 then 0 else (positiveFrames : ℚ) / (frameCount : ℚ)

def matchedRules (signals : List GateSignal) (rules : List GateRule) : List GateRule :=
  rules.filter fun rule => decide (rule.action = .callVlm) &&
    decide (rule.minPositiveFrameRatio ≤ positiveFrameRatio signals rule)

/-- `str(context.get("trigger_reason", ""))`. -/
def triggerReasonOf (context : Option TriggerContext) : String :=
  (context.map TriggerContext.triggerReason).getD ""

def forced (profile : Option GateProfile) (context : Option TriggerContext) : Bool :=
  decide (triggerReasonOf context ≠ "") &&
    decide (triggerReasonOf context
      ∈ (profile.map GateProfile.forceVlmOnTriggerReasons).getD [])

def decidePreVlmGate (signals : List GateSignal) (rules : List GateRule)
    (suppressionPolicy : GateSuppressionPolicy) (context : Option TriggerContext)
    (profile : Option GateProfile) : PreVlmGateDecision :=
  let ratios := rules.map fun rule => (rule.label, positiveFrameRatio signals rule)
  let found := matchedRules signals rules
  if forced profile context = true then
    ⟨true, .forceVlm, found, ratios,
      "force_vlm_on_trigger_reason:" ++ triggerReasonOf context, suppressionPolicy⟩
  else if found ≠ [] then
    ⟨true, .callVlm, found, ratios, "matched gate rules", suppressionPolicy⟩
  else ⟨false, .suppressVlm, [], ratios, "no gate rule matched", suppressionPolicy⟩

theorem triggeredVlm_decidePreVlmGate (signals : List GateSignal) (rules : List GateRule)
    (policy : GateSuppressionPolicy) (context : Option TriggerContext)
    (profile : Option GateProfile) :
    (decidePreVlmGate signals rules policy context profile).triggeredVlm = true ↔
      forced profile context = true ∨ matchedRules signals rules ≠ [] := by
  unfold decidePreVlmGate
  dsimp only
  split
  · rename_i hforced
    exact ⟨fun _ => Or.inl hforced, fun _ => rfl⟩
  · rename_i hforced
    split
    · rename_i hfound
      exact ⟨fun _ => Or.inr hfound, fun _ => rfl⟩
    · rename_i hfound
      exact ⟨fun h => (by cases h), fun h => (h.elim hforced hfound).elim⟩

/-! ## Configuration -/

structure PreVlmGateRuleSection where
  ruleId : Option String
  signalType : String
  label : String
  minPositiveFrameRatio : ℚ
  minConfidence : ℚ
  action : String

structure PreVlmGateScaleProfileSection where
  enabled : Bool
  profileName : String
  suppressionPolicy : String
  rules : List PreVlmGateRuleSection
  forceVlmOnTriggerReasons : List String

structure PreVlmGateSection where
  enabled : Bool
  defaultSegment : PreVlmGateScaleProfileSection
  highFreqEvent : PreVlmGateScaleProfileSection

structure DetectorGateRuleSection where
  label : String
  minPositiveFrameRatio : ℚ
  minConfidence : ℚ
  action : String

structure DetectorGateSection where
  enabled : Bool
  rules : List DetectorGateRuleSection

def validationError (field : String) : Exn :=
  ⟨.value, "validation error for " ++ field, false⟩

def GateSignalType.parse (value : String) : Except Exn GateSignalType :=
  if value = "object_detection" then .ok .objectDetection
  else if value = "motion" then .ok .motion
  else if value = "quality" then .ok .quality
  else if value = "custom" then .ok .custom
  else .error (validationError "signal_type")

def GateRuleAction.parse (value : String) : Except Exn GateRuleAction :=
  if value = "call_vlm" then .ok .callVlm
  else if value = "suppress_vlm" then .ok .suppressVlm
  else .error (validationError "action")

def GateSuppressionPolicy.parse (value : String) : Except Exn GateSuppressionPolicy :=
  if value = "publish_gate_only_record" then .ok .publishGateOnlyRecord
  else if value = "skip_without_record" then .ok .skipWithoutRecord
  else .error (validationError "suppression_policy")

def PreVlmGateRuleSection.toRule (r : PreVlmGateRuleSection) : Except Exn GateRule := do
  let signalType ← GateSignalType.parse r.signalType
  let action ← GateRuleAction.parse r.action
  .ok ⟨r.ruleId, signalType, r.label, r.minPositiveFrameRatio, r.minConfidence, action⟩

def DetectorGateRuleSection.toRule (r : DetectorGateRuleSection) : Except Exn GateRule := do
  let action ← GateRuleAction.parse r.action
  .ok ⟨none, .objectDetection, r.label, r.minPositiveFrameRatio, r.minConfidence, action⟩

/-! ## The worker and its processors -/

/-- The gates of a worker: its configuration, and whether a detector gate and a
pre-VLM gate are wired. -/
structure GateWorker where
  detectorGateConfig : DetectorGateSection
  preVlmGateConfig : PreVlmGateSection
  detectorGate : Bool
  preVlmGate : Bool

/-- `_pre_vlm_gate_profile`. -/
def GateWorker.preVlmGateProfile (worker : GateWorker) (scale : AnalysisScale) :
    Except Exn (Option GateProfile) :=
  let cfg := worker.preVlmGateConfig
  let section_ := if scale = .defaultSegment then cfg.defaultSegment else cfg.highFreqEvent
  if cfg.enabled && section_.enabled then do
    let suppressionPolicy ← GateSuppressionPolicy.parse section_.suppressionPolicy
    let rules ← section_.rules.mapM PreVlmGateRuleSection.toRule
    .ok (some ⟨section_.profileName, true, scale, suppressionPolicy, rules,
      section_.forceVlmOnTriggerReasons⟩)
  else .ok none

/-- The gate arguments of a processor; an omitted one has its default. -/
structure GateArgs where
  detectorGate : Bool := false
  detectorGateEnabled : Bool := false
  detectorGateRules : List DetectorGateRuleSection := []
  preVlmGate : Bool
  preVlmGateProfile : Option GateProfile

/-- `_run_default_segment`, which passes no `detector_gate`. -/
def GateWorker.runDefaultSegment (worker : GateWorker) : Except Exn GateArgs := do
  let profile ← worker.preVlmGateProfile .defaultSegment
  .ok {
    detectorGateEnabled := worker.detectorGateConfig.enabled
    detectorGateRules := worker.detectorGateConfig.rules
    preVlmGate := worker.preVlmGate
    preVlmGateProfile := profile }

/-- `_build_default_processor`. -/
def GateWorker.buildDefaultProcessor (worker : GateWorker) : Except Exn GateArgs := do
  let profile ← worker.preVlmGateProfile .defaultSegment
  .ok {
    detectorGate := worker.detectorGate
    detectorGateEnabled := worker.detectorGateConfig.enabled
    detectorGateRules := worker.detectorGateConfig.rules
    preVlmGate := worker.preVlmGate
    preVlmGateProfile := profile }

/-- `_run_high_freq_event`. -/
def GateWorker.runHighFreqEvent (worker : GateWorker) : Except Exn GateArgs := do
  let profile ← worker.preVlmGateProfile .highFreqEvent
  .ok {
    preVlmGate := worker.preVlmGate
    preVlmGateProfile := profile }

/-- `_build_high_freq_processor`. -/
def GateWorker.buildHighFreqProcessor (worker : GateWorker) : Except Exn GateArgs := do
  let profile ← worker.preVlmGateProfile .highFreqEvent
  .ok {
    preVlmGate := worker.preVlmGate
    preVlmGateProfile := profile }

/-- `process` runs the units of a trigger without a trigger context. -/
def processContext (_ : TriggerRow) : Option TriggerContext := none

/-- The `trigger_data` that `plan_units` binds to the units of a trigger. -/
def planUnitsContext (t : TriggerRow) : Option TriggerContext :=
  some ⟨t.triggerId, t.triggerReason⟩

/-! ## One window -/

/-- What the detectors and the gate log answer for a window. -/
structure GateWindow where
  objectDetection : Except Exn (List FrameEvidence)
  gateLogFault : Option Exn
  detectFrames : Except Exn (List FrameEvidence)

def disabledDecision (policy : GateSuppressionPolicy) : PreVlmGateDecision :=
  ⟨true, .disabled, [], [], "pre_vlm_gate disabled", policy⟩

/-- `PreVlmGateRunner.evaluate`: a decision and a schema failure are logged. -/
def GateWindow.evaluate (win : GateWindow) (profile : GateProfile)
    (context : Option TriggerContext) : Except Exn PreVlmGateDecision :=
  let logged (r : Except Exn PreVlmGateDecision) : Except Exn PreVlmGateDecision :=
    match win.gateLogFault with
    | some e => .error e
    | none => r
  if profile.enabled = false then logged (.ok (disabledDecision profile.suppressionPolicy))
  else match win.objectDetection with
    | .error e =>
        if e.cls = .objectDetectionSchemaValidation then logged (.error e) else .error e
    | .ok frames =>
        logged (.ok (decidePreVlmGate [⟨.objectDetection, frames.length, frames⟩]
          profile.rules profile.suppressionPolicy context (some profile)))

/-- `run_pre_vlm_gate`: the decision, where a gate and an enabled profile are set. -/
def GateArgs.runPreVlmGate (args : GateArgs) (win : GateWindow)
    (context : Option TriggerContext) : Except Exn (Option PreVlmGateDecision) :=
  match args.preVlmGate, args.preVlmGateProfile with
  | true, some profile =>
      if profile.enabled = true then (win.evaluate profile context).map some else .ok none
  | _, _ => .ok none

/-- `decide_detector_gate`. -/
def decideDetectorGate (results : List FrameEvidence) (rules : List DetectorGateRuleSection) :
    Except Exn PreVlmGateDecision := do
  let gateRules ← rules.mapM DetectorGateRuleSection.toRule
  .ok (decidePreVlmGate [⟨.objectDetection, results.length, results⟩] gateRules
    .publishGateOnlyRecord none none)

/-- The body of the `detector_gate` span. -/
def GateArgs.runDetectorGate (args : GateArgs) (win : GateWindow) :
    Except Exn PreVlmGateDecision := do
  let results ← win.detectFrames
  decideDetectorGate results args.detectorGateRules

def errorOf {α : Type} : Except Exn α → Option Exn
  | .ok _ => none
  | .error e => some e

/-- The unit meets the gates of `args`, and `base` in everything else. -/
def gateEnv (base : UnitEnv) (args : GateArgs) (win : GateWindow)
    (context : Option TriggerContext) : UnitEnv :=
  { base with
    preVlmGate := match args.runPreVlmGate win context with
      | .ok decision => decision.map PreVlmGateDecision.triggeredVlm
      | .error _ => none
    detectorGate :=
      if args.detectorGateEnabled && args.detectorGate then
        match args.runDetectorGate win with
        | .ok decision => some decision.triggeredVlm
        | .error _ => some false
      else none
    raises := fun s => match s with
      | .preVlmGate => errorOf (args.runPreVlmGate win context)
      | .detectorGate .body => errorOf (args.runDetectorGate win)
      | s => base.raises s }

/-- The gates of the unit let the window through to the VLM. -/
def SentToVlm (p : UnitProcessor) (env : UnitEnv) (row : Option UnitRow) : Prop :=
  ∃ row', Act.exec (p.gates env) row = (.ok none, row')

/-- The window is sent by a processor built with `args`, if it could be built. -/
def SentBy (args : Except Exn GateArgs) (p : UnitProcessor) (base : UnitEnv) (win : GateWindow)
    (context : Option TriggerContext) (row : Option UnitRow) : Prop :=
  ∃ a, args = .ok a ∧ SentToVlm p (gateEnv base a win context) row

/-- A window on the sequential path. -/
def SentSequential (worker : GateWorker) (base : UnitEnv) (win : GateWindow) (t : TriggerRow)
    (row : Option UnitRow) : UnitProcessor → Prop
  | .defaultSegment => SentBy worker.runDefaultSegment .defaultSegment base win none row
  | .highFreqEvent =>
      SentBy worker.runHighFreqEvent .highFreqEvent base win (processContext t) row

/-- A window on the cross-scale path. -/
def SentCrossScale (worker : GateWorker) (base : UnitEnv) (win : GateWindow) (t : TriggerRow)
    (row : Option UnitRow) : UnitProcessor → Prop
  | .defaultSegment => SentBy worker.buildDefaultProcessor .defaultSegment base win none row
  | .highFreqEvent =>
      SentBy worker.buildHighFreqProcessor .highFreqEvent base win (planUnitsContext t) row

/-! ## What a gate lets through -/

section Gates

variable {env : UnitEnv} {row : Option UnitRow}

theorem exec_step_none {s : UnitStep} (h : env.raises s = none) :
    Act.exec (step env s) row = (.ok (), row) := by
  unfold step
  rw [h]
  rfl

theorem exec_step_some {s : UnitStep} {e : Exn} (h : env.raises s = some e) :
    Act.exec (step env s) row = (.error e, row) := by
  unfold step
  rw [h]
  rfl

theorem exec_runPreVlmGate_none (h : env.raises .preVlmGate = none) :
    Act.exec (runPreVlmGate env) row = (.ok (.inr env.preVlmGate), row) := by
  unfold runPreVlmGate
  rw [Act.exec_tryCatch, Act.exec_bind_ok (exec_step_none h)]
  rfl

/-- A gate that raises ends the unit, one way or the other. -/
theorem exec_runPreVlmGate_some {e : Exn} (h : env.raises .preVlmGate = some e)
    (v : Option Bool) (row' : Option UnitRow) :
    Act.exec (runPreVlmGate env) row ≠ (.ok (.inr v), row') := by
  unfold runPreVlmGate
  rw [Act.exec_tryCatch, Act.exec_bind_error (exec_step_some h)]
  dsimp only
  split
  · rw [Act.exec_bind]
    split
    · intro heq
      cases heq
    · intro heq
      cases heq
  · intro heq
    cases heq

/-- A unit gets past its first gate only where that gate does not raise. -/
theorem raises_none_of_gates {gates : UnitOutcome ⊕ Option Bool → UnitAct (Option UnitOutcome)}
    {row' : Option UnitRow} (hgates : ∀ o, gates (.inl o) = pure (some o))
    (h : Act.exec (runPreVlmGate env >>= gates) row = (.ok none, row')) :
    env.raises .preVlmGate = none := by
  cases hraise : env.raises .preVlmGate with
  | none => rfl
  | some e =>
      obtain ⟨v, row₁, hgate, hexec⟩ := Act.exec_bind_eq_ok.mp h
      cases v with
      | inl o =>
          rw [hgates] at hexec
          cases hexec
      | inr v => exact absurd hgate (exec_runPreVlmGate_some hraise v row₁)

/-- A suppressed unit of `high_freq_event` never reaches the VLM. -/
theorem exec_suppressed_ne {row' : Option UnitRow} :
    Act.exec (do
      terminalizeUnitSkipped env .gateSkipped .preVlmGateSuppressed
      step env .suppressedAfterSkip
      pure (some UnitOutcome.skipped)) row ≠ (.ok none, row') := by
  intro hexec
  obtain ⟨_, _, _, hexec⟩ := Act.exec_bind_eq_ok.mp hexec
  obtain ⟨_, _, _, hexec⟩ := Act.exec_bind_eq_ok.mp hexec
  cases hexec

theorem sentToVlm_highFreqEvent : SentToVlm .highFreqEvent env row ↔
    env.raises .preVlmGate = none ∧ env.preVlmGate ≠ some false := by
  unfold SentToVlm UnitProcessor.gates highFreqEventGates
  dsimp only
  cases hraise : env.raises .preVlmGate with
  | some e =>
      refine ⟨?_, fun h => by cases h.1⟩
      rintro ⟨row', hexec⟩
      cases hraise.symm.trans (raises_none_of_gates (fun _ => rfl) hexec)
  | none =>
      rw [Act.exec_bind_ok (exec_runPreVlmGate_none hraise)]
      cases hgate : env.preVlmGate with
      | none => exact ⟨fun _ => ⟨rfl, by simp⟩, fun _ => ⟨row, rfl⟩⟩
      | some b =>
          cases b with
          | true => exact ⟨fun _ => ⟨rfl, by simp⟩, fun _ => ⟨row, rfl⟩⟩
          | false =>
              refine ⟨?_, fun h => absurd rfl h.2⟩
              rintro ⟨row', hexec⟩
              exact absurd hexec exec_suppressed_ne

theorem exec_span_ok {place : SpanStep → UnitStep}
    (h : ∀ s, s ≠ .fail → env.raises (place s) = none) :
    Act.exec (span env place) row = (.ok (), row) := by
  have hbody : Act.exec (tryCatch (step env (place .body)) fun e => do
      step env (place .fail)
      throw e) row = (.ok (), row) := by
    rw [Act.exec_tryCatch, exec_step_none (h .body (by simp))]
  unfold span
  rw [Act.exec_bind_ok (exec_step_none (h .start (by simp))), Act.exec_bind_ok hbody]
  exact exec_step_none (h .finish (by simp))

theorem exec_span_error {place : SpanStep → UnitStep}
    (h : ¬ ∀ s, s ≠ .fail → env.raises (place s) = none) :
    ∃ e, Act.exec (span env place) row = (.error e, row) := by
  unfold span
  cases hstart : env.raises (place .start) with
  | some e => exact ⟨e, Act.exec_bind_error (exec_step_some hstart)⟩
  | none =>
      rw [Act.exec_bind_ok (exec_step_none hstart)]
      cases hbody : env.raises (place .body) with
      | some e =>
          have hcatch : ∃ e', Act.exec (tryCatch (step env (place .body)) fun e => do
              step env (place .fail)
              throw e) row = (.error e', row) := by
            rw [Act.exec_tryCatch, exec_step_some hbody]
            cases hfail : env.raises (place .fail) with
            | some e' => exact ⟨e', Act.exec_bind_error (exec_step_some hfail)⟩
            | none => exact ⟨e, Act.exec_bind_ok (exec_step_none hfail)⟩
          obtain ⟨e', he'⟩ := hcatch
          exact ⟨e', Act.exec_bind_error he'⟩
      | none =>
          have hcatch : Act.exec (tryCatch (step env (place .body)) fun e => do
              step env (place .fail)
              throw e) row = (.ok (), row) := by
            rw [Act.exec_tryCatch, exec_step_none hbody]
          rw [Act.exec_bind_ok hcatch]
          cases hfinish : env.raises (place .finish) with
          | some e => exact ⟨e, exec_step_some hfinish⟩
          | none =>
              refine absurd (fun s hs => ?_) h
              cases s with
              | start => exact hstart
              | body => exact hbody
              | fail => exact absurd rfl hs
              | finish => exact hfinish

theorem exec_detectorOnly_ne {first : UnitStep} {row' : Option UnitRow} :
    Act.exec (do
      step env first
      let o ← publishDetectorOnlyUnit env
      pure (some o)) row ≠ (.ok none, row') := by
  intro hexec
  obtain ⟨_, _, _, hexec⟩ := Act.exec_bind_eq_ok.mp hexec
  obtain ⟨_, _, _, hexec⟩ := Act.exec_bind_eq_ok.mp hexec
  cases hexec

/-- The steps of the detector gate all work. -/
structure DetectorGateRuns (env : UnitEnv) : Prop where
  frameInputs : env.raises .detectorFrameInputs = none
  span : ∀ s, s ≠ .fail → env.raises (.detectorGate s) = none
  gateLog : env.faultOf .gateLog = none

theorem exec_detectorGate_iff {triggered : Bool} :
    (∃ row', Act.exec (do
      step env .detectorFrameInputs
      span env .detectorGate
      dbWriteUnit env .gateLog id [.gateLog]
      if triggered then pure none
      else do
        step env .detectorGateSuppressed
        let o ← publishDetectorOnlyUnit env
        pure (some o)) row = (.ok (none : Option UnitOutcome), row')) ↔
      triggered = true ∧ DetectorGateRuns env := by
  constructor
  · rintro ⟨row', hexec⟩
    obtain ⟨_, row₁, hinputs, hexec⟩ := Act.exec_bind_eq_ok.mp hexec
    obtain ⟨_, row₂, hspan, hexec⟩ := Act.exec_bind_eq_ok.mp hexec
    obtain ⟨_, row₃, hlog, hexec⟩ := Act.exec_bind_eq_ok.mp hexec
    cases triggered with
    | false => exact absurd hexec exec_detectorOnly_ne
    | true =>
        refine ⟨rfl, ?_, ?_, ?_⟩
        · cases h : env.raises .detectorFrameInputs with
          | none => rfl
          | some e =>
              rw [exec_step_some h] at hinputs
              cases hinputs
        · by_contra h
          obtain ⟨e, he⟩ := @exec_span_error env row₁ _ h
          rw [he] at hspan
          cases hspan
        · rw [exec_dbWriteUnit] at hlog
          cases h : env.faultOf .gateLog with
          | none => rfl
          | some e =>
              rw [h] at hlog
              cases hlog
  · rintro ⟨rfl, hruns⟩
    refine ⟨row, ?_⟩
    rw [Act.exec_bind_ok (exec_step_none hruns.frameInputs),
      Act.exec_bind_ok (exec_span_ok hruns.span), Act.exec_bind, exec_dbWriteUnit,
      hruns.gateLog]
    cases row <;> rfl

theorem sentToVlm_defaultSegment : SentToVlm .defaultSegment env row ↔
    env.raises .preVlmGate = none ∧ (env.preVlmGate = some true ∨
      env.preVlmGate = none ∧ (env.detectorGate = none ∨
        env.detectorGate = some true ∧ DetectorGateRuns env)) := by
  unfold SentToVlm UnitProcessor.gates defaultSegmentGates
  dsimp only
  cases hraise : env.raises .preVlmGate with
  | some e =>
      refine ⟨?_, fun h => by cases h.1⟩
      rintro ⟨row', hexec⟩
      cases hraise.symm.trans (raises_none_of_gates (fun _ => rfl) hexec)
  | none =>
      rw [Act.exec_bind_ok (exec_runPreVlmGate_none hraise)]
      cases hgate : env.preVlmGate with
      | some b =>
          cases b with
          | true => exact ⟨fun _ => ⟨rfl, Or.inl rfl⟩, fun _ => ⟨row, rfl⟩⟩
          | false =>
              constructor
              · rintro ⟨row', hexec⟩
                exact absurd hexec exec_detectorOnly_ne
              · rintro ⟨-, h | ⟨h, -⟩⟩ <;> cases h
      | none =>
          dsimp only
          cases hdetector : env.detectorGate with
          | none => exact ⟨fun _ => ⟨rfl, Or.inr ⟨rfl, Or.inl rfl⟩⟩, fun _ => ⟨row, rfl⟩⟩
          | some triggered =>
              refine exec_detectorGate_iff.trans ?_
              simp

end Gates

/-! ## Both paths -/

section Paths

variable {base : UnitEnv} {win : GateWindow} {row : Option UnitRow}

theorem errorOf_eq_none {α : Type} {x : Except Exn α} : errorOf x = none ↔ ∃ a, x = .ok a := by
  cases x <;> simp [errorOf]

/-- A profile is built enabled, or not at all. -/
theorem enabled_preVlmGateProfile {worker : GateWorker} {scale : AnalysisScale}
    {profile : GateProfile} (h : worker.preVlmGateProfile scale = .ok (some profile)) :
    profile.enabled = true := by
  unfold GateWorker.preVlmGateProfile at h
  dsimp only at h
  generalize (if scale = .defaultSegment then worker.preVlmGateConfig.defaultSegment
    else worker.preVlmGateConfig.highFreqEvent) = section_ at h
  split at h
  · cases hpolicy : GateSuppressionPolicy.parse section_.suppressionPolicy with
    | error e =>
        rw [hpolicy] at h
        cases h
    | ok policy =>
        rw [hpolicy] at h
        cases hrules : section_.rules.mapM PreVlmGateRuleSection.toRule with
        | error e =>
            rw [hrules] at h
            cases h
        | ok rules =>
            rw [hrules] at h
            cases h
            rfl
  · cases h

/-- The detector gate lets the window through to the VLM. -/
structure DetectorGateSends (base : UnitEnv) (win : GateWindow)
    (rules : List DetectorGateRuleSection) : Prop where
  frameInputs : base.raises .detectorFrameInputs = none
  start : base.raises (.detectorGate .start) = none
  finish : base.raises (.detectorGate .finish) = none
  gateLog : base.faultOf .gateLog = none
  found : ∃ results gateRules, win.detectFrames = .ok results ∧
    rules.mapM DetectorGateRuleSection.toRule = .ok gateRules ∧
    matchedRules [⟨.objectDetection, results.length, results⟩] gateRules ≠ []

/-- The pre-VLM gate of a profile lets the window through to the VLM. -/
def ProfileSends (win : GateWindow) (profile : GateProfile) (context : Option TriggerContext) :
    Prop :=
  win.gateLogFault = none ∧ ∃ frames, win.objectDetection = .ok frames ∧
    (forced (some profile) context = true ∨
      matchedRules [⟨.objectDetection, frames.length, frames⟩] profile.rules ≠ [])

theorem evaluate_triggers_iff {profile : GateProfile} {context : Option TriggerContext}
    (hon : profile.enabled = true) :
    (∃ d, win.evaluate profile context = .ok d ∧ d.triggeredVlm = true) ↔
      ProfileSends win profile context := by
  unfold GateWindow.evaluate ProfileSends
  rw [if_neg (by simp [hon])]
  cases hlog : win.gateLogFault with
  | some e =>
      cases hframes : win.objectDetection with
      | error e' =>
          dsimp only
          split <;> simp
      | ok frames => simp
  | none =>
      cases hframes : win.objectDetection with
      | error e' =>
          dsimp only
          split <;> simp
      | ok frames =>
          dsimp only
          simp only [Except.ok.injEq, exists_eq_left', triggeredVlm_decidePreVlmGate, true_and]

theorem decideDetectorGate_triggers_iff {results : List FrameEvidence}
    {rules : List DetectorGateRuleSection} :
    (∃ d, decideDetectorGate results rules = .ok d ∧ d.triggeredVlm = true) ↔
      ∃ gateRules, rules.mapM DetectorGateRuleSection.toRule = .ok gateRules ∧
        matchedRules [⟨.objectDetection, results.length, results⟩] gateRules ≠ [] := by
  unfold decideDetectorGate
  cases hrules : rules.mapM DetectorGateRuleSection.toRule with
  | error e =>
      constructor
      · rintro ⟨d, hd, -⟩
        cases hd
      · rintro ⟨_, h, -⟩
        cases h
  | ok gateRules =>
      constructor
      · rintro ⟨d, hd, htrig⟩
        cases hd
        exact ⟨gateRules, rfl, ((triggeredVlm_decidePreVlmGate ..).mp htrig).resolve_left
          (by simp [forced, triggerReasonOf])⟩
      · rintro ⟨_, h, hfound⟩
        cases h
        exact ⟨_, rfl, (triggeredVlm_decidePreVlmGate ..).mpr (Or.inr hfound)⟩

theorem runDetectorGate_triggers_iff {a : GateArgs} :
    (∃ d, a.runDetectorGate win = .ok d ∧ d.triggeredVlm = true) ↔
      ∃ results gateRules, win.detectFrames = .ok results ∧
        a.detectorGateRules.mapM DetectorGateRuleSection.toRule = .ok gateRules ∧
        matchedRules [⟨.objectDetection, results.length, results⟩] gateRules ≠ [] := by
  unfold GateArgs.runDetectorGate
  cases hframes : win.detectFrames with
  | error e =>
      constructor
      · rintro ⟨d, hd, -⟩
        cases hd
      · rintro ⟨_, _, h, -⟩
        cases h
  | ok results =>
      refine decideDetectorGate_triggers_iff.trans ?_
      simp

theorem detectorGateRuns_gateEnv_iff {a : GateArgs} {context : Option TriggerContext} :
    DetectorGateRuns (gateEnv base a win context) ↔
      base.raises .detectorFrameInputs = none ∧ base.raises (.detectorGate .start) = none ∧
        (∃ d, a.runDetectorGate win = .ok d) ∧ base.raises (.detectorGate .finish) = none ∧
        base.faultOf .gateLog = none := by
  rw [← errorOf_eq_none]
  constructor
  · rintro ⟨hinputs, hspan, hlog⟩
    exact ⟨hinputs, hspan .start (by simp), hspan .body (by simp), hspan .finish (by simp), hlog⟩
  · rintro ⟨hinputs, hstart, hbody, hfinish, hlog⟩
    refine ⟨hinputs, fun s hs => ?_, hlog⟩
    cases s with
    | start => exact hstart
    | body => exact hbody
    | fail => exact absurd rfl hs
    | finish => exact hfinish

/-- The detector gate is off, or lets the window through. -/
theorem detectorGate_gateEnv_iff {a : GateArgs} {context : Option TriggerContext} :
    ((gateEnv base a win context).detectorGate = none ∨
      (gateEnv base a win context).detectorGate = some true ∧
        DetectorGateRuns (gateEnv base a win context)) ↔
      ((a.detectorGateEnabled && a.detectorGate) = false ∨
        DetectorGateSends base win a.detectorGateRules) := by
  have hgate : (gateEnv base a win context).detectorGate
      = if a.detectorGateEnabled && a.detectorGate then
          match a.runDetectorGate win with
          | .ok decision => some decision.triggeredVlm
          | .error _ => some false
        else none := rfl
  rw [detectorGateRuns_gateEnv_iff, hgate]
  cases hon : a.detectorGateEnabled && a.detectorGate with
  | false => simp
  | true =>
      have hfound := @runDetectorGate_triggers_iff win a
      cases hrun : a.runDetectorGate win with
      | error e =>
          rw [hrun] at hfound
          refine ⟨fun h => by simp at h, fun h => ?_⟩
          rcases h with h | ⟨-, -, -, -, h⟩
          · cases h
          · obtain ⟨d, hd, -⟩ := hfound.mpr h
            cases hd
      | ok d =>
          rw [hrun] at hfound
          simp only [Except.ok.injEq, exists_eq_left'] at hfound
          constructor
          · rintro (h | ⟨htrig, hinputs, hstart, -, hfinish, hlog⟩)
            · cases h
            · exact Or.inr ⟨hinputs, hstart, hfinish, hlog, hfound.mp (Option.some.inj htrig)⟩
          · rintro (h | ⟨hinputs, hstart, hfinish, hlog, h⟩)
            · cases h
            · exact Or.inr ⟨congrArg some (hfound.mpr h), hinputs, hstart, ⟨d, rfl⟩, hfinish, hlog⟩

theorem preVlmGate_gateEnv {a : GateArgs} {context : Option TriggerContext}
    {decision : Option PreVlmGateDecision} (h : a.runPreVlmGate win context = .ok decision) :
    (gateEnv base a win context).preVlmGate = decision.map PreVlmGateDecision.triggeredVlm := by
  show (match a.runPreVlmGate win context with | .ok d => _ | .error _ => none) = _
  rw [h]

theorem sent_defaultSegment_iff (a : GateArgs) (context : Option TriggerContext) :
    SentToVlm .defaultSegment (gateEnv base a win context) row ↔
      ∃ decision, a.runPreVlmGate win context = .ok decision ∧
        (decision.map PreVlmGateDecision.triggeredVlm = some true ∨ decision = none ∧
          ((a.detectorGateEnabled && a.detectorGate) = false ∨
            DetectorGateSends base win a.detectorGateRules)) := by
  have hpre : (gateEnv base a win context).raises .preVlmGate
      = errorOf (a.runPreVlmGate win context) := rfl
  rw [sentToVlm_defaultSegment, hpre, errorOf_eq_none]
  cases hrun : a.runPreVlmGate win context with
  | error e => simp
  | ok decision =>
      rw [preVlmGate_gateEnv hrun, detectorGate_gateEnv_iff]
      cases decision <;> simp

theorem sent_highFreqEvent_iff (a : GateArgs) (context : Option TriggerContext) :
    SentToVlm .highFreqEvent (gateEnv base a win context) row ↔
      ∃ decision, a.runPreVlmGate win context = .ok decision ∧
        decision.map PreVlmGateDecision.triggeredVlm ≠ some false := by
  have hpre : (gateEnv base a win context).raises .preVlmGate
      = errorOf (a.runPreVlmGate win context) := rfl
  rw [sentToVlm_highFreqEvent, hpre, errorOf_eq_none]
  cases hrun : a.runPreVlmGate win context with
  | error e => simp
  | ok decision =>
      rw [preVlmGate_gateEnv hrun]
      simp

theorem runPreVlmGate_of_off {a : GateArgs} {context : Option TriggerContext}
    (h : ¬ (a.preVlmGate = true ∧ a.preVlmGateProfile.isSome = true)) :
    a.runPreVlmGate win context = .ok none := by
  unfold GateArgs.runPreVlmGate
  split
  · rename_i profile hgate hprofile
    exact absurd ⟨hgate, by rw [hprofile]; rfl⟩ h
  · rfl

/-- A gate that is set and on decides by itself. -/
theorem runPreVlmGate_of_on {a : GateArgs} {context : Option TriggerContext}
    {profile : GateProfile} (hgate : a.preVlmGate = true)
    (hprofile : a.preVlmGateProfile = some profile) (hon : profile.enabled = true) :
    a.runPreVlmGate win context = (win.evaluate profile context).map some := by
  unfold GateArgs.runPreVlmGate
  rw [hgate, hprofile]
  exact if_pos hon

theorem map_evaluate_iff {profile : GateProfile} {context : Option TriggerContext}
    (hon : profile.enabled = true) (P : Option PreVlmGateDecision → Prop)
    (hP : ∀ d, P (some d) ↔ d.triggeredVlm = true) :
    (∃ decision, (win.evaluate profile context).map some = .ok decision ∧ P decision) ↔
      ProfileSends win profile context := by
  rw [← evaluate_triggers_iff hon]
  cases win.evaluate profile context with
  | error e => simp [Except.map]
  | ok d => simp [Except.map, hP]

theorem profileSends_none {profile : GateProfile} :
    ProfileSends win profile none ↔ win.gateLogFault = none ∧ ∃ frames,
      win.objectDetection = .ok frames ∧
        matchedRules [⟨.objectDetection, frames.length, frames⟩] profile.rules ≠ [] := by
  unfold ProfileSends
  simp [forced, triggerReasonOf]

/-- A default window is let through, or the detector gate has no say in it; a
window of a trigger is not let through for its trigger reason alone. -/
def GateKept (worker : GateWorker) (base : UnitEnv) (win : GateWindow) (t : TriggerRow) :
    UnitProcessor → Prop
  | .defaultSegment => ∀ profile, worker.preVlmGateProfile .defaultSegment = .ok profile →
      (worker.preVlmGate = true ∧ profile.isSome = true) ∨ worker.detectorGate = false ∨
        worker.detectorGateConfig.enabled = false ∨
          DetectorGateSends base win worker.detectorGateConfig.rules
  | .highFreqEvent => ∀ profile, worker.preVlmGateProfile .highFreqEvent = .ok (some profile) →
      worker.preVlmGate = true → forced (some profile) (planUnitsContext t) = true →
        win.gateLogFault = none → ∀ frames, win.objectDetection = .ok frames →
          matchedRules [⟨.objectDetection, frames.length, frames⟩] profile.rules ≠ []

theorem sentBy_ok {a : GateArgs} {p : UnitProcessor} {context : Option TriggerContext} :
    SentBy (.ok a) p base win context row ↔ SentToVlm p (gateEnv base a win context) row := by
  unfold SentBy
  simp

theorem not_sentBy_error {e : Exn} {p : UnitProcessor} {context : Option TriggerContext} :
    ¬ SentBy (.error e) p base win context row := by
  rintro ⟨a, ha, -⟩
  cases ha

theorem sent_of_off {a : GateArgs}
    (hoff : ¬ (a.preVlmGate = true ∧ a.preVlmGateProfile.isSome = true)) :
    SentToVlm .defaultSegment (gateEnv base a win none) row ↔
      (a.detectorGateEnabled && a.detectorGate) = false ∨
        DetectorGateSends base win a.detectorGateRules := by
  rw [sent_defaultSegment_iff, runPreVlmGate_of_off hoff]
  simp

theorem sent_of_on {a : GateArgs} {profile : GateProfile} (hgate : a.preVlmGate = true)
    (hprofile : a.preVlmGateProfile = some profile) (hon : profile.enabled = true) :
    SentToVlm .defaultSegment (gateEnv base a win none) row ↔ ProfileSends win profile none := by
  rw [sent_defaultSegment_iff, runPreVlmGate_of_on hgate hprofile hon]
  refine map_evaluate_iff hon _ fun d => ?_
  simp

theorem sameGate_defaultSegment {worker : GateWorker} {t : TriggerRow} :
    (SentSequential worker base win t row .defaultSegment ↔
      SentCrossScale worker base win t row .defaultSegment) ↔
      GateKept worker base win t .defaultSegment := by
  unfold SentSequential SentCrossScale GateKept GateWorker.runDefaultSegment
    GateWorker.buildDefaultProcessor
  dsimp only
  cases hprofile : worker.preVlmGateProfile .defaultSegment with
  | error e =>
      constructor
      · rintro - profile h
        cases h
      · intro _
        exact iff_of_false not_sentBy_error not_sentBy_error
  | ok profile =>
      refine (iff_congr sentBy_ok sentBy_ok).trans ?_
      by_cases hgate : worker.preVlmGate = true ∧ profile.isSome = true
      · obtain ⟨hset, hsome⟩ := hgate
        obtain ⟨pr, rfl⟩ := Option.isSome_iff_exists.mp hsome
        have hon := enabled_preVlmGateProfile hprofile
        refine iff_of_true ((sent_of_on hset rfl hon).trans (sent_of_on hset rfl hon).symm) ?_
        rintro _ heq
        cases heq
        exact Or.inl ⟨hset, rfl⟩
      · rw [sent_of_off hgate, sent_of_off hgate]
        constructor
        · rintro h _ heq
          cases heq
          refine Or.inr ?_
          rcases h.mp (Or.inl (Bool.and_false _)) with hoff | hsends
          · rcases Bool.and_eq_false_iff.mp hoff with h | h
            · exact Or.inr (Or.inl h)
            · exact Or.inl h
          · exact Or.inr (Or.inr hsends)
        · intro h
          refine iff_of_true (Or.inl (Bool.and_false _)) ?_
          rcases h _ rfl with h | h | h | h
          · exact absurd h hgate
          · exact Or.inl (by simp [h])
          · exact Or.inl (by simp [h])
          · exact Or.inr h

theorem sent_highFreqEvent_of_off {a : GateArgs} {context : Option TriggerContext}
    (hoff : ¬ (a.preVlmGate = true ∧ a.preVlmGateProfile.isSome = true)) :
    SentToVlm .highFreqEvent (gateEnv base a win context) row := by
  rw [sent_highFreqEvent_iff, runPreVlmGate_of_off hoff]
  simp

theorem sent_highFreqEvent_of_on {a : GateArgs} {context : Option TriggerContext}
    {profile : GateProfile} (hgate : a.preVlmGate = true)
    (hprofile : a.preVlmGateProfile = some profile) (hon : profile.enabled = true) :
    SentToVlm .highFreqEvent (gateEnv base a win context) row ↔
      ProfileSends win profile context := by
  rw [sent_highFreqEvent_iff, runPreVlmGate_of_on hgate hprofile hon]
  refine map_evaluate_iff hon _ fun d => ?_
  simp

theorem sameGate_highFreqEvent {worker : GateWorker} {t : TriggerRow} :
    (SentSequential worker base win t row .highFreqEvent ↔
      SentCrossScale worker base win t row .highFreqEvent) ↔
      GateKept worker base win t .highFreqEvent := by
  unfold SentSequential SentCrossScale GateKept GateWorker.runHighFreqEvent
    GateWorker.buildHighFreqProcessor processContext
  dsimp only
  cases hprofile : worker.preVlmGateProfile .highFreqEvent with
  | error e =>
      constructor
      · rintro - profile h
        cases h
      · intro _
        exact iff_of_false not_sentBy_error not_sentBy_error
  | ok profile =>
      refine (iff_congr sentBy_ok sentBy_ok).trans ?_
      by_cases hgate : worker.preVlmGate = true ∧ profile.isSome = true
      · obtain ⟨hset, hsome⟩ := hgate
        obtain ⟨pr, rfl⟩ := Option.isSome_iff_exists.mp hsome
        have hon := enabled_preVlmGateProfile hprofile
        rw [sent_highFreqEvent_of_on hset rfl hon, sent_highFreqEvent_of_on hset rfl hon,
          profileSends_none]
        constructor
        · rintro h _ heq _ hforced hlog frames hframes
          cases heq
          obtain ⟨-, _, hsame, hfound⟩ := h.mpr ⟨hlog, frames, hframes, Or.inl hforced⟩
          cases hframes.symm.trans hsame
          exact hfound
        · intro h
          constructor
          · rintro ⟨hlog, frames, hframes, hfound⟩
            exact ⟨hlog, frames, hframes, Or.inr hfound⟩
          · rintro ⟨hlog, frames, hframes, hforced | hfound⟩
            · exact ⟨hlog, frames, hframes, h pr rfl hset hforced hlog frames hframes⟩
            · exact ⟨hlog, frames, hframes, hfound⟩
      · refine iff_of_true
          (iff_of_true (sent_highFreqEvent_of_off hgate) (sent_highFreqEvent_of_off hgate)) ?_
        rintro pr heq hset
        cases heq
        exact absurd ⟨hset, rfl⟩ hgate

/-- Both paths send the same windows to the VLM exactly where the detector gate
has nothing to suppress and no trigger reason forces the call. -/
theorem sameGate_iff (worker : GateWorker) (base : UnitEnv) (win : GateWindow) (t : TriggerRow)
    (row : Option UnitRow) (p : UnitProcessor) :
    (SentSequential worker base win t row p ↔ SentCrossScale worker base win t row p) ↔
      GateKept worker base win t p := by
  cases p with
  | defaultSegment => exact sameGate_defaultSegment
  | highFreqEvent => exact sameGate_highFreqEvent

end Paths

/-! ## Two windows that differ -/

/-- A detector gate that asks for a person. -/
def personGate : GateWorker where
  detectorGateConfig := ⟨true, [⟨"person", 1/2, 1/2, "call_vlm"⟩]⟩
  preVlmGateConfig :=
    { enabled := false
      defaultSegment := ⟨false, "default", "publish_gate_only_record", [], []⟩
      highFreqEvent := ⟨false, "high_freq", "skip_without_record", [], []⟩ }
  detectorGate := true
  preVlmGate := false

/-- A profile that asks for a person, or for a trigger by `motion`. -/
def motionGate : GateWorker where
  detectorGateConfig := ⟨false, []⟩
  preVlmGateConfig :=
    { enabled := true
      defaultSegment := ⟨false, "default", "publish_gate_only_record", [], []⟩
      highFreqEvent := ⟨true, "high_freq", "skip_without_record",
        [⟨none, "object_detection", "person", 1/2, 1/2, "call_vlm"⟩], ["motion"]⟩ }
  detectorGate := false
  preVlmGate := true

/-- Three frames with nobody in them. -/
def emptyWindow : GateWindow := ⟨.ok [[], [], []], none, .ok [[], [], []]⟩

def motionTrigger : TriggerRow := ⟨"trig_0", "vid_0", 0, 4000, "motion"⟩

/-- Nobody is seen: the detector gate suppresses the call on one path only, and
the trigger reason forces it on one path only. -/
theorem gates_differ :
    ¬ (SentSequential personGate .smooth emptyWindow motionTrigger none .defaultSegment ↔
        SentCrossScale personGate .smooth emptyWindow motionTrigger none .defaultSegment) ∧
      ¬ (SentSequential motionGate .smooth emptyWindow motionTrigger none .highFreqEvent ↔
        SentCrossScale motionGate .smooth emptyWindow motionTrigger none .highFreqEvent) := by
  rw [sameGate_defaultSegment, sameGate_highFreqEvent]
  constructor
  · intro h
    rcases h none rfl with ⟨hset, -⟩ | hset | hon | hsends
    · cases hset
    · cases hset
    · cases hon
    · obtain ⟨results, gateRules, hframes, hrules, hfound⟩ := hsends.found
      cases hframes
      cases hrules
      exact hfound (by decide +kernel)
  · intro h
    exact h _ rfl rfl (by decide) rfl [[], [], []] rfl (by decide +kernel)

end CctvMemory.Worker
