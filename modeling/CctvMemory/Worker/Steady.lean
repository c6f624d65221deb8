import CctvMemory.Worker.Agreement

/-!
# Runs in which the worker itself meets no fault

The sequential loop and the phases of the cross-scale path, scale by scale and
from any rows, when every transaction and event of the worker goes through;
`motion_scan`, the planning and the units may still raise.
-/

namespace CctvMemory.Worker

variable {cfg : WorkerConfig} {env : WorkerEnv} {c c₁ c₂ c' : JobView} {scale : AnalysisScale}
  {t : ScaleTaskRow} {us : List PlannedUnit}

/-- The worker's own transactions and events of one scale go through. -/
structure ScaleSteady (cfg : WorkerConfig) (env : WorkerEnv) (scale : AnalysisScale) : Prop where
  running : faultOf cfg env (.scaleRunning scale) = none
  runningEvent : env.raises (.scaleRunning scale) = none
  close : env.raises (.closeSession scale) = none
  finalize : faultOf cfg env (.finalizeScale scale) = none
  finishedEvent : env.raises (.scaleFinished scale) = none
  skip : faultOf cfg env (.skipScale scale) = none
  skippedEvent : env.raises (.scaleSkipped scale) = none
  fail : faultOf cfg env (.failScale scale) = none
  failedEvent : env.raises (.scaleFailed scale) = none

/-- Those of the job go through. -/
structure JobSteady (cfg : WorkerConfig) (env : WorkerEnv) : Prop where
  running : faultOf cfg env .markJobRunning = none
  runningEvent : env.raises .jobRunning = none
  reconcile : faultOf cfg env .reconcile = none
  finalize : faultOf cfg env .finalizeJob = none
  finishedEvent : env.raises .jobFinished = none
  taskFinishedEvent : env.raises .taskFinished = none
  required : faultOf cfg env .requiredFailure = none
  requiredEvent : env.raises .requiredScaleFailed = none
  failedEvent : env.raises .jobFailed = none
  taskFailedEvent : env.raises .taskFailed = none

/-- The worker's own transactions and events go through. -/
structure Steady (cfg : WorkerConfig) (env : WorkerEnv) : Prop where
  writes : ∀ w, faultOf cfg env w = none
  steps : ∀ s, s ≠ .motionScan → (∀ scale, s ≠ .plan scale) → env.raises s = none

theorem Steady.ofScale (h : Steady cfg env) (scale : AnalysisScale) : ScaleSteady cfg env scale where
  running := h.writes _
  runningEvent := h.steps _ (by simp) (by simp)
  close := h.steps _ (by simp) (by simp)
  finalize := h.writes _
  finishedEvent := h.steps _ (by simp) (by simp)
  skip := h.writes _
  skippedEvent := h.steps _ (by simp) (by simp)
  fail := h.writes _
  failedEvent := h.steps _ (by simp) (by simp)

theorem Steady.job (h : Steady cfg env) : JobSteady cfg env where
  running := h.writes _
  runningEvent := h.steps _ (by simp) (by simp)
  reconcile := h.writes _
  finalize := h.writes _
  finishedEvent := h.steps _ (by simp) (by simp)
  taskFinishedEvent := h.steps _ (by simp) (by simp)
  required := h.writes _
  requiredEvent := h.steps _ (by simp) (by simp)
  failedEvent := h.steps _ (by simp) (by simp)
  taskFailedEvent := h.steps _ (by simp) (by simp)

theorem Steady.hasTriggers (h : Steady cfg env) : env.raises .hasTriggers = none :=
  h.steps _ (by decide) (by simp)

/-! ## One scale, in the sequential loop -/

section Loop

variable {rest : List AnalysisScale} {p : Bool} {r : Except Exn (Except Exn Bool)}
  {res : ScaleProcessResult} {e e' : Exn}

theorem evals_loop_skipped (hx : Evals (processScaleTask cfg env scale) c (.ok none) c₁)
    (hrest : Evals (sequentialLoop cfg env rest p) c₁ r c') :
    Evals (sequentialLoop cfg env (scale :: rest) p) c r c' :=
  hx.attempt.bind hrest

theorem evals_loop_result (hx : Evals (processScaleTask cfg env scale) c (.ok (some res)) c₁)
    (hbase : ¬ (scale = .defaultSegment ∧ baselineEmpty res = true))
    (hrest : Evals (sequentialLoop cfg env rest (p || decide (res.failed ≠ 0))) c₁ r c') :
    Evals (sequentialLoop cfg env (scale :: rest) p) c r c' := by
  refine hx.attempt.bind ?_
  show Evals (if scale = .defaultSegment ∧ baselineEmpty res = true then _ else _) _ _ _
  rw [if_neg hbase]
  exact hrest

theorem evals_loop_baseline
    (hx : Evals (processScaleTask cfg env .defaultSegment) c (.ok (some res)) c₁)
    (hbase : baselineEmpty res = true) :
    Evals (sequentialLoop cfg env (.defaultSegment :: rest) p) c
      (.ok (.error (baselineError res))) c₁ := by
  refine hx.attempt.bind ?_
  show Evals (if _ ∧ baselineEmpty res = true then _ else _) _ _ _
  rw [if_pos ⟨rfl, hbase⟩]
  exact Evals.pure _ _

theorem evals_loop_required (hx : Evals (processScaleTask cfg env .defaultSegment) c (.error e) c₁) :
    Evals (sequentialLoop cfg env (.defaultSegment :: rest) p) c (.ok (.error e)) c₁ :=
  hx.attempt.bind (Evals.pure _ _)

theorem evals_loop_failed (hne : scale ≠ .defaultSegment)
    (hx : Evals (processScaleTask cfg env scale) c (.error e) c₁)
    (hfail : Evals (failScaleTask cfg env scale e) c₁ (.ok ()) c₂)
    (hrest : Evals (sequentialLoop cfg env rest true) c₂ r c') :
    Evals (sequentialLoop cfg env (scale :: rest) p) c r c' := by
  refine hx.attempt.bind ?_
  show Evals (if scale = .defaultSegment then _ else _) _ _ _
  rw [if_neg hne]
  exact hfail.bind hrest

theorem evals_loop_raised (hne : scale ≠ .defaultSegment)
    (hx : Evals (processScaleTask cfg env scale) c (.error e) c₁)
    (hfail : Evals (failScaleTask cfg env scale e) c₁ (.error e') c₂) :
    Evals (sequentialLoop cfg env (scale :: rest) p) c (.error e') c₂ := by
  refine hx.attempt.bind ?_
  show Evals (if scale = .defaultSegment then _ else _) _ _ _
  rw [if_neg hne]
  exact hfail.bind_error

end Loop

/-! ## `motion_scan` -/

def motionResult (env : WorkerEnv) : ScaleProcessResult :=
  ⟨env.motionWindows.length, env.motionWindows.length, 0, 0⟩

/-- The row `motion_scan` ends with. -/
def motionRow (env : WorkerEnv) (t : ScaleTaskRow) : ScaleTaskRow :=
  match env.raises .motionScan with
  | some e => t.started.moveTo .failed (some (classifyError e)) none
  | none => (motionResult env).finishedRow

/-- The triggers after `motion_scan`. -/
def triggersAfter (env : WorkerEnv) (c : JobView) : List TriggerRow :=
  match env.raises .motionScan with
  | some _ => c.triggers
  | none => (persistTriggers env c).triggers

/-- The view after `motion_scan`, its failure handled. -/
def motionEnd (env : WorkerEnv) (t : ScaleTaskRow) (c : JobView) : JobView :=
  c.withMotion (motionRow env t) (triggersAfter env c)

theorem evals_processScaleTask_active {r : Except Exn ScaleProcessResult}
    (hactive : Evals (inactiveReason env scale) c (.ok none) c)
    (hx : Evals (runActiveScale cfg env scale) c r c') :
    Evals (processScaleTask cfg env scale) c (r.map some) c' := by
  refine hactive.bind ?_
  cases r with
  | error e => exact hx.bind_error
  | ok res => exact hx.bind (Evals.pure _ _)

namespace ScaleSteady

theorem evals_processMotion_ok (hsteady : ScaleSteady cfg env .motionScan)
    (h : c.tasks .motionScan = some t)
    (hlegal : legalTask t.status .running = true) (hscan : env.raises .motionScan = none) :
    Evals (processScaleTask cfg env .motionScan) c (.ok (some (motionResult env)))
      (motionEnd env t c) := by
  have hrun : Evals (runScale cfg env .motionScan) (c.setTask .motionScan t.started)
      (.ok (motionResult env)) (persistTriggers env (c.setTask .motionScan t.started)) := by
    have heval := @evals_runMotionScan env (c.setTask .motionScan t.started)
    rw [hscan] at heval
    exact heval.bind (Evals.pure _ _)
  have hactive := evals_runActiveScale hsteady.running
    hsteady.runningEvent h hlegal hrun (by simp [persistTriggers]) t.status_started hsteady.finalize
    hsteady.finishedEvent
  have hend : (persistTriggers env (c.setTask .motionScan t.started)).setTask .motionScan
      (motionResult env).finishedRow = motionEnd env t c := by
    rw [motionEnd, motionRow, triggersAfter, hscan]
    simp [JobState.setTask, JobState.withMotion, persistTriggers]
  rw [hend] at hactive
  exact evals_processScaleTask_active (Evals.pure _ _) hactive

theorem evals_processMotion_raise (hsteady : ScaleSteady cfg env .motionScan)
    {e : Exn} (h : c.tasks .motionScan = some t)
    (hlegal : legalTask t.status .running = true) (hscan : env.raises .motionScan = some e) :
    Evals (processScaleTask cfg env .motionScan) c (.error e)
      (c.setTask .motionScan t.started) := by
  have hrun : Evals (runScale cfg env .motionScan) (c.setTask .motionScan t.started)
      (.error e) (c.setTask .motionScan t.started) := by
    have heval := @evals_runMotionScan env (c.setTask .motionScan t.started)
    rw [hscan] at heval
    exact heval.bind_error
  exact evals_processScaleTask_active (Evals.pure _ _)
    (evals_runActiveScale_error hsteady.running hsteady.runningEvent h hlegal hrun)

/-- A scale that was started and raised can be failed. -/
theorem evals_failStarted (hsteady : ScaleSteady cfg env scale)
    {e : Exn} (c : JobView) (t : ScaleTaskRow) :
    Evals (failScaleTask cfg env scale e) (c.setTask scale t.started) (.ok ())
      (c.setTask scale (t.started.moveTo .failed (some (classifyError e)) none)) := by
  have hfail := evals_failScaleTask_ok (e := e) hsteady.fail
    hsteady.failedEvent
    (show (c.setTask scale t.started).tasks scale = some t.started by simp)
    (by rw [ScaleTaskRow.status_started]; rfl)
  have hset : (c.setTask scale t.started).setTask scale
      (t.started.moveTo .failed (some (classifyError e)) none)
      = c.setTask scale (t.started.moveTo .failed (some (classifyError e)) none) := by
    simp [JobState.setTask]
  rwa [hset] at hfail

/-- `motion_scan` in the sequential loop. -/
theorem evals_loop_motion (hsteady : ScaleSteady cfg env .motionScan)
    {rest : List AnalysisScale} {p : Bool} {r : Except Exn (Except Exn Bool)}
    (h : c.tasks .motionScan = some t) (hlegal : legalTask t.status .running = true)
    (hrest : Evals (sequentialLoop cfg env rest (p || (env.raises .motionScan).isSome))
      (motionEnd env t c) r c') :
    Evals (sequentialLoop cfg env (.motionScan :: rest) p) c r c' := by
  cases hscan : env.raises .motionScan with
  | none =>
      rw [hscan, Option.isSome_none] at hrest
      refine evals_loop_result (hsteady.evals_processMotion_ok h hlegal hscan) (by simp) ?_
      exact hrest
  | some e =>
      rw [hscan, Option.isSome_some, Bool.or_true] at hrest
      have hend : c.setTask .motionScan (t.started.moveTo .failed (some (classifyError e)) none)
          = motionEnd env t c := by
        rw [motionEnd, motionRow, triggersAfter, hscan]
        rfl
      refine evals_loop_failed (by decide) (hsteady.evals_processMotion_raise h hlegal hscan)
        (hsteady.evals_failStarted c t) ?_
      rw [hend]
      exact hrest

/-- Phase 1. -/
theorem evals_motionPhase (hsteady : ScaleSteady cfg env .motionScan)
    {scales : List AnalysisScale} (hs : .motionScan ∈ scales)
    (h : c.tasks .motionScan = some t) (hlegal : legalTask t.status .running = true) :
    Evals (motionPhase cfg env scales) c (.ok (env.raises .motionScan).isSome)
      (motionEnd env t c) := by
  unfold motionPhase
  rw [if_pos hs]
  cases hscan : env.raises .motionScan with
  | none => exact (hsteady.evals_processMotion_ok h hlegal hscan).attempt.bind (Evals.pure _ _)
  | some e =>
      have hend : c.setTask .motionScan (t.started.moveTo .failed (some (classifyError e)) none)
          = motionEnd env t c := by
        rw [motionEnd, motionRow, triggersAfter, hscan]
        rfl
      rw [← hend]
      refine (hsteady.evals_processMotion_raise h hlegal hscan).attempt.bind ?_
      exact (hsteady.evals_failStarted c t).bind (Evals.pure _ _)

end ScaleSteady

/-! ## The scales that run units, in the sequential loop -/

section UnitScale

variable {plan : JobAct (List PlannedUnit)} (hplan : Evals plan c (.ok us) c₁)
  (hnd : (us.map PlannedUnit.key).Nodup)

include hplan hnd

/-- A processor of `process`: plan, run the units, close the session. -/
theorem evals_unitScale (hclose : env.raises (.closeSession scale) = none)
    (hno : ∀ u ∈ us, ¬ UnitEscapes env c₁ u) :
    Evals (do
        let us ← plan
        let result ← processUnits cfg env scale us
        workerStep env (.closeSession scale)
        pure result) c (.ok (.tally (us.map (unitTally env c₁)))) (c₁.runUnits env us) := by
  refine hplan.bind ((evals_processUnits hnd hno).bind ?_)
  exact (evals_step_ok hclose _).bind (Evals.pure _ _)

theorem evals_unitScale_close {e : Exn} (hclose : env.raises (.closeSession scale) = some e)
    (hno : ∀ u ∈ us, ¬ UnitEscapes env c₁ u) :
    Evals (do
        let us ← plan
        let result ← processUnits cfg env scale us
        workerStep env (.closeSession scale)
        pure result) c (.error e) (c₁.runUnits env us) := by
  refine hplan.bind ((evals_processUnits hnd hno).bind ?_)
  exact (evals_step_raise hclose _).bind_error

theorem evals_unitScale_escape (cfg : WorkerConfig) (scale : AnalysisScale)
    (hesc : ∃ u ∈ us, UnitEscapes env c₁ u) :
    ∃ e units, Evals (do
        let us ← plan
        let result ← processUnits cfg env scale us
        workerStep env (.closeSession scale)
        pure result) c (.error e) { c₁ with units } := by
  obtain ⟨e, units, heval⟩ := evals_processUnits_escape cfg scale hnd hesc
  exact ⟨e, units, hplan.bind heval.bind_error⟩

end UnitScale

/-- The view after a scale of the sequential loop ran its units from the view `c`. -/
def unitScaleEnd (env : WorkerEnv) (scale : AnalysisScale) (us : List PlannedUnit) (c : JobView) :
    JobView :=
  (c.runUnits env us).setTask scale
    (ScaleProcessResult.tally (us.map (unitTally env c))).finishedRow

/-- The view in which the default units run. -/
def defaultStarted (env : WorkerEnv) (t : ScaleTaskRow) (c : JobView) : JobView :=
  (c.setTask .defaultSegment t.started).updateProbeMetadata env.durationMs

/-- The default scale gets to a tally: it may start, its plan is made and no
unit lets an exception escape. -/
structure DefaultRuns (cfg : WorkerConfig) (env : WorkerEnv) (t : ScaleTaskRow) (c : JobView)
    (us : List PlannedUnit) : Prop where
  legal : legalTask t.status .running = true
  plan : defaultPlan cfg env = .ok us
  noEscape : ∀ u ∈ us, ¬ UnitEscapes env c u

namespace ScaleSteady

theorem evals_processDefault_ok (hsteady : ScaleSteady cfg env .defaultSegment)
    (h : c.tasks .defaultSegment = some t)
    (hruns : DefaultRuns cfg env t c us) :
    Evals (processScaleTask cfg env .defaultSegment) c
      (.ok (some (.tally (us.map (unitTally env c)))))
      (unitScaleEnd env .defaultSegment us (defaultStarted env t c)) := by
  have hplan := @evals_planDefault cfg env (c.setTask .defaultSegment t.started)
  rw [hruns.plan] at hplan
  have hrun : Evals (runScale cfg env .defaultSegment) (c.setTask .defaultSegment t.started) _ _ :=
    evals_unitScale hplan (planOf_defaultPlan hruns.plan).nodup
      hsteady.close hruns.noEscape
  have hactive := evals_runActiveScale hsteady.running
    hsteady.runningEvent h hruns.legal hrun
    (by simp [JobState.runUnits, JobState.updateProbeMetadata]) t.status_started
    hsteady.finalize hsteady.finishedEvent
  exact evals_processScaleTask_active (Evals.pure _ _) hactive

theorem evals_processDefault_error (hsteady : ScaleSteady cfg env .defaultSegment)
    (h : c.tasks .defaultSegment = some t)
    (hnot : ¬ ∃ us, DefaultRuns cfg env t c us) :
    ∃ e c', Evals (processScaleTask cfg env .defaultSegment) c (.error e) c' ∧
      c'.job = c.job := by
  cases hlegal : legalTask t.status .running with
  | false =>
      obtain ⟨e, -, heval⟩ := evals_runActiveScale_illegal hsteady.running h hlegal
      exact ⟨e, c, evals_processScaleTask_active (Evals.pure _ _) heval, rfl⟩
  | true =>
      have hactive : ∀ {e : Exn} {c' : JobView},
          Evals (runScale cfg env .defaultSegment) (c.setTask .defaultSegment t.started)
            (.error e) c' → Evals (processScaleTask cfg env .defaultSegment) c (.error e) c' :=
        fun hrun => evals_processScaleTask_active (Evals.pure _ _)
          (evals_runActiveScale_error hsteady.running hsteady.runningEvent h hlegal hrun)
      have hplan := @evals_planDefault cfg env
        (c.setTask .defaultSegment t.started)
      cases hp : defaultPlan cfg env with
      | error e =>
          rw [hp] at hplan
          exact ⟨e, _, hactive hplan.bind_error, rfl⟩
      | ok us =>
          rw [hp] at hplan
          have hesc : ∃ u ∈ us, UnitEscapes env c u := by
            by_contra hno
            exact hnot ⟨us, hlegal, hp, fun u hu hescapes => hno ⟨u, hu, hescapes⟩⟩
          obtain ⟨e, units, heval⟩ := evals_unitScale_escape hplan
            (planOf_defaultPlan hp).nodup cfg .defaultSegment hesc
          exact ⟨e, _, hactive heval, rfl⟩

end ScaleSteady

/-- An active `high_freq_event` gets to a tally in the sequential loop. -/
structure HighFreqRuns (cfg : WorkerConfig) (env : WorkerEnv) (c : JobView)
    (us : List PlannedUnit) : Prop where
  plan : highFreqPlanOf cfg env none c = .ok us
  noEscape : ∀ u ∈ us, ¬ UnitEscapes env c u

/-- Why a scale task is skipped in view `c`, if it is. -/
def inactiveIn (c : JobView) (scale : AnalysisScale) : Option SkippedReason :=
  match scale with
  | .lowFreqSummary => some .notEnabled
  | .highFreqEvent => if c.hasTriggers = true then none else some .noMotionTrigger
  | _ => none

theorem evals_inactiveReason (htrig : env.raises .hasTriggers = none) (scale : AnalysisScale)
    (c : JobView) :
    Evals (inactiveReason env scale) c (.ok (inactiveIn c scale)) c := by
  cases scale with
  | highFreqEvent =>
      have heval := @evals_hasTriggers env c
      rw [htrig] at heval
      exact heval.bind (Evals.pure _ _)
  | defaultSegment | motionScan | lowFreqSummary => exact Evals.pure _ _

namespace ScaleSteady

theorem evals_processHighFreq_ok (hsteady : ScaleSteady cfg env .highFreqEvent)
    (htrig : env.raises .hasTriggers = none)
    (h : c.tasks .highFreqEvent = some t)
    (hactive : c.hasTriggers = true) (hlegal : legalTask t.status .running = true)
    (hruns : HighFreqRuns cfg env c us) :
    Evals (processScaleTask cfg env .highFreqEvent) c
      (.ok (some (.tally (us.map (unitTally env c)))))
      (unitScaleEnd env .highFreqEvent us (c.setTask .highFreqEvent t.started)) := by
  have hreason := evals_inactiveReason htrig .highFreqEvent c
  rw [inactiveIn, if_pos hactive] at hreason
  have hplan := @evals_planHighFreq cfg env none
    (c.setTask .highFreqEvent t.started)
  rw [highFreqPlanOf_setTask, hruns.plan] at hplan
  have hrun : Evals (runScale cfg env .highFreqEvent) (c.setTask .highFreqEvent t.started) _ _ :=
    evals_unitScale hplan (planOf_highFreqPlanOf hruns.plan).nodup
      hsteady.close hruns.noEscape
  have hrunning := evals_runActiveScale hsteady.running
    hsteady.runningEvent h hlegal hrun (by simp [JobState.runUnits]) t.status_started
    hsteady.finalize hsteady.finishedEvent
  exact evals_processScaleTask_active hreason hrunning

/-- A `high_freq_event` whose processor raises is left started. -/
theorem evals_processHighFreq_raise (hsteady : ScaleSteady cfg env .highFreqEvent)
    (htrig : env.raises .hasTriggers = none)
    {e : Exn} (h : c.tasks .highFreqEvent = some t)
    (hactive : c.hasTriggers = true) (hlegal : legalTask t.status .running = true)
    (hrun : Evals (runScale cfg env .highFreqEvent) (c.setTask .highFreqEvent t.started)
      (.error e) c') : Evals (processScaleTask cfg env .highFreqEvent) c (.error e) c' := by
  have hreason := evals_inactiveReason htrig .highFreqEvent c
  rw [inactiveIn, if_pos hactive] at hreason
  exact evals_processScaleTask_active hreason
    (evals_runActiveScale_error hsteady.running hsteady.runningEvent h hlegal hrun)

theorem evals_processHighFreq_planError (hsteady : ScaleSteady cfg env .highFreqEvent)
    (htrig : env.raises .hasTriggers = none)
    {e : Exn} (h : c.tasks .highFreqEvent = some t)
    (hactive : c.hasTriggers = true) (hlegal : legalTask t.status .running = true)
    (hplan : highFreqPlanOf cfg env none c = .error e) :
    Evals (processScaleTask cfg env .highFreqEvent) c (.error e)
      (c.setTask .highFreqEvent t.started) := by
  have heval := @evals_planHighFreq cfg env none
    (c.setTask .highFreqEvent t.started)
  rw [highFreqPlanOf_setTask, hplan] at heval
  exact hsteady.evals_processHighFreq_raise htrig h hactive hlegal heval.bind_error

theorem evals_processHighFreq_escape (hsteady : ScaleSteady cfg env .highFreqEvent)
    (htrig : env.raises .hasTriggers = none)
    (h : c.tasks .highFreqEvent = some t)
    (hactive : c.hasTriggers = true) (hlegal : legalTask t.status .running = true)
    (hplan : highFreqPlanOf cfg env none c = .ok us) (hesc : ∃ u ∈ us, UnitEscapes env c u) :
    ∃ e units, Evals (processScaleTask cfg env .highFreqEvent) c (.error e)
      (JobState.setTask { c with units } .highFreqEvent t.started) := by
  have heval := @evals_planHighFreq cfg env none
    (c.setTask .highFreqEvent t.started)
  rw [highFreqPlanOf_setTask, hplan] at heval
  obtain ⟨e, units, hrun⟩ := evals_unitScale_escape heval
    (planOf_highFreqPlanOf hplan).nodup cfg .highFreqEvent hesc
  exact ⟨e, units, hsteady.evals_processHighFreq_raise htrig h hactive hlegal hrun⟩

/-- A started scale task raises from an illegal status. -/
theorem evals_processScaleTask_illegal (hsteady : ScaleSteady cfg env scale)
    (htrig : env.raises .hasTriggers = none)
    (h : c.tasks scale = some t)
    (hactive : inactiveIn c scale = none) (hlegal : legalTask t.status .running = false) :
    ∃ e, e.cls = .invalidStateTransition ∧
      Evals (processScaleTask cfg env scale) c (.error e) c := by
  have hreason := evals_inactiveReason htrig scale c
  rw [hactive] at hreason
  obtain ⟨e, hcls, heval⟩ := evals_runActiveScale_illegal hsteady.running h hlegal
  exact ⟨e, hcls, evals_processScaleTask_active hreason heval⟩

/-! ## Skipping -/

theorem evals_skip (hsteady : ScaleSteady cfg env scale) (reason : SkippedReason)
    (h : c.tasks scale = some t)
    (hlegal : legalTask t.status .skipped = true) :
    Evals (skipScaleTask cfg env scale reason) c (.ok ())
      (c.setTask scale (t.moveTo .skipped none (some reason))) :=
  evals_skipScaleTask_ok hsteady.skip hsteady.skippedEvent h hlegal

theorem evals_processSkip_ok (hsteady : ScaleSteady cfg env scale)
    (htrig : env.raises .hasTriggers = none)
    {reason : SkippedReason} (h : c.tasks scale = some t)
    (hinactive : inactiveIn c scale = some reason) (hlegal : legalTask t.status .skipped = true) :
    Evals (processScaleTask cfg env scale) c (.ok none)
      (c.setTask scale (t.moveTo .skipped none (some reason))) := by
  have hreason := evals_inactiveReason htrig scale c
  rw [hinactive] at hreason
  exact hreason.bind ((hsteady.evals_skip reason h hlegal).bind (Evals.pure _ _))

theorem evals_processSkip_illegal (hsteady : ScaleSteady cfg env scale)
    (htrig : env.raises .hasTriggers = none)
    {reason : SkippedReason} (h : c.tasks scale = some t)
    (hinactive : inactiveIn c scale = some reason) (hlegal : legalTask t.status .skipped = false) :
    ∃ e, e.cls = .invalidStateTransition ∧
      Evals (processScaleTask cfg env scale) c (.error e) c := by
  have hreason := evals_inactiveReason htrig scale c
  rw [hinactive] at hreason
  obtain ⟨e, hcls, heval⟩ := evals_skipScaleTask_illegal reason hsteady.skip
    h hlegal
  exact ⟨e, hcls, hreason.bind heval.bind_error⟩

end ScaleSteady

/-! ## The cross-scale phases -/

theorem evals_highFreqActive (htrig : env.raises .hasTriggers = none)
    {scales : List AnalysisScale} (c : JobView) :
    Evals (highFreqActive env scales) c
      (.ok (decide (.highFreqEvent ∈ scales) && c.hasTriggers)) c := by
  unfold highFreqActive
  split
  · rename_i hs
    have heval := @evals_hasTriggers env c
    rw [htrig] at heval
    simpa [hs] using heval
  · rename_i hs
    simpa [hs] using Evals.pure false c

namespace ScaleSteady

/-- Phase 3 for a default scale that may start. -/
theorem evals_planDefaultPhase (hsteady : ScaleSteady cfg env .defaultSegment)
    {scales : List AnalysisScale} (hs : .defaultSegment ∈ scales)
    (h : c.tasks .defaultSegment = some t) (hlegal : legalTask t.status .running = true) :
    Evals (planDefaultPhase cfg env scales) c (defaultPlan cfg env)
      (match defaultPlan cfg env with
        | .ok _ => defaultStarted env t c
        | .error _ => c.setTask .defaultSegment t.started) := by
  unfold planDefaultPhase
  rw [if_pos hs]
  refine (evals_transitionRunning hsteady.running h hlegal).bind ?_
  refine (evals_step_ok hsteady.runningEvent _).bind ?_
  exact evals_planDefault _

/-- Phase 3 for an active `high_freq_event` that may start. -/
theorem evals_planHighFreqPhase (hsteady : ScaleSteady cfg env .highFreqEvent)
    (h : c.tasks .highFreqEvent = some t)
    (hlegal : legalTask t.status .running = true) :
    Evals (planHighFreqPhase cfg env true) c
      (.ok (highFreqPlanOf cfg env (some .highFreqEvent) c).toOption)
      (match highFreqPlanOf cfg env (some .highFreqEvent) c with
        | .ok _ => c.setTask .highFreqEvent t.started
        | .error e => c.setTask .highFreqEvent
            (t.started.moveTo .failed (some (classifyError e)) none)) := by
  have hbody : Evals (do
      transitionRunning cfg env .highFreqEvent
      workerStep env (.scaleRunning .highFreqEvent)
      planHighFreq cfg env (some .highFreqEvent)) c
      (highFreqPlanOf cfg env (some .highFreqEvent) c) (c.setTask .highFreqEvent t.started) := by
    refine (evals_transitionRunning hsteady.running h hlegal).bind ?_
    refine (evals_step_ok hsteady.runningEvent _).bind ?_
    have hplan := @evals_planHighFreq cfg env (some .highFreqEvent)
      (c.setTask .highFreqEvent t.started)
    rwa [highFreqPlanOf_setTask] at hplan
  unfold planHighFreqPhase
  rw [if_pos rfl]
  refine hbody.attempt.bind ?_
  cases highFreqPlanOf cfg env (some .highFreqEvent) c with
  | ok us => exact Evals.pure _ _
  | error e => exact (hsteady.evals_failStarted c t).bind (Evals.pure _ _)

end ScaleSteady

/-- Phase 6. -/
theorem JobSteady.evals_jobOutcomePhase (hsteady : JobSteady cfg env)
    (ds hs : Option ScaleProcessResult) (p : Bool)
    (hjob : c.job.jobStatus = .running) (hdef : isRunning (c.tasks .defaultSegment) = false) :
    ∃ c', Evals (jobOutcomePhase cfg env ds hs p) c (.ok ()) c' ∧
      JobEnded (jobOutcome ds hs p) c c' ∧ c'.tasks = c.tasks := by
  have hfinalize : ∀ p, ∃ c', Evals (finalizeJob cfg env p) c (.ok ()) c' ∧
      JobEnded (finishedStatus p) c c' ∧ c'.tasks = c.tasks := fun p =>
    evals_finalizeJob hsteady.finalize hsteady.finishedEvent hsteady.taskFinishedEvent hjob
  unfold jobOutcomePhase jobOutcome
  cases ds with
  | none => exact hfinalize _
  | some r =>
      simp only [Option.filter_some, Option.any_some]
      cases hempty : baselineEmpty r with
      | false => exact hfinalize _
      | true =>
          obtain ⟨c', heval, hended, htasks⟩ := evals_handleRequiredFailure (baselineError r)
            hsteady.required hsteady.requiredEvent hsteady.failedEvent hsteady.taskFailedEvent hjob
          rw [requiredFailedTasks, if_neg (by rw [hdef]; decide)] at htasks
          exact ⟨c', heval, hended, htasks⟩

/-- Phases 4 to 6: the scales take the status of their tallies, the job that of phase 6. -/
theorem JobSteady.evals_runPlanned (hsteady : JobSteady cfg env)
    (hscales : faultOf cfg env .finalizeScales = none)
    (hevent : env.raises (.scaleFinished .defaultSegment) = none)
    (hevent' : env.raises (.scaleFinished .highFreqEvent) = none)
    (df hf : Option (List PlannedUnit)) (p : Bool)
    (hplans : PlansOf cfg env c df hf) (hjob : c.job.jobStatus = .running)
    (hdef : df.isSome = true → ∃ t, c.tasks .defaultSegment = some t ∧ Running t)
    (hnone : df = none → c.tasks .defaultSegment = none)
    (hhigh : hf.isSome = true → ∃ t, c.tasks .highFreqEvent = some t ∧ Running t) :
    ∃ c', Evals (runPlanned cfg env df hf p) c (.ok ()) c' ∧
      c'.job.jobStatus = jobOutcome (scaleTally env c df) (scaleTally env c hf) p ∧
      c'.queueTask.status ≠ .running ∧
      c'.tasks = (finalizedScales (scaleTally env c df) (scaleTally env c hf) c).tasks := by
  set units := dispatched cfg df hf with hunits
  set c₂ := reconcileView env (c.runUnits env units) with hc₂
  have hreconcile := @evals_reconcile cfg env (c.runUnits env units)
  rw [hsteady.reconcile] at hreconcile
  have hdefault : (scaleTally env c df).isSome = true →
      ∃ t, c₂.tasks .defaultSegment = some t ∧ Running t := by
    rw [scaleTally, Option.isSome_map]
    exact hdef
  have hhighFreq : (scaleTally env c hf).isSome = true →
      ∃ t, c₂.tasks .highFreqEvent = some t ∧ Running t := by
    rw [scaleTally, Option.isSome_map]
    exact hhigh
  set c₃ := finalizedScales (scaleTally env c df) (scaleTally env c hf) c₂ with hc₃
  have hwrite : Evals (writeSession cfg env .finalizeScales
      (finalizeScalesWrite (scaleTally env c df) (scaleTally env c hf))) c₂ _ _ :=
    evals_writeSession _ (actsOn_finalizeScalesWrite _ _) (permanent_finalizeScalesWrite _ _) c₂
  rw [hscales, finalizeScalesWrite_of_running hdefault hhighFreq] at hwrite
  have hphase : Evals (finalizeScalesPhase cfg env (scaleTally env c df) (scaleTally env c hf)) c₂
      (.ok ()) c₃ :=
    hwrite.bind ((evals_stepIf hevent _).bind (evals_stepIf hevent' _))
  have hjob₃ : c₃.job.jobStatus = .running := by
    rw [hc₃]
    cases scaleTally env c df <;> cases scaleTally env c hf <;> exact hjob
  have htasks₃ : c₃.tasks = (finalizedScales (scaleTally env c df) (scaleTally env c hf) c).tasks := by
    rw [hc₃]
    cases scaleTally env c df <;> cases scaleTally env c hf <;> rfl
  have hnotRunning : isRunning (c₃.tasks .defaultSegment) = false := by
    rw [hc₃, finalizedScales, JobState.tasks_finalizedScale_of_ne (by decide),
      JobState.tasks_finalizedScale_self]
    cases hdf : df with
    | some us => simp [scaleTally, isRunning, status_finishedRow_ne_running]
    | none =>
        show isRunning (c.tasks .defaultSegment) = false
        rw [hnone hdf]
        rfl
  -- phase 6 reads the tallies, and leaves the scale tasks alone
  obtain ⟨c', houtcome, hended, htasks⟩ := hsteady.evals_jobOutcomePhase
    (scaleTally env c df) (scaleTally env c hf) p hjob₃ hnotRunning
  refine ⟨c', ?_, hended.status, hended.queue, htasks.trans htasks₃⟩
  refine (evals_dispatchPhase hplans.nodup_dispatched c).bind (hreconcile.bind ?_)
  show Evals (finalizeScalesPhase cfg env
      (df.map fun _ => tallyOf .defaultSegment units (units.map (unitTally env c)))
      (hf.map fun _ => tallyOf .highFreqEvent units (units.map (unitTally env c))) >>= fun _ =>
    jobOutcomePhase cfg env
      (df.map fun _ => tallyOf .defaultSegment units (units.map (unitTally env c)))
      (hf.map fun _ => tallyOf .highFreqEvent units (units.map (unitTally env c))) p) _ _ _
  rw [hplans.scaleTally_default, hplans.scaleTally_highFreq]
  exact hphase.bind houtcome

/-- A job that may be set running goes down its path. -/
theorem JobSteady.evals_processClaimedTask (hsteady : JobSteady cfg env)
    (hlegal : legalJob c.job.jobStatus .running = true)
    {r : Except Exn Unit}
    (hpath : Evals (if cfg.crossScaleEnabled = true then processCrossScale cfg env c.scaleTasks
      else processSequential cfg env c.scaleTasks) c.started r c') :
    Evals (processClaimedTask cfg env) c r c' := by
  have hwrite : Evals (writeSession cfg env .markJobRunning fun db => do
      let db ← db.transitionJob .running none none
      .ok (db.scaleTasks, db)) c _ _ :=
    evals_writeSession _ actsOn_markJobRunning
      (fun c => permanent_transitionJob.bind fun _ => Permanent.ok _) c
  rw [hsteady.running, JobState.transitionJob_of_legal hlegal] at hwrite
  exact hwrite.bind ((evals_step_ok hsteady.runningEvent _).bind hpath)

end CctvMemory.Worker
