import CctvMemory.Worker.Paths

/-!
# One exception in an optional scale

A freshly queued job whose run meets exactly one exception outside its units,
in a step of processing `motion_scan` or `high_freq_event`. The handler of an
optional failure issues a transition that is legal only from running or
failed, so the status the scale task has at that moment decides, and on the
cross-scale path some steps are under no handler at all.

* `isolated_iff`: which exceptions stay with the optional scale.
* `lookup_not_isolated`: the trigger lookup raises.
-/

namespace CctvMemory.Worker

variable {cfg : WorkerConfig} {env : WorkerEnv} {c c₁ c₂ c' : JobView} {scale : AnalysisScale}
  {t : ScaleTaskRow} {us : List PlannedUnit} {f g : FaultAt} {e : Exn}

/-! ## Where an exception is raised -/

/-- A transaction of the worker, or a step beside them. -/
inductive FaultAt where
  | write (w : WorkerWrite)
  | step (s : WorkerStep)
deriving DecidableEq, Repr

/-- What is raised there, if anything. -/
def FaultAt.fault (cfg : WorkerConfig) (env : WorkerEnv) : FaultAt → Option Exn
  | .write w => faultOf cfg env w
  | .step s => env.raises s

/-- The steps of the worker itself for one scale. -/
def scaleSteps (scale : AnalysisScale) : List FaultAt :=
  [.write (.scaleRunning scale), .step (.scaleRunning scale), .step (.closeSession scale),
    .write (.finalizeScale scale), .step (.scaleFinished scale), .write (.skipScale scale),
    .step (.scaleSkipped scale), .write (.failScale scale), .step (.scaleFailed scale)]

/-- Those for the job. -/
def jobSteps : List FaultAt :=
  [.write .markJobRunning, .step .jobRunning, .write .reconcile, .write .finalizeJob,
    .step .jobFinished, .step .taskFinished, .write .requiredFailure, .step .requiredScaleFailed,
    .step .jobFailed, .step .taskFailed]

/-- The one exception of a run from `c` is raised at `f`: nothing else is raised
by the worker, the plans can be made, and no unit lets an exception escape. -/
structure OnlyAt (cfg : WorkerConfig) (env : WorkerEnv) (c : JobView) (f : FaultAt) : Prop where
  raised : f.fault cfg env ≠ none
  others : ∀ g, g ≠ f → g.fault cfg env = none
  planned : ∃ us, defaultPlan cfg env = .ok us
  plannedHighFreq : ∃ us, highFreqPlan cfg none (planView env c) = .ok us
  units : ∀ u, ¬ EscapesGuard env u

namespace OnlyAt

variable (h : OnlyAt cfg env c f)

include h

theorem quiet {l : List FaultAt} (hf : f ∉ l) (hg : g ∈ l) : g.fault cfg env = none := by
  apply h.others
  rintro rfl
  exact hf hg

theorem ofScale (hf : f ∉ scaleSteps scale) : ScaleSteady cfg env scale where
  running := h.quiet (g := .write (.scaleRunning scale)) hf (by simp [scaleSteps])
  runningEvent := h.quiet (g := .step (.scaleRunning scale)) hf (by simp [scaleSteps])
  close := h.quiet (g := .step (.closeSession scale)) hf (by simp [scaleSteps])
  finalize := h.quiet (g := .write (.finalizeScale scale)) hf (by simp [scaleSteps])
  finishedEvent := h.quiet (g := .step (.scaleFinished scale)) hf (by simp [scaleSteps])
  skip := h.quiet (g := .write (.skipScale scale)) hf (by simp [scaleSteps])
  skippedEvent := h.quiet (g := .step (.scaleSkipped scale)) hf (by simp [scaleSteps])
  fail := h.quiet (g := .write (.failScale scale)) hf (by simp [scaleSteps])
  failedEvent := h.quiet (g := .step (.scaleFailed scale)) hf (by simp [scaleSteps])

theorem ofJob (hf : f ∉ jobSteps) : JobSteady cfg env where
  running := h.quiet (g := .write .markJobRunning) hf (by decide)
  runningEvent := h.quiet (g := .step .jobRunning) hf (by decide)
  reconcile := h.quiet (g := .write .reconcile) hf (by decide)
  finalize := h.quiet (g := .write .finalizeJob) hf (by decide)
  finishedEvent := h.quiet (g := .step .jobFinished) hf (by decide)
  taskFinishedEvent := h.quiet (g := .step .taskFinished) hf (by decide)
  required := h.quiet (g := .write .requiredFailure) hf (by decide)
  requiredEvent := h.quiet (g := .step .requiredScaleFailed) hf (by decide)
  failedEvent := h.quiet (g := .step .jobFailed) hf (by decide)
  taskFailedEvent := h.quiet (g := .step .taskFailed) hf (by decide)

end OnlyAt

/-! ## The steps of the optional scales -/

def motionSteps : List FaultAt :=
  [.write (.scaleRunning .motionScan), .step (.scaleRunning .motionScan), .step .motionScan,
    .write (.finalizeScale .motionScan), .step (.scaleFinished .motionScan)]

def highFreqSkipSteps : List FaultAt :=
  [.write (.skipScale .highFreqEvent), .step (.scaleSkipped .highFreqEvent)]

/-- From the transition to running to the finished event, on either path. -/
def highFreqRunSteps (crossScale : Bool) : List FaultAt :=
  [.write (.scaleRunning .highFreqEvent), .step (.scaleRunning .highFreqEvent),
    .step (.plan .highFreqEvent)] ++
  (if crossScale = true then [.write .finalizeScales]
    else [.step (.closeSession .highFreqEvent), .write (.finalizeScale .highFreqEvent)]) ++
  [.step (.scaleFinished .highFreqEvent)]

/-- A run from `c`, past its default scale, takes step `f` to process the scale. -/
inductive Takes (cfg : WorkerConfig) (env : WorkerEnv) (c : JobView) :
    AnalysisScale → FaultAt → Prop where
  | motion {f : FaultAt} : (c.tasks .motionScan).isSome = true → f ∈ motionSteps →
      Takes cfg env c .motionScan f
  | lookup : (c.tasks .highFreqEvent).isSome = true →
      Takes cfg env c .highFreqEvent (.step .hasTriggers)
  | skip {f : FaultAt} : (c.tasks .highFreqEvent).isSome = true →
      (planView env c).hasTriggers = false → f ∈ highFreqSkipSteps →
      Takes cfg env c .highFreqEvent f
  | run {f : FaultAt} : (c.tasks .highFreqEvent).isSome = true →
      (planView env c).hasTriggers = true → f ∈ highFreqRunSteps cfg.crossScaleEnabled →
      Takes cfg env c .highFreqEvent f

/-- A step of an optional scale is no step of another scale or of the job. -/
structure Apart (scale : AnalysisScale) (f : FaultAt) : Prop where
  default : f ∉ scaleSteps .defaultSegment
  low : f ∉ scaleSteps .lowFreqSummary
  job : f ∉ jobSteps
  fail : .write (.failScale scale) ≠ f
  failedEvent : .step (.scaleFailed scale) ≠ f
  motion : scale = .highFreqEvent → f ∉ scaleSteps .motionScan
  highFreq : scale = .motionScan → f ∉ scaleSteps .highFreqEvent
  lookup : scale = .motionScan → .step .hasTriggers ≠ f

theorem Takes.apart (h : Takes cfg env c scale f) : Apart scale f := by
  cases h with
  | motion _ hf =>
      have hall : ∀ f ∈ motionSteps, f ∉ scaleSteps .defaultSegment ∧
          f ∉ scaleSteps .lowFreqSummary ∧ f ∉ jobSteps ∧
          .write (.failScale .motionScan) ≠ f ∧ .step (.scaleFailed .motionScan) ≠ f ∧
          f ∉ scaleSteps .highFreqEvent ∧ .step .hasTriggers ≠ f := by decide
      obtain ⟨hd, hl, hj, hfail, hevent, hh, hlookup⟩ := hall f hf
      exact ⟨hd, hl, hj, hfail, hevent, by simp, fun _ => hh, fun _ => hlookup⟩
  | lookup _ =>
      constructor <;> decide
  | skip _ _ hf =>
      have hall : ∀ f ∈ highFreqSkipSteps, f ∉ scaleSteps .defaultSegment ∧
          f ∉ scaleSteps .lowFreqSummary ∧ f ∉ jobSteps ∧
          .write (.failScale .highFreqEvent) ≠ f ∧ .step (.scaleFailed .highFreqEvent) ≠ f ∧
          f ∉ scaleSteps .motionScan := by decide
      obtain ⟨hd, hl, hj, hfail, hevent, hm⟩ := hall f hf
      exact ⟨hd, hl, hj, hfail, hevent, fun _ => hm, by simp, by simp⟩
  | run _ _ hf =>
      have hall : ∀ b, ∀ f ∈ highFreqRunSteps b, f ∉ scaleSteps .defaultSegment ∧
          f ∉ scaleSteps .lowFreqSummary ∧ f ∉ jobSteps ∧
          .write (.failScale .highFreqEvent) ≠ f ∧ .step (.scaleFailed .highFreqEvent) ≠ f ∧
          f ∉ scaleSteps .motionScan := by decide
      obtain ⟨hd, hl, hj, hfail, hevent, hm⟩ := hall _ f hf
      exact ⟨hd, hl, hj, hfail, hevent, fun _ => hm, by simp, by simp⟩

/-- On the sequential path the optional scales follow a baseline with a record. -/
def PastDefault (cfg : WorkerConfig) (env : WorkerEnv) : Prop :=
  cfg.crossScaleEnabled = false → ∃ us, defaultPlan cfg env = .ok us ∧
    baselineEmpty (freshResult env us) = false

/-- The status of the optional scale task when the exception is raised. -/
def statusAt (cfg : WorkerConfig) (env : WorkerEnv) (c : JobView) : FaultAt → TaskStatus
  | .step .hasTriggers | .write (.scaleRunning _) | .write (.skipScale _) => .pending
  | .step (.scaleSkipped _) => .skipped
  | .step (.scaleFinished .motionScan) => (motionResult env).status
  | .step (.scaleFinished .highFreqEvent) =>
      ((highFreqUnits cfg env c).map fun us => (freshResult env us).status).getD .running
  | _ => .running

/-- The exception is raised under the handler of its scale. -/
def UnderHandler (cfg : WorkerConfig) (scale : AnalysisScale) (f : FaultAt) : Prop :=
  cfg.crossScaleEnabled = true → scale = .highFreqEvent →
    f ∈ [.write (.scaleRunning .highFreqEvent), .step (.scaleRunning .highFreqEvent),
      .step (.plan .highFreqEvent)]

/-- The handler of the scale sees the exception, and may fail the scale task. -/
def Contained (cfg : WorkerConfig) (env : WorkerEnv) (c : JobView) (scale : AnalysisScale)
    (f : FaultAt) : Prop :=
  UnderHandler cfg scale f ∧ legalTask (statusAt cfg env c f) .failed = true

/-- The failure stays with the optional scale. -/
structure Isolated {U : Type} (scale : AnalysisScale) (r : Except Exn Unit) (db : JobState U) :
    Prop where
  returns : r = .ok ()
  default : (db.tasks .defaultSegment).any (fun t => t.status.isTerminal) = true
  optional : (db.tasks scale).any (fun t => t.status.isTerminal) = true
  job : db.job.jobStatus = .partialFailed ∨ db.job.jobStatus = .failed ∧
    (db.tasks .defaultSegment).any (fun t => decide (t.succeededUnits = 0)) = true

/-! ## A scale that raises -/

/-- Processing the scale raises, and leaves its task in `status`. -/
def RaisesIn (cfg : WorkerConfig) (env : WorkerEnv) (scale : AnalysisScale) (c : JobView)
    (status : TaskStatus) : Prop :=
  ∃ e c₁ t, Evals (processScaleTask cfg env scale) c (.error e) c₁ ∧
    c₁.tasks = Function.update c.tasks scale (some t) ∧ t.status = status ∧ c₁.job = c.job

namespace RaisesIn

variable {s : TaskStatus}

theorem of_task (h : c.tasks scale = some t)
    (heval : Evals (processScaleTask cfg env scale) c (.error e) c) :
    RaisesIn cfg env scale c t.status := by
  refine ⟨e, c, t, heval, ?_, rfl, rfl⟩
  rw [← h, Function.update_eq_self]

/-- The handler may record the failure. -/
theorem handled (h : RaisesIn cfg env scale c s) (hsteady : faultOf cfg env (.failScale scale) = none)
    (hevent : env.raises (.scaleFailed scale) = none) (hlegal : legalTask s .failed = true) :
    ∃ c₂ t, FailureHandled cfg env scale c c₂ ∧
      c₂.tasks = Function.update c.tasks scale (some t) ∧ t.status = .failed ∧ c₂.job = c.job := by
  obtain ⟨e, c₁, t, heval, htasks, rfl, hjob⟩ := h
  have ht : c₁.tasks scale = some t := by rw [htasks, Function.update_self]
  refine ⟨_, t.moveTo .failed (some (classifyError e)) none,
    failureHandled_of_error hsteady hevent heval ht hlegal, ?_, t.status_moveTo _ _ _, hjob⟩
  rw [JobState.tasks_setTask, htasks, Function.update_idem]

theorem escapes (h : RaisesIn cfg env scale c s) (hsteady : faultOf cfg env (.failScale scale) = none)
    (hlegal : legalTask s .failed = false) : ∃ e, FailureEscapes cfg env scale c e := by
  obtain ⟨e, c₁, t, heval, htasks, rfl, -⟩ := h
  have ht : c₁.tasks scale = some t := by rw [htasks, Function.update_self]
  obtain ⟨e', -, hesc⟩ := failureEscapes_of_error hsteady heval ht hlegal
  exact ⟨e', hesc⟩

section Active

variable (hactive : Evals (inactiveReason env scale) c (.ok none) c)

include hactive

theorem of_active (heval : Evals (runActiveScale cfg env scale) c (.error e) c₁)
    (htasks : c₁.tasks = Function.update c.tasks scale (some t)) (hjob : c₁.job = c.job) :
    RaisesIn cfg env scale c t.status :=
  ⟨e, c₁, t, evals_processScaleTask_active hactive heval, htasks, rfl, hjob⟩

variable (h : c.tasks scale = some .created)

include h

theorem transition (hw : faultOf cfg env (.scaleRunning scale) = some e) :
    RaisesIn cfg env scale c .pending := by
  have heval : Evals (runActiveScale cfg env scale) c (.error e) c :=
    (evals_taskWrite_fault hw).bind_error
  exact of_task h (evals_processScaleTask_active hactive heval)

theorem runningEvent (hw : faultOf cfg env (.scaleRunning scale) = none)
    (hs : env.raises (.scaleRunning scale) = some e) : RaisesIn cfg env scale c .running :=
  of_active hactive (t := ScaleTaskRow.created.started)
    ((evals_transitionRunning hw h rfl).bind (evals_step_raise hs _).bind_error) rfl rfl

variable (hw : faultOf cfg env (.scaleRunning scale) = none)
  (hs : env.raises (.scaleRunning scale) = none)
  (htasks : c₂.tasks = (c.setTask scale ScaleTaskRow.created.started).tasks)
  (hjob : c₂.job = c.job)

include hw hs htasks hjob

theorem processor
    (hrun : Evals (runScale cfg env scale) (c.setTask scale ScaleTaskRow.created.started)
      (.error e) c₂) : RaisesIn cfg env scale c .running :=
  of_active hactive (t := ScaleTaskRow.created.started)
    (evals_runActiveScale_error hw hs h rfl hrun) htasks hjob

variable {r : ScaleProcessResult}
  (hrun : Evals (runScale cfg env scale) (c.setTask scale ScaleTaskRow.created.started) (.ok r) c₂)

include hrun

theorem finalize (hf : faultOf cfg env (.finalizeScale scale) = some e) :
    RaisesIn cfg env scale c .running := by
  refine of_active hactive (e := e) (t := ScaleTaskRow.created.started) ?_ htasks hjob
  refine (evals_transitionRunning hw h rfl).bind ((evals_step_ok hs _).bind (hrun.bind ?_))
  exact (evals_finalizeWrite_fault hf).bind_error

theorem finishedEvent (hf : faultOf cfg env (.finalizeScale scale) = none)
    (hs' : env.raises (.scaleFinished scale) = some e) : RaisesIn cfg env scale c r.status := by
  have ht : c₂.tasks scale = some ScaleTaskRow.created.started := by simp [htasks]
  refine @of_active _ _ _ (c₂.setTask scale r.finishedRow) _ r.finishedRow e hactive ?_ ?_ hjob
  · refine (evals_transitionRunning hw h rfl).bind ((evals_step_ok hs _).bind (hrun.bind ?_))
    exact (evals_finalizeWrite_ok ht (ScaleTaskRow.status_started _) hf).bind
      (evals_step_raise hs' _).bind_error
  · rw [JobState.tasks_setTask, htasks, JobState.tasks_setTask, Function.update_idem]

end Active

end RaisesIn

/-! ## The optional scales raise -/

/-- `motion_scan`, wherever its exception is raised. -/
theorem OnlyAt.raisesIn_motion {c₀ : JobView} (h : OnlyAt cfg env c₀ f) (hf : f ∈ motionSteps)
    (htask : c.tasks .motionScan = some .created) :
    RaisesIn cfg env .motionScan c (statusAt cfg env c₀ f) := by
  have hactive : Evals (inactiveReason env .motionScan) c (.ok none) c := Evals.pure _ _
  have hscan := @evals_runMotionScan env (c.setTask .motionScan ScaleTaskRow.created.started)
  obtain ⟨e, he⟩ := Option.ne_none_iff_exists'.mp h.raised
  let c₁ := persistTriggers env (c.setTask .motionScan ScaleTaskRow.created.started)
  have htasks : c₁.tasks = (c.setTask .motionScan ScaleTaskRow.created.started).tasks := rfl
  have hjob : c₁.job = c.job := rfl
  have hrun : env.raises .motionScan = none → Evals (runScale cfg env .motionScan)
      (c.setTask .motionScan ScaleTaskRow.created.started) (.ok (motionResult env)) c₁ := by
    intro hnone
    rw [hnone] at hscan
    exact hscan.bind (Evals.pure _ _)
  simp only [motionSteps, List.mem_cons, List.not_mem_nil, or_false] at hf
  rcases hf with rfl | rfl | rfl | rfl | rfl
  · exact RaisesIn.transition hactive htask he
  · exact RaisesIn.runningEvent hactive htask (h.others (.write (.scaleRunning _)) (by decide)) he
  · rw [show env.raises .motionScan = some e from he] at hscan
    exact RaisesIn.processor hactive htask (h.others (.write (.scaleRunning _)) (by decide))
      (h.others (.step (.scaleRunning _)) (by decide)) rfl rfl hscan.bind_error
  · exact RaisesIn.finalize hactive htask (h.others (.write (.scaleRunning _)) (by decide))
      (h.others (.step (.scaleRunning _)) (by decide)) htasks hjob
      (hrun (h.others (.step .motionScan) (by decide))) he
  · exact RaisesIn.finishedEvent hactive htask (h.others (.write (.scaleRunning _)) (by decide))
      (h.others (.step (.scaleRunning _)) (by decide)) htasks hjob
      (hrun (h.others (.step .motionScan) (by decide)))
      (h.others (.write (.finalizeScale _)) (by decide)) he

section HighFreq

variable {c₀ : JobView} (h : OnlyAt cfg env c₀ f)
  (htask : c.tasks .highFreqEvent = some .created)
  (hinput : c.planInput = (planView env c₀).planInput)

include h htask hinput

/-- `high_freq_event` has nothing to do, and its skip raises. -/
theorem OnlyAt.raisesIn_highFreqSkip (hnone : (planView env c₀).hasTriggers = false)
    (hf : f ∈ highFreqSkipSteps) : RaisesIn cfg env .highFreqEvent c (statusAt cfg env c₀ f) := by
  obtain ⟨e, he⟩ := Option.ne_none_iff_exists'.mp h.raised
  have hlookup : FaultAt.step .hasTriggers ≠ f := by
    rintro rfl
    simp [highFreqSkipSteps] at hf
  have hreason := evals_inactiveReason (h.others _ hlookup) .highFreqEvent c
  rw [inactiveIn, hasTriggers_of_planInput hinput, hnone, if_neg (by decide)] at hreason
  simp only [highFreqSkipSteps, List.mem_cons, List.not_mem_nil, or_false] at hf
  rcases hf with rfl | rfl
  · have heval : Evals (skipScaleTask cfg env .highFreqEvent .noMotionTrigger) c (.error e) c :=
      (evals_taskWrite_fault he).bind_error
    exact RaisesIn.of_task htask (hreason.bind heval.bind_error)
  · have heval : Evals (skipScaleTask cfg env .highFreqEvent .noMotionTrigger) c (.error e)
        (c.setTask .highFreqEvent
          (ScaleTaskRow.created.moveTo .skipped none (some .noMotionTrigger))) :=
      (evals_taskWrite_ok (h.others (.write (.skipScale _)) (by decide)) htask rfl).bind
        (evals_step_raise he _)
    exact ⟨e, _, _, hreason.bind heval.bind_error, rfl, rfl, rfl⟩

/-- `high_freq_event` runs on the sequential path, and one of its steps raises. -/
theorem OnlyAt.raisesIn_highFreqRun (hunits : ∀ k : UnitKey, k.scaleTask = none → c.units k = none)
    (hruns : highFreqRuns env c₀ = true) (hf : f ∈ highFreqRunSteps false) :
    RaisesIn cfg env .highFreqEvent c (statusAt cfg env c₀ f) := by
  obtain ⟨e, he⟩ := Option.ne_none_iff_exists'.mp h.raised
  have htriggers : (planView env c₀).hasTriggers = true := by
    rw [highFreqRuns, Bool.and_eq_true] at hruns
    exact hruns.2
  have hlookup : FaultAt.step .hasTriggers ≠ f := by
    rintro rfl
    revert hf
    decide
  have hreason := evals_inactiveReason (h.others _ hlookup) .highFreqEvent c
  rw [inactiveIn, hasTriggers_of_planInput hinput, htriggers, if_pos rfl] at hreason
  obtain ⟨us, hus⟩ := h.plannedHighFreq
  set c₁ := c.setTask .highFreqEvent ScaleTaskRow.created.started with hc₁
  have hplan := @evals_planHighFreq cfg env none c₁
  rw [hc₁, highFreqPlanOf_setTask, highFreqPlanOf_congr hinput, ← hc₁] at hplan
  have hplanned : env.raises (.plan .highFreqEvent) = none →
      highFreqPlanned cfg env c₀ = .ok us := by
    intro hnone
    rw [highFreqPlanned, highFreqPlanOf, hnone]
    exact hus
  -- the units of the plan have no rows, so none of them raises
  have hfresh : env.raises (.plan .highFreqEvent) = none → ∀ u ∈ us, c₁.units u.key = none :=
    fun hnone u hu => hunits _ ((planOf_highFreqPlanOf (hplanned hnone)).keys u hu).1
  have hno : env.raises (.plan .highFreqEvent) = none → ∀ u ∈ us, ¬ UnitEscapes env c₁ u :=
    fun hnone u hu hesc => h.units u ((unitEscapes_iff (hfresh hnone u hu)).mp hesc)
  have hrun : env.raises (.plan .highFreqEvent) = none →
      env.raises (.closeSession .highFreqEvent) = none →
      Evals (runScale cfg env .highFreqEvent) c₁ (.ok (freshResult env us)) (c₁.runUnits env us) := by
    intro hnone hclose
    rw [show highFreqPlanOf cfg env none (planView env c₀) = .ok us from hplanned hnone] at hplan
    rw [← tally_of_fresh (hfresh hnone)]
    exact evals_unitScale hplan (planOf_highFreqPlanOf (hplanned hnone)).nodup hclose (hno hnone)
  have htasks : (c₁.runUnits env us).tasks = c₁.tasks := rfl
  have hjob : (c₁.runUnits env us).job = c.job := rfl
  have hw := h.others (.write (.scaleRunning .highFreqEvent))
  have hs := h.others (.step (.scaleRunning .highFreqEvent))
  simp only [highFreqRunSteps, Bool.false_eq_true, if_false, List.cons_append, List.nil_append,
    List.mem_cons, List.not_mem_nil, or_false] at hf
  rcases hf with rfl | rfl | rfl | rfl | rfl | rfl
  · exact RaisesIn.transition hreason htask he
  · exact RaisesIn.runningEvent hreason htask (hw (by decide)) he
  · rw [highFreqPlanOf, show env.raises (.plan .highFreqEvent) = some e from he] at hplan
    exact RaisesIn.processor hreason htask (hw (by decide)) (hs (by decide)) rfl rfl
      hplan.bind_error
  · have hnone := h.others (.step (.plan .highFreqEvent)) (by decide)
    rw [show highFreqPlanOf cfg env none (planView env c₀) = .ok us from hplanned hnone] at hplan
    exact RaisesIn.processor hreason htask (hw (by decide)) (hs (by decide)) htasks hjob
      (evals_unitScale_close hplan (planOf_highFreqPlanOf (hplanned hnone)).nodup he (hno hnone))
  · exact RaisesIn.finalize hreason htask (hw (by decide)) (hs (by decide)) htasks hjob
      (hrun (h.others (.step (.plan _)) (by decide)) (h.others (.step (.closeSession _)) (by decide)))
      he
  · have hnone := h.others (.step (.plan .highFreqEvent)) (by decide)
    have hstatus : statusAt cfg env c₀ (.step (.scaleFinished .highFreqEvent))
        = (freshResult env us).status := by
      simp [statusAt, highFreqUnits, hruns, hplanned hnone, Except.toOption]
    rw [hstatus]
    exact RaisesIn.finishedEvent hreason htask (hw (by decide)) (hs (by decide)) htasks hjob
      (hrun hnone (h.others (.step (.closeSession _)) (by decide)))
      (h.others (.write (.finalizeScale _)) (by decide)) he

/-- `high_freq_event` on the sequential path, wherever its exception is raised,
from a view that planning sees like `planView`. -/
theorem OnlyAt.raisesIn_highFreq (hcross : cfg.crossScaleEnabled = false)
    (hf : Takes cfg env c₀ .highFreqEvent f)
    (hunits : ∀ k : UnitKey, k.scaleTask = none → c.units k = none) :
    RaisesIn cfg env .highFreqEvent c (statusAt cfg env c₀ f) := by
  cases hf with
  | lookup hs =>
      obtain ⟨e, he⟩ := Option.ne_none_iff_exists'.mp h.raised
      have hlookup := @evals_hasTriggers env c
      rw [show env.raises .hasTriggers = some e from he] at hlookup
      have hreason : Evals (inactiveReason env .highFreqEvent) c (.error e) c := hlookup.bind_error
      exact RaisesIn.of_task htask hreason.bind_error
  | skip hs hnone hf => exact h.raisesIn_highFreqSkip htask hinput hnone hf
  | run hs htr hf =>
      rw [hcross] at hf
      exact h.raisesIn_highFreqRun htask hinput hunits (by simp [highFreqRuns, hs, htr]) hf

end HighFreq

/-! ## The sequential path -/

/-- The scales behind `motion_scan`, as they are in a fresh job. -/
theorem continues_rest (hfresh : FreshView c) (hhigh : ScaleSteady cfg env .highFreqEvent)
    (hlow : ScaleSteady cfg env .lowFreqSummary) (htrig : env.raises .hasTriggers = none)
    (hhighTask : c₂.tasks .highFreqEvent = c.tasks .highFreqEvent)
    (hlowTask : c₂.tasks .lowFreqSummary = c.tasks .lowFreqSummary) (p : Bool) :
    ∃ q c₃, Continues cfg env (c.withTask .highFreqEvent (c.withTask .lowFreqSummary [])) p c₂ []
        (p || q) c₃ ∧ c₃.job = c₂.job ∧
      ∀ s, s ≠ .highFreqEvent → s ≠ .lowFreqSummary → c₃.tasks s = c₂.tasks s := by
  obtain ⟨q, c₃, hcont, hjob, hothers⟩ : ∃ q c₃,
      Continues cfg env (c.withTask .highFreqEvent (c.withTask .lowFreqSummary [])) p c₂
        (c.withTask .lowFreqSummary []) (p || q) c₃ ∧ c₃.job = c₂.job ∧
      ∀ s, s ≠ .highFreqEvent → c₃.tasks s = c₂.tasks s := by
    unfold JobState.withTask
    cases ht : c.tasks .highFreqEvent with
    | none =>
        refine ⟨false, c₂, ?_, rfl, fun _ _ => rfl⟩
        rw [Bool.or_false]
        exact fun r c' hrest => hrest
    | some t =>
        obtain rfl := hfresh.created _ t ht
        obtain ⟨q, t', units, hcont, -⟩ := hhigh.continues_highFreq
          (if (c.tasks .lowFreqSummary).isSome = true then [.lowFreqSummary] else []) p htrig
          (hhighTask.trans ht) (fun _ => rfl) fun _ => Or.inl rfl
        exact ⟨q, _, hcont, rfl, fun s hs => Function.update_of_ne hs _ _⟩
  have hlowCont := continues_low hlow hfresh [] (p || q)
    ((hothers _ (by decide)).trans hlowTask)
  refine ⟨q, _, hcont.trans hlowCont, hjob, fun s hs hs' => ?_⟩
  exact (Function.update_of_ne hs' _ _).trans (hothers s hs)

/-- The loop gets to an optional scale, which raises: the handler decides. -/
theorem sequential_raises {scales rest : List AnalysisScale} {p : Bool} {s : TaskStatus}
    (hsteady : JobSteady cfg env) (hfail : faultOf cfg env (.failScale scale) = none)
    (hevent : env.raises (.scaleFailed scale) = none) (hne : scale ≠ .defaultSegment)
    (hreach : Continues cfg env scales false c (scale :: rest) p c₂)
    (hraises : RaisesIn cfg env scale c₂ s) (hjob : c₂.job.jobStatus = .running)
    (hdefault : (c₂.tasks .defaultSegment).any (fun t => t.status.isTerminal) = true)
    (hrest : ∀ c₃ : JobView, (∀ s, s ≠ scale → c₃.tasks s = c₂.tasks s) →
      ∃ q c₄, Continues cfg env rest true c₃ [] (true || q) c₄ ∧ c₄.job = c₃.job ∧
        c₄.tasks .defaultSegment = c₃.tasks .defaultSegment ∧ c₄.tasks scale = c₃.tasks scale) :
    ∃ r c', Evals (processSequential cfg env scales) c r c' ∧
      (Isolated scale r c' ↔ legalTask s .failed = true) := by
  cases hlegal : legalTask s .failed with
  | true =>
      obtain ⟨c₃, t, hhandled, htasks, hfailed, hjob₃⟩ := hraises.handled hfail hevent hlegal
      obtain ⟨q, c₄, hcont, hjob₄, hdefault₄, hscale₄⟩ := hrest c₃ fun s hs => by
        rw [htasks, Function.update_of_ne hs]
      have hloop : Evals (sequentialLoop cfg env scales false) c (.ok (.ok true)) c₄ :=
        (hreach.trans ((hhandled.continues hne).trans hcont)) _ _ (Evals.pure _ _)
      have hreconcile := @evals_reconcile cfg env c₄
      rw [hsteady.reconcile] at hreconcile
      obtain ⟨c', hfinal, hended, hkept⟩ := @evals_finalizeJob cfg env (reconcileView env c₄) true
        hsteady.finalize hsteady.finishedEvent hsteady.taskFinishedEvent
        (by rw [← hjob, ← hjob₃, ← hjob₄]; rfl)
      replace hkept : c'.tasks = c₄.tasks := hkept
      refine ⟨.ok (), c', hloop.bind (hreconcile.bind hfinal), iff_of_true ?_ rfl⟩
      refine ⟨rfl, ?_, ?_, Or.inl hended.status⟩
      · rw [hkept, hdefault₄, htasks, Function.update_of_ne hne.symm]
        exact hdefault
      · rw [hkept, hscale₄, htasks, Function.update_self, Option.any_some, hfailed]
        rfl
  | false =>
      obtain ⟨e, hesc⟩ := hraises.escapes hfail hlegal
      obtain ⟨c', hloop⟩ : ∃ c', Evals (sequentialLoop cfg env (scale :: rest) p) c₂ (.error e) c' :=
        hesc.loop hne
      refine ⟨.error e, c', (hreach _ _ hloop).bind_error, iff_of_false (fun h => ?_) (by decide)⟩
      cases h.returns

/-- A view of the sequential loop behind its default scale. -/
structure PastBaseline (env : WorkerEnv) (c c₁ : JobView) : Prop where
  job : c₁.job.jobStatus = .running
  others : ∀ s, s ≠ .defaultSegment → c₁.tasks s = c.tasks s
  terminal : (c₁.tasks .defaultSegment).any (fun t => t.status.isTerminal) = true
  triggers : c₁.triggers = c.triggers
  video : c₁.video = (c.updateProbeMetadata env.durationMs).video
  units : ∀ k : UnitKey, k.scaleTask = none → c₁.units k = none

/-- The default scale of the loop gets to its tally. -/
theorem OnlyAt.continues_default (h : OnlyAt cfg env c f) (hf : f ∉ scaleSteps .defaultSegment)
    (hfresh : FreshView c) (hplan : defaultPlan cfg env = .ok us)
    (hbase : baselineEmpty (freshResult env us) = false) :
    ∃ p c₁, Continues cfg env c.scaleTasks false c (c.withTask .motionScan
      (c.withTask .highFreqEvent (c.withTask .lowFreqSummary []))) p c₁ ∧ PastBaseline env c c₁ := by
  have hruns := (defaultRuns_iff hfresh us).mpr ⟨hplan, fun u _ => h.units u⟩
  have heval := (h.ofScale hf).evals_processDefault_ok hfresh.required hruns
  have htally := @tally_of_fresh env (defaultStarted env .created c) us fun u _ => hfresh.fresh u.key
  rw [tally_of_fresh fun u _ => hfresh.fresh u.key] at heval
  set c₁ := unitScaleEnd env .defaultSegment us (defaultStarted env .created c) with hc₁
  have htasks : c₁.tasks = Function.update c.tasks .defaultSegment
      (some (freshResult env us).finishedRow) := by
    rw [hc₁, unitScaleEnd, htally, JobState.tasks_setTask]
    exact Function.update_idem ..
  rw [scaleTasks_of_required (by rw [hfresh.required]; rfl)]
  refine ⟨_, c₁, fun r c' => evals_loop_result heval fun hempty => ?_, hfresh.running, ?_, ?_, rfl,
    rfl, fun k hk => ?_⟩
  · rw [hbase] at hempty
    cases hempty.2
  · intro s hs
    rw [htasks, Function.update_of_ne hs]
  · rw [htasks, Function.update_self, Option.any_some]
    exact ScaleProcessResult.isTerminal_finishedRow _
  · have hnot : k ∉ us.map PlannedUnit.key := by
      intro hmem
      obtain ⟨v, hv, rfl⟩ := List.mem_map.mp hmem
      rw [((planOf_defaultPlan hplan).keys v hv).1] at hk
      cases hk
    exact (units_runUnits_of_not_mem hnot).trans (hfresh.fresh k)

section Sequential

variable (h : OnlyAt cfg env c f) (hfresh : FreshView c) (hplan : defaultPlan cfg env = .ok us)
  (hbase : baselineEmpty (freshResult env us) = false)

include h hfresh hplan hbase

theorem OnlyAt.sequential_motion (hs : (c.tasks .motionScan).isSome = true) (hf : f ∈ motionSteps) :
    ∃ r c', Evals (processSequential cfg env c.scaleTasks) c r c' ∧
      (Isolated .motionScan r c' ↔ legalTask (statusAt cfg env c f) .failed = true) := by
  have htakes : Takes cfg env c .motionScan f := .motion hs hf
  have hapart := htakes.apart
  obtain ⟨p, c₁, hreach, hpast⟩ := h.continues_default hapart.default hfresh hplan hbase
  rw [JobState.withTask, if_pos hs] at hreach
  refine sequential_raises (h.ofJob hapart.job) (h.others _ hapart.fail)
    (h.others _ hapart.failedEvent) (by decide) hreach
    (h.raisesIn_motion hf ((hpast.others _ (by decide)).trans (hfresh.task hs)))
    hpast.job hpast.terminal fun c₃ hc₃ => ?_
  obtain ⟨q, c₄, hcont, hjob, hkept⟩ := continues_rest hfresh (h.ofScale (hapart.highFreq rfl))
    (h.ofScale hapart.low) (h.others _ (hapart.lookup rfl))
    ((hc₃ _ (by decide)).trans (hpast.others _ (by decide)))
    ((hc₃ _ (by decide)).trans (hpast.others _ (by decide))) true
  exact ⟨q, c₄, hcont, hjob, hkept _ (by decide) (by decide), hkept _ (by decide) (by decide)⟩

theorem OnlyAt.sequential_highFreq (hcross : cfg.crossScaleEnabled = false)
    (htakes : Takes cfg env c .highFreqEvent f) :
    ∃ r c', Evals (processSequential cfg env c.scaleTasks) c r c' ∧
      (Isolated .highFreqEvent r c' ↔ legalTask (statusAt cfg env c f) .failed = true) := by
  have hapart := htakes.apart
  have hs : (c.tasks .highFreqEvent).isSome = true := by
    cases htakes <;> assumption
  obtain ⟨p, c₁, hreach, hpast⟩ := h.continues_default hapart.default hfresh hplan hbase
  have hmotion := hreach.trans (continues_motion (h.ofScale (hapart.motion rfl)) (hfresh.startable _) _ p
    (hpast.others _ (by decide)))
  set c₂ := motionPart env c₁ with hc₂
  have hothers : ∀ s, s ≠ .motionScan → c₂.tasks s = c₁.tasks s := by
    intro s hs
    rw [hc₂, tasks_motionPart, Function.update_of_ne hs]
  have hlowTask : c₂.tasks .lowFreqSummary = c.tasks .lowFreqSummary :=
    (hothers _ (by decide)).trans (hpast.others _ (by decide))
  have hraises := h.raisesIn_highFreq
    (((hothers _ (by decide)).trans (hpast.others _ (by decide))).trans (hfresh.task hs))
    (planInput_motionPart (hpast.others _ (by decide)) hpast.triggers hpast.video) hcross htakes
    fun k hk => by rw [units_motionPart, hpast.units k hk]
  have hreach₂ : Continues cfg env c.scaleTasks false c
      (.highFreqEvent :: c.withTask .lowFreqSummary []) (p || motionFailed env c) c₂ := by
    rwa [JobState.withTask, if_pos hs] at hmotion
  refine sequential_raises (h.ofJob hapart.job) (h.others _ hapart.fail)
    (h.others _ hapart.failedEvent) (by decide) hreach₂ hraises ?_ ?_ fun c₃ hc₃ => ?_
  · rw [hc₂, job_motionPart]
    exact hpast.job
  · rw [hothers _ (by decide)]
    exact hpast.terminal
  · have hlow := continues_low (h.ofScale hapart.low) hfresh [] true
      ((hc₃ _ (by decide)).trans hlowTask)
    have hkept : ∀ s, s ≠ .lowFreqSummary → (c₃.skipIf (c.tasks .lowFreqSummary).isSome
        .lowFreqSummary .notEnabled).tasks s = c₃.tasks s := fun s hs => Function.update_of_ne hs _ _
    exact ⟨false, _, hlow, rfl, hkept _ (by decide), hkept _ (by decide)⟩

end Sequential

/-! ## The cross-scale path -/

/-- A view of the cross-scale path behind `motion_scan`. -/
structure PastMotion (scales : List AnalysisScale) (c : JobView) : Prop where
  job : c.job.jobStatus = .running
  present : ∀ s, s ∈ scales ↔ (c.tasks s).isSome = true
  required : c.tasks .defaultSegment = some .created
  created : ∀ s t, s ≠ .motionScan → c.tasks s = some t → t = .created

theorem PastMotion.skippable {scales : List AnalysisScale} (h : PastMotion scales c)
    (hne : scale ≠ .motionScan) : Skippable c scale := by
  intro t ht _
  rw [h.created scale t hne ht]
  rfl

theorem PastMotion.startable {scales : List AnalysisScale} (h : PastMotion scales c)
    (hne : scale ≠ .motionScan) : Startable c scale := by
  intro t ht _
  rw [h.created scale t hne ht]
  rfl

/-- `motion_scan` of a fresh job is over, with a row if it had one. -/
theorem FreshView.pastMotion (h : FreshView c) (hjob : c₁.job.jobStatus = .running)
    (hmotion : (c₁.tasks .motionScan).isSome = (c.tasks .motionScan).isSome)
    (hothers : ∀ s, s ≠ .motionScan → c₁.tasks s = c.tasks s) : PastMotion c.scaleTasks c₁ where
  job := hjob
  present := by
    intro s
    rw [mem_scaleTasks]
    by_cases hs : s = .motionScan
    · rw [hs, hmotion]
    · rw [hothers s hs]
  required := (hothers _ (by decide)).trans h.required
  created s t hs ht := h.created s t ((hothers s hs).symm.trans ht)

theorem isolated_of_outcome {ds : ScaleProcessResult} {hs : Option ScaleProcessResult}
    (hstatus : c.job.jobStatus = jobOutcome (some ds) hs true)
    (hdefault : c.tasks .defaultSegment = some ds.finishedRow)
    (hscale : (c.tasks scale).any (fun t => t.status.isTerminal) = true) :
    Isolated scale (.ok ()) c := by
  refine ⟨rfl, ?_, hscale, ?_⟩
  · rw [hdefault, Option.any_some]
    exact ds.isTerminal_finishedRow
  · rw [hstatus, hdefault, jobOutcome, Option.any_some]
    by_cases hempty : baselineEmpty ds = true
    · rw [if_pos hempty]
      have hnone : ds.succeeded = 0 := (of_decide_eq_true hempty).2
      exact Or.inr ⟨rfl, decide_eq_true hnone⟩
    · rw [if_neg hempty]
      exact Or.inl rfl

/-- Phases 4 to 6, behind an optional scale that failed. -/
theorem PlannedView.isolated {hf : Option (List PlannedUnit)} (h : PlannedView cfg env us hf c)
    (hsteady : JobSteady cfg env) (hscales : faultOf cfg env .finalizeScales = none)
    (hevent : env.raises (.scaleFinished .defaultSegment) = none)
    (hevent' : env.raises (.scaleFinished .highFreqEvent) = none)
    (hne : scale ≠ .defaultSegment) (hhigh : scale = .highFreqEvent → hf = none)
    (hscale : (c.tasks scale).any (fun t => t.status.isTerminal) = true) :
    ∃ c', Evals (runPlanned cfg env (some us) hf true) c (.ok ()) c' ∧ Isolated scale (.ok ()) c' := by
  obtain ⟨c', heval, hstatus, -, htasks⟩ := hsteady.evals_runPlanned hscales hevent hevent' (some us)
    hf true h.plans h.job (fun _ => h.default) (fun hnone => by cases hnone) h.highFreq
  refine ⟨c', heval, isolated_of_outcome hstatus ?_ ?_⟩
  · rw [htasks, finalizedScales, JobState.tasks_finalizedScale_of_ne (by decide),
      JobState.tasks_finalizedScale_self]
    rfl
  · have hkept : c'.tasks scale = c.tasks scale := by
      rw [htasks, finalizedScales]
      by_cases hs : scale = .highFreqEvent
      · rw [hhigh hs, hs, scaleTally, Option.map_none, JobState.tasks_finalizedScale_self]
        exact JobState.tasks_finalizedScale_of_ne (by decide) _ _
      · rw [JobState.tasks_finalizedScale_of_ne hs, JobState.tasks_finalizedScale_of_ne hne]
    rw [hkept]
    exact hscale

section CrossScale

variable (h : OnlyAt cfg env c f) (hfresh : FreshView c)

include h hfresh

/-- The cross-scale path, where `motion_scan` raises. -/
theorem OnlyAt.crossScale_motion (hs : (c.tasks .motionScan).isSome = true) (hf : f ∈ motionSteps) :
    ∃ r c', Evals (processCrossScale cfg env c.scaleTasks) c r c' ∧
      (Isolated .motionScan r c' ↔ legalTask (statusAt cfg env c f) .failed = true) := by
  have htakes : Takes cfg env c .motionScan f := .motion hs hf
  have hapart := htakes.apart
  have hraises := h.raisesIn_motion hf (hfresh.task hs)
  have hmem : .motionScan ∈ c.scaleTasks := (mem_scaleTasks c _).mpr hs
  cases hlegal : legalTask (statusAt cfg env c f) .failed with
  | true =>
      obtain ⟨c₁, t, hhandled, htasks, hfailed, hjob⟩ :=
        hraises.handled (h.others _ hapart.fail) (h.others _ hapart.failedEvent) hlegal
      have hsteady := h.ofScale (hapart.highFreq rfl)
      have hdefault := h.ofScale hapart.default
      have hpast : PastMotion c.scaleTasks c₁ :=
        hfresh.pastMotion (hjob ▸ hfresh.running) (by rw [htasks, Function.update_self, hs]; rfl)
          fun s hs => by rw [htasks, Function.update_of_ne hs]
      have hskip : ∀ s, faultOf cfg env (.skipScale s) = none := fun s =>
        h.others (.write (.skipScale s)) (by rintro rfl; simp [motionSteps] at hf)
      have hevent : ∀ s, env.raises (.scaleSkipped s) = none := fun s =>
        h.others (.step (.scaleSkipped s)) (by rintro rfl; simp [motionSteps] at hf)
      have hscales : faultOf cfg env .finalizeScales = none :=
        h.others (.write .finalizeScales) (by rintro rfl; simp [motionSteps] at hf)
      obtain ⟨us, hplan⟩ := h.planned
      obtain ⟨c₃, hplanned, hrest⟩ := evals_toPlanning (p := true) hpast.present
        hpast.required rfl (hpast.skippable (by decide)) (hpast.skippable (by decide))
        (h.others _ (hapart.lookup rfl)) hskip hevent hdefault hplan
      obtain ⟨hf, c₄, hphase, hview, hmotion⟩ := evals_planHighFreqPhase_any hsteady hplanned
        hpast.job (hpast.startable (by decide)) hplan
      have hterminal : (c₄.tasks .motionScan).any (fun t => t.status.isTerminal) = true := by
        rw [hmotion, hplanned.motion, htasks, Function.update_self, Option.any_some, hfailed]
        rfl
      obtain ⟨c', heval, hisolated⟩ := hview.isolated (h.ofJob hapart.job) hscales
        hdefault.finishedEvent hsteady.finishedEvent (by decide) (by simp) hterminal
      exact ⟨.ok (), c', hrest (hhandled.motionPhase hmem) (hphase.bind heval),
        iff_of_true hisolated rfl⟩
  | false =>
      obtain ⟨e, hesc⟩ := hraises.escapes (h.others _ hapart.fail) hlegal
      obtain ⟨c', hphase⟩ := hesc.motionPhase hmem
      refine ⟨.error e, c', hphase.bind_error, iff_of_false (fun h => ?_) (by decide)⟩
      cases h.returns

omit hfresh in
/-- Phase 3 of `high_freq_event` raises under its handler. -/
theorem OnlyAt.planning_raises (hf : f ∈ [FaultAt.write (.scaleRunning .highFreqEvent),
      .step (.scaleRunning .highFreqEvent), .step (.plan .highFreqEvent)])
    {c₃ : JobView} (htask : c₃.tasks .highFreqEvent = some .created) :
    ∃ e c₄ t, Evals (do
        transitionRunning cfg env .highFreqEvent
        workerStep env (.scaleRunning .highFreqEvent)
        planHighFreq cfg env (some .highFreqEvent)) c₃ (.error e) c₄ ∧
      c₄.tasks = Function.update c₃.tasks .highFreqEvent (some t) ∧
      t.status = statusAt cfg env c f ∧ c₄.job = c₃.job := by
  obtain ⟨e, he⟩ := Option.ne_none_iff_exists'.mp h.raised
  simp only [List.mem_cons, List.not_mem_nil, or_false] at hf
  rcases hf with rfl | rfl | rfl
  · refine ⟨e, c₃, .created, (evals_taskWrite_fault he).bind_error, ?_, rfl, rfl⟩
    rw [← htask, Function.update_eq_self]
  · have hw : faultOf cfg env (.scaleRunning .highFreqEvent) = none :=
      h.others (.write (.scaleRunning _)) (by decide)
    refine ⟨e, _, _, (evals_transitionRunning hw htask rfl).bind
      (evals_step_raise he _).bind_error, rfl, ScaleTaskRow.status_started _, rfl⟩
  · have hw : faultOf cfg env (.scaleRunning .highFreqEvent) = none :=
      h.others (.write (.scaleRunning _)) (by decide)
    have hs : env.raises (.scaleRunning .highFreqEvent) = none :=
      h.others (.step (.scaleRunning _)) (by decide)
    have hplan := @evals_planHighFreq cfg env (some .highFreqEvent)
      (c₃.setTask .highFreqEvent ScaleTaskRow.created.started)
    rw [highFreqPlanOf, show env.raises (.plan .highFreqEvent) = some e from he] at hplan
    refine ⟨e, _, _, (evals_transitionRunning hw htask rfl).bind ((evals_step_ok hs _).bind hplan),
      rfl, ScaleTaskRow.status_started _, rfl⟩

omit hfresh in
/-- Phase 5 of a running `high_freq_event` raises. -/
theorem OnlyAt.finalizing_raises (hf : f ∈ [FaultAt.write .finalizeScales,
      .step (.scaleFinished .highFreqEvent)]) (he : f.fault cfg env = some e)
    {ds hs : ScaleProcessResult}
    (hdefault : ∃ t, c₁.tasks .defaultSegment = some t ∧ Running t)
    (hhigh : ∃ t, c₁.tasks .highFreqEvent = some t ∧ Running t) :
    ∃ c', Evals (finalizeScalesPhase cfg env (some ds) (some hs)) c₁ (.error e) c' := by
  have hwrite : Evals (writeSession cfg env .finalizeScales
      (finalizeScalesWrite (some ds) (some hs))) c₁ _ _ :=
    evals_writeSession _ (actsOn_finalizeScalesWrite _ _) (permanent_finalizeScalesWrite _ _) c₁
  simp only [List.mem_cons, List.not_mem_nil, or_false] at hf
  rcases hf with rfl | rfl
  · rw [show faultOf cfg env .finalizeScales = some e from he] at hwrite
    exact ⟨_, hwrite.bind_error⟩
  · rw [show faultOf cfg env .finalizeScales = none from h.others (.write _) (by decide),
      finalizeScalesWrite_of_running (fun _ => hdefault) fun _ => hhigh] at hwrite
    have hevent : env.raises (.scaleFinished .defaultSegment) = none :=
      h.others (.step (.scaleFinished _)) (by decide)
    exact ⟨_, hwrite.bind ((evals_stepIf hevent _).bind (evals_step_raise he _))⟩

section Planned

variable {c₃ : JobView} (hapart : Apart .highFreqEvent f) (hplan : defaultPlan cfg env = .ok us)
  (p : Bool) (hjob : c₃.job.jobStatus = .running)
  (hdefault : ∃ t, c₃.tasks .defaultSegment = some t ∧ Running t)
  (htask : c₃.tasks .highFreqEvent = some .created)

include hplan hjob hdefault htask

omit hfresh in
include hapart in
/-- From phase 3 on, where it raises under the handler. -/
theorem OnlyAt.planning_outcome (hf : f ∈ [FaultAt.write (.scaleRunning .highFreqEvent),
      .step (.scaleRunning .highFreqEvent), .step (.plan .highFreqEvent)]) :
    ∃ r c', Evals (do
        let hf ← planHighFreqPhase cfg env true
        runPlanned cfg env (some us) hf (p || (true && hf.isNone))) c₃ r c' ∧
      (Isolated .highFreqEvent r c' ↔ legalTask (statusAt cfg env c f) .failed = true) := by
  obtain ⟨e, c₄, t, hbody, htasks, hstatus, hjob₄⟩ := h.planning_raises hf htask
  have ht : c₄.tasks .highFreqEvent = some t := by rw [htasks, Function.update_self]
  rw [← hstatus]
  cases hlegal : legalTask t.status .failed with
  | true =>
      -- the handler marks the scale failed, and the other scales run
      have hfail := evals_failScaleTask_ok (e := e) (h.others _ hapart.fail)
        (h.others _ hapart.failedEvent) ht hlegal
      have hphase := evals_planHighFreqPhase_raise hbody hfail
      set c₅ := c₄.setTask .highFreqEvent (t.moveTo .failed (some (classifyError e)) none) with hc₅
      have hview : PlannedView cfg env us none c₅ := by
        refine ⟨by rw [hc₅]; exact hjob₄ ▸ hjob, ?_, ⟨fun us' hus' => ?_, fun v hv => ?_⟩,
          fun hsome => ?_⟩
        · rw [hc₅, JobState.tasks_setTask_of_ne (by decide), htasks,
            Function.update_of_ne (by decide)]
          exact hdefault
        · cases hus'
          exact hplan
        · cases hv
        · cases hsome
      have hall : ∀ f ∈ [FaultAt.write (.scaleRunning .highFreqEvent),
          .step (.scaleRunning .highFreqEvent), .step (.plan .highFreqEvent)],
          .write .finalizeScales ≠ f ∧ .step (.scaleFinished .highFreqEvent) ≠ f := by decide
      have hterminal : (c₅.tasks .highFreqEvent).any (fun t => t.status.isTerminal) = true := by
        rw [hc₅, JobState.tasks_setTask_self, Option.any_some, ScaleTaskRow.status_moveTo]
        rfl
      obtain ⟨c', heval, hisolated⟩ := hview.isolated (h.ofJob hapart.job)
        (h.others _ (hall f hf).1) (h.ofScale hapart.default).finishedEvent
        (h.others _ (hall f hf).2) (by decide) (fun _ => rfl) hterminal
      refine ⟨.ok (), c', hphase.bind ?_, iff_of_true hisolated rfl⟩
      rw [Option.isNone_none, Bool.and_self, Bool.or_true]
      exact heval
  | false =>
      -- the handler raises itself, as a pending scale cannot fail
      obtain ⟨e', -, hfail⟩ := evals_failScaleTask_illegal (e := e) (h.others _ hapart.fail) ht hlegal
      have hphase := evals_planHighFreqPhase_raise hbody hfail
      refine ⟨.error e', c₄, hphase.bind_error, iff_of_false (fun h => ?_) (by decide)⟩
      cases h.returns

omit hfresh in
/-- From phase 3 on, where phase 5 raises. -/
theorem OnlyAt.finalizing_outcome (hinput : c₃.planInput = (planView env c).planInput)
    (hf : f ∈ [FaultAt.write .finalizeScales, .step (.scaleFinished .highFreqEvent)]) :
    ∃ e c', Evals (do
        let hf ← planHighFreqPhase cfg env true
        runPlanned cfg env (some us) hf (p || (true && hf.isNone))) c₃ (.error e) c' := by
  have hall : ∀ f ∈ [FaultAt.write .finalizeScales, .step (.scaleFinished .highFreqEvent)],
      .write (.scaleRunning .highFreqEvent) ≠ f ∧ .step (.scaleRunning .highFreqEvent) ≠ f ∧
        .step (.plan .highFreqEvent) ≠ f ∧ .write .reconcile ≠ f := by decide
  obtain ⟨hw, hs, hp, hreconcile⟩ := hall f hf
  obtain ⟨v, hv⟩ := h.plannedHighFreq
  have hplanned : highFreqPlanOf cfg env (some .highFreqEvent) c₃
      = .ok (v.map (PlannedUnit.inTask (some .highFreqEvent))) := by
    rw [highFreqPlanOf_congr hinput, highFreqPlanOf_inTask, highFreqPlanOf,
      show env.raises (.plan .highFreqEvent) = none from h.others _ hp]
    dsimp only
    rw [hv]
    rfl
  set c₄ := c₃.setTask .highFreqEvent ScaleTaskRow.created.started with hc₄
  have hbody : Evals (do
      transitionRunning cfg env .highFreqEvent
      workerStep env (.scaleRunning .highFreqEvent)
      planHighFreq cfg env (some .highFreqEvent)) c₃
      (.ok (v.map (PlannedUnit.inTask (some .highFreqEvent)))) c₄ := by
    have heval := @evals_planHighFreq cfg env (some .highFreqEvent) c₄
    rw [hc₄, highFreqPlanOf_setTask, hplanned, ← hc₄] at heval
    exact (evals_transitionRunning (h.others _ hw) htask rfl).bind
      ((evals_step_ok (h.others _ hs) _).bind heval)
  have hphase : Evals (planHighFreqPhase cfg env true) c₃
      (.ok (some (v.map (PlannedUnit.inTask (some .highFreqEvent))))) c₄ := by
    unfold planHighFreqPhase
    rw [if_pos rfl]
    exact hbody.attempt.bind (Evals.pure _ _)
  have hdefault₄ : ∃ t, c₄.tasks .defaultSegment = some t ∧ Running t := by
    rw [hc₄, JobState.tasks_setTask_of_ne (by decide)]
    exact hdefault
  have hhigh₄ : ∃ t, c₄.tasks .highFreqEvent = some t ∧ Running t :=
    ⟨_, JobState.tasks_setTask_self .., ScaleTaskRow.status_started _⟩
  have hview : PlannedView cfg env us (some (v.map (PlannedUnit.inTask (some .highFreqEvent)))) c₄ := by
    refine ⟨hjob, hdefault₄, ⟨fun us' hus' => ?_, fun v' hv' => ?_⟩, fun _ => hhigh₄⟩
    · cases hus'
      exact hplan
    · cases hv'
      exact hplanned
  obtain ⟨e, he⟩ := Option.ne_none_iff_exists'.mp h.raised
  obtain ⟨c', heval⟩ := hview.raises (h.others _ hreconcile)
    (p || (true && (some (v.map (PlannedUnit.inTask (some .highFreqEvent)))).isNone))
    fun c₁ htasks => h.finalizing_raises hf he (htasks ▸ hdefault₄) (htasks ▸ hhigh₄)
  exact ⟨e, c', hphase.bind heval⟩

end Planned

omit h in
theorem pastMotion_motionPart : PastMotion c.scaleTasks (motionPart env c) := by
  refine hfresh.pastMotion ?_ ?_ fun s hs => ?_
  · rw [job_motionPart]
    exact hfresh.running
  · rw [tasks_motionPart, Function.update_self, Option.isSome_map]
  · rw [tasks_motionPart, Function.update_of_ne hs]

omit h in
theorem created_motionPart (hs : (c.tasks .highFreqEvent).isSome = true) :
    (motionPart env c).tasks .highFreqEvent = some .created := by
  rw [tasks_motionPart, Function.update_of_ne (by decide)]
  exact hfresh.task hs

section Raises

variable (hcross : cfg.crossScaleEnabled = true) (hapart : Apart .highFreqEvent f)
  (hs : (c.tasks .highFreqEvent).isSome = true)

omit h hfresh in
/-- An exception that leaves the path is contained by no handler. -/
theorem isolated_iff_of_raise {e : Exn} {c' : JobView}
    (hnot : ¬ Contained cfg env c .highFreqEvent f)
    (heval : Evals (processCrossScale cfg env c.scaleTasks) c (.error e) c') :
    ∃ r c', Evals (processCrossScale cfg env c.scaleTasks) c r c' ∧
      (Isolated .highFreqEvent r c' ↔ Contained cfg env c .highFreqEvent f) :=
  ⟨.error e, c', heval, iff_of_false (fun h => by cases h.returns) hnot⟩

include hcross hapart hs

/-- Nothing handles an exception of the trigger lookup. -/
theorem OnlyAt.crossScale_lookup (hf : f = .step .hasTriggers) :
    ∃ r c', Evals (processCrossScale cfg env c.scaleTasks) c r c' ∧
      (Isolated .highFreqEvent r c' ↔ Contained cfg env c .highFreqEvent f) := by
  subst hf
  obtain ⟨e, he⟩ := Option.ne_none_iff_exists'.mp h.raised
  have hmotion := evals_motionPhase_startable (h.ofScale (hapart.motion rfl))
    (hfresh.startable _)
  have hlookup := @evals_hasTriggers env (motionPart env c)
  rw [show env.raises .hasTriggers = some e from he] at hlookup
  have hactive : Evals (highFreqActive env c.scaleTasks) (motionPart env c) (.error e)
      (motionPart env c) := by
    unfold highFreqActive
    rwa [if_pos ((mem_scaleTasks c _).mpr hs)]
  have hphase : Evals (skipPhase cfg env c.scaleTasks) (motionPart env c) (.error e)
      (motionPart env c) := hactive.bind_error
  refine isolated_iff_of_raise (fun hcontained => ?_) (hmotion.bind hphase.bind_error)
  exact absurd (hcontained.1 hcross rfl) (by decide)

/-- Nor one of skipping the scale. -/
theorem OnlyAt.crossScale_skip (hnone : (planView env c).hasTriggers = false)
    (hf : f ∈ highFreqSkipSteps) :
    ∃ r c', Evals (processCrossScale cfg env c.scaleTasks) c r c' ∧
      (Isolated .highFreqEvent r c' ↔ Contained cfg env c .highFreqEvent f) := by
  obtain ⟨e, he⟩ := Option.ne_none_iff_exists'.mp h.raised
  have hmotion := evals_motionPhase_startable (h.ofScale (hapart.motion rfl))
    (hfresh.startable _)
  have htask := @created_motionPart env c hfresh hs
  set c₁ := motionPart env c with hc₁
  have hlookup : FaultAt.step .hasTriggers ≠ f := by
    rintro rfl
    simp [highFreqSkipSteps] at hf
  have hactive := @evals_highFreqActive env (h.others _ hlookup) c.scaleTasks c₁
  rw [show c₁.hasTriggers = false from hnone, Bool.and_false] at hactive
  have hskip : ∃ c₂, Evals (skipScaleTaskIf cfg env
      (decide (.highFreqEvent ∈ c.scaleTasks) && !false) .highFreqEvent .noMotionTrigger) c₁
      (.error e) c₂ := by
    rw [decide_eq_true ((mem_scaleTasks c _).mpr hs)]
    simp only [highFreqSkipSteps, List.mem_cons, List.not_mem_nil, or_false] at hf
    rcases hf with rfl | rfl
    · exact ⟨c₁, (evals_taskWrite_fault he).bind_error⟩
    · exact ⟨_, (evals_taskWrite_ok (h.others (.write (.skipScale _)) (by decide)) htask rfl).bind
        (evals_step_raise he _)⟩
  obtain ⟨c₂, hskip⟩ := hskip
  have hphase : Evals (skipPhase cfg env c.scaleTasks) c₁ (.error e) c₂ :=
    hactive.bind hskip.bind_error
  refine isolated_iff_of_raise (fun hcontained => ?_) (hmotion.bind hphase.bind_error)
  have hguarded := hcontained.1 hcross rfl
  simp only [highFreqSkipSteps, List.mem_cons, List.not_mem_nil, or_false] at hf
  rcases hf with rfl | rfl
  · exact absurd hguarded (by decide)
  · exact absurd hguarded (by decide)

/-- Phase 3 has a handler for the scale, phase 5 has none. -/
theorem OnlyAt.crossScale_run (hsome : (planView env c).hasTriggers = true)
    (hf : f ∈ highFreqRunSteps cfg.crossScaleEnabled) :
    ∃ r c', Evals (processCrossScale cfg env c.scaleTasks) c r c' ∧
      (Isolated .highFreqEvent r c' ↔ Contained cfg env c .highFreqEvent f) := by
  have hmotion := evals_motionPhase_startable (h.ofScale (hapart.motion rfl))
    (hfresh.startable _)
  have hpast := @pastMotion_motionPart env c hfresh
  have htask := @created_motionPart env c hfresh hs
  set c₁ := motionPart env c with hc₁
  rw [hcross] at hf
  have hall : ∀ f ∈ highFreqRunSteps true, FaultAt.step .hasTriggers ≠ f ∧
      (∀ s, FaultAt.write (.skipScale s) ≠ f) ∧ ∀ s, FaultAt.step (.scaleSkipped s) ≠ f := by
    simp [highFreqRunSteps]
  obtain ⟨hlookup, hskip, hskipped⟩ := hall f hf
  have hdefault := h.ofScale hapart.default
  obtain ⟨us, hplan⟩ := h.planned
  obtain ⟨c₃, hplanned, hrest⟩ := evals_toPlanning (p := motionFailed env c)
    hpast.present hpast.required rfl (hpast.skippable (by decide))
    (hpast.skippable (by decide))
    (h.others _ hlookup) (fun s => h.others (.write (.skipScale s)) (hskip s))
    (fun s => h.others (.step (.scaleSkipped s)) (hskipped s)) hdefault hplan
  have htriggers : c₁.hasTriggers = true := hsome
  rw [htask, htriggers] at hrest
  have hsplit : f ∈ [FaultAt.write (.scaleRunning .highFreqEvent),
        .step (.scaleRunning .highFreqEvent), .step (.plan .highFreqEvent)] ∨
      f ∈ [FaultAt.write .finalizeScales, .step (.scaleFinished .highFreqEvent)] := by
    simpa [highFreqRunSteps, or_assoc] using hf
  have htask₃ := (hplanned.highFreq htriggers).trans htask
  have hjob₃ : c₃.job.jobStatus = .running := hplanned.job ▸ hpast.job
  rcases hsplit with hf | hf
  · obtain ⟨r, c', heval, hiff⟩ := h.planning_outcome hapart hplan (motionFailed env c)
      hjob₃ hplanned.default htask₃ hf
    refine ⟨r, c', hrest hmotion heval, hiff.trans ⟨fun hlegal => ⟨fun _ _ => hf, hlegal⟩, ?_⟩⟩
    exact fun hcontained => hcontained.2
  · obtain ⟨e', c', heval⟩ := h.finalizing_outcome hplan (motionFailed env c)
      hjob₃ hplanned.default htask₃ (hplanned.planInput.trans rfl) hf
    refine isolated_iff_of_raise (fun hcontained => ?_) (hrest hmotion heval)
    have hguarded := hcontained.1 hcross rfl
    simp only [List.mem_cons, List.not_mem_nil, or_false] at hf
    rcases hf with rfl | rfl
    · exact absurd hguarded (by decide)
    · exact absurd hguarded (by decide)

end Raises

/-- The cross-scale path, where `high_freq_event` raises. -/
theorem OnlyAt.crossScale_highFreq (hcross : cfg.crossScaleEnabled = true)
    (htakes : Takes cfg env c .highFreqEvent f) :
    ∃ r c', Evals (processCrossScale cfg env c.scaleTasks) c r c' ∧
      (Isolated .highFreqEvent r c' ↔ Contained cfg env c .highFreqEvent f) := by
  have hapart := htakes.apart
  cases htakes with
  | lookup hs => exact h.crossScale_lookup hfresh hcross hapart hs rfl
  | skip hs hnone hf => exact h.crossScale_skip hfresh hcross hapart hs hnone hf
  | run hs hsome hf => exact h.crossScale_run hfresh hcross hapart hs hsome hf

end CrossScale

/-! ## The whole run -/

/-- The run of a job down its path decides. -/
theorem isolated_iff_path {db : JobRows} {P : Prop} (hsteady : JobSteady cfg env)
    (hfresh : FreshJob db)
    (hpath : ∃ r c', Evals (if cfg.crossScaleEnabled = true then
        processCrossScale cfg env db.view.started.scaleTasks
      else processSequential cfg env db.view.started.scaleTasks) db.view.started r c' ∧
      (Isolated scale r c' ↔ P)) :
    Isolated scale (Act.exec (processClaimedTask cfg env) db).1
      (Act.exec (processClaimedTask cfg env) db).2 ↔ P := by
  obtain ⟨r, c', heval, hiff⟩ := hpath
  have hlegal : legalJob db.view.job.jobStatus .running = true := by
    rw [show db.view.job.jobStatus = .queued from hfresh.queued]
    rfl
  obtain ⟨hr, hc'⟩ := hsteady.evals_processClaimedTask hlegal heval db rfl
  rw [hr, ← hiff, ← hc']
  exact ⟨fun h => ⟨h.returns, h.default, h.optional, h.job⟩,
    fun h => ⟨h.returns, h.default, h.optional, h.job⟩⟩

/-- The one exception of a run stays with the optional scale that is processed
exactly when it is raised under the handler of the scale, while the scale task
may be failed. -/
theorem isolated_iff {db : JobRows} (hfresh : FreshJob db) (h : OnlyAt cfg env db.view.started f)
    (hpast : PastDefault cfg env) (htakes : Takes cfg env db.view.started scale f) :
    Isolated scale (Act.exec (processClaimedTask cfg env) db).1
        (Act.exec (processClaimedTask cfg env) db).2 ↔
      Contained cfg env db.view.started scale f := by
  refine isolated_iff_path (h.ofJob htakes.apart.job) hfresh ?_
  cases hcross : cfg.crossScaleEnabled with
  | false =>
      have hunder : UnderHandler cfg scale f := by
        rw [UnderHandler, hcross]
        exact fun hne => by cases hne
      obtain ⟨us, hplan, hbase⟩ := hpast hcross
      rw [if_neg (by decide)]
      have hpath : ∃ r c', Evals (processSequential cfg env db.view.started.scaleTasks)
          db.view.started r c' ∧ (Isolated scale r c' ↔
            legalTask (statusAt cfg env db.view.started f) .failed = true) := by
        cases id htakes with
        | motion hs hf => exact h.sequential_motion hfresh.freshView hplan hbase hs hf
        | lookup _ => exact h.sequential_highFreq hfresh.freshView hplan hbase hcross htakes
        | skip _ _ _ => exact h.sequential_highFreq hfresh.freshView hplan hbase hcross htakes
        | run _ _ _ => exact h.sequential_highFreq hfresh.freshView hplan hbase hcross htakes
      obtain ⟨r, c', heval, hiff⟩ := hpath
      exact ⟨r, c', heval, hiff.trans (and_iff_right hunder).symm⟩
  | true =>
      rw [if_pos rfl]
      cases id htakes with
      | motion hs hf =>
          obtain ⟨r, c', heval, hiff⟩ := h.crossScale_motion hfresh.freshView hs hf
          have hunder : UnderHandler cfg .motionScan f := fun _ hne => by cases hne
          exact ⟨r, c', heval, hiff.trans (and_iff_right hunder).symm⟩
      | lookup _ => exact h.crossScale_highFreq hfresh.freshView hcross htakes
      | skip _ _ _ => exact h.crossScale_highFreq hfresh.freshView hcross htakes
      | run _ _ _ => exact h.crossScale_highFreq hfresh.freshView hcross htakes

/-- A run in which step `s` raises, and every other step works. -/
def WorkerEnv.raisingAt (s : WorkerStep) : WorkerEnv :=
  { WorkerEnv.smooth with
    raises := fun s' => if s' = s then some ⟨.runtime, "step failed", false⟩ else none }

theorem onlyAt_raisingAt (b : Bool) {s : WorkerStep} (hs : s ≠ .plan .defaultSegment) :
    OnlyAt (.basic b) (.raisingAt s) JobRows.queuedJob.view.started (.step s) where
  raised := by simp [FaultAt.fault, WorkerEnv.raisingAt]
  others g hg := by
    cases g with
    | write w => rfl
    | step s' => exact if_neg fun hs' => hg (congrArg _ hs')
  planned := by
    have hnone : (WorkerEnv.raisingAt s).raises (.plan .defaultSegment) = none := if_neg hs.symm
    unfold defaultPlan
    rw [hnone]
    exact ⟨_, rfl⟩
  plannedHighFreq := ⟨[], by cases s <;> rfl⟩
  units _ hu := hu.elim (fun hclaim => hclaim rfl) fun hevent => hevent rfl

theorem isolated_motionScan :
    Isolated .motionScan
      (Act.exec (processClaimedTask (.basic true) (.raisingAt .motionScan)) .queuedJob).1
      (Act.exec (processClaimedTask (.basic true) (.raisingAt .motionScan)) .queuedJob).2 :=
  (isolated_iff freshJob_queuedJob (onlyAt_raisingAt true (by decide)) (fun hne => by cases hne)
    (.motion rfl (by decide))).mpr ⟨fun _ hne => (by cases hne), rfl⟩

/-- The lookup of the triggers raises, before the scale task is running. -/
theorem lookup_not_isolated :
    ¬ ∀ (cfg : WorkerConfig) (env : WorkerEnv) (db : JobRows) (scale : AnalysisScale) (f : FaultAt),
      FreshJob db → OnlyAt cfg env db.view.started f → PastDefault cfg env →
      Takes cfg env db.view.started scale f →
      Isolated scale (Act.exec (processClaimedTask cfg env) db).1
        (Act.exec (processClaimedTask cfg env) db).2 := by
  intro h
  have hisolated := h (.basic false) (.raisingAt .hasTriggers) .queuedJob .highFreqEvent
    (.step .hasTriggers) freshJob_queuedJob (onlyAt_raisingAt false (by decide))
    (fun _ => ⟨_, rfl, rfl⟩) (.lookup rfl)
  have hraised : (Act.exec (processClaimedTask (.basic false) (.raisingAt .hasTriggers)) .queuedJob).1
      ≠ .ok () := by decide +kernel
  exact hraised hisolated.returns

end CctvMemory.Worker
