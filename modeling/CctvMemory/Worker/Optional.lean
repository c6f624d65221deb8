import CctvMemory.Worker.Steady

/-!
# One optional scale in a run

What processing one optional scale does to the run around it, from any row: it
is processed, its failure is handled by `_fail_scale_task`, or that handler
itself meets an illegal transition and the exception leaves the run.
-/

namespace CctvMemory.Worker

variable {cfg : WorkerConfig} {env : WorkerEnv} {c c₁ c₂ c' : JobView} {scale : AnalysisScale}
  {t : ScaleTaskRow} {us : List PlannedUnit} {rest : List AnalysisScale} {p : Bool} {e : Exn}

/-! ## The loop around a scale -/

/-- `rest`, after the scale if the job has it. -/
def JobState.withTask (c : JobView) (scale : AnalysisScale) (rest : List AnalysisScale) :
    List AnalysisScale :=
  if (c.tasks scale).isSome = true then scale :: rest else rest

/-- The scale tasks of a job that has the required one. -/
theorem scaleTasks_of_required (h : (c.tasks .defaultSegment).isSome = true) :
    c.scaleTasks = .defaultSegment ::
      c.withTask .motionScan (c.withTask .highFreqEvent (c.withTask .lowFreqSummary [])) := by
  have hfilter : ∀ s rest, List.filter (fun s => (c.tasks s).isSome) (s :: rest)
      = c.withTask s (List.filter (fun s => (c.tasks s).isSome) rest) := fun s rest =>
    List.filter_cons
  rw [JobState.scaleTasks, scaleOrder, hfilter, hfilter, hfilter, hfilter, JobState.withTask,
    if_pos h]
  rfl

/-- The loop goes on from `c₁` with `p` over `scales` as from `c₂` with `q` over `rest`. -/
def Continues (cfg : WorkerConfig) (env : WorkerEnv) (scales : List AnalysisScale) (p : Bool)
    (c₁ : JobView) (rest : List AnalysisScale) (q : Bool) (c₂ : JobView) : Prop :=
  ∀ r c', Evals (sequentialLoop cfg env rest q) c₂ r c' →
    Evals (sequentialLoop cfg env scales p) c₁ r c'

theorem Continues.trans {scales rest rest' : List AnalysisScale} {p q r : Bool}
    {c₁ c₂ c₃ : JobView} (h : Continues cfg env scales p c₁ rest q c₂)
    (h' : Continues cfg env rest q c₂ rest' r c₃) : Continues cfg env scales p c₁ rest' r c₃ :=
  fun o c' hrest => h o c' (h' o c' hrest)

/-! ## Failures of a scale -/

/-- Processing the scale raises and the failure is recorded. -/
def FailureHandled (cfg : WorkerConfig) (env : WorkerEnv) (scale : AnalysisScale)
    (c c₂ : JobView) : Prop :=
  ∃ e c₁, Evals (processScaleTask cfg env scale) c (.error e) c₁ ∧
    Evals (failScaleTask cfg env scale e) c₁ (.ok ()) c₂

/-- Processing the scale raises and recording the failure raises `e`. -/
def FailureEscapes (cfg : WorkerConfig) (env : WorkerEnv) (scale : AnalysisScale)
    (c : JobView) (e : Exn) : Prop :=
  ∃ e₁ c₁ c₂, Evals (processScaleTask cfg env scale) c (.error e₁) c₁ ∧
    Evals (failScaleTask cfg env scale e₁) c₁ (.error e) c₂

namespace FailureHandled

theorem continues (h : FailureHandled cfg env scale c c₂) (hne : scale ≠ .defaultSegment) :
    Continues cfg env (scale :: rest) p c rest true c₂ := by
  obtain ⟨e, c₁, hx, hfail⟩ := h
  exact fun r c' hrest => evals_loop_failed hne hx hfail hrest

theorem motionPhase {scales : List AnalysisScale} (h : FailureHandled cfg env .motionScan c c₂)
    (hs : .motionScan ∈ scales) : Evals (motionPhase cfg env scales) c (.ok true) c₂ := by
  obtain ⟨e, c₁, hx, hfail⟩ := h
  unfold CctvMemory.Worker.motionPhase
  rw [if_pos hs]
  exact hx.attempt.bind (hfail.bind (Evals.pure _ _))

end FailureHandled

namespace FailureEscapes

theorem loop (h : FailureEscapes cfg env scale c e) (hne : scale ≠ .defaultSegment) :
    ∃ c', Evals (sequentialLoop cfg env (scale :: rest) p) c (.error e) c' := by
  obtain ⟨e₁, c₁, c₂, hx, hfail⟩ := h
  exact ⟨c₂, evals_loop_raised hne hx hfail⟩

theorem motionPhase {scales : List AnalysisScale} (h : FailureEscapes cfg env .motionScan c e)
    (hs : .motionScan ∈ scales) : ∃ c', Evals (motionPhase cfg env scales) c (.error e) c' := by
  obtain ⟨e₁, c₁, c₂, hx, hfail⟩ := h
  unfold CctvMemory.Worker.motionPhase
  rw [if_pos hs]
  exact ⟨c₂, hx.attempt.bind hfail.bind_error⟩

end FailureEscapes

/-- A failure is handled where the scale is running or failed. -/
theorem failureHandled_of_error (hfail : faultOf cfg env (.failScale scale) = none)
    (hevent : env.raises (.scaleFailed scale) = none)
    (hx : Evals (processScaleTask cfg env scale) c (.error e) c₁) (h : c₁.tasks scale = some t)
    (hlegal : legalTask t.status .failed = true) :
    FailureHandled cfg env scale c
      (c₁.setTask scale (t.moveTo .failed (some (classifyError e)) none)) :=
  ⟨e, c₁, hx, evals_failScaleTask_ok hfail hevent h hlegal⟩

theorem failureEscapes_of_error (hfail : faultOf cfg env (.failScale scale) = none)
    (hx : Evals (processScaleTask cfg env scale) c (.error e) c₁) (h : c₁.tasks scale = some t)
    (hlegal : legalTask t.status .failed = false) :
    ∃ e', e'.cls = .invalidStateTransition ∧ FailureEscapes cfg env scale c e' := by
  obtain ⟨e', hcls, heval⟩ := evals_failScaleTask_illegal (e := e) hfail h hlegal
  exact ⟨e', hcls, e, c₁, c₁, hx, heval⟩

/-! ## What a processor leaves -/

/-- `high_freq_event` touches the unit rows only. -/
theorem evals_runScale_highFreq (c : JobView) :
    ∃ r units, Evals (runScale cfg env .highFreqEvent) c r { c with units } := by
  have hplan := @evals_planHighFreq cfg env none c
  cases hp : highFreqPlanOf cfg env none c with
  | error e =>
      rw [hp] at hplan
      exact ⟨.error e, c.units, hplan.bind_error⟩
  | ok us =>
      rw [hp] at hplan
      have hnd := (planOf_highFreqPlanOf hp).nodup
      by_cases hesc : ∃ u ∈ us, UnitEscapes env c u
      · obtain ⟨e, units, heval⟩ := evals_unitScale_escape hplan hnd cfg .highFreqEvent
          hesc
        exact ⟨.error e, units, heval⟩
      · have hno : ∀ u ∈ us, ¬ UnitEscapes env c u := fun u hu hescapes => hesc ⟨u, hu, hescapes⟩
        cases hclose : env.raises (.closeSession .highFreqEvent) with
        | none => exact ⟨_, (c.runUnits env us).units, evals_unitScale hplan hnd hclose hno⟩
        | some e => exact ⟨_, (c.runUnits env us).units, evals_unitScale_close hplan hnd hclose hno⟩

/-! ## A scale without fault, from any row -/

theorem ScaleProcessResult.isTerminal_finishedRow (r : ScaleProcessResult) :
    r.finishedRow.status.isTerminal = true := by
  show r.status.isTerminal = true
  unfold ScaleProcessResult.status
  split
  · rfl
  · split <;> rfl

theorem ScaleTaskRow.isTerminal_failed (t : ScaleTaskRow) (ec : Option ErrorCode) :
    (t.moveTo .failed ec none).status.isTerminal = true := by
  rw [t.status_moveTo]
  rfl

namespace ScaleSteady

/-- A scale that may start is run and ends in a terminal status. -/
theorem continues_active (hsteady : ScaleSteady cfg env scale) (rest : List AnalysisScale)
    (p : Bool) (hne : scale ≠ .defaultSegment)
    (hactive : Evals (inactiveReason env scale) c (.ok none) c) (h : c.tasks scale = some t)
    (hlegal : legalTask t.status .running = true) {r : Except Exn ScaleProcessResult}
    (hrun : Evals (runScale cfg env scale) (c.setTask scale t.started) r c₁)
    (hrow : c₁.tasks scale = some t.started) :
    ∃ q t', Continues cfg env (scale :: rest) p c rest (p || q) (c₁.setTask scale t') ∧
      t'.status.isTerminal = true := by
  cases r with
  | ok res =>
      have heval := evals_processScaleTask_active hactive
        (evals_runActiveScale hsteady.running hsteady.runningEvent h hlegal hrun hrow
          t.status_started hsteady.finalize hsteady.finishedEvent)
      exact ⟨_, _, fun r c' hrest => evals_loop_result heval (fun hdef => hne hdef.1) hrest,
        res.isTerminal_finishedRow⟩
  | error e =>
      have heval := evals_processScaleTask_active hactive
        (evals_runActiveScale_error hsteady.running hsteady.runningEvent h hlegal hrun)
      have hhandled := failureHandled_of_error hsteady.fail hsteady.failedEvent heval hrow
        (by rw [t.status_started]; rfl)
      refine ⟨true, _, ?_, t.started.isTerminal_failed (some (classifyError e))⟩
      rw [Bool.or_true]
      exact hhandled.continues hne

/-- A scale with nothing to do ends skipped, or failed where it was left running. -/
theorem continues_skip (hsteady : ScaleSteady cfg env scale) (rest : List AnalysisScale)
    (p : Bool) (htrig : env.raises .hasTriggers = none) (hne : scale ≠ .defaultSegment)
    {reason : SkippedReason} (hinactive : inactiveIn c scale = some reason)
    (h : c.tasks scale = some t)
    (hlegal : legalTask t.status .skipped = true ∨ legalTask t.status .failed = true) :
    ∃ q t', Continues cfg env (scale :: rest) p c rest (p || q) (c.setTask scale t') ∧
      t'.status.isTerminal = true := by
  cases hskip : legalTask t.status .skipped with
  | true =>
      refine ⟨false, t.moveTo .skipped none (some reason), ?_, ?_⟩
      · rw [Bool.or_false]
        exact fun r c' hrest =>
          evals_loop_skipped (hsteady.evals_processSkip_ok htrig h hinactive hskip) hrest
      · rw [t.status_moveTo]
        rfl
  | false =>
      obtain ⟨e, -, heval⟩ := hsteady.evals_processSkip_illegal htrig h hinactive hskip
      have hfail : legalTask t.status .failed = true := by simpa [hskip] using hlegal
      have hhandled := failureHandled_of_error hsteady.fail hsteady.failedEvent heval h hfail
      refine ⟨true, _, ?_, t.isTerminal_failed (some (classifyError e))⟩
      rw [Bool.or_true]
      exact hhandled.continues hne

/-- `high_freq_event` ends in a terminal status if it may start, or be skipped. -/
theorem continues_highFreq (hsteady : ScaleSteady cfg env .highFreqEvent)
    (rest : List AnalysisScale) (p : Bool) (htrig : env.raises .hasTriggers = none)
    (h : c.tasks .highFreqEvent = some t)
    (hactive : c.hasTriggers = true → legalTask t.status .running = true)
    (hinactive : c.hasTriggers = false →
      legalTask t.status .skipped = true ∨ legalTask t.status .failed = true) :
    ∃ q t' units, Continues cfg env (.highFreqEvent :: rest) p c rest (p || q)
        (JobState.setTask { c with units } .highFreqEvent t') ∧ t'.status.isTerminal = true := by
  have hreason := evals_inactiveReason htrig .highFreqEvent c
  cases htr : c.hasTriggers with
  | true =>
      rw [inactiveIn, if_pos htr] at hreason
      obtain ⟨r, units, hrun⟩ := @evals_runScale_highFreq cfg env
        (c.setTask .highFreqEvent t.started)
      obtain ⟨q, t', hcont, hterm⟩ := hsteady.continues_active rest p (by decide)
        hreason h (hactive htr) hrun (by simp)
      have hset : JobState.setTask { c.setTask .highFreqEvent t.started with units } .highFreqEvent t'
          = JobState.setTask { c with units } .highFreqEvent t' := by
        simp [JobState.setTask]
      rw [hset] at hcont
      exact ⟨q, t', units, hcont, hterm⟩
  | false =>
      obtain ⟨q, t', hcont, hterm⟩ := hsteady.continues_skip rest p htrig
        (by decide) (show inactiveIn c .highFreqEvent = some .noMotionTrigger by
          simp [inactiveIn, htr]) h (hinactive htr)
      exact ⟨q, t', c.units, hcont, hterm⟩

end ScaleSteady

/-! ## Phase 2 -/

/-- The view with every inactive scale task skipped. -/
def JobState.skipInactive (c : JobView) : JobView :=
  { c with tasks := fun s => (c.tasks s).map fun t => match inactiveIn c s with
      | some reason => t.moveTo .skipped none (some reason)
      | none => t }

theorem JobState.ext_tasks {U : Type} {db db' : JobState U}
    (hrest : (db.job, db.triggers, db.queueTask, db.video)
      = (db'.job, db'.triggers, db'.queueTask, db'.video))
    (hunits : db.units = db'.units) (htasks : db.tasks = db'.tasks) : db = db' := by
  cases db
  cases db'
  simp_all

/-- A scale task skipped, or not. -/
def JobState.skipIf (b : Bool) (scale : AnalysisScale) (reason : SkippedReason) (c : JobView) :
    JobView :=
  { c with tasks := Function.update c.tasks scale ((c.tasks scale).map fun t =>
      if b = true then t.moveTo .skipped none (some reason) else t) }

theorem evals_skipIf (hskip : faultOf cfg env (.skipScale scale) = none)
    (hevent : env.raises (.scaleSkipped scale) = none) (b : Bool) (reason : SkippedReason)
    (h : b = true → ∃ t, c.tasks scale = some t ∧ legalTask t.status .skipped = true) :
    Evals (skipScaleTaskIf cfg env b scale reason) c (.ok ()) (c.skipIf b scale reason) := by
  unfold skipScaleTaskIf JobState.skipIf
  cases b with
  | false =>
      simp only [Bool.false_eq_true, if_false, Option.map_id', Function.update_eq_self]
      exact Evals.pure () c
  | true =>
      obtain ⟨t, ht, hlegal⟩ := h rfl
      rw [ht]
      exact evals_skipScaleTask_ok hskip hevent ht hlegal

/-- What an inactive scale task must show to be skipped. -/
def Skippable (c : JobView) (scale : AnalysisScale) : Prop :=
  ∀ t, c.tasks scale = some t → inactiveIn c scale ≠ none → legalTask t.status .skipped = true

/-- What an active scale task must show to be run. -/
def Startable (c : JobView) (scale : AnalysisScale) : Prop :=
  ∀ t, c.tasks scale = some t → inactiveIn c scale = none → legalTask t.status .running = true

section SkipPhase

variable {scales : List AnalysisScale} (hmem : ∀ s, s ∈ scales ↔ (c.tasks s).isSome = true)
  (htrig : env.raises .hasTriggers = none)
  (hskip : ∀ scale, faultOf cfg env (.skipScale scale) = none)
  (hevent : ∀ scale, env.raises (.scaleSkipped scale) = none)

include hmem htrig

theorem evals_skipPhase_active : Evals (highFreqActive env scales) c
    (.ok ((c.tasks .highFreqEvent).isSome && c.hasTriggers)) c := by
  have hactive := @evals_highFreqActive env htrig scales c
  rwa [Bool.eq_iff_iff.mpr (by rw [decide_eq_true_iff, hmem] :
    decide (.highFreqEvent ∈ scales) = true ↔ (c.tasks .highFreqEvent).isSome = true)] at hactive

include hskip hevent

theorem evals_skipPhase (hhighSkip : Skippable c .highFreqEvent)
    (hlowSkip : Skippable c .lowFreqSummary) :
    Evals (skipPhase cfg env scales) c
      (.ok ((c.tasks .highFreqEvent).isSome && c.hasTriggers)) c.skipInactive := by
  set active := (c.tasks .highFreqEvent).isSome && c.hasTriggers with hactive
  set b := decide (.highFreqEvent ∈ scales) && !active with hb
  set b' := decide (.lowFreqSummary ∈ scales) with hb'
  have hsome : ∀ s, s ∈ scales → ∃ t, c.tasks s = some t := fun s hs =>
    Option.isSome_iff_exists.mp ((hmem s).mp hs)
  have hfirst := evals_skipIf (c := c) (hskip .highFreqEvent) (hevent _) b .noMotionTrigger fun h => by
    rw [hb, Bool.and_eq_true, decide_eq_true_iff] at h
    obtain ⟨t, ht⟩ := hsome _ h.1
    refine ⟨t, ht, hhighSkip t ht ?_⟩
    have htriggers : c.hasTriggers = false := by simpa [hactive, ht] using h.2
    simp [inactiveIn, htriggers]
  set c₁ := c.skipIf b .highFreqEvent .noMotionTrigger with hc₁
  have hsecond : Evals (skipScaleTaskIf cfg env b' .lowFreqSummary .notEnabled) c₁ _ _ :=
    evals_skipIf (hskip _) (hevent _) b' .notEnabled fun h => by
    obtain ⟨t, ht⟩ := hsome _ (of_decide_eq_true h)
    refine ⟨t, ?_, hlowSkip t ht (by simp [inactiveIn])⟩
    rw [hc₁, JobState.skipIf]
    dsimp only
    rw [Function.update_of_ne (by decide), ht]
  have hend : c₁.skipIf b' .lowFreqSummary .notEnabled = c.skipInactive := by
    refine JobState.ext_tasks rfl rfl (funext fun s => ?_)
    rw [hc₁, JobState.skipIf, JobState.skipIf, JobState.skipInactive]
    dsimp only
    cases s with
    | defaultSegment | motionScan =>
        rw [Function.update_of_ne (by decide), Function.update_of_ne (by decide)]
        simp [inactiveIn]
    | highFreqEvent =>
        rw [Function.update_of_ne (by decide), Function.update_self]
        cases ht : c.tasks .highFreqEvent with
        | none => rfl
        | some t =>
            have hin : .highFreqEvent ∈ scales := (hmem _).mpr (by rw [ht]; rfl)
            cases htr : c.hasTriggers <;> simp [hb, hactive, hin, ht, htr, inactiveIn]
    | lowFreqSummary =>
        rw [Function.update_self, Function.update_of_ne (by decide)]
        cases ht : c.tasks .lowFreqSummary with
        | none => rfl
        | some t =>
            have hin : .lowFreqSummary ∈ scales := (hmem _).mpr (by rw [ht]; rfl)
            simp [hb', hin, inactiveIn]
  rw [← hend]
  exact (evals_skipPhase_active hmem htrig).bind (hfirst.bind (hsecond.bind (Evals.pure _ _)))

end SkipPhase

/-! ## Phases 3 to 6 -/

/-- A view in which the default scale was planned. -/
structure PastPlanning (env : WorkerEnv) (c₁ c₃ : JobView) : Prop where
  job : c₃.job = c₁.job
  default : ∃ t, c₃.tasks .defaultSegment = some t ∧ Running t
  motion : c₃.tasks .motionScan = c₁.tasks .motionScan
  highFreq : c₁.hasTriggers = true → c₃.tasks .highFreqEvent = c₁.tasks .highFreqEvent
  planInput : c₃.planInput = (c₁.updateProbeMetadata env.durationMs).planInput

/-- Phase 2 and the default plan of phase 3, behind `motion_scan`. -/
theorem evals_toPlanning {scales : List AnalysisScale} {p : Bool}
    (hmem : ∀ s, s ∈ scales ↔ (c₁.tasks s).isSome = true)
    (h : c₁.tasks .defaultSegment = some t) (hlegal : legalTask t.status .running = true)
    (hhighSkip : Skippable c₁ .highFreqEvent) (hlowSkip : Skippable c₁ .lowFreqSummary)
    (htrig : env.raises .hasTriggers = none)
    (hskip : ∀ scale, faultOf cfg env (.skipScale scale) = none)
    (hevent : ∀ scale, env.raises (.scaleSkipped scale) = none)
    (hsteady : ScaleSteady cfg env .defaultSegment) (hplan : defaultPlan cfg env = .ok us) :
    ∃ c₃, PastPlanning env c₁ c₃ ∧ ∀ {r : Except Exn Unit} {c₀ c' : JobView},
      Evals (motionPhase cfg env scales) c₀ (.ok p) c₁ →
      Evals (do
        let hf ← planHighFreqPhase cfg env ((c₁.tasks .highFreqEvent).isSome && c₁.hasTriggers)
        runPlanned cfg env (some us) hf
          (p || (((c₁.tasks .highFreqEvent).isSome && c₁.hasTriggers) && hf.isNone))) c₃ r c' →
      Evals (processCrossScale cfg env scales) c₀ r c' := by
  have hphase := evals_skipPhase hmem htrig hskip hevent hhighSkip hlowSkip
  have hrequired : c₁.skipInactive.tasks .defaultSegment = some t := by
    simp [JobState.skipInactive, h, inactiveIn]
  have hdefault := hsteady.evals_planDefaultPhase ((hmem _).mpr (by rw [h]; rfl)) hrequired hlegal
  rw [hplan] at hdefault
  refine ⟨defaultStarted env t c₁.skipInactive, ⟨rfl, ⟨t.started, ?_, t.status_started⟩, ?_,
    fun htr => ?_, rfl⟩,
    fun hmotion hrest => hmotion.bind (hphase.bind (hdefault.attempt.bind ?_))⟩
  · simp [defaultStarted, JobState.updateProbeMetadata]
  · simp [defaultStarted, JobState.updateProbeMetadata, JobState.skipInactive, inactiveIn]
  · simp [defaultStarted, JobState.updateProbeMetadata, JobState.skipInactive, inactiveIn, htr]
  · simp only [if_pos ((hmem .defaultSegment).mpr (by rw [h]; rfl))]
    exact hrest

/-- The plans of phase 3, behind the default one. -/
structure PlannedView (cfg : WorkerConfig) (env : WorkerEnv) (us : List PlannedUnit)
    (hf : Option (List PlannedUnit)) (c : JobView) : Prop where
  job : c.job.jobStatus = .running
  default : ∃ t, c.tasks .defaultSegment = some t ∧ Running t
  plans : PlansOf cfg env c (some us) hf
  highFreq : hf.isSome = true → ∃ t, c.tasks .highFreqEvent = some t ∧ Running t

/-- Phases 4 to 6 raise where phase 5 does. -/
theorem PlannedView.raises {hf : Option (List PlannedUnit)} (h : PlannedView cfg env us hf c)
    (hreconcile : faultOf cfg env .reconcile = none) (p : Bool)
    (hphase : ∀ c₁ : JobView, c₁.tasks = c.tasks → ∃ c', Evals (finalizeScalesPhase cfg env
      (scaleTally env c (some us)) (scaleTally env c hf)) c₁ (.error e) c') :
    ∃ c', Evals (runPlanned cfg env (some us) hf p) c (.error e) c' := by
  have hpool := @evals_reconcile cfg env (c.runUnits env (dispatched cfg (some us) hf))
  rw [hreconcile] at hpool
  obtain ⟨c', heval⟩ := hphase (reconcileView env (c.runUnits env (dispatched cfg (some us) hf))) rfl
  refine ⟨c', (evals_dispatchPhase h.plans.nodup_dispatched c).bind (hpool.bind ?_)⟩
  rw [← h.plans.scaleTally_default, ← h.plans.scaleTally_highFreq] at heval
  exact heval.bind_error

/-- `high_freq_event` raises in phase 3, under its handler. -/
theorem evals_planHighFreqPhase_raise {r : Except Exn Unit}
    (hbody : Evals (do
        transitionRunning cfg env .highFreqEvent
        workerStep env (.scaleRunning .highFreqEvent)
        planHighFreq cfg env (some .highFreqEvent)) c (.error e) c₁)
    (hfail : Evals (failScaleTask cfg env .highFreqEvent e) c₁ r c₂) :
    Evals (planHighFreqPhase cfg env true) c (r.map fun _ => none) c₂ := by
  unfold planHighFreqPhase
  rw [if_pos rfl]
  refine hbody.attempt.bind ?_
  cases r with
  | ok _ => exact hfail.bind (Evals.pure _ _)
  | error e' => exact hfail.bind_error

/-- `high_freq_event` of phase 3 without a fault. -/
theorem evals_planHighFreqPhase_any (hsteady : ScaleSteady cfg env .highFreqEvent)
    {c₃ : JobView} (hplanned : PastPlanning env c₁ c₃) (hjob₁ : c₁.job.jobStatus = .running)
    (hstart : Startable c₁ .highFreqEvent) (hplan : defaultPlan cfg env = .ok us) :
    ∃ hf c₄, Evals (planHighFreqPhase cfg env
        ((c₁.tasks .highFreqEvent).isSome && c₁.hasTriggers)) c₃ (.ok hf) c₄ ∧
      PlannedView cfg env us hf c₄ ∧ c₄.tasks .motionScan = c₃.tasks .motionScan := by
  have hjob : c₃.job.jobStatus = .running := hplanned.job ▸ hjob₁
  have hdefault : ∀ us', some us = some us' → defaultPlan cfg env = .ok us' := by
    rintro us' ⟨⟩
    exact hplan
  by_cases hactive : ((c₁.tasks .highFreqEvent).isSome && c₁.hasTriggers) = true
  · rw [hactive]
    obtain ⟨hsome, htr⟩ := Bool.and_eq_true_iff.mp hactive
    obtain ⟨t, ht⟩ := Option.isSome_iff_exists.mp hsome
    have heval := hsteady.evals_planHighFreqPhase ((hplanned.highFreq htr).trans ht)
      (hstart t ht (by rw [inactiveIn, if_pos htr]))
    cases hp : highFreqPlanOf cfg env (some .highFreqEvent) c₃ with
    | ok v =>
        rw [hp] at heval
        refine ⟨some v, _, heval, ⟨hjob, ?_, ⟨hdefault, ?_⟩, fun _ => ?_⟩, ?_⟩
        · obtain ⟨td, htd, hrun⟩ := hplanned.default
          exact ⟨td, (JobState.tasks_setTask_of_ne (by decide) _ _).trans htd, hrun⟩
        · rintro v' ⟨⟩
          exact hp
        · exact ⟨t.started, JobState.tasks_setTask_self .., t.status_started⟩
        · exact JobState.tasks_setTask_of_ne (by decide) _ _
    | error e =>
        rw [hp] at heval
        refine ⟨none, _, heval, ⟨hjob, ?_, ⟨hdefault, fun v hv => ?_⟩, fun hsome => ?_⟩, ?_⟩
        · obtain ⟨td, htd, hrun⟩ := hplanned.default
          exact ⟨td, (JobState.tasks_setTask_of_ne (by decide) _ _).trans htd, hrun⟩
        · cases hv
        · cases hsome
        · exact JobState.tasks_setTask_of_ne (by decide) _ _
  · rw [Bool.not_eq_true] at hactive
    rw [hactive]
    refine ⟨none, c₃, Evals.pure _ _,
      ⟨hjob, hplanned.default, ⟨hdefault, fun v hv => ?_⟩, fun hsome => ?_⟩, rfl⟩
    · cases hv
    · cases hsome

end CctvMemory.Worker
