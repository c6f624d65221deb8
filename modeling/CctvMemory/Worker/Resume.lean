import CctvMemory.Worker.Paths

/-!
# A task that is claimed again

`_process_claimed_task` issues every transition from scratch, whatever rows an
earlier run left. What decides whether a run from these rows comes to an end is
which transitions are legal from their statuses, on either path.

* `settled_iff`: from any rows, when the run ends without an illegal transition.
-/

namespace CctvMemory.Worker

variable {cfg : WorkerConfig} {env : WorkerEnv} {c c₁ c₂ c' : JobView} {scale : AnalysisScale}
  {t : ScaleTaskRow} {us : List PlannedUnit} {rest : List AnalysisScale} {p : Bool} {e : Exn}

/-! ## How a run ends -/

/-- No illegal transition escapes, the job is over and its queue task is not
running any more. -/
structure Settled {U : Type} (r : Except Exn Unit) (db : JobState U) : Prop where
  legal : ∀ e, r = .error e → e.cls ≠ .invalidStateTransition
  job : db.job.jobStatus.isTerminal = true
  queue : db.queueTask.status ≠ .running

/-- `P` decides whether the run of `x` from `c` settles. -/
def Decides (x : JobAct Unit) (c : JobView) (P : Prop) : Prop :=
  ∃ r c', Evals x c r c' ∧ (Settled r c' ↔ P)

section Decides

variable {x : JobAct Unit} {P : Prop}

theorem decides_ended (hP : P) (heval : Evals x c (.ok ()) c')
    (hjob : c'.job.jobStatus.isTerminal = true) (hqueue : c'.queueTask.status ≠ .running) :
    Decides x c P := by
  refine ⟨.ok (), c', heval, iff_of_true ⟨fun e he => ?_, hjob, hqueue⟩ hP⟩
  cases he

theorem decides_illegal (hP : ¬ P) (heval : Evals x c (.error e) c')
    (hcls : e.cls = .invalidStateTransition) : Decides x c P :=
  ⟨.error e, c', heval, iff_of_false (fun h => h.legal e rfl hcls) hP⟩

theorem isTerminal_finishedStatus (p : Bool) : (finishedStatus p).isTerminal = true := by
  cases p <;> rfl

theorem isTerminal_jobOutcome (ds hs : Option ScaleProcessResult) (p : Bool) :
    (jobOutcome ds hs p).isTerminal = true := by
  unfold jobOutcome
  split
  · rfl
  · exact isTerminal_finishedStatus _

end Decides

/-! ## Illegal transitions -/

theorem not_legal_failed {s : TaskStatus} (h : legalTask s .running = false) :
    legalTask s .failed = false := by
  revert h
  cases s <;> decide

/-- What an inactive scale task must show in the sequential loop: it may be
skipped, or its handler may fail it. -/
def Droppable (c : JobView) (scale : AnalysisScale) : Prop :=
  ∀ t, c.tasks scale = some t → inactiveIn c scale ≠ none →
    legalTask t.status .skipped = true ∨ legalTask t.status .failed = true

theorem not_startable (h : ¬ Startable c scale) : ∃ t, c.tasks scale = some t ∧
    inactiveIn c scale = none ∧ legalTask t.status .running = false := by
  unfold Startable at h
  push Not at h
  obtain ⟨t, ht, hactive, hlegal⟩ := h
  exact ⟨t, ht, hactive, Bool.not_eq_true _ ▸ hlegal⟩

theorem not_skippable (h : ¬ Skippable c scale) : ∃ t reason, c.tasks scale = some t ∧
    inactiveIn c scale = some reason ∧ legalTask t.status .skipped = false := by
  unfold Skippable at h
  push Not at h
  obtain ⟨t, ht, hinactive, hlegal⟩ := h
  obtain ⟨reason, hreason⟩ := Option.ne_none_iff_exists'.mp hinactive
  exact ⟨t, reason, ht, hreason, Bool.not_eq_true _ ▸ hlegal⟩

theorem not_droppable (h : ¬ Droppable c scale) : ∃ t reason, c.tasks scale = some t ∧
    inactiveIn c scale = some reason ∧ legalTask t.status .skipped = false ∧
    legalTask t.status .failed = false := by
  unfold Droppable at h
  push Not at h
  obtain ⟨t, ht, hinactive, hskip, hfail⟩ := h
  obtain ⟨reason, hreason⟩ := Option.ne_none_iff_exists'.mp hinactive
  exact ⟨t, reason, ht, hreason, Bool.not_eq_true _ ▸ hskip, Bool.not_eq_true _ ▸ hfail⟩

theorem inactiveIn_congr (h : c₁.hasTriggers = c.hasTriggers) (scale : AnalysisScale) :
    inactiveIn c₁ scale = inactiveIn c scale := by
  cases scale with
  | highFreqEvent =>
      unfold inactiveIn
      rw [h]
  | defaultSegment | motionScan | lowFreqSummary => rfl

/-- An optional scale may be processed in the sequential loop. -/
structure Processable (c : JobView) (scale : AnalysisScale) : Prop where
  start : Startable c scale
  drop : Droppable c scale

theorem Processable.congr (htask : c₁.tasks scale = c.tasks scale)
    (hinactive : inactiveIn c₁ scale = inactiveIn c scale) :
    Processable c₁ scale ↔ Processable c scale := by
  have hstart : Startable c₁ scale ↔ Startable c scale := by
    unfold Startable
    rw [htask, hinactive]
  have hdrop : Droppable c₁ scale ↔ Droppable c scale := by
    unfold Droppable
    rw [htask, hinactive]
  exact ⟨fun h => ⟨hstart.mp h.start, hdrop.mp h.drop⟩,
    fun h => ⟨hstart.mpr h.start, hdrop.mpr h.drop⟩⟩

/-- An exception is illegal and leaves the run, the handler of the scale with it. -/
def EscapesIllegally (cfg : WorkerConfig) (env : WorkerEnv) (scale : AnalysisScale)
    (c : JobView) : Prop :=
  ∃ e, e.cls = .invalidStateTransition ∧ FailureEscapes cfg env scale c e

theorem ScaleSteady.escapes_start (hsteady : ScaleSteady cfg env scale)
    (htrig : env.raises .hasTriggers = none) (h : ¬ Startable c scale) :
    EscapesIllegally cfg env scale c := by
  obtain ⟨t, ht, hactive, hlegal⟩ := not_startable h
  obtain ⟨e, -, heval⟩ := hsteady.evals_processScaleTask_illegal htrig ht hactive hlegal
  exact failureEscapes_of_error hsteady.fail heval ht (not_legal_failed hlegal)

theorem ScaleSteady.escapes_drop (hsteady : ScaleSteady cfg env scale)
    (htrig : env.raises .hasTriggers = none) (h : ¬ Droppable c scale) :
    EscapesIllegally cfg env scale c := by
  obtain ⟨t, reason, ht, hinactive, hskip, hfail⟩ := not_droppable h
  obtain ⟨e, -, heval⟩ := hsteady.evals_processSkip_illegal htrig ht hinactive hskip
  exact failureEscapes_of_error hsteady.fail heval ht hfail

theorem ScaleSteady.escapes (hsteady : ScaleSteady cfg env scale)
    (htrig : env.raises .hasTriggers = none) (h : ¬ Processable c scale) :
    EscapesIllegally cfg env scale c := by
  by_cases hstart : Startable c scale
  · exact hsteady.escapes_drop htrig fun hdrop => h ⟨hstart, hdrop⟩
  · exact hsteady.escapes_start htrig hstart

/-- Only a scale task that exists escapes. -/
theorem isSome_of_not_processable (h : ¬ Processable c scale) : (c.tasks scale).isSome = true := by
  cases ht : c.tasks scale with
  | some t => rfl
  | none =>
      refine absurd ⟨fun t ht' => ?_, fun t ht' => ?_⟩ h
      · rw [ht] at ht'
        cases ht'
      · rw [ht] at ht'
        cases ht'

/-! ## The sequential path -/

/-- The default scale gets to a tally with a record, or none to make. -/
def DefaultTallies (cfg : WorkerConfig) (env : WorkerEnv) (c : JobView) : Prop :=
  ∃ t us, c.tasks .defaultSegment = some t ∧ DefaultRuns cfg env t c us ∧
    baselineEmpty (.tally (us.map (unitTally env c))) = false

/-- The optional scales of the sequential loop may be processed. -/
structure SequentialResumes (env : WorkerEnv) (c : JobView) : Prop where
  motion : Processable c .motionScan
  highFreq : Processable (motionPart env c) .highFreqEvent
  low : Processable c .lowFreqSummary

theorem tasks_motionPart_of_ne (hne : scale ≠ .motionScan) (c : JobView) :
    (motionPart env c).tasks scale = c.tasks scale := by
  rw [tasks_motionPart, Function.update_of_ne hne]

/-- A view behind the default scale of the loop. -/
structure BehindDefault (env : WorkerEnv) (c c₁ : JobView) : Prop where
  job : c₁.job = c.job
  others : ∀ s, s ≠ .defaultSegment → c₁.tasks s = c.tasks s
  triggers : c₁.triggers = c.triggers
  video : c₁.video = (c.updateProbeMetadata env.durationMs).video

section Sequential

variable (hsteady : Steady cfg env)

include hsteady

/-- The loop stops at the default scale: the required failure. -/
theorem evals_loop_noTally (hrequired : (c.tasks .defaultSegment).isSome = true)
    (h : ¬ DefaultTallies cfg env c) (rest : List AnalysisScale) :
    ∃ e c', Evals (sequentialLoop cfg env (.defaultSegment :: rest) false) c (.ok (.error e)) c' ∧
      c'.job = c.job := by
  obtain ⟨t, ht⟩ := Option.isSome_iff_exists.mp hrequired
  by_cases hruns : ∃ us, DefaultRuns cfg env t c us
  · obtain ⟨us, hruns⟩ := hruns
    have hempty : baselineEmpty (.tally (us.map (unitTally env c))) = true := by
      by_contra hne
      exact h ⟨t, us, ht, hruns, Bool.not_eq_true _ ▸ hne⟩
    exact ⟨_, _, evals_loop_baseline ((hsteady.ofScale _).evals_processDefault_ok ht hruns) hempty,
      rfl⟩
  · obtain ⟨e, c', heval, hjob⟩ := (hsteady.ofScale _).evals_processDefault_error ht hruns
    exact ⟨e, c', evals_loop_required heval, hjob⟩

theorem continues_tallies (h : DefaultTallies cfg env c) (rest : List AnalysisScale) :
    ∃ p c₁, Continues cfg env (.defaultSegment :: rest) false c rest p c₁ ∧
      BehindDefault env c c₁ := by
  obtain ⟨t, us, ht, hruns, hbase⟩ := h
  have heval := (hsteady.ofScale _).evals_processDefault_ok ht hruns
  refine ⟨_, _, fun r c' => evals_loop_result heval fun hempty => ?_, rfl, fun s hs => ?_, rfl, rfl⟩
  · rw [hbase] at hempty
    cases hempty.2
  · exact (JobState.tasks_setTask_of_ne hs _ _).trans (JobState.tasks_setTask_of_ne hs _ _)

/-- A scale that may not be processed ends the run. -/
theorem evals_loop_escapes (h : ¬ Processable c₁ scale) (htask : c₁.tasks scale = c.tasks scale)
    (hne : scale ≠ .defaultSegment) (rest : List AnalysisScale) (p : Bool) :
    ∃ e c', e.cls = .invalidStateTransition ∧
      Evals (sequentialLoop cfg env (c.withTask scale rest) p) c₁ (.error e) c' := by
  obtain ⟨e, hcls, hesc⟩ := (hsteady.ofScale scale).escapes hsteady.hasTriggers h
  obtain ⟨c', heval⟩ : ∃ c', Evals (sequentialLoop cfg env (scale :: rest) p) c₁ (.error e) c' :=
    hesc.loop hne
  refine ⟨e, c', hcls, ?_⟩
  rwa [JobState.withTask, if_pos (htask ▸ isSome_of_not_processable h)]

/-- `high_freq_event` and `low_freq_summary`, where they may be processed. -/
theorem continues_processable (h : Processable c₁ scale) (htask : c₁.tasks scale = c.tasks scale)
    (hscale : scale = .highFreqEvent ∨ scale = .lowFreqSummary) (rest : List AnalysisScale)
    (p : Bool) :
    ∃ q c₂, Continues cfg env (c.withTask scale rest) p c₁ rest q c₂ ∧ c₂.job = c₁.job ∧
      ∀ s, s ≠ scale → c₂.tasks s = c₁.tasks s := by
  unfold JobState.withTask
  rw [← htask]
  cases ht : c₁.tasks scale with
  | none => exact ⟨p, c₁, fun r c' hrest => hrest, rfl, fun _ _ => rfl⟩
  | some t =>
      rw [if_pos (by rfl)]
      rcases hscale with rfl | rfl
      · obtain ⟨q, t', units, hcont, -⟩ := (hsteady.ofScale _).continues_highFreq rest p
          hsteady.hasTriggers ht
          (fun htr => h.start t ht (by rw [inactiveIn, if_pos htr]))
          fun htr => h.drop t ht (by simp [inactiveIn, htr])
        exact ⟨_, _, hcont, rfl, fun s hs => Function.update_of_ne hs _ _⟩
      · obtain ⟨q, t', hcont, -⟩ := (hsteady.ofScale _).continues_skip rest p hsteady.hasTriggers
          (by decide) rfl ht (h.drop t ht (by simp [inactiveIn]))
        exact ⟨_, _, hcont, rfl, fun s hs => Function.update_of_ne hs _ _⟩

theorem decides_sequential (hjob : c.job.jobStatus = .running)
    (hrequired : (c.tasks .defaultSegment).isSome = true) :
    Decides (processSequential cfg env c.scaleTasks) c
      (DefaultTallies cfg env c → SequentialResumes env c) := by
  rw [scaleTasks_of_required hrequired]
  set highRest := c.withTask .highFreqEvent (c.withTask .lowFreqSummary []) with hhighRest
  by_cases htally : DefaultTallies cfg env c
  swap
  · obtain ⟨e, c', hloop, hjob'⟩ := evals_loop_noTally hsteady hrequired htally
      (c.withTask .motionScan highRest)
    obtain ⟨c'', heval, hended, -⟩ := @evals_handleRequiredFailure cfg env c' e
      hsteady.job.required hsteady.job.requiredEvent hsteady.job.failedEvent
      hsteady.job.taskFailedEvent (hjob' ▸ hjob)
    exact decides_ended (fun h => absurd h htally) (hloop.bind heval)
      (by rw [hended.status]; rfl) hended.queue
  obtain ⟨p, c₁, hdefault, hbehind⟩ := continues_tallies hsteady htally
    (c.withTask .motionScan highRest)
  have hmotionTask := hbehind.others .motionScan (by decide)
  have hmotion₁ : Processable c₁ .motionScan ↔ Processable c .motionScan :=
    Processable.congr hmotionTask rfl
  by_cases hmotion : Processable c .motionScan
  swap
  · obtain ⟨e, c', hcls, hloop⟩ := evals_loop_escapes hsteady (hmotion₁.not.mpr hmotion)
      hmotionTask (by decide) highRest p
    exact decides_illegal (fun h => hmotion (h htally).motion) (hdefault _ _ hloop).bind_error hcls
  -- behind `motion_scan`, the triggers are those of `motionPart`
  have hreach := hdefault.trans (continues_motion (hsteady.ofScale _) hmotion.start highRest p
    hmotionTask)
  set c₂ := motionPart env c₁ with hc₂
  have htask₂ : ∀ s, s ≠ .motionScan → s ≠ .defaultSegment → c₂.tasks s = c.tasks s :=
    fun s hs hs' => (tasks_motionPart_of_ne hs c₁).trans (hbehind.others s hs')
  have htriggers : c₂.hasTriggers = (motionPart env c).hasTriggers :=
    hasTriggers_of_planInput (planInput_motionPart hmotionTask hbehind.triggers hbehind.video)
  have hhigh₂ : Processable c₂ .highFreqEvent ↔ Processable (motionPart env c) .highFreqEvent :=
    Processable.congr ((htask₂ _ (by decide) (by decide)).trans
      (tasks_motionPart_of_ne (by decide) c).symm) (inactiveIn_congr htriggers _)
  by_cases hhigh : Processable (motionPart env c) .highFreqEvent
  swap
  · obtain ⟨e, c', hcls, hloop⟩ := evals_loop_escapes hsteady (hhigh₂.not.mpr hhigh)
      (htask₂ _ (by decide) (by decide)) (by decide) (c.withTask .lowFreqSummary [])
      (p || motionFailed env c)
    exact decides_illegal (fun h => hhigh (h htally).highFreq) (hreach _ _ hloop).bind_error hcls
  obtain ⟨q, c₃, hcont, hjob₃, hothers₃⟩ := continues_processable hsteady (hhigh₂.mpr hhigh)
    (htask₂ _ (by decide) (by decide)) (Or.inl rfl) (c.withTask .lowFreqSummary [])
    (p || motionFailed env c)
  have hlowTask : c₃.tasks .lowFreqSummary = c.tasks .lowFreqSummary :=
    (hothers₃ _ (by decide)).trans (htask₂ _ (by decide) (by decide))
  have hlow₃ : Processable c₃ .lowFreqSummary ↔ Processable c .lowFreqSummary :=
    Processable.congr hlowTask rfl
  by_cases hlow : Processable c .lowFreqSummary
  swap
  · obtain ⟨e, c', hcls, hloop⟩ := evals_loop_escapes hsteady (hlow₃.not.mpr hlow) hlowTask
      (by decide) [] q
    exact decides_illegal (fun h => hlow (h htally).low)
      (hreach _ _ (hcont _ _ hloop)).bind_error hcls
  obtain ⟨q', c₄, hcont', hjob₄, -⟩ := continues_processable hsteady (hlow₃.mpr hlow) hlowTask
    (Or.inr rfl) [] q
  have hloop := hreach _ _ (hcont _ _ (hcont' _ _ (Evals.pure (Except.ok q') c₄)))
  have hreconcile := @evals_reconcile cfg env c₄
  rw [hsteady.job.reconcile] at hreconcile
  have hrunning : c₄.job.jobStatus = .running := by
    rw [hjob₄, hjob₃, hc₂, job_motionPart, hbehind.job]
    exact hjob
  obtain ⟨c', hfinal, hended, -⟩ := @evals_finalizeJob cfg env (reconcileView env c₄) q'
    hsteady.job.finalize hsteady.job.finishedEvent hsteady.job.taskFinishedEvent hrunning
  exact decides_ended (fun _ => ⟨hmotion, hhigh, hlow⟩) (hloop.bind (hreconcile.bind hfinal))
    (by rw [hended.status]; exact isTerminal_finishedStatus _) hended.queue

end Sequential

/-! ## The cross-scale path -/

/-- Phase 3 makes the default plan. -/
def DefaultPlanned (cfg : WorkerConfig) (env : WorkerEnv) (c : JobView) : Prop :=
  ∃ t us, c.tasks .defaultSegment = some t ∧ legalTask t.status .running = true ∧
    defaultPlan cfg env = .ok us

/-- Every transition of phases 1 to 3 is legal. -/
structure CrossScaleResumes (cfg : WorkerConfig) (env : WorkerEnv) (c : JobView) : Prop where
  motion : Startable c .motionScan
  skipHighFreq : Skippable (motionPart env c) .highFreqEvent
  skipLow : Skippable c .lowFreqSummary
  startHighFreq : DefaultPlanned cfg env c → Startable (motionPart env c) .highFreqEvent

section CrossScale

variable (hsteady : Steady cfg env) {scales : List AnalysisScale}
  (hmem : ∀ s, s ∈ scales ↔ (c.tasks s).isSome = true)

include hsteady hmem

/-- Phase 2 meets a scale task that may not be skipped. -/
theorem evals_skipPhase_illegal
    (h : ¬ (Skippable c .highFreqEvent ∧ Skippable c .lowFreqSummary)) :
    ∃ e c', e.cls = .invalidStateTransition ∧
      Evals (skipPhase cfg env scales) c (.error e) c' := by
  have hactive := evals_skipPhase_active hmem hsteady.hasTriggers
  by_cases hhigh : Skippable c .highFreqEvent
  · obtain ⟨t, reason, ht, -, hlegal⟩ := not_skippable fun hlow => h ⟨hhigh, hlow⟩
    have hfirst := evals_skipIf (c := c) (hsteady.writes (.skipScale .highFreqEvent))
      (hsteady.ofScale _).skippedEvent (decide (.highFreqEvent ∈ scales) &&
        !((c.tasks .highFreqEvent).isSome && c.hasTriggers)) .noMotionTrigger fun hb => by
      rw [Bool.and_eq_true, decide_eq_true_iff] at hb
      obtain ⟨t', ht'⟩ := Option.isSome_iff_exists.mp ((hmem _).mp hb.1)
      refine ⟨t', ht', hhigh t' ht' ?_⟩
      have htriggers : c.hasTriggers = false := by simpa [ht'] using hb.2
      simp [inactiveIn, htriggers]
    set c₁ := c.skipIf (decide (.highFreqEvent ∈ scales) &&
      !((c.tasks .highFreqEvent).isSome && c.hasTriggers)) .highFreqEvent .noMotionTrigger with hc₁
    have ht₁ : c₁.tasks .lowFreqSummary = some t := by
      rw [hc₁, JobState.skipIf]
      dsimp only
      rw [Function.update_of_ne (by decide), ht]
    obtain ⟨e, hcls, hsecond⟩ :=
      evals_skipScaleTask_illegal .notEnabled (hsteady.writes _) ht₁ hlegal
    refine ⟨e, c₁, hcls, hactive.bind (hfirst.bind ?_)⟩
    rw [decide_eq_true ((hmem .lowFreqSummary).mpr (by rw [ht]; rfl))]
    exact hsecond.bind_error
  · obtain ⟨t, reason, ht, hinactive, hlegal⟩ := not_skippable hhigh
    have htriggers : c.hasTriggers = false := by
      cases htr : c.hasTriggers with
      | false => rfl
      | true => simp [inactiveIn, htr] at hinactive
    obtain ⟨e, hcls, hskip⟩ :=
      evals_skipScaleTask_illegal .noMotionTrigger (hsteady.writes _) ht hlegal
    refine ⟨e, c, hcls, hactive.bind ?_⟩
    rw [htriggers, decide_eq_true ((hmem .highFreqEvent).mpr (by rw [ht]; rfl)), Bool.and_false]
    exact hskip.bind_error

omit hmem in
/-- Phase 3 without a default plan. -/
theorem evals_planDefaultPhase_error (hs : .defaultSegment ∈ scales)
    (ht : c₁.tasks .defaultSegment = some t) (hnot : ¬ (legalTask t.status .running = true ∧
      ∃ us, defaultPlan cfg env = .ok us)) :
    ∃ e c', Evals (planDefaultPhase cfg env scales) c₁ (.error e) c' ∧ c'.job = c₁.job := by
  cases hlegal : legalTask t.status .running with
  | false =>
      obtain ⟨e, -, heval⟩ := evals_taskWrite_illegal none none (hsteady.writes _) ht hlegal
      refine ⟨e, c₁, ?_, rfl⟩
      unfold planDefaultPhase
      rw [if_pos hs]
      exact heval.bind_error
  | true =>
      have heval := (hsteady.ofScale _).evals_planDefaultPhase hs ht hlegal
      cases hplan : defaultPlan cfg env with
      | ok us => exact absurd ⟨hlegal, us, hplan⟩ hnot
      | error e =>
          rw [hplan] at heval
          exact ⟨e, _, heval, rfl⟩

omit hmem in
/-- Phase 3 with a `high_freq_event` that may not be started: its handler neither. -/
theorem evals_planHighFreqPhase_illegal (htask : c₁.tasks .highFreqEvent = some t)
    (hlegal : legalTask t.status .running = false) :
    ∃ e, e.cls = .invalidStateTransition ∧
      Evals (planHighFreqPhase cfg env true) c₁ (.error e) c₁ := by
  obtain ⟨e, -, hstart⟩ := evals_taskWrite_illegal none none (hsteady.writes _) htask hlegal
  obtain ⟨e', hcls, hfail⟩ := evals_failScaleTask_illegal (e := e) (hsteady.writes _) htask
    (not_legal_failed hlegal)
  exact ⟨e', hcls, evals_planHighFreqPhase_raise hstart.bind_error hfail⟩

end CrossScale

theorem mem_scaleTasks_motionPart (c : JobView) (s : AnalysisScale) :
    s ∈ c.scaleTasks ↔ ((motionPart env c).tasks s).isSome = true := by
  rw [mem_scaleTasks, tasks_motionPart]
  by_cases hs : s = .motionScan
  · rw [hs, Function.update_self, Option.isSome_map]
  · rw [Function.update_of_ne hs]

theorem decides_crossScale (hsteady : Steady cfg env) (hjob : c.job.jobStatus = .running)
    (hrequired : (c.tasks .defaultSegment).isSome = true) :
    Decides (processCrossScale cfg env c.scaleTasks) c (CrossScaleResumes cfg env c) := by
  obtain ⟨t, ht⟩ := Option.isSome_iff_exists.mp hrequired
  have hs : .defaultSegment ∈ c.scaleTasks := (mem_scaleTasks c _).mpr hrequired
  -- phase by phase: the first illegal transition decides, wherever it is
  by_cases hmotion : Startable c .motionScan
  swap
  · obtain ⟨e, hcls, hesc⟩ := (hsteady.ofScale _).escapes_start hsteady.hasTriggers hmotion
    obtain ⟨tm, htm, -⟩ := not_startable hmotion
    obtain ⟨c', hphase⟩ := hesc.motionPhase ((mem_scaleTasks c _).mpr (by rw [htm]; rfl))
    exact decides_illegal (fun h => hmotion h.motion) hphase.bind_error hcls
  have hmotionPhase := evals_motionPhase_startable (hsteady.ofScale _) hmotion
  set c₁ := motionPart env c with hc₁
  have hmem : ∀ s, s ∈ c.scaleTasks ↔ (c₁.tasks s).isSome = true := mem_scaleTasks_motionPart c
  have hlow₁ : Skippable c₁ .lowFreqSummary ↔ Skippable c .lowFreqSummary := by
    unfold Skippable
    rw [hc₁, tasks_motionPart_of_ne (by decide)]
    rfl
  by_cases hskips : Skippable c₁ .highFreqEvent ∧ Skippable c₁ .lowFreqSummary
  swap
  · obtain ⟨e, c', hcls, hphase⟩ := evals_skipPhase_illegal hsteady hmem hskips
    refine decides_illegal (fun h => hskips ⟨h.skipHighFreq, hlow₁.mpr h.skipLow⟩)
      (hmotionPhase.bind hphase.bind_error) hcls
  have ht₁ : c₁.tasks .defaultSegment = some t :=
    (tasks_motionPart_of_ne (by decide) c).trans ht
  have hjob₁ : c₁.job.jobStatus = .running := by
    rw [hc₁, job_motionPart]
    exact hjob
  by_cases hplanned : DefaultPlanned cfg env c
  swap
  -- the job ends here, before `high_freq_event` is started
  · have hskip := evals_skipPhase hmem hsteady.hasTriggers (fun _ => hsteady.writes _)
      (fun s => (hsteady.ofScale s).skippedEvent) hskips.1 hskips.2
    have hrequired₂ : c₁.skipInactive.tasks .defaultSegment = some t := by
      simp [JobState.skipInactive, ht₁, inactiveIn]
    obtain ⟨e, c₃, hphase, hjob₃⟩ := evals_planDefaultPhase_error hsteady hs hrequired₂
      fun h => hplanned ⟨t, h.2.choose, ht, h.1, h.2.choose_spec⟩
    obtain ⟨c', heval, hended, -⟩ := @evals_handleRequiredFailure cfg env c₃ e
      hsteady.job.required hsteady.job.requiredEvent hsteady.job.failedEvent
      hsteady.job.taskFailedEvent (hjob₃ ▸ hjob₁)
    exact decides_ended ⟨hmotion, hskips.1, hlow₁.mp hskips.2, fun h => absurd h hplanned⟩
      (hmotionPhase.bind (hskip.bind (hphase.attempt.bind heval)))
      (by rw [hended.status]; rfl) hended.queue
  obtain ⟨t', us, ht', hlegal, hplan⟩ := id hplanned
  obtain rfl := Option.some.inj (ht.symm.trans ht')
  obtain ⟨c₃, hpast, hrest⟩ := evals_toPlanning (p := motionFailed env c) hmem ht₁ hlegal hskips.1
    hskips.2 hsteady.hasTriggers (fun _ => hsteady.writes _)
    (fun s => (hsteady.ofScale s).skippedEvent) (hsteady.ofScale _) hplan
  by_cases hstart : Startable c₁ .highFreqEvent
  swap
  · obtain ⟨th, hth, hactive, hillegal⟩ := not_startable hstart
    have htriggers : c₁.hasTriggers = true := by
      cases htr : c₁.hasTriggers with
      | true => rfl
      | false => simp [inactiveIn, htr] at hactive
    obtain ⟨e, hcls, hphase⟩ := evals_planHighFreqPhase_illegal hsteady
      ((hpast.highFreq htriggers).trans hth) hillegal
    rw [hth, htriggers] at hrest
    exact decides_illegal (fun h => hstart (h.startHighFreq hplanned))
      (hrest hmotionPhase hphase.bind_error) hcls
  obtain ⟨hf, c₄, hphase, hview, -⟩ := evals_planHighFreqPhase_any (hsteady.ofScale _) hpast hjob₁
    hstart hplan
  obtain ⟨c', heval, hstatus, hqueue, -⟩ := hsteady.job.evals_runPlanned (hsteady.writes _)
    (hsteady.ofScale _).finishedEvent (hsteady.ofScale _).finishedEvent (some us) hf _ hview.plans
    hview.job (fun _ => hview.default) (fun hnone => by cases hnone) hview.highFreq
  exact decides_ended ⟨hmotion, hskips.1, hlow₁.mp hskips.2, fun _ => hstart⟩
    (hrest hmotionPhase (hphase.bind heval)) (by rw [hstatus]; exact isTerminal_jobOutcome _ _ _)
    hqueue

/-! ## The whole run -/

/-- The transitions that a run from the view of a running job issues are legal. -/
def Resumes (cfg : WorkerConfig) (env : WorkerEnv) (c : JobView) : Prop :=
  if cfg.crossScaleEnabled = true then CrossScaleResumes cfg env c
  else DefaultTallies cfg env c → SequentialResumes env c

/-- From whatever rows an earlier run left, a run that meets no fault of its own
settles exactly when the job may be set running and the scale tasks on its path
may be processed. -/
theorem settled_iff {db : JobRows} (hsteady : Steady cfg env)
    (hrequired : (db.tasks .defaultSegment).isSome = true) :
    Settled (Act.exec (processClaimedTask cfg env) db).1
        (Act.exec (processClaimedTask cfg env) db).2 ↔
      legalJob db.job.jobStatus .running = true ∧ Resumes cfg env db.view.started := by
  have hdecides : Decides (processClaimedTask cfg env) db.view
      (legalJob db.job.jobStatus .running = true ∧ Resumes cfg env db.view.started) := by
    cases hlegal : legalJob db.view.job.jobStatus .running with
    | false =>
        have hwrite : Evals (writeSession cfg env .markJobRunning fun db => do
            let db ← db.transitionJob .running none none
            .ok (db.scaleTasks, db)) db.view _ _ :=
          evals_writeSession _ actsOn_markJobRunning
            (fun c => permanent_transitionJob.bind fun _ => Permanent.ok _) db.view
        rw [hsteady.job.running, JobState.transitionJob_of_not_legal hlegal] at hwrite
        refine decides_illegal (fun h => ?_) hwrite.bind_error rfl
        cases hlegal.symm.trans h.1
    | true =>
        have hrunning : db.view.started.job.jobStatus = .running := db.view.job.jobStatus_moveTo _ _ _
        have hpath : Decides (if cfg.crossScaleEnabled = true then
              processCrossScale cfg env db.view.scaleTasks
            else processSequential cfg env db.view.scaleTasks) db.view.started
            (Resumes cfg env db.view.started) := by
          unfold Resumes
          split
          · exact decides_crossScale hsteady hrunning hrequired
          · exact decides_sequential hsteady hrunning hrequired
        obtain ⟨r, c', heval, hiff⟩ := hpath
        refine ⟨r, c', hsteady.job.evals_processClaimedTask hlegal heval, hiff.trans ?_⟩
        exact (and_iff_right hlegal).symm
  obtain ⟨r, c', heval, hiff⟩ := hdecides
  obtain ⟨hr, hc'⟩ := heval db rfl
  rw [hr, ← hiff, ← hc']
  exact ⟨fun h => ⟨h.legal, h.job, h.queue⟩, fun h => ⟨h.legal, h.job, h.queue⟩⟩

end CctvMemory.Worker
