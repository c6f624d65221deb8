import CctvMemory.Worker.Pools

/-!
# What each phase of a run gives

The sessions, the planning steps, one scale from its transition to running up
to its finalization, and the two ends of a job, each evaluated on a view under
the fault-freedom it needs.
-/

namespace CctvMemory.Worker

variable {cfg : WorkerConfig} {env : WorkerEnv} {c : JobView} {scale : AnalysisScale}
  {t : ScaleTaskRow}

/-! ## Reads and plans -/

theorem evals_hasTriggers (c : JobView) :
    Evals (hasTriggers env) c (match env.raises .hasTriggers with
      | some e => .error e
      | none => .ok c.hasTriggers) c := by
  have heval : Evals (hasTriggers env) c _ _ :=
    evals_session (fun c => .ok (c.hasTriggers, c)) (fun db => rfl) c
  cases h : env.raises .hasTriggers <;> rw [h] at heval <;> exact heval

theorem evals_runMotionScan (c : JobView) :
    Evals (runMotionScan env) c
      (match env.raises .motionScan with
        | some e => .error e
        | none => .ok env.motionWindows.length)
      (match env.raises .motionScan with
        | some _ => c
        | none => persistTriggers env c) := by
  have heval : Evals (runMotionScan env) c _ _ :=
    evals_session (fun c => .ok (env.motionWindows.length, persistTriggers env c))
      (fun db => rfl) c
  cases h : env.raises .motionScan <;> rw [h] at heval <;> exact heval

/-- The default plan of a run. -/
def defaultPlan (cfg : WorkerConfig) (env : WorkerEnv) : Except Exn (List PlannedUnit) :=
  match env.raises (.plan .defaultSegment) with
  | some e => .error e
  | none => (planDefaultSegments env.durationMs cfg.windowSeconds cfg.overlapSeconds).map
      planDefaultUnits

/-- The high-frequency plan of a run, on the triggers and the duration of `c`. -/
def highFreqPlanOf (cfg : WorkerConfig) (env : WorkerEnv) (scaleTask : Option AnalysisScale)
    (c : JobView) : Except Exn (List PlannedUnit) :=
  match env.raises (.plan .highFreqEvent) with
  | some e => .error e
  | none => highFreqPlan cfg scaleTask c

/-- What planning reads of the job. -/
def JobState.planInput {U : Type} (db : JobState U) :=
  (db.triggers, db.video.videoId, db.video.durationMs)

theorem highFreqPlanOf_congr {c' : JobView} {scaleTask : Option AnalysisScale}
    (h : c'.planInput = c.planInput) :
    highFreqPlanOf cfg env scaleTask c' = highFreqPlanOf cfg env scaleTask c := by
  simp only [JobState.planInput, Prod.mk.injEq] at h
  unfold highFreqPlanOf highFreqPlan
  rw [h.1, h.2.1, h.2.2]

@[simp] theorem highFreqPlanOf_setTask (scaleTask : Option AnalysisScale) (c : JobView)
    (scale : AnalysisScale) (t : ScaleTaskRow) :
    highFreqPlanOf cfg env scaleTask (c.setTask scale t) = highFreqPlanOf cfg env scaleTask c := rfl

theorem evals_planDefault (c : JobView) :
    Evals (planDefault cfg env) c (defaultPlan cfg env)
      (match defaultPlan cfg env with
        | .ok _ => c.updateProbeMetadata env.durationMs
        | .error _ => c) := by
  have heval : Evals (planDefault cfg env) c _ _ :=
    evals_session (fun c => do
      let windows ← planDefaultSegments env.durationMs cfg.windowSeconds cfg.overlapSeconds
      .ok (planDefaultUnits windows, c.updateProbeMetadata env.durationMs))
    (fun db => by cases planDefaultSegments env.durationMs cfg.windowSeconds
                    cfg.overlapSeconds <;> rfl) c
  unfold defaultPlan
  cases hr : env.raises (.plan .defaultSegment) with
  | some e =>
      rw [hr] at heval
      exact heval
  | none =>
      rw [hr] at heval
      cases hp : planDefaultSegments env.durationMs cfg.windowSeconds cfg.overlapSeconds with
      | error e =>
          rw [hp] at heval
          exact heval
      | ok windows =>
          rw [hp] at heval
          exact heval

theorem evals_planHighFreq (scaleTask : Option AnalysisScale) (c : JobView) :
    Evals (planHighFreq cfg env scaleTask) c (highFreqPlanOf cfg env scaleTask c) c := by
  have heval : Evals (planHighFreq cfg env scaleTask) c _ _ :=
    evals_session (fun c => do
      let us ← highFreqPlan cfg scaleTask c
      .ok (us, c))
    (fun db => by
      have hview : highFreqPlan cfg scaleTask db.view = highFreqPlan cfg scaleTask db := rfl
      dsimp only
      rw [hview]
      cases highFreqPlan cfg scaleTask db <;> rfl) c
  unfold highFreqPlanOf
  cases hr : env.raises (.plan .highFreqEvent) with
  | some e =>
      rw [hr] at heval
      exact heval
  | none =>
      rw [hr] at heval
      cases hp : highFreqPlan cfg scaleTask c with
      | error e =>
          rw [hp] at heval
          exact heval
      | ok us =>
          rw [hp] at heval
          exact heval

/-- A plan for scale `scale`, its units in scale task `scaleTask`. -/
structure PlanOf (scaleTask : Option AnalysisScale) (scale : AnalysisScale)
    (us : List PlannedUnit) : Prop where
  nodup : (us.map PlannedUnit.key).Nodup
  keys : ∀ u ∈ us, u.key.scaleTask = scaleTask ∧ u.key.analysisScale = scale

theorem planOf_defaultPlan {us : List PlannedUnit} (h : defaultPlan cfg env = .ok us) :
    PlanOf (some .defaultSegment) .defaultSegment us := by
  unfold defaultPlan at h
  split at h
  · cases h
  · cases hp : planDefaultSegments env.durationMs cfg.windowSeconds cfg.overlapSeconds with
    | error e => simp [hp, Except.map] at h
    | ok windows =>
        rw [hp] at h
        cases h
        exact ⟨planDefaultUnits_nodup (planDefaultSegments_nodup hp), keys_planDefaultUnits⟩

theorem planOf_highFreqPlanOf {scaleTask : Option AnalysisScale} {us : List PlannedUnit}
    (h : highFreqPlanOf cfg env scaleTask c = .ok us) :
    PlanOf scaleTask .highFreqEvent us := by
  unfold highFreqPlanOf at h
  split at h
  · cases h
  · exact ⟨planHighFreqUnits_nodup h, keys_planHighFreqUnits h⟩

/-! ## Finalizing a scale -/

theorem view_finalizeScaleTask (db : JobRows) (scale : AnalysisScale) (r : ScaleProcessResult) :
    (db.finalizeScaleTask scale r).map JobRows.view = db.view.finalizeScaleTask scale r := by
  unfold JobState.finalizeScaleTask
  rw [view_transitionScaleTask]
  rfl

theorem evals_finalizeWrite (r : ScaleProcessResult) (c : JobView) :
    Evals (writeSession cfg env (.finalizeScale scale) fun db => do
        .ok ((), ← db.finalizeScaleTask scale r)) c
      (viewResult c (faultOf cfg env (.finalizeScale scale)) (do
        .ok ((), ← c.finalizeScaleTask scale r))).1
      (viewResult c (faultOf cfg env (.finalizeScale scale)) (do
        .ok ((), ← c.finalizeScaleTask scale r))).2 := by
  refine evals_writeSession (fun c => do
    .ok ((), ← c.finalizeScaleTask scale r)) (fun db => ?_) (fun c => ?_) c
  · exact view_bind (view_finalizeScaleTask db scale r) fun _ => rfl
  · exact permanent_transitionScaleTask.bind fun _ => Permanent.ok _

theorem evals_finalizeWrite_ok {r : ScaleProcessResult} (h : c.tasks scale = some t)
    (ht : t.status = .running) (hw : faultOf cfg env (.finalizeScale scale) = none) :
    Evals (writeSession cfg env (.finalizeScale scale) fun db => do
        .ok ((), ← db.finalizeScaleTask scale r)) c (.ok ())
      (c.setTask scale r.finishedRow) := by
  have heval := @evals_finalizeWrite cfg env scale r c
  rw [hw, JobState.finalizeScaleTask_of_running h ht] at heval
  exact heval

theorem evals_finalizeWrite_fault {r : ScaleProcessResult} {e : Exn}
    (hw : faultOf cfg env (.finalizeScale scale) = some e) :
    Evals (writeSession cfg env (.finalizeScale scale) fun db => do
        .ok ((), ← db.finalizeScaleTask scale r)) c (.error e) c := by
  have heval := @evals_finalizeWrite cfg env scale r c
  rw [hw] at heval
  exact heval

/-! ## One active scale -/

/-- The row of a scale task that was set running. -/
def ScaleTaskRow.started (t : ScaleTaskRow) : ScaleTaskRow := t.moveTo .running none none

@[simp] theorem ScaleTaskRow.status_started (t : ScaleTaskRow) : t.started.status = .running :=
  t.status_moveTo _ _ _

theorem evals_transitionRunning (hw : faultOf cfg env (.scaleRunning scale) = none)
    (h : c.tasks scale = some t) (hlegal : legalTask t.status .running = true) :
    Evals (transitionRunning cfg env scale) c (.ok ()) (c.setTask scale t.started) :=
  evals_taskWrite_ok hw h hlegal

/-- Started, run and finalized. -/
theorem evals_runActiveScale {r : ScaleProcessResult} {c₂ : JobView} {t₂ : ScaleTaskRow}
    (hw : faultOf cfg env (.scaleRunning scale) = none)
    (hs : env.raises (.scaleRunning scale) = none)
    (h : c.tasks scale = some t) (hlegal : legalTask t.status .running = true)
    (hrun : Evals (runScale cfg env scale) (c.setTask scale t.started) (.ok r) c₂)
    (h₂ : c₂.tasks scale = some t₂) (ht₂ : t₂.status = .running)
    (hf : faultOf cfg env (.finalizeScale scale) = none)
    (hs' : env.raises (.scaleFinished scale) = none) :
    Evals (runActiveScale cfg env scale) c (.ok r) (c₂.setTask scale r.finishedRow) := by
  refine (evals_transitionRunning hw h hlegal).bind ?_
  refine (evals_step_ok hs _).bind ?_
  refine hrun.bind ?_
  refine (evals_finalizeWrite_ok h₂ ht₂ hf).bind ?_
  exact (evals_step_ok hs' _).bind (Evals.pure _ _)

/-- The processor raises: the scale is left running. -/
theorem evals_runActiveScale_error {e : Exn} {c₂ : JobView}
    (hw : faultOf cfg env (.scaleRunning scale) = none)
    (hs : env.raises (.scaleRunning scale) = none)
    (h : c.tasks scale = some t) (hlegal : legalTask t.status .running = true)
    (hrun : Evals (runScale cfg env scale) (c.setTask scale t.started) (.error e) c₂) :
    Evals (runActiveScale cfg env scale) c (.error e) c₂ :=
  (evals_transitionRunning hw h hlegal).bind ((evals_step_ok hs _).bind hrun.bind_error)

theorem evals_runActiveScale_illegal (hw : faultOf cfg env (.scaleRunning scale) = none)
    (h : c.tasks scale = some t) (hlegal : legalTask t.status .running = false) :
    ∃ e, e.cls = .invalidStateTransition ∧
      Evals (runActiveScale cfg env scale) c (.error e) c := by
  obtain ⟨e, hcls, heval⟩ := evals_taskWrite_illegal none none hw h hlegal
  exact ⟨e, hcls, heval.bind_error⟩

/-! ## The ends of a job -/

/-- The view of a reconciled job. -/
def reconcileView (env : WorkerEnv) (c : JobView) : JobView :=
  { c with units := fun k =>
      if (k.scaleTask.bind c.tasks).isSome then (c.units k).map (reconcileUnit env)
      else c.units k }

theorem view_reconcileRunningUnits (db : JobRows) :
    (reconcileRunningUnits env db).view = reconcileView env db.view := by
  refine JobState.ext_frame rfl (funext fun k => ?_)
  show unitRow (reconcileRunningUnits env db).units k
    = if (k.scaleTask.bind db.tasks).isSome then (unitRow db.units k).map (reconcileUnit env)
      else unitRow db.units k
  unfold unitRow
  have hget : (reconcileRunningUnits env db).units.get? k = (db.units.get? k).map fun u =>
      if (u.key.scaleTask.bind db.tasks).isSome then ⟨u.key, reconcileUnit env u.row⟩ else u := by
    show List.find? _ (List.map _ _) = _
    rw [List.find?_map]
    refine congrArg _ (congrArg (fun p => List.find? p _) (funext fun u => ?_))
    dsimp only [Function.comp]
    split <;> rfl
  rw [hget]
  cases hk : db.units.get? k with
  | none => simp
  | some u =>
      have hkey := Keyed.Table.key_of_get? hk
      subst hkey
      simp only [Option.map_some]
      split <;> rfl

theorem evals_reconcile (c : JobView) :
    Evals (reconcileRunningUnitsForJob cfg env) c
      (match faultOf cfg env .reconcile with
        | some e => .error e
        | none => .ok ())
      (match faultOf cfg env .reconcile with
        | some _ => c
        | none => reconcileView env c) := by
  have heval : Evals (reconcileRunningUnitsForJob cfg env) c _ _ :=
    evals_writeSession (fun c => .ok ((), reconcileView env c))
      (fun db => by
        show Except.ok ((), (reconcileRunningUnits env db).view) = _
        rw [view_reconcileRunningUnits])
      (fun c => Permanent.ok _) c
  cases h : faultOf cfg env .reconcile <;> rw [h] at heval <;> exact heval

/-- `c'` is `c` with its job ended as `status`, its scale tasks apart. -/
structure JobEnded (status : JobStatus) (c c' : JobView) : Prop where
  status : c'.job.jobStatus = status
  queue : c'.queueTask.status ≠ .running
  units : c'.units = c.units
  planInput : c'.planInput = c.planInput

/-- The status of a job that did not fail. -/
def finishedStatus (anyPartial : Bool) : JobStatus :=
  if anyPartial = true then .partialFailed else .succeeded

theorem finalizeJobWrite_of_running (p : Bool) (hjob : c.job.jobStatus = .running) :
    ∃ c', finalizeJobWrite (finishedStatus p) c = .ok ((), c') ∧
      JobEnded (finishedStatus p) c c' ∧ c'.tasks = c.tasks := by
  have hlegal : legalJob c.job.jobStatus (finishedStatus p) = true := by
    rw [hjob]
    cases p <;> rfl
  unfold finalizeJobWrite
  rw [JobState.transitionJob_of_legal hlegal]
  exact ⟨_, rfl, ⟨c.job.jobStatus_moveTo _ _ _, fun h => (by cases h), rfl, rfl⟩, rfl⟩

theorem actsOn_finalizeJobWrite (status : JobStatus) :
    ActsOn (finalizeJobWrite status) (finalizeJobWrite status) := fun db =>
  view_bind (view_transitionJob db status none none) fun _ => rfl

theorem permanent_finalizeJobWrite (status : JobStatus) (c : JobView) :
    Permanent (finalizeJobWrite status c) :=
  permanent_transitionJob.bind fun _ => Permanent.ok _

theorem evals_finalizeJob {p : Bool} (hw : faultOf cfg env .finalizeJob = none)
    (hs : env.raises .jobFinished = none) (hs' : env.raises .taskFinished = none)
    (hjob : c.job.jobStatus = .running) :
    ∃ c', Evals (finalizeJob cfg env p) c (.ok ()) c' ∧ JobEnded (finishedStatus p) c c' ∧
      c'.tasks = c.tasks := by
  have heval : Evals (writeSession cfg env .finalizeJob (finalizeJobWrite (finishedStatus p))) c
      _ _ := evals_writeSession _ (actsOn_finalizeJobWrite _) (permanent_finalizeJobWrite _) c
  obtain ⟨c', hwrite, hended, htasks⟩ := finalizeJobWrite_of_running p hjob
  rw [hw, hwrite] at heval
  exact ⟨c', heval.bind ((evals_step_ok hs _).bind (evals_step_ok hs' _)), hended, htasks⟩

/-- Whatever raises, the job is as it was or ended. -/
theorem ends_finalizeJob (p : Bool) (hjob : c.job.jobStatus = .running) :
    Ends (finalizeJob cfg env p) c fun _ c' =>
      c' = c ∨ JobEnded (finishedStatus p) c c' ∧ c'.tasks = c.tasks := by
  obtain ⟨c₁, hwrite, hended⟩ := finalizeJobWrite_of_running p hjob
  refine Ends.bind (Q := OkOrError (fun _ c' => c' = c₁) fun c' => c' = c)
    (ends_writeSession (actsOn_finalizeJobWrite _) (permanent_finalizeJobWrite _)
      (fun a c' h => ?_) fun _ => rfl) ?_ fun _ _ h => .inl h
  · replace h : finalizeJobWrite (finishedStatus p) c = .ok (a, c') := h
    rw [hwrite] at h
    cases h
    rfl
  · rintro - c' rfl
    refine Ends.bind (Q := fun _ c'' => c'' = c') (ends_workerStep rfl fun _ => rfl) ?_ ?_
    · rintro - c'' rfl
      exact ends_workerStep (.inr hended) fun _ => .inr hended
    · rintro e c'' rfl
      exact .inr hended

/-- What a required failure leaves of the scale tasks. -/
def requiredFailedTasks (e : Exn) (tasks : AnalysisScale → Option ScaleTaskRow) :
    AnalysisScale → Option ScaleTaskRow :=
  if isRunning (tasks .defaultSegment) = true then
    Function.update tasks .defaultSegment ((tasks .defaultSegment).map fun t =>
      t.moveTo .failed (some (classifyError e)) none)
  else tasks

theorem view_failRunningDefault (e : Exn) (db : JobRows) :
    (failRunningDefault e db).map JobRows.view = failRunningDefault e db.view := by
  unfold failRunningDefault
  show _ = if isRunning (db.tasks .defaultSegment) = true then _ else _
  split
  · exact view_transitionScaleTask db _ _ _ _
  · rfl

theorem actsOn_requiredFailureWrite (e : Exn) :
    ActsOn (requiredFailureWrite e) (requiredFailureWrite e) := fun db =>
  view_bind (view_failRunningDefault e db) fun db₁ =>
    view_bind (view_transitionJob db₁ _ _ _) fun _ => rfl

theorem permanent_requiredFailureWrite (e : Exn) (c : JobView) :
    Permanent (requiredFailureWrite e c) := by
  refine Permanent.bind ?_ fun _ => permanent_transitionJob.bind fun _ => Permanent.ok _
  unfold failRunningDefault
  split
  · exact permanent_transitionScaleTask
  · exact Permanent.ok _

theorem failRunningDefault_eq (e : Exn) (c : JobView) :
    failRunningDefault e c = .ok { c with tasks := requiredFailedTasks e c.tasks } := by
  unfold failRunningDefault requiredFailedTasks
  split
  · rename_i hrun
    cases ht : c.tasks .defaultSegment with
    | none => simp [isRunning, ht] at hrun
    | some t =>
        have htr : t.status = .running := by simpa [isRunning, ht] using hrun
        exact JobState.transitionScaleTask_of_legal ht (by rw [htr]; rfl)
  · rfl

/-- On a running job the handler of a required failure goes through. -/
theorem requiredFailureWrite_of_running (e : Exn) (hjob : c.job.jobStatus = .running) :
    ∃ c', requiredFailureWrite e c = .ok (isRunning (c.tasks .defaultSegment), c') ∧
      JobEnded .failed c c' ∧ c'.tasks = requiredFailedTasks e c.tasks := by
  have hlegal : legalJob c.job.jobStatus .failed = true := by
    rw [hjob]
    rfl
  have hqueue : ∀ (c₁ : JobView) ec em, (c₁.queueMarkFailed ec em).queueTask.status ≠ .running := by
    intro c₁ ec em
    show (if _ then _ else _) ≠ QueueStatus.running
    split <;> decide
  let errorCode := classifyError e
  let message := e.cls.name ++ ": " ++ clip 200 e.message
  let c₁ : JobView := { c with tasks := requiredFailedTasks e c.tasks }
  let c₂ : JobView := { c₁ with job := c₁.job.moveTo .failed (some errorCode) (some message) }
  refine ⟨c₂.queueMarkFailed errorCode message, ?_,
    ⟨JobRow.jobStatus_moveTo _ _ _ _, hqueue c₂ errorCode message, rfl, rfl⟩, rfl⟩
  have hjob₁ : c₁.transitionJob .failed (some errorCode) (some message) = .ok c₂ :=
    JobState.transitionJob_of_legal hlegal
  unfold requiredFailureWrite
  rw [failRunningDefault_eq]
  show (c₁.transitionJob .failed (some errorCode) (some message) >>= fun db₂ => _) = _
  rw [hjob₁]
  rfl

theorem evals_stepIf {b : Bool} {s : WorkerStep} (h : env.raises s = none) (c : JobView) :
    Evals (workerStepIf env b s) c (.ok ()) c := by
  cases b
  · exact Evals.pure () c
  · exact evals_step_ok h c

theorem evals_handleRequiredFailure (e : Exn) (hw : faultOf cfg env .requiredFailure = none)
    (hs : env.raises .requiredScaleFailed = none) (hs' : env.raises .jobFailed = none)
    (hs'' : env.raises .taskFailed = none) (hjob : c.job.jobStatus = .running) :
    ∃ c', Evals (handleRequiredFailure cfg env e) c (.ok ()) c' ∧ JobEnded .failed c c' ∧
      c'.tasks = requiredFailedTasks e c.tasks := by
  have heval : Evals (writeSession cfg env .requiredFailure (requiredFailureWrite e)) c _ _ :=
    evals_writeSession _ (actsOn_requiredFailureWrite e) (permanent_requiredFailureWrite e) c
  obtain ⟨c', hwrite, hended, htasks⟩ := requiredFailureWrite_of_running e hjob
  rw [hw, hwrite] at heval
  exact ⟨c', heval.bind ((evals_stepIf hs c').bind
    ((evals_step_ok hs' _).bind (evals_step_ok hs'' _))), hended, htasks⟩

theorem ends_workerStepIf {b : Bool} {s : WorkerStep}
    {Q : Except Exn Unit → JobView → Prop} (hok : Q (.ok ()) c) (herror : ∀ e, Q (.error e) c) :
    Ends (workerStepIf env b s) c Q := by
  unfold workerStepIf
  split
  · exact ends_workerStep hok herror
  · exact (Evals.pure () c).ends hok

/-- Whatever raises, the job is as it was or failed. -/
theorem ends_handleRequiredFailure (e : Exn) (hjob : c.job.jobStatus = .running) :
    Ends (handleRequiredFailure cfg env e) c fun _ c' =>
      c' = c ∨ JobEnded .failed c c' ∧ c'.tasks = requiredFailedTasks e c.tasks := by
  obtain ⟨c₁, hwrite, hended⟩ := requiredFailureWrite_of_running e hjob
  refine Ends.bind (Q := OkOrError (fun _ c' => c' = c₁) fun c' => c' = c)
    (ends_writeSession (actsOn_requiredFailureWrite e) (permanent_requiredFailureWrite e)
      (fun a c' h => ?_) fun _ => rfl) ?_ fun _ _ h => .inl h
  · rw [hwrite] at h
    cases h
    rfl
  · rintro b c' rfl
    refine Ends.bind (Q := fun _ c'' => c'' = c') (ends_workerStepIf rfl fun _ => rfl) ?_ ?_
    · rintro - c'' rfl
      refine Ends.bind (Q := fun _ c' => c' = c'') (ends_workerStep rfl fun _ => rfl) ?_ ?_
      · rintro - c' rfl
        exact ends_workerStep (.inr hended) fun _ => .inr hended
      · rintro e c' rfl
        exact .inr hended
    · rintro e c'' rfl
      exact .inr hended

end CctvMemory.Worker
