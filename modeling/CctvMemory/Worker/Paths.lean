import CctvMemory.Worker.Optional

/-!
# The two paths on a fresh job

Each path of `_process_claimed_task` evaluated on a freshly queued job, whose
worker meets no fault of its own, from the same data: the plans of the two unit
scales and how each planned unit ends.

* `sameVerdict_iff`: when the two paths judge the job alike.
-/

namespace CctvMemory.Worker

variable {cfg : WorkerConfig} {env : WorkerEnv} {c c' : JobView} {scale : AnalysisScale}
  {t : ScaleTaskRow} {us : List PlannedUnit}

/-! ## Units without a row -/

/-- The tally of a unit that has no row yet. -/
def freshTally (env : WorkerEnv) (u : PlannedUnit) : UnitOutcome :=
  safeRun (Act.exec (unitAct env u) none).1

/-- A unit without a row lets an exception escape: its claim fails, or its
`unit_running` event raises before the guard. -/
def EscapesGuard (env : WorkerEnv) (u : PlannedUnit) : Prop :=
  (env.envOf u).writeFault .claim 1 ≠ none ∨ (env.envOf u).raises .unitRunning ≠ none

theorem unitTally_of_fresh {u : PlannedUnit} (h : c.units u.key = none) :
    unitTally env c u = freshTally env u := by
  rw [unitTally, unitEnd, h, freshTally]

theorem unitEscapes_iff {u : PlannedUnit} (h : c.units u.key = none) :
    UnitEscapes env c u ↔ EscapesGuard env u := by
  rw [UnitEscapes, unitEnd_of_fresh h, EscapesGuard]
  cases hclaim : (env.envOf u).writeFault .claim 1 with
  | some e =>
      rw [UnitProcessor.exec_runUnit_unclaimed rfl hclaim]
      exact iff_of_true ⟨e, rfl⟩ (.inl (by simp))
  | none =>
      rw [UnitProcessor.exec_runUnit_claimed rfl hclaim]
      cases hevent : (env.envOf u).raises .unitRunning with
      | some e => exact iff_of_true ⟨e, rfl⟩ (.inr (by simp))
      | none =>
          refine iff_of_false ?_ (by simp)
          rintro ⟨e, he⟩
          dsimp only at he
          rcases hbody : Act.exec ((processorOf u.key.analysisScale).body (env.envOf u)
            JobLookup.present) (some (env.envOf u).firstRow) with ⟨⟨phase, e'⟩ | o, row'⟩
          · rw [exec_guarded_error hbody] at he
            cases he
          · rw [exec_guarded_ok hbody] at he
            cases he

/-- An escape counts as a failure. -/
theorem freshTally_of_escapes {u : PlannedUnit} (h : EscapesGuard env u) :
    freshTally env u = .failed := by
  let c₀ : JobView := { JobRows.queuedJob.view with units := fun _ => none }
  obtain ⟨e, he⟩ := (@unitEscapes_iff env c₀ u rfl).mpr h
  rw [← unitTally_of_fresh (c := c₀) rfl, unitTally, he]
  rfl

/-- The counts of a plan whose units have no rows. -/
def freshResult (env : WorkerEnv) (us : List PlannedUnit) : ScaleProcessResult :=
  .tally (us.map (freshTally env))

theorem tally_of_fresh (h : ∀ u ∈ us, c.units u.key = none) :
    ScaleProcessResult.tally (us.map (unitTally env c)) = freshResult env us :=
  congrArg _ (List.map_congr_left fun u hu => unitTally_of_fresh (h u hu))

theorem failed_freshResult (h : ∃ u ∈ us, EscapesGuard env u) : (freshResult env us).failed ≠ 0 := by
  obtain ⟨u, hu, hesc⟩ := h
  show (us.map (freshTally env)).count .failed ≠ 0
  have hmem : UnitOutcome.failed ∈ us.map (freshTally env) :=
    List.mem_map.mpr ⟨u, hu, freshTally_of_escapes hesc⟩
  have hpos := List.count_pos_iff.mpr hmem
  omega

/-- The unit as planned for another scale task. -/
def PlannedUnit.inTask (scaleTask : Option AnalysisScale) (u : PlannedUnit) : PlannedUnit :=
  { u with key := { u.key with scaleTask } }

theorem freshResult_inTask (scaleTask : Option AnalysisScale) (us : List PlannedUnit) :
    freshResult env (us.map (PlannedUnit.inTask scaleTask)) = freshResult env us := by
  rw [freshResult, List.map_map]
  rfl

/-- A plan does not depend on the scale task it is made for. -/
theorem highFreqPlan_inTask {U : Type} (cfg : WorkerConfig) (scaleTask : Option AnalysisScale)
    (db : JobState U) : highFreqPlan cfg scaleTask db
      = (highFreqPlan cfg none db).map (List.map (PlannedUnit.inTask scaleTask)) := by
  unfold highFreqPlan planHighFreqUnits
  cases highFreqWindowsOf _ _ 0 with
  | error e => rfl
  | ok all =>
      show Except.ok _ = Except.ok _
      rw [List.map_map]
      rfl

theorem highFreqPlanOf_inTask (scaleTask : Option AnalysisScale) (c : JobView) :
    highFreqPlanOf cfg env scaleTask c
      = (highFreqPlanOf cfg env none c).map (List.map (PlannedUnit.inTask scaleTask)) := by
  unfold highFreqPlanOf
  cases env.raises (.plan .highFreqEvent) with
  | some e => rfl
  | none => exact highFreqPlan_inTask cfg scaleTask c

/-! ## A fresh job -/

/-- A freshly queued job that was just set running. -/
structure FreshView (c : JobView) : Prop where
  running : c.job.jobStatus = .running
  fresh : ∀ k, c.units k = none
  created : ∀ s t, c.tasks s = some t → t = .created
  required : c.tasks .defaultSegment = some .created

theorem FreshJob.freshView {db : JobRows} (h : FreshJob db) : FreshView db.view.started where
  running := h.stage.running
  fresh := h.stage.fresh
  created := h.created
  required := by
    obtain ⟨t, ht⟩ := Option.isSome_iff_exists.mp h.required
    rw [← h.created _ t ht]
    exact ht

theorem FreshView.task (h : FreshView c) (hs : (c.tasks scale).isSome = true) :
    c.tasks scale = some .created := by
  obtain ⟨t, ht⟩ := Option.isSome_iff_exists.mp hs
  rw [← h.created _ t ht]
  exact ht

theorem FreshView.skippable (h : FreshView c) (scale : AnalysisScale) : Skippable c scale := by
  intro t ht _
  rw [h.created _ t ht]
  rfl

theorem FreshView.startable (h : FreshView c) (scale : AnalysisScale) : Startable c scale := by
  intro t ht _
  rw [h.created _ t ht]
  rfl

/-- The view after `motion_scan`, if the job has it. -/
def motionPart (env : WorkerEnv) (c : JobView) : JobView :=
  match c.tasks .motionScan with
  | some t => motionEnd env t c
  | none => c

def motionFailed (env : WorkerEnv) (c : JobView) : Bool :=
  (c.tasks .motionScan).isSome && (env.raises .motionScan).isSome

theorem tasks_motionPart (env : WorkerEnv) (c : JobView) :
    (motionPart env c).tasks = Function.update c.tasks .motionScan
      ((c.tasks .motionScan).map (motionRow env)) := by
  unfold motionPart
  cases ht : c.tasks .motionScan with
  | none =>
      have hsame : Function.update c.tasks .motionScan none = c.tasks := by
        rw [← ht, Function.update_eq_self]
      exact hsame.symm
  | some t => rfl

theorem job_motionPart (env : WorkerEnv) (c : JobView) : (motionPart env c).job = c.job := by
  unfold motionPart
  split <;> rfl

theorem units_motionPart (env : WorkerEnv) (c : JobView) : (motionPart env c).units = c.units := by
  unfold motionPart
  split <;> rfl

/-- What the planning of `high_freq_event` sees, on either path. -/
def planView (env : WorkerEnv) (c : JobView) : JobView :=
  (motionPart env c).updateProbeMetadata env.durationMs

/-- Whether `high_freq_event` runs. -/
def highFreqRuns (env : WorkerEnv) (c : JobView) : Bool :=
  (c.tasks .highFreqEvent).isSome && (planView env c).hasTriggers

/-- The plan of `high_freq_event`, its units named without a scale task. -/
def highFreqPlanned (cfg : WorkerConfig) (env : WorkerEnv) (c : JobView) :
    Except Exn (List PlannedUnit) :=
  highFreqPlanOf cfg env none (planView env c)

/-- The units of `high_freq_event`, where it gets to run them. -/
def highFreqUnits (cfg : WorkerConfig) (env : WorkerEnv) (c : JobView) :
    Option (List PlannedUnit) :=
  if highFreqRuns env c = true then (highFreqPlanned cfg env c).toOption else none

/-- Some unit of `high_freq_event` lets an exception escape. -/
def HighFreqEscapes (cfg : WorkerConfig) (env : WorkerEnv) (c : JobView) : Prop :=
  ∃ us, highFreqUnits cfg env c = some us ∧ ∃ u ∈ us, EscapesGuard env u

/-- Whether an optional scale fails outright. -/
def optionalFailed (cfg : WorkerConfig) (env : WorkerEnv) (c : JobView) : Bool :=
  motionFailed env c || (highFreqRuns env c && (highFreqUnits cfg env c).isNone)

/-- The row `high_freq_event` ends with on its counts. -/
def highFreqRow (cfg : WorkerConfig) (env : WorkerEnv) (c : JobView) (t : ScaleTaskRow) :
    ScaleTaskRow :=
  if (planView env c).hasTriggers = true then
    match highFreqPlanned cfg env c with
    | .ok us => (freshResult env us).finishedRow
    | .error e => t.started.moveTo .failed (some (classifyError e)) none
  else t.moveTo .skipped none (some .noMotionTrigger)

/-- The scale tasks of a run whose units were all tallied; `us` is the default plan. -/
def tallied (cfg : WorkerConfig) (env : WorkerEnv) (c : JobView) (us : List PlannedUnit)
    (s : AnalysisScale) : Option ScaleTaskRow :=
  (c.tasks s).map fun t => match s with
    | .defaultSegment => (freshResult env us).finishedRow
    | .motionScan => motionRow env t
    | .highFreqEvent => highFreqRow cfg env c t
    | .lowFreqSummary => t.moveTo .skipped none (some .notEnabled)

/-- The job status of such a run. -/
def talliedStatus (cfg : WorkerConfig) (env : WorkerEnv) (c : JobView) (us : List PlannedUnit) :
    JobStatus :=
  jobOutcome (some (freshResult env us)) ((highFreqUnits cfg env c).map (freshResult env))
    (optionalFailed cfg env c)

theorem highFreqUnits_eq_some (h : highFreqUnits cfg env c = some us) :
    highFreqRuns env c = true ∧ highFreqPlanned cfg env c = .ok us := by
  unfold highFreqUnits at h
  split at h
  · rename_i hruns
    refine ⟨hruns, ?_⟩
    cases hp : highFreqPlanned cfg env c with
    | ok us' =>
        rw [hp] at h
        exact congrArg Except.ok (Option.some.inj h)
    | error e =>
        rw [hp] at h
        cases h
  · cases h

theorem highFreqRow_of_units (h : highFreqUnits cfg env c = some us) (t : ScaleTaskRow) :
    highFreqRow cfg env c t = (freshResult env us).finishedRow := by
  obtain ⟨hruns, hplan⟩ := highFreqUnits_eq_some h
  rw [highFreqRuns, Bool.and_eq_true] at hruns
  rw [highFreqRow, if_pos hruns.2, hplan]

theorem hasTriggers_of_planInput {c₁ : JobView} (hinput : c₁.planInput = (planView env c).planInput) :
    c₁.hasTriggers = (planView env c).hasTriggers := by
  simp only [JobState.planInput, Prod.mk.injEq] at hinput
  unfold JobState.hasTriggers
  rw [hinput.1, hinput.2.1]

/-! ## The cross-scale path -/

section CrossScale

theorem evals_motionPhase_startable (hsteady : ScaleSteady cfg env .motionScan)
    (hstart : Startable c .motionScan) :
    Evals (motionPhase cfg env c.scaleTasks) c (.ok (motionFailed env c)) (motionPart env c) := by
  cases ht : c.tasks .motionScan with
  | none =>
      have hs : .motionScan ∉ c.scaleTasks := by
        rw [mem_scaleTasks, ht]
        decide
      unfold motionPhase motionFailed motionPart
      rw [if_neg hs, ht]
      exact Evals.pure _ _
  | some t =>
      have hs : .motionScan ∈ c.scaleTasks := by
        rw [mem_scaleTasks, ht]
        rfl
      have heval := hsteady.evals_motionPhase hs ht (hstart t ht rfl)
      unfold motionFailed motionPart
      rw [ht]
      exact heval

/-! ### What phases 4 to 6 start from -/

/-- The units of `high_freq_event`, in the scale task that the scheduler gives them. -/
def highFreqInTask (cfg : WorkerConfig) (env : WorkerEnv) (c : JobView) :
    Option (List PlannedUnit) :=
  (highFreqUnits cfg env c).map (List.map (.inTask (some .highFreqEvent)))

@[simp] theorem isNone_highFreqInTask :
    (highFreqInTask cfg env c).isNone = (highFreqUnits cfg env c).isNone :=
  Option.isNone_map

theorem plansOf_highFreqInTask {c₄ : JobView} (hplan : defaultPlan cfg env = .ok us)
    (hinput : c₄.planInput = (planView env c).planInput) :
    PlansOf cfg env c₄ (some us) (highFreqInTask cfg env c) := by
  refine ⟨fun us' hus' => by cases hus'; exact hplan, fun us' hus' => ?_⟩
  obtain ⟨v, hv, rfl⟩ := Option.map_eq_some_iff.mp hus'
  have hplanned : highFreqPlanOf cfg env none (planView env c) = .ok v :=
    (highFreqUnits_eq_some hv).2
  rw [highFreqPlanOf_congr hinput, highFreqPlanOf_inTask, hplanned]
  rfl

/-- Units without rows tally alike in the scale task and outside of it. -/
theorem scaleTally_highFreqInTask {c₄ : JobView} (hunits : ∀ k, c₄.units k = none) :
    scaleTally env c₄ (highFreqInTask cfg env c)
      = (highFreqUnits cfg env c).map (freshResult env) := by
  rw [scaleTally, highFreqInTask, Option.map_map]
  refine congrArg (fun f => Option.map f _) (funext fun v => ?_)
  show ScaleProcessResult.tally _ = _
  rw [tally_of_fresh fun u _ => hunits u.key, freshResult_inTask]

variable (hsteady : Steady cfg env) (hfresh : FreshView c)

section Rows

include hfresh

/-- Phase 5 gives every scale its row of `tallied`. -/
theorem tasks_finalizedScales_tallied {c₄ : JobView}
    (hmotion : c₄.tasks .motionScan = (c.tasks .motionScan).map (motionRow env))
    (hhigh : c₄.tasks .highFreqEvent = match highFreqUnits cfg env c with
      | some _ => some ScaleTaskRow.created.started
      | none => (c.tasks .highFreqEvent).map (highFreqRow cfg env c))
    (hlow : c₄.tasks .lowFreqSummary = (c.tasks .lowFreqSummary).map
      fun t => t.moveTo .skipped none (some .notEnabled)) :
    (finalizedScales (some (freshResult env us))
      ((highFreqUnits cfg env c).map (freshResult env)) c₄).tasks = tallied cfg env c us := by
  funext s
  cases s with
  | defaultSegment =>
      rw [finalizedScales, JobState.tasks_finalizedScale_of_ne (by decide),
        JobState.tasks_finalizedScale_self, tallied, hfresh.required]
      rfl
  | motionScan =>
      rw [finalizedScales, JobState.tasks_finalizedScale_of_ne (by decide),
        JobState.tasks_finalizedScale_of_ne (by decide)]
      exact hmotion
  | highFreqEvent =>
      rw [finalizedScales, JobState.tasks_finalizedScale_self]
      cases hunits : highFreqUnits cfg env c with
      | none =>
          rw [hunits] at hhigh
          rw [Option.map_none, JobState.tasks_finalizedScale_of_ne (by decide)]
          exact hhigh
      | some v =>
          have hruns := (highFreqUnits_eq_some hunits).1
          rw [highFreqRuns, Bool.and_eq_true] at hruns
          rw [tallied, hfresh.task hruns.1]
          exact congrArg some (highFreqRow_of_units hunits _).symm
  | lowFreqSummary =>
      rw [finalizedScales, JobState.tasks_finalizedScale_of_ne (by decide),
        JobState.tasks_finalizedScale_of_ne (by decide)]
      exact hlow

end Rows

/-! ### The phases -/

include hsteady hfresh

/-- Phase 2 of a fresh job, after its `motion_scan`. -/
theorem evals_skipPhase_fresh (c₁ : JobView) (htasks : c₁.tasks = (motionPart env c).tasks) :
    ∃ tasks, Evals (skipPhase cfg env c.scaleTasks) c₁
        (.ok ((c.tasks .highFreqEvent).isSome && c₁.hasTriggers)) { c₁ with tasks } ∧
      tasks .defaultSegment = c.tasks .defaultSegment ∧
      tasks .motionScan = (c.tasks .motionScan).map (motionRow env) ∧
      tasks .highFreqEvent = (c.tasks .highFreqEvent).map (fun t =>
        if c₁.hasTriggers = true then t else t.moveTo .skipped none (some .noMotionTrigger)) ∧
      tasks .lowFreqSummary = (c.tasks .lowFreqSummary).map
        (fun t => t.moveTo .skipped none (some .notEnabled)) := by
  have hisSome : ∀ s, (c₁.tasks s).isSome = (c.tasks s).isSome := by
    intro s
    rw [htasks, tasks_motionPart]
    by_cases hs : s = .motionScan
    · rw [hs, Function.update_self, Option.isSome_map]
    · rw [Function.update_of_ne hs]
  have hskippable : ∀ {s}, s ≠ .motionScan → Skippable c₁ s := by
    intro s hne t ht hinactive
    rw [htasks, tasks_motionPart, Function.update_of_ne hne] at ht
    rw [hfresh.created s t ht]
    rfl
  have heval : Evals (skipPhase cfg env c.scaleTasks) c₁ _ _ := evals_skipPhase
    (fun s => by rw [mem_scaleTasks, hisSome]) hsteady.hasTriggers
    (fun s => hsteady.writes _) (fun s => (hsteady.ofScale s).skippedEvent)
    (hskippable (by decide)) (hskippable (by decide))
  rw [hisSome] at heval
  refine ⟨c₁.skipInactive.tasks, heval, ?_, ?_, ?_, ?_⟩
  all_goals
    simp only [JobState.skipInactive, htasks, tasks_motionPart, inactiveIn]
  · simp
  · rw [Function.update_self, Option.map_map]
    rfl
  · rw [Function.update_of_ne (by decide)]
    cases c₁.hasTriggers <;> rfl
  · rw [Function.update_of_ne (by decide)]

/-- Phase 3 of a fresh job, for `high_freq_event`, from a view that planning sees
like `planView`. -/
theorem evals_planHighFreqPhase_fresh (c₃ : JobView)
    (hinput : c₃.planInput = (planView env c).planInput)
    (htask : c₃.tasks .highFreqEvent = (c.tasks .highFreqEvent).map fun t =>
      if (planView env c).hasTriggers = true then t
      else t.moveTo .skipped none (some .noMotionTrigger)) :
    ∃ tasks, Evals (planHighFreqPhase cfg env (highFreqRuns env c)) c₃
        (.ok (highFreqInTask cfg env c)) { c₃ with tasks } ∧
      (∀ s, s ≠ .highFreqEvent → tasks s = c₃.tasks s) ∧
      tasks .highFreqEvent = match highFreqUnits cfg env c with
        | some _ => some ScaleTaskRow.created.started
        | none => (c.tasks .highFreqEvent).map (highFreqRow cfg env c) := by
  have hplan : highFreqPlanOf cfg env (some .highFreqEvent) c₃
      = (highFreqPlanned cfg env c).map (List.map (.inTask (some .highFreqEvent))) := by
    rw [highFreqPlanOf_congr hinput, highFreqPlanOf_inTask]
    rfl
  cases hruns : highFreqRuns env c with
  | false =>
      have hunits : highFreqUnits cfg env c = none := by
        rw [highFreqUnits, hruns]
        rfl
      rw [highFreqInTask, hunits]
      refine ⟨c₃.tasks, Evals.pure none c₃, fun _ _ => rfl, ?_⟩
      rw [htask]
      cases ht : c.tasks .highFreqEvent with
      | none => rfl
      | some t =>
          rw [highFreqRuns, ht] at hruns
          have htriggers : ¬ (planView env c).hasTriggers = true := by simpa using hruns
          rw [Option.map_some, Option.map_some, if_neg htriggers, highFreqRow, if_neg htriggers]
  | true =>
      have hruns' := hruns
      rw [highFreqRuns, Bool.and_eq_true] at hruns'
      obtain ⟨hsome, htriggers⟩ := hruns'
      have ht := hfresh.task hsome
      rw [ht, Option.map_some, if_pos htriggers] at htask
      have heval := (hsteady.ofScale _).evals_planHighFreqPhase htask rfl
      rw [hplan] at heval
      have hunits : highFreqUnits cfg env c = (highFreqPlanned cfg env c).toOption := by
        rw [highFreqUnits, if_pos hruns]
      rw [highFreqInTask, hunits, ht]
      cases hp : highFreqPlanned cfg env c with
      | ok us =>
          rw [hp] at heval
          exact ⟨_, heval, fun s hne => by simp [hne], by simp [Except.toOption]⟩
      | error e =>
          rw [hp] at heval
          refine ⟨_, heval, fun s hne => by simp [hne], ?_⟩
          simp [Except.toOption, highFreqRow, htriggers, hp]

/-- The cross-scale path on a fresh job: it fails where the default plan does, and
otherwise every scale and the job take the status of the tallies. -/
theorem evals_crossScale_fresh :
    ∃ c', Evals (processCrossScale cfg env c.scaleTasks) c (.ok ()) c' ∧
      match defaultPlan cfg env with
      | .error _ => c'.job.jobStatus = .failed
      | .ok us => c'.job.jobStatus = talliedStatus cfg env c us ∧ c'.tasks = tallied cfg env c us := by
  obtain ⟨tasks, hskip, hdefault, hmotion, hhigh, hlow⟩ :=
    evals_skipPhase_fresh hsteady hfresh (motionPart env c) rfl
  have hmem : .defaultSegment ∈ c.scaleTasks := by
    rw [mem_scaleTasks, hfresh.required]
    rfl
  set c₂ : JobView := { motionPart env c with tasks } with hc₂
  have hrequired : c₂.tasks .defaultSegment = some .created := hdefault.trans hfresh.required
  have hjob₂ : c₂.job.jobStatus = .running := by
    rw [hc₂]
    dsimp only
    rw [job_motionPart]
    exact hfresh.running
  have hplan := (hsteady.ofScale _).evals_planDefaultPhase hmem hrequired rfl
  have hrun : ∀ {r : Except Exn Unit} {c' : JobView},
      Evals (match defaultPlan cfg env with
        | .error e => handleRequiredFailure cfg env e
        | .ok defaultUnits => do
            let highFreqUnits ← planHighFreqPhase cfg env (highFreqRuns env c)
            runPlanned cfg env
              (if .defaultSegment ∈ c.scaleTasks then some defaultUnits else none) highFreqUnits
              (motionFailed env c || (highFreqRuns env c && highFreqUnits.isNone)))
        (match defaultPlan cfg env with
          | .ok _ => defaultStarted env .created c₂
          | .error _ => c₂.setTask .defaultSegment ScaleTaskRow.created.started) r c' →
      Evals (processCrossScale cfg env c.scaleTasks) c r c' := fun hrest =>
    (evals_motionPhase_startable (hsteady.ofScale _) (hfresh.startable _)).bind
      (hskip.bind (hplan.attempt.bind hrest))
  cases hp : defaultPlan cfg env with
  | error e =>
      -- the required scale cannot be planned
      rw [hp] at hrun
      obtain ⟨c', heval, hended, -⟩ := @evals_handleRequiredFailure cfg env
        (c₂.setTask .defaultSegment ScaleTaskRow.created.started) e hsteady.job.required
        hsteady.job.requiredEvent hsteady.job.failedEvent hsteady.job.taskFailedEvent hjob₂
      exact ⟨c', hrun heval, hended.status⟩
  | ok us =>
      rw [hp] at hrun
      dsimp only at hrun ⊢
      rw [if_pos hmem] at hrun
      set c₃ := defaultStarted env .created c₂ with hc₃
      obtain ⟨tasks', hphase, hothers, hrow⟩ :=
        evals_planHighFreqPhase_fresh hsteady hfresh c₃ rfl hhigh
      set c₄ : JobView := { c₃ with tasks := tasks' } with hc₄
      have hfresh₄ : ∀ k, c₄.units k = none := by
        intro k
        show (motionPart env c).units k = none
        rw [units_motionPart]
        exact hfresh.fresh k
      have hdefault₄ : c₄.tasks .defaultSegment = some ScaleTaskRow.created.started := by
        show tasks' .defaultSegment = _
        rw [hothers _ (by decide), hc₃]
        simp [defaultStarted, JobState.updateProbeMetadata]
      have hplans : PlansOf cfg env c₄ (some us) (highFreqInTask cfg env c) :=
        plansOf_highFreqInTask hp rfl
      obtain ⟨c', heval, hstatus, -, htasks⟩ := hsteady.job.evals_runPlanned
        (hsteady.writes _) (hsteady.ofScale _).finishedEvent (hsteady.ofScale _).finishedEvent
        (some us) (highFreqInTask cfg env c)
        (motionFailed env c || (highFreqRuns env c && (highFreqInTask cfg env c).isNone))
        hplans hjob₂
        (fun _ => ⟨_, hdefault₄, ScaleTaskRow.status_started _⟩) (fun h => by cases h)
        (fun hsome => by
          rw [highFreqInTask, Option.isSome_map] at hsome
          obtain ⟨v, hv⟩ := Option.isSome_iff_exists.mp hsome
          rw [hv] at hrow
          exact ⟨_, hrow, ScaleTaskRow.status_started _⟩)
      have htallyDefault : scaleTally env c₄ (some us) = some (freshResult env us) :=
        congrArg some (tally_of_fresh fun u _ => hfresh₄ u.key)
      refine ⟨c', hrun (hphase.bind heval), ?_, ?_⟩
      · rw [hstatus, htallyDefault, scaleTally_highFreqInTask hfresh₄, isNone_highFreqInTask]
        rfl
      · rw [htasks, htallyDefault, scaleTally_highFreqInTask hfresh₄]
        exact tasks_finalizedScales_tallied hfresh ((hothers _ (by decide)).trans hmotion) hrow
          ((hothers _ (by decide)).trans hlow)

end CrossScale

/-! ## The sequential path -/

section Sequential

variable {c₁ c₂ : JobView}

theorem continues_motion (hsteady : ScaleSteady cfg env .motionScan)
    (hstart : Startable c .motionScan)
    (rest : List AnalysisScale) (p : Bool) (htask : c₁.tasks .motionScan = c.tasks .motionScan) :
    Continues cfg env (c.withTask .motionScan rest) p c₁ rest (p || motionFailed env c)
      (motionPart env c₁) := by
  intro r c' hrest
  unfold JobState.withTask
  unfold motionFailed motionPart at hrest
  rw [htask] at hrest
  cases ht : c.tasks .motionScan with
  | none =>
      rw [ht] at hrest
      simpa using hrest
  | some t =>
      rw [ht] at hrest
      exact hsteady.evals_loop_motion (htask.trans ht) (hstart t ht rfl) hrest

theorem continues_low (hsteady : ScaleSteady cfg env .lowFreqSummary) (hfresh : FreshView c)
    (rest : List AnalysisScale) (p : Bool) (htask : c₁.tasks .lowFreqSummary = c.tasks .lowFreqSummary) :
    Continues cfg env (c.withTask .lowFreqSummary rest) p c₁ rest p
      (c₁.skipIf (c.tasks .lowFreqSummary).isSome .lowFreqSummary .notEnabled) := by
  intro r c' hrest
  unfold JobState.withTask
  unfold JobState.skipIf at hrest
  rw [htask] at hrest
  cases ht : c.tasks .lowFreqSummary with
  | none =>
      rw [ht, Option.map_none, ← ht, ← htask, Function.update_eq_self] at hrest
      exact hrest
  | some t =>
      rw [ht] at hrest
      have hskip := hsteady.evals_skip .notEnabled (htask.trans ht)
        (hfresh.skippable .lowFreqSummary t ht (by simp [inactiveIn]))
      have hreason : Evals (inactiveReason env .lowFreqSummary) c₁ (.ok (some .notEnabled)) c₁ :=
        Evals.pure _ _
      exact evals_loop_skipped (hreason.bind (hskip.bind (Evals.pure _ _))) hrest

/-- What the loop makes of `high_freq_event`: its row is that of its tally, but an
escape fails it outright, with the counts it was created with. -/
def HighFreqContinues (cfg : WorkerConfig) (env : WorkerEnv) (c c₁ : JobView)
    (rest : List AnalysisScale) (p : Bool) : Prop :=
  ∃ tasks units, Continues cfg env (c.withTask .highFreqEvent rest) p c₁ rest
      (p || ((highFreqRuns env c && (highFreqUnits cfg env c).isNone) ||
        ((highFreqUnits cfg env c).map (freshResult env)).any fun r => decide (r.failed ≠ 0)))
      { c₁ with tasks, units } ∧
    (∀ s, s ≠ .highFreqEvent → tasks s = c₁.tasks s) ∧
    (¬ HighFreqEscapes cfg env c →
      tasks .highFreqEvent = (c.tasks .highFreqEvent).map (highFreqRow cfg env c)) ∧
    (HighFreqEscapes cfg env c → ∃ code, tasks .highFreqEvent
      = some (ScaleTaskRow.created.started.moveTo .failed (some code) none))

section HighFreq

variable (rest : List AnalysisScale) (p : Bool)

theorem not_highFreqEscapes (hnone : highFreqUnits cfg env c = none) :
    ¬ HighFreqEscapes cfg env c := by
  rintro ⟨us, hus, -⟩
  rw [hnone] at hus
  cases hus

/-- The job has no such scale. -/
theorem highFreqContinues_absent (htask : c₁.tasks .highFreqEvent = c.tasks .highFreqEvent)
    (ht : c.tasks .highFreqEvent = none) : HighFreqContinues cfg env c c₁ rest p := by
  have hruns : highFreqRuns env c = false := by simp [highFreqRuns, ht]
  have hnone : highFreqUnits cfg env c = none := by simp [highFreqUnits, hruns]
  refine ⟨c₁.tasks, c₁.units, ?_, fun _ _ => rfl, fun _ => ?_,
    fun h => absurd h (not_highFreqEscapes hnone)⟩
  · intro r c' hrest
    rw [hruns, hnone] at hrest
    unfold JobState.withTask
    rw [ht]
    simpa using hrest
  · rw [htask, ht]
    rfl

variable (hsteady : Steady cfg env) (ht : c.tasks .highFreqEvent = some .created)
  (htask : c₁.tasks .highFreqEvent = some .created)
  (htriggers : c₁.hasTriggers = (planView env c).hasTriggers)

include hsteady ht htask htriggers

theorem highFreqContinues_skipped (hnot : (planView env c).hasTriggers = false) :
    HighFreqContinues cfg env c c₁ rest p := by
  have hruns : highFreqRuns env c = false := by simp [highFreqRuns, hnot]
  have hnone : highFreqUnits cfg env c = none := by simp [highFreqUnits, hruns]
  have hinactive : inactiveIn c₁ .highFreqEvent = some .noMotionTrigger := by
    rw [inactiveIn, htriggers, hnot]
    rfl
  refine ⟨(c₁.setTask .highFreqEvent
    (ScaleTaskRow.created.moveTo .skipped none (some .noMotionTrigger))).tasks, c₁.units, ?_,
    fun s hne => Function.update_of_ne hne _ _, fun _ => ?_,
    fun h => absurd h (not_highFreqEscapes hnone)⟩
  · rw [hruns, hnone]
    unfold JobState.withTask
    rw [ht]
    intro r c' hrest
    refine evals_loop_skipped ((hsteady.ofScale _).evals_processSkip_ok hsteady.hasTriggers htask
      hinactive rfl) ?_
    simp only [Bool.false_and, Option.map_none, Option.any_none, Bool.or_false] at hrest
    exact hrest
  · rw [ht, Option.map_some, highFreqRow, if_neg (by rw [hnot]; exact Bool.false_ne_true),
      JobState.tasks_setTask, Function.update_self]

variable (htr : (planView env c).hasTriggers = true)
  (hplan : highFreqPlanOf cfg env none c₁ = highFreqPlanned cfg env c)

include htr hplan

/-- Planning raises, and the loop marks the scale failed. -/
theorem highFreqContinues_planError {e : Exn} (hp : highFreqPlanned cfg env c = .error e) :
    HighFreqContinues cfg env c c₁ rest p := by
  have hruns : highFreqRuns env c = true := by simp [highFreqRuns, ht, htr]
  have hnone : highFreqUnits cfg env c = none := by
    simp [highFreqUnits, hruns, hp, Except.toOption]
  have hrow : highFreqRow cfg env c .created
      = ScaleTaskRow.created.started.moveTo .failed (some (classifyError e)) none := by
    simp [highFreqRow, htr, hp]
  refine ⟨(c₁.setTask .highFreqEvent (ScaleTaskRow.created.started.moveTo .failed
    (some (classifyError e)) none)).tasks, c₁.units, ?_, fun s hne => Function.update_of_ne hne _ _,
    fun _ => ?_, fun h => absurd h (not_highFreqEscapes hnone)⟩
  · rw [hruns, hnone]
    unfold JobState.withTask
    rw [ht]
    intro r c' hrest
    simp only [Option.isNone_none, Bool.and_self, Bool.true_or, Bool.or_true] at hrest
    exact evals_loop_failed (by decide)
      ((hsteady.ofScale _).evals_processHighFreq_planError hsteady.hasTriggers htask
        (htriggers.trans htr) rfl (hplan.trans hp))
      ((hsteady.ofScale _).evals_failStarted c₁ .created) hrest
  · rw [ht, Option.map_some, hrow, JobState.tasks_setTask, Function.update_self]

variable {us : List PlannedUnit} (hp : highFreqPlanned cfg env c = .ok us)
  (hfresh₁ : ∀ u ∈ us, c₁.units u.key = none)

include hp hfresh₁

/-- A unit raises past its guard, and its scale fails like one that was not planned. -/
theorem highFreqContinues_escape (hesc : ∃ u ∈ us, EscapesGuard env u) :
    HighFreqContinues cfg env c c₁ rest p := by
  have hruns : highFreqRuns env c = true := by simp [highFreqRuns, ht, htr]
  have hsome : highFreqUnits cfg env c = some us := by
    simp [highFreqUnits, hruns, hp, Except.toOption]
  have hescapes : ∃ u ∈ us, UnitEscapes env c₁ u := by
    obtain ⟨u, hu, hguard⟩ := hesc
    exact ⟨u, hu, (unitEscapes_iff (hfresh₁ u hu)).mpr hguard⟩
  obtain ⟨e, units, heval⟩ := (hsteady.ofScale _).evals_processHighFreq_escape
    hsteady.hasTriggers htask (htriggers.trans htr) rfl (hplan.trans hp) hescapes
  refine ⟨_, units, ?_, fun s hne => Function.update_of_ne hne _ _,
    fun hno => absurd ⟨us, hsome, hesc⟩ hno, fun _ => ⟨classifyError e, Function.update_self ..⟩⟩
  rw [hruns, hsome]
  unfold JobState.withTask
  rw [ht]
  intro r c' hrest
  simp only [Option.isNone_some, Bool.and_false, Option.map_some, Option.any_some,
    failed_freshResult hesc, ne_eq, not_false_eq_true, decide_true, Bool.or_true] at hrest
  exact evals_loop_failed (by decide) heval
    ((hsteady.ofScale _).evals_failStarted { c₁ with units } .created) hrest

/-- Every unit returns, and the scale takes their tally. -/
theorem highFreqContinues_tallied (hesc : ¬ ∃ u ∈ us, EscapesGuard env u) :
    HighFreqContinues cfg env c c₁ rest p := by
  have hruns : highFreqRuns env c = true := by simp [highFreqRuns, ht, htr]
  have hsome : highFreqUnits cfg env c = some us := by
    simp [highFreqUnits, hruns, hp, Except.toOption]
  have hno : ∀ u ∈ us, ¬ UnitEscapes env c₁ u := fun u hu hescapes =>
    hesc ⟨u, hu, (unitEscapes_iff (hfresh₁ u hu)).mp hescapes⟩
  have heval := (hsteady.ofScale _).evals_processHighFreq_ok hsteady.hasTriggers htask
    (htriggers.trans htr) rfl ⟨hplan.trans hp, hno⟩
  have htally : ScaleProcessResult.tally (us.map (unitTally env c₁)) = freshResult env us :=
    tally_of_fresh hfresh₁
  rw [htally] at heval
  set c₂ := unitScaleEnd env .highFreqEvent us
    (c₁.setTask .highFreqEvent ScaleTaskRow.created.started) with hc₂
  refine ⟨c₂.tasks, c₂.units, ?_, fun s hne => ?_, fun _ => ?_, ?_⟩
  · rw [hruns, hsome]
    unfold JobState.withTask
    rw [ht]
    intro r c' hrest
    refine evals_loop_result heval (by simp) ?_
    simp only [Option.isNone_some, Bool.and_false, Option.map_some, Option.any_some,
      Bool.false_or] at hrest
    exact hrest
  · rw [hc₂]
    simp [unitScaleEnd, JobState.runUnits, hne]
  · rw [ht, Option.map_some, hc₂, highFreqRow_of_units hsome, ← htally, unitScaleEnd,
      JobState.tasks_setTask, Function.update_self]
    rfl
  · rintro ⟨us', hus', u, hu, hguard⟩
    cases hsome.symm.trans hus'
    exact absurd ⟨u, hu, hguard⟩ hesc

end HighFreq

variable (hsteady : Steady cfg env) (hfresh : FreshView c) (rest : List AnalysisScale) (p : Bool)

include hsteady hfresh

theorem continues_highFreq (htask : c₁.tasks .highFreqEvent = c.tasks .highFreqEvent)
    (hinput : c₁.planInput = (planView env c).planInput)
    (hunits : ∀ us, highFreqUnits cfg env c = some us → ∀ u ∈ us, c₁.units u.key = none) :
    HighFreqContinues cfg env c c₁ rest p := by
  have htriggers := hasTriggers_of_planInput hinput
  have hplan : highFreqPlanOf cfg env none c₁ = highFreqPlanned cfg env c :=
    highFreqPlanOf_congr hinput
  cases ht : c.tasks .highFreqEvent with
  | none => exact highFreqContinues_absent rest p htask ht
  | some t =>
      obtain rfl := hfresh.created _ t ht
      replace htask := htask.trans ht
      cases htr : (planView env c).hasTriggers with
      | false => exact highFreqContinues_skipped rest p hsteady ht htask htriggers htr
      | true =>
          cases hp : highFreqPlanned cfg env c with
          | error e =>
              exact highFreqContinues_planError rest p hsteady ht htask htriggers htr hplan hp
          | ok us =>
              have hfresh₁ : ∀ u ∈ us, c₁.units u.key = none :=
                hunits us (by simp [highFreqUnits, highFreqRuns, ht, htr, hp, Except.toOption])
              by_cases hesc : ∃ u ∈ us, EscapesGuard env u
              · exact highFreqContinues_escape rest p hsteady ht htask htriggers htr hplan hp
                  hfresh₁ hesc
              · exact highFreqContinues_tallied rest p hsteady ht htask htriggers htr hplan hp
                  hfresh₁ hesc

/-- The default scale of a fresh job gets to a tally that is not an empty
baseline, and none of its units lets an exception escape. -/
structure DefaultTallied (cfg : WorkerConfig) (env : WorkerEnv) (us : List PlannedUnit) : Prop where
  plan : defaultPlan cfg env = .ok us
  noEscape : ∀ u ∈ us, ¬ EscapesGuard env u
  baseline : baselineEmpty (freshResult env us) = false

omit hsteady in
theorem defaultRuns_iff (us : List PlannedUnit) :
    DefaultRuns cfg env .created c us ↔
      defaultPlan cfg env = .ok us ∧ ∀ u ∈ us, ¬ EscapesGuard env u := by
  have hiff : ∀ u, UnitEscapes env c u ↔ EscapesGuard env u := fun u =>
    unitEscapes_iff (hfresh.fresh u.key)
  refine ⟨fun h => ⟨h.plan, fun u hu => ?_⟩, fun h => ⟨rfl, h.1, fun u hu => ?_⟩⟩
  · rw [← hiff]
    exact h.noEscape u hu
  · rw [hiff]
    exact h.2 u hu

/-- The sequential path fails the job where the default scale does not get to a
tally with a record. -/
theorem evals_sequential_failed (hnot : ¬ ∃ us, DefaultTallied cfg env us) :
    ∃ c', Evals (processSequential cfg env c.scaleTasks) c (.ok ()) c' ∧
      c'.job.jobStatus = .failed := by
  have hfail : ∀ (e : Exn) (c₁ : JobView), c₁.job.jobStatus = .running →
      Evals (sequentialLoop cfg env c.scaleTasks false) c (.ok (.error e)) c₁ →
      ∃ c', Evals (processSequential cfg env c.scaleTasks) c (.ok ()) c' ∧
        c'.job.jobStatus = .failed := by
    intro e c₁ hjob hloop
    obtain ⟨c', heval, hended, -⟩ := @evals_handleRequiredFailure cfg env c₁ e
      hsteady.job.required hsteady.job.requiredEvent hsteady.job.failedEvent
      hsteady.job.taskFailedEvent hjob
    exact ⟨c', hloop.bind heval, hended.status⟩
  rw [scaleTasks_of_required (by rw [hfresh.required]; rfl)] at hfail ⊢
  by_cases hruns : ∃ us, DefaultRuns cfg env .created c us
  · obtain ⟨us, hruns⟩ := hruns
    obtain ⟨hplan, hno⟩ := (defaultRuns_iff hfresh us).mp hruns
    have hbase : baselineEmpty (freshResult env us) = true := by
      by_contra hbase
      exact hnot ⟨us, hplan, hno, by simpa using hbase⟩
    have heval := (hsteady.ofScale _).evals_processDefault_ok hfresh.required hruns
    rw [tally_of_fresh fun u _ => hfresh.fresh u.key] at heval
    exact hfail (baselineError (freshResult env us))
      (unitScaleEnd env .defaultSegment us (defaultStarted env .created c)) hfresh.running
      (evals_loop_baseline heval hbase)
  · obtain ⟨e, c₁, heval, hjob⟩ := (hsteady.ofScale _).evals_processDefault_error hfresh.required hruns
    exact hfail e c₁ (hjob ▸ hfresh.running) (evals_loop_required heval)

omit hsteady hfresh in
theorem planInput_motionPart (htask : c₁.tasks .motionScan = c.tasks .motionScan)
    (htriggers : c₁.triggers = c.triggers)
    (hvideo : c₁.video = (c.updateProbeMetadata env.durationMs).video) :
    (motionPart env c₁).planInput = (planView env c).planInput := by
  have hpart : ∀ c : JobView, (motionPart env c).planInput
      = (if (c.tasks .motionScan).isSome = true then triggersAfter env c else c.triggers,
        c.video.videoId, c.video.durationMs) := by
    intro c
    unfold motionPart
    cases c.tasks .motionScan <;> rfl
  have hafter : triggersAfter env c₁ = triggersAfter env c := by
    unfold triggersAfter persistTriggers
    rw [htriggers, hvideo]
    rfl
  rw [hpart, htask, hafter, htriggers, hvideo]
  unfold planView motionPart
  cases c.tasks .motionScan <;> rfl

omit hsteady in
/-- The units of the default plan are none of `high_freq_event`. -/
theorem fresh_highFreq_runUnits {c₁ : JobView} (hplan : defaultPlan cfg env = .ok us)
    (hunits : c₁.units = (c.runUnits env us).units) :
    ∀ hs, highFreqUnits cfg env c = some hs → ∀ u ∈ hs, c₁.units u.key = none := by
  intro hs hhs u hu
  have hkey := ((planOf_highFreqPlanOf (highFreqUnits_eq_some hhs).2).keys u hu).1
  have hnot : u.key ∉ us.map PlannedUnit.key := by
    intro hmem
    obtain ⟨v, hv, hvu⟩ := List.mem_map.mp hmem
    have hkey' := ((planOf_defaultPlan hplan).keys v hv).1
    rw [hvu, hkey] at hkey'
    cases hkey'
  rw [hunits]
  exact (units_runUnits_of_not_mem hnot).trans (hfresh.fresh _)

/-- The sequential path where the default scale gets to a tally with a record:
as the tallies say, unless a unit of `high_freq_event` lets an exception escape. -/
theorem evals_sequential_tallied (h : DefaultTallied cfg env us) :
    ∃ c', Evals (processSequential cfg env c.scaleTasks) c (.ok ()) c' ∧
      c'.job.jobStatus = talliedStatus cfg env c us ∧
      (∀ s, s ≠ .highFreqEvent → c'.tasks s = tallied cfg env c us s) ∧
      (¬ HighFreqEscapes cfg env c →
        c'.tasks .highFreqEvent = tallied cfg env c us .highFreqEvent) ∧
      (HighFreqEscapes cfg env c → ∃ code, c'.tasks .highFreqEvent
        = some (ScaleTaskRow.created.started.moveTo .failed (some code) none)) := by
  have hruns := (defaultRuns_iff hfresh us).mpr ⟨h.plan, h.noEscape⟩
  have heval := (hsteady.ofScale _).evals_processDefault_ok hfresh.required hruns
  rw [tally_of_fresh fun u _ => hfresh.fresh u.key] at heval
  set c₁ := unitScaleEnd env .defaultSegment us (defaultStarted env .created c) with hc₁
  have hrow : c₁.tasks .defaultSegment = some (freshResult env us).finishedRow := by
    have htally := @tally_of_fresh env (defaultStarted env .created c) us
      fun u _ => hfresh.fresh u.key
    rw [hc₁, unitScaleEnd, JobState.tasks_setTask, Function.update_self, htally]
  have hothers : ∀ s, s ≠ .defaultSegment → c₁.tasks s = c.tasks s := by
    intro s hne
    rw [hc₁]
    simp [unitScaleEnd, JobState.runUnits, defaultStarted, JobState.updateProbeMetadata, hne]
  have hmotion := continues_motion (hsteady.ofScale _) (hfresh.startable _)
    (c.withTask .highFreqEvent (c.withTask .lowFreqSummary []))
    (false || decide ((freshResult env us).failed ≠ 0))
    (hothers _ (by decide))
  have hinput : (motionPart env c₁).planInput = (planView env c).planInput :=
    planInput_motionPart (hothers _ (by decide)) rfl rfl
  have htasks₂ : ∀ s, s ≠ .defaultSegment → s ≠ .motionScan →
      (motionPart env c₁).tasks s = c.tasks s := by
    intro s hne hne'
    rw [tasks_motionPart, Function.update_of_ne hne', hothers s hne]
  have hunits : ∀ hs, highFreqUnits cfg env c = some hs →
      ∀ u ∈ hs, (motionPart env c₁).units u.key = none :=
    fresh_highFreq_runUnits hfresh h.plan (units_motionPart ..)
  obtain ⟨tasks, units, hhigh, hkept, hclean, hescaped⟩ :=
    continues_highFreq hsteady hfresh (c.withTask .lowFreqSummary [])
      ((false || decide ((freshResult env us).failed ≠ 0)) || motionFailed env c)
      (htasks₂ _ (by decide) (by decide)) hinput hunits
  set c₃ : JobView := { motionPart env c₁ with tasks, units } with hc₃
  set q := ((false || decide ((freshResult env us).failed ≠ 0)) || motionFailed env c) ||
    ((highFreqRuns env c && (highFreqUnits cfg env c).isNone) ||
      ((highFreqUnits cfg env c).map (freshResult env)).any fun r => decide (r.failed ≠ 0)) with hq
  have hlowTask : c₃.tasks .lowFreqSummary = c.tasks .lowFreqSummary :=
    (hkept _ (by decide)).trans (htasks₂ _ (by decide) (by decide))
  have hlow := continues_low (hsteady.ofScale _) hfresh [] q hlowTask
  set c₄ := c₃.skipIf (c.tasks .lowFreqSummary).isSome .lowFreqSummary .notEnabled with hc₄
  -- the scales in the order of the loop, each from what the one before left
  have hloop : Evals (sequentialLoop cfg env c.scaleTasks false) c (.ok (.ok q)) c₄ := by
    rw [scaleTasks_of_required (by rw [hfresh.required]; rfl)]
    exact evals_loop_result heval (fun hbase => by rw [h.baseline] at hbase; cases hbase.2)
      (hmotion _ _ (hhigh _ _ (hlow _ _ (Evals.pure _ _))))
  have hreconcile := @evals_reconcile cfg env c₄
  rw [hsteady.job.reconcile] at hreconcile
  obtain ⟨c', hfinal, hended, htasks⟩ := @evals_finalizeJob cfg env (reconcileView env c₄) q
    hsteady.job.finalize hsteady.job.finishedEvent
    hsteady.job.taskFinishedEvent (by
      show (motionPart env c₁).job.jobStatus = _
      rw [job_motionPart]
      exact hfresh.running)
  replace htasks : c'.tasks = c₄.tasks := htasks
  have hlast : ∀ s, s ≠ .lowFreqSummary → c'.tasks s = tasks s := by
    intro s hne
    rw [htasks, hc₄, JobState.skipIf]
    exact Function.update_of_ne hne _ _
  refine ⟨c', hloop.bind (hreconcile.bind hfinal), ?_, fun s hne => ?_, fun hno => ?_, fun hesc => ?_⟩
  · rw [hended.status, talliedStatus, jobOutcome, Option.any_some, Option.any_some, h.baseline,
      if_neg (by decide), hq, optionalFailed]
    generalize decide ((freshResult env us).failed ≠ 0) = failed
    generalize ((highFreqUnits cfg env c).map (freshResult env)).any _ = highFailed
    generalize (highFreqRuns env c && (highFreqUnits cfg env c).isNone) = notRun
    cases failed <;> cases motionFailed env c <;> cases notRun <;> rfl
  · cases s with
    | defaultSegment =>
        rw [hlast _ (by decide), hkept _ hne, tasks_motionPart,
          Function.update_of_ne (by decide), hrow, tallied, hfresh.required]
        rfl
    | motionScan =>
        rw [hlast _ (by decide), hkept _ hne, tasks_motionPart, Function.update_self,
          hothers _ (by decide)]
        rfl
    | highFreqEvent => exact absurd rfl hne
    | lowFreqSummary =>
        rw [htasks, hc₄, JobState.skipIf]
        dsimp only
        rw [Function.update_self, hlowTask, tallied]
        cases ht : c.tasks .lowFreqSummary <;> rfl
  · rw [hlast _ (by decide)]
    exact hclean hno
  · rw [hlast _ (by decide)]
    exact hescaped hesc

end Sequential

/-! ## The verdict -/

/-- The scale task shows this status and these counters. -/
def ScaleTaskRow.verdict (t : ScaleTaskRow) : TaskStatus × ℕ × ℕ × ℕ :=
  (t.status, t.totalUnits, t.succeededUnits, t.failedUnits)

/-- Two runs judge the job alike. -/
structure SameVerdict (db db' : JobRows) : Prop where
  status : db.job.jobStatus = db'.job.jobStatus
  scales : db.job.jobStatus ≠ .failed → ∀ s,
    (db.tasks s).map ScaleTaskRow.verdict = (db'.tasks s).map ScaleTaskRow.verdict

/-- The configuration, with `cross_scale.enabled` set. -/
def WorkerConfig.withCrossScale (cfg : WorkerConfig) (b : Bool) : WorkerConfig :=
  { cfg with crossScaleEnabled := b }

/-- The job after a run. -/
def judged (cfg : WorkerConfig) (env : WorkerEnv) (b : Bool) (db : JobRows) : JobRows :=
  (Act.exec (processClaimedTask (cfg.withCrossScale b) env) db).2

/-- No unit lets an exception escape, if the baseline has a record. -/
structure NoEscape (cfg : WorkerConfig) (env : WorkerEnv) (c : JobView) (us : List PlannedUnit) :
    Prop where
  default : ∀ u ∈ us, ¬ EscapesGuard env u
  highFreq : ¬ HighFreqEscapes cfg env c

theorem FreshJob.evals_path {db : JobRows} (hsteady : Steady cfg env) (hfresh : FreshJob db)
    {r : Except Exn Unit}
    (hpath : Evals (if cfg.crossScaleEnabled = true then
        processCrossScale cfg env db.view.started.scaleTasks
      else processSequential cfg env db.view.started.scaleTasks) db.view.started r c') :
    (Act.exec (processClaimedTask cfg env) db).2.view = c' :=
  (hsteady.job.evals_processClaimedTask
    (by rw [show db.view.job.jobStatus = .queued from hfresh.queued]; rfl) hpath db rfl).2

theorem judged_crossScale {db : JobRows} (hsteady : Steady cfg env) (hfresh : FreshJob db) :
    match defaultPlan cfg env with
    | .error _ => (judged cfg env true db).job.jobStatus = .failed
    | .ok us => (judged cfg env true db).job.jobStatus = talliedStatus cfg env db.view.started us ∧
        (judged cfg env true db).tasks = tallied cfg env db.view.started us := by
  have hsteady' : Steady (cfg.withCrossScale true) env := ⟨hsteady.writes, hsteady.steps⟩
  obtain ⟨c', heval, hend⟩ := evals_crossScale_fresh hsteady' hfresh.freshView
  rw [← hfresh.evals_path hsteady' heval] at hend
  exact hend

theorem judged_sequential_failed {db : JobRows} (hsteady : Steady cfg env) (hfresh : FreshJob db)
    (hnot : ¬ ∃ us, DefaultTallied cfg env us) :
    (judged cfg env false db).job.jobStatus = .failed := by
  have hsteady' : Steady (cfg.withCrossScale false) env := ⟨hsteady.writes, hsteady.steps⟩
  obtain ⟨c', heval, hend⟩ := evals_sequential_failed hsteady' hfresh.freshView
    fun ⟨us, h⟩ => hnot ⟨us, h.plan, h.noEscape, h.baseline⟩
  rw [← hfresh.evals_path hsteady' heval] at hend
  exact hend

theorem judged_sequential_tallied {db : JobRows} (hsteady : Steady cfg env) (hfresh : FreshJob db)
    (h : DefaultTallied cfg env us) :
    (judged cfg env false db).job.jobStatus = talliedStatus cfg env db.view.started us ∧
      (∀ s, s ≠ .highFreqEvent →
        (judged cfg env false db).tasks s = tallied cfg env db.view.started us s) ∧
      (¬ HighFreqEscapes cfg env db.view.started → (judged cfg env false db).tasks .highFreqEvent
        = tallied cfg env db.view.started us .highFreqEvent) ∧
      (HighFreqEscapes cfg env db.view.started →
        ∃ code, (judged cfg env false db).tasks .highFreqEvent
          = some (ScaleTaskRow.created.started.moveTo .failed (some code) none)) := by
  have hsteady' : Steady (cfg.withCrossScale false) env := ⟨hsteady.writes, hsteady.steps⟩
  obtain ⟨c', heval, hend⟩ := evals_sequential_tallied hsteady' hfresh.freshView
    ⟨h.plan, h.noEscape, h.baseline⟩
  rw [← hfresh.evals_path hsteady' heval] at hend
  exact hend

theorem talliedStatus_ne_failed (h : baselineEmpty (freshResult env us) = false) :
    talliedStatus cfg env c us ≠ .failed := by
  rw [talliedStatus, jobOutcome, Option.any_some, h, if_neg (by decide), finishedStatus]
  split <;> decide

/-- A tallied escape counts at least one unit; the row it leaves in the loop counts none. -/
theorem verdict_tallied_ne (h : HighFreqEscapes cfg env c)
    (hc : c.tasks .highFreqEvent = some .created) (code : ErrorCode) :
    (tallied cfg env c us .highFreqEvent).map ScaleTaskRow.verdict
      ≠ some (ScaleTaskRow.created.started.moveTo .failed (some code) none).verdict := by
  obtain ⟨hs, hhs, hesc⟩ := h
  have hfailed := failed_freshResult hesc
  rw [tallied, hc, Option.map_some, Option.map_some]
  intro heq
  have hverdict : (highFreqRow cfg env c .created).verdict = _ := Option.some.inj heq
  rw [highFreqRow_of_units hhs] at hverdict
  exact hfailed (congrArg (fun v => v.2.2.2) hverdict)

/-- The two paths judge a fresh job alike exactly when the baseline fails anyway
or no planned unit lets an exception escape. -/
theorem sameVerdict_iff {db : JobRows} (hsteady : Steady cfg env) (hfresh : FreshJob db) :
    SameVerdict (judged cfg env false db) (judged cfg env true db) ↔
      ∀ us, defaultPlan cfg env = .ok us → baselineEmpty (freshResult env us) = false →
        NoEscape cfg env db.view.started us := by
  have hcross := judged_crossScale hsteady hfresh
  have hfailed : ∀ us, defaultPlan cfg env = .ok us → ¬ (∀ u ∈ us, ¬ EscapesGuard env u) ∨
      baselineEmpty (freshResult env us) = true → (judged cfg env false db).job.jobStatus = .failed := by
    intro us hplan hor
    refine judged_sequential_failed hsteady hfresh ?_
    rintro ⟨us', h⟩
    cases hplan.symm.trans h.plan
    rcases hor with hesc | hbase
    · exact hesc h.noEscape
    · rw [h.baseline] at hbase
      cases hbase
  have hboth : (judged cfg env false db).job.jobStatus = .failed →
      (judged cfg env true db).job.jobStatus = .failed →
      SameVerdict (judged cfg env false db) (judged cfg env true db) := fun h h' =>
    ⟨h.trans h'.symm, fun hne => absurd h hne⟩
  constructor
  · intro hsame us hplan hbase
    rw [hplan] at hcross
    obtain ⟨hstatus, htasks⟩ := hcross
    have hne : (judged cfg env false db).job.jobStatus ≠ .failed := by
      rw [hsame.status, hstatus]
      exact talliedStatus_ne_failed hbase
    have hdefault : ∀ u ∈ us, ¬ EscapesGuard env u := by
      by_contra hesc
      exact hne (hfailed us hplan (.inl hesc))
    -- an escape in `high_freq_event` shows in the counts of its scale
    refine ⟨hdefault, fun hesc => ?_⟩
    obtain ⟨-, -, -, hrow⟩ := judged_sequential_tallied hsteady hfresh ⟨hplan, hdefault, hbase⟩
    obtain ⟨code, hcode⟩ := hrow hesc
    have hscale := hsame.scales hne .highFreqEvent
    rw [hcode, htasks] at hscale
    obtain ⟨hs, hhs, -⟩ := id hesc
    have hsome := (highFreqUnits_eq_some hhs).1
    rw [highFreqRuns, Bool.and_eq_true] at hsome
    exact verdict_tallied_ne hesc (hfresh.freshView.task hsome.1) code hscale.symm
  · intro hcond
    cases hplan : defaultPlan cfg env with
    | error e =>
        rw [hplan] at hcross
        refine hboth (judged_sequential_failed hsteady hfresh ?_) hcross
        rintro ⟨us, h⟩
        cases hplan.symm.trans h.plan
    | ok us =>
        rw [hplan] at hcross
        obtain ⟨hstatus, htasks⟩ := hcross
        cases hbase : baselineEmpty (freshResult env us) with
        | true =>
            refine hboth (hfailed us hplan (.inr hbase)) (hstatus.trans ?_)
            rw [talliedStatus, jobOutcome, Option.any_some, if_pos hbase]
        | false =>
            have hno := hcond us hplan hbase
            obtain ⟨hstatus', hothers, hhigh, -⟩ :=
              judged_sequential_tallied hsteady hfresh ⟨hplan, hno.default, hbase⟩
            refine ⟨hstatus'.trans hstatus.symm, fun _ s => ?_⟩
            rw [htasks]
            refine congrArg _ ?_
            by_cases hs : s = .highFreqEvent
            · rw [hs]
              exact hhigh hno.highFreq
            · exact hothers s hs

theorem steady_smooth (b : Bool) : Steady (.basic b) .smooth := ⟨fun _ => rfl, fun _ _ _ => rfl⟩

theorem sameVerdict_smooth :
    SameVerdict (judged (.basic true) .smooth false .queuedJob)
      (judged (.basic true) .smooth true .queuedJob) := by
  have hno : ∀ u, ¬ EscapesGuard .smooth u := fun u h =>
    h.elim (fun hclaim => hclaim rfl) fun hevent => hevent rfl
  exact (sameVerdict_iff (steady_smooth true) freshJob_queuedJob).mpr fun us _ _ =>
    ⟨fun u _ => hno u, fun ⟨hs, _, u, _, hu⟩ => hno u hu⟩

/-- One minute of video; the claim of its first default window meets a locked database. -/
def WorkerEnv.firstClaimLocked : WorkerEnv :=
  { WorkerEnv.smooth with
    durationMs := 60000
    unitEnv := fun _ w => if w.startMs = 0 then WorkerEnv.claimLocked.unitEnv .defaultSegment w
      else UnitEnv.smooth }

/-- One path fails the job that the other ends as partial. -/
theorem verdicts_differ :
    ¬ ∀ (cfg : WorkerConfig) (env : WorkerEnv) (db : JobRows), Steady cfg env → FreshJob db →
      SameVerdict (judged cfg env false db) (judged cfg env true db) := by
  intro h
  have hsame := h (.basic true) .firstClaimLocked .queuedJob ⟨fun _ => rfl, fun _ _ _ => rfl⟩
    freshJob_queuedJob
  have hsequential : (judged (.basic true) .firstClaimLocked false .queuedJob).job.jobStatus
      = .failed := rfl
  have hcross : (judged (.basic true) .firstClaimLocked true .queuedJob).job.jobStatus
      = .partialFailed := rfl
  have hstatus := hsame.status
  rw [hsequential, hcross] at hstatus
  cases hstatus

end CctvMemory.Worker
