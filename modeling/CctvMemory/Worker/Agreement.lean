import CctvMemory.Worker.Stages

/-!
# Finalization and the unit rows

The counters and statuses that phases 5 and 6 store, against the ones computed
from the unit rows in the database.

* `finalizationAgrees_iff`: they agree exactly when every planned unit of a
  finalized scale keeps its row.
-/

namespace CctvMemory.Worker

open Keyed (Table)

variable {cfg : WorkerConfig} {env : WorkerEnv} {c : JobView} {scale : AnalysisScale}
  {us default highFreq : List PlannedUnit}

/-! ## Dispatch -/

theorem PlanOf.nil (scaleTask : Option AnalysisScale) (scale : AnalysisScale) :
    PlanOf scaleTask scale [] :=
  ⟨List.nodup_nil, fun u hu => by cases hu⟩

/-- Units of different scales have different keys. -/
theorem nodup_dispatchOrder {st st' : Option AnalysisScale} (quota : ℕ)
    (hhigh : PlanOf st .highFreqEvent highFreq) (hdef : PlanOf st' .defaultSegment default) :
    ((dispatchOrder quota highFreq default).map PlannedUnit.key).Nodup := by
  have hperm := (dispatchOrder_perm quota highFreq default).map PlannedUnit.key
  rw [hperm.nodup_iff, List.map_append, List.nodup_append]
  refine ⟨hhigh.nodup, hdef.nodup, ?_⟩
  rintro k hk k' hk' rfl
  obtain ⟨u, hu, rfl⟩ := List.mem_map.mp hk
  obtain ⟨v, hv, heq⟩ := List.mem_map.mp hk'
  have hscales := (hdef.keys v hv).2
  rw [heq, (hhigh.keys u hu).2] at hscales
  cases hscales

theorem tallyOf_map {f : PlannedUnit → UnitOutcome} {ordered : List PlannedUnit}
    (h : (ordered.filter fun u => decide (u.key.analysisScale = scale)).Perm us) :
    tallyOf scale ordered (ordered.map f) = .tally (us.map f) := by
  rw [tallyOf, ← List.map_prod_left_eq_zip, List.filter_map, List.map_map]
  exact ScaleProcessResult.tally_perm (h.map f)

theorem filter_scale_self {st : Option AnalysisScale} (h : PlanOf st scale us) :
    us.filter (fun u => decide (u.key.analysisScale = scale)) = us :=
  List.filter_eq_self.mpr fun u hu => decide_eq_true (h.keys u hu).2

theorem filter_scale_other {st : Option AnalysisScale} {scale' : AnalysisScale}
    (h : PlanOf st scale us) (hne : scale ≠ scale') :
    us.filter (fun u => decide (u.key.analysisScale = scale')) = [] := by
  refine List.filter_eq_nil_iff.mpr fun u hu => ?_
  rw [(h.keys u hu).2]
  simpa using hne

/-- The tallies of the dispatched units are the tallies of the two plans. -/
theorem tallyOf_dispatchOrder {st st' : Option AnalysisScale} (quota : ℕ)
    (hhigh : PlanOf st .highFreqEvent highFreq) (hdef : PlanOf st' .defaultSegment default)
    (f : PlannedUnit → UnitOutcome) :
    tallyOf .defaultSegment (dispatchOrder quota highFreq default)
        ((dispatchOrder quota highFreq default).map f) = .tally (default.map f) ∧
    tallyOf .highFreqEvent (dispatchOrder quota highFreq default)
        ((dispatchOrder quota highFreq default).map f) = .tally (highFreq.map f) := by
  have hperm := dispatchOrder_perm quota highFreq default
  constructor
  · refine tallyOf_map ((hperm.filter _).trans ?_)
    rw [List.filter_append, filter_scale_self hdef, filter_scale_other hhigh (by decide)]
    exact List.Perm.refl _
  · refine tallyOf_map ((hperm.filter _).trans ?_)
    rw [List.filter_append, filter_scale_self hhigh, filter_scale_other hdef (by decide),
      List.append_nil]

/-! ## Phases 4 to 6 -/

/-- The job status of phase 6. -/
def jobOutcome (default highFreq : Option ScaleProcessResult) (anyPartial : Bool) : JobStatus :=
  if default.any baselineEmpty = true then .failed
  else finishedStatus (anyPartial || default.any (fun r => decide (r.failed ≠ 0)) ||
    highFreq.any fun r => decide (r.failed ≠ 0))

theorem ends_jobOutcomePhase {ds hf : Option ScaleProcessResult} {p : Bool}
    (hjob : c.job.jobStatus = .running) (hdef : isRunning (c.tasks .defaultSegment) = false) :
    Ends (jobOutcomePhase cfg env ds hf p) c fun _ c' =>
      c' = c ∨ JobEnded (jobOutcome ds hf p) c c' ∧ c'.tasks = c.tasks := by
  unfold jobOutcomePhase jobOutcome
  cases ds with
  | none => exact ends_finalizeJob _ hjob
  | some r =>
      simp only [Option.filter_some, Option.any_some]
      cases hempty : baselineEmpty r with
      | false => exact ends_finalizeJob _ hjob
      | true =>
          refine (ends_handleRequiredFailure _ hjob).imp fun _ c' h => h.imp_right ?_
          rw [requiredFailedTasks, if_neg (by rw [hdef]; decide)]
          exact fun h => h

/-- The view after `_finalize_scale_task` of a scale that runs. -/
def JobState.finalizedScale (scale : AnalysisScale) (r : Option ScaleProcessResult)
    (c : JobView) : JobView :=
  match r with
  | some r => c.setTask scale r.finishedRow
  | none => c

theorem JobState.tasks_finalizedScale_self (scale : AnalysisScale)
    (r : Option ScaleProcessResult) (c : JobView) :
    (c.finalizedScale scale r).tasks scale = match r with
      | some r => some r.finishedRow
      | none => c.tasks scale := by
  cases r <;> simp [finalizedScale]

theorem JobState.tasks_finalizedScale_of_ne {scale scale' : AnalysisScale} (h : scale' ≠ scale)
    (r : Option ScaleProcessResult) (c : JobView) :
    (c.finalizedScale scale r).tasks scale' = c.tasks scale' := by
  cases r <;> simp [finalizedScale, h]

/-- The view after phase 5. -/
def finalizedScales (ds hf : Option ScaleProcessResult) (c : JobView) : JobView :=
  (c.finalizedScale .defaultSegment ds).finalizedScale .highFreqEvent hf

theorem finalizeScaleTaskIf_of_running {r : Option ScaleProcessResult}
    (h : r.isSome = true → ∃ t, c.tasks scale = some t ∧ Running t) :
    finalizeScaleTaskIf scale r c = .ok (c.finalizedScale scale r) := by
  cases r with
  | none => rfl
  | some r =>
      obtain ⟨t, ht, hrunning⟩ := h rfl
      exact JobState.finalizeScaleTask_of_running ht hrunning

theorem finalizeScalesWrite_of_running {ds hf : Option ScaleProcessResult}
    (hdef : ds.isSome = true → ∃ t, c.tasks .defaultSegment = some t ∧ Running t)
    (hhigh : hf.isSome = true → ∃ t, c.tasks .highFreqEvent = some t ∧ Running t) :
    finalizeScalesWrite ds hf c = .ok ((), finalizedScales ds hf c) := by
  have hhigh' : hf.isSome = true →
      ∃ t, (c.finalizedScale .defaultSegment ds).tasks .highFreqEvent = some t ∧ Running t := by
    rw [JobState.tasks_finalizedScale_of_ne (by decide)]
    exact hhigh
  unfold finalizeScalesWrite
  rw [finalizeScaleTaskIf_of_running hdef]
  show (finalizeScaleTaskIf .highFreqEvent hf (c.finalizedScale .defaultSegment ds) >>= _) = _
  rw [finalizeScaleTaskIf_of_running hhigh']
  rfl

theorem view_finalizeScaleTaskIf (db : JobRows) (scale : AnalysisScale)
    (r : Option ScaleProcessResult) :
    (finalizeScaleTaskIf scale r db).map JobRows.view = finalizeScaleTaskIf scale r db.view := by
  cases r with
  | none => rfl
  | some r => exact view_finalizeScaleTask db scale r

theorem actsOn_finalizeScalesWrite (ds hf : Option ScaleProcessResult) :
    ActsOn (finalizeScalesWrite ds hf) (finalizeScalesWrite ds hf) := fun db =>
  view_bind (view_finalizeScaleTaskIf db _ ds) fun db₁ =>
    view_bind (view_finalizeScaleTaskIf db₁ _ hf) fun _ => rfl

theorem permanent_finalizeScalesWrite (ds hf : Option ScaleProcessResult) (c : JobView) :
    Permanent (finalizeScalesWrite ds hf c) := by
  have hif : ∀ (scale : AnalysisScale) (r : Option ScaleProcessResult) (c : JobView),
      Permanent (finalizeScaleTaskIf scale r c) := by
    intro scale r c
    cases r with
    | none => exact Permanent.ok _
    | some r => exact permanent_transitionScaleTask
  exact (hif _ _ _).bind fun _ => (hif _ _ _).bind fun _ => Permanent.ok _

/-- The tally of a scale that runs. -/
def scaleTally (env : WorkerEnv) (c : JobView) (plan : Option (List PlannedUnit)) :
    Option ScaleProcessResult :=
  plan.map fun us => .tally (us.map (unitTally env c))

/-- The units in dispatch order. -/
def dispatched (cfg : WorkerConfig) (df hf : Option (List PlannedUnit)) : List PlannedUnit :=
  dispatchOrder (max 1 cfg.highFreqQuota) (hf.getD []) (df.getD [])

/-- What a run leaves when phase 5 committed on the plans `df` and `hf` from `c`. -/
structure Committed (cfg : WorkerConfig) (env : WorkerEnv) (df hf : Option (List PlannedUnit))
    (anyPartial : Bool) (c c' : JobView) : Prop where
  tasks : c'.tasks = (finalizedScales (scaleTally env c df) (scaleTally env c hf) c).tasks
  units : c'.units = (reconcileView env (c.runUnits env (dispatched cfg df hf))).units
  planInput : c'.planInput = c.planInput
  job : c'.job.jobStatus.isTerminal = true →
    c'.job.jobStatus = jobOutcome (scaleTally env c df) (scaleTally env c hf) anyPartial

variable {df hf : Option (List PlannedUnit)} {b active : Bool} {scales : List AnalysisScale}

theorem planOf_getD {scaleTask : Option AnalysisScale} {plan : Option (List PlannedUnit)}
    (h : ∀ us, plan = some us → PlanOf scaleTask scale us) : PlanOf scaleTask scale (plan.getD []) := by
  cases plan with
  | none => exact PlanOf.nil _ _
  | some us => exact h us rfl

/-- The plans of a run: its default plan, and its high-frequency plan from `c`. -/
structure PlansOf (cfg : WorkerConfig) (env : WorkerEnv) (c : JobView)
    (df hf : Option (List PlannedUnit)) : Prop where
  default : ∀ us, df = some us → defaultPlan cfg env = .ok us
  highFreq : ∀ us, hf = some us → highFreqPlanOf cfg env (some .highFreqEvent) c = .ok us

namespace PlansOf

variable (h : PlansOf cfg env c df hf)

include h

theorem planOf_default : PlanOf (some .defaultSegment) .defaultSegment (df.getD []) :=
  planOf_getD fun us hus => planOf_defaultPlan (h.default us hus)

theorem planOf_highFreq : PlanOf (some .highFreqEvent) .highFreqEvent (hf.getD []) :=
  planOf_getD fun us hus => planOf_highFreqPlanOf (h.highFreq us hus)

theorem nodup_dispatched : ((dispatched cfg df hf).map PlannedUnit.key).Nodup :=
  nodup_dispatchOrder _ h.planOf_highFreq h.planOf_default

theorem scaleTally_default :
    (df.map fun _ => tallyOf .defaultSegment (dispatched cfg df hf)
      ((dispatched cfg df hf).map (unitTally env c))) = scaleTally env c df := by
  have htally := (tallyOf_dispatchOrder (max 1 cfg.highFreqQuota) h.planOf_highFreq
    h.planOf_default (unitTally env c)).1
  cases df with
  | none => rfl
  | some us => exact congrArg some htally

theorem scaleTally_highFreq :
    (hf.map fun _ => tallyOf .highFreqEvent (dispatched cfg df hf)
      ((dispatched cfg df hf).map (unitTally env c))) = scaleTally env c hf := by
  have htally := (tallyOf_dispatchOrder (max 1 cfg.highFreqQuota) h.planOf_highFreq
    h.planOf_default (unitTally env c)).2
  cases hf with
  | none => rfl
  | some us => exact congrArg some htally

end PlansOf

theorem Unfinalized.congr {c' : JobView} (h : Unfinalized c) (hjob : c'.job = c.job)
    (htasks : c'.tasks = c.tasks) : Unfinalized c' where
  scales := by
    rw [htasks]
    exact h.scales
  job := by
    rw [hjob, htasks]
    exact h.job

theorem status_finishedRow_ne_running (r : ScaleProcessResult) : r.finishedRow.status ≠ .running := by
  show r.status ≠ _
  unfold ScaleProcessResult.status
  split
  · decide
  · split <;> decide

/-- Phase 5 commits, or raises and changes nothing. -/
theorem ends_finalizeScalesPhase {ds hs : Option ScaleProcessResult}
    (hdef : ds.isSome = true → ∃ t, c.tasks .defaultSegment = some t ∧ Running t)
    (hhigh : hs.isSome = true → ∃ t, c.tasks .highFreqEvent = some t ∧ Running t) :
    Ends (finalizeScalesPhase cfg env ds hs) c fun r c' =>
      c' = finalizedScales ds hs c ∨ c' = c ∧ ∀ a, r ≠ .ok a := by
  refine Ends.bind (Q := OkOrError (fun _ c' => c' = finalizedScales ds hs c) fun c' => c' = c)
    (ends_writeSession (actsOn_finalizeScalesWrite _ _) (permanent_finalizeScalesWrite _ _)
      (fun a c' h => ?_) fun _ => rfl) ?_ fun e c' h => .inr ⟨h, fun a ha => by cases ha⟩
  · rw [finalizeScalesWrite_of_running hdef hhigh] at h
    cases h
    rfl
  · rintro - c' rfl
    refine Ends.bind (Q := fun _ c' => c' = finalizedScales ds hs c)
      (ends_workerStepIf rfl fun _ => rfl) ?_ fun _ _ h => .inl h
    rintro - c' rfl
    exact ends_workerStepIf (.inl rfl) fun _ => .inl rfl

theorem ReadyToRun.unfinalized (h : ReadyToRun cfg env scales b active hf c) : Unfinalized c := by
  refine h.stage.unfinalized_of_rows (fun _ => Running.onCounts) fun t ht => ?_
  unfold HighFreqRow at ht
  split at ht
  · exact Running.onCounts ht
  · exact ht

theorem ReadyToRun.default_running (h : ReadyToRun cfg env scales b active hf c)
    (hdf : ∀ us, df = some us → .defaultSegment ∈ scales ∧ defaultPlan cfg env = .ok us)
    (hsome : (scaleTally env c df).isSome = true) :
    ∃ t, c.tasks .defaultSegment = some t ∧ Running t := by
  rw [scaleTally, Option.isSome_map] at hsome
  obtain ⟨us, hus⟩ := Option.isSome_iff_exists.mp hsome
  exact h.stage.task (hdf us hus).1

theorem ReadyToRun.highFreq_running (h : ReadyToRun cfg env scales b active hf c)
    (hsome : (scaleTally env c hf).isSome = true) :
    ∃ t, c.tasks .highFreqEvent = some t ∧ Running t := by
  rw [scaleTally, Option.isSome_map] at hsome
  obtain ⟨t, ht, hrow⟩ := h.stage.task (h.member hsome)
  refine ⟨t, ht, ?_⟩
  have hrow : if hf.isSome = true then Running t else _ := hrow
  rwa [if_pos hsome] at hrow

/-- After phase 5 a failure of phase 6 does not touch the required scale. -/
theorem ReadyToRun.default_not_running (h : ReadyToRun cfg env scales b active hf c)
    (hmem : .defaultSegment ∈ scales → df.isSome = true) {c₂ : JobView}
    (htasks : c₂.tasks = c.tasks) :
    isRunning ((finalizedScales (scaleTally env c df) (scaleTally env c hf) c₂).tasks
      .defaultSegment) = false := by
  rw [finalizedScales, JobState.tasks_finalizedScale_of_ne (by decide),
    JobState.tasks_finalizedScale_self]
  cases hds : scaleTally env c df with
  | some r => simp [isRunning, status_finishedRow_ne_running r]
  | none =>
      rw [scaleTally, Option.map_eq_none_iff] at hds
      have habsent : .defaultSegment ∉ scales := fun hs => by
        have hsome := hmem hs
        rw [hds] at hsome
        cases hsome
      show isRunning (c₂.tasks .defaultSegment) = false
      rw [htasks, h.stage.absent habsent]
      rfl

theorem ends_runPlanned {p : Bool} (hready : ReadyToRun cfg env scales b active hf c)
    (hdf : ∀ us, df = some us → .defaultSegment ∈ scales ∧ defaultPlan cfg env = .ok us)
    (hmem : .defaultSegment ∈ scales → df.isSome = true) :
    Ends (runPlanned cfg env df hf p) c fun _ c' =>
      Unfinalized c' ∨ Committed cfg env df hf p c c' := by
  have hplans : PlansOf cfg env c df hf := ⟨fun us hus => (hdf us hus).2, hready.plan⟩
  have hunfinalized := hready.unfinalized
  set units := dispatched cfg df hf with hunits
  refine Ends.bind (Q := fun r c' => r = .ok (units.map (unitTally env c)) ∧
      c' = c.runUnits env units)
    ((evals_dispatchPhase hplans.nodup_dispatched c).ends ⟨rfl, rfl⟩) ?_
    fun e c' h => by cases h.1
  rintro outcomes c₁ ⟨houtcomes, rfl⟩
  cases houtcomes
  set c₂ := reconcileView env (c.runUnits env units) with hc₂
  refine Ends.bind (Q := OkOrError (fun _ c' => c' = c₂) fun c' => c' = c.runUnits env units)
    ?_ ?_ ?_
  · refine (evals_reconcile _).ends ?_
    cases faultOf cfg env .reconcile <;> rfl
  · rintro - c' rfl
    show Ends (finalizeScalesPhase cfg env
        (df.map fun _ => tallyOf .defaultSegment units (units.map (unitTally env c)))
        (hf.map fun _ => tallyOf .highFreqEvent units (units.map (unitTally env c))) >>= fun _ =>
      jobOutcomePhase cfg env
        (df.map fun _ => tallyOf .defaultSegment units (units.map (unitTally env c)))
        (hf.map fun _ => tallyOf .highFreqEvent units (units.map (unitTally env c))) p) _ _
    rw [hplans.scaleTally_default, hplans.scaleTally_highFreq]
    set c₃ := finalizedScales (scaleTally env c df) (scaleTally env c hf) c₂ with hc₃
    have hjob : c₃.job.jobStatus = .running := by
      rw [hc₃]
      cases scaleTally env c df <;> cases scaleTally env c hf <;> exact hready.stage.running
    have hcommitted : Committed cfg env df hf p c c₃ := by
      refine ⟨?_, ?_, ?_, fun hterminal => by rw [hjob] at hterminal; cases hterminal⟩
      all_goals
        rw [hc₃]
        cases scaleTally env c df <;> cases scaleTally env c hf <;> rfl
    have hnotRunning : isRunning (c₃.tasks .defaultSegment) = false :=
      hready.default_not_running hmem rfl
    have hunfinalized₂ : Unfinalized c₂ := hunfinalized.congr rfl rfl
    refine Ends.bind (ends_finalizeScalesPhase (hready.default_running hdf)
      hready.highFreq_running) ?_ ?_
    · rintro a c' (rfl | ⟨-, ha⟩)
      · refine (ends_jobOutcomePhase hjob hnotRunning).imp ?_
        rintro - c' (rfl | ⟨hended, htasks⟩)
        · exact .inr hcommitted
        · exact .inr ⟨htasks.trans hcommitted.tasks, hended.units.trans hcommitted.units,
            hended.planInput.trans hcommitted.planInput, fun _ => hended.status⟩
      · exact absurd rfl (ha a)
    · rintro e c' (rfl | ⟨rfl, -⟩)
      · exact .inr hcommitted
      · exact .inl hunfinalized₂
  -- the reconciliation raised
  · rintro e c' rfl
    exact .inl (hunfinalized.congr rfl rfl)

/-- A run of a fresh cross-scale job: it never commits phase 5, or it does so on
the plans of its scales. -/
theorem ends_processCrossScale
    (h : Stage scales false (fun _ => Pending) c) :
    Ends (processCrossScale cfg env scales) c fun _ c' => Unfinalized c' ∨
      ∃ c₁ b active df hf, ReadyToRun cfg env scales b active hf c₁ ∧
        (∀ us, df = some us → .defaultSegment ∈ scales ∧ defaultPlan cfg env = .ok us) ∧
        (.defaultSegment ∈ scales → df.isSome = true) ∧
        Committed cfg env df hf (b || (active && hf.isNone)) c₁ c' := by
  refine Ends.bind (ends_motionPhase h) ?_ fun _ _ h => .inl h
  intro b c₁ h₁
  refine Ends.bind (ends_skipPhase h₁) ?_ fun _ _ h => .inl h
  rintro active c₂ ⟨h₂, hactive⟩
  refine Ends.attempt_bind (ends_planDefaultPhase h₂) ?_
  intro r c₃ hr
  cases r with
  | error e =>
      obtain ⟨h₃, hs⟩ := hr
      obtain ⟨t, ht, htn⟩ := h₃.task hs
      replace htn : t.status.isTerminal = false := htn
      refine (ends_handleRequiredFailure e h₃.running).imp fun _ c' hc' => .inl ?_
      have hunfinalized : Unfinalized c₃ := h₃.unfinalized_of_rows
        (fun _ => ScaleTaskRow.onCounts_of_not_terminal) fun _ => ActiveRow.onCounts
      rcases hc' with rfl | ⟨-, htasks⟩
      · exact hunfinalized
      · rw [requiredFailedTasks] at htasks
        split at htasks
        · have hne : t.status ≠ .failed := fun heq => by rw [heq] at htn; cases htn
          refine ⟨fun s hs t' ht' => ?_, fun _ => by rw [htasks]; simp [ht]⟩
          rw [htasks, Function.update_apply] at ht'
          split at ht'
          · rw [ht] at ht'
            cases ht'
            exact ScaleTaskRow.onCounts_moveTo_failed _ _ hne
          · exact hunfinalized.scales s hs t' ht'
        · exact ⟨fun s hs t' ht' => hunfinalized.scales s hs t' (htasks ▸ ht'),
            fun _ => by rw [htasks, ht]; rfl⟩
  | ok us =>
      obtain ⟨h₃, hplan⟩ := hr
      refine Ends.bind (ends_planHighFreqPhase h₃ hactive) ?_ fun _ _ h => .inl h
      intro hf c₄ h₄
      set df : Option (List PlannedUnit) := if .defaultSegment ∈ scales then some us else none
        with hdf
      have hdefault : ∀ us', df = some us' →
          .defaultSegment ∈ scales ∧ defaultPlan cfg env = .ok us' := by
        intro us' hus'
        rw [hdf] at hus'
        split at hus'
        · rename_i hs
          cases hus'
          exact ⟨hs, hplan hs⟩
        · cases hus'
      have hmem : .defaultSegment ∈ scales → df.isSome = true := by
        intro hs
        rw [hdf, if_pos hs]
        rfl
      refine (ends_runPlanned h₄ hdefault hmem).imp fun _ c' hc' => hc'.imp_right fun hcommitted => ?_
      exact ⟨c₄, b, active, df, hf, h₄, hdefault, hmem, hcommitted⟩

/-- A job that was just queued: its scale tasks, `default_segment` among them, are
as they were created, and it has no unit rows. -/
structure FreshJob (db : JobRows) : Prop where
  queued : db.job.jobStatus = .queued
  created : ∀ s t, db.tasks s = some t → t = .created
  required : (db.tasks .defaultSegment).isSome = true
  units : db.units = Table.empty

theorem FreshJob.pending {db : JobRows} (h : FreshJob db) (s : AnalysisScale) (t : ScaleTaskRow)
    (ht : db.tasks s = some t) : Pending t := by
  rw [h.created s t ht]
  rfl

theorem mem_scaleTasks {U : Type} (db : JobState U) (s : AnalysisScale) :
    s ∈ db.scaleTasks ↔ (db.tasks s).isSome = true := by
  rw [JobState.scaleTasks, List.mem_filter]
  refine ⟨fun h => h.2, fun h => ⟨?_, h⟩⟩
  cases s <;> decide

theorem actsOn_markJobRunning :
    ActsOn (fun db => do
        let db ← db.transitionJob .running none none
        .ok (db.scaleTasks, db))
      (fun c => do
        let c ← c.transitionJob .running none none
        .ok (c.scaleTasks, c)) := fun db =>
  view_bind (view_transitionJob db _ _ _) fun _ => rfl

/-- The view of a job that was set running. -/
def JobState.started (c : JobView) : JobView :=
  { c with job := c.job.moveTo .running none none }

theorem FreshJob.stage {db : JobRows} (h : FreshJob db) :
    Stage db.view.scaleTasks false (fun _ => Pending) db.view.started where
  running := db.job.jobStatus_moveTo _ _ _
  fresh k := by
    show unitRow db.units k = none
    rw [h.units]
    rfl
  present := mem_scaleTasks db.view
  motion := by
    show (db.tasks .motionScan).any _ = _
    cases ht : db.tasks .motionScan with
    | none => rfl
    | some t =>
        refine ScaleTaskRow.failedOutright_of_ne ?_
        rw [show t.status = .pending from h.pending _ t ht]
        decide
  rows := h.pending

/-- The transition of a queued job to running. -/
theorem ends_markJobRunning {Q : Except Exn (List AnalysisScale) → JobView → Prop}
    (hjob : c.job.jobStatus = .queued) (hok : Q (.ok c.scaleTasks) c.started)
    (herror : ∀ e, Q (.error e) c) :
    Ends (writeSession cfg env .markJobRunning fun db => do
      let db ← db.transitionJob .running none none
      .ok (db.scaleTasks, db)) c Q := by
  refine ends_writeSession actsOn_markJobRunning
    (fun c => permanent_transitionJob.bind fun _ => Permanent.ok _) (fun a c' h => ?_) herror
  rw [JobState.transitionJob_of_legal (by rw [hjob]; rfl)] at h
  cases h
  exact hok

theorem ends_processClaimedTask {db : JobRows} (hcross : cfg.crossScaleEnabled = true)
    (hfresh : FreshJob db) :
    Ends (processClaimedTask cfg env) db.view fun _ c' => Unfinalized c' ∨
      ∃ c₁ b active df hf, ReadyToRun cfg env db.view.scaleTasks b active hf c₁ ∧
        (∀ us, df = some us → .defaultSegment ∈ db.view.scaleTasks ∧
          defaultPlan cfg env = .ok us) ∧
        (.defaultSegment ∈ db.view.scaleTasks → df.isSome = true) ∧
        Committed cfg env df hf (b || (active && hf.isNone)) c₁ c' := by
  have hqueued : Unfinalized db.view := by
    refine ⟨fun s _ t ht => Pending.onCounts (hfresh.pending s t ht), fun hjob => ?_⟩
    rw [show db.view.job.jobStatus = .queued from hfresh.queued] at hjob
    cases hjob
  have hstage := hfresh.stage
  have hstarted : Unfinalized db.view.started :=
    hstage.unfinalized fun s _ t ht => Pending.onCounts ht
  refine Ends.bind (Q := OkOrError
      (fun scales c' => scales = db.view.scaleTasks ∧ c' = db.view.started) fun c' => c' = db.view)
    (ends_markJobRunning hfresh.queued ⟨rfl, rfl⟩ fun _ => rfl) ?_ ?_
  · rintro scales c' ⟨rfl, rfl⟩
    refine Ends.bind (Q := fun _ c' => c' = db.view.started)
      (ends_workerStep rfl fun _ => rfl) ?_ fun e c' hc' => .inl (hc' ▸ hstarted)
    rintro - c' rfl
    rw [if_pos hcross]
    exact ends_processCrossScale hstage
  · rintro e c' rfl
    exact .inl hqueued

/-! ## The rows of a scale -/

/-- The unit rows of a scale task in the database. -/
def unitRowsOf (scale : AnalysisScale) (db : JobRows) : List UnitRow :=
  (db.units.rows.filter fun u => decide (u.key.scaleTask = some scale)).map UnitEntry.row

/-- The counts of the unit rows of a scale task. -/
def scaleResult (scale : AnalysisScale) (db : JobRows) : ScaleProcessResult :=
  .ofRows (unitRowsOf scale db)

/-- The rows of a scale are the rows of its plan, where no other row belongs to it. -/
theorem unitRowsOf_perm {db : JobRows} (hplan : PlanOf (some scale) scale us)
    (hothers : ∀ k, k.scaleTask = some scale → (db.view.units k).isSome = true →
      k ∈ us.map PlannedUnit.key) :
    (unitRowsOf scale db).Perm (us.filterMap fun u => db.view.units u.key) := by
  have hperm := Table.filter_perm_filterMap (t := db.units)
    (p := fun k => decide (k.scaleTask = some scale)) hplan.nodup
    (fun k hk => by
      obtain ⟨u, hu, rfl⟩ := List.mem_map.mp hk
      exact decide_eq_true (hplan.keys u hu).1)
    fun r hr hkey => hothers r.key (of_decide_eq_true hkey) (by
      show (unitRow db.units r.key).isSome = true
      rw [unitRow, Table.get?_of_mem hr]
      rfl)
  refine (hperm.map UnitEntry.row).trans ?_
  rw [List.map_filterMap, List.filterMap_map]
  exact List.Perm.refl _

/-- The plan of a unit scale. -/
def planFor (df hf : Option (List PlannedUnit)) (scale : AnalysisScale) :
    Option (List PlannedUnit) :=
  match scale with
  | .defaultSegment => df
  | .highFreqEvent => hf
  | _ => none

namespace PlansOf

variable (h : PlansOf cfg env c df hf)

include h

theorem planOf_planFor (hs : scale ∈ unitScales) :
    PlanOf (some scale) scale ((planFor df hf scale).getD []) := by
  rcases List.mem_cons.mp hs with rfl | hs
  · exact h.planOf_default
  · rcases List.mem_singleton.mp hs
    exact h.planOf_highFreq

/-- The dispatched units of a scale task are its plan. -/
theorem mem_dispatched_iff (hs : scale ∈ unitScales) {u : PlannedUnit} :
    u ∈ dispatched cfg df hf ∧ u.key.scaleTask = some scale ↔
      u ∈ (planFor df hf scale).getD [] := by
  have hmem : u ∈ dispatched cfg df hf ↔ u ∈ hf.getD [] ∨ u ∈ df.getD [] := by
    rw [dispatched, (dispatchOrder_perm _ _ _).mem_iff, List.mem_append]
  rw [hmem]
  rcases List.mem_cons.mp hs with rfl | hs
  · constructor
    · rintro ⟨hu | hu, hkey⟩
      · rw [(h.planOf_highFreq.keys u hu).1] at hkey
        cases hkey
      · exact hu
    · exact fun hu => ⟨.inr hu, (h.planOf_default.keys u hu).1⟩
  · rcases List.mem_singleton.mp hs
    constructor
    · rintro ⟨hu | hu, hkey⟩
      · exact hu
      · rw [(h.planOf_default.keys u hu).1] at hkey
        cases hkey
    · exact fun hu => ⟨.inl hu, (h.planOf_highFreq.keys u hu).1⟩

end PlansOf

/-! ## Agreement -/

section Agreement

variable {anyPartial : Bool} {c₁ c' : JobView} {db : JobRows}

/-- The run that a committed phase 5 comes from. -/
structure CommittedRun (cfg : WorkerConfig) (env : WorkerEnv) (scales : List AnalysisScale)
    (b active : Bool) (df hf : Option (List PlannedUnit)) (c₁ c' : JobView) : Prop where
  ready : ReadyToRun cfg env scales b active hf c₁
  default : ∀ us, df = some us → .defaultSegment ∈ scales ∧ defaultPlan cfg env = .ok us
  required : .defaultSegment ∈ scales → df.isSome = true
  committed : Committed cfg env df hf (b || (active && hf.isNone)) c₁ c'

namespace CommittedRun

variable (h : CommittedRun cfg env scales b active df hf c₁ c')

include h

theorem plans : PlansOf cfg env c₁ df hf := ⟨fun us hus => (h.default us hus).2, h.ready.plan⟩

theorem member (hs : scale ∈ unitScales) (hsome : (planFor df hf scale).isSome = true) :
    scale ∈ scales := by
  rcases List.mem_cons.mp hs with rfl | hs
  · obtain ⟨us, hus⟩ := Option.isSome_iff_exists.mp hsome
    exact (h.default us hus).1
  · rcases List.mem_singleton.mp hs
    exact h.ready.member hsome

/-- A planned unit stores its settled row. -/
theorem units_of_mem (hs : scale ∈ unitScales) {u : PlannedUnit}
    (hu : u ∈ (planFor df hf scale).getD []) : c'.units u.key = settled env c₁ u := by
  obtain ⟨hmem, hkey⟩ := (h.plans.mem_dispatched_iff hs).mpr hu
  have hsome : (planFor df hf scale).isSome = true := by
    cases hplan : planFor df hf scale with
    | none =>
        rw [hplan] at hu
        cases hu
    | some us => rfl
  have htask : (u.key.scaleTask.bind c₁.tasks).isSome = true := by
    rw [hkey]
    exact (h.ready.stage.present scale).mp (h.member hs hsome)
  rw [h.committed.units]
  show (if (u.key.scaleTask.bind c₁.tasks).isSome = true then _ else _) = _
  rw [if_pos htask, units_runUnits_of_mem h.plans.nodup_dispatched hmem]
  rfl

/-- No other row belongs to a scale task that runs units. -/
theorem mem_of_units (hs : scale ∈ unitScales) {k : UnitKey} (hkey : k.scaleTask = some scale)
    (hrow : (c'.units k).isSome = true) : k ∈ ((planFor df hf scale).getD []).map PlannedUnit.key := by
  by_cases hk : k ∈ (dispatched cfg df hf).map PlannedUnit.key
  · obtain ⟨u, hu, rfl⟩ := List.mem_map.mp hk
    exact List.mem_map_of_mem ((h.plans.mem_dispatched_iff hs).mp ⟨hu, hkey⟩)
  · rw [h.committed.units] at hrow
    have hnone : (c₁.runUnits env (dispatched cfg df hf)).units k = none :=
      (units_runUnits_of_not_mem hk).trans (h.ready.stage.fresh k)
    have hreconciled : (reconcileView env (c₁.runUnits env (dispatched cfg df hf))).units k
        = none := by
      show (if _ then ((c₁.runUnits env (dispatched cfg df hf)).units k).map _
        else (c₁.runUnits env (dispatched cfg df hf)).units k) = none
      rw [hnone]
      split <;> rfl
    rw [hreconciled] at hrow
    cases hrow

/-- The counts of the rows of a scale are the counts of its settled units. -/
theorem scaleResult_eq (hs : scale ∈ unitScales) (hview : db.view = c') :
    scaleResult scale db = settledResult env c₁ ((planFor df hf scale).getD []) := by
  have hperm := @unitRowsOf_perm scale _ db (h.plans.planOf_planFor hs) fun k hkey hrow =>
    h.mem_of_units hs hkey (hview ▸ hrow)
  rw [scaleResult, ScaleProcessResult.ofRows_perm hperm, hview]
  refine congrArg ScaleProcessResult.ofRows (List.filterMap_congr fun u hu => ?_)
  exact h.units_of_mem hs hu

/-- A scale that ran units was finalized on its tally. -/
theorem tasks_of_plan (hs : scale ∈ unitScales) (hplan : planFor df hf scale = some us) :
    c'.tasks scale = some (ScaleProcessResult.tally (us.map (unitTally env c₁))).finishedRow := by
  rw [h.committed.tasks]
  rcases List.mem_cons.mp hs with rfl | hs
  · replace hplan : df = some us := hplan
    rw [finalizedScales, JobState.tasks_finalizedScale_of_ne (by decide),
      JobState.tasks_finalizedScale_self, hplan]
    rfl
  · rcases List.mem_singleton.mp hs
    replace hplan : hf = some us := hplan
    rw [finalizedScales, JobState.tasks_finalizedScale_self, hplan]
    rfl

/-- The row of a unit scale that ran no units is the one from before. -/
theorem tasks_of_no_plan (hs : scale ∈ unitScales) (hplan : planFor df hf scale = none) :
    c'.tasks scale = c₁.tasks scale := by
  rw [h.committed.tasks]
  rcases List.mem_cons.mp hs with rfl | hs
  · replace hplan : df = none := hplan
    rw [finalizedScales, JobState.tasks_finalizedScale_of_ne (by decide),
      JobState.tasks_finalizedScale_self, hplan]
    rfl
  · rcases List.mem_singleton.mp hs
    replace hplan : hf = none := hplan
    rw [finalizedScales, JobState.tasks_finalizedScale_self, hplan]
    exact JobState.tasks_finalizedScale_of_ne (by decide) _ _

theorem absent_of_default_none (hplan : df = none) : c₁.tasks .defaultSegment = none := by
  refine h.ready.stage.absent fun hs => ?_
  have hsome := h.required hs
  rw [hplan] at hsome
  cases hsome

/-- Finalized on counts is finalized on the counts of a plan. -/
theorem plan_of_onCounts (hs : scale ∈ unitScales) {t : ScaleTaskRow}
    (ht : c'.tasks scale = some t) (hcounts : t.onCounts = true) :
    ∃ us, planFor df hf scale = some us := by
  cases hplan : planFor df hf scale with
  | some us => exact ⟨us, rfl⟩
  | none =>
      rw [h.tasks_of_no_plan hs hplan] at ht
      rcases List.mem_cons.mp hs with rfl | hs
      · rw [h.absent_of_default_none hplan] at ht
        cases ht
      · rcases List.mem_singleton.mp hs
        have hrow : HighFreqRow hf t := h.ready.stage.rows _ t ht
        replace hplan : hf = none := hplan
        rw [HighFreqRow, hplan] at hrow
        rw [show t.onCounts = false from hrow] at hcounts
        cases hcounts

end CommittedRun

/-- The units that a run plans for a scale; later steps keep the triggers and the
duration that the planning read. -/
def plannedUnits (cfg : WorkerConfig) (env : WorkerEnv) (scale : AnalysisScale) (c : JobView) :
    List PlannedUnit :=
  match scale with
  | .defaultSegment => (defaultPlan cfg env).toOption.getD []
  | .highFreqEvent => (highFreqPlanOf cfg env (some .highFreqEvent) c).toOption.getD []
  | _ => []

/-- Where the planning reads the same, the plans of a run are what is planned. -/
theorem PlansOf.plannedUnits_eq (h : PlansOf cfg env c₁ df hf) (hinput : c'.planInput = c₁.planInput)
    (hs : scale ∈ unitScales) (hplan : planFor df hf scale = some us) :
    plannedUnits cfg env scale c' = us := by
  rcases List.mem_cons.mp hs with rfl | hs
  · show (defaultPlan cfg env).toOption.getD [] = us
    rw [h.default us hplan]
    rfl
  · rcases List.mem_singleton.mp hs
    show (highFreqPlanOf cfg env (some .highFreqEvent) c').toOption.getD [] = us
    rw [highFreqPlanOf_congr hinput, h.highFreq us hplan]
    rfl

theorem CommittedRun.plannedUnits_eq (h : CommittedRun cfg env scales b active df hf c₁ c')
    (hs : scale ∈ unitScales) (hplan : planFor df hf scale = some us) :
    plannedUnits cfg env scale c' = us :=
  h.plans.plannedUnits_eq h.committed.planInput hs hplan

/-- The job status computed from the unit rows, and from the scales that failed
before any unit ran. -/
def computedJobStatus (db : JobRows) : JobStatus :=
  jobOutcome ((db.tasks .defaultSegment).map fun _ => scaleResult .defaultSegment db)
    ((db.tasks .highFreqEvent).map fun _ => scaleResult .highFreqEvent db)
    ((db.tasks .motionScan).any ScaleTaskRow.failedOutright ||
      (db.tasks .highFreqEvent).any ScaleTaskRow.failedOutright)

/-- What was stored at finalization is what the unit rows say. -/
structure FinalizationAgrees (cfg : WorkerConfig) (env : WorkerEnv) (db : JobRows) : Prop where
  counts : ∀ s ∈ unitScales, ∀ t, db.tasks s = some t → t.onCounts = true →
    t = (scaleResult s db).finishedRow
  complete : ∀ s ∈ unitScales, ∀ t, db.tasks s = some t → t.onCounts = true →
    t.status = .succeeded → ∀ u ∈ plannedUnits cfg env s db.view, Done (unitRow db.units u.key)
  job : db.job.jobStatus.isTerminal = true →
    (∀ t, db.tasks .defaultSegment = some t → t.onCounts = true) →
    db.job.jobStatus = computedJobStatus db

/-- Every planned unit of a finalized scale keeps its row. -/
def PlannedRowsKept (cfg : WorkerConfig) (env : WorkerEnv) (db : JobRows) : Prop :=
  ∀ s ∈ unitScales, ∀ t, db.tasks s = some t → t.onCounts = true →
    ∀ u ∈ plannedUnits cfg env s db.view, RowKept env u

theorem Unfinalized.agrees_iff (h : Unfinalized db.view) :
    FinalizationAgrees cfg env db ↔ PlannedRowsKept cfg env db := by
  have hnot : ∀ s ∈ unitScales, ∀ t, db.tasks s = some t → ¬ t.onCounts = true := by
    intro s hs t ht hcounts
    rw [h.scales s hs t ht] at hcounts
    cases hcounts
  refine iff_of_true ⟨?_, ?_, ?_⟩ ?_
  · exact fun s hs t ht hcounts => absurd hcounts (hnot s hs t ht)
  · exact fun s hs t ht hcounts => absurd hcounts (hnot s hs t ht)
  · intro hterminal hdefault
    obtain ⟨t, ht⟩ := Option.isSome_iff_exists.mp (h.job hterminal)
    exact absurd (hdefault t ht) (hnot _ List.mem_cons_self t ht)
  · exact fun s hs t ht hcounts => absurd hcounts (hnot s hs t ht)

theorem failed_tally_eq_zero {os : List UnitOutcome}
    (h : (ScaleProcessResult.tally os).status = .succeeded) {o : UnitOutcome} (ho : o ∈ os) :
    o ≠ .failed := by
  rintro rfl
  have hpos : (ScaleProcessResult.tally os).failed ≠ 0 := by
    show os.count .failed ≠ 0
    have := List.count_pos_iff.mpr ho
    omega
  unfold ScaleProcessResult.status at h
  rw [if_pos hpos] at h
  split at h <;> cases h

namespace CommittedRun

variable (h : CommittedRun cfg env scales b active df hf c₁ db.view)

include h

theorem kept_of_agrees (hagrees : FinalizationAgrees cfg env db) : PlannedRowsKept cfg env db := by
  intro s hs t ht hcounts
  obtain ⟨us, hus⟩ := h.plan_of_onCounts hs ht hcounts
  have hrow := hagrees.counts s hs t ht hcounts
  have htally := h.tasks_of_plan hs hus
  rw [show db.view.tasks s = db.tasks s from rfl, ht, hrow, h.scaleResult_eq hs rfl, hus] at htally
  have hfailed := congrArg ScaleTaskRow.failedUnits (Option.some.inj htally)
  rw [h.plannedUnits_eq hs hus]
  exact kept_of_failed_eq (fun u _ => h.ready.stage.fresh u.key) hfailed.symm

theorem tally_eq (hkept : PlannedRowsKept cfg env db) (hs : scale ∈ unitScales)
    (hus : planFor df hf scale = some us) :
    ScaleProcessResult.tally (us.map (unitTally env c₁)) = scaleResult scale db := by
  have htask := h.tasks_of_plan hs hus
  have hrows := hkept scale hs _ htask (ScaleProcessResult.onCounts_finishedRow _)
  rw [h.plannedUnits_eq hs hus] at hrows
  rw [h.scaleResult_eq hs rfl, hus]
  exact tally_eq_settledResult (fun u _ => h.ready.stage.fresh u.key) hrows

theorem complete_of_kept (hkept : PlannedRowsKept cfg env db) {t : ScaleTaskRow}
    (hs : scale ∈ unitScales) (ht : db.tasks scale = some t) (hcounts : t.onCounts = true)
    (hstatus : t.status = .succeeded) :
    ∀ u ∈ plannedUnits cfg env scale db.view, Done (unitRow db.units u.key) := by
  obtain ⟨us, hus⟩ := h.plan_of_onCounts hs ht hcounts
  have hrows := hkept scale hs t ht hcounts
  have htally := h.tasks_of_plan hs hus
  rw [show db.view.tasks scale = db.tasks scale from rfl, ht] at htally
  cases htally
  rw [h.plannedUnits_eq hs hus] at hrows ⊢
  intro u hu
  have hunit : unitRow db.units u.key = settled env c₁ u := h.units_of_mem hs (by rw [hus]; exact hu)
  have hstored := settled_of_kept (h.ready.stage.fresh u.key) (hrows u hu)
  have hne := failed_tally_eq_zero hstatus (List.mem_map_of_mem hu)
  rw [hunit]
  cases ho : unitTally env c₁ u with
  | succeeded =>
      rw [ho] at hstored
      exact .inl hstored
  | skipped =>
      rw [ho] at hstored
      exact .inr hstored
  | failed => exact absurd ho hne

theorem job_of_kept (hkept : PlannedRowsKept cfg env db)
    (hterminal : db.job.jobStatus.isTerminal = true) :
    db.job.jobStatus = computedJobStatus db := by
  have hjob := h.committed.job hterminal
  rw [show db.job.jobStatus = db.view.job.jobStatus from rfl, hjob]
  have hdefault : (db.tasks .defaultSegment).map (fun _ => scaleResult .defaultSegment db)
      = scaleTally env c₁ df := by
    cases hplan : df with
    | none =>
        have htask := h.tasks_of_no_plan (show .defaultSegment ∈ unitScales by decide) hplan
        rw [h.absent_of_default_none hplan] at htask
        rw [show db.tasks .defaultSegment = none from htask]
        rfl
    | some us =>
        have htask := h.tasks_of_plan (show .defaultSegment ∈ unitScales by decide) hplan
        rw [show db.tasks .defaultSegment = _ from htask]
        exact congrArg some (h.tally_eq hkept
          (show .defaultSegment ∈ unitScales by decide) hplan).symm
  have hmotion : (db.tasks .motionScan).any ScaleTaskRow.failedOutright = b := by
    have htask : db.view.tasks .motionScan = c₁.tasks .motionScan := by
      rw [h.committed.tasks, finalizedScales, JobState.tasks_finalizedScale_of_ne (by decide),
        JobState.tasks_finalizedScale_of_ne (by decide)]
    rw [show db.tasks .motionScan = c₁.tasks .motionScan from htask]
    exact h.ready.stage.motion
  -- a finalized row never failed outright
  have hhigh : (db.tasks .highFreqEvent).any ScaleTaskRow.failedOutright
      = (active && hf.isNone) := by
    cases hplan : hf with
    | none =>
        have htask := h.tasks_of_no_plan (show .highFreqEvent ∈ unitScales by decide) hplan
        have hfailed := h.ready.failed
        rw [hplan] at hfailed
        rw [show db.tasks .highFreqEvent = _ from htask]
        exact hfailed
    | some us =>
        have htask := h.tasks_of_plan (show .highFreqEvent ∈ unitScales by decide) hplan
        rw [show db.tasks .highFreqEvent = _ from htask]
        simp [ScaleProcessResult.failedOutright_finishedRow]
  have hresult : ((db.tasks .highFreqEvent).map fun _ => scaleResult .highFreqEvent db).any
      (fun r => decide (r.failed ≠ 0)) = (scaleTally env c₁ hf).any fun r => decide (r.failed ≠ 0) := by
    cases hplan : hf with
    | none =>
        have hnil := h.scaleResult_eq (show .highFreqEvent ∈ unitScales by decide) rfl
        rw [show planFor df hf .highFreqEvent = none from hplan] at hnil
        rw [hnil]
        cases db.tasks .highFreqEvent <;> rfl
    | some us =>
        have htask := h.tasks_of_plan (show .highFreqEvent ∈ unitScales by decide) hplan
        rw [show db.tasks .highFreqEvent = _ from htask]
        rw [scaleTally, Option.map_some, Option.map_some, Option.any_some, Option.any_some,
          h.tally_eq hkept (show .highFreqEvent ∈ unitScales by decide) hplan]
  rw [computedJobStatus, hdefault, hmotion, hhigh, jobOutcome, jobOutcome, hresult]

theorem agrees_iff : FinalizationAgrees cfg env db ↔ PlannedRowsKept cfg env db := by
  refine ⟨h.kept_of_agrees, fun hkept => ⟨?_, ?_, ?_⟩⟩
  · intro s hs t ht hcounts
    obtain ⟨us, hus⟩ := h.plan_of_onCounts hs ht hcounts
    have htally := h.tasks_of_plan hs hus
    rw [show db.view.tasks s = db.tasks s from rfl, ht, h.tally_eq hkept hs hus] at htally
    exact Option.some.inj htally
  · exact fun s hs t ht hcounts hstatus => h.complete_of_kept hkept hs ht hcounts hstatus
  · exact fun hterminal _ => h.job_of_kept hkept hterminal

end CommittedRun

end Agreement

/-- In every run of a fresh job on the cross-scale path, what finalization stored
agrees with the unit rows exactly when every planned unit of a finalized scale
keeps its row: its claim commits, and no done status is lost to a forced write
that fails. -/
theorem finalizationAgrees_iff {db : JobRows} (hcross : cfg.crossScaleEnabled = true)
    (hfresh : FreshJob db) :
    FinalizationAgrees cfg env (Act.exec (processClaimedTask cfg env) db).2 ↔
      PlannedRowsKept cfg env (Act.exec (processClaimedTask cfg env) db).2 := by
  rcases (@ends_processClaimedTask cfg env db hcross hfresh).exec rfl with
    hunfinalized | ⟨c₁, b, active, df, hf, hready, hdefault, hrequired, hcommitted⟩
  · exact hunfinalized.agrees_iff
  · exact CommittedRun.agrees_iff ⟨hready, hdefault, hrequired, hcommitted⟩

theorem freshJob_queuedJob : FreshJob JobRows.queuedJob := by
  refine ⟨rfl, fun s t ht => ?_, rfl, rfl⟩
  cases s <;> cases ht <;> rfl

theorem finalizationAgrees_smooth :
    FinalizationAgrees (.basic true) .smooth
      (Act.exec (processClaimedTask (.basic true) .smooth) .queuedJob).2 := by
  refine (finalizationAgrees_iff rfl freshJob_queuedJob).mpr ?_
  exact fun s hs t ht hcounts u hu => ⟨rfl, fun _ hlost => hlost.2 rfl⟩

/-- The claim of the one default window of `WorkerEnv.smooth` meets a locked database. -/
def WorkerEnv.claimLocked : WorkerEnv :=
  { WorkerEnv.smooth with unitEnv := fun _ _ => { UnitEnv.smooth with
      writeFault := fun w _ => if w = .claim then some timelineLocked else none } }

/-- The scheduler counts a unit whose row was never created. -/
theorem finalization_disagrees :
    ¬ ∀ (cfg : WorkerConfig) (env : WorkerEnv) (db : JobRows), cfg.crossScaleEnabled = true →
      FreshJob db → FinalizationAgrees cfg env (Act.exec (processClaimedTask cfg env) db).2 := by
  intro h
  have hagrees := h (.basic true) .claimLocked .queuedJob rfl freshJob_queuedJob
  have htask : (Act.exec (processClaimedTask (.basic true) .claimLocked) .queuedJob).2.tasks
      .defaultSegment = some ⟨.failed, 1, 0, 1, none, none⟩ := rfl
  have hrows : scaleResult .defaultSegment
      (Act.exec (processClaimedTask (.basic true) .claimLocked) .queuedJob).2
        = ⟨0, 0, 0, 0⟩ := rfl
  have hcounts := hagrees.counts .defaultSegment (by decide) _ htask rfl
  rw [hrows] at hcounts
  cases hcounts

end CctvMemory.Worker
