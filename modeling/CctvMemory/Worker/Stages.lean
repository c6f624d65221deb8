import CctvMemory.Worker.Tally

/-!
# The planning phases of a fresh cross-scale job

What phases 1 to 3 of `_process_cross_scale` leave of a job that was freshly
queued, whatever the worker itself raises: the scale tasks that are to run
units are running, and no unit has a row yet.
-/

namespace CctvMemory.Worker

variable {cfg : WorkerConfig} {env : WorkerEnv} {c : JobView} {scale : AnalysisScale}
  {t : ScaleTaskRow} {scales : List AnalysisScale}

/-- The scales that run units. -/
def unitScales : List AnalysisScale := [.defaultSegment, .highFreqEvent]

/-- A scale task that was finalized on the counts of its units. -/
def ScaleTaskRow.onCounts (t : ScaleTaskRow) : Bool :=
  t.status.isTerminal && t.errorCode.isNone && t.skippedReason.isNone

/-- A scale task that failed by an exception, not on its counts. -/
def ScaleTaskRow.failedOutright (t : ScaleTaskRow) : Bool :=
  decide (t.status = .failed) && t.errorCode.isSome

theorem ScaleTaskRow.onCounts_of_not_terminal (h : t.status.isTerminal = false) :
    t.onCounts = false := by
  simp [onCounts, h]

theorem ScaleTaskRow.failedOutright_of_ne (h : t.status ≠ .failed) :
    t.failedOutright = false := by
  simp [failedOutright, h]

theorem ScaleTaskRow.failedOutright_moveTo {code : ErrorCode} {sr : Option SkippedReason}
    (h : t.status ≠ .failed) : (t.moveTo .failed (some code) sr).failedOutright = true := by
  simp [moveTo, failedOutright, h]

theorem ScaleTaskRow.onCounts_moveTo_failed (code : ErrorCode) (sr : Option SkippedReason)
    (h : t.status ≠ .failed) : (t.moveTo .failed (some code) sr).onCounts = false := by
  simp [moveTo, onCounts, h]

theorem ScaleTaskRow.onCounts_moveTo_skipped {reason : SkippedReason} {ec : Option ErrorCode}
    (h : t.status ≠ .skipped) : (t.moveTo .skipped ec (some reason)).onCounts = false := by
  simp [moveTo, onCounts, h]

theorem ScaleProcessResult.onCounts_finishedRow (r : ScaleProcessResult) :
    r.finishedRow.onCounts = true := by
  unfold finishedRow status
  split
  · rfl
  · split <;> rfl

theorem ScaleProcessResult.failedOutright_finishedRow (r : ScaleProcessResult) :
    r.finishedRow.failedOutright = false := by
  simp [finishedRow, ScaleTaskRow.failedOutright]

/-! ## Stages -/

/-- A running job without unit rows, its scale tasks as `rows` says. -/
structure Stage (scales : List AnalysisScale) (motionFailed : Bool)
    (rows : AnalysisScale → ScaleTaskRow → Prop) (c : JobView) : Prop where
  running : c.job.jobStatus = .running
  fresh : ∀ k, c.units k = none
  present : ∀ s, s ∈ scales ↔ (c.tasks s).isSome = true
  motion : (c.tasks .motionScan).any ScaleTaskRow.failedOutright = motionFailed
  rows : ∀ s t, c.tasks s = some t → rows s t

/-- No scale was finalized on counts, and a job that ended did so over its
default scale. -/
structure Unfinalized (c : JobView) : Prop where
  scales : ∀ s ∈ unitScales, ∀ t, c.tasks s = some t → t.onCounts = false
  job : c.job.jobStatus.isTerminal = true → (c.tasks .defaultSegment).isSome = true

namespace Stage

variable {b : Bool} {P Q : AnalysisScale → ScaleTaskRow → Prop}

theorem task (h : Stage scales b P c) (hs : scale ∈ scales) :
    ∃ t, c.tasks scale = some t ∧ P scale t := by
  obtain ⟨t, ht⟩ := Option.isSome_iff_exists.mp ((h.present scale).mp hs)
  exact ⟨t, ht, h.rows scale t ht⟩

theorem absent (h : Stage scales b P c) (hs : scale ∉ scales) : c.tasks scale = none := by
  cases ht : c.tasks scale with
  | none => rfl
  | some t => exact absurd ((h.present scale).mpr (by rw [ht]; rfl)) hs

theorem mono (h : Stage scales b P c) (hPQ : ∀ s t, P s t → Q s t) : Stage scales b Q c :=
  { h with rows := fun s t ht => hPQ s t (h.rows s t ht) }

/-- A scale task other than `motion_scan` gets a new row. -/
theorem setTask (h : Stage scales b P c) (hs : scale ∈ scales) (hne : scale ≠ .motionScan)
    (ht : Q scale t) (hmono : ∀ s t, s ≠ scale → P s t → Q s t) :
    Stage scales b Q (c.setTask scale t) where
  running := h.running
  fresh := h.fresh
  present := by
    intro s
    rw [JobState.tasks_setTask, Function.update_apply]
    split
    · rename_i heq
      exact iff_of_true (heq ▸ hs) rfl
    · exact h.present s
  motion := by
    rw [JobState.tasks_setTask, Function.update_of_ne (Ne.symm hne)]
    exact h.motion
  rows := by
    intro s t' ht'
    rw [JobState.tasks_setTask, Function.update_apply] at ht'
    split at ht'
    · rename_i heq
      cases ht'
      exact heq ▸ ht
    · rename_i hs'
      exact hmono s t' hs' (h.rows s t' ht')

theorem unfinalized (h : Stage scales b P c)
    (hP : ∀ s ∈ unitScales, ∀ t, P s t → t.onCounts = false) : Unfinalized c where
  scales s hs t ht := hP s hs t (h.rows s t ht)
  job hjob := by
    rw [h.running] at hjob
    cases hjob

end Stage

/-! ## Phase 1 -/

theorem ends_finalizeWrite {r : ScaleProcessResult} {Q : Except Exn Unit → JobView → Prop}
    (h : c.tasks scale = some t) (ht : t.status = .running)
    (hok : Q (.ok ()) (c.setTask scale r.finishedRow)) (herror : ∀ e, Q (.error e) c) :
    Ends (writeSession cfg env (.finalizeScale scale) fun db => do
      .ok ((), ← db.finalizeScaleTask scale r)) c Q := by
  cases hw : faultOf cfg env (.finalizeScale scale) with
  | some e => exact (evals_finalizeWrite_fault hw).ends (herror e)
  | none => exact (evals_finalizeWrite_ok h ht hw).ends hok

/-- A new row of `motion_scan` and new triggers. -/
def JobState.withMotion (c : JobView) (t : ScaleTaskRow) (triggers : List TriggerRow) : JobView :=
  { c with tasks := Function.update c.tasks .motionScan (some t), triggers }

@[simp] theorem JobState.tasks_withMotion (c : JobView) (t : ScaleTaskRow)
    (triggers : List TriggerRow) : (c.withMotion t triggers).tasks .motionScan = some t := by
  simp [withMotion]

@[simp] theorem JobState.setTask_withMotion (c : JobView) (t t' : ScaleTaskRow)
    (triggers : List TriggerRow) :
    (c.withMotion t triggers).setTask .motionScan t' = c.withMotion t' triggers := by
  simp [withMotion, setTask]

theorem JobState.withMotion_self (h : c.tasks .motionScan = some t) :
    c.withMotion t c.triggers = c := by
  unfold withMotion
  rw [← h, Function.update_eq_self]

/-- `c'` is `c` up to `motion_scan`, which did not fail, and the triggers. -/
def MotionMoved (c c' : JobView) : Prop :=
  ∃ t triggers, c' = c.withMotion t triggers ∧ t.status ≠ .failed

theorem ends_motionScan {c₁ : JobView} (hmoved : MotionMoved c c₁)
    (htask : c₁.tasks .motionScan = some t) :
    Ends (runScale cfg env .motionScan) c₁ fun r c' =>
      MotionMoved c c' ∧ c'.tasks .motionScan = some t ∧ ∀ res, r = .ok res → res.failed = 0 := by
  have heval := @evals_runMotionScan env c₁
  show Ends (runMotionScan env >>= fun n => pure (⟨n, n, 0, 0⟩ : ScaleProcessResult)) c₁ _
  cases hr : env.raises .motionScan with
  | some e =>
      rw [hr] at heval
      exact heval.bind_error.ends ⟨hmoved, htask, fun res hres => by cases hres⟩
  | none =>
      rw [hr] at heval
      have hscan : MotionMoved c (persistTriggers env c₁) := by
        obtain ⟨t', triggers, rfl, ht'⟩ := hmoved
        exact ⟨t', _, rfl, ht'⟩
      refine Evals.ends (heval.bind (Evals.pure _ _)) ⟨hscan, htask, fun res hres => ?_⟩
      cases hres
      rfl

theorem ends_processMotion (h : c.tasks .motionScan = some t) (ht : t.status = .pending) :
    Ends (processScaleTask cfg env .motionScan) c fun _ c' => MotionMoved c c' := by
  have hset : ∀ {c' : JobView} {t' : ScaleTaskRow}, MotionMoved c c' → t'.status ≠ .failed →
      MotionMoved c (c'.setTask .motionScan t') := by
    rintro c' t' ⟨t₀, triggers, rfl, -⟩ ht'
    exact ⟨t', triggers, JobState.setTask_withMotion _ _ _ _, ht'⟩
  have hstay : MotionMoved c c :=
    ⟨t, c.triggers, (JobState.withMotion_self h).symm, by rw [ht]; decide⟩
  have hstarted : MotionMoved c (c.setTask .motionScan t.started) :=
    hset hstay (by rw [ScaleTaskRow.status_started]; decide)
  have hactive : Ends (runActiveScale cfg env .motionScan) c fun _ c' => MotionMoved c c' := by
    refine Ends.bind (Q := OkOrError (fun _ c' => c' = c.setTask .motionScan t.started)
      fun c' => c' = c) (ends_taskWrite h (fun _ => rfl) fun _ => rfl) ?_ ?_
    · rintro - c' rfl
      refine Ends.bind (Q := fun _ c' => c' = c.setTask .motionScan t.started)
        (ends_workerStep rfl fun _ => rfl) ?_ fun e c' hc' => hc' ▸ hstarted
      rintro - c' rfl
      refine (ends_motionScan (t := t.started) hstarted (by simp)).bind ?_ fun e c' hc' => hc'.1
      rintro r c' ⟨hmoved, htask, hres⟩
      have hfinished : MotionMoved c (c'.setTask .motionScan r.finishedRow) := by
        refine hset hmoved ?_
        show r.status ≠ _
        simp [ScaleProcessResult.status, hres r rfl]
      refine Ends.bind (Q := fun _ c' => MotionMoved c c')
        (ends_finalizeWrite htask t.status_started hfinished fun _ => hmoved) ?_ fun _ _ h => h
      intro _ c' hmoved
      refine Ends.bind (Q := fun _ c' => MotionMoved c c')
        (ends_workerStep hmoved fun _ => hmoved) ?_ fun _ _ h => h
      exact fun _ c' hmoved => (Evals.pure r c').ends hmoved
    · rintro e c' rfl
      exact hstay
  refine Ends.bind (Q := fun r c' => r = .ok none ∧ c' = c)
    ((Evals.pure none c).ends ⟨rfl, rfl⟩) ?_ fun e c' h => by cases h.1
  rintro reason c' ⟨hreason, rfl⟩
  cases hreason
  exact hactive.bind (fun r c' h => (Evals.pure (some r) c').ends h) fun _ _ h => h

/-- The rows of the scale tasks other than `motion_scan`. -/
def TaskRows (default highFreq low : ScaleTaskRow → Prop) (s : AnalysisScale)
    (t : ScaleTaskRow) : Prop :=
  match s with
  | .defaultSegment => default t
  | .motionScan => True
  | .highFreqEvent => highFreq t
  | .lowFreqSummary => low t

def Pending (t : ScaleTaskRow) : Prop := t.status = .pending

def Running (t : ScaleTaskRow) : Prop := t.status = .running

theorem Pending.onCounts (h : Pending t) : t.onCounts = false :=
  ScaleTaskRow.onCounts_of_not_terminal (by rw [h]; rfl)

theorem Running.onCounts (h : Running t) : t.onCounts = false :=
  ScaleTaskRow.onCounts_of_not_terminal (by rw [h]; rfl)

/-- Every scale task but `motion_scan` is pending. -/
abbrev OthersPending : AnalysisScale → ScaleTaskRow → Prop := TaskRows Pending Pending Pending

theorem Stage.unfinalized_of_rows {b : Bool} {default highFreq low : ScaleTaskRow → Prop}
    (h : Stage scales b (TaskRows default highFreq low) c)
    (hdefault : ∀ t, default t → t.onCounts = false)
    (hhighFreq : ∀ t, highFreq t → t.onCounts = false) : Unfinalized c := by
  refine h.unfinalized fun s hs t ht => ?_
  rcases List.mem_cons.mp hs with rfl | hs
  · exact hdefault t ht
  · rcases List.mem_singleton.mp hs
    exact hhighFreq t ht

theorem Stage.withMotion (t : ScaleTaskRow) (triggers : List TriggerRow)
    (h : Stage scales false (fun _ => Pending) c) (hs : .motionScan ∈ scales) :
    Stage scales t.failedOutright OthersPending (c.withMotion t triggers) where
  running := h.running
  fresh := h.fresh
  present := by
    intro s
    unfold JobState.withMotion
    dsimp only
    rw [Function.update_apply]
    split
    · rename_i heq
      exact iff_of_true (heq ▸ hs) rfl
    · exact h.present s
  motion := by simp
  rows := by
    intro s t' ht'
    unfold JobState.withMotion at ht'
    dsimp only at ht'
    cases s with
    | motionScan => exact trivial
    | defaultSegment | highFreqEvent | lowFreqSummary =>
        rw [Function.update_of_ne (by decide)] at ht'
        exact h.rows _ t' ht'

theorem Stage.unfinalized_of_pending {b : Bool} (h : Stage scales b OthersPending c) :
    Unfinalized c :=
  h.unfinalized_of_rows (fun _ => Pending.onCounts) fun _ => Pending.onCounts

/-- Phase 1: the flag says whether `motion_scan` failed outright. -/
theorem ends_motionPhase
    (h : Stage scales false (fun _ => Pending) c) :
    Ends (motionPhase cfg env scales) c
      (OkOrError (fun b => Stage scales b OthersPending) Unfinalized) := by
  unfold motionPhase
  split
  · rename_i hs
    obtain ⟨t, ht, htp⟩ := h.task hs
    refine Ends.attempt_bind (ends_processMotion ht htp) ?_
    rintro r c' ⟨t', triggers, rfl, ht'⟩
    have hstage := h.withMotion t' triggers hs
    cases r with
    | ok o =>
        rw [ScaleTaskRow.failedOutright_of_ne ht'] at hstage
        exact (Evals.pure _ _).ends hstage
    | error e =>
        refine Ends.bind (Q := OkOrError (fun _ => Stage scales true OthersPending) Unfinalized)
          (ends_failScaleTask (JobState.tasks_withMotion _ _ _) (fun r _ => ?_)
            fun _ => hstage.unfinalized_of_pending)
          (fun _ c' hc' => (Evals.pure true c').ends hc') fun _ _ hc' => hc'
        rw [JobState.setTask_withMotion]
        have hfailed := h.withMotion
          (t'.moveTo .failed (some (classifyError e)) none) triggers hs
        rw [ScaleTaskRow.failedOutright_moveTo ht'] at hfailed
        cases r with
        | ok _ => exact hfailed
        | error _ => exact hfailed.unfinalized_of_pending
  · refine (Evals.pure false c).ends (h.mono fun s t ht => ?_)
    cases s with
    | motionScan => exact trivial
    | defaultSegment | highFreqEvent | lowFreqSummary => exact ht

/-! ## Phase 2 -/

/-- The row of a `high_freq_event` that is active or not, before its planning. -/
def ActiveRow (active : Bool) (t : ScaleTaskRow) : Prop :=
  if active = true then Pending t else t.onCounts = false ∧ t.failedOutright = false

theorem ActiveRow.onCounts {active : Bool} (h : ActiveRow active t) : t.onCounts = false := by
  unfold ActiveRow at h
  split at h
  · exact Pending.onCounts h
  · exact h.1

theorem ends_highFreqActive (scales : List AnalysisScale) (c : JobView) :
    Ends (highFreqActive env scales) c fun r c' =>
      c' = c ∧ ∀ active, r = .ok active → active = true → .highFreqEvent ∈ scales := by
  unfold highFreqActive
  split
  · rename_i hs
    exact (evals_hasTriggers c).ends ⟨rfl, fun _ _ _ => hs⟩
  · refine (Evals.pure false c).ends ⟨rfl, fun active hr hactive => ?_⟩
    cases hr
    cases hactive

/-- The skip of an inactive `high_freq_event`. -/
theorem ends_skipHighFreq {b active : Bool} (h : Stage scales b OthersPending c)
    (hactive : active = true → .highFreqEvent ∈ scales) :
    Ends (skipScaleTaskIf cfg env (decide (.highFreqEvent ∈ scales) && !active)
      .highFreqEvent .noMotionTrigger) c
      (OkOrError (fun _ => Stage scales b (TaskRows Pending (ActiveRow active) Pending))
        Unfinalized) := by
  unfold skipScaleTaskIf
  split
  · rename_i hskip
    rw [Bool.and_eq_true, decide_eq_true_eq, Bool.not_eq_true'] at hskip
    obtain ⟨hs, rfl⟩ := hskip
    obtain ⟨t, ht, htp⟩ := h.task hs
    replace htp : t.status = .pending := htp
    refine ends_skipScaleTask ht (fun r _ => ?_) fun _ => h.unfinalized_of_pending
    have hset : Stage scales b (TaskRows Pending (ActiveRow false) Pending)
        (c.setTask .highFreqEvent (t.moveTo .skipped none (some .noMotionTrigger))) := by
      refine h.setTask hs (by decide) ⟨?_, ?_⟩ fun s t hne hp => ?_
      · exact ScaleTaskRow.onCounts_moveTo_skipped (by rw [htp]; decide)
      · exact ScaleTaskRow.failedOutright_of_ne (by rw [ScaleTaskRow.status_moveTo]; decide)
      · cases s with
        | defaultSegment | motionScan | lowFreqSummary => exact hp
        | highFreqEvent => exact absurd rfl hne
    cases r with
    | ok _ => exact hset
    | error _ => exact hset.unfinalized_of_rows (fun _ => Pending.onCounts) fun _ => ActiveRow.onCounts
  · rename_i hskip
    refine (Evals.pure () c).ends { h with rows := fun s t ht => ?_ }
    have hp := h.rows s t ht
    cases s with
    | defaultSegment | motionScan | lowFreqSummary => exact hp
    | highFreqEvent =>
        have hs : .highFreqEvent ∈ scales := (h.present _).mpr (by rw [ht]; rfl)
        have htrue : active = true := by simpa [hs] using hskip
        show if active = true then _ else _
        rw [if_pos htrue]
        exact hp

theorem ends_skipLowFreq {b active : Bool}
    (h : Stage scales b (TaskRows Pending (ActiveRow active) Pending) c) :
    Ends (skipScaleTaskIf cfg env (decide (.lowFreqSummary ∈ scales)) .lowFreqSummary
      .notEnabled) c
      (OkOrError (fun _ => Stage scales b (TaskRows Pending (ActiveRow active) fun _ => True))
        Unfinalized) := by
  have hmono : ∀ s t, TaskRows Pending (ActiveRow active) Pending s t →
      TaskRows Pending (ActiveRow active) (fun _ => True) s t := by
    intro s t hp
    cases s with
    | defaultSegment | motionScan | highFreqEvent => exact hp
    | lowFreqSummary => exact trivial
  unfold skipScaleTaskIf
  split
  · rename_i hs
    rw [decide_eq_true_eq] at hs
    obtain ⟨t, ht, -⟩ := h.task hs
    refine ends_skipScaleTask ht (fun r _ => ?_) fun _ =>
      h.unfinalized_of_rows (fun _ => Pending.onCounts) fun _ => ActiveRow.onCounts
    have hset : Stage scales b (TaskRows Pending (ActiveRow active) fun _ => True)
        (c.setTask .lowFreqSummary (t.moveTo .skipped none (some .notEnabled))) :=
      h.setTask hs (by decide) trivial fun s t _ hp => hmono s t hp
    cases r with
    | ok _ => exact hset
    | error _ => exact hset.unfinalized_of_rows (fun _ => Pending.onCounts) fun _ => ActiveRow.onCounts
  · exact (Evals.pure () c).ends (h.mono hmono)

/-- The scale tasks after phase 2, `default_segment` as given. -/
abbrev AfterSkips (active : Bool) (default : ScaleTaskRow → Prop) :
    AnalysisScale → ScaleTaskRow → Prop :=
  TaskRows default (ActiveRow active) fun _ => True

/-- Phase 2: whether `high_freq_event` is active. -/
theorem ends_skipPhase {b : Bool} (h : Stage scales b OthersPending c) :
    Ends (skipPhase cfg env scales) c
      (OkOrError (fun active c' => Stage scales b (AfterSkips active Pending) c' ∧
        (active = true → .highFreqEvent ∈ scales)) Unfinalized) := by
  refine Ends.bind (ends_highFreqActive scales c) ?_
    fun e c' hc' => hc'.1 ▸ h.unfinalized_of_pending
  rintro active c' ⟨rfl, hactive⟩
  refine Ends.bind (ends_skipHighFreq h (hactive active rfl)) ?_ fun _ _ hc' => hc'
  intro _ c' hc'
  refine Ends.bind (ends_skipLowFreq hc') ?_ fun _ _ hc' => hc'
  exact fun _ c' hc' => (Evals.pure active c').ends ⟨hc', hactive active rfl⟩

/-! ## Phase 3 -/

theorem Stage.updateProbeMetadata {b : Bool} {P : AnalysisScale → ScaleTaskRow → Prop}
    (h : Stage scales b P c) (durationMs : ℤ) :
    Stage scales b P (c.updateProbeMetadata durationMs) :=
  ⟨h.running, h.fresh, h.present, h.motion, h.rows⟩

/-- Phase 3, the required scale; an exception leaves it pending or running. -/
theorem ends_planDefaultPhase {b active : Bool} (h : Stage scales b (AfterSkips active Pending) c) :
    Ends (planDefaultPhase cfg env scales) c
      (OkOrError (fun us c' => Stage scales b (AfterSkips active Running) c' ∧
          (.defaultSegment ∈ scales → defaultPlan cfg env = .ok us))
        fun c' => Stage scales b (AfterSkips active fun t => t.status.isTerminal = false) c' ∧
          .defaultSegment ∈ scales) := by
  unfold planDefaultPhase
  split
  · rename_i hs
    obtain ⟨t, ht, htp⟩ := h.task hs
    have hpending : Stage scales b (AfterSkips active fun t => t.status.isTerminal = false) c := by
      refine h.mono fun s t hp => ?_
      cases s with
      | defaultSegment =>
          show t.status.isTerminal = false
          rw [show t.status = .pending from hp]
          rfl
      | motionScan | highFreqEvent | lowFreqSummary => exact hp
    have hrunning : Stage scales b (AfterSkips active Running)
        (c.setTask .defaultSegment t.started) := by
      refine h.setTask hs (by decide) t.status_started fun s t hne hp => ?_
      cases s with
      | defaultSegment => exact absurd rfl hne
      | motionScan | highFreqEvent | lowFreqSummary => exact hp
    have hnotTerminal : Stage scales b (AfterSkips active fun t => t.status.isTerminal = false)
        (c.setTask .defaultSegment t.started) := by
      refine hrunning.mono fun s t hp => ?_
      cases s with
      | defaultSegment =>
          show t.status.isTerminal = false
          rw [show t.status = .running from hp]
          rfl
      | motionScan | highFreqEvent | lowFreqSummary => exact hp
    refine Ends.bind (Q := OkOrError (fun _ c' => c' = c.setTask .defaultSegment t.started)
      fun c' => c' = c) (ends_taskWrite ht (fun _ => rfl) fun _ => rfl) ?_ ?_
    · rintro - c' rfl
      refine Ends.bind (Q := fun _ c' => c' = c.setTask .defaultSegment t.started)
        (ends_workerStep rfl fun _ => rfl) ?_ fun e c' hc' => ⟨hc' ▸ hnotTerminal, hs⟩
      rintro - c' rfl
      refine (evals_planDefault _).ends ?_
      cases hplan : defaultPlan cfg env with
      | ok us => exact ⟨hrunning.updateProbeMetadata _, fun _ => rfl⟩
      | error e => exact ⟨hnotTerminal, hs⟩
    · rintro e c' rfl
      exact ⟨hpending, hs⟩
  · rename_i hs
    refine (Evals.pure [] c).ends ⟨?_, fun hmem => absurd hmem hs⟩
    refine { h with rows := fun s t ht => ?_ }
    have hp := h.rows s t ht
    cases s with
    | defaultSegment => exact absurd ((h.present _).mpr (by rw [ht]; rfl)) hs
    | motionScan | highFreqEvent | lowFreqSummary => exact hp

/-- The row of `high_freq_event` when units are about to run: running where it
has a plan. -/
def HighFreqRow (us : Option (List PlannedUnit)) (t : ScaleTaskRow) : Prop :=
  if us.isSome = true then Running t else t.onCounts = false

/-- The scale tasks when units are about to run. -/
structure ReadyToRun (cfg : WorkerConfig) (env : WorkerEnv) (scales : List AnalysisScale)
    (b active : Bool) (us : Option (List PlannedUnit)) (c : JobView) : Prop where
  stage : Stage scales b (TaskRows Running (HighFreqRow us) fun _ => True) c
  plan : ∀ us', us = some us' → highFreqPlanOf cfg env (some .highFreqEvent) c = .ok us'
  member : us.isSome = true → .highFreqEvent ∈ scales
  failed : (c.tasks .highFreqEvent).any ScaleTaskRow.failedOutright = (active && us.isNone)

/-- The planning of an active `high_freq_event`. -/
theorem ends_planActiveHighFreq {b : Bool} (h : Stage scales b (AfterSkips true Running) c)
    (ht : c.tasks .highFreqEvent = some t) (htp : Pending t) :
    Ends (do
        transitionRunning cfg env .highFreqEvent
        workerStep env (.scaleRunning .highFreqEvent)
        planHighFreq cfg env (some .highFreqEvent)) c fun r c' =>
      (∃ t', c' = c.setTask .highFreqEvent t' ∧ t'.status.isTerminal = false) ∧
      ∀ us, r = .ok us → c' = c.setTask .highFreqEvent t.started ∧
        highFreqPlanOf cfg env (some .highFreqEvent) c' = .ok us := by
  have hstarted : t.started.status.isTerminal = false := by
    rw [ScaleTaskRow.status_started]
    rfl
  refine Ends.bind (Q := OkOrError (fun _ c' => c' = c.setTask .highFreqEvent t.started)
    fun c' => c' = c) (ends_taskWrite ht (fun _ => rfl) fun _ => rfl) ?_ ?_
  · rintro - c' rfl
    refine Ends.bind (Q := fun _ c' => c' = c.setTask .highFreqEvent t.started)
      (ends_workerStep rfl fun _ => rfl) ?_ ?_
    · rintro - c' rfl
      exact (evals_planHighFreq _ _).ends ⟨⟨_, rfl, hstarted⟩, fun us hus => ⟨rfl, hus⟩⟩
    · rintro e c' rfl
      exact ⟨⟨_, rfl, hstarted⟩, fun us hus => by cases hus⟩
  · rintro e c' rfl
    refine ⟨⟨t, (JobState.setTask_eq_self ht).symm, ?_⟩, fun us hus => by cases hus⟩
    rw [show t.status = .pending from htp]
    rfl

/-- Phase 3, the optional scale: its failure leaves it failed outright. -/
theorem ends_planHighFreqPhase {b active : Bool} (h : Stage scales b (AfterSkips active Running) c)
    (hactive : active = true → .highFreqEvent ∈ scales) :
    Ends (planHighFreqPhase cfg env active) c
      (OkOrError (fun us => ReadyToRun cfg env scales b active us) Unfinalized) := by
  unfold planHighFreqPhase
  split
  · rename_i htrue
    subst htrue
    have hs := hactive rfl
    obtain ⟨t, ht, htp⟩ := h.task hs
    replace htp : Pending t := htp
    refine Ends.attempt_bind (ends_planActiveHighFreq h ht htp) ?_
    rintro r c' ⟨⟨t', hc', ht'⟩, hplan⟩
    cases r with
    | ok us =>
        obtain ⟨hc', hus⟩ := hplan us rfl
        refine (Evals.pure _ _).ends ⟨?_, fun us' hus' => ?_, fun _ => hs, ?_⟩
        · rw [hc']
          refine h.setTask hs (by decide) t.status_started fun s t hne hp => ?_
          cases s with
          | highFreqEvent => exact absurd rfl hne
          | defaultSegment | motionScan | lowFreqSummary => exact hp
        · cases hus'
          exact hus
        · rw [hc']
          simp [ScaleTaskRow.failedOutright]
    | error e =>
        -- the scale is not terminal where it raised, so that `failed` is new
        have hne : t'.status ≠ .failed := fun heq => by rw [heq] at ht'; cases ht'
        have htask : c'.tasks .highFreqEvent = some t' := by
          rw [hc']
          simp
        have hkeep : ∀ {P : ScaleTaskRow → Prop} {t₁ : ScaleTaskRow}, P t₁ →
            Stage scales b (TaskRows Running P fun _ => True) (c.setTask .highFreqEvent t₁) := by
          intro P t₁ hP
          refine h.setTask hs (by decide) hP fun s t hne hp => ?_
          cases s with
          | highFreqEvent => exact absurd rfl hne
          | defaultSegment | motionScan | lowFreqSummary => exact hp
        have hunfinalized : ∀ {t₁ : ScaleTaskRow}, t₁.onCounts = false →
            Unfinalized (c.setTask .highFreqEvent t₁) := fun ht₁ =>
          (hkeep (P := fun t => t.onCounts = false) ht₁).unfinalized_of_rows
            (fun _ => Running.onCounts) fun _ h => h
        refine Ends.bind (Q := OkOrError (fun _ => ReadyToRun cfg env scales b true none)
          Unfinalized)
          (ends_failScaleTask htask (fun r _ => ?_) fun _ => ?_)
          (fun _ c'' hc'' => (Evals.pure none c'').ends hc'') fun _ _ hc'' => hc''
        · have hset : c'.setTask .highFreqEvent (t'.moveTo .failed (some (classifyError e)) none)
              = c.setTask .highFreqEvent (t'.moveTo .failed (some (classifyError e)) none) := by
            rw [hc']
            simp [JobState.setTask]
          have honCounts := ScaleTaskRow.onCounts_moveTo_failed (classifyError e) none hne
          rw [hset]
          cases r with
          | error _ => exact hunfinalized honCounts
          | ok _ =>
              refine ⟨hkeep honCounts, fun us hus => (by cases hus), fun h => (by cases h), ?_⟩
              simp [ScaleTaskRow.failedOutright_moveTo hne]
        · rw [hc']
          exact hunfinalized (ScaleTaskRow.onCounts_of_not_terminal ht')
  -- not active: phase 2 has settled the scale, if the job has it
  · rename_i hfalse
    rw [Bool.not_eq_true] at hfalse
    subst hfalse
    refine (Evals.pure none c).ends ⟨?_, fun us hus => (by cases hus), fun h => (by cases h), ?_⟩
    · refine h.mono fun s t hp => ?_
      cases s with
      | highFreqEvent => exact hp.1
      | defaultSegment | motionScan | lowFreqSummary => exact hp
    · cases ht : c.tasks .highFreqEvent with
      | none => rfl
      | some t =>
          have hrow : ActiveRow false t := h.rows _ t ht
          exact hrow.2

end CctvMemory.Worker
