import CctvMemory.Worker.Agreement
import CctvMemory.Worker.Keys
import CctvMemory.Worker.Moves

/-!
# Where a run can crash

The states that the run of a fresh cross-scale job passes through, as far as its
unit rows are concerned. Up to the end of planning there are none, and after
the reconciliation no unit is running; in between, the rows are any part of the
plans.

* `left_of_states`: in every state of the run no unit is running, or the units of
  the plans were being run.
-/

namespace CctvMemory.Worker

open Act (Keeps Triple)
open Keyed (Table)

variable {cfg : WorkerConfig} {env : WorkerEnv} {db db' : JobRows} {scale : AnalysisScale}
  {t : ScaleTaskRow} {scales : List AnalysisScale}

/-! ## Scale tasks that run no units -/

/-- A scale task that did not run units: it failed by an exception, if it failed,
and `low_freq_summary` never does. -/
def SideRow (scale : AnalysisScale) (t : ScaleTaskRow) : Prop :=
  t.status = .failed ∨ t.status = .partialFailed →
    t.failedOutright = true ∧ scale ≠ .lowFreqSummary

theorem SideRow.of_ne (hf : t.status ≠ .failed) (hp : t.status ≠ .partialFailed) :
    SideRow scale t := by
  rintro (h | h)
  · exact absurd h hf
  · exact absurd h hp

theorem SideRow.moveTo {target : TaskStatus} {ec : Option ErrorCode} {sr : Option SkippedReason}
    (hf : target ≠ .failed) (hp : target ≠ .partialFailed) :
    SideRow scale (t.moveTo target ec sr) :=
  .of_ne (by rwa [ScaleTaskRow.status_moveTo]) (by rwa [ScaleTaskRow.status_moveTo])

/-- A failed scale task is left alone, any other fails with the code. -/
theorem SideRow.moveTo_failed {code : ErrorCode} {sr : Option SkippedReason}
    (h : SideRow scale t) (hs : scale ≠ .lowFreqSummary) :
    SideRow scale (t.moveTo .failed (some code) sr) := by
  by_cases hf : t.status = .failed
  · rw [ScaleTaskRow.moveTo, if_pos hf]
    exact h
  · exact fun _ => ⟨ScaleTaskRow.failedOutright_moveTo hf, hs⟩

/-- No unit has a row, and no scale task was finalized on the counts of units. -/
structure BeforeUnits (db : JobRows) : Prop where
  units : db.units = Table.empty
  rows : ∀ s t, db.tasks s = some t → SideRow s t

theorem BeforeUnits.setTask (h : BeforeUnits db) (ht : SideRow scale t) :
    BeforeUnits (db.setTask scale t) where
  units := h.units
  rows := by
    intro s t' ht'
    rw [JobState.tasks_setTask, Function.update_apply] at ht'
    split at ht'
    · rename_i heq
      cases ht'
      exact heq ▸ ht
    · exact h.rows s t' ht'

theorem BeforeUnits.of_eq (h : BeforeUnits db) (hunits : db'.units = db.units)
    (htasks : db'.tasks = db.tasks) : BeforeUnits db' where
  units := hunits.trans h.units
  rows := htasks ▸ h.rows

/-- A transition finds the scale task and moves it. -/
theorem tasks_of_transitionScaleTask {target : TaskStatus} {ec : Option ErrorCode}
    {sr : Option SkippedReason} (h : db.transitionScaleTask scale target ec sr = .ok db') :
    ∃ t, db.tasks scale = some t ∧ db' = db.setTask scale (t.moveTo target ec sr) := by
  cases ht : db.tasks scale with
  | none =>
      unfold JobState.transitionScaleTask at h
      rw [ht] at h
      cases h
  | some t =>
      cases hlegal : legalTask t.status target with
      | false =>
          rw [JobState.transitionScaleTask_of_not_legal ht hlegal] at h
          cases h
      | true =>
          rw [JobState.transitionScaleTask_of_legal ht hlegal] at h
          exact ⟨t, rfl, (Except.ok.inj h).symm⟩

/-! ## The phases before the units -/

section Before

theorem keeps_taskWrite_before {w : WorkerWrite} {target : TaskStatus} {ec : Option ErrorCode}
    {sr : Option SkippedReason}
    (hmove : ∀ t, SideRow scale t → SideRow scale (t.moveTo target ec sr)) :
    Keeps BeforeUnits (taskWrite cfg env w scale target ec sr) fun _ => True := by
  refine keeps_write fun db _ db' hdb h => ⟨?_, trivial⟩
  obtain ⟨db₁, htrans, h⟩ := Act.ok_of_bind h
  cases h
  obtain ⟨t, ht, rfl⟩ := tasks_of_transitionScaleTask htrans
  exact hdb.setTask (hmove t (hdb.rows scale t ht))

theorem keeps_transitionRunning_before :
    Keeps BeforeUnits (transitionRunning cfg env scale) fun _ => True :=
  keeps_taskWrite_before fun _ _ => .moveTo (by decide) (by decide)

theorem keeps_skipScaleTask_before {reason : SkippedReason} :
    Keeps BeforeUnits (skipScaleTask cfg env scale reason) fun _ => True :=
  (keeps_taskWrite_before fun _ _ => .moveTo (by decide) (by decide)).bind
    fun _ _ => keeps_workerStep _

theorem keeps_failScaleTask_before {e : Exn} (hs : scale ≠ .lowFreqSummary) :
    Keeps BeforeUnits (failScaleTask cfg env scale e) fun _ => True :=
  (keeps_taskWrite_before fun _ h => h.moveTo_failed hs).bind fun _ _ => keeps_workerStep _

/-- A finalization without failures. -/
theorem keeps_finalizeScale_before {r : ScaleProcessResult} (hr : r.failed = 0) :
    Keeps BeforeUnits (writeSession cfg env (.finalizeScale scale) fun db => do
      .ok ((), ← db.finalizeScaleTask scale r)) fun _ => True := by
  refine keeps_write fun db _ db' hdb h => ⟨?_, trivial⟩
  obtain ⟨db₁, hfinal, h⟩ := Act.ok_of_bind h
  cases h
  obtain ⟨t, ht, rfl⟩ := tasks_of_transitionScaleTask hfinal
  have hstatus : r.status = .succeeded := by
    simp [ScaleProcessResult.status, hr]
  -- the counters say nothing of the status
  have hcounted : BeforeUnits (db.updateCounters scale r) := by
    refine ⟨hdb.units, fun s t' ht' => ?_⟩
    change Function.update db.tasks scale _ s = some t' at ht'
    rw [Function.update_apply] at ht'
    split at ht'
    · rename_i heq
      subst heq
      obtain ⟨t₀, ht₀, rfl⟩ := Option.map_eq_some_iff.mp ht'
      exact hdb.rows s t₀ ht₀
    · exact hdb.rows s t' ht'
  rw [hstatus]
  exact hcounted.setTask (.moveTo (by decide) (by decide))

theorem keeps_processMotion_before :
    Keeps BeforeUnits (processScaleTask cfg env .motionScan) fun _ => True := by
  have hscan : Keeps BeforeUnits (runScale cfg env .motionScan) fun r => r.failed = 0 := by
    refine Keeps.bind (R := fun _ => True) (keeps_session fun db n db' hdb h => ?_)
      fun n _ => .pure rfl
    cases h
    exact ⟨hdb.of_eq rfl rfl, trivial⟩
  have hactive : Keeps BeforeUnits (runActiveScale cfg env .motionScan) fun _ => True := by
    refine keeps_transitionRunning_before.bind fun _ _ => ?_
    refine (keeps_workerStep _).bind fun _ _ => ?_
    refine hscan.bind fun r hr => ?_
    refine (keeps_finalizeScale_before hr).bind fun _ _ => ?_
    exact (keeps_workerStep _).bind fun _ _ => .pure trivial
  -- `motion_scan` is never skipped
  refine Keeps.bind (R := fun reason => reason = none) (.pure rfl) ?_
  rintro reason rfl
  exact hactive.bind fun _ _ => .pure trivial

theorem keeps_motionPhase_before :
    Keeps BeforeUnits (motionPhase cfg env scales) fun _ => True := by
  unfold motionPhase
  split
  · refine keeps_processMotion_before.attempt.bind fun r _ => ?_
    cases r with
    | ok r => exact .pure trivial
    | error e => exact (keeps_failScaleTask_before (by decide)).bind fun _ _ => .pure trivial
  · exact .pure trivial

theorem keeps_skipPhase_before :
    Keeps BeforeUnits (skipPhase cfg env scales) fun _ => True := by
  have hactive : Keeps BeforeUnits (highFreqActive env scales) fun _ => True := by
    unfold highFreqActive
    split
    · exact keeps_hasTriggers
    · exact .pure trivial
  have hskip : ∀ b s reason,
      Keeps BeforeUnits (skipScaleTaskIf cfg env b s reason) fun _ => True := by
    intro b s reason
    unfold skipScaleTaskIf
    split
    · exact keeps_skipScaleTask_before
    · exact .pure trivial
  refine hactive.bind fun active _ => ?_
  exact (hskip _ _ _).bind fun _ _ => (hskip _ _ _).bind fun _ _ => .pure trivial

theorem keeps_planDefaultPhase_before :
    Keeps BeforeUnits (planDefaultPhase cfg env scales) fun _ => True := by
  unfold planDefaultPhase
  split
  · refine keeps_transitionRunning_before.bind fun _ _ => ?_
    refine (keeps_workerStep _).bind fun _ _ => keeps_session fun db us db' hdb h => ?_
    obtain ⟨windows, -, h⟩ := Act.ok_of_bind h
    cases h
    exact ⟨hdb.of_eq rfl rfl, trivial⟩
  · exact .pure trivial

theorem keeps_planHighFreqPhase_before {active : Bool} :
    Keeps BeforeUnits (planHighFreqPhase cfg env active) fun _ => True := by
  unfold planHighFreqPhase
  split
  · have hplan : Keeps BeforeUnits (planHighFreq cfg env (some .highFreqEvent)) fun _ => True := by
      refine keeps_session fun db us db' hdb h => ?_
      obtain ⟨us', -, h⟩ := Act.ok_of_bind h
      cases h
      exact ⟨hdb, trivial⟩
    refine (Keeps.attempt (Q := fun _ => True) ?_).bind fun r _ => ?_
    · refine keeps_transitionRunning_before.bind fun _ _ => ?_
      exact (keeps_workerStep _).bind fun _ _ => hplan
    · cases r with
      | ok us => exact .pure trivial
      | error e => exact (keeps_failScaleTask_before (by decide)).bind fun _ _ => .pure trivial
  · exact .pure trivial

end Before

/-! ## While the units run -/

def Quiet (db : JobRows) : Prop := ∀ u ∈ db.units.rows, u.row.status ≠ .running

/-- The units of the plans are being run, or were when the worker crashed: the
rows are any part of the plans, and a scale is finalized on its rows or not at
all. -/
structure Halted (cfg : WorkerConfig) (env : WorkerEnv) (db : JobRows) : Prop where
  planned : ∀ u ∈ db.units.rows, ∃ s ∈ unitScales, u.key.scaleTask = some s ∧
    (db.tasks s).isSome = true ∧ u.key ∈ (plannedUnits cfg env s db.view).map PlannedUnit.key
  rows : ∀ u ∈ db.units.rows, u.row.status ≠ .partialFailed
  counted : ∀ s ∈ unitScales, ∀ t, db.tasks s = some t → t.onCounts = true →
    t = (scaleResult s db).finishedRow ∧ ∀ r ∈ unitRowsOf s db, r.status.isTerminal = true
  side : ∀ s t, db.tasks s = some t → (s ∈ unitScales → t.onCounts = false) → SideRow s t
  default : ∃ t, db.tasks .defaultSegment = some t ∧ (t.status = .running ∨ t.onCounts = true)

/-- What a crash leaves of the unit rows. -/
def Left (cfg : WorkerConfig) (env : WorkerEnv) (db : JobRows) : Prop := Quiet db ∨ Halted cfg env db

/-- The rows while the units `us` run from `db₁`, which had no rows. -/
structure Dispatched (db₁ : JobRows) (us : List PlannedUnit) (db : JobRows) : Prop where
  tasks : db.tasks = db₁.tasks
  planInput : db.planInput = db₁.planInput
  units : ∀ k r, unitRow db.units k = some r →
    k ∈ us.map PlannedUnit.key ∧ r.status ≠ .partialFailed

theorem RowMove.not_partial {row : Option UnitRow} {next : Option UnitRow × List Effect}
    (h : RowMove row next) (hrow : ¬ HasStatus .partialFailed row) :
    ¬ HasStatus .partialFailed next.1 := by
  intro hnext
  rcases h _ hnext with hsame | hs | hs | hs | ⟨hs, -⟩
  · exact hrow hsame
  all_goals cases hs

/-- A unit writes its own row, and never sets it partially failed. -/
theorem always_dispatched {db₁ : JobRows} {us : List PlannedUnit} {u : PlannedUnit} (hu : u ∈ us) :
    (unitProg env u).Always (Dispatched db₁ us) := by
  refine unitParts.always_zoom_of (J := fun row => ¬ HasStatus .partialFailed row) ?_ ?_
    (fun _ _ hdb => hdb) ((each_runUnit _ _).always fun _ _ => RowMove.not_partial)
  · intro db hdb hpartial
    obtain ⟨r, hr, hstatus⟩ := Option.map_eq_some_iff.mp hpartial
    exact (hdb.units u.key r hr).2 hstatus
  · intro row db hrow hdb
    refine ⟨hdb.tasks, hdb.planInput, fun k r hk => ?_⟩
    by_cases hkey : u.key = k
    · subst hkey
      have hself : unitRow (unitParts.put u.key row db).units u.key = row :=
        unitParts.get_put_self u.key row db
      rw [hself] at hk
      subst hk
      exact ⟨List.mem_map_of_mem hu, fun hstatus => hrow (congrArg some hstatus)⟩
    · have hother : unitRow (unitParts.put u.key row db).units k = unitRow db.units k :=
        unitParts.get_put_of_ne row db hkey
      exact hdb.units k r (hother ▸ hk)

section Run

variable {b active : Bool} {df hf : Option (List PlannedUnit)} {db₁ : JobRows}

theorem Halted.of_dispatched (hbefore : BeforeUnits db₁)
    (hready : ReadyToRun cfg env scales b active hf db₁.view)
    (hdf : ∀ us, df = some us → .defaultSegment ∈ scales ∧ defaultPlan cfg env = .ok us)
    (hdefault : .defaultSegment ∈ scales) (h : Dispatched db₁ (dispatched cfg df hf) db) :
    Halted cfg env db := by
  have hplans : PlansOf cfg env db₁.view df hf := ⟨fun us hus => (hdf us hus).2, hready.plan⟩
  have hrow : ∀ u ∈ db.units.rows, unitRow db.units u.key = some u.row := by
    intro u hu
    rw [unitRow, Table.get?_of_mem hu]
    rfl
  have hunfinalized := hready.unfinalized.scales
  constructor
  · intro u hu
    obtain ⟨v, hv, hkey⟩ := List.mem_map.mp (h.units _ _ (hrow u hu)).1
    -- the scale of the plan that the unit is of
    obtain ⟨s, hs, hplan⟩ : ∃ s ∈ unitScales, v ∈ (planFor df hf s).getD [] := by
      rcases List.mem_append.mp ((dispatchOrder_perm _ _ _).mem_iff.mp hv) with hv | hv
      · exact ⟨.highFreqEvent, by decide, hv⟩
      · exact ⟨.defaultSegment, by decide, hv⟩
    obtain ⟨us, hus⟩ : ∃ us, planFor df hf s = some us := by
      cases hus : planFor df hf s with
      | none =>
          rw [hus] at hplan
          cases hplan
      | some us => exact ⟨us, rfl⟩
    have hmem : s ∈ scales := by
      rcases List.mem_cons.mp hs with rfl | hs
      · exact hdefault
      · rcases List.mem_singleton.mp hs
        exact hready.member (by rw [show hf = some us from hus]; rfl)
    refine ⟨s, hs, ?_, ?_, ?_⟩
    · rw [← hkey]
      exact ((hplans.planOf_planFor hs).keys v hplan).1
    · rw [h.tasks]
      exact (hready.stage.present s).mp hmem
    · rw [hplans.plannedUnits_eq h.planInput hs hus, ← hkey]
      rw [hus] at hplan
      exact List.mem_map_of_mem hplan
  · exact fun u hu => (h.units _ _ (hrow u hu)).2
  · intro s hs t ht hcounts
    rw [hunfinalized s hs t (h.tasks ▸ ht)] at hcounts
    cases hcounts
  · exact fun s t ht _ => hbefore.rows s t (h.tasks ▸ ht)
  · obtain ⟨t, ht, hrunning⟩ := hready.stage.task hdefault
    exact ⟨t, h.tasks ▸ ht, Or.inl hrunning⟩

/-! ## After the units -/

theorem Halted.quiet (h : Halted cfg env db) : Quiet (reconcileRunningUnits env db) := by
  intro u hu
  obtain ⟨v, hv, rfl⟩ := List.mem_map.mp hu
  obtain ⟨s, -, hkey, hsome, -⟩ := h.planned v hv
  have hlisted : (v.key.scaleTask.bind db.tasks).isSome = true := by
    rw [hkey]
    exact hsome
  rw [if_pos hlisted]
  show (reconcileUnit env v.row).status ≠ .running
  unfold reconcileUnit
  split
  · rw [UnitRow.status_markFailed]
    decide
  · assumption

theorem triple_reconcile :
    Triple (fun _ n => Left cfg env n.1) (Halted cfg env) (reconcileRunningUnitsForJob cfg env)
      (fun _ => Quiet) fun _ => Halted cfg env := by
  refine triple_dbWrite (fun db _ db' _ hdb h => ?_) fun db e hdb => ⟨Or.inr hdb, hdb⟩
  cases h
  exact ⟨Or.inl hdb.quiet, hdb.quiet⟩

instance : OffUnitsStable Quiet := ⟨fun _ _ h hoff u hu => h u (hoff.units ▸ hu)⟩

theorem triple_runPlanned {anyPartial : Bool}
    (hdf : ∀ us, df = some us → .defaultSegment ∈ scales ∧ defaultPlan cfg env = .ok us)
    (hdefault : .defaultSegment ∈ scales) :
    Triple (fun _ n => Left cfg env n.1)
      (fun db => BeforeUnits db ∧ ReadyToRun cfg env scales b active hf db.view)
      (runPlanned cfg env df hf anyPartial) (fun _ _ => True) fun _ _ => True := by
  rintro db₁ ⟨hbefore, hready⟩
  have hhalted : ∀ db, Dispatched db₁ (dispatched cfg df hf) db → Halted cfg env db :=
    fun db => Halted.of_dispatched hbefore hready hdf hdefault
  have hstart : Dispatched db₁ (dispatched cfg df hf) db₁ := by
    refine ⟨rfl, rfl, fun k r hk => ?_⟩
    rw [hbefore.units] at hk
    cases hk
  have hunits : Keeps (Dispatched db₁ (dispatched cfg df hf))
      (dispatchPhase cfg env (dispatched cfg df hf)) fun _ => True :=
    keeps_dispatchPhase fun u hu => always_dispatched hu
  have hrun : Triple (fun _ n => Left cfg env n.1) (Dispatched db₁ (dispatched cfg df hf))
      (runPlanned cfg env df hf anyPartial) (fun _ _ => True) fun _ _ => True := by
    refine Triple.bind ((hunits.guarantee fun _ n hn => Or.inr (hhalted n.1 hn)).weaken
      (fun _ hdb => hdb) (fun _ _ hdb => hhalted _ hdb.1) fun _ _ _ => trivial) fun outcomes => ?_
    refine Triple.bind (triple_reconcile.weaken (fun _ hdb => hdb) (fun _ _ hdb => hdb)
      fun _ _ _ => trivial) fun _ => ?_
    -- phases 5 and 6 write no unit
    have hends : Keeps Quiet (finalizeScalesPhase cfg env
        (df.map fun _ => tallyOf .defaultSegment (dispatched cfg df hf) outcomes)
        (hf.map fun _ => tallyOf .highFreqEvent (dispatched cfg df hf) outcomes) >>= fun _ =>
      jobOutcomePhase cfg env
        (df.map fun _ => tallyOf .defaultSegment (dispatched cfg df hf) outcomes)
        (hf.map fun _ => tallyOf .highFreqEvent (dispatched cfg df hf) outcomes) anyPartial)
        fun _ => True :=
      keeps_finalizeScalesPhase.bind fun _ _ => keeps_jobOutcomePhase
    exact (hends.guarantee fun _ _ hn => Or.inl hn).weaken (fun _ hdb => hdb)
      (fun _ _ _ => trivial) fun _ _ _ => trivial
  exact hrun db₁ hstart

/-! ## The whole run -/

/-- An invariant of every step, and what is known of the result. -/
theorem triple_of_ends {α : Type} {x : JobAct α} {I : JobRows → Prop} {T : α → Prop}
    {P : JobView → Prop} {Q : Except Exn α → JobView → Prop} (hkeeps : Keeps I x T)
    (hends : ∀ c, P c → Ends x c Q) :
    Triple (fun _ n => I n.1) (fun db => I db ∧ P db.view) x
      (fun a db => I db ∧ Q (.ok a) db.view) fun e db => I db ∧ Q (.error e) db.view := by
  rintro db ⟨hI, hP⟩
  obtain ⟨halong, hpost⟩ := hkeeps db hI
  have hend := (hends db.view hP).exec rfl
  refine ⟨halong, ?_⟩
  rcases hrun : Act.exec x db with ⟨e | a, db'⟩
  · rw [hrun] at hpost hend
    exact ⟨hpost, hend⟩
  · rw [hrun] at hpost hend
    exact ⟨hpost.1, hend⟩

theorem BeforeUnits.quiet (h : BeforeUnits db) : Quiet db := by
  intro u hu
  rw [h.units] at hu
  cases hu

theorem BeforeUnits.left (h : BeforeUnits db) : Left cfg env db := Or.inl h.quiet

/-- A phase before the units, with what is known of its result. -/
theorem triple_phase {α : Type} {x : JobAct α} {P : JobView → Prop}
    {Q : Except Exn α → JobView → Prop} (hkeeps : Keeps BeforeUnits x fun _ => True)
    (hends : ∀ c, P c → Ends x c Q) :
    Triple (fun _ n => Left cfg env n.1) (fun db => BeforeUnits db ∧ P db.view) x
      (fun a db => BeforeUnits db ∧ Q (.ok a) db.view) fun _ db => BeforeUnits db :=
  ((triple_of_ends hkeeps hends).guarantee fun _ _ hn => hn.left).weaken (fun _ hdb => hdb)
    (fun _ _ hdb => hdb) fun _ _ hdb => hdb.1

/-- Phases 3 to 6. -/
theorem triple_planned (hdefault : .defaultSegment ∈ scales) {motionFailed : Bool}
    (hactive : active = true → .highFreqEvent ∈ scales) :
    Triple (fun _ n => Left cfg env n.1)
      (fun db => BeforeUnits db ∧ Stage scales b (AfterSkips active Pending) db.view)
      (do
        match ← Act.attempt (planDefaultPhase cfg env scales) with
        | .error e => handleRequiredFailure cfg env e
        | .ok defaultUnits => do
            let highFreqUnits ← planHighFreqPhase cfg env active
            runPlanned cfg env
              (if .defaultSegment ∈ scales then some defaultUnits else none) highFreqUnits
              (motionFailed || (active && highFreqUnits.isNone)))
      (fun _ _ => True) fun _ _ => True := by
  refine Triple.bind ((triple_phase keeps_planDefaultPhase_before
    fun _ h => ends_planDefaultPhase h).attempt) fun r => ?_
  cases r with
  | error e =>
      -- the required scale could not be planned: the job fails without units
      have hfail : Keeps Quiet (handleRequiredFailure cfg env e) fun _ => True :=
        keeps_handleRequiredFailure
      exact (hfail.guarantee fun _ _ hn => Or.inl hn).weaken (fun _ hdb => hdb.quiet)
        (fun _ _ _ => trivial) fun _ _ _ => trivial
  | ok us =>
      rintro db ⟨hbefore, hstage, hplan⟩
      have hdf : ∀ us', (if .defaultSegment ∈ scales then some us else none) = some us' →
          .defaultSegment ∈ scales ∧ defaultPlan cfg env = .ok us' := by
        intro us' hus'
        rw [if_pos hdefault] at hus'
        cases hus'
        exact ⟨hdefault, hplan hdefault⟩
      have hrest : Triple (fun _ n => Left cfg env n.1)
          (fun db => BeforeUnits db ∧ Stage scales b (AfterSkips active Running) db.view)
          (do
            let highFreqUnits ← planHighFreqPhase cfg env active
            runPlanned cfg env (if .defaultSegment ∈ scales then some us else none) highFreqUnits
              (motionFailed || (active && highFreqUnits.isNone)))
          (fun _ _ => True) fun _ _ => True :=
        Triple.bind ((triple_phase keeps_planHighFreqPhase_before
          fun _ h => ends_planHighFreqPhase h hactive).weaken (fun _ hdb => hdb)
            (fun _ _ hdb => hdb) fun _ _ _ => trivial)
          fun hf => triple_runPlanned hdf hdefault
      exact hrest db ⟨hbefore, hstage⟩

theorem triple_processCrossScale (hdefault : .defaultSegment ∈ scales) :
    Triple (fun _ n => Left cfg env n.1)
      (fun db => BeforeUnits db ∧ Stage scales false (fun _ => Pending) db.view)
      (processCrossScale cfg env scales) (fun _ _ => True) fun _ _ => True := by
  refine Triple.bind ((triple_phase keeps_motionPhase_before fun _ h => ends_motionPhase h).weaken
    (fun _ hdb => hdb) (fun _ _ hdb => hdb) fun _ _ _ => trivial) fun b => ?_
  refine Triple.bind ((triple_phase keeps_skipPhase_before fun _ h => ends_skipPhase h).weaken
    (fun _ hdb => hdb) (fun _ _ hdb => hdb) fun _ _ _ => trivial) fun active => ?_
  rintro db ⟨hbefore, hstage, hactive⟩
  exact triple_planned hdefault hactive db ⟨hbefore, hstage⟩

theorem BeforeUnits.start (h : FreshJob db) : BeforeUnits db where
  units := h.units
  rows := by
    intro s t ht
    have hp : t.status = .pending := h.pending s t ht
    exact .of_ne (by rw [hp]; decide) (by rw [hp]; decide)

/-- Wherever the run of a fresh cross-scale job crashes. -/
theorem left_of_states {db₀ : JobRows} (hcross : cfg.crossScaleEnabled = true)
    (hfresh : FreshJob db₀) : ∀ db ∈ Act.states (processClaimedTask cfg env) db₀, Left cfg env db := by
  have hstart := BeforeUnits.start hfresh
  have hmark : Keeps BeforeUnits (writeSession cfg env .markJobRunning fun db => do
      let db ← db.transitionJob .running none none
      .ok (db.scaleTasks, db)) fun _ => True := by
    refine keeps_write fun db scales db' hdb h => ⟨?_, trivial⟩
    obtain ⟨db₁, hjob, h⟩ := Act.ok_of_bind h
    cases h
    unfold JobState.transitionJob at hjob
    split at hjob
    · cases hjob
      exact hdb
    · split at hjob
      · cases hjob
        exact hdb.of_eq rfl rfl
      · cases hjob
  have hstage := hfresh.stage
  have hrest : Triple (fun _ n => Left cfg env n.1)
      (fun db => BeforeUnits db ∧ Stage db₀.view.scaleTasks false (fun _ => Pending) db.view)
      (do
        workerStep env .jobRunning
        if cfg.crossScaleEnabled = true then processCrossScale cfg env db₀.view.scaleTasks
        else processSequential cfg env db₀.view.scaleTasks)
      (fun _ _ => True) fun _ _ => True := by
    refine Triple.bind ((triple_phase (Q := fun _ c => Stage _ false (fun _ => Pending) c)
      (keeps_workerStep _) fun c hc => ends_workerStep hc fun _ => hc).weaken (fun _ hdb => hdb)
        (fun _ _ hdb => hdb) fun _ _ _ => trivial) fun _ => ?_
    rw [if_pos hcross]
    exact triple_processCrossScale ((hstage.present _).mpr hfresh.required)
  have hrun : Triple (fun _ n => Left cfg env n.1)
      (fun db => BeforeUnits db ∧ db.view = db₀.view) (processClaimedTask cfg env)
      (fun _ _ => True) fun _ _ => True := by
    refine Triple.bind ((triple_phase (P := fun c => c = db₀.view) (Q := fun r c =>
      ∀ scales, r = .ok scales → scales = db₀.view.scaleTasks ∧ c = db₀.view.started) hmark
        ?_).weaken (fun _ hdb => hdb) (fun _ _ hdb => hdb) fun _ _ _ => trivial) fun scales => ?_
    · rintro c rfl
      refine ends_markJobRunning hfresh.queued ?_ fun e scales h => by cases h
      exact fun scales h => ⟨(Except.ok.inj h).symm, rfl⟩
    · rintro db ⟨hbefore, hresult⟩
      obtain ⟨rfl, hview⟩ := hresult scales rfl
      exact hrest db ⟨hbefore, hview ▸ hstage⟩
  exact Triple.states hrun ⟨hstart, rfl⟩ hstart.left

end Run

end CctvMemory.Worker
