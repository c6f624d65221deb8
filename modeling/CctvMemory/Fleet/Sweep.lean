import CctvMemory.Fleet.Recovery
import CctvMemory.Library.Trace
import CctvMemory.Worker.Crash

/-!
# Sweeps after a crash

A fresh cross-scale job whose run crashes anywhere, and the sweeps after it.
Unit rows are created when a worker picks a window up, so that a crash leaves
any part of a plan, and a sweep finalizes a scale task from the rows there are.

* `recoveryAgrees_iff`: a sweep finalizes as phases 5 and 6 would exactly when
  every window of what it finalizes has been started.
* `sweep_overlooks_a_window`: a window that nobody started is not missed.
-/

namespace CctvMemory.Recovery

open Iso (DateTime)
open Keyed (Table)
open Orphans (isStale orphanFailed)
open Worker

/-! ## Sweeps -/

/-- One sweep: its clock, its limit, and the units of the other jobs it counts. -/
structure Sweep where
  now : DateTime
  cutoff : DateTime
  limit : ℕ
  others : List UnitRow

/-- The units of the job that the sweep fails. -/
def Sweep.stale (e : Sweep) (db : JobRows) : List UnitEntry :=
  staleUnits e.cutoff e.limit e.others db

def SweepStep (db : JobRows) (e : Sweep) (db' : JobRows) : Prop :=
  recoverOrphans e.now e.cutoff e.limit e.others db = .ok db'

/-- The run of a job crashed at some point, and these sweeps came after it. -/
abbrev CrashRun (cfg : WorkerConfig) (env : WorkerEnv) (db₀ : JobRows) (es : List Sweep)
    (db : JobRows) : Prop :=
  Trace.Run (fun db => db ∈ Act.states (processClaimedTask cfg env) db₀) SweepStep es db

/-! ## What phases 5 and 6 give -/

/-- The outcome that a unit row stores. -/
def storedOutcome (row : UnitRow) : Option UnitOutcome :=
  match row.status with
  | .succeeded => some .succeeded
  | .failed => some .failed
  | .skipped => some .skipped
  | _ => none

/-- The outcomes of the windows that the plan has for a scale, where every one of
them has a unit row in a terminal status. -/
def outcomes (cfg : WorkerConfig) (env : WorkerEnv) (scale : AnalysisScale) (db : JobRows) :
    Option (List UnitOutcome) :=
  (plannedUnits cfg env scale db.view).mapM fun u => (unitRow db.units u.key).bind storedOutcome

/-- What the scheduler tallies for a scale, where it can be told from the rows; a
scale that ran no units has no tally. -/
def ranTally (cfg : WorkerConfig) (env : WorkerEnv) (scale : AnalysisScale) (db : JobRows) :
    Option (Option ScaleProcessResult) :=
  if (db.tasks scale).any ScaleTaskRow.onCounts = true then
    (outcomes cfg env scale db).map fun os => some (.tally os)
  else some none

/-- What the sweep finalizes has a settled row for every window of its plan, and
gets what phases 5 and 6 give for the outcomes of these rows. -/
structure RecoveryAgrees (cfg : WorkerConfig) (env : WorkerEnv) (db db' : JobRows) : Prop where
  scales : ∀ s t t', db.tasks s = some t → db'.tasks s = some t' →
    t.status = .running → t'.status ≠ .running →
      ∃ os, outcomes cfg env s db' = some os ∧ t' = (ScaleProcessResult.tally os).finishedRow
  job : db.job.jobStatus = .running → db'.job.jobStatus ≠ .running →
    ∃ ds hs, ranTally cfg env .defaultSegment db' = some ds ∧
      ranTally cfg env .highFreqEvent db' = some hs ∧
      db'.job.jobStatus = jobOutcome ds hs
        ((db'.tasks .motionScan).any ScaleTaskRow.failedOutright ||
          (db'.tasks .highFreqEvent).any ScaleTaskRow.failedOutright)

/-! ## When a sweep finalizes -/

/-- The sweep finalizes the scale task: it is running, one of its units is stale,
and every other one is stale or settled. -/
structure Due (e : Sweep) (db : JobRows) (scale : AnalysisScale) : Prop where
  running : ∃ t, db.tasks scale = some t ∧ t.status = .running
  stale : ∃ u ∈ e.stale db, u.key.scaleTask = some scale
  rest : ∀ u ∈ db.units.rows, u.key.scaleTask = some scale →
    u.row.status.isTerminal = true ∨ u ∈ e.stale db

/-- The sweep finalizes the job. -/
structure JobDue (e : Sweep) (db : JobRows) : Prop where
  running : db.job.jobStatus = .running
  stale : e.stale db ≠ []
  tasks : ∀ s t, db.tasks s = some t → t.status.isTerminal = true ∨ Due e db s

/-- Every window of the plan has a unit row. -/
def Started (cfg : WorkerConfig) (env : WorkerEnv) (db : JobRows) (scale : AnalysisScale) : Prop :=
  ∀ u ∈ plannedUnits cfg env scale db.view, (unitRow db.units u.key).isSome = true

/-- Every window of a scale that the sweep finalizes has been started, and so has
every window of the scales that were finalized before, where it finalizes the job. -/
structure WindowsStarted (cfg : WorkerConfig) (env : WorkerEnv) (e : Sweep) (db : JobRows) :
    Prop where
  scales : ∀ s, Due e db s → Started cfg env db s
  job : JobDue e db → ∀ s t, db.tasks s = some t → t.onCounts = true → Started cfg env db s

/-! ## What a sweep does -/

section Swept

variable {cfg : WorkerConfig} {env : WorkerEnv} {db db' : JobRows} {e : Sweep}
  {scale : AnalysisScale}

/-- A unit after the sweep. -/
def failedIf (now : DateTime) (stale : List UnitKey) (u : UnitEntry) : UnitEntry :=
  if u.key ∈ stale then ⟨u.key, orphanFailed now u.row⟩ else u

@[simp] theorem key_failedIf (now : DateTime) (stale : List UnitKey) (u : UnitEntry) :
    (failedIf now stale u).key = u.key := by
  unfold failedIf
  split <;> rfl

theorem rows_failStale (now : DateTime) (stale : List UnitKey) (db : JobRows) :
    (failStale now stale db).units.rows = db.units.rows.map (failedIf now stale) := rfl

theorem mem_stale_iff {u : UnitEntry} (hu : u ∈ db.units.rows) :
    u.key ∈ (e.stale db).map UnitEntry.key ↔ u ∈ e.stale db := by
  constructor
  · intro h
    obtain ⟨v, hv, hkey⟩ := List.mem_map.mp h
    rwa [Table.eq_of_key_eq (mem_staleUnits hv).1 hu hkey] at hv
  · exact List.mem_map_of_mem

theorem running_of_stale {u : UnitEntry} (h : u ∈ e.stale db) : u.row.status = .running := by
  have hstale := (mem_staleUnits h).2
  rw [isStale, Bool.and_eq_true, decide_eq_true_eq] at hstale
  exact hstale.1

theorem terminal_failedIf {u : UnitEntry} (hu : u ∈ db.units.rows) :
    (failedIf e.now ((e.stale db).map UnitEntry.key) u).row.status.isTerminal = true ↔
      u.row.status.isTerminal = true ∨ u ∈ e.stale db := by
  unfold failedIf
  split
  · rename_i h
    exact iff_of_true rfl (Or.inr ((mem_stale_iff hu).mp h))
  · rename_i h
    exact ⟨Or.inl, fun hor => hor.resolve_right fun hs => h ((mem_stale_iff hu).mpr hs)⟩

/-- The rows of a scale after the sweep. -/
theorem unitRowsOf_failStale (now : DateTime) (stale : List UnitKey) (db : JobRows)
    (scale : AnalysisScale) :
    unitRowsOf scale (failStale now stale db) =
      (db.units.rows.filter fun u => decide (u.key.scaleTask = some scale)).map
        fun u => (failedIf now stale u).row := by
  unfold unitRowsOf
  rw [rows_failStale, List.filter_map, List.map_map]
  congr 2
  funext u
  simp

theorem unitRowsOf_congr (h : db'.units = db.units) : unitRowsOf scale db' = unitRowsOf scale db := by
  unfold unitRowsOf
  rw [h]

/-- The scale tasks that the sweep reaches and finds settled are those it finalizes. -/
theorem due_iff :
    scale ∈ (((e.stale db).map UnitEntry.key).filterMap UnitKey.scaleTask).dedup ∧
      finalizable scale (failStale e.now ((e.stale db).map UnitEntry.key) db) = true ↔
      Due e db scale := by
  have hreached : scale ∈ (((e.stale db).map UnitEntry.key).filterMap UnitKey.scaleTask).dedup ↔
      ∃ u ∈ e.stale db, u.key.scaleTask = some scale := by
    rw [List.mem_dedup, List.mem_filterMap]
    constructor
    · rintro ⟨k, hk, hscale⟩
      obtain ⟨u, hu, rfl⟩ := List.mem_map.mp hk
      exact ⟨u, hu, hscale⟩
    · rintro ⟨u, hu, hscale⟩
      exact ⟨u.key, List.mem_map_of_mem hu, hscale⟩
  have hsettled : (unitRowsOf scale (failStale e.now ((e.stale db).map UnitEntry.key) db)).all
        (fun u => u.status.isTerminal) = true ↔
      ∀ u ∈ db.units.rows, u.key.scaleTask = some scale →
        u.row.status.isTerminal = true ∨ u ∈ e.stale db := by
    rw [unitRowsOf_failStale, List.all_eq_true]
    constructor
    · intro h u hu hscale
      refine (terminal_failedIf hu).mp (h _ (List.mem_map.mpr ⟨u, ?_, rfl⟩))
      exact List.mem_filter.mpr ⟨hu, decide_eq_true hscale⟩
    · intro h r hr
      obtain ⟨u, hu, rfl⟩ := List.mem_map.mp hr
      obtain ⟨hu, hscale⟩ := List.mem_filter.mp hu
      exact (terminal_failedIf hu).mpr (h u hu (of_decide_eq_true hscale))
  have hrunning : (db.tasks scale).any (fun t => decide (t.status = .running)) = true ↔
      ∃ t, db.tasks scale = some t ∧ t.status = .running := by
    rw [Option.any_eq_true]
    simp
  show _ ∧ ((db.tasks scale).any (fun t => decide (t.status = .running)) &&
    (unitRowsOf scale (failStale e.now ((e.stale db).map UnitEntry.key) db)).all
      fun u => u.status.isTerminal) = true ↔ _
  rw [Bool.and_eq_true, hreached, hsettled, hrunning]
  exact ⟨fun h => ⟨h.2.1, h.1, h.2.2⟩, fun h => ⟨h.stale, h.running, h.rest⟩⟩

/-! ## The job -/

/-- The status that the sweep gives a job whose scale tasks are all settled. -/
def recoveredStatus (db : JobRows) : JobStatus :=
  if (db.tasks .defaultSegment).any (fun default =>
      decide (0 < default.totalUnits ∧ default.succeededUnits = 0)) = true then .failed
  else finishedStatus ((db.scaleTasks.filterMap db.tasks).any fun st =>
    decide (st.status = .failed ∨ st.status = .partialFailed))

theorem mem_filterMap_tasks {t : ScaleTaskRow} :
    t ∈ db.scaleTasks.filterMap db.tasks ↔ ∃ s, db.tasks s = some t := by
  rw [List.mem_filterMap]
  constructor
  · rintro ⟨s, -, ht⟩
    exact ⟨s, ht⟩
  · rintro ⟨s, ht⟩
    exact ⟨s, (mem_scaleTasks db s).mpr (by rw [ht]; rfl), ht⟩

theorem any_open_tasks :
    (db.scaleTasks.filterMap db.tasks).any
        (fun st => decide (st.status = .running ∨ st.status = .pending)) = false ↔
      ∀ s t, db.tasks s = some t → t.status.isTerminal = true := by
  have hopen : ∀ t : ScaleTaskRow, ¬ decide (t.status = .running ∨ t.status = .pending) = true ↔
      t.status.isTerminal = true := by
    intro t
    cases t.status <;> decide
  rw [List.any_eq_false]
  constructor
  · exact fun h s t ht => (hopen t).mp (h t (mem_filterMap_tasks.mpr ⟨s, ht⟩))
  · intro h t ht
    obtain ⟨s, ht⟩ := mem_filterMap_tasks.mp ht
    exact (hopen t).mpr (h s t ht)

theorem reconcileJob_of_settled (hjob : db.job.jobStatus = .running)
    (hsettled : ∀ s t, db.tasks s = some t → t.status.isTerminal = true) :
    ∃ job, reconcileJob db = .ok { db with job } ∧ job.jobStatus = recoveredStatus db := by
  unfold reconcileJob recoveredStatus
  rw [if_neg (not_not.mpr hjob)]
  dsimp only
  rw [any_open_tasks.mpr hsettled, if_neg Bool.false_ne_true]
  split
  · refine ⟨_, JobState.transitionJob_of_legal (by rw [hjob]; rfl), ?_⟩
    exact JobRow.jobStatus_moveTo _ _ _ _
  · refine ⟨_, JobState.transitionJob_of_legal ?_, ?_⟩
    · rw [hjob]
      split <;> rfl
    · exact JobRow.jobStatus_moveTo _ _ _ _

theorem reconcileJob_of_open (h : ¬ (db.job.jobStatus = .running ∧
    ∀ s t, db.tasks s = some t → t.status.isTerminal = true)) : reconcileJob db = .ok db := by
  unfold reconcileJob
  by_cases hjob : db.job.jobStatus = .running
  · rw [if_neg (not_not.mpr hjob)]
    dsimp only
    have hopen : (db.scaleTasks.filterMap db.tasks).any
        (fun st => decide (st.status = .running ∨ st.status = .pending)) = true := by
      rw [← Bool.not_eq_false, any_open_tasks]
      exact fun hsettled => h ⟨hjob, hsettled⟩
    rw [if_pos hopen]
  · exact if_pos hjob

/-- What one sweep makes of the rows of the job. -/
structure Swept (e : Sweep) (db db' : JobRows) : Prop where
  units : db'.units = (failStale e.now ((e.stale db).map UnitEntry.key) db).units
  due : ∀ s, Due e db s → db'.tasks s = some (scaleResult s db').finishedRow
  kept : ∀ s, ¬ Due e db s → db'.tasks s = db.tasks s
  planInput : db'.planInput = db.planInput
  jobDue : JobDue e db → db'.job.jobStatus = recoveredStatus db'
  jobKept : ¬ JobDue e db → db'.job = db.job

theorem isTerminal_finishedRow (r : ScaleProcessResult) : r.finishedRow.status.isTerminal = true := by
  show r.status.isTerminal = true
  unfold ScaleProcessResult.status
  split
  · rfl
  · split <;> rfl

/-- Once its scale tasks are finalized, the job is settled exactly if it is due. -/
theorem jobDue_iff {tasks : AnalysisScale → Option ScaleTaskRow} (hstale : e.stale db ≠ [])
    (hdue : ∀ s, Due e db s → ∃ r, tasks s = some (ScaleProcessResult.finishedRow r))
    (hkept : ∀ s, ¬ Due e db s → tasks s = db.tasks s) :
    JobDue e db ↔ db.job.jobStatus = .running ∧
      ∀ s t, tasks s = some t → t.status.isTerminal = true := by
  constructor
  · refine fun h => ⟨h.running, fun s t ht => ?_⟩
    by_cases hs : Due e db s
    · obtain ⟨r, hr⟩ := hdue s hs
      rw [hr] at ht
      cases ht
      exact isTerminal_finishedRow r
    · exact (h.tasks s t (hkept s hs ▸ ht)).resolve_right hs
  · rintro ⟨hjob, hsettled⟩
    refine ⟨hjob, hstale, fun s t ht => ?_⟩
    by_cases hs : Due e db s
    · exact Or.inr hs
    · exact Or.inl (hsettled s t ((hkept s hs).trans ht))

/-- A sweep goes through, whatever the rows. -/
theorem exists_swept (e : Sweep) (db : JobRows) : ∃ db', SweepStep db e db' ∧ Swept e db db' := by
  obtain ⟨tasks, hfold, htasks⟩ := foldlM_reconcileScaleTask
    (List.nodup_dedup (((e.stale db).map UnitEntry.key).filterMap UnitKey.scaleTask))
    (failStale e.now ((e.stale db).map UnitEntry.key) db)
  set swept := failStale e.now ((e.stale db).map UnitEntry.key) db with hswept
  have hdue : ∀ s, Due e db s → tasks s = some (scaleResult s swept).finishedRow :=
    fun s hs => (htasks s).trans (if_pos (due_iff.mpr hs))
  have hkept : ∀ s, ¬ Due e db s → tasks s = db.tasks s :=
    fun s hs => (htasks s).trans (if_neg fun hdue => hs (due_iff.mp hdue))
  have hstep : recoverOrphans e.now e.cutoff e.limit e.others db
      = if (e.stale db).map UnitEntry.key = [] then .ok { swept with tasks }
        else reconcileJob { swept with tasks } :=
    congrArg (· >>= _) hfold
  unfold SweepStep
  rw [hstep]
  by_cases hstale : e.stale db = []
  · rw [if_pos (by rw [hstale]; rfl)]
    exact ⟨_, rfl, rfl, hdue, hkept, rfl, fun hd => absurd hstale hd.stale, fun _ => rfl⟩
  · rw [if_neg (by rwa [List.map_eq_nil_iff])]
    -- the job is looked at after its scale tasks, so `hiff` is about the new ones
    have hiff := jobDue_iff hstale (fun s hs => ⟨_, hdue s hs⟩) hkept
    by_cases hd : JobDue e db
    · obtain ⟨hrunning, hsettled⟩ := hiff.mp hd
      obtain ⟨job, hrec, hstatus⟩ :=
        @reconcileJob_of_settled { swept with tasks } hrunning hsettled
      exact ⟨_, hrec, rfl, hdue, hkept, rfl, fun _ => hstatus, fun hnot => absurd hd hnot⟩
    · refine ⟨_, reconcileJob_of_open fun hsettled => hd (hiff.mpr hsettled), ?_⟩
      exact ⟨rfl, hdue, hkept, rfl, fun hd' => absurd hd' hd, fun _ => rfl⟩

theorem Swept.of_step (h : SweepStep db e db') : Swept e db db' := by
  obtain ⟨db₁, hstep, hswept⟩ := exists_swept e db
  cases (hstep.symm.trans h)
  exact hswept

/-! ## What a crash leaves, after a sweep -/

theorem stale_of_quiet (h : Quiet db) : e.stale db = [] := by
  cases hstale : e.stale db with
  | nil => rfl
  | cons u us =>
      have hu : u ∈ e.stale db := hstale ▸ List.mem_cons_self
      exact absurd (running_of_stale hu) (h u (mem_staleUnits hu).1)

theorem plannedUnits_congr {c c' : JobView} (h : c'.planInput = c.planInput) :
    plannedUnits cfg env scale c' = plannedUnits cfg env scale c := by
  cases scale with
  | highFreqEvent =>
      show (highFreqPlanOf cfg env (some .highFreqEvent) c').toOption.getD [] = _
      rw [highFreqPlanOf_congr h]
      rfl
  | defaultSegment | motionScan | lowFreqSummary => rfl

/-- A scale that the sweep finalizes is one that runs units. -/
theorem Due.mem_unitScales (hdue : Due e db scale) (hhalted : Halted cfg env db) :
    scale ∈ unitScales := by
  obtain ⟨u, hu, hkey⟩ := hdue.stale
  obtain ⟨s, hs, hkey', -⟩ := hhalted.planned u (mem_staleUnits hu).1
  rw [hkey] at hkey'
  cases hkey'
  exact hs

namespace Swept

variable (h : Swept e db db')

include h

theorem plannedUnits_eq : plannedUnits cfg env scale db'.view = plannedUnits cfg env scale db.view :=
  plannedUnits_congr h.planInput

theorem quiet (hquiet : Quiet db) : Quiet db' := by
  intro u hu
  rw [h.units, stale_of_quiet hquiet, rows_failStale] at hu
  obtain ⟨v, hv, rfl⟩ := List.mem_map.mp hu
  exact hquiet v hv

theorem mem_rows {u : UnitEntry} (hu : u ∈ db'.units.rows) :
    ∃ v ∈ db.units.rows, u = failedIf e.now ((e.stale db).map UnitEntry.key) v := by
  rw [h.units, rows_failStale] at hu
  obtain ⟨v, hv, rfl⟩ := List.mem_map.mp hu
  exact ⟨v, hv, rfl⟩

theorem isSome_units (k : UnitKey) :
    (unitRow db'.units k).isSome = (unitRow db.units k).isSome := by
  rw [h.units]
  unfold unitRow
  have hget : (failStale e.now ((e.stale db).map UnitEntry.key) db).units.get? k
      = (db.units.get? k).map (failedIf e.now ((e.stale db).map UnitEntry.key)) :=
    Table.get?_mapRows db.units _ (key_failedIf e.now ((e.stale db).map UnitEntry.key)) k
  rw [hget, Option.isSome_map, Option.isSome_map, Option.isSome_map]

theorem started_iff : Started cfg env db' scale ↔ Started cfg env db scale := by
  unfold Started
  rw [h.plannedUnits_eq]
  simp only [h.isSome_units]

/-- Of a scale whose rows were settled, the sweep changes none. -/
theorem unitRowsOf_eq (hsettled : ∀ r ∈ unitRowsOf scale db, r.status.isTerminal = true) :
    unitRowsOf scale db' = unitRowsOf scale db := by
  rw [unitRowsOf_congr h.units, unitRowsOf_failStale]
  refine List.map_congr_left fun u hu => ?_
  have hmem := List.mem_of_mem_filter hu
  unfold failedIf
  rw [if_neg]
  intro hstale
  have hrun := running_of_stale ((mem_stale_iff hmem).mp hstale)
  have hterminal := hsettled u.row (List.mem_map_of_mem hu)
  rw [hrun] at hterminal
  cases hterminal

theorem terminal_of_due (hdue : Due e db scale) :
    ∀ r ∈ unitRowsOf scale db', r.status.isTerminal = true := by
  intro r hr
  rw [unitRowsOf_congr h.units, unitRowsOf_failStale] at hr
  obtain ⟨u, hu, rfl⟩ := List.mem_map.mp hr
  obtain ⟨hu, hkey⟩ := List.mem_filter.mp hu
  exact (terminal_failedIf hu).mpr (hdue.rest u hu (of_decide_eq_true hkey))

theorem halted (hhalted : Halted cfg env db) : Halted cfg env db' := by
  constructor
  · intro u hu
    obtain ⟨v, hv, rfl⟩ := h.mem_rows hu
    obtain ⟨s, hs, hkey, hsome, hplan⟩ := hhalted.planned v hv
    rw [key_failedIf]
    refine ⟨s, hs, hkey, ?_, h.plannedUnits_eq ▸ hplan⟩
    by_cases hdue : Due e db s
    · rw [h.due s hdue]
      rfl
    · rwa [h.kept s hdue]
  · intro u hu
    obtain ⟨v, hv, rfl⟩ := h.mem_rows hu
    unfold failedIf
    split
    · exact fun hstatus => by cases hstatus
    · exact hhalted.rows v hv
  · intro s hs t ht hcounts
    by_cases hdue : Due e db s
    · rw [h.due s hdue] at ht
      exact ⟨(Option.some.inj ht).symm, h.terminal_of_due hdue⟩
    · obtain ⟨hrow, hsettled⟩ := hhalted.counted s hs t (h.kept s hdue ▸ ht) hcounts
      have hsame := h.unitRowsOf_eq hsettled
      exact ⟨by rw [scaleResult, hsame]; exact hrow, by rwa [hsame]⟩
  · intro s t ht hcounts
    by_cases hdue : Due e db s
    · rw [h.due s hdue] at ht
      cases ht
      have hfalse := hcounts (hdue.mem_unitScales hhalted)
      rw [ScaleProcessResult.onCounts_finishedRow] at hfalse
      cases hfalse
    · exact hhalted.side s t (h.kept s hdue ▸ ht) hcounts
  · obtain ⟨t, ht, hstatus⟩ := hhalted.default
    by_cases hdue : Due e db .defaultSegment
    · exact ⟨_, h.due _ hdue, Or.inr (ScaleProcessResult.onCounts_finishedRow _)⟩
    · exact ⟨t, (h.kept _ hdue).trans ht, hstatus⟩

theorem left (hleft : Left cfg env db) : Left cfg env db' := by
  rcases hleft with hquiet | hhalted
  · exact Or.inl (h.quiet hquiet)
  · exact Or.inr (h.halted hhalted)

end Swept

/-- After any crash of the first run and any sweeps. -/
theorem left_of_crashRun {db₀ : JobRows} {es : List Sweep} (hcross : cfg.crossScaleEnabled = true)
    (hfresh : FreshJob db₀) (hrun : CrashRun cfg env db₀ es db) : Left cfg env db := by
  refine Trace.Run.invariant_of_state (p := fun _ => True) ?_ ?_ hrun fun _ _ => trivial
  · exact fun db hdb => left_of_states hcross hfresh db hdb
  · exact fun db e db' hleft _ hs => (Swept.of_step hs).left hleft

/-! ## The outcomes of the rows -/

theorem storedOutcome_of_terminal {r : UnitRow} (h : r.status.isTerminal = true)
    (hp : r.status ≠ .partialFailed) : ∃ o : UnitOutcome, storedOutcome r = some o := by
  unfold storedOutcome
  cases hs : r.status with
  | succeeded | failed | skipped => exact ⟨_, rfl⟩
  | partialFailed => exact absurd hs hp
  | pending | running =>
      rw [hs] at h
      cases h

theorem status_of_storedOutcome {r : UnitRow} {o : UnitOutcome} (h : storedOutcome r = some o) :
    r.status = o.toStatus := by
  unfold storedOutcome at h
  cases hs : r.status <;> rw [hs] at h <;> cases h <;> rfl

/-- The tally of the outcomes that rows store is the counts of the rows. -/
theorem exists_tally {us : List PlannedUnit} {f : PlannedUnit → Option UnitRow}
    (h : ∀ u ∈ us, ∃ r o, f u = some r ∧ storedOutcome r = some o) :
    ∃ os, us.mapM (fun u => (f u).bind storedOutcome) = some os ∧
      ScaleProcessResult.tally os = .ofRows (us.filterMap f) := by
  induction us with
  | nil => exact ⟨[], rfl, rfl⟩
  | cons u us ih =>
      obtain ⟨r, o, hr, ho⟩ := h u List.mem_cons_self
      obtain ⟨os, hos, htally⟩ := ih fun v hv => h v (List.mem_cons_of_mem _ hv)
      have hstatus := status_of_storedOutcome ho
      refine ⟨o :: os, ?_, ?_⟩
      · rw [List.mapM_cons, hr, hos]
        simp [ho]
      · rw [List.filterMap_cons, hr]
        simp only [ScaleProcessResult.tally, ScaleProcessResult.ofRows,
          ScaleProcessResult.mk.injEq] at htally ⊢
        obtain ⟨htotal, hsucc, hfail, hskip⟩ := htally
        simp only [List.length_cons, List.countP_cons, List.count_cons, hstatus]
        cases o <;> simp [UnitOutcome.toStatus, *]

theorem isSome_of_mapM {α β : Type} {f : α → Option β} {as : List α} {bs : List β}
    (h : as.mapM f = some bs) : ∀ a ∈ as, (f a).isSome = true := by
  induction as generalizing bs with
  | nil => exact fun a ha => by cases ha
  | cons a as ih =>
      rw [List.mapM_cons] at h
      obtain ⟨b, hb, h⟩ := Option.bind_eq_some_iff.mp h
      obtain ⟨bs', hbs, -⟩ := Option.bind_eq_some_iff.mp h
      intro a' ha'
      rcases List.mem_cons.mp ha' with rfl | ha'
      · rw [hb]
        rfl
      · exact ih hbs a' ha'

theorem started_of_outcomes {os : List UnitOutcome} (h : outcomes cfg env scale db = some os) :
    Started cfg env db scale := by
  intro u hu
  have hsome := isSome_of_mapM h u hu
  cases hrow : unitRow db.units u.key with
  | none =>
      rw [hrow] at hsome
      cases hsome
  | some r => rfl

theorem planOf_plannedUnits (hs : scale ∈ unitScales) (c : JobView) :
    PlanOf (some scale) scale (plannedUnits cfg env scale c) := by
  rcases List.mem_cons.mp hs with rfl | hs
  · show PlanOf _ _ ((defaultPlan cfg env).toOption.getD [])
    cases hplan : defaultPlan cfg env with
    | error e => exact PlanOf.nil _ _
    | ok us => exact planOf_defaultPlan hplan
  · rcases List.mem_singleton.mp hs
    show PlanOf _ _ ((highFreqPlanOf cfg env (some .highFreqEvent) c).toOption.getD [])
    cases hplan : highFreqPlanOf cfg env (some .highFreqEvent) c with
    | error e => exact PlanOf.nil _ _
    | ok us => exact planOf_highFreqPlanOf hplan

theorem mem_of_unitRow {k : UnitKey} {r : UnitRow} (h : unitRow db.units k = some r) :
    ∃ u ∈ db.units.rows, u.key = k ∧ u.row = r := by
  obtain ⟨u, hu, rfl⟩ := Option.map_eq_some_iff.mp h
  exact ⟨u, Table.mem_of_get? hu, Table.key_of_get? hu, rfl⟩

/-- Where every window has been started and every row is settled, the tally of the
outcomes is the counts of the rows. -/
theorem outcomes_of_started (hhalted : Halted cfg env db) (hs : scale ∈ unitScales)
    (hsettled : ∀ r ∈ unitRowsOf scale db, r.status.isTerminal = true)
    (hstarted : Started cfg env db scale) :
    ∃ os, outcomes cfg env scale db = some os ∧
      ScaleProcessResult.tally os = scaleResult scale db := by
  have hplan : PlanOf (some scale) scale (plannedUnits cfg env scale db.view) :=
    planOf_plannedUnits hs db.view
  have hstored : ∀ u ∈ plannedUnits cfg env scale db.view,
      ∃ r o, unitRow db.units u.key = some r ∧ storedOutcome r = some o := by
    intro u hu
    obtain ⟨r, hr⟩ := Option.isSome_iff_exists.mp (hstarted u hu)
    obtain ⟨v, hv, hkey, rfl⟩ := mem_of_unitRow hr
    have hterminal : v.row.status.isTerminal = true := by
      refine hsettled _ (List.mem_map.mpr ⟨v, List.mem_filter.mpr ⟨hv, ?_⟩, rfl⟩)
      rw [hkey, (hplan.keys u hu).1]
      exact decide_eq_true rfl
    obtain ⟨o, ho⟩ := storedOutcome_of_terminal hterminal (hhalted.rows v hv)
    exact ⟨v.row, o, hr, ho⟩
  obtain ⟨os, hos, htally⟩ := exists_tally hstored
  refine ⟨os, hos, htally.trans ?_⟩
  -- no row of the scale is of another window
  have hperm : (unitRowsOf scale db).Perm _ := unitRowsOf_perm hplan fun k hkey hrow => by
    obtain ⟨r, hr⟩ := Option.isSome_iff_exists.mp hrow
    obtain ⟨v, hv, rfl, rfl⟩ := mem_of_unitRow hr
    obtain ⟨s, -, hkey', -, hmem⟩ := hhalted.planned v hv
    rw [hkey] at hkey'
    cases hkey'
    exact hmem
  exact (ScaleProcessResult.ofRows_perm hperm).symm

/-! ## The status of the job -/

/-- A scale task that failed, wholly or in part. -/
def anyFailed (t : ScaleTaskRow) : Bool := decide (t.status = .failed ∨ t.status = .partialFailed)

theorem anyFailed_finishedRow (r : ScaleProcessResult) :
    anyFailed r.finishedRow = decide (r.failed ≠ 0) := by
  unfold anyFailed
  refine decide_eq_decide.mpr ?_
  show r.status = .failed ∨ r.status = .partialFailed ↔ _
  unfold ScaleProcessResult.status
  split
  · rename_i h
    exact iff_of_true (Or.inr rfl) h.1
  · split
    · rename_i h
      exact iff_of_true (Or.inl rfl) h
    · rename_i h
      refine iff_of_false ?_ h
      rintro (h | h) <;> cases h

/-- A scale task that ran no units failed outright, if it failed. -/
theorem anyFailed_of_side {t : ScaleTaskRow} (h : SideRow scale t) :
    anyFailed t = t.failedOutright := by
  rw [Bool.eq_iff_iff]
  constructor
  · exact fun hfailed => (h (of_decide_eq_true hfailed)).1
  · intro hout
    rw [ScaleTaskRow.failedOutright, Bool.and_eq_true, decide_eq_true_eq] at hout
    exact decide_eq_true (Or.inl hout.1)

theorem any_scaleTasks (p : ScaleTaskRow → Bool) :
    (db.scaleTasks.filterMap db.tasks).any p
      = ((db.tasks .defaultSegment).any p || (db.tasks .motionScan).any p ||
        (db.tasks .highFreqEvent).any p || (db.tasks .lowFreqSummary).any p) := by
  rw [Bool.eq_iff_iff, List.any_eq_true]
  simp only [Bool.or_eq_true, Option.any_eq_true]
  constructor
  · rintro ⟨t, ht, hp⟩
    obtain ⟨s, hs⟩ := mem_filterMap_tasks.mp ht
    cases s with
    | defaultSegment => exact Or.inl (Or.inl (Or.inl ⟨t, hs, hp⟩))
    | motionScan => exact Or.inl (Or.inl (Or.inr ⟨t, hs, hp⟩))
    | highFreqEvent => exact Or.inl (Or.inr ⟨t, hs, hp⟩)
    | lowFreqSummary => exact Or.inr ⟨t, hs, hp⟩
  · rintro (((⟨t, hs, hp⟩ | ⟨t, hs, hp⟩) | ⟨t, hs, hp⟩) | ⟨t, hs, hp⟩) <;>
      exact ⟨t, mem_filterMap_tasks.mpr ⟨_, hs⟩, hp⟩

theorem any_anyFailed_of_side (h : ∀ t, db.tasks scale = some t → SideRow scale t) :
    (db.tasks scale).any anyFailed = (db.tasks scale).any ScaleTaskRow.failedOutright := by
  cases ht : db.tasks scale with
  | none => rfl
  | some t => exact anyFailed_of_side (h t ht)

/-- The tally of `high_freq_event`: none where it was not finalized on counts. -/
def HighFreqTally (db : JobRows) (hs : Option ScaleProcessResult) : Prop :=
  match hs with
  | some r => db.tasks .highFreqEvent = some r.finishedRow
  | none => ∀ t, db.tasks .highFreqEvent = some t → t.onCounts = false

/-- The job gets the status of phase 6. -/
theorem recoveredStatus_eq (hhalted : Halted cfg env db) {ds : ScaleProcessResult}
    {hs : Option ScaleProcessResult} (hdefault : db.tasks .defaultSegment = some ds.finishedRow)
    (hhigh : HighFreqTally db hs) :
    recoveredStatus db = jobOutcome (some ds) hs
      ((db.tasks .motionScan).any ScaleTaskRow.failedOutright ||
        (db.tasks .highFreqEvent).any ScaleTaskRow.failedOutright) := by
  have hmotion : (db.tasks .motionScan).any anyFailed
      = (db.tasks .motionScan).any ScaleTaskRow.failedOutright :=
    any_anyFailed_of_side fun t ht => hhalted.side _ t ht fun hs => absurd hs (by decide)
  have hlow : (db.tasks .lowFreqSummary).any anyFailed = false := by
    cases ht : db.tasks .lowFreqSummary with
    | none => rfl
    | some t =>
        refine Bool.eq_false_iff.mpr fun hfailed => ?_
        have hside := hhalted.side _ t ht fun hs => absurd hs (by decide)
        exact (hside (of_decide_eq_true hfailed)).2 rfl
  have hany : (db.scaleTasks.filterMap db.tasks).any anyFailed
      = ((db.tasks .motionScan).any ScaleTaskRow.failedOutright ||
          (db.tasks .highFreqEvent).any ScaleTaskRow.failedOutright ||
        decide (ds.failed ≠ 0) || hs.any fun r => decide (r.failed ≠ 0)) := by
    rw [any_scaleTasks, hdefault, Option.any_some, anyFailed_finishedRow, hmotion, hlow]
    -- `high_freq_event` fails on its counts, or outright where it has none
    cases hs with
    | none =>
        rw [any_anyFailed_of_side fun t ht => hhalted.side _ t ht fun _ => hhigh t ht]
        simp [Bool.or_comm, Bool.or_left_comm]
    | some r =>
        rw [show db.tasks .highFreqEvent = some r.finishedRow from hhigh, Option.any_some,
          Option.any_some, Option.any_some, anyFailed_finishedRow,
          ScaleProcessResult.failedOutright_finishedRow]
        simp [Bool.or_comm, Bool.or_left_comm]
  unfold recoveredStatus jobOutcome
  rw [hdefault]
  show (if baselineEmpty ds = true then _ else finishedStatus
    ((db.scaleTasks.filterMap db.tasks).any anyFailed)) = _
  rw [hany]
  rfl

/-! ## Agreement -/

theorem ranTally_of_onCounts {t : ScaleTaskRow} (ht : db.tasks scale = some t)
    (hcounts : t.onCounts = true) :
    ranTally cfg env scale db = (outcomes cfg env scale db).map fun os => some (.tally os) :=
  if_pos (by rw [ht]; exact hcounts)

theorem started_of_ranTally {t : ScaleTaskRow} {r : Option ScaleProcessResult}
    (ht : db.tasks scale = some t) (hcounts : t.onCounts = true)
    (h : ranTally cfg env scale db = some r) : Started cfg env db scale := by
  rw [ranTally_of_onCounts ht hcounts] at h
  obtain ⟨os, hos, -⟩ := Option.map_eq_some_iff.mp h
  exact started_of_outcomes hos

theorem started_of_not_unitScale (hs : scale ∉ unitScales) : Started cfg env db scale := by
  intro u hu
  cases scale with
  | motionScan | lowFreqSummary => cases hu
  | defaultSegment | highFreqEvent => exact absurd (by decide) hs

/-- A scale on counts has a tally, the counts of its row. -/
theorem ranTally_eq (hhalted : Halted cfg env db) (hs : scale ∈ unitScales) {t : ScaleTaskRow}
    (ht : db.tasks scale = some t) (hcounts : t.onCounts = true)
    (hstarted : Started cfg env db scale) :
    ranTally cfg env scale db = some (some (scaleResult scale db)) ∧
      db.tasks scale = some (scaleResult scale db).finishedRow := by
  obtain ⟨hrow, hsettled⟩ := hhalted.counted scale hs t ht hcounts
  obtain ⟨os, hos, htally⟩ := outcomes_of_started hhalted hs hsettled hstarted
  refine ⟨?_, hrow ▸ ht⟩
  rw [ranTally_of_onCounts ht hcounts, hos, Option.map_some, htally]

namespace Swept

variable (h : Swept e db db')

include h

/-- Agreement needs every window: the outcomes of a plan are those of its rows. -/
theorem windowsStarted (hagrees : RecoveryAgrees cfg env db db') : WindowsStarted cfg env e db where
  scales := by
    intro s hdue
    obtain ⟨t, ht, hrunning⟩ := hdue.running
    have hdone : (scaleResult s db').finishedRow.status ≠ .running :=
      status_finishedRow_ne_running _
    obtain ⟨os, hos, -⟩ := hagrees.scales s t _ ht (h.due s hdue) hrunning hdone
    exact h.started_iff.mp (started_of_outcomes hos)
  job := by
    intro hdue s t ht hcounts
    have hterminal : db'.job.jobStatus ≠ .running := by
      rw [h.jobDue hdue]
      unfold recoveredStatus finishedStatus
      split
      · decide
      · split <;> decide
    obtain ⟨ds, hs, hds, hhs, -⟩ := hagrees.job hdue.running hterminal
    -- a scale on counts is settled, so that this sweep leaves its row
    have hnot : ¬ Due e db s := by
      rintro ⟨⟨t', ht', hrunning⟩, -, -⟩
      rw [ht] at ht'
      cases ht'
      rw [ScaleTaskRow.onCounts_of_not_terminal (by rw [hrunning]; rfl)] at hcounts
      cases hcounts
    have ht' : db'.tasks s = some t := (h.kept s hnot).trans ht
    rw [← h.started_iff]
    cases s with
    | defaultSegment => exact started_of_ranTally ht' hcounts hds
    | highFreqEvent => exact started_of_ranTally ht' hcounts hhs
    | motionScan | lowFreqSummary => exact started_of_not_unitScale (by decide)

/-- A scale that is finalized on counts after the sweep that finalizes the job. -/
theorem started_of_onCounts (hstarted : WindowsStarted cfg env e db) (hjob : JobDue e db)
    {t : ScaleTaskRow} (ht : db'.tasks scale = some t) (hcounts : t.onCounts = true) :
    Started cfg env db' scale := by
  rw [h.started_iff]
  by_cases hdue : Due e db scale
  · exact hstarted.scales scale hdue
  · exact hstarted.job hjob scale t (h.kept scale hdue ▸ ht) hcounts

theorem agrees (hhalted : Halted cfg env db) (hstarted : WindowsStarted cfg env e db) :
    RecoveryAgrees cfg env db db' where
  scales := by
    intro s t t' ht ht' hrunning hdone
    -- only a sweep that finds the scale due takes it out of `running`
    have hdue : Due e db s := by
      by_contra hnot
      rw [h.kept s hnot, ht] at ht'
      cases ht'
      exact hdone hrunning
    obtain ⟨os, hos, htally⟩ := outcomes_of_started (h.halted hhalted)
      (hdue.mem_unitScales hhalted) (h.terminal_of_due hdue)
      (h.started_iff.mpr (hstarted.scales s hdue))
    refine ⟨os, hos, ?_⟩
    rw [h.due s hdue] at ht'
    rw [htally]
    exact (Option.some.inj ht').symm
  job := by
    intro hrunning hdone
    have hjob : JobDue e db := by
      by_contra hnot
      rw [h.jobKept hnot] at hdone
      exact hdone hrunning
    have hhalted' := h.halted hhalted
    have hsettled : ∀ s t, db'.tasks s = some t → t.status.isTerminal = true :=
      ((jobDue_iff hjob.stale (fun s hs => ⟨_, h.due s hs⟩) h.kept).mp hjob).2
    obtain ⟨t, ht, hstatus⟩ := hhalted'.default
    -- the required scale is settled now, and only its counts settle it
    have hcounts : t.onCounts = true := by
      refine hstatus.resolve_left fun hrun => ?_
      have hterminal := hsettled _ t ht
      rw [hrun] at hterminal
      cases hterminal
    obtain ⟨hds, hdefault⟩ := ranTally_eq hhalted' (by decide) ht hcounts
      (h.started_of_onCounts hstarted hjob ht hcounts)
    obtain ⟨hs, hhs, hhigh⟩ : ∃ hs, ranTally cfg env .highFreqEvent db' = some hs ∧
        HighFreqTally db' hs := by
      by_cases hex : ∃ t, db'.tasks .highFreqEvent = some t ∧ t.onCounts = true
      · obtain ⟨t, ht, hcounts⟩ := hex
        obtain ⟨hhs, hrow⟩ := ranTally_eq hhalted' (by decide) ht hcounts
          (h.started_of_onCounts hstarted hjob ht hcounts)
        exact ⟨_, hhs, hrow⟩
      · have hnone : ∀ t, db'.tasks .highFreqEvent = some t → t.onCounts = false :=
          fun t ht => Bool.eq_false_iff.mpr fun hcounts => hex ⟨t, ht, hcounts⟩
        refine ⟨none, if_neg ?_, hnone⟩
        rw [Option.any_eq_true]
        exact hex
    refine ⟨_, hs, hds, hhs, ?_⟩
    rw [h.jobDue hjob]
    exact recoveredStatus_eq hhalted' hdefault hhigh

/-- Where no unit is running, the sweep does nothing. -/
theorem of_quiet (hquiet : Quiet db) : RecoveryAgrees cfg env db db' ∧ WindowsStarted cfg env e db := by
  have hnone := stale_of_quiet (e := e) hquiet
  have hdue : ∀ s, ¬ Due e db s := by
    rintro s ⟨-, ⟨u, hu, -⟩, -⟩
    rw [hnone] at hu
    cases hu
  have hjob : ¬ JobDue e db := fun hd => hd.stale hnone
  refine ⟨⟨fun s t t' ht ht' hrunning hdone => ?_, fun hrunning hdone => ?_⟩,
    ⟨fun s hd => absurd hd (hdue s), fun hd => absurd hd hjob⟩⟩
  · rw [h.kept s (hdue s), ht] at ht'
    cases ht'
    exact absurd hrunning hdone
  · rw [h.jobKept hjob] at hdone
    exact absurd hrunning hdone

end Swept

/-- Wherever the run of a fresh cross-scale job crashes, and whatever sweeps came
before, a sweep agrees with phases 5 and 6 exactly where every window of what it
finalizes has been started. -/
theorem recoveryAgrees_iff {db₀ : JobRows} {es : List Sweep}
    (hcross : cfg.crossScaleEnabled = true) (hfresh : FreshJob db₀)
    (hrun : CrashRun cfg env db₀ es db) (hs : SweepStep db e db') :
    RecoveryAgrees cfg env db db' ↔ WindowsStarted cfg env e db := by
  have hswept := Swept.of_step hs
  rcases left_of_crashRun hcross hfresh hrun with hquiet | hhalted
  · exact iff_of_true (hswept.of_quiet hquiet).1 (hswept.of_quiet hquiet).2
  · exact ⟨hswept.windowsStarted, hswept.agrees hhalted⟩

end Swept

/-! ## A window that nobody started -/

/-- Two windows, one after the other. -/
def twoWindows : WorkerEnv := { WorkerEnv.smooth with durationMs := 60000 }

/-- The worker crashes when its first unit was just set running. -/
def crashedAtUnit (env : WorkerEnv) : JobRows :=
  ((Act.states (processClaimedTask (.basic true) env) .queuedJob)[9]?).getD .queuedJob

theorem crashRun_crashedAtUnit (env : WorkerEnv) :
    CrashRun (.basic true) env .queuedJob [] (crashedAtUnit env) := by
  refine .start ?_
  unfold crashedAtUnit
  cases hstate : (Act.states (processClaimedTask (.basic true) env) .queuedJob)[9]? with
  | none => exact List.mem_cons_self
  | some db => exact List.mem_of_getElem? hstate

/-- A sweep half an hour later. -/
def lateSweep : Sweep := ⟨DateTime.utc 1800000000, DateTime.utc 900000000, 100, []⟩

/-- The only unit of the plan was running; it fails, as it would have in phase 5. -/
theorem recoveryAgrees_iff_one_window : ∃ db', SweepStep (crashedAtUnit .smooth) lateSweep db' ∧
    Due lateSweep (crashedAtUnit .smooth) .defaultSegment ∧
      RecoveryAgrees (.basic true) .smooth (crashedAtUnit .smooth) db' := by
  obtain ⟨db', hs, -⟩ := exists_swept lateSweep (crashedAtUnit .smooth)
  have hstarted : ∀ s, Started (.basic true) .smooth (crashedAtUnit .smooth) s := by
    intro s
    show ∀ u ∈ plannedUnits (.basic true) .smooth s (crashedAtUnit .smooth).view,
      (unitRow (crashedAtUnit .smooth).units u.key).isSome = true
    cases s <;> decide +kernel
  refine ⟨db', hs, ⟨?_, by decide +kernel, by decide +kernel⟩, ?_⟩
  · exact Option.map_eq_some_iff.mp (by decide +kernel : ((crashedAtUnit .smooth).tasks
      .defaultSegment).map ScaleTaskRow.status = some .running)
  · exact (recoveryAgrees_iff rfl freshJob_queuedJob (crashRun_crashedAtUnit _) hs).mpr
      ⟨fun s _ => hstarted s, fun _ s _ _ _ => hstarted s⟩

/-- The second window has no row yet, and the sweep finalizes the scale without it. -/
theorem sweep_overlooks_a_window : ¬ ∀ (cfg : WorkerConfig) (env : WorkerEnv) (db₀ : JobRows)
    (es : List Sweep) (e : Sweep) (db db' : JobRows), cfg.crossScaleEnabled = true →
      FreshJob db₀ → CrashRun cfg env db₀ es db → SweepStep db e db' →
        RecoveryAgrees cfg env db db' := by
  intro h
  obtain ⟨db', hs, hswept⟩ := exists_swept lateSweep (crashedAtUnit twoWindows)
  have hagrees := h (.basic true) twoWindows .queuedJob [] lateSweep _ db' rfl
    freshJob_queuedJob (crashRun_crashedAtUnit _) hs
  have hdue : Due lateSweep (crashedAtUnit twoWindows) .defaultSegment := by
    refine ⟨?_, by decide +kernel, by decide +kernel⟩
    exact Option.map_eq_some_iff.mp (by decide +kernel : ((crashedAtUnit twoWindows).tasks
      .defaultSegment).map ScaleTaskRow.status = some .running)
  have hmissing : ¬ ∀ u ∈ plannedUnits (.basic true) twoWindows .defaultSegment
      (crashedAtUnit twoWindows).view,
      (unitRow (crashedAtUnit twoWindows).units u.key).isSome = true := by
    decide +kernel
  exact hmissing ((hswept.windowsStarted hagrees).scales _ hdue)

end CctvMemory.Recovery
