import CctvMemory.Fleet.Orphans
import CctvMemory.Worker.Keys
import CctvMemory.Worker.Resume
import Mathlib.Data.List.Dedup

/-!
# The sweep of a job

`recover_orphans` in one transaction: stale units are failed, then the scale
tasks of these units, and then their jobs, are finalized from the rows. Here it
acts on the rows of one job; the units of other jobs only count for its limit.
-/

namespace CctvMemory.Recovery

open Iso (DateTime)
open Orphans (isStale listStaleRunning orphanFailed)
open Worker

variable {cfg : WorkerConfig} {env : WorkerEnv} {db db' db₀ : JobRows} {scale : AnalysisScale}

/-! ## The sweep -/

/-- The units of the job that `list_stale_running` selects. -/
def staleUnits (cutoff : DateTime) (limit : ℕ) (others : List UnitRow) (db : JobRows) :
    List UnitEntry :=
  (listStaleRunning (Sum.elim UnitEntry.row id) cutoff limit
    (db.units.rows.map Sum.inl ++ others.map Sum.inr)).filterMap Sum.getLeft?

/-- `mark_failed` on each of them. -/
def failStale (now : DateTime) (stale : List UnitKey) (db : JobRows) : JobRows :=
  { db with
    units := db.units.mapRows
      (fun u => if u.key ∈ stale then ⟨u.key, orphanFailed now u.row⟩ else u) fun u => by
        split <;> rfl }

/-- `list_by_scale_task`. -/
def listByScaleTask (scale : AnalysisScale) (db : JobRows) : List UnitRow :=
  (db.units.rows.filter fun u => decide (u.key.scaleTask = some scale)).map UnitEntry.row

/-- `_reconcile_scale_task`. -/
def reconcileScaleTask (scale : AnalysisScale) (db : JobRows) : Except Exn JobRows :=
  match db.tasks scale with
  | none => .ok db
  | some task =>
      if task.status ≠ .running then .ok db
      else
        let units := listByScaleTask scale db
        if units.any (fun u => decide (u.status = .running ∨ u.status = .pending)) = true then .ok db
        else db.finalizeScaleTask scale (.ofRows units)

/-- `_reconcile_job`. -/
def reconcileJob (db : JobRows) : Except Exn JobRows :=
  if db.job.jobStatus ≠ .running then .ok db
  else
    let scaleTasks := db.scaleTasks.filterMap db.tasks
    if scaleTasks.any (fun st => decide (st.status = .running ∨ st.status = .pending)) = true then
      .ok db
    else if (db.tasks .defaultSegment).any (fun default =>
        decide (0 < default.totalUnits ∧ default.succeededUnits = 0)) = true then
      db.transitionJob .failed (some .analysisUnitFailed)
        (some "default_segment produced no records (orphan recovery)")
    else
      let anyFailed := scaleTasks.any fun st =>
        decide (st.status = .failed ∨ st.status = .partialFailed)
      db.transitionJob (if anyFailed = true then .partialFailed else .succeeded) none none

/-- `recover_orphans`: one scale task, and one job, for each of the stale units. -/
def recoverOrphans (now cutoff : DateTime) (limit : ℕ) (others : List UnitRow) (db : JobRows) :
    Except Exn JobRows := do
  let stale := (staleUnits cutoff limit others db).map UnitEntry.key
  let db ← (stale.filterMap UnitKey.scaleTask).dedup.foldlM
    (fun db scale => reconcileScaleTask scale db) (failStale now stale db)
  if stale = [] then .ok db else reconcileJob db

theorem mem_staleUnits {cutoff : DateTime} {limit : ℕ} {others : List UnitRow} {u : UnitEntry}
    (h : u ∈ staleUnits cutoff limit others db) :
    u ∈ db.units.rows ∧ isStale cutoff u.row = true := by
  obtain ⟨v, hv, hleft⟩ := List.mem_filterMap.mp h
  obtain ⟨hmem, hstale⟩ := Orphans.isStale_of_mem hv
  cases v with
  | inr r => cases hleft
  | inl v =>
      cases hleft
      rcases List.mem_append.mp hmem with hmem | hmem
      · obtain ⟨w, hw, heq⟩ := List.mem_map.mp hmem
        cases heq
        exact ⟨hw, hstale⟩
      · obtain ⟨w, -, heq⟩ := List.mem_map.mp hmem
        cases heq

/-! ## What it does to the scale tasks -/

/-- The scale task is running, and every row of its units is settled. -/
def finalizable (scale : AnalysisScale) (db : JobRows) : Bool :=
  (db.tasks scale).any (fun t => decide (t.status = .running)) &&
    (listByScaleTask scale db).all fun u => u.status.isTerminal

/-- The rows after the reconciliation of a scale task. -/
def reconciledScale (db : JobRows) (scale : AnalysisScale) : JobRows :=
  if finalizable scale db = true then
    db.setTask scale (ScaleProcessResult.ofRows (listByScaleTask scale db)).finishedRow
  else db

theorem any_open {rows : List UnitRow} :
    rows.any (fun u => decide (u.status = .running ∨ u.status = .pending))
      = !rows.all fun u => u.status.isTerminal := by
  rw [List.all_eq_not_any_not, Bool.not_not]
  refine congrArg (List.any rows) (funext fun u => ?_)
  cases u.status <;> rfl

theorem reconcileScaleTask_eq (scale : AnalysisScale) (db : JobRows) :
    reconcileScaleTask scale db = .ok (reconciledScale db scale) := by
  unfold reconcileScaleTask reconciledScale finalizable
  cases ht : db.tasks scale with
  | none => rfl
  | some t =>
      dsimp only
      rw [Option.any_some, any_open]
      by_cases hrun : t.status = .running
      · rw [if_neg (not_not.mpr hrun), decide_eq_true hrun, Bool.true_and]
        cases (listByScaleTask scale db).all fun u => u.status.isTerminal with
        | false => rfl
        | true => exact JobState.finalizeScaleTask_of_running ht hrun
      · rw [if_pos hrun, decide_eq_false hrun, Bool.false_and]
        rfl

theorem finalizable_congr {tasks : AnalysisScale → Option ScaleTaskRow}
    (h : tasks scale = db.tasks scale) :
    finalizable scale { db with tasks } = finalizable scale db := by
  unfold finalizable
  dsimp only
  rw [h]
  rfl

/-- The scale tasks of `scales` reconciled, each on its own rows. -/
theorem foldlM_reconcileScaleTask {scales : List AnalysisScale} (hnd : scales.Nodup) (db : JobRows) :
    ∃ tasks, scales.foldlM (fun db scale => reconcileScaleTask scale db) db
        = .ok { db with tasks } ∧
      ∀ s, tasks s = if s ∈ scales ∧ finalizable s db = true then
        some (ScaleProcessResult.ofRows (listByScaleTask s db)).finishedRow else db.tasks s := by
  induction scales generalizing db with
  | nil => exact ⟨db.tasks, rfl, fun s => by simp⟩
  | cons scale rest ih =>
      obtain ⟨hnot, hnd⟩ := List.nodup_cons.mp hnd
      obtain ⟨tasks₁, hrec, htasks₁⟩ : ∃ tasks₁, reconciledScale db scale = { db with tasks := tasks₁ } ∧
          ∀ s, tasks₁ s = if s = scale ∧ finalizable s db = true then
            some (ScaleProcessResult.ofRows (listByScaleTask s db)).finishedRow else db.tasks s := by
        unfold reconciledScale
        cases hfin : finalizable scale db with
        | false =>
            refine ⟨db.tasks, rfl, fun s => (if_neg ?_).symm⟩
            rintro ⟨rfl, htrue⟩
            rw [hfin] at htrue
            cases htrue
        | true =>
            refine ⟨_, rfl, fun s => ?_⟩
            rw [Function.update_apply]
            by_cases hs : s = scale
            · subst hs
              rw [if_pos rfl, if_pos ⟨rfl, hfin⟩]
            · rw [if_neg hs, if_neg fun h => hs h.1]
      obtain ⟨tasks, hfold, htasks⟩ := ih hnd { db with tasks := tasks₁ }
      refine ⟨tasks, ?_, fun s => ?_⟩
      · rw [List.foldlM_cons, reconcileScaleTask_eq, hrec]
        exact hfold
      · rw [htasks s]
        dsimp only
        by_cases hs : s = scale
        · subst hs
          rw [if_neg fun h => hnot h.1, htasks₁ s]
          simp
        · have hsame : tasks₁ s = db.tasks s := (htasks₁ s).trans (if_neg fun h => hs h.1)
          rw [finalizable_congr hsame, hsame]
          simp only [List.mem_cons, hs, false_or]
          rfl

end CctvMemory.Recovery
