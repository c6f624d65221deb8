import CctvMemory.Fleet.Recovery

/-!
# Crash and redelivery

The rows that crashes and sweeps can leave of a job, and the run of the worker
that claims its task again.

* `redelivery_settles_iff`: the rows from which that run settles.
* `finished_motion_escapes`: a crash behind `motion_scan` leaves others.
-/

namespace CctvMemory.Redelivery

open Iso (DateTime)
open Recovery
open Worker

variable {cfg : WorkerConfig} {env : WorkerEnv} {db db' db₀ : JobRows}

/-- The rows of a job that workers which may crash at any step, and orphan
sweeps, leave: any number of them, and the queue task claimed again. -/
inductive Left (db₀ : JobRows) : JobRows → Prop where
  | queued : Left db₀ db₀
  | crash {cfg : WorkerConfig} {env : WorkerEnv} {db db' : JobRows} : Left db₀ db →
      db' ∈ Act.states (processClaimedTask cfg env) db → Left db₀ db'
  | sweep {now cutoff : DateTime} {limit : ℕ} {others : List UnitRow} {db db' : JobRows} :
      Left db₀ db → recoverOrphans now cutoff limit others db = .ok db' → Left db₀ db'
  | claim {db : JobRows} (queueTask : QueueTaskRow) : Left db₀ db → Left db₀ { db with queueTask }

theorem tasks_reconcileJob (h : reconcileJob db = .ok db') : db'.tasks = db.tasks := by
  have htransition : ∀ {target : JobStatus} {ec : Option ErrorCode} {em : Option String},
      db.transitionJob target ec em = .ok db' → db'.tasks = db.tasks := by
    intro target ec em h
    unfold JobState.transitionJob at h
    split at h
    · cases h
      rfl
    · split at h
      · cases h
        rfl
      · cases h
  unfold reconcileJob at h
  split at h
  · cases h
    rfl
  · dsimp only at h
    split at h
    · cases h
      rfl
    · split at h
      · exact htransition h
      · exact htransition h

/-- A sweep adds or drops no scale task. -/
theorem isSome_tasks_recoverOrphans {now cutoff : DateTime} {limit : ℕ} {others : List UnitRow}
    (h : recoverOrphans now cutoff limit others db = .ok db') (s : AnalysisScale) :
    (db'.tasks s).isSome = (db.tasks s).isSome := by
  obtain ⟨db₁, hfold, h⟩ := Act.ok_of_bind h
  obtain ⟨tasks, heq, htasks⟩ := foldlM_reconcileScaleTask (List.nodup_dedup _)
    (failStale now ((staleUnits cutoff limit others db).map UnitEntry.key) db)
  have hfold₁ : db₁.tasks = tasks := by
    cases heq.symm.trans hfold
    rfl
  have hlast : db'.tasks = db₁.tasks := by
    split at h
    · cases h
      rfl
    · exact tasks_reconcileJob h
  rw [hlast, hfold₁, htasks s]
  split
  · rename_i hfin
    have hrunning := (Bool.and_eq_true_iff.mp hfin.2).1
    obtain ⟨t, ht, -⟩ := (Option.any_eq_true _ _).mp hrunning
    have hsome : db.tasks s = some t := ht
    rw [hsome]
    rfl
  · rfl

theorem Left.isSome_tasks (h : Left db₀ db) (s : AnalysisScale) :
    (db.tasks s).isSome = (db₀.tasks s).isSome := by
  induction h with
  | queued => rfl
  | crash _ hdb ih => exact (isSome_tasks_of_states hdb s).trans ih
  | sweep _ hsweep ih => exact (isSome_tasks_recoverOrphans hsweep s).trans ih
  | claim _ _ ih => exact ih

/-- A redelivered task settles exactly when its job may be set running again
and the scale tasks on its path may be processed again. -/
theorem redelivery_settles_iff (hfresh : FreshJob db₀) (hleft : Left db₀ db)
    (hsteady : Steady cfg env) :
    Settled (Act.exec (processClaimedTask cfg env) db).1
        (Act.exec (processClaimedTask cfg env) db).2 ↔
      legalJob db.job.jobStatus .running = true ∧ Resumes cfg env db.view.started :=
  settled_iff hsteady ((hleft.isSome_tasks _).trans hfresh.required)

/-- A job whose worker crashed before its first write. -/
theorem redelivery_settles_queued :
    Settled (Act.exec (processClaimedTask (.basic true) .smooth) .queuedJob).1
      (Act.exec (processClaimedTask (.basic true) .smooth) .queuedJob).2 := by
  refine (redelivery_settles_iff freshJob_queuedJob .queued (steady_smooth true)).mpr ⟨rfl, ?_⟩
  have hfresh := freshJob_queuedJob.freshView
  refine ⟨hfresh.startable _, fun t ht _ => ?_, hfresh.skippable _, fun _ t ht _ => ?_⟩
  · cases ht
    rfl
  · cases ht
    rfl

/-- Whether the run of the task from these rows ends in an illegal transition. -/
def escapesFrom (cfg : WorkerConfig) (env : WorkerEnv) (db : JobRows) : Bool :=
  match (Act.exec (processClaimedTask cfg env) db).1 with
  | .error e => decide (e.cls = .invalidStateTransition)
  | .ok _ => false

/-- `motion_scan` is over and the default scale has not started. -/
def behindMotion (db : JobRows) : Bool :=
  (db.tasks .motionScan).any (fun t => decide (t.status = .succeeded)) &&
    (db.tasks .defaultSegment).any fun t => decide (t.status = .pending)

/-- The worker crashes behind the commit of a finished `motion_scan`. -/
theorem finished_motion_escapes :
    ¬ ∀ (cfg : WorkerConfig) (env : WorkerEnv) (db₀ db : JobRows), FreshJob db₀ → Left db₀ db →
      Steady cfg env → Settled (Act.exec (processClaimedTask cfg env) db).1
        (Act.exec (processClaimedTask cfg env) db).2 := by
  intro h
  have hcrash : (Act.states (processClaimedTask (.basic true) .smooth) .queuedJob).any
      (fun db => behindMotion db && escapesFrom (.basic true) .smooth db) = true := by
    decide +kernel
  obtain ⟨db, hdb, hbehind⟩ := List.any_eq_true.mp hcrash
  have hescapes := (Bool.and_eq_true_iff.mp hbehind).2
  have hsettled := h (.basic true) .smooth .queuedJob db freshJob_queuedJob
    (.crash .queued hdb) (steady_smooth true)
  unfold escapesFrom at hescapes
  split at hescapes
  · rename_i e he
    exact hsettled.legal e he (of_decide_eq_true hescapes)
  · cases hescapes

end CctvMemory.Redelivery
