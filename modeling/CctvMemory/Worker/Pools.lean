import CctvMemory.Worker.Eval

/-!
# Running the units of a job

Every unit writes its own row only, so a pool of units with distinct keys ends
as if each had run alone, under any schedule, and leaves the rest of the job
untouched; so does the serial loop, as long as no unit lets an exception
escape.
-/

namespace CctvMemory.Worker

open Act (Prog)

variable (env : WorkerEnv)

/-- How unit `u` ends when run on the rows of `c`. -/
def unitEnd (c : JobView) (u : PlannedUnit) : Except Exn UnitOutcome × Option UnitRow :=
  Act.exec (unitAct env u) (c.units u.key)

/-- The tally counts an escape as a failure. -/
def unitTally (c : JobView) (u : PlannedUnit) : UnitOutcome := safeRun (unitEnd env c u).1

/-- The rows after every unit of `us` has run. -/
def JobState.runUnits (c : JobView) (us : List PlannedUnit) : JobView :=
  { c with units := fun k => match us.find? fun u => decide (u.key = k) with
    | some u => (unitEnd env c u).2
    | none => c.units k }

variable {env} {c : JobView} {us : List PlannedUnit}

theorem units_runUnits_of_mem (hnd : (us.map PlannedUnit.key).Nodup) {u : PlannedUnit}
    (hu : u ∈ us) : (c.runUnits env us).units u.key = (unitEnd env c u).2 := by
  have hfind : us.find? (fun v => decide (v.key = u.key)) = some u := by
    cases hf : us.find? (fun v => decide (v.key = u.key)) with
    | none => simpa using List.find?_eq_none.mp hf u hu
    | some v =>
        have hkey : v.key = u.key := by simpa using List.find?_some hf
        rw [List.inj_on_of_nodup_map hnd (List.mem_of_find?_eq_some hf) hu hkey]
  show (match us.find? (fun v => decide (v.key = u.key)) with
    | some u => (unitEnd env c u).2
    | none => c.units u.key) = _
  rw [hfind]

theorem units_runUnits_of_not_mem {k : UnitKey} (hk : k ∉ us.map PlannedUnit.key) :
    (c.runUnits env us).units k = c.units k := by
  have hfind : us.find? (fun v => decide (v.key = k)) = none := by
    refine List.find?_eq_none.mpr fun v hv => ?_
    simpa using fun hkey => hk (List.mem_map.mpr ⟨v, hv, hkey⟩)
  show (match us.find? (fun v => decide (v.key = k)) with
    | some u => (unitEnd env c u).2
    | none => c.units k) = _
  rw [hfind]

/-! ## Pools -/

/-- What units do not touch. -/
def JobState.frame {U : Type} (db : JobState U) :=
  (db.job, db.tasks, db.triggers, db.queueTask, db.video)

theorem JobState.ext_frame {U : Type} {db db' : JobState U} (hframe : db.frame = db'.frame)
    (hunits : db.units = db'.units) : db = db' := by
  cases db
  cases db'
  simp only [frame, Prod.mk.injEq] at hframe
  obtain ⟨rfl, rfl, rfl, rfl, rfl⟩ := hframe
  cases hunits
  rfl

theorem always_unitProg (u : PlannedUnit) (fr) :
    (unitProg env u).Always fun db => db.frame = fr := by
  refine unitParts.always_zoom ?_ ?_ _
  · exact fun v db h => h
  · exact fun o db h => h

theorem frame_pool (sched : List ℕ) (us : List PlannedUnit) (db : JobRows) :
    ((Act.pool sched (us.map (unitProg env))).run db).2.frame = db.frame := by
  refine Prog.run_frame JobState.frame (fun fr => Act.always_pool sched fun p hp => ?_) db
  obtain ⟨u, -, rfl⟩ := List.mem_map.mp hp
  exact always_unitProg u fr

/-- Whatever its schedule, a pool ends as if each unit had run alone. -/
theorem evals_pool (hnd : (us.map PlannedUnit.key).Nodup) (sched : List ℕ) (c : JobView) :
    Evals (ExceptT.lift (Act.pool sched (us.map (unitProg env)))) c
      (.ok (us.map fun u => (unitEnd env c u).1)) (c.runUnits env us) := by
  intro db hdb
  subst hdb
  let threads : List (Act.Thread UnitKey (Option UnitRow) Effect (Except Exn UnitOutcome)) :=
    us.map fun u => (u.key, ExceptT.run (unitAct env u))
  have hprogs : us.map (unitProg env)
      = threads.map fun t => (unitParts.zoom t.1 t.2 : Prog JobRows Unit _) := by
    rw [List.map_map]
    rfl
  have hkeys : threads.map Prod.fst = us.map PlannedUnit.key := by
    rw [List.map_map]
    rfl
  have hended := Act.run_pool_zoom (ρ := Unit) unitParts (hkeys ▸ hnd) sched db
  rw [← hprogs] at hended
  obtain ⟨hresults, hparts, hothers⟩ := hended
  have hframe := @frame_pool env sched us db
  set run := (Act.pool sched (us.map (unitProg env))).run db with hrun
  rw [Act.exec_lift, ← hrun]
  refine ⟨?_, JobState.ext_frame hframe (funext fun k => ?_)⟩
  · rw [hresults, List.map_map]
    rfl
  · show unitRow run.2.units k = _
    by_cases hk : k ∈ us.map PlannedUnit.key
    · obtain ⟨u, hu, rfl⟩ := List.mem_map.mp hk
      rw [units_runUnits_of_mem hnd hu]
      exact hparts _ (List.mem_map.mpr ⟨u, hu, rfl⟩)
    · rw [units_runUnits_of_not_mem hk]
      exact hothers k (hkeys ▸ hk)

theorem evals_dispatchPhase {cfg : WorkerConfig} (hnd : (us.map PlannedUnit.key).Nodup)
    (c : JobView) :
    Evals (dispatchPhase cfg env us) c (.ok (us.map (unitTally env c)))
      (c.runUnits env us) := by
  refine (evals_pool hnd _ c).bind ?_
  have hmap : us.map (unitTally env c)
      = (us.map fun u => (unitEnd env c u).1).map safeRun := by
    rw [List.map_map]
    rfl
  rw [hmap]
  exact Evals.pure _ _

/-! ## The sequential units -/

/-- The unit lets an exception escape. -/
def UnitEscapes (env : WorkerEnv) (c : JobView) (u : PlannedUnit) : Prop :=
  ∃ e, (unitEnd env c u).1 = .error e

theorem tally_of_not_escapes {u : PlannedUnit} (h : ¬ UnitEscapes env c u) :
    (unitEnd env c u).1 = .ok (unitTally env c u) := by
  rw [unitTally]
  cases hend : (unitEnd env c u).1 with
  | ok o => rfl
  | error e => exact absurd ⟨e, hend⟩ h

theorem evals_unit (u : PlannedUnit) (c : JobView) :
    Evals (ExceptT.mk (unitProg env u)) c (unitEnd env c u).1 (c.runUnits env [u]) := by
  intro db hdb
  subst hdb
  obtain ⟨hresult, hpart⟩ := unitParts.run_zoom (ρ := Unit) u.key
    (ExceptT.run (unitAct env u)) db
  refine ⟨hresult, JobState.ext_frame ?_ (funext fun k => ?_)⟩
  · exact Prog.run_frame JobState.frame (fun fr => always_unitProg u fr) db
  · by_cases hk : k = u.key
    · subst hk
      rw [units_runUnits_of_mem (by simp) List.mem_cons_self]
      exact hpart
    · rw [units_runUnits_of_not_mem (by simpa using hk)]
      refine Prog.run_frame (unitParts.get k)
        (fun r => unitParts.always_zoom ?_ ?_ (ExceptT.run (unitAct env u))) db
      · intro v s hs
        rw [unitParts.get_put_of_ne v s (Ne.symm hk), hs]
      · exact fun o s hs => hs

theorem unitEnd_runUnits_of_ne {u v : PlannedUnit} (h : v.key ≠ u.key) :
    unitEnd env (c.runUnits env [u]) v = unitEnd env c v := by
  unfold unitEnd
  rw [units_runUnits_of_not_mem (by simpa using h)]

theorem runUnits_cons {u : PlannedUnit} (hnd : ((u :: us).map PlannedUnit.key).Nodup) :
    (c.runUnits env [u]).runUnits env us = c.runUnits env (u :: us) := by
  have hnd' := hnd
  rw [List.map_cons, List.nodup_cons] at hnd
  have hne : ∀ v ∈ us, v.key ≠ u.key := fun v hv he =>
    hnd.1 (he ▸ List.mem_map_of_mem hv)
  refine JobState.ext_frame rfl (funext fun k => ?_)
  by_cases hk : k ∈ us.map PlannedUnit.key
  · obtain ⟨v, hv, rfl⟩ := List.mem_map.mp hk
    rw [units_runUnits_of_mem hnd.2 hv, unitEnd_runUnits_of_ne (hne v hv),
      units_runUnits_of_mem hnd' (List.mem_cons_of_mem _ hv)]
  · rw [units_runUnits_of_not_mem hk]
    by_cases hku : k = u.key
    · subst hku
      rw [units_runUnits_of_mem (by simp) List.mem_cons_self,
        units_runUnits_of_mem hnd' List.mem_cons_self]
    · rw [units_runUnits_of_not_mem (by simpa using hku),
        units_runUnits_of_not_mem (by simpa [hku] using hk)]

theorem evals_serialUnits (hnd : (us.map PlannedUnit.key).Nodup)
    (h : ∀ u ∈ us, ¬ UnitEscapes env c u) :
    Evals (serialUnits env us) c (.ok (us.map (unitTally env c))) (c.runUnits env us) := by
  induction us generalizing c with
  | nil =>
      have hsame : c.runUnits env [] = c := JobState.ext_frame rfl rfl
      rw [hsame]
      exact Evals.pure _ c
  | cons u us ih =>
      have hnd' := hnd
      rw [List.map_cons, List.nodup_cons] at hnd
      have hne : ∀ v ∈ us, v.key ≠ u.key := fun v hv he =>
        hnd.1 (he ▸ List.mem_map_of_mem hv)
      have hu := @evals_unit env u c
      rw [tally_of_not_escapes (h u List.mem_cons_self)] at hu
      have hus := ih (c := c.runUnits env [u]) hnd.2 fun v hv => by
        rw [UnitEscapes, unitEnd_runUnits_of_ne (hne v hv)]
        exact h v (List.mem_cons_of_mem _ hv)
      rw [runUnits_cons hnd'] at hus
      have htallies : us.map (unitTally env (c.runUnits env [u])) = us.map (unitTally env c) := by
        refine List.map_congr_left fun v hv => ?_
        rw [unitTally, unitEnd_runUnits_of_ne (hne v hv)]
        rfl
      rw [htallies] at hus
      exact hu.bind (hus.bind (Evals.pure _ _))

/-- The serial loop ends at the first escape. -/
theorem evals_serialUnits_escape (hnd : (us.map PlannedUnit.key).Nodup)
    (h : ∃ u ∈ us, UnitEscapes env c u) :
    ∃ e units', Evals (serialUnits env us) c (.error e) { c with units := units' } := by
  induction us generalizing c with
  | nil =>
      obtain ⟨u, hu, -⟩ := h
      cases hu
  | cons u us ih =>
      rw [List.map_cons, List.nodup_cons] at hnd
      have hne : ∀ v ∈ us, v.key ≠ u.key := fun v hv he =>
        hnd.1 (he ▸ List.mem_map_of_mem hv)
      have hu := @evals_unit env u c
      by_cases hesc : UnitEscapes env c u
      · obtain ⟨e, he⟩ := hesc
        rw [he] at hu
        exact ⟨e, (c.runUnits env [u]).units, hu.bind_error⟩
      · rw [tally_of_not_escapes hesc] at hu
        have hrest : ∃ v ∈ us, UnitEscapes env (c.runUnits env [u]) v := by
          obtain ⟨v, hv, hve⟩ := h
          rcases List.mem_cons.mp hv with rfl | hv
          · exact absurd hve hesc
          · refine ⟨v, hv, ?_⟩
            rw [UnitEscapes, unitEnd_runUnits_of_ne (hne v hv)]
            exact hve
        obtain ⟨e, units', heval⟩ := ih hnd.2 hrest
        exact ⟨e, units', hu.bind heval.bind_error⟩

theorem escapes_eq_nil_iff {results : List (Except Exn UnitOutcome)} :
    escapes results = [] ↔ ∀ r ∈ results, ∃ o, r = .ok o := by
  unfold escapes
  rw [List.filterMap_eq_nil_iff]
  refine forall₂_congr fun r _ => ?_
  cases r <;> simp

variable {cfg : WorkerConfig} {scale : AnalysisScale}

/-- Without an escape, `process` returns the tally of its units. -/
theorem evals_processUnits (hnd : (us.map PlannedUnit.key).Nodup)
    (h : ∀ u ∈ us, ¬ UnitEscapes env c u) :
    Evals (processUnits cfg env scale us) c (.ok (.tally (us.map (unitTally env c))))
      (c.runUnits env us) := by
  unfold processUnits
  split
  · refine (evals_pool hnd _ c).bind ?_
    have hnil : escapes (us.map fun u => (unitEnd env c u).1) = [] := by
      rw [escapes_eq_nil_iff]
      intro r hr
      obtain ⟨u, hu, rfl⟩ := List.mem_map.mp hr
      exact ⟨_, tally_of_not_escapes (h u hu)⟩
    have hmap : us.map (unitTally env c)
        = (us.map fun u => (unitEnd env c u).1).map safeRun := by
      rw [List.map_map]
      rfl
    rw [hnil, hmap]
    exact Evals.pure _ _
  · exact (evals_serialUnits hnd h).bind (Evals.pure _ _)

/-- An escape leaves `process`, whichever way the units run. -/
theorem evals_processUnits_escape (cfg : WorkerConfig) (scale : AnalysisScale)
    (hnd : (us.map PlannedUnit.key).Nodup)
    (h : ∃ u ∈ us, UnitEscapes env c u) :
    ∃ e units', Evals (processUnits cfg env scale us) c (.error e)
      { c with units := units' } := by
  unfold processUnits
  split
  · have hne : escapes (us.map fun u => (unitEnd env c u).1) ≠ [] := by
      rw [Ne, escapes_eq_nil_iff]
      intro hall
      obtain ⟨u, hu, e, he⟩ := h
      obtain ⟨o, ho⟩ := hall _ (List.mem_map_of_mem hu)
      rw [he] at ho
      cases ho
    obtain ⟨e, es, hes⟩ := List.exists_cons_of_ne_nil hne
    refine ⟨(e :: es).getD (env.firstCompleted (.sequential scale)) e,
      (c.runUnits env us).units, (evals_pool hnd _ c).bind ?_⟩
    rw [hes]
    exact Evals.throw _ _
  · obtain ⟨e, units', heval⟩ := evals_serialUnits_escape hnd h
    exact ⟨e, units', heval.bind_error⟩

end CctvMemory.Worker
