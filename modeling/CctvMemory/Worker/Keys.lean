import CctvMemory.Worker.Paths

/-!
# The keys of the units of a job

A unit is found through its scale task: reconciliation, the sweep and the
diagnostics list the units of the job's scale tasks. `_run_high_freq_event`
builds its processor without a scale task id, so that its units are of no
scale task, and a window gets another key than on the cross-scale path.

* `unitsFound_crossScale`: every unit created on the cross-scale path is found.
* `unitsFound_iff`: when both paths agree and every unit is found.
-/

namespace CctvMemory.Worker

open Act (Always Keeps Triple)

/-! ## Finding a unit -/

/-- `list_by_scale_task` over the scale tasks of the job. -/
def JobState.listedUnits (db : JobRows) : List UnitEntry :=
  db.units.rows.filter fun u => (u.key.scaleTask.bind db.tasks).isSome

/-- The key names an existing scale task, that of its own scale. -/
def UnitKey.Rooted (db : JobRows) (k : UnitKey) : Prop :=
  k.scaleTask = some k.analysisScale ∧ (db.tasks k.analysisScale).isSome = true

/-- The units that processing created from `db₀` on are found in `db`. -/
structure UnitsFound (db₀ db : JobRows) : Prop where
  rooted : ∀ u ∈ db.units.rows, unitRow db₀.units u.key = none → u.key.Rooted db
  listed : ∀ u ∈ db.units.rows, unitRow db₀.units u.key = none → u ∈ db.listedUnits

/-- The units a path plans for a scale. -/
def pathPlan (cfg : WorkerConfig) (env : WorkerEnv) (crossScale : Bool) (scale : AnalysisScale)
    (db : JobRows) : Except Exn (List PlannedUnit) :=
  match scale with
  | .highFreqEvent =>
      highFreqPlan cfg (if crossScale = true then some .highFreqEvent else none) db
  | _ => (planDefaultSegments env.durationMs cfg.windowSeconds cfg.overlapSeconds).map
      planDefaultUnits

/-- A window gets the same key on both paths. -/
def KeysAgree (cfg : WorkerConfig) (env : WorkerEnv) (db : JobRows) : Prop :=
  ∀ scale ∈ unitScales, (pathPlan cfg env true scale db).map (List.map PlannedUnit.key)
    = (pathPlan cfg env false scale db).map (List.map PlannedUnit.key)

/-- No trigger of the video has a window. -/
def NoHighFreqWindow (cfg : WorkerConfig) (db : JobRows) : Prop :=
  ∀ us, highFreqPlan cfg none db = .ok us → us = []

theorem scaleTask_of_highFreqPlan {U : Type} {cfg : WorkerConfig}
    {scaleTask : Option AnalysisScale} {db : JobState U} {us : List PlannedUnit}
    (h : highFreqPlan cfg scaleTask db = .ok us) :
    ∀ u ∈ us, u.key.scaleTask = scaleTask ∧ u.key.analysisScale = .highFreqEvent :=
  keys_planHighFreqUnits h

theorem keysAgree_iff {cfg : WorkerConfig} {env : WorkerEnv} {db : JobRows} :
    KeysAgree cfg env db ↔ NoHighFreqWindow cfg db := by
  constructor
  · intro h us hus
    have hkeys := h .highFreqEvent (by decide)
    have hcross : pathPlan cfg env true .highFreqEvent db
        = .ok (us.map (PlannedUnit.inTask (some .highFreqEvent))) := by
      show highFreqPlan cfg (some .highFreqEvent) db = _
      rw [highFreqPlan_inTask, hus]
      rfl
    have hsequential : pathPlan cfg env false .highFreqEvent db = .ok us := hus
    rw [hcross, hsequential] at hkeys
    cases us with
    | nil => rfl
    | cons u us =>
        have hhead := (List.cons.inj (Except.ok.inj hkeys)).1
        have hnone := (scaleTask_of_highFreqPlan hus u List.mem_cons_self).1
        have hsome : u.key.scaleTask = some .highFreqEvent := (congrArg UnitKey.scaleTask hhead).symm
        cases hnone.symm.trans hsome
  · intro h scale hscale
    rcases List.mem_cons.mp hscale with rfl | hscale
    · rfl
    · cases List.mem_singleton.mp hscale
      show (highFreqPlan cfg (some .highFreqEvent) db).map _ = (highFreqPlan cfg none db).map _
      rw [highFreqPlan_inTask]
      cases hplan : highFreqPlan cfg none db with
      | error e => rfl
      | ok us =>
          cases h us hplan
          rfl

/-! ## What processing creates -/

/-- The rows after some processing of `db₀`: its scale tasks are still there,
and every unit that was created has a key in `A`. With `fixed`, the triggers
and the duration are still those of a plan. -/
structure Grown (db₀ : JobRows) (A : UnitKey → Prop)
    (fixed : Option (List TriggerRow × String × Option ℤ)) (db : JobRows) : Prop where
  tasks : ∀ s, (db.tasks s).isSome = (db₀.tasks s).isSome
  units : ∀ k, (unitRow db.units k).isSome = true → unitRow db₀.units k = none → A k
  plan : ∀ p ∈ fixed, db.planInput = p

/-- A write that adds or drops no scale task and no unit. -/
structure SameShape (db db' : JobRows) : Prop where
  tasks : ∀ s, (db'.tasks s).isSome = (db.tasks s).isSome
  units : ∀ k, (unitRow db'.units k).isSome = (unitRow db.units k).isSome

/-- A write that leaves the shape and what planning reads as they are. -/
def Neutral (db db' : JobRows) : Prop := SameShape db db' ∧ db'.planInput = db.planInput

/-- A write that leaves the units alone, adds or drops no scale task, and changes
nothing that planning reads. -/
structure OffUnits (db db' : JobRows) : Prop where
  tasks : ∀ s, (db'.tasks s).isSome = (db.tasks s).isSome
  units : db'.units = db.units
  planInput : db'.planInput = db.planInput

namespace OffUnits

theorem refl (db : JobRows) : OffUnits db db := ⟨fun _ => rfl, rfl, rfl⟩

theorem trans {db₁ db₂ db₃ : JobRows} (h : OffUnits db₁ db₂) (h' : OffUnits db₂ db₃) :
    OffUnits db₁ db₃ :=
  ⟨fun s => (h'.tasks s).trans (h.tasks s), h'.units.trans h.units,
    h'.planInput.trans h.planInput⟩

theorem neutral {db db' : JobRows} (h : OffUnits db db') : Neutral db db' :=
  ⟨⟨h.tasks, fun k => by rw [h.units]⟩, h.planInput⟩

theorem setTask {db : JobRows} {scale : AnalysisScale} {t₀ : ScaleTaskRow}
    (h : db.tasks scale = some t₀) (t : ScaleTaskRow) : OffUnits db (db.setTask scale t) where
  tasks s := by
    rw [JobState.tasks_setTask, Function.update_apply]
    split
    · rename_i heq
      rw [heq, h]
      rfl
    · rfl
  units := rfl
  planInput := rfl

theorem updateCounters (db : JobRows) (scale : AnalysisScale) (r : ScaleProcessResult) :
    OffUnits db (db.updateCounters scale r) where
  tasks s := by
    show (Function.update db.tasks scale _ s).isSome = _
    rw [Function.update_apply]
    split
    · rename_i heq
      rw [heq, Option.isSome_map]
    · rfl
  units := rfl
  planInput := rfl

end OffUnits

section Writes

variable {db db' : JobRows} {scale : AnalysisScale}

theorem offUnits_transitionScaleTask {target : TaskStatus} {ec : Option ErrorCode}
    {sr : Option SkippedReason} (h : db.transitionScaleTask scale target ec sr = .ok db') :
    OffUnits db db' := by
  unfold JobState.transitionScaleTask at h
  split at h
  · cases h
  · rename_i t ht
    split at h
    · cases h
      exact .refl db
    · split at h
      · cases h
        exact .setTask ht _
      · cases h

theorem offUnits_transitionJob {target : JobStatus} {ec : Option ErrorCode} {em : Option String}
    (h : db.transitionJob target ec em = .ok db') : OffUnits db db' := by
  unfold JobState.transitionJob at h
  split at h
  · cases h
    exact .refl db
  · split at h
    · cases h
      exact ⟨fun _ => rfl, rfl, rfl⟩
    · cases h

theorem offUnits_finalizeScaleTask {r : ScaleProcessResult}
    (h : db.finalizeScaleTask scale r = .ok db') : OffUnits db db' :=
  OffUnits.trans (.updateCounters db scale r) (offUnits_transitionScaleTask h)

theorem offUnits_finalizeScaleTaskIf {r : Option ScaleProcessResult}
    (h : finalizeScaleTaskIf scale r db = .ok db') : OffUnits db db' := by
  cases r with
  | none =>
      cases h
      exact .refl db
  | some r => exact offUnits_finalizeScaleTask h

theorem offUnits_failRunningDefault {e : Exn} (h : failRunningDefault e db = .ok db') :
    OffUnits db db' := by
  unfold failRunningDefault at h
  split at h
  · exact offUnits_transitionScaleTask h
  · cases h
    exact .refl db

theorem offUnits_requiredFailureWrite {e : Exn} {b : Bool}
    (h : requiredFailureWrite e db = .ok (b, db')) : OffUnits db db' := by
  obtain ⟨db₁, htask, h⟩ := Act.ok_of_bind h
  obtain ⟨db₂, hjob, h⟩ := Act.ok_of_bind h
  cases h
  refine (offUnits_failRunningDefault htask).trans ((offUnits_transitionJob hjob).trans ?_)
  exact ⟨fun _ => rfl, rfl, rfl⟩

theorem offUnits_finalizeJobWrite {status : JobStatus} {u : Unit}
    (h : finalizeJobWrite status db = .ok (u, db')) : OffUnits db db' := by
  obtain ⟨db₁, hjob, h⟩ := Act.ok_of_bind h
  cases h
  exact (offUnits_transitionJob hjob).trans ⟨fun _ => rfl, rfl, rfl⟩

theorem offUnits_finalizeScalesWrite {ds hs : Option ScaleProcessResult} {u : Unit}
    (h : finalizeScalesWrite ds hs db = .ok (u, db')) : OffUnits db db' := by
  obtain ⟨db₁, hdefault, h⟩ := Act.ok_of_bind h
  obtain ⟨db₂, hhigh, h⟩ := Act.ok_of_bind h
  cases h
  exact (offUnits_finalizeScaleTaskIf hdefault).trans (offUnits_finalizeScaleTaskIf hhigh)

theorem neutral_reconcileRunningUnits (env : WorkerEnv) (db : JobRows) :
    Neutral db (reconcileRunningUnits env db) := by
  refine ⟨⟨fun _ => rfl, fun k => ?_⟩, rfl⟩
  have hunits : unitRow (reconcileRunningUnits env db).units k
      = (reconcileView env db.view).units k :=
    congrFun (congrArg JobState.units (view_reconcileRunningUnits db)) k
  rw [hunits]
  show (if (k.scaleTask.bind db.tasks).isSome then (unitRow db.units k).map (reconcileUnit env)
    else unitRow db.units k).isSome = _
  split
  · exact Option.isSome_map
  · rfl

end Writes

/-! ## What each program keeps -/

section Programs

variable {cfg : WorkerConfig} {env : WorkerEnv} {scale : AnalysisScale}

section Invariant

variable {I : JobRows → Prop}

theorem keeps_write {α : Type} {w : WorkerWrite} {Q : α → Prop}
    {work : JobRows → Except Exn (α × JobRows)}
    (hwork : ∀ db a db', I db → work db = .ok (a, db') → I db' ∧ Q a) :
    Keeps I (writeSession cfg env w work) Q := by
  refine triple_dbWrite (fun db a db' out hdb h => ?_) fun db e hdb => ⟨hdb, hdb⟩
  cases hrun : work db with
  | error e =>
      rw [hrun] at h
      cases h
  | ok r =>
      rw [hrun] at h
      cases h
      obtain ⟨hdb', hQ⟩ := hwork _ _ _ hdb hrun
      exact ⟨hdb', hdb', hQ⟩

theorem keeps_session {α : Type} {s : WorkerStep} {Q : α → Prop}
    {work : JobRows → Except Exn (α × JobRows)}
    (hwork : ∀ db a db', I db → work db = .ok (a, db') → I db' ∧ Q a) :
    Keeps I (session env s work) Q := by
  refine Keeps.txn fun db a db' out hdb h => ?_
  cases hraise : env.raises s with
  | some e =>
      rw [hraise] at h
      cases h
  | none =>
      rw [hraise] at h
      cases hrun : work db with
      | error e =>
          simp only [hrun] at h
          cases h
      | ok r =>
          simp only [hrun] at h
          cases h
          exact hwork _ _ _ hdb hrun

theorem keeps_workerStep (s : WorkerStep) : Keeps I (workerStep env s) fun _ => True := by
  unfold workerStep
  split
  · exact .pure trivial
  · exact Triple.throw fun _ hs => hs

theorem keeps_workerStepIf (b : Bool) (s : WorkerStep) :
    Keeps I (workerStepIf env b s) fun _ => True := by
  unfold workerStepIf
  split
  · exact keeps_workerStep s
  · exact .pure trivial

theorem keeps_hasTriggers : Keeps I (hasTriggers env) fun _ => True := by
  refine keeps_session fun db b db' hdb h => ?_
  cases h
  exact ⟨hdb, trivial⟩

/-- An invariant that a write outside the units cannot break. -/
class OffUnitsStable (I : JobRows → Prop) : Prop where
  offUnits : ∀ db db', I db → OffUnits db db' → I db'

variable [OffUnitsStable I]

theorem keeps_writeSession {α : Type} {w : WorkerWrite} {Q : α → Prop}
    {work : JobRows → Except Exn (α × JobRows)}
    (hwork : ∀ db a db', I db → work db = .ok (a, db') → OffUnits db db' ∧ Q a) :
    Keeps I (writeSession cfg env w work) Q := by
  refine keeps_write fun db a db' hdb h => ?_
  obtain ⟨hoff, hQ⟩ := hwork db a db' hdb h
  exact ⟨OffUnitsStable.offUnits db db' hdb hoff, hQ⟩

theorem keeps_taskWrite {w : WorkerWrite} {target : TaskStatus} {ec : Option ErrorCode}
    {sr : Option SkippedReason} :
    Keeps I (taskWrite cfg env w scale target ec sr) fun _ => True := by
  refine keeps_writeSession fun db a db' _ h => ⟨?_, trivial⟩
  obtain ⟨db₁, htrans, h⟩ := Act.ok_of_bind h
  cases h
  exact offUnits_transitionScaleTask htrans

theorem keeps_skipScaleTask {reason : SkippedReason} :
    Keeps I (skipScaleTask cfg env scale reason) fun _ => True :=
  keeps_taskWrite.bind fun _ _ => keeps_workerStep _

theorem keeps_failScaleTask {e : Exn} :
    Keeps I (failScaleTask cfg env scale e) fun _ => True :=
  keeps_taskWrite.bind fun _ _ => keeps_workerStep _

theorem keeps_handleRequiredFailure {e : Exn} :
    Keeps I (handleRequiredFailure cfg env e) fun _ => True := by
  refine (keeps_writeSession (Q := fun _ => True) fun db b db' _ h =>
    ⟨offUnits_requiredFailureWrite h, trivial⟩).bind fun _ _ => ?_
  refine (keeps_workerStepIf _ _).bind fun _ _ => ?_
  exact (keeps_workerStep _).bind fun _ _ => keeps_workerStep _

theorem keeps_finalizeJob {anyPartial : Bool} :
    Keeps I (finalizeJob cfg env anyPartial) fun _ => True := by
  refine (keeps_writeSession (Q := fun _ => True) fun db _ db' _ h =>
    ⟨offUnits_finalizeJobWrite h, trivial⟩).bind fun _ _ => ?_
  exact (keeps_workerStep _).bind fun _ _ => keeps_workerStep _

theorem keeps_finalizeScalesPhase {ds hs : Option ScaleProcessResult} :
    Keeps I (finalizeScalesPhase cfg env ds hs) fun _ => True := by
  refine (keeps_writeSession (Q := fun _ => True) fun db _ db' _ h =>
    ⟨offUnits_finalizeScalesWrite h, trivial⟩).bind fun _ _ => ?_
  exact (keeps_workerStepIf _ _).bind fun _ _ => keeps_workerStepIf _ _

theorem keeps_jobOutcomePhase {ds hs : Option ScaleProcessResult} {anyPartial : Bool} :
    Keeps I (jobOutcomePhase cfg env ds hs anyPartial) fun _ => True := by
  unfold jobOutcomePhase
  split
  · exact keeps_handleRequiredFailure
  · exact keeps_finalizeJob

end Invariant

variable {db₀ : JobRows} {A : UnitKey → Prop}
  {fixed : Option (List TriggerRow × String × Option ℤ)}

theorem Grown.neutral {db db' : JobRows} (h : Grown db₀ A fixed db) (hn : Neutral db db') :
    Grown db₀ A fixed db' where
  tasks s := (hn.1.tasks s).trans (h.tasks s)
  units k hk hnew := h.units k ((hn.1.units k) ▸ hk) hnew
  plan p hp := hn.2.trans (h.plan p hp)

instance : OffUnitsStable (Grown db₀ A fixed) := ⟨fun _ _ h hoff => h.neutral hoff.neutral⟩

theorem keeps_reconcile :
    Keeps (Grown db₀ A fixed) (reconcileRunningUnitsForJob cfg env) fun _ => True := by
  refine keeps_write fun db _ db' hdb h => ?_
  cases h
  exact ⟨hdb.neutral (neutral_reconcileRunningUnits env db), trivial⟩

/-! ## Units -/

/-- A unit creates no row but its own. -/
theorem always_grown_unitProg {u : PlannedUnit} (hu : A u.key) :
    (unitProg env u).Always (Grown db₀ A fixed) := by
  refine unitParts.always_zoom (fun row db hdb => ?_) (fun _ _ hdb => hdb) _
  refine ⟨hdb.tasks, fun k hk hnew => ?_, hdb.plan⟩
  by_cases hkey : u.key = k
  · exact hkey ▸ hu
  · have hother : unitRow (unitParts.put u.key row db).units k = unitRow db.units k :=
      unitParts.get_put_of_ne row db hkey
    rw [hother] at hk
    exact hdb.units k hk hnew

/-- The units of a pool keep what each of them keeps. -/
theorem keeps_pool {I : JobRows → Prop} {sched : List ℕ} {us : List PlannedUnit}
    (hus : ∀ u ∈ us, (unitProg env u).Always I) :
    Keeps I (ExceptT.lift (Act.pool sched (us.map (unitProg env))) :
      JobAct (List (Except Exn UnitOutcome))) fun _ => True := by
  refine .of_always (.lift (Act.always_pool sched fun p hp => ?_))
  obtain ⟨u, hu, rfl⟩ := List.mem_map.mp hp
  exact hus u hu

theorem keeps_dispatchPhase {I : JobRows → Prop} {us : List PlannedUnit}
    (hus : ∀ u ∈ us, (unitProg env u).Always I) :
    Keeps I (dispatchPhase cfg env us) fun _ => True :=
  (keeps_pool hus).bind fun _ _ => .pure trivial

theorem keeps_serialUnits {us : List PlannedUnit} (hus : ∀ u ∈ us, A u.key) :
    Keeps (Grown db₀ A fixed) (serialUnits env us) fun _ => True := by
  induction us with
  | nil => exact .pure trivial
  | cons u us ih =>
      have hunit : Keeps (Grown db₀ A fixed) (ExceptT.mk (unitProg env u)) fun _ => True :=
        .of_always (always_grown_unitProg (hus u List.mem_cons_self))
      refine hunit.bind fun _ _ => ?_
      exact (ih fun v hv => hus v (List.mem_cons_of_mem _ hv)).bind fun _ _ => .pure trivial

theorem keeps_processUnits {us : List PlannedUnit} (hus : ∀ u ∈ us, A u.key) :
    Keeps (Grown db₀ A fixed) (processUnits cfg env scale us) fun _ => True := by
  unfold processUnits
  split
  · refine (keeps_pool fun u hu => always_grown_unitProg (hus u hu)).bind fun results _ => ?_
    split
    · exact .pure trivial
    · exact Triple.throw fun _ hs => hs
  · exact (keeps_serialUnits hus).bind fun _ _ => .pure trivial

/-! ## Planning -/

/-- The units of the plan of `scale` have keys in `A`. -/
theorem keeps_planDefault (hA : ∀ w, A ⟨some .defaultSegment, .defaultSegment, w⟩) :
    Keeps (Grown db₀ A none) (planDefault cfg env) fun us => ∀ u ∈ us, A u.key := by
  refine keeps_session fun db us db' hdb h => ?_
  obtain ⟨windows, -, h⟩ := Act.ok_of_bind h
  cases h
  refine ⟨⟨hdb.tasks, hdb.units, fun p hp => by cases hp⟩, fun u hu => ?_⟩
  obtain ⟨htask, hscale⟩ := keys_planDefaultUnits u hu
  have hkey : u.key = ⟨some .defaultSegment, .defaultSegment, u.key.window⟩ := by
    rw [← htask, ← hscale]
  rw [hkey]
  exact hA _

theorem keeps_planHighFreq {scaleTask : Option AnalysisScale}
    (hA : ∀ db us, Grown db₀ A fixed db → highFreqPlan cfg scaleTask db = .ok us →
      ∀ u ∈ us, A u.key) :
    Keeps (Grown db₀ A fixed) (planHighFreq cfg env scaleTask) fun us => ∀ u ∈ us, A u.key := by
  refine keeps_session fun db us db' hdb h => ?_
  obtain ⟨us', hplan, h⟩ := Act.ok_of_bind h
  cases h
  exact ⟨hdb, hA db us hdb hplan⟩

theorem keeps_runMotionScan :
    Keeps (Grown db₀ A none) (runMotionScan env) fun _ => True := by
  refine keeps_session fun db n db' hdb h => ?_
  cases h
  exact ⟨⟨hdb.tasks, hdb.units, fun p hp => by cases hp⟩, trivial⟩

/-! ## One scale -/

theorem keeps_runActiveScale
    (hrun : Keeps (Grown db₀ A fixed) (runScale cfg env scale) fun _ => True) :
    Keeps (Grown db₀ A fixed) (runActiveScale cfg env scale) fun _ => True := by
  refine keeps_taskWrite.bind fun _ _ => ?_
  refine (keeps_workerStep _).bind fun _ _ => ?_
  refine hrun.bind fun result _ => ?_
  refine (keeps_writeSession (Q := fun _ => True) fun db _ db' _ h => ?_).bind fun _ _ => ?_
  · obtain ⟨db₁, hfinal, h⟩ := Act.ok_of_bind h
    cases h
    exact ⟨offUnits_finalizeScaleTask hfinal, trivial⟩
  · exact (keeps_workerStep _).bind fun _ _ => .pure trivial

theorem keeps_inactiveReason :
    Keeps (Grown db₀ A fixed) (inactiveReason env scale) fun reason =>
      scale = .lowFreqSummary → reason ≠ none := by
  cases scale with
  | lowFreqSummary => exact .pure fun _ => Option.some_ne_none _
  | highFreqEvent => exact keeps_hasTriggers.bind fun _ _ => .pure fun h => by cases h
  | defaultSegment => exact .pure fun h => by cases h
  | motionScan => exact .pure fun h => by cases h

theorem keeps_processScaleTask (hrun : scale ≠ .lowFreqSummary →
      Keeps (Grown db₀ A fixed) (runScale cfg env scale) fun _ => True) :
    Keeps (Grown db₀ A fixed) (processScaleTask cfg env scale) fun _ => True := by
  refine keeps_inactiveReason.bind fun reason hreason => ?_
  cases reason with
  | some reason => exact keeps_skipScaleTask.bind fun _ _ => .pure trivial
  | none =>
      refine (keeps_runActiveScale (hrun fun hlow => hreason hlow rfl)).bind fun _ _ => ?_
      exact .pure trivial

theorem keeps_runScale_motion :
    Keeps (Grown db₀ A none) (runScale cfg env .motionScan) fun _ => True :=
  keeps_runMotionScan.bind fun _ _ => .pure trivial

theorem keeps_runScale_default (hA : ∀ w, A ⟨some .defaultSegment, .defaultSegment, w⟩) :
    Keeps (Grown db₀ A none) (runScale cfg env .defaultSegment) fun _ => True := by
  refine (keeps_planDefault hA).bind fun us hus => ?_
  refine (keeps_processUnits hus).bind fun _ _ => ?_
  exact (keeps_workerStep _).bind fun _ _ => .pure trivial

theorem keeps_runScale_highFreq
    (hA : ∀ db us, Grown db₀ A fixed db → highFreqPlan cfg none db = .ok us →
      ∀ u ∈ us, A u.key) :
    Keeps (Grown db₀ A fixed) (runScale cfg env .highFreqEvent) fun _ => True := by
  refine (keeps_planHighFreq hA).bind fun us hus => ?_
  refine (keeps_processUnits hus).bind fun _ _ => ?_
  exact (keeps_workerStep _).bind fun _ _ => .pure trivial

theorem keeps_sequentialLoop {scales : List AnalysisScale} {anyPartial : Bool}
    (h : ∀ scale ∈ scales,
      Keeps (Grown db₀ A fixed) (processScaleTask cfg env scale) fun _ => True) :
    Keeps (Grown db₀ A fixed) (sequentialLoop cfg env scales anyPartial) fun _ => True := by
  induction scales generalizing anyPartial with
  | nil => exact .pure trivial
  | cons scale rest ih =>
      have hrest := fun b => @ih b fun s hs => h s (List.mem_cons_of_mem _ hs)
      refine (h scale List.mem_cons_self).attempt.bind fun r _ => ?_
      cases r with
      | error e =>
          dsimp only
          split
          · exact .pure trivial
          · exact keeps_failScaleTask.bind fun _ _ => hrest true
      | ok r =>
          cases r with
          | none => exact hrest anyPartial
          | some r =>
              dsimp only
              split
              · exact .pure trivial
              · exact hrest _

/-! ## The cross-scale path -/

theorem keeps_motionPhase {scales : List AnalysisScale} :
    Keeps (Grown db₀ A none) (motionPhase cfg env scales) fun _ => True := by
  unfold motionPhase
  split
  · have hmotion : Keeps (Grown db₀ A none) (processScaleTask cfg env .motionScan) fun _ => True :=
      keeps_processScaleTask fun _ => keeps_runScale_motion
    refine hmotion.attempt.bind fun r _ => ?_
    cases r with
    | ok r => exact .pure trivial
    | error e => exact keeps_failScaleTask.bind fun _ _ => .pure trivial
  · exact .pure trivial

theorem keeps_skipScaleTaskIf {b : Bool} {reason : SkippedReason} :
    Keeps (Grown db₀ A fixed) (skipScaleTaskIf cfg env b scale reason) fun _ => True := by
  unfold skipScaleTaskIf
  split
  · exact keeps_skipScaleTask
  · exact .pure trivial

/-- `high_freq_event` is active only where it is a scale of the job. -/
theorem keeps_skipPhase {scales : List AnalysisScale} :
    Keeps (Grown db₀ A fixed) (skipPhase cfg env scales) fun active =>
      active = true → .highFreqEvent ∈ scales := by
  have hactive : Keeps (Grown db₀ A fixed) (highFreqActive env scales) fun active =>
      active = true → .highFreqEvent ∈ scales := by
    unfold highFreqActive
    split
    · rename_i hmem
      exact keeps_hasTriggers.weaken (fun _ hs => hs) (fun _ _ hs => ⟨hs.1, fun _ => hmem⟩)
        fun _ _ hs => hs
    · exact .pure fun h => by cases h
  refine hactive.bind fun active hmem => ?_
  refine keeps_skipScaleTaskIf.bind fun _ _ => ?_
  exact keeps_skipScaleTaskIf.bind fun _ _ => .pure hmem

theorem keeps_planDefaultPhase {scales : List AnalysisScale}
    (hA : .defaultSegment ∈ scales → ∀ w, A ⟨some .defaultSegment, .defaultSegment, w⟩) :
    Keeps (Grown db₀ A none) (planDefaultPhase cfg env scales) fun us => ∀ u ∈ us, A u.key := by
  unfold planDefaultPhase
  split
  · rename_i hmem
    refine keeps_taskWrite.bind fun _ _ => ?_
    exact (keeps_workerStep _).bind fun _ _ => keeps_planDefault (hA hmem)
  · exact .pure fun u hu => by cases hu

theorem keeps_planHighFreqPhase {active : Bool}
    (hA : active = true → ∀ w, A ⟨some .highFreqEvent, .highFreqEvent, w⟩) :
    Keeps (Grown db₀ A fixed) (planHighFreqPhase cfg env active) fun us =>
      ∀ u ∈ us.getD [], A u.key := by
  unfold planHighFreqPhase
  split
  · rename_i hactive
    have hplan : Keeps (Grown db₀ A fixed) (planHighFreq cfg env (some .highFreqEvent))
        fun us => ∀ u ∈ us, A u.key := by
      refine keeps_planHighFreq fun db us _ hus u hu => ?_
      obtain ⟨htask, hscale⟩ := scaleTask_of_highFreqPlan hus u hu
      have hkey : u.key = ⟨some .highFreqEvent, .highFreqEvent, u.key.window⟩ := by
        rw [← htask, ← hscale]
      rw [hkey]
      exact hA hactive _
    refine (Keeps.attempt (Q := fun us => ∀ u ∈ us, A u.key) ?_).bind fun r hr => ?_
    · refine keeps_taskWrite.bind fun _ _ => ?_
      exact (keeps_workerStep _).bind fun _ _ => hplan
    · cases r with
      | ok us => exact .pure (hr us rfl)
      | error e => exact keeps_failScaleTask.bind fun _ _ => .pure fun u hu => by cases hu
  · exact .pure fun u hu => by cases hu

theorem keeps_runPlanned {df hf : Option (List PlannedUnit)} {anyPartial : Bool}
    (hdf : ∀ u ∈ df.getD [], A u.key) (hhf : ∀ u ∈ hf.getD [], A u.key) :
    Keeps (Grown db₀ A fixed) (runPlanned cfg env df hf anyPartial) fun _ => True := by
  have hall : ∀ u ∈ dispatchOrder (max 1 cfg.highFreqQuota) (hf.getD []) (df.getD []),
      A u.key := by
    intro u hu
    rcases List.mem_append.mp ((dispatchOrder_perm _ _ _).mem_iff.mp hu) with hu | hu
    · exact hhf u hu
    · exact hdf u hu
  refine (keeps_dispatchPhase fun u hu => always_grown_unitProg (hall u hu)).bind
    fun outcomes _ => ?_
  refine keeps_reconcile.bind fun _ _ => ?_
  exact keeps_finalizeScalesPhase.bind fun _ _ => keeps_jobOutcomePhase

theorem keeps_processCrossScale {scales : List AnalysisScale}
    (hA : ∀ scale ∈ scales, ∀ w, A ⟨some scale, scale, w⟩) :
    Keeps (Grown db₀ A none) (processCrossScale cfg env scales) fun _ => True := by
  refine keeps_motionPhase.bind fun motionFailed _ => ?_
  refine keeps_skipPhase.bind fun active hactive => ?_
  refine (keeps_planDefaultPhase fun hmem => hA _ hmem).attempt.bind fun r hr => ?_
  cases r with
  | error e => exact keeps_handleRequiredFailure
  | ok defaultUnits =>
      refine (keeps_planHighFreqPhase fun h => hA _ (hactive h)).bind fun highFreqUnits hhf => ?_
      refine keeps_runPlanned ?_ hhf
      split
      · exact hr defaultUnits rfl
      · exact fun u hu => by cases hu

/-! ## Both paths -/

/-- The scales of the job: those with a task, in processing order. -/
def ScalesOf (db₀ : JobRows) (scales : List AnalysisScale) : Prop :=
  (∀ scale ∈ scales, (db₀.tasks scale).isSome = true) ∧
    scales.Pairwise fun s t => s = .highFreqEvent → t = .lowFreqSummary

theorem keeps_markJobRunning :
    Keeps (Grown db₀ A fixed) (writeSession cfg env .markJobRunning fun db => do
      let db ← db.transitionJob .running none none
      .ok (db.scaleTasks, db)) (ScalesOf db₀) := by
  refine keeps_writeSession fun db scales db' hdb h => ?_
  obtain ⟨db₁, hjob, h⟩ := Act.ok_of_bind h
  cases h
  refine ⟨offUnits_transitionJob hjob, fun scale hscale => ?_, ?_⟩
  · rw [← hdb.tasks scale, ← (offUnits_transitionJob hjob).tasks scale]
    exact (List.mem_filter.mp hscale).2
  · exact List.Pairwise.filter _ (by decide)

/-! ## The sequential path -/

theorem highFreqPlan_congr (cfg : WorkerConfig) {db db' : JobRows}
    (scaleTask : Option AnalysisScale) (h : db.planInput = db'.planInput) :
    highFreqPlan cfg scaleTask db = highFreqPlan cfg scaleTask db' := by
  simp only [JobState.planInput, Prod.mk.injEq] at h
  unfold highFreqPlan
  rw [h.1, h.2.1, h.2.2]

/-- The key the sequential path gives a window of a trigger. -/
def HighFreqKey (cfg : WorkerConfig) (db : JobRows) (k : UnitKey) : Prop :=
  ∃ us, highFreqPlan cfg none db = .ok us ∧ k ∈ us.map PlannedUnit.key

/-- Every created unit is found, or is of a window that a trigger of `dbp` has. -/
def Explained (cfg : WorkerConfig) (db₀ dbp : JobRows) : JobRows → Prop :=
  Grown db₀ (fun k => k.Rooted db₀ ∨ HighFreqKey cfg dbp k) (some dbp.planInput)

/-- No unit was created that is not found. -/
def AllRooted (db₀ : JobRows) : JobRows → Prop := Grown db₀ (fun k => k.Rooted db₀) none

instance {dbp : JobRows} : OffUnitsStable (Explained cfg db₀ dbp) :=
  inferInstanceAs (OffUnitsStable (Grown _ _ _))

instance : OffUnitsStable (AllRooted db₀) := inferInstanceAs (OffUnitsStable (Grown _ _ _))

theorem Explained.self {dbp db : JobRows} (h : Explained cfg db₀ dbp db) :
    Explained cfg db₀ db db where
  tasks := h.tasks
  units k hk hnew := by
    have hplan := h.plan _ rfl
    rcases h.units k hk hnew with hroot | ⟨us, hus, hmem⟩
    · exact Or.inl hroot
    · exact Or.inr ⟨us, (highFreqPlan_congr cfg none hplan).trans hus, hmem⟩
  plan p hp := by
    cases hp
    rfl

theorem AllRooted.explained {db : JobRows} (h : AllRooted db₀ db) : Explained cfg db₀ db db where
  tasks := h.tasks
  units k hk hnew := Or.inl (h.units k hk hnew)
  plan p hp := by
    cases hp
    rfl

/-- What holds of every state of a run on the sequential path. -/
def SelfExplained (cfg : WorkerConfig) (db₀ db : JobRows) : Prop := Explained cfg db₀ db db

/-- A triple whose steps leave `SelfExplained` states. -/
def SeqTriple {α : Type} (cfg : WorkerConfig) (db₀ : JobRows) (P : JobRows → Prop)
    (x : JobAct α) (Q : α → JobRows → Prop) : Prop :=
  Triple (fun _ n => SelfExplained cfg db₀ n.1) P x Q fun _ => SelfExplained cfg db₀

theorem seqTriple_of_keeps {α : Type} {x : JobAct α} {Q : α → Prop}
    (h : ∀ dbp, Keeps (Explained cfg db₀ dbp) x Q) :
    SeqTriple cfg db₀ (SelfExplained cfg db₀) x fun _ => SelfExplained cfg db₀ := by
  intro db hdb
  obtain ⟨halong, hpost⟩ := h db db hdb
  refine ⟨halong.imp fun _ _ hn => hn.self, ?_⟩
  rcases hrun : Act.exec x db with ⟨e | a, db'⟩
  · rw [hrun] at hpost
    exact hpost.self
  · rw [hrun] at hpost
    exact hpost.1.self

/-- Before `high_freq_event` no unit is created that is not found. -/
theorem triple_of_rooted {α : Type} {x : JobAct α} {Q : α → Prop}
    (h : Keeps (AllRooted db₀) x Q) :
    Triple (fun _ n => SelfExplained cfg db₀ n.1) (AllRooted db₀) x
      (fun a db => AllRooted db₀ db ∧ Q a) fun _ => AllRooted db₀ := by
  intro db hdb
  obtain ⟨halong, hpost⟩ := h db hdb
  exact ⟨halong.imp fun _ _ hn => hn.explained, hpost⟩

/-- The scales before `high_freq_event` create units that are found. -/
theorem keeps_early (hscale : (db₀.tasks scale).isSome = true) (hne : scale ≠ .highFreqEvent) :
    Keeps (AllRooted db₀) (processScaleTask cfg env scale) fun _ => True := by
  refine keeps_processScaleTask fun hlow => ?_
  cases scale with
  | defaultSegment => exact keeps_runScale_default fun w => ⟨rfl, hscale⟩
  | motionScan => exact keeps_runScale_motion
  | highFreqEvent => exact absurd rfl hne
  | lowFreqSummary => exact absurd rfl hlow

theorem keeps_highFreqScale {dbp : JobRows} :
    Keeps (Explained cfg db₀ dbp) (processScaleTask cfg env .highFreqEvent) fun _ => True := by
  refine keeps_processScaleTask fun _ => keeps_runScale_highFreq fun db us hdb hus u hu => ?_
  have hplan := highFreqPlan_congr cfg none (hdb.plan _ rfl)
  exact Or.inr ⟨us, hplan ▸ hus, List.mem_map_of_mem hu⟩

theorem keeps_lowScale {dbp : JobRows} :
    Keeps (Explained cfg db₀ dbp) (processScaleTask cfg env .lowFreqSummary) fun _ => True :=
  keeps_processScaleTask fun hlow => absurd rfl hlow

/-- The loop: up to `high_freq_event` every created unit is found, from there on
nothing changes what its windows were planned from. -/
theorem seqTriple_sequentialLoop {scales : List AnalysisScale} {anyPartial : Bool}
    (h : ScalesOf db₀ scales) :
    SeqTriple cfg db₀ (AllRooted db₀) (sequentialLoop cfg env scales anyPartial)
      fun _ => SelfExplained cfg db₀ := by
  induction scales generalizing anyPartial with
  | nil => exact Triple.pure fun db hdb => hdb.explained
  | cons scale rest ih =>
      obtain ⟨hsome, horder⟩ := h
      obtain ⟨hlast, horder⟩ := List.pairwise_cons.mp horder
      by_cases hhigh : scale = .highFreqEvent
      -- only `low_freq_summary` comes after it, and runs no units
      · subst hhigh
        have hkeeps : ∀ dbp, Keeps (Explained cfg db₀ dbp)
            (sequentialLoop cfg env (.highFreqEvent :: rest) anyPartial) fun _ => True := by
          intro dbp
          refine keeps_sequentialLoop fun s hs => ?_
          rcases List.mem_cons.mp hs with rfl | hs
          · exact keeps_highFreqScale
          · rw [hlast s hs rfl]
            exact keeps_lowScale
        exact (seqTriple_of_keeps hkeeps).weaken (fun db hdb => hdb.explained)
          (fun _ _ hdb => hdb) fun _ _ hdb => hdb
      · have hrest := fun b =>
          @ih b ⟨fun s hs => hsome s (List.mem_cons_of_mem _ hs), horder⟩
        have hscale : Keeps (AllRooted db₀) (processScaleTask cfg env scale) fun _ => True :=
          keeps_early (hsome scale List.mem_cons_self) hhigh
        refine Triple.bind ((triple_of_rooted hscale.attempt).weaken (fun _ hdb => hdb)
          (fun _ _ hdb => hdb.1) fun _ _ hdb => hdb.explained) fun r => ?_
        cases r with
        | error e =>
            dsimp only
            split
            · exact Triple.pure fun db hdb => hdb.explained
            · refine Triple.bind ((triple_of_rooted keeps_failScaleTask).weaken (fun _ hdb => hdb)
                (fun _ _ hdb => hdb.1) fun _ _ hdb => hdb.explained) fun _ => ?_
              exact hrest true
        | ok r =>
            cases r with
            | none => exact hrest anyPartial
            | some r =>
                dsimp only
                split
                · exact Triple.pure fun db hdb => hdb.explained
                · exact hrest _

theorem seqTriple_processSequential {scales : List AnalysisScale} (h : ScalesOf db₀ scales) :
    SeqTriple cfg db₀ (AllRooted db₀) (processSequential cfg env scales)
      fun _ => SelfExplained cfg db₀ := by
  refine Triple.bind (seqTriple_sequentialLoop h) fun r => ?_
  cases r with
  | error e => exact seqTriple_of_keeps fun _ => keeps_handleRequiredFailure
  | ok anyPartial =>
      exact seqTriple_of_keeps fun _ => keeps_reconcile.bind fun _ _ => keeps_finalizeJob

end Programs

/-! ## Every run -/

section Runs

variable {cfg : WorkerConfig} {env : WorkerEnv} {db₀ db : JobRows}

theorem AllRooted.start (db : JobRows) : AllRooted db db where
  tasks _ := rfl
  units k hk hnew := by
    rw [hnew] at hk
    cases hk
  plan p hp := by cases hp

theorem UnitsFound.of_units (htasks : ∀ s, (db.tasks s).isSome = (db₀.tasks s).isSome)
    (h : ∀ k, (unitRow db.units k).isSome = true → unitRow db₀.units k = none → k.Rooted db₀) :
    UnitsFound db₀ db := by
  have hrooted : ∀ u ∈ db.units.rows, unitRow db₀.units u.key = none → u.key.Rooted db := by
    intro u hu hnew
    have hget : unitRow db.units u.key = some u.row := by
      rw [unitRow, Keyed.Table.get?_of_mem hu]
      rfl
    obtain ⟨htask, hsome⟩ := h u.key (by rw [hget]; rfl) hnew
    exact ⟨htask, (htasks _).trans hsome⟩
  refine ⟨hrooted, fun u hu hnew => ?_⟩
  obtain ⟨htask, hsome⟩ := hrooted u hu hnew
  exact List.mem_filter.mpr ⟨hu, by rw [htask]; exact hsome⟩

theorem allRooted_crossScale (hcross : cfg.crossScaleEnabled = true) :
    ∀ db ∈ Act.states (processClaimedTask cfg env) db₀, AllRooted db₀ db := by
  have hkeeps : Keeps (AllRooted db₀) (processClaimedTask cfg env) fun _ => True := by
    refine keeps_markJobRunning.bind fun scales hscales => ?_
    refine (keeps_workerStep _).bind fun _ _ => ?_
    rw [if_pos hcross]
    exact keeps_processCrossScale fun scale hscale w => ⟨rfl, hscales.1 scale hscale⟩
  exact Triple.states hkeeps (AllRooted.start db₀) (AllRooted.start db₀)

/-- On the cross-scale path every unit that is created is found. -/
theorem unitsFound_crossScale (hcross : cfg.crossScaleEnabled = true) :
    ∀ db ∈ Act.states (processClaimedTask cfg env) db₀, UnitsFound db₀ db := by
  intro db hdb
  have hrooted := allRooted_crossScale hcross db hdb
  exact .of_units hrooted.tasks hrooted.units

/-- On the sequential path a unit that is not found is of a window of a trigger. -/
theorem explained_sequential (hcross : cfg.crossScaleEnabled = false) :
    ∀ db ∈ Act.states (processClaimedTask cfg env) db₀, SelfExplained cfg db₀ db := by
  have htriple : SeqTriple cfg db₀ (AllRooted db₀) (processClaimedTask cfg env)
      fun _ => SelfExplained cfg db₀ := by
    refine Triple.bind ((triple_of_rooted keeps_markJobRunning).weaken (fun _ hdb => hdb)
      (fun _ _ hdb => hdb) fun _ _ hdb => hdb.explained) fun scales => ?_
    intro db hdb
    obtain ⟨hdb, hscales⟩ := hdb
    revert db
    refine Triple.bind ((triple_of_rooted (keeps_workerStep _)).weaken (fun _ hdb => hdb)
      (fun _ _ hdb => hdb.1) fun _ _ hdb => hdb.explained) fun _ => ?_
    rw [if_neg (by simp [hcross])]
    exact seqTriple_processSequential hscales
  exact Triple.states htriple (AllRooted.start db₀) (AllRooted.start db₀).explained

/-- No step of a run adds or drops a scale task. -/
theorem isSome_tasks_of_states (hdb : db ∈ Act.states (processClaimedTask cfg env) db₀)
    (s : AnalysisScale) : (db.tasks s).isSome = (db₀.tasks s).isSome := by
  cases hcross : cfg.crossScaleEnabled with
  | true => exact (allRooted_crossScale hcross db hdb).tasks s
  | false => exact (explained_sequential hcross db hdb).tasks s

/-- Every created unit is found, and both paths agree on the keys, in all states
of a run exactly where no trigger of the video has a window in any of them. -/
theorem unitsFound_iff (cfg : WorkerConfig) (env : WorkerEnv) (db₀ : JobRows) :
    (∀ db ∈ Act.states (processClaimedTask cfg env) db₀,
      UnitsFound db₀ db ∧ KeysAgree cfg env db) ↔
      ∀ db ∈ Act.states (processClaimedTask cfg env) db₀, NoHighFreqWindow cfg db := by
  constructor
  · exact fun h db hdb => keysAgree_iff.mp (h db hdb).2
  · intro h db hdb
    refine ⟨?_, keysAgree_iff.mpr (h db hdb)⟩
    cases hcross : cfg.crossScaleEnabled with
    | true => exact unitsFound_crossScale hcross db hdb
    | false =>
        have hexp := explained_sequential hcross db hdb
        refine .of_units hexp.tasks fun k hk hnew => ?_
        rcases hexp.units k hk hnew with hroot | ⟨us, hus, hmem⟩
        · exact hroot
        · cases h db hdb us hus
          cases hmem

end Runs

/-- One second of video, all of it motion. -/
def WorkerEnv.moving : WorkerEnv :=
  { WorkerEnv.smooth with motionWindows := [⟨0, 1000, "motion"⟩] }

/-- The unit of the motion is created, and no scale task leads to it. -/
theorem unit_not_found : ∃ db ∈ Act.states
      (processClaimedTask (.basic false) .moving) .queuedJob,
    ¬ UnitsFound .queuedJob db ∧ ¬ KeysAgree (.basic false) .moving db := by
  refine ⟨_, Act.exec_mem_states _ _, fun h => ?_, fun h => ?_⟩
  · have hmem : ∃ u ∈ (Act.exec (processClaimedTask (.basic false) .moving) .queuedJob).2.units.rows,
        u.key = ⟨none, .highFreqEvent, ⟨0, 1000⟩⟩ := by
      decide +kernel
    obtain ⟨u, hu, hkey⟩ := hmem
    have hroot := (h.rooted u hu rfl).1
    rw [hkey] at hroot
    cases hroot
  · have hplan := keysAgree_iff.mp h _ rfl
    cases hplan

end CctvMemory.Worker
