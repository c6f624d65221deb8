import CctvMemory.Worker.Process
import CctvMemory.Worker.UnitSpec

/-!
# Evaluating the worker on a view

On the rows of a job the worker is deterministic up to the schedule of its
unit pools, and `Evals` says what an action gives on every table with a given
view: a pool ends as if each unit had run alone on its row (`evals_pool`), a
write session without fault does what its transaction does on the view
(`evals_writeSession`).
-/

namespace CctvMemory.Worker

open Keyed (Table)

variable {α β : Type}

/-- On every state with view `c`, `x` ends with `r` and view `c'`. -/
def Evals (x : JobAct α) (c : JobView) (r : Except Exn α) (c' : JobView) : Prop :=
  ∀ db : JobRows, db.view = c → (Act.exec x db).1 = r ∧ (Act.exec x db).2.view = c'

namespace Evals

variable {x : JobAct α} {f : α → JobAct β} {c c' c'' : JobView}

theorem pure (a : α) (c : JobView) : Evals (Pure.pure a) c (.ok a) c := fun _ h => ⟨rfl, h⟩

theorem throw (e : Exn) (c : JobView) :
    Evals (MonadExcept.throw e : JobAct α) c (.error e) c := fun _ h => ⟨rfl, h⟩

theorem bind {a : α} {r : Except Exn β} (hx : Evals x c (.ok a) c') (hf : Evals (f a) c' r c'') :
    Evals (x >>= f) c r c'' := by
  intro db hdb
  obtain ⟨hres, hview⟩ := hx db hdb
  rw [Act.exec_bind_ok (Prod.ext hres rfl)]
  exact hf _ hview

theorem bind_error {e : Exn} (hx : Evals x c (.error e) c') :
    Evals (x >>= f) c (.error e) c' := by
  intro db hdb
  obtain ⟨hres, hview⟩ := hx db hdb
  rw [Act.exec_bind_error (Prod.ext hres rfl)]
  exact ⟨rfl, hview⟩

theorem attempt {r : Except Exn α} (hx : Evals x c r c') :
    Evals (Act.attempt x) c (.ok r) c' := by
  intro db hdb
  obtain ⟨hres, hview⟩ := hx db hdb
  rw [Act.exec_attempt, hres]
  exact ⟨rfl, hview⟩

end Evals

/-- `P` of what is returned, `E` where it raises. -/
abbrev OkOrError (P : α → JobView → Prop) (E : JobView → Prop) : Except Exn α → JobView → Prop
  | .ok a, c => P a c
  | .error _, c => E c

/-- `x` ends on `c` with a result and a view that `Q` allows. -/
def Ends (x : JobAct α) (c : JobView) (Q : Except Exn α → JobView → Prop) : Prop :=
  ∃ r c', Evals x c r c' ∧ Q r c'

theorem Evals.ends {x : JobAct α} {c c' : JobView} {r : Except Exn α}
    {Q : Except Exn α → JobView → Prop} (h : Evals x c r c') (hQ : Q r c') : Ends x c Q :=
  ⟨r, c', h, hQ⟩

namespace Ends

variable {x : JobAct α} {f : α → JobAct β} {c : JobView} {Q R : Except Exn α → JobView → Prop}

theorem exec (h : Ends x c Q) {db : JobRows} (hdb : db.view = c) :
    Q (Act.exec x db).1 (Act.exec x db).2.view := by
  obtain ⟨r, c', heval, hQ⟩ := h
  obtain ⟨hres, hview⟩ := heval db hdb
  rwa [hres, hview]

theorem imp (h : Ends x c Q) (hQR : ∀ r c', Q r c' → R r c') : Ends x c R := by
  obtain ⟨r, c', heval, hQ⟩ := h
  exact heval.ends (hQR r c' hQ)

theorem bind {S : Except Exn β → JobView → Prop} (hx : Ends x c Q)
    (hok : ∀ a c', Q (.ok a) c' → Ends (f a) c' S)
    (herror : ∀ e c', Q (.error e) c' → S (.error e) c') : Ends (x >>= f) c S := by
  obtain ⟨r, c', heval, hQ⟩ := hx
  cases r with
  | error e => exact heval.bind_error.ends (herror e c' hQ)
  | ok a =>
      obtain ⟨r', c'', heval', hS⟩ := hok a c' hQ
      exact (heval.bind heval').ends hS

theorem attempt_bind {g : Except Exn α → JobAct β} {S : Except Exn β → JobView → Prop}
    (hx : Ends x c Q) (hg : ∀ r c', Q r c' → Ends (g r) c' S) :
    Ends (Act.attempt x >>= g) c S := by
  obtain ⟨r, c', heval, hQ⟩ := hx
  obtain ⟨r', c'', heval', hS⟩ := hg r c' hQ
  exact (heval.attempt.bind heval').ends hS

end Ends

/-! ## Sessions -/

/-- A transaction as a function of the view. -/
def ActsOn (work : JobRows → Except Exn (α × JobRows))
    (vwork : JobView → Except Exn (α × JobView)) : Prop :=
  ∀ db : JobRows, (work db).map (Prod.map id JobRows.view) = vwork db.view

/-- Transactions compose on the view as they do on the rows. -/
theorem view_bind {γ δ : Type} {x : Except Exn JobRows} {y : Except Exn JobView}
    {f : JobRows → Except Exn γ} {h : JobView → Except Exn δ} {g : γ → δ}
    (hx : x.map JobRows.view = y) (hf : ∀ db : JobRows, (f db).map g = h db.view) :
    (x >>= f).map g = y >>= h := by
  subst hx
  cases x with
  | error e => rfl
  | ok db => exact hf db

/-- Every error is final: no retry would change it. -/
def Permanent (r : Except Exn α) : Prop := ∀ e, r = .error e → isTransientDbError e = false

theorem Permanent.ok (a : α) : Permanent (.ok a : Except Exn α) := fun e he => by cases he

theorem Permanent.bind {x : Except Exn α} {f : α → Except Exn β} (hx : Permanent x)
    (hf : ∀ a, Permanent (f a)) : Permanent (x >>= f) := by
  cases x with
  | error e => exact fun e' he => hx e' (by cases he; rfl)
  | ok a => exact hf a

theorem ActsOn.ok {work : JobRows → Except Exn (α × JobRows)}
    {vwork : JobView → Except Exn (α × JobView)} (h : ActsOn work vwork) {db : JobRows} {a : α}
    {c' : JobView} (hv : vwork db.view = .ok (a, c')) :
    ∃ db', work db = .ok (a, db') ∧ db'.view = c' := by
  have hdb := h db
  rw [hv] at hdb
  cases hw : work db with
  | error e =>
      rw [hw] at hdb
      cases hdb
  | ok r =>
      rw [hw] at hdb
      obtain ⟨a', db'⟩ := r
      cases hdb
      exact ⟨db', rfl, rfl⟩

theorem ActsOn.error {work : JobRows → Except Exn (α × JobRows)}
    {vwork : JobView → Except Exn (α × JobView)} (h : ActsOn work vwork) {db : JobRows} {e : Exn}
    (hv : vwork db.view = .error e) : work db = .error e := by
  have hdb := h db
  rw [hv] at hdb
  cases hw : work db with
  | error e' =>
      rw [hw] at hdb
      cases hdb
      rfl
  | ok r =>
      rw [hw] at hdb
      cases hdb

/-- The result of a session on the view: its fault, or its transaction. -/
def viewResult (c : JobView) (fault : Option Exn) (r : Except Exn (α × JobView)) :
    Except Exn α × JobView :=
  match fault, r with
  | some e, _ => (.error e, c)
  | none, .ok (a, c') => (.ok a, c')
  | none, .error e => (.error e, c)

/-- The exception left by the retries of write session `w`. -/
def faultOf (cfg : WorkerConfig) (env : WorkerEnv) (w : WorkerWrite) : Option Exn :=
  lastFault cfg.dbWriteMaxAttempts (env.writeFault w)

section Sessions

variable {cfg : WorkerConfig} {env : WorkerEnv}

theorem exec_viewTxn {work : JobRows → Except Exn (α × JobRows)}
    {vwork : JobView → Except Exn (α × JobView)} (hacts : ActsOn work vwork) (db : JobRows) :
    (Act.exec (Act.txn fun db => match work db with
        | .ok (a, db') => .ok (a, db', ([] : List Unit))
        | .error e => .error e) db).1 = (viewResult db.view none (vwork db.view)).1 ∧
    (Act.exec (Act.txn fun db => match work db with
        | .ok (a, db') => .ok (a, db', ([] : List Unit))
        | .error e => .error e) db).2.view = (viewResult db.view none (vwork db.view)).2 := by
  rw [Act.exec_txn]
  cases hv : vwork db.view with
  | error e =>
      rw [hacts.error hv]
      exact ⟨rfl, rfl⟩
  | ok r =>
      obtain ⟨db', hw, hview⟩ := hacts.ok (show vwork db.view = .ok (r.1, r.2) from hv)
      rw [hw]
      exact ⟨rfl, hview⟩

theorem evals_writeSession {w : WorkerWrite} {work : JobRows → Except Exn (α × JobRows)}
    (vwork : JobView → Except Exn (α × JobView)) (hacts : ActsOn work vwork)
    (hperm : ∀ c, Permanent (vwork c)) (c : JobView) :
    Evals (writeSession cfg env w work) c (viewResult c (faultOf cfg env w) (vwork c)).1
      (viewResult c (faultOf cfg env w) (vwork c)).2 := by
  intro db hdb
  subst hdb
  have hwrite : ∀ e, (match work db with
      | .ok (a, db') => Except.ok (a, db', ([] : List Unit))
      | .error e => .error e) = .error e → isTransientDbError e = false := by
    intro e he
    cases hw : work db with
    | error e' =>
        rw [hw] at he
        cases he
        refine hperm db.view e ?_
        rw [← hacts db, hw]
        rfl
    | ok r =>
        rw [hw] at he
        cases he
  rw [writeSession, exec_dbWrite hwrite]
  cases hfault : faultOf cfg env w with
  | none =>
      rw [faultOf] at hfault
      rw [hfault]
      exact exec_viewTxn hacts db
  | some e =>
      rw [faultOf] at hfault
      rw [hfault]
      exact ⟨rfl, rfl⟩

theorem evals_session {s : WorkerStep} {work : JobRows → Except Exn (α × JobRows)}
    (vwork : JobView → Except Exn (α × JobView)) (hacts : ActsOn work vwork) (c : JobView) :
    Evals (session env s work) c (viewResult c (env.raises s) (vwork c)).1
      (viewResult c (env.raises s) (vwork c)).2 := by
  intro db hdb
  subst hdb
  rw [session, exec_attemptWrite]
  cases env.raises s with
  | none => exact exec_viewTxn hacts db
  | some e => exact ⟨rfl, rfl⟩

/-- A write session raises and changes nothing, or commits. -/
theorem ends_writeSession {w : WorkerWrite} {work : JobRows → Except Exn (α × JobRows)}
    {vwork : JobView → Except Exn (α × JobView)} (hacts : ActsOn work vwork)
    (hperm : ∀ c, Permanent (vwork c)) {c : JobView} {Q : Except Exn α → JobView → Prop}
    (hok : ∀ a c', vwork c = .ok (a, c') → Q (.ok a) c') (herror : ∀ e, Q (.error e) c) :
    Ends (writeSession cfg env w work) c Q := by
  refine (evals_writeSession _ hacts hperm c).ends ?_
  cases faultOf cfg env w with
  | some e => exact herror e
  | none =>
      rcases hv : vwork c with e | ⟨a, c'⟩
      · exact herror e
      · exact hok a c' hv

theorem evals_workerStep (s : WorkerStep) (c : JobView) :
    Evals (workerStep env s) c (match env.raises s with
      | some e => .error e
      | none => .ok ()) c := by
  rw [workerStep]
  cases env.raises s with
  | none => exact Evals.pure () c
  | some e => exact Evals.throw e c

theorem ends_workerStep {s : WorkerStep} {c : JobView} {Q : Except Exn Unit → JobView → Prop}
    (hok : Q (.ok ()) c) (herror : ∀ e, Q (.error e) c) : Ends (workerStep env s) c Q := by
  refine (evals_workerStep s c).ends ?_
  cases env.raises s with
  | some e => exact herror e
  | none => exact hok

end Sessions

/-! ## Transitions -/

section Transitions

variable {cfg : WorkerConfig} {env : WorkerEnv} {c : JobView} {scale : AnalysisScale}
  {t : ScaleTaskRow} {target : TaskStatus} {ec : Option ErrorCode} {sr : Option SkippedReason}

theorem view_transitionScaleTask (db : JobRows) (scale : AnalysisScale) (target : TaskStatus)
    (ec : Option ErrorCode) (sr : Option SkippedReason) :
    (db.transitionScaleTask scale target ec sr).map JobRows.view
      = db.view.transitionScaleTask scale target ec sr := by
  unfold JobState.transitionScaleTask
  rw [show db.view.tasks scale = db.tasks scale from rfl]
  cases db.tasks scale with
  | none => rfl
  | some t =>
      dsimp only
      split
      · rfl
      · split <;> rfl

theorem view_transitionJob (db : JobRows) (target : JobStatus) (ec : Option ErrorCode)
    (em : Option String) :
    (db.transitionJob target ec em).map JobRows.view = db.view.transitionJob target ec em := by
  unfold JobState.transitionJob
  show _ = if db.job.jobStatus = target then _ else _
  split
  · rfl
  · show _ = if canTransitionJob db.job.jobStatus target then _ else _
    split <;> rfl

theorem permanent_transitionScaleTask {U : Type} {db : JobState U} :
    Permanent (db.transitionScaleTask scale target ec sr) := by
  intro e h
  unfold JobState.transitionScaleTask at h
  split at h
  · cases h
    rfl
  · split at h
    · cases h
    · split at h <;> cases h
      rfl

theorem permanent_transitionJob {U : Type} {db : JobState U} {target : JobStatus}
    {ec : Option ErrorCode} {em : Option String} :
    Permanent (db.transitionJob target ec em) := by
  intro e h
  unfold JobState.transitionJob at h
  split at h
  · cases h
  · split at h <;> cases h
    rfl

theorem evals_taskWrite (w : WorkerWrite) (scale : AnalysisScale) (target : TaskStatus)
    (ec : Option ErrorCode) (sr : Option SkippedReason) (c : JobView) :
    Evals (taskWrite cfg env w scale target ec sr) c
      (viewResult c (faultOf cfg env w) (do
        .ok ((), ← c.transitionScaleTask scale target ec sr))).1
      (viewResult c (faultOf cfg env w) (do
        .ok ((), ← c.transitionScaleTask scale target ec sr))).2 := by
  refine evals_writeSession (fun c => do
    .ok ((), ← c.transitionScaleTask scale target ec sr)) (fun db => ?_) (fun c => ?_) c
  · exact view_bind (view_transitionScaleTask db scale target ec sr) fun _ => rfl
  · exact permanent_transitionScaleTask.bind fun _ => Permanent.ok _

theorem evals_taskWrite_ok {w : WorkerWrite} (hw : faultOf cfg env w = none)
    (h : c.tasks scale = some t) (hlegal : legalTask t.status target = true) :
    Evals (taskWrite cfg env w scale target ec sr) c (.ok ())
      (c.setTask scale (t.moveTo target ec sr)) := by
  have heval := @evals_taskWrite cfg env w scale target ec sr c
  rw [hw, JobState.transitionScaleTask_of_legal h hlegal] at heval
  exact heval

theorem evals_taskWrite_illegal {w : WorkerWrite} (ec : Option ErrorCode)
    (sr : Option SkippedReason) (hw : faultOf cfg env w = none)
    (h : c.tasks scale = some t) (hlegal : legalTask t.status target = false) :
    ∃ e, e.cls = .invalidStateTransition ∧
      Evals (taskWrite cfg env w scale target ec sr) c (.error e) c := by
  have heval := @evals_taskWrite cfg env w scale target ec sr c
  rw [hw, JobState.transitionScaleTask_of_not_legal h hlegal] at heval
  exact ⟨_, rfl, heval⟩

theorem evals_taskWrite_fault {w : WorkerWrite} {e : Exn} (hw : faultOf cfg env w = some e) :
    Evals (taskWrite cfg env w scale target ec sr) c (.error e) c := by
  have heval := @evals_taskWrite cfg env w scale target ec sr c
  rw [hw] at heval
  exact heval

theorem evals_step_ok {s : WorkerStep} (h : env.raises s = none) (c : JobView) :
    Evals (workerStep env s) c (.ok ()) c := by
  have heval := @evals_workerStep env s c
  rw [h] at heval
  exact heval

theorem evals_step_raise {s : WorkerStep} {e : Exn} (h : env.raises s = some e) (c : JobView) :
    Evals (workerStep env s) c (.error e) c := by
  have heval := @evals_workerStep env s c
  rw [h] at heval
  exact heval

/-- A transition that raises changes nothing. -/
theorem ends_taskWrite {w : WorkerWrite} {Q : Except Exn Unit → JobView → Prop}
    (h : c.tasks scale = some t)
    (hok : legalTask t.status target = true →
      Q (.ok ()) (c.setTask scale (t.moveTo target ec sr)))
    (herror : ∀ e, Q (.error e) c) : Ends (taskWrite cfg env w scale target ec sr) c Q := by
  cases hw : faultOf cfg env w with
  | some e => exact (evals_taskWrite_fault hw).ends (herror e)
  | none =>
      cases hlegal : legalTask t.status target with
      | true => exact (evals_taskWrite_ok hw h hlegal).ends (hok hlegal)
      | false =>
          obtain ⟨e, -, heval⟩ := evals_taskWrite_illegal ec sr hw h hlegal
          exact heval.ends (herror e)

theorem ends_failScaleTask {e : Exn} {Q : Except Exn Unit → JobView → Prop}
    (h : c.tasks scale = some t)
    (hok : ∀ r, legalTask t.status .failed = true →
      Q r (c.setTask scale (t.moveTo .failed (some (classifyError e)) none)))
    (herror : ∀ e', Q (.error e') c) : Ends (failScaleTask cfg env scale e) c Q := by
  refine Ends.bind (Q := OkOrError (fun _ c' => legalTask t.status .failed = true ∧
      c' = c.setTask scale (t.moveTo .failed (some (classifyError e)) none)) fun c' => c' = c)
    (ends_taskWrite h (fun hlegal => ⟨hlegal, rfl⟩) fun _ => rfl) ?_ ?_
  · rintro - c' ⟨hlegal, rfl⟩
    exact ends_workerStep (hok _ hlegal) fun _ => hok _ hlegal
  · rintro e' c' rfl
    exact herror e'

theorem ends_skipScaleTask {reason : SkippedReason} {Q : Except Exn Unit → JobView → Prop}
    (h : c.tasks scale = some t)
    (hok : ∀ r, legalTask t.status .skipped = true →
      Q r (c.setTask scale (t.moveTo .skipped none (some reason))))
    (herror : ∀ e', Q (.error e') c) : Ends (skipScaleTask cfg env scale reason) c Q := by
  refine Ends.bind (Q := OkOrError (fun _ c' => legalTask t.status .skipped = true ∧
      c' = c.setTask scale (t.moveTo .skipped none (some reason))) fun c' => c' = c)
    (ends_taskWrite h (fun hlegal => ⟨hlegal, rfl⟩) fun _ => rfl) ?_ ?_
  · rintro - c' ⟨hlegal, rfl⟩
    exact ends_workerStep (hok _ hlegal) fun _ => hok _ hlegal
  · rintro e' c' rfl
    exact herror e'

/-- A running task, or one already failed, can be failed. -/
theorem evals_failScaleTask_ok {e : Exn} (hw : faultOf cfg env (.failScale scale) = none)
    (hs : env.raises (.scaleFailed scale) = none) (h : c.tasks scale = some t)
    (hlegal : legalTask t.status .failed = true) :
    Evals (failScaleTask cfg env scale e) c (.ok ())
      (c.setTask scale (t.moveTo .failed (some (classifyError e)) none)) :=
  (evals_taskWrite_ok hw h hlegal).bind (evals_step_ok hs _)

theorem evals_failScaleTask_illegal {e : Exn} (hw : faultOf cfg env (.failScale scale) = none)
    (h : c.tasks scale = some t) (hlegal : legalTask t.status .failed = false) :
    ∃ e', e'.cls = .invalidStateTransition ∧
      Evals (failScaleTask cfg env scale e) c (.error e') c := by
  obtain ⟨e', hcls, heval⟩ := evals_taskWrite_illegal (some (classifyError e)) none
    hw h hlegal
  exact ⟨e', hcls, heval.bind_error⟩

theorem evals_skipScaleTask_ok {reason : SkippedReason}
    (hw : faultOf cfg env (.skipScale scale) = none)
    (hs : env.raises (.scaleSkipped scale) = none) (h : c.tasks scale = some t)
    (hlegal : legalTask t.status .skipped = true) :
    Evals (skipScaleTask cfg env scale reason) c (.ok ())
      (c.setTask scale (t.moveTo .skipped none (some reason))) :=
  (evals_taskWrite_ok hw h hlegal).bind (evals_step_ok hs _)

theorem evals_skipScaleTask_illegal (reason : SkippedReason)
    (hw : faultOf cfg env (.skipScale scale) = none) (h : c.tasks scale = some t)
    (hlegal : legalTask t.status .skipped = false) :
    ∃ e, e.cls = .invalidStateTransition ∧
      Evals (skipScaleTask cfg env scale reason) c (.error e) c := by
  obtain ⟨e, hcls, heval⟩ := evals_taskWrite_illegal none (some reason) hw h hlegal
  exact ⟨e, hcls, heval.bind_error⟩

end Transitions

end CctvMemory.Worker
