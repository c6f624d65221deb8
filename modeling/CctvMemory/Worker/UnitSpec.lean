import CctvMemory.Worker.Unit

/-!
# What a unit leaves behind

One triple for each stage of the unit pipeline, from a running row: a value
leaves the row in the status of that outcome, an escaping exception leaves a
row for the guard. The guarantee `UnitGuar` says which steps may reach or
leave a done status.

* `triple_body`: the body of a running unit, on either processor.
* `UnitProcessor.notStranded_iff`: when the returned outcome is the one the row stores.
-/

namespace CctvMemory.Worker

open Act (Triple)

/-! ## Statuses of a row -/

/-- The row exists, in status `s`. -/
def HasStatus (s : TaskStatus) (row : Option UnitRow) : Prop :=
  row.map UnitRow.status = some s

instance (s : TaskStatus) (row : Option UnitRow) : Decidable (HasStatus s row) :=
  inferInstanceAs (Decidable (_ = _))

/-- Succeeded or skipped: the outcomes a later claim keeps. -/
def Done (row : Option UnitRow) : Prop := HasStatus .succeeded row ∨ HasStatus .skipped row

instance (row : Option UnitRow) : Decidable (Done row) :=
  inferInstanceAs (Decidable (_ ∨ _))

theorem HasStatus.isSome {s : TaskStatus} {row : Option UnitRow} (h : HasStatus s row) :
    row.isSome = true := by
  cases row with
  | none => cases h
  | some r => rfl

theorem HasStatus.unique {s t : TaskStatus} {row : Option UnitRow} (hs : HasStatus s row)
    (ht : HasStatus t row) : s = t :=
  Option.some.inj (hs.symm.trans ht)

theorem HasStatus.not_done {s : TaskStatus} {row : Option UnitRow} (h : HasStatus s row)
    (hs : s ≠ .succeeded) (hk : s ≠ .skipped) : ¬ Done row := by
  rintro (hd | hd)
  · exact hs (h.unique hd)
  · exact hk (h.unique hd)

theorem hasStatus_map {s : TaskStatus} {f : UnitRow → UnitRow} {row : Option UnitRow}
    (hf : ∀ r, (f r).status = s) (h : row.isSome = true) : HasStatus s (row.map f) := by
  cases row with
  | none => cases h
  | some r => exact congrArg some (hf r)

/-- The row stores an outcome. -/
def Terminal (row : Option UnitRow) : Prop := ∃ o : UnitOutcome, HasStatus o.toStatus row

theorem Terminal.done_or_failed {row : Option UnitRow} (h : Terminal row) :
    Done row ∨ HasStatus .failed row := by
  obtain ⟨o, ho⟩ := h
  cases o
  · exact .inl (.inl ho)
  · exact .inr ho
  · exact .inl (.inr ho)

theorem HasStatus.not_terminal {row : Option UnitRow} (h : HasStatus .running row) :
    ¬ Terminal row := by
  rintro ⟨o, ho⟩
  cases o <;> cases h.unique ho

/-! ## Exceptions after a done status -/

/-- The steps between the commit of a succeeded or skipped row and the return. -/
def lateSteps : List UnitStep :=
  [.noFramesFinished, .insufficientFinished, .suppressedAfterSkip, .publicationFinished,
    .succeededFinished, .cleanupSelected]

/-- No exception follows the commit of a done status. -/
def UnitEnv.Calm (env : UnitEnv) : Prop := ∀ s ∈ lateSteps, env.raises s = none

instance (env : UnitEnv) : Decidable env.Calm := inferInstanceAs (Decidable (∀ _ ∈ _, _))

variable {env : UnitEnv}

/-- What an escaping exception leaves: a row that was set running, not yet done
where nothing raises after a done status. -/
def Escaped (env : UnitEnv) (row : Option UnitRow) : Prop :=
  (HasStatus .running row ∨ Terminal row) ∧ (env.Calm → ¬ Done row)

theorem Escaped.isSome {row : Option UnitRow} (h : Escaped env row) : row.isSome = true := by
  rcases h.1 with hrunning | ⟨o, ho⟩
  · exact hrunning.isSome
  · exact ho.isSome

/-- The steps of a unit: a done row keeps its status unless an exception came
after its commit, and a row becomes succeeded only from running, in the
transaction that publishes. -/
def UnitGuar (env : UnitEnv) (row : Option UnitRow) (next : Option UnitRow × List Effect) :
    Prop :=
  (env.Calm → Done row → next.1.map UnitRow.status = row.map UnitRow.status) ∧
  (HasStatus .succeeded next.1 → HasStatus .succeeded row ∨
    HasStatus .running row ∧ ∃ ids, Effect.published ids ∈ next.2)

theorem UnitGuar.same {row next : Option UnitRow} {out : List Effect}
    (h : next.map UnitRow.status = row.map UnitRow.status) : UnitGuar env row (next, out) :=
  ⟨fun _ _ => h, fun hs => .inl (h.symm.trans hs)⟩

theorem UnitGuar.refl (row : Option UnitRow) : UnitGuar env row (row, []) := UnitGuar.same rfl

theorem Escaped.of_running {row : Option UnitRow} (h : HasStatus .running row) :
    Escaped env row :=
  ⟨.inl h, fun _ => h.not_done (by decide) (by decide)⟩

theorem Escaped.of_failed {row : Option UnitRow} (h : HasStatus .failed row) :
    Escaped env row :=
  ⟨.inr ⟨.failed, h⟩, fun _ => h.not_done (by decide) (by decide)⟩

/-- The triples of this file: guarantee `UnitGuar`, an exception leaves `Escaped`. -/
abbrev UnitTriple {α : Type} (env : UnitEnv) (P : Option UnitRow → Prop) (x : UnitAct α)
    (Q : α → Option UnitRow → Prop) : Prop :=
  Triple (UnitGuar env) P x Q fun _ => Escaped env

/-! ## Steps and writes -/

theorem triple_step {P : Option UnitRow → Prop} (s : UnitStep)
    (hP : ∀ row, P row → Escaped env row) : UnitTriple env P (step env s) fun _ => P := by
  unfold step
  split
  · exact Triple.pure fun row h => h
  · exact Triple.throw fun row h => hP row h

/-- A step after a done status raises only where the environment is not calm. -/
theorem triple_lateStep {o : UnitOutcome} {s : UnitStep} (hs : s ∈ lateSteps) :
    UnitTriple env (HasStatus o.toStatus) (step env s) fun _ => HasStatus o.toStatus := by
  unfold step
  split
  · exact Triple.pure fun row h => h
  · rename_i e he
    refine Triple.throw fun row h => ⟨.inr ⟨o, h⟩, fun hcalm => ?_⟩
    have hnone := hcalm s hs
    rw [he] at hnone
    cases hnone

theorem triple_span {P : Option UnitRow → Prop} (place : SpanStep → UnitStep)
    (hP : ∀ row, P row → Escaped env row) : UnitTriple env P (span env place) fun _ => P := by
  refine Triple.bind (triple_step _ hP) fun _ => ?_
  refine Triple.bind (R := fun _ => P) ?_ fun _ => triple_step _ hP
  have hbody : Triple (UnitGuar env) P (step env (place .body)) (fun _ => P) fun _ => P := by
    unfold step
    split
    · exact Triple.pure fun row h => h
    · exact Triple.throw fun row h => h
  refine Triple.tryCatch hbody fun e => ?_
  refine Triple.bind (triple_step _ hP) fun _ => ?_
  exact Triple.throw hP

/-- A write that sets a status other than succeeded. -/
theorem triple_mark {s : TaskStatus} {w : UnitWrite} {f : UnitRow → UnitRow}
    {out : List Effect} (hf : ∀ r, (f r).status = s) (hs : s ≠ .succeeded) :
    UnitTriple env (Escaped env) (dbWriteUnit env w f out) fun _ => HasStatus s := by
  refine triple_dbWrite (fun row _ row' out' h heq => ?_) fun row e h => ⟨UnitGuar.refl row, h⟩
  cases heq
  have hset := hasStatus_map hf h.isSome
  refine ⟨⟨fun hcalm hdone => absurd hdone (h.2 hcalm), fun hsucc => ?_⟩, hset⟩
  exact absurd (hset.unique hsucc) hs

/-- A write that publishes and sets the row succeeded. -/
theorem triple_publish {w : UnitWrite} {f : UnitRow → UnitRow} {out : List Effect}
    {ids : List String} (hf : ∀ r, (f r).status = .succeeded) (hout : .published ids ∈ out) :
    UnitTriple env (HasStatus .running) (dbWriteUnit env w f out)
      fun _ => HasStatus .succeeded := by
  refine triple_dbWrite (fun row _ row' out' h heq => ?_) fun row e h =>
    ⟨UnitGuar.refl row, Escaped.of_running h⟩
  cases heq
  refine ⟨⟨fun _ hdone => ?_, fun _ => .inr ⟨h, ids, hout⟩⟩, hasStatus_map hf h.isSome⟩
  exact absurd hdone (h.not_done (by decide) (by decide))

/-- A write beside the row. -/
theorem triple_log {P : Option UnitRow → Prop} {w : UnitWrite} {out : List Effect}
    (hP : ∀ row, P row → Escaped env row) :
    UnitTriple env P (dbWriteUnit env w id out) fun _ => P := by
  refine triple_dbWrite (fun row _ row' out' h heq => ?_) fun row e h =>
    ⟨UnitGuar.refl row, hP row h⟩
  cases heq
  rw [Option.map_id]
  exact ⟨UnitGuar.same rfl, h⟩

/-! ## Stages -/

/-- An early return has its outcome in the row; otherwise the row is running. -/
def EarlyReturn (r : Option UnitOutcome) (row : Option UnitRow) : Prop :=
  match r with
  | none => HasStatus .running row
  | some o => HasStatus o.toStatus row

theorem triple_terminalizeUnitSkipped (w : UnitWrite) (reason : ErrorCode) :
    UnitTriple env (Escaped env) (terminalizeUnitSkipped env w reason)
      fun _ => HasStatus .skipped :=
  triple_mark (fun _ => rfl) (by decide)

theorem triple_framesStage :
    UnitTriple env (HasStatus .running) (framesStage env) EarlyReturn := by
  refine Triple.tryCatch (R := fun _ => Escaped env) ?_ fun e => ?_
  · refine Triple.bind (triple_span _ fun _ => Escaped.of_running) fun _ => ?_
    split
    · refine Triple.bind ((triple_terminalizeUnitSkipped _ _).weaken
        (fun _ => Escaped.of_running) (fun _ _ h => h) fun _ _ h => h) fun _ => ?_
      refine Triple.bind (triple_lateStep (o := .skipped) (by decide)) fun _ => ?_
      exact Triple.pure fun row h => h
    · refine Triple.bind (triple_span _ fun _ => Escaped.of_running) fun _ => ?_
      exact Triple.pure fun row h => h
  · split
    · refine Triple.bind (triple_terminalizeUnitSkipped _ _) fun _ => ?_
      refine Triple.bind (triple_lateStep (o := .skipped) (by decide)) fun _ => ?_
      exact Triple.pure fun row h => h
    · refine Triple.bind (triple_mark (s := .failed) (fun _ => rfl) (by decide)) fun _ => ?_
      refine Triple.bind (triple_step _ fun _ => Escaped.of_failed) fun _ => ?_
      exact Triple.pure fun row h => h

theorem triple_runPreVlmGate :
    UnitTriple env (HasStatus .running) (runPreVlmGate env) fun r row =>
      match r with
      | .inl o => HasStatus o.toStatus row
      | .inr _ => HasStatus .running row := by
  refine Triple.tryCatch (R := fun _ => HasStatus .running) ?_ fun e => ?_
  · refine Triple.bind (R := fun _ => HasStatus .running) ?_ fun _ =>
      Triple.pure fun row h => h
    unfold step
    split
    · exact Triple.pure fun row h => h
    · exact Triple.throw fun row h => h
  · split
    · refine Triple.bind ((triple_mark (s := .failed) (fun _ => rfl) (by decide)).weaken
        (fun _ => Escaped.of_running) (fun _ _ h => h) fun _ _ h => h) fun _ => ?_
      exact Triple.pure fun row h => h
    · exact Triple.throw fun row h => Escaped.of_running h

theorem triple_afterPublication :
    UnitTriple env (HasStatus .succeeded) (afterPublication env)
      fun o => HasStatus o.toStatus := by
  refine Triple.bind (triple_lateStep (o := .succeeded) (by decide)) fun _ => ?_
  refine Triple.bind (triple_lateStep (o := .succeeded) (by decide)) fun _ => ?_
  refine Triple.bind (triple_lateStep (o := .succeeded) (by decide)) fun _ => ?_
  exact Triple.pure fun row h => h

theorem triple_publishDetectorOnlyUnit :
    UnitTriple env (HasStatus .running) (publishDetectorOnlyUnit env)
      fun o => HasStatus o.toStatus := by
  refine Triple.bind (@triple_publish env _ _ _ env.recordIds (fun _ => rfl) (by simp))
    fun _ => triple_afterPublication

theorem triple_defaultSegmentGates :
    UnitTriple env (HasStatus .running) (defaultSegmentGates env) EarlyReturn := by
  refine Triple.bind triple_runPreVlmGate fun r => ?_
  rcases r with o | _ | _ | _
  · exact Triple.pure fun row h => h
  · cases env.detectorGate with
    | none => exact Triple.pure fun row h => h
    | some triggered =>
        refine Triple.bind (triple_step _ fun _ => Escaped.of_running) fun _ => ?_
        refine Triple.bind (triple_span _ fun _ => Escaped.of_running) fun _ => ?_
        refine Triple.bind (triple_log fun _ => Escaped.of_running) fun _ => ?_
        cases triggered
        · refine Triple.bind (triple_step _ fun _ => Escaped.of_running) fun _ => ?_
          exact Triple.bind triple_publishDetectorOnlyUnit fun o => Triple.pure fun row h => h
        · exact Triple.pure fun row h => h
  · refine Triple.bind (triple_step _ fun _ => Escaped.of_running) fun _ => ?_
    exact Triple.bind triple_publishDetectorOnlyUnit fun o => Triple.pure fun row h => h
  · exact Triple.pure fun row h => h

theorem triple_highFreqEventGates :
    UnitTriple env (HasStatus .running) (highFreqEventGates env) EarlyReturn := by
  refine Triple.bind triple_runPreVlmGate fun r => ?_
  rcases r with o | _ | _ | _
  · exact Triple.pure fun row h => h
  · exact Triple.pure fun row h => h
  · refine Triple.bind ((triple_terminalizeUnitSkipped _ _).weaken
      (fun _ => Escaped.of_running) (fun _ _ h => h) fun _ _ h => h) fun _ => ?_
    refine Triple.bind (triple_lateStep (o := .skipped) (by decide)) fun _ => ?_
    exact Triple.pure fun row h => h
  · exact Triple.pure fun row h => h

theorem UnitProcessor.triple_gates (p : UnitProcessor) :
    UnitTriple env (HasStatus .running) (p.gates env) EarlyReturn := by
  cases p
  · exact triple_defaultSegmentGates
  · exact triple_highFreqEventGates

theorem triple_preVlmPhase (p : UnitProcessor) :
    UnitTriple env (HasStatus .running) (preVlmPhase env (p.gates env)) EarlyReturn := by
  refine Triple.bind triple_framesStage fun r => ?_
  cases r with
  | some o => exact Triple.pure fun row h => h
  | none =>
      refine Triple.bind p.triple_gates fun r => ?_
      cases r with
      | some o => exact Triple.pure fun row h => h
      | none =>
          refine Triple.bind (triple_step _ fun _ => Escaped.of_running) fun _ => ?_
          exact Triple.pure fun row h => h

/-- An early return has its outcome in the row; otherwise the row is running. -/
def VlmReturn (r : UnitOutcome ⊕ ℕ) (row : Option UnitRow) : Prop :=
  match r with
  | .inl o => HasStatus o.toStatus row
  | .inr _ => HasStatus .running row

theorem triple_vlmStage : UnitTriple env (HasStatus .running) (vlmStage env) VlmReturn := by
  have hcall : UnitTriple env (HasStatus .running)
      (executeVlmWithRetry env.retryPolicy env.vlm (vlmCallbacks env))
      fun _ => HasStatus .running := by
    refine triple_executeVlmWithRetry (fun _ _ => Escaped.of_running) ?_ ?_ ?_
    · exact fun n => triple_step _ fun _ => Escaped.of_running
    · exact fun n => triple_step _ fun _ => Escaped.of_running
    · exact fun n e => Triple.bind (triple_log fun _ => Escaped.of_running) fun _ =>
        triple_step _ fun _ => Escaped.of_running
  refine Triple.bind hcall fun result => ?_
  split
  · refine Triple.bind ((triple_mark (s := .failed) (fun _ => rfl) (by decide)).weaken
      (fun _ => Escaped.of_running) (fun _ _ h => h) fun _ _ h => h) fun _ => ?_
    refine Triple.bind (triple_step _ fun _ => Escaped.of_failed) fun _ => ?_
    exact Triple.pure fun row h => h
  · refine Triple.bind (triple_step _ fun _ => Escaped.of_running) fun _ => ?_
    exact Triple.pure fun row h => h

theorem triple_beforePublication (p : UnitProcessor) :
    Triple (UnitGuar env) (HasStatus .running) (beforePublication env (p.gates env))
      VlmReturn fun _ => Escaped env := by
  refine Triple.bind (Triple.mapError (triple_preVlmPhase p)) fun r => ?_
  cases r with
  | some o => exact Triple.pure fun row h => h
  | none => exact Triple.mapError triple_vlmStage

/-- The outcome of a publication is the row's, unless the job row is missing. -/
theorem triple_publishStage (job : JobLookup) (attempts : ℕ) :
    UnitTriple env (HasStatus .running) (publishStage env job attempts) fun o row =>
      if job.atPublish = true then HasStatus o.toStatus row
      else HasStatus .running row ∧ o = .failed := by
  unfold publishStage
  dsimp only
  split
  · exact Triple.bind (@triple_publish env _ _ _ env.recordIds (fun _ => rfl) (by simp))
      fun _ => triple_afterPublication
  · refine Triple.bind (triple_log fun _ => Escaped.of_running) fun _ => ?_
    exact Triple.pure fun row h => ⟨h, rfl⟩

/-- The body of a running unit, where the job row is still there. -/
theorem triple_body (p : UnitProcessor) {job : JobLookup} (hjob : job.atPublish = true) :
    Triple (UnitGuar env) (HasStatus .running) (p.body env job)
      (fun o => HasStatus o.toStatus) fun _ => Escaped env := by
  refine Triple.bind (triple_beforePublication p) fun r => ?_
  cases r with
  | inl o => exact Triple.pure fun row h => h
  | inr attempts =>
      refine Triple.mapError ((triple_publishStage job attempts).weaken (fun _ h => h) ?_
        fun _ _ h => h)
      intro o row h
      rwa [if_pos hjob] at h

/-! ## The guard -/

/-- The exception left by the retries of transaction `w`. -/
def UnitEnv.faultOf (env : UnitEnv) (w : UnitWrite) : Option Exn :=
  lastFault env.terminalWriteMaxAttempts (env.writeFault w)

theorem exec_dbWriteUnit (w : UnitWrite) (f : UnitRow → UnitRow) (out : List Effect)
    (row : Option UnitRow) :
    Act.exec (dbWriteUnit env w f out) row = match env.faultOf w with
      | some e => (.error e, row)
      | none => (.ok (), row.map f) := by
  unfold dbWriteUnit UnitEnv.faultOf
  rw [exec_dbWrite fun e he => by cases he]
  rfl

/-- The row the guard writes for an escape in `phase`. -/
def forcedRow (env : UnitEnv) (phase : UnitPhase) (e : Exn) : UnitRow → UnitRow :=
  UnitRow.markFailed (env.now .forceTerminalize) .analysisUnitFailed
    (some ("lifecycle_guard:" ++ phase.name ++ ": " ++ clip 400 e.message))
    (some env.mcallId) none

theorem exec_guarded_ok {body : PhasedAct UnitOutcome} {row row' : Option UnitRow}
    {o : UnitOutcome} (h : Act.exec body row = (.ok o, row')) :
    Act.exec (guarded env body) row = (.ok o, row') := by
  rw [guarded, Act.exec_catching, h]

/-- Every escape ends as a failed outcome; the forced write is kept if it went through. -/
theorem exec_guarded_error {body : PhasedAct UnitOutcome} {row row' : Option UnitRow}
    {phase : UnitPhase} {e : Exn} (h : Act.exec body row = (.error (phase, e), row')) :
    Act.exec (guarded env body) row
      = (.ok .failed, if env.faultOf .forceTerminalize = none then row'.map (forcedRow env phase e)
          else row') := by
  rw [guarded, Act.exec_catching, h]
  show Act.exec (forceTerminalizeRunning env phase e >>= fun _ => pure UnitOutcome.failed) row' = _
  rw [Act.exec_bind, forceTerminalizeRunning, Act.exec_tryCatch, exec_dbWriteUnit]
  cases env.faultOf .forceTerminalize <;> rfl

/-- The row of a unit claimed for the first time. -/
def UnitEnv.firstRow (env : UnitEnv) : UnitRow :=
  (UnitRow.created env.windowIndex env.triggerId).markRunning (env.now .claim) (some env.mcallId)

theorem exec_claimUnit_none {job : JobLookup} (hjob : job.atClaim = true) :
    Act.exec (claimUnit env job) none = match env.writeFault .claim 1 with
      | some e => (.error e, none)
      | none => (.ok .running, some env.firstRow) := by
  rw [claimUnit, exec_attemptWrite, Act.exec_txn, hjob]
  rfl

/-! ## A whole unit -/

/-- A claim leaves a done row alone, and sets any other running. -/
theorem triple_claimUnit (job : JobLookup) :
    Triple (UnitGuar env) (fun _ => True) (claimUnit env job)
      (fun c row => c = .running → HasStatus .running row) fun _ _ => True := by
  apply Triple.txn
  · intro row c row' out _ h
    rcases hfault : env.writeFault .claim 1 with _ | e
    · simp only [hfault] at h
      split at h
      · rcases row with _ | r
        · cases h
          refine ⟨⟨fun _ hdone => ?_, fun hsucc => ?_⟩, fun _ => rfl⟩
          · rcases hdone with hd | hd <;> cases hd
          · cases hsucc
        · by_cases hdone : Done (some r)
          · -- succeeded or skipped: the row is kept
            have hstatus : r.status = .succeeded ∨ r.status = .skipped := by
              simpa [Done, HasStatus] using hdone
            rcases hstatus with hr | hr <;> simp only [Option.getD_some, hr] at h <;> cases h <;>
              exact ⟨UnitGuar.refl _, fun hc => by cases hc⟩
          · have hrunning : HasStatus .running row' ∧ c = .running := by
              rcases hr : r.status <;> simp only [Option.getD_some, hr] at h <;> cases h <;>
                first
                  | exact ⟨rfl, rfl⟩
                  | exact absurd (by simp [Done, HasStatus, hr]) hdone
            refine ⟨⟨fun _ hd => absurd hd hdone, fun hsucc => ?_⟩, fun _ => hrunning.1⟩
            cases hrunning.1.unique hsucc
      · cases h
        exact ⟨UnitGuar.refl _, fun hc => by cases hc⟩
    · rw [hfault] at h
      cases h
  · exact fun row e _ _ => ⟨UnitGuar.refl row, trivial⟩

theorem triple_guarded {body : PhasedAct UnitOutcome} {Q : UnitOutcome → Option UnitRow → Prop}
    (h : Triple (UnitGuar env) (HasStatus .running) body Q fun _ => Escaped env) :
    Triple (UnitGuar env) (HasStatus .running) (guarded env body) (fun _ _ => True)
      fun _ _ => True := by
  apply Triple.catching (h.weaken (fun _ hs => hs) (fun _ _ _ => trivial) fun _ _ he => he)
  intro escape
  apply Triple.bind (R := fun _ _ => True)
  · apply Triple.tryCatch (R := fun _ _ => True)
    · exact (triple_mark (s := .failed) (fun _ => rfl) (by decide)).weaken (fun _ hs => hs)
        (fun _ _ _ => trivial) fun _ _ _ => trivial
    · exact fun _ => Triple.pure fun _ _ => trivial
  · exact fun _ => Triple.pure fun _ _ => trivial

/-- A unit keeps to its guarantee from whatever row it finds. -/
theorem UnitProcessor.along_runUnit (p : UnitProcessor) (job : JobLookup) (row : Option UnitRow) :
    (ExceptT.run (p.runUnit env job)).Along (UnitGuar env) row := by
  have hbody : Triple (UnitGuar env) (HasStatus .running) (p.body env job) (fun _ _ => True)
      fun _ => Escaped env := by
    apply Triple.bind (triple_beforePublication p)
    rintro (o | attempts)
    · exact Triple.pure fun _ _ => trivial
    · exact Triple.mapError ((triple_publishStage job attempts).weaken (fun _ hs => hs)
        (fun _ _ _ => trivial) fun _ _ he => he)
  have hunit : Triple (UnitGuar env) (fun _ => True) (p.runUnit env job) (fun _ _ => True)
      fun _ _ => True := by
    apply Triple.bind (triple_claimUnit job)
    intro c
    cases c with
    | jobMissing => exact Triple.pure fun _ _ => trivial
    | alreadySucceeded => exact Triple.pure fun _ _ => trivial
    | alreadySkipped => exact Triple.pure fun _ _ => trivial
    | running =>
        apply Triple.bind (R := fun _ => HasStatus .running)
        · exact (triple_step .unitRunning fun _ => Escaped.of_running).weaken
            (fun _ hs => hs rfl) (fun _ _ hs => hs) fun _ _ _ => trivial
        · exact fun _ => triple_guarded hbody
  exact (hunit row trivial).1

/-! ## When the returned outcome is the stored one -/

theorem running_of_exec_claimUnit {job : JobLookup} {row row₁ : Option UnitRow}
    (h : Act.exec (claimUnit env job) row = (.ok .running, row₁)) : HasStatus .running row₁ := by
  rw [claimUnit, exec_attemptWrite] at h
  split at h
  · cases h
  · rw [Act.exec_txn] at h
    split at h
    · rename_i a row' out heq
      cases h
      split at heq
      · dsimp only at heq
        split at heq <;> cases heq
        rfl
      · cases heq
    · cases h

namespace UnitProcessor

variable (p : UnitProcessor) (env : UnitEnv) (job : JobLookup) (row₁ : Option UnitRow)

/-- The body of the running row `row₁` escapes to the guard, whose write fails. -/
def ForcedWriteFailed : Prop :=
  env.raises .unitRunning = none ∧ (∃ escape row', Act.exec (p.body env job) row₁
    = (.error escape, row')) ∧ env.faultOf .forceTerminalize ≠ none

/-- A unit run that ends with `r` is not stranded: its row stores an outcome
unless the forced write failed, and a stored outcome is the returned one. -/
def NotStranded (r : Except Exn UnitOutcome × Option UnitRow) : Prop :=
  (Terminal r.2 ∨ p.ForcedWriteFailed env job row₁) ∧
  ∀ o, r.1 = .ok o → Terminal r.2 → HasStatus o.toStatus r.2

/-- The unit gets to its publication and the job row is gone. -/
def JobMissedAtPublish : Prop :=
  (∃ n row', Act.exec (beforePublication env (p.gates env)) row₁ = (.ok (.inr n), row')) ∧
  job.atPublish = false ∧ env.faultOf .publish = none

/-- An exception follows the commit of a done status, and the forced write fails. -/
def DoneLost : Prop :=
  (∃ escape row', Act.exec (p.body env job) row₁ = (.error escape, row') ∧ Done row') ∧
  env.faultOf .forceTerminalize ≠ none

variable {p env job row₁}

theorem exec_publishStage_of_missing (hjob : job.atPublish = false) (n : ℕ)
    (row : Option UnitRow) :
    Act.exec (publishStage env job n) row = match env.faultOf .publish with
      | some e => (.error e, row)
      | none => (.ok .failed, row) := by
  unfold publishStage
  rw [hjob]
  show Act.exec (dbWriteUnit env .publish id [] >>= fun _ => pure UnitOutcome.failed) row = _
  rw [Act.exec_bind, exec_dbWriteUnit, Option.map_id]
  cases env.faultOf .publish <;> rfl

/-- A body that misses its job returns with the row still running. -/
theorem exec_body_of_missed (hrow : HasStatus .running row₁)
    (h : p.JobMissedAtPublish env job row₁) :
    ∃ row', Act.exec (p.body env job) row₁ = (.ok .failed, row') ∧ HasStatus .running row' := by
  obtain ⟨⟨n, row', hbefore⟩, hjob, hfault⟩ := h
  refine ⟨row', ?_, (triple_beforePublication p).ok hrow hbefore⟩
  rw [body, executeRunningUnit, Act.exec_bind_ok hbefore]
  show Act.exec (Act.mapError _ (publishStage env job n)) row' = _
  rw [Act.exec_mapError, exec_publishStage_of_missing hjob, hfault]

/-- A body that returns and did not miss its job has stored its outcome. -/
theorem hasStatus_of_exec_body (hrow : HasStatus .running row₁)
    (h : ¬ p.JobMissedAtPublish env job row₁) {o : UnitOutcome} {row' : Option UnitRow}
    (hexec : Act.exec (p.body env job) row₁ = (.ok o, row')) : HasStatus o.toStatus row' := by
  cases hjob : job.atPublish with
  | true => exact (triple_body p hjob).ok hrow hexec
  | false =>
      rcases hbefore : Act.exec (beforePublication env (p.gates env)) row₁
        with ⟨e | r, row₂⟩
      · rw [body, executeRunningUnit, Act.exec_bind_error hbefore] at hexec
        cases hexec
      · rw [body, executeRunningUnit, Act.exec_bind_ok hbefore] at hexec
        have hpost := (triple_beforePublication p).ok hrow hbefore
        cases r with
        | inl o' =>
            cases hexec
            exact hpost
        | inr n =>
            -- without the job row only a failing transaction leaves the publication
            replace hexec : Act.exec (Act.mapError (Prod.mk UnitPhase.postVlm)
              (publishStage env job n)) row₂ = (.ok o, row') := hexec
            rw [Act.exec_mapError, exec_publishStage_of_missing hjob] at hexec
            cases hfault : env.faultOf .publish with
            | none => exact absurd ⟨⟨n, row₂, hbefore⟩, hjob, hfault⟩ h
            | some e =>
                rw [hfault] at hexec
                cases hexec

/-- What an escaping body leaves. -/
theorem escaped_of_exec_body (hrow : HasStatus .running row₁) {escape : UnitPhase × Exn}
    {row' : Option UnitRow} (hexec : Act.exec (p.body env job) row₁ = (.error escape, row')) :
    Escaped env row' := by
  rcases hbefore : Act.exec (beforePublication env (p.gates env)) row₁ with ⟨e | r, row₂⟩
  · rw [body, executeRunningUnit, Act.exec_bind_error hbefore] at hexec
    cases hexec
    exact (triple_beforePublication p).error hrow hbefore
  · rw [body, executeRunningUnit, Act.exec_bind_ok hbefore] at hexec
    have hpost := (triple_beforePublication p).ok hrow hbefore
    cases r with
    | inl o => cases hexec
    | inr n =>
        have htriple : Triple (UnitGuar env) (VlmReturn (Sum.inr n))
            (Act.mapError (Prod.mk UnitPhase.postVlm) (publishStage env job n)) _
            fun _ => Escaped env := Triple.mapError (triple_publishStage job n)
        exact htriple.error hpost hexec

/-! ## A unit without a row -/

theorem exec_runUnit_unclaimed (hjob : job.atClaim = true) {e : Exn}
    (h : env.writeFault .claim 1 = some e) :
    Act.exec (p.runUnit env job) none = (.error e, none) := by
  have hclaim := @exec_claimUnit_none env job hjob
  rw [h] at hclaim
  rw [runUnit, runUnitInFreshSession, Act.exec_bind_error hclaim]

theorem exec_runUnit_claimed (hjob : job.atClaim = true) (h : env.writeFault .claim 1 = none) :
    Act.exec (p.runUnit env job) none = match env.raises .unitRunning with
      | some e => (.error e, some env.firstRow)
      | none => Act.exec (guarded env (p.body env job)) (some env.firstRow) := by
  have hclaim := @exec_claimUnit_none env job hjob
  rw [h] at hclaim
  rw [runUnit, runUnitInFreshSession, Act.exec_bind_ok hclaim]
  show Act.exec (step env .unitRunning >>= fun _ => guarded env (p.body env job)) _ = _
  rw [Act.exec_bind, step]
  cases env.raises .unitRunning <;> rfl

/-- A unit that was set running is stranded exactly when its `unit_running`
event raises, when its job row is gone at the publication, or when an exception
after a done status meets a forced write that fails. -/
theorem notStranded_iff {row : Option UnitRow}
    (hclaim : Act.exec (claimUnit env job) row = (.ok .running, row₁)) :
    p.NotStranded env job row₁ (Act.exec (p.runUnit env job) row) ↔
      env.raises .unitRunning = none ∧ ¬ p.JobMissedAtPublish env job row₁ ∧
        ¬ p.DoneLost env job row₁ := by
  have hrow := running_of_exec_claimUnit hclaim
  rw [runUnit, runUnitInFreshSession, Act.exec_bind_ok hclaim]
  show p.NotStranded env job row₁
    (Act.exec (step env .unitRunning >>= fun _ => guarded env (p.body env job)) row₁) ↔ _
  rw [Act.exec_bind, step]
  cases hevent : env.raises .unitRunning with
  | some e =>
      -- the exception passes the guard by: the row stays running
      refine iff_of_false (fun h => ?_) fun h => by cases h.1
      rcases h.1 with hterminal | hforced
      · exact hrow.not_terminal hterminal
      · rw [hforced.1] at hevent
        cases hevent
  | none =>
      show p.NotStranded env job row₁ (Act.exec (guarded env (p.body env job)) row₁) ↔ _
      rcases hbody : Act.exec (p.body env job) row₁ with ⟨⟨phase, e⟩ | o, row'⟩
      · rw [exec_guarded_error hbody]
        have hsome := (escaped_of_exec_body hrow hbody).isSome
        have hmissed : ¬ p.JobMissedAtPublish env job row₁ := by
          intro h
          obtain ⟨row'', hok, -⟩ := exec_body_of_missed hrow h
          rw [hbody] at hok
          cases hok
        by_cases hforced : env.faultOf .forceTerminalize = none
        · rw [if_pos hforced]
          have hfailed : HasStatus .failed (row'.map (forcedRow env phase e)) :=
            hasStatus_map (fun _ => rfl) hsome
          refine iff_of_true ⟨.inl ⟨.failed, hfailed⟩, ?_⟩
            ⟨rfl, hmissed, fun h => h.2 hforced⟩
          rintro o ⟨⟩ -
          exact hfailed
        · rw [if_neg hforced]
          constructor
          · rintro ⟨-, hout⟩
            refine ⟨rfl, hmissed, ?_⟩
            rintro ⟨⟨escape, row'', hbody', hdone⟩, -⟩
            rw [hbody] at hbody'
            cases hbody'
            have hterminal : Terminal row' := by
              rcases hdone with h | h
              · exact ⟨.succeeded, h⟩
              · exact ⟨.skipped, h⟩
            exact (hout .failed rfl hterminal).not_done (by decide) (by decide) hdone
          · rintro ⟨-, -, hlost⟩
            refine ⟨.inr ⟨hevent, ⟨_, _, hbody⟩, hforced⟩, ?_⟩
            rintro o ⟨⟩ hterminal
            rcases hterminal.done_or_failed with hdone | hfailed
            · exact absurd ⟨⟨_, _, hbody, hdone⟩, hforced⟩ hlost
            · exact hfailed
      · rw [exec_guarded_ok hbody]
        have hlost : ¬ p.DoneLost env job row₁ := by
          rintro ⟨⟨escape, row'', hbody', -⟩, -⟩
          rw [hbody] at hbody'
          cases hbody'
        by_cases hmissed : p.JobMissedAtPublish env job row₁
        · refine iff_of_false (fun h => ?_) fun h => h.2.1 hmissed
          obtain ⟨row'', hok, hrunning⟩ := exec_body_of_missed hrow hmissed
          rw [hbody] at hok
          cases hok
          rcases h.1 with hterminal | ⟨-, ⟨escape, row'', hescape⟩, -⟩
          · exact hrunning.not_terminal hterminal
          · rw [hbody] at hescape
            cases hescape
        · have hstored := hasStatus_of_exec_body hrow hmissed hbody
          refine iff_of_true ⟨.inl ⟨o, hstored⟩, ?_⟩ ⟨rfl, hmissed, hlost⟩
          rintro o' ⟨⟩ -
          exact hstored

theorem notStranded_smooth :
    defaultSegment.NotStranded UnitEnv.smooth ⟨true, true⟩ (some UnitEnv.smooth.firstRow)
      (Act.exec (defaultSegment.runUnit UnitEnv.smooth ⟨true, true⟩) none) := by
  have hclaim : Act.exec (claimUnit UnitEnv.smooth ⟨true, true⟩) none
      = (.ok .running, some UnitEnv.smooth.firstRow) := exec_claimUnit_none rfl
  refine (notStranded_iff (p := defaultSegment) hclaim).mpr ⟨rfl, ?_, ?_⟩
  · rintro ⟨-, hjob, -⟩
    cases hjob
  · rintro ⟨-, hforced⟩
    exact hforced rfl

/-- A recorder that is not fail-open strands a unit: `unit_running` is recorded
after the row is set running and before the guard. -/
theorem stranded_by_timeline :
    ¬ ∀ (p : UnitProcessor) (env : UnitEnv) (job : JobLookup) (row row₁ : Option UnitRow),
      Act.exec (claimUnit env job) row = (.ok .running, row₁) →
      p.NotStranded env job row₁ (Act.exec (p.runUnit env job) row) := by
  intro h
  let env := UnitEnv.raisingAt .unitRunning timelineLocked
  have hclaim : Act.exec (claimUnit env ⟨true, true⟩) none
      = (.ok .running, some env.firstRow) := exec_claimUnit_none rfl
  have hend : Act.exec (highFreqEvent.runUnit env ⟨true, true⟩) none
      = (.error timelineLocked, some env.firstRow) := by
    rw [runUnit, runUnitInFreshSession, Act.exec_bind_ok hclaim]
    rfl
  have hstranded := (h .highFreqEvent env ⟨true, true⟩ none _ hclaim).1
  rw [hend] at hstranded
  rcases hstranded with hterminal | hforced
  · exact @HasStatus.not_terminal (some env.firstRow) (by decide) hterminal
  · cases hforced.1

end UnitProcessor

end CctvMemory.Worker
