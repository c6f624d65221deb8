import CctvMemory.Worker.UnitSpec

/-!
# The moves of a unit row

What each transaction of a unit may make of its row, from whatever row it finds.

* `each_runUnit`: every transaction of a unit is a `RowMove`.
-/

namespace CctvMemory.Worker

open Act (Each)

variable {env : UnitEnv}

/-- The status of the row stays, becomes running, failed or skipped, or becomes
succeeded in a transaction that publishes. -/
def RowMove (row : Option UnitRow) (next : Option UnitRow × List Effect) : Prop :=
  ∀ s, HasStatus s next.1 → HasStatus s row ∨ s = .running ∨ s = .failed ∨ s = .skipped ∨
    s = .succeeded ∧ ∃ ids, Effect.published ids ∈ next.2

theorem RowMove.same (row : Option UnitRow) (out : List Effect) : RowMove row (row, out) :=
  fun _ => Or.inl

theorem HasStatus.of_map {s t : TaskStatus} {f : UnitRow → UnitRow} {row : Option UnitRow}
    (hf : ∀ r, (f r).status = s) (h : HasStatus t (row.map f)) : s = t := by
  rcases row with _ | r
  · cases h
  · exact (hf r).symm.trans (Option.some.inj h)

theorem each_step (s : UnitStep) : Each RowMove (step env s) := by
  unfold step
  split
  · exact Each.pure _
  · exact Each.throw _

theorem each_span (place : SpanStep → UnitStep) : Each RowMove (span env place) := by
  apply Each.bind (each_step _)
  intro _
  apply Each.bind
  · apply Each.tryCatch (each_step _)
    exact fun e => Each.bind (each_step _) fun _ => Each.throw e
  · exact fun _ => each_step _

/-- A write that fails or skips the unit. -/
theorem each_mark {s : TaskStatus} {w : UnitWrite} {f : UnitRow → UnitRow} {out : List Effect}
    (hf : ∀ r, (f r).status = s) (hs : s = .failed ∨ s = .skipped) :
    Each RowMove (dbWriteUnit env w f out) := by
  apply each_dbWrite fun row => RowMove.same row []
  intro row _ row' out' h t ht
  cases h
  rw [← HasStatus.of_map hf ht]
  rcases hs with rfl | rfl
  · exact Or.inr (Or.inr (Or.inl rfl))
  · exact Or.inr (Or.inr (Or.inr (Or.inl rfl)))

theorem each_publish {w : UnitWrite} {f : UnitRow → UnitRow} {out : List Effect}
    {ids : List String} (hf : ∀ r, (f r).status = .succeeded) (hout : .published ids ∈ out) :
    Each RowMove (dbWriteUnit env w f out) := by
  apply each_dbWrite fun row => RowMove.same row []
  intro row _ row' out' h t ht
  cases h
  rw [← HasStatus.of_map hf ht]
  exact Or.inr (Or.inr (Or.inr (Or.inr ⟨rfl, ids, hout⟩)))

theorem each_log {w : UnitWrite} {out : List Effect} :
    Each RowMove (dbWriteUnit env w id out) := by
  apply each_dbWrite fun row => RowMove.same row []
  intro row _ row' out' h
  cases h
  rw [Option.map_id]
  exact RowMove.same row out

theorem each_terminalizeUnitSkipped (w : UnitWrite) (reason : ErrorCode) :
    Each RowMove (terminalizeUnitSkipped env w reason) :=
  each_mark (fun _ => rfl) (by decide)

theorem each_framesStage : Each RowMove (framesStage env) := by
  apply Each.tryCatch
  · apply Each.bind (each_span _)
    intro _
    split
    · apply Each.bind (each_terminalizeUnitSkipped _ _)
      exact fun _ => Each.bind (each_step _) fun _ => Each.pure _
    · exact Each.bind (each_span _) fun _ => Each.pure _
  · intro e
    split
    · apply Each.bind (each_terminalizeUnitSkipped _ _)
      exact fun _ => Each.bind (each_step _) fun _ => Each.pure _
    · apply Each.bind (each_mark (s := .failed) (fun _ => rfl) (by decide))
      exact fun _ => Each.bind (each_step _) fun _ => Each.pure _

theorem each_runPreVlmGate : Each RowMove (runPreVlmGate env) := by
  apply Each.tryCatch
  · exact Each.bind (each_step _) fun _ => Each.pure _
  · intro e
    split
    · apply Each.bind (each_mark (s := .failed) (fun _ => rfl) (by decide))
      exact fun _ => Each.pure _
    · exact Each.throw e

theorem each_afterPublication : Each RowMove (afterPublication env) := by
  apply Each.bind (each_step _)
  intro _
  apply Each.bind (each_step _)
  exact fun _ => Each.bind (each_step _) fun _ => Each.pure _

theorem each_publishDetectorOnlyUnit : Each RowMove (publishDetectorOnlyUnit env) :=
  Each.bind (@each_publish env _ _ _ env.recordIds (fun _ => rfl) (by simp))
    fun _ => each_afterPublication

theorem each_defaultSegmentGates : Each RowMove (defaultSegmentGates env) := by
  apply Each.bind each_runPreVlmGate
  rintro (o | _ | _ | _)
  · exact Each.pure _
  · cases env.detectorGate with
    | none => exact Each.pure _
    | some triggered =>
        apply Each.bind (each_step _)
        intro _
        apply Each.bind (each_span _)
        intro _
        apply Each.bind each_log
        intro _
        cases triggered
        · apply Each.bind (each_step _)
          exact fun _ => Each.bind each_publishDetectorOnlyUnit fun _ => Each.pure _
        · exact Each.pure _
  · apply Each.bind (each_step _)
    exact fun _ => Each.bind each_publishDetectorOnlyUnit fun _ => Each.pure _
  · exact Each.pure _

theorem each_highFreqEventGates : Each RowMove (highFreqEventGates env) := by
  apply Each.bind each_runPreVlmGate
  rintro (o | _ | _ | _)
  · exact Each.pure _
  · exact Each.pure _
  · apply Each.bind (each_terminalizeUnitSkipped _ _)
    exact fun _ => Each.bind (each_step _) fun _ => Each.pure _
  · exact Each.pure _

theorem each_preVlmPhase (p : UnitProcessor) :
    Each RowMove (preVlmPhase env (p.gates env)) := by
  apply Each.bind each_framesStage
  rintro (_ | o)
  · apply Each.bind
    · cases p
      · exact each_defaultSegmentGates
      · exact each_highFreqEventGates
    · rintro (_ | o)
      · exact Each.bind (each_step _) fun _ => Each.pure _
      · exact Each.pure _
  · exact Each.pure _

theorem each_vlmStage : Each RowMove (vlmStage env) := by
  apply Each.bind
  · apply each_executeVlmWithRetry
    · exact fun n => each_step _
    · exact fun n => each_step _
    · exact fun n e => Each.bind each_log fun _ => each_step _
  · intro result
    split
    · apply Each.bind (each_mark (s := .failed) (fun _ => rfl) (by decide))
      exact fun _ => Each.bind (each_step _) fun _ => Each.pure _
    · exact Each.bind (each_step _) fun _ => Each.pure _

theorem each_publishStage (job : JobLookup) (attempts : ℕ) :
    Each RowMove (publishStage env job attempts) := by
  unfold publishStage
  dsimp only
  split
  · exact Each.bind (@each_publish env _ _ _ env.recordIds (fun _ => rfl) (by simp))
      fun _ => each_afterPublication
  · exact Each.bind each_log fun _ => Each.pure _

theorem each_body (p : UnitProcessor) (job : JobLookup) :
    Each RowMove (p.body env job) := by
  apply Each.bind
  · apply Each.bind (Each.mapError (each_preVlmPhase p))
    rintro (_ | o)
    · exact Each.mapError each_vlmStage
    · exact Each.pure _
  · rintro (o | attempts)
    · exact Each.pure _
    · exact Each.mapError (each_publishStage job attempts)

theorem each_guarded {body : PhasedAct UnitOutcome} (h : Each RowMove body) :
    Each RowMove (guarded env body) := by
  apply Each.catching h
  intro escape
  apply Each.bind
  · apply Each.tryCatch (each_mark (s := .failed) (fun _ => rfl) (by decide))
    exact fun _ => Each.pure _
  · exact fun _ => Each.pure _

/-- A claim sets a row running, or leaves one that is succeeded or skipped. -/
theorem each_claimUnit (job : JobLookup) : Each RowMove (claimUnit env job) := by
  apply each_attemptWrite fun row => RowMove.same row []
  intro row c row' out h s hs
  split at h
  · rcases row with _ | r
    · cases h
      exact Or.inr (Or.inl (hs.unique rfl))
    · dsimp only [Option.getD_some] at h
      split at h
      · cases h
        exact Or.inl hs
      · cases h
        exact Or.inl hs
      · cases h
        exact Or.inr (Or.inl (hs.unique rfl))
  · cases h
    exact Or.inl hs

/-- Whatever others do between its transactions. -/
theorem each_runUnit (p : UnitProcessor) (job : JobLookup) :
    Each RowMove (p.runUnit env job) := by
  apply Each.bind (each_claimUnit job)
  intro c
  cases c with
  | jobMissing => exact Each.pure _
  | alreadySucceeded => exact Each.pure _
  | alreadySkipped => exact Each.pure _
  | running => exact Each.bind (each_step _) fun _ => each_guarded (each_body p job)

end CctvMemory.Worker
