import CctvMemory.Library.Record
import CctvMemory.Worker.UnitSpec
import CctvMemory.Worker.VlmRetry

/-!
# The audit trail of model calls

The `ModelCallLog` rows that one run of a `default_segment` unit writes: a
failed row from the callback of each failed attempt, a succeeded one with the
publication. Their ids are new ones but for the first, which has the id the
unit was claimed with; the table has them as its primary key.

* `CallsMade`: what the retry loop keeps of the rows it has written.
* `Audited`: rows and unit row tell the same story, at the end of a run.
-/

namespace CctvMemory.Worker

open Act (Recorded record)

/-! ## What is asked of the rows -/

/-- The rows of a run, in the order it wrote them. -/
def modelCalls (out : List Effect) : List ModelCallLog :=
  out.filterMap fun
    | .modelCall log => some log
    | _ => none

@[simp] theorem modelCalls_append (out out' : List Effect) :
    modelCalls (out ++ out') = modelCalls out ++ modelCalls out' :=
  List.filterMap_append

structure Audited (logs : List ModelCallLog) (unit : UnitRow) : Prop where
  numbered : logs.map ModelCallLog.attemptCount = List.range' 1 logs.length
  failed : ∀ log ∈ logs.dropLast, log.succeeded = false
  last : ∃ log, logs.getLast? = some log ∧ (log.succeeded = true ↔ unit.status = .succeeded)
  ids : (logs.map ModelCallLog.modelCallId).Nodup
  count : unit.attemptCount = logs.length
  latest : ∃ log ∈ logs, unit.latestModelCallId = some log.modelCallId

/-- No row is the lifecycle guard's. -/
def Unguarded (logs : List ModelCallLog) : Prop :=
  ∀ log ∈ logs, ∀ phase cls, log.errorType ≠ some (.lifecycleGuard phase cls)

/-- The id of the row of attempt `n`. -/
def UnitEnv.attemptId (env : UnitEnv) (n : ℕ) : String :=
  if n = 1 then env.mcallId else env.freshMcallId n

/-- An earlier attempt has drawn the same id. -/
def UnitEnv.IdTaken (env : UnitEnv) (n : ℕ) : Prop :=
  ∃ k, 1 ≤ k ∧ k < n ∧ env.attemptId k = env.attemptId n

/-- `model_call_id` is a primary key: the database refuses a row whose id an
earlier row of the run has. -/
structure UnitEnv.KeepsKeys (env : UnitEnv) (job : JobLookup) : Prop where
  attemptLog : ∀ n, env.IdTaken n → ∀ m, env.writeFault (.attemptLog n) m ≠ none
  publish : job.atPublish = true →
    ∀ n, (∃ row row', Act.exec (vlmStage env) row = (.ok (.inr n), row')) →
      env.IdTaken n → ∀ m, env.writeFault .publish m ≠ none

/-- The run claims its unit and gets to the VLM call. -/
def ReachesVlm (env : UnitEnv) (job : JobLookup) (row : Option UnitRow) : Prop :=
  ∃ row₁ row₂, Act.exec (claimUnit env job) row = (.ok .running, row₁) ∧
    env.raises .unitRunning = none ∧
    Act.exec (preVlmPhase env (UnitProcessor.defaultSegment.gates env)) row₁ = (.ok none, row₂)

/-- A run through the VLM stage leaves an outcome in the row, and the lifecycle
guard has not written it. -/
structure EndsNormally (env : UnitEnv) (job : JobLookup) (row : Option UnitRow)
    (unit : UnitRow) : Prop where
  reached : ReachesVlm env job row
  stored : (Act.exec (UnitProcessor.defaultSegment.runUnit env job) row).2 = some unit
  terminal : Terminal (some unit)
  unguarded : Unguarded (modelCalls (record (UnitProcessor.defaultSegment.runUnit env job) row))

/-! ## The rows of the attempts so far -/

/-- What the audit reads of a row. -/
def ModelCallLog.entry (log : ModelCallLog) : ℕ × String × Bool :=
  (log.attemptCount, log.modelCallId, log.succeeded)

variable {env : UnitEnv} {job : JobLookup}

/-- The rows of the first `n` attempts, all failed but the last where it is `ok`. -/
structure CallsMade (env : UnitEnv) (n : ℕ) (ok : Bool) (logs : List ModelCallLog) : Prop where
  entries : logs.map ModelCallLog.entry
    = (List.range' 1 n).map fun k => (k, env.attemptId k, ok && decide (k = n))
  ids : ((List.range' 1 n).map env.attemptId).Nodup

theorem callsMade_nil : CallsMade env 0 false [] := ⟨rfl, List.nodup_nil⟩

theorem CallsMade.length {n : ℕ} {ok : Bool} {logs : List ModelCallLog}
    (h : CallsMade env n ok logs) : logs.length = n := by
  have hlen := congrArg List.length h.entries
  rwa [List.length_map, List.length_map, List.length_range'] at hlen

/-- The row of the next attempt, whose id is new. -/
theorem CallsMade.snoc {n : ℕ} {ok : Bool} {logs : List ModelCallLog} {log : ModelCallLog}
    (h : CallsMade env n false logs) (hid : ¬ env.IdTaken (n + 1))
    (hlog : log.entry = (n + 1, env.attemptId (n + 1), ok)) :
    CallsMade env (n + 1) ok (logs ++ [log]) := by
  have hrange : List.range' 1 (n + 1) = List.range' 1 n ++ [n + 1] := by
    rw [List.range'_1_concat, Nat.add_comm 1 n]
  constructor
  · rw [hrange, List.map_append, List.map_append, h.entries]
    congr 1
    · apply List.map_congr_left
      intro k hk
      have hlt : k < 1 + n := (List.mem_range'_1.mp hk).2
      have hne : ¬ k = n + 1 := by omega
      simp [hne]
    · simp [hlog]
  · rw [hrange, List.map_append, List.nodup_append]
    refine ⟨h.ids, by simp, ?_⟩
    intro id hold id' hnew heq
    obtain ⟨k, hk, rfl⟩ := List.mem_map.mp hold
    have hbounds := List.mem_range'_1.mp hk
    rw [List.map_singleton, List.mem_singleton] at hnew
    exact hid ⟨k, hbounds.1, by omega, heq.trans hnew⟩

/-- The last row, and the failed ones before it. -/
theorem CallsMade.split {n : ℕ} {ok : Bool} {logs : List ModelCallLog}
    (h : CallsMade env (n + 1) ok logs) : ∃ before log, logs = before ++ [log] ∧
      (∀ log ∈ before, log.succeeded = false) ∧ log.succeeded = ok := by
  have hrange : List.range' 1 (n + 1) = List.range' 1 n ++ [n + 1] := by
    rw [List.range'_1_concat, Nat.add_comm 1 n]
  have hentries := h.entries
  rw [hrange, List.map_append, List.map_eq_append_iff] at hentries
  obtain ⟨before, rest, rfl, hbefore, hrest⟩ := hentries
  rw [List.map_singleton, List.map_eq_singleton_iff] at hrest
  obtain ⟨log, rfl, hlog⟩ := hrest
  refine ⟨before, log, rfl, fun l hl => ?_, ?_⟩
  · have hentry : l.entry ∈ before.map ModelCallLog.entry := List.mem_map_of_mem hl
    rw [hbefore] at hentry
    obtain ⟨k, hk, heq⟩ := List.mem_map.mp hentry
    have hlt : k < 1 + n := (List.mem_range'_1.mp hk).2
    have hne : ¬ k = n + 1 := by omega
    have hsucceeded : l.succeeded = (ok && decide (k = n + 1)) := congrArg (·.2.2) heq.symm
    rw [hsucceeded, decide_eq_false hne, Bool.and_false]
  · have hsucceeded : log.succeeded = (ok && decide (n + 1 = n + 1)) := congrArg (·.2.2) hlog
    rw [hsucceeded, decide_eq_true rfl, Bool.and_true]

theorem CallsMade.audited {n : ℕ} {ok : Bool} {logs : List ModelCallLog} {unit : UnitRow}
    (h : CallsMade env (n + 1) ok logs) (hcount : unit.attemptCount = n + 1)
    (hstatus : ok = true ↔ unit.status = .succeeded)
    (hlatest : ∃ k, 1 ≤ k ∧ k ≤ n + 1 ∧ unit.latestModelCallId = some (env.attemptId k)) :
    Audited logs unit := by
  have hnumbers : logs.map ModelCallLog.attemptCount = List.range' 1 (n + 1) := by
    have hfst := congrArg (List.map Prod.fst) h.entries
    rw [List.map_map, List.map_map] at hfst
    exact hfst.trans (List.map_id _)
  have hids : logs.map ModelCallLog.modelCallId = (List.range' 1 (n + 1)).map env.attemptId := by
    have hsnd := congrArg (List.map (·.2.1)) h.entries
    rwa [List.map_map, List.map_map] at hsnd
  obtain ⟨before, log, hsplit, hbefore, hlog⟩ := h.split
  refine ⟨?_, ?_, ⟨log, ?_, ?_⟩, ?_, ?_, ?_⟩
  · rw [h.length]
    exact hnumbers
  · rw [hsplit, List.dropLast_concat]
    exact hbefore
  · rw [hsplit]
    exact List.getLast?_concat
  · rw [hlog]
    exact hstatus
  · rw [hids]
    exact h.ids
  · rw [h.length]
    exact hcount
  · obtain ⟨k, hpos, hle, hlatest⟩ := hlatest
    have hk : env.attemptId k ∈ logs.map ModelCallLog.modelCallId := by
      rw [hids]
      exact List.mem_map_of_mem (List.mem_range'_1.mpr ⟨hpos, by omega⟩)
    obtain ⟨l, hl, hid⟩ := List.mem_map.mp hk
    exact ⟨l, hl, by rw [hlatest, hid]⟩

/-! ## Writes and steps -/

section Rules

variable {P : Option UnitRow → List Effect → Prop} {E : Exn → Option UnitRow → List Effect → Prop}

theorem lastFault_ne_none {fault : ℕ → Option Exn} (h : ∀ n, fault n ≠ none) (maxAttempts : ℕ) :
    lastFault maxAttempts fault ≠ none := by
  cases maxAttempts with
  | zero => exact Option.some_ne_none _
  | succ left =>
      show faultFrom fault left 1 ≠ none
      generalize 1 = attempt
      induction left generalizing attempt with
      | zero => exact h attempt
      | succ left ih =>
          obtain ⟨e, he⟩ := Option.ne_none_iff_exists'.mp (h attempt)
          rw [faultFrom, he]
          dsimp only
          split
          · exact ih (attempt + 1)
          · exact Option.some_ne_none _

/-- A write that is not given up emits what its body emits, once. -/
theorem record_dbWrite {σ ω α : Type} {maxAttempts : ℕ} {fault : ℕ → Option Exn}
    {write : σ → Except Exn (α × σ × List ω)} {s : σ}
    (hwrite : ∀ e, write s = .error e → isTransientDbError e = false) :
    record (dbWrite maxAttempts fault write) s = match lastFault maxAttempts fault with
      | some _ => []
      | none => record (Act.txn write) s := by
  have hattempt : ∀ f : Option Exn, record (attemptWrite f write) s = match f with
      | some _ => []
      | none => record (Act.txn write) s := by
    intro f
    cases f <;> rfl
  cases maxAttempts with
  | zero => rfl
  | succ left =>
      show record (dbWriteLoop fault write left 1) s = match faultFrom fault left 1 with
        | some _ => []
        | none => record (Act.txn write) s
      generalize 1 = attempt
      induction left generalizing attempt with
      | zero => exact hattempt (fault attempt)
      | succ left ih =>
          rw [dbWriteLoop, Act.tryCatch_eq_catching, Act.record_catching, hattempt,
            exec_attemptWrite, faultFrom]
          rcases hf : fault attempt with _ | e
          · rw [Act.exec_txn]
            rcases hw : write s with e | r
            · simp only [hwrite e hw, Bool.false_eq_true, if_false]
              exact List.append_nil _
            · exact List.append_nil _
          · dsimp only
            by_cases he : isTransientDbError e = true
            · rw [if_pos he, if_pos he, List.nil_append]
              exact ih (attempt + 1)
            · rw [if_neg he, if_neg he]
              rfl

theorem recorded_dbWriteUnit {Q : Unit → Option UnitRow → List Effect → Prop} {w : UnitWrite}
    {f : UnitRow → UnitRow} {out' : List Effect}
    (hok : env.faultOf w = none → ∀ row out, P row out → Q () (row.map f) (out ++ out'))
    (herr : ∀ e row out, P row out → E e row out) :
    Recorded P (dbWriteUnit env w f out') Q E := by
  intro row out h
  have hrecord : record (dbWriteUnit env w f out') row = match env.faultOf w with
      | some _ => []
      | none => out' := by
    unfold dbWriteUnit UnitEnv.faultOf
    rw [record_dbWrite (fun e he => by cases he), Act.record_txn]
  rw [exec_dbWriteUnit, hrecord]
  cases hfault : env.faultOf w with
  | some e =>
      rw [List.append_nil]
      exact herr e row out h
  | none => exact hok hfault row out h

theorem recorded_step (s : UnitStep) (hE : ∀ e row out, P row out → E e row out) :
    Recorded P (step env s) (fun _ => P) E := by
  unfold step
  split
  · exact Recorded.pure fun _ _ h => h
  · exact Recorded.throw fun row out h => hE _ row out h

end Rules

/-! ## Before the VLM call -/

abbrev Silent (_ : Option UnitRow) (out : List Effect) : Prop := modelCalls out = []

/-- Going on has written no row; what an early return has written is left open. -/
abbrev SilentIf (goesOn : Prop) (_ : Option UnitRow) (out : List Effect) : Prop :=
  goesOn → modelCalls out = []

abbrev Anything (_ : Exn) (_ : Option UnitRow) (_ : List Effect) : Prop := True

theorem silent_step (s : UnitStep) : Recorded Silent (step env s) (fun _ => Silent) Anything :=
  recorded_step s fun _ _ _ _ => trivial

theorem silent_span (place : SpanStep → UnitStep) :
    Recorded Silent (span env place) (fun _ => Silent) Anything := by
  apply Recorded.bind (silent_step _)
  intro _
  apply Recorded.bind (R := fun _ => Silent)
  · apply Recorded.tryCatch (R := fun _ => Silent)
    · exact recorded_step _ fun _ _ _ h => h
    · intro e
      apply Recorded.bind (silent_step _)
      exact fun _ => Recorded.throw fun _ _ _ => trivial
  · exact fun _ => silent_step _

theorem silent_framesStage :
    Recorded Silent (framesStage env) (fun r => SilentIf (r = none)) Anything := by
  apply Recorded.tryCatch (R := Anything)
  · apply Recorded.bind (silent_span _)
    intro _
    split
    · apply Recorded.bind Recorded.anything
      intro _
      apply Recorded.bind Recorded.anything
      exact fun _ => Recorded.pure fun _ _ _ h => by cases h
    · apply Recorded.bind (silent_span _)
      exact fun _ => Recorded.pure fun _ _ h _ => h
  · intro e
    split
    · apply Recorded.bind Recorded.anything
      intro _
      apply Recorded.bind Recorded.anything
      exact fun _ => Recorded.pure fun _ _ _ h => by cases h
    · apply Recorded.bind Recorded.anything
      intro _
      apply Recorded.bind Recorded.anything
      exact fun _ => Recorded.pure fun _ _ _ h => by cases h

theorem silent_runPreVlmGate :
    Recorded Silent (runPreVlmGate env) (fun r => SilentIf (∃ g, r = .inr g)) Anything := by
  apply Recorded.tryCatch (R := Anything)
  · apply Recorded.bind (silent_step _)
    exact fun _ => Recorded.pure fun _ _ h _ => h
  · intro e
    split
    · apply Recorded.bind Recorded.anything
      exact fun _ => Recorded.pure fun _ _ _ h => by obtain ⟨g, hg⟩ := h; cases hg
    · exact Recorded.throw fun _ _ _ => trivial

theorem silent_defaultSegmentGates :
    Recorded Silent (defaultSegmentGates env) (fun r => SilentIf (r = none)) Anything := by
  apply Recorded.bind silent_runPreVlmGate
  rintro (o | gate)
  · exact Recorded.pure fun _ _ _ h => by cases h
  · have hgate : ∀ row out, SilentIf (∃ g, (Sum.inr gate : UnitOutcome ⊕ Option Bool) = .inr g)
        row out → Silent row out := fun _ _ h => h ⟨gate, rfl⟩
    rcases gate with _ | _ | _
    · cases env.detectorGate with
      | none => exact Recorded.pure fun row out h _ => hgate row out h
      | some triggered =>
          apply Recorded.bind (recorded_step _ fun _ _ _ _ => trivial)
          intro _
          apply Recorded.bind ((silent_span _).weaken hgate (fun _ _ _ h => h) fun _ _ _ h => h)
          intro _
          apply Recorded.bind (R := fun _ => Silent)
          · apply recorded_dbWriteUnit
            · intro _ row out h
              exact (modelCalls_append out _).trans (by rw [h]; rfl)
            · exact fun _ _ _ _ => trivial
          · intro _
            cases triggered
            · apply Recorded.bind Recorded.anything
              intro _
              apply Recorded.bind Recorded.anything
              exact fun _ => Recorded.pure fun _ _ _ h => by cases h
            · exact Recorded.pure fun _ _ h _ => h
    · apply Recorded.bind Recorded.anything
      intro _
      apply Recorded.bind Recorded.anything
      exact fun _ => Recorded.pure fun _ _ _ h => by cases h
    · exact Recorded.pure fun row out h _ => hgate row out h

/-- A run that gets to the VLM call has written no row before it. -/
theorem silent_preVlmPhase :
    Recorded Silent (preVlmPhase env (UnitProcessor.defaultSegment.gates env))
      (fun r => SilentIf (r = none)) Anything := by
  apply Recorded.bind silent_framesStage
  rintro (_ | o)
  · apply Recorded.bind (silent_defaultSegmentGates.weaken (fun _ _ h => h rfl)
      (fun _ _ _ h => h) fun _ _ _ h => h)
    rintro (_ | o)
    · apply Recorded.bind ((silent_step _).weaken (fun _ _ h => h rfl) (fun _ _ _ h => h)
        fun _ _ _ h => h)
      exact fun _ => Recorded.pure fun _ _ h _ => h
    · exact Recorded.pure fun _ _ _ h => by cases h
  · exact Recorded.pure fun _ _ _ h => by cases h

theorem silent_claimUnit :
    Recorded Silent (claimUnit env job) (fun _ => Silent) Anything := by
  intro row out h
  have hrecord : record (claimUnit env job) row = [] := by
    unfold claimUnit attemptWrite
    rw [Act.record_txn]
    cases env.writeFault .claim 1 with
    | some e => rfl
    | none =>
        dsimp only
        cases job.atClaim with
        | false => rfl
        | true =>
            cases h : (row.getD (UnitRow.created env.windowIndex env.triggerId)).status <;> rfl
  rw [hrecord, List.append_nil]
  rcases Act.exec (claimUnit env job) row with ⟨e | c, row'⟩
  · exact trivial
  · exact h

/-! ## The VLM stage -/

/-- What the row stores is audited. -/
def StoredAudited (row : Option UnitRow) (out : List Effect) : Prop :=
  ∀ unit, row = some unit → Terminal row → Audited (modelCalls out) unit

theorem storedAudited_of_running {row : Option UnitRow} {out : List Effect}
    (h : HasStatus .running row) : StoredAudited row out :=
  fun _ _ hterminal => absurd hterminal h.not_terminal

/-- A running row, and the rows of `n` failed attempts. -/
def FailedSoFar (env : UnitEnv) (n : ℕ) (row : Option UnitRow) (out : List Effect) : Prop :=
  HasStatus .running row ∧ CallsMade env n false (modelCalls out)

/-- The rows of a finished retry loop: all but the call that returned have one. -/
def CallsReturned (env : UnitEnv) (r : VlmRetryResult) (row : Option UnitRow)
    (out : List Effect) : Prop :=
  ∃ n, r.attempts = n + 1 ∧ FailedSoFar env (if r.error.isSome then n + 1 else n) row out

/-- The callbacks of the retry loop: `I n` is what they keep after `n` failed
attempts. The return after the loop is never reached. -/
theorem recorded_executeVlmWithRetry {σ ω : Type} {I : ℕ → σ → List ω → Prop}
    {E : Exn → σ → List ω → Prop} {policy : RetryPolicy} {vlm : ℕ → Bool → Option Exn}
    {cb : VlmCallbacks σ ω} (hE : ∀ n e s out, I n s out → E e s out)
    (hstarted : ∀ n, Recorded (I n) (cb.onAttemptStarted (n + 1)) (fun _ => I n) E)
    (hsucceeded : ∀ n, Recorded (I n) (cb.onAttemptSucceeded (n + 1)) (fun _ => I n) E)
    (hfailed : ∀ n e, Recorded (I n) (cb.onAttemptFailed (n + 1) e) (fun _ => I (n + 1)) E) :
    Recorded (I 0) (executeVlmWithRetry policy vlm cb)
      (fun r s out => ∃ n, r.attempts = n + 1 ∧ I (if r.error.isSome then n + 1 else n) s out)
      E := by
  have hloop : ∀ left done failures last, VlmRetry.WithinBudgets policy done failures →
      left + done = policy.maxAttempts + policy.schemaRegenerateMaxAttempts →
      Recorded (I done) (vlmLoop policy vlm cb left (done + 1) failures last)
        (fun r s out => ∃ n, r.attempts = n + 1 ∧
          I (if r.error.isSome then n + 1 else n) s out) E := by
    intro left
    induction left with
    | zero =>
        -- an attempt had budget for another one, but the loop is at its end
        intro done failures last hbudgets hdone
        have hlt := hbudgets.lt_bound
        omega
    | succ left ih =>
        intro done failures last hbudgets hdone
        apply Recorded.bind (hstarted done)
        intro _
        split
        · apply Recorded.bind (hsucceeded done)
          exact fun _ => Recorded.pure fun _ _ h => ⟨done, rfl, h⟩
        · rename_i e _
          have hback : Recorded (I done) (retryBackoff policy (failures.count e) e)
              (fun _ => I done) E := by
            unfold retryBackoff
            split
            · exact Recorded.pure fun _ _ h => h
            · exact Recorded.throw fun s out h => hE done _ s out h
          apply Recorded.bind hback
          intro _
          apply Recorded.bind (hfailed done e)
          intro _
          split
          · rename_i hretry
            exact ih (done + 1) _ _ (hbudgets.count hretry) (by omega)
          · exact Recorded.pure fun _ _ h => ⟨done, rfl, h⟩
  exact hloop _ 0 _ _ VlmRetry.withinBudgets_zero rfl

/-- The row after a terminal write that counts `n + 1` attempts. -/
theorem storedAudited_of_map {n : ℕ} {ok : Bool} {f : UnitRow → UnitRow} {row : Option UnitRow}
    {out : List Effect} (h : CallsMade env (n + 1) ok (modelCalls out))
    (hcount : ∀ r, (f r).attemptCount = n + 1)
    (hstatus : ∀ r, ok = true ↔ (f r).status = .succeeded)
    (hlatest : ∃ k, 1 ≤ k ∧ k ≤ n + 1 ∧ ∀ r, (f r).latestModelCallId = some (env.attemptId k)) :
    StoredAudited (row.map f) out := by
  intro unit hunit _
  obtain ⟨r, -, rfl⟩ := Option.map_eq_some_iff.mp hunit
  obtain ⟨k, hpos, hle, hk⟩ := hlatest
  exact h.audited (hcount r) (hstatus r) ⟨k, hpos, hle, hk r⟩

section Stage

variable (hkeys : env.KeepsKeys job)
include hkeys

theorem recorded_onAttemptFailed (n : ℕ) (e : Exn) :
    Recorded (FailedSoFar env n) ((vlmCallbacks env).onAttemptFailed (n + 1) e)
      (fun _ => FailedSoFar env (n + 1)) fun _ => StoredAudited := by
  apply Recorded.bind (R := fun _ => FailedSoFar env (n + 1))
  · apply recorded_dbWriteUnit
    -- a commit shows that no earlier attempt has this id
    · rintro hfault row out ⟨hrunning, hcalls⟩
      have hid : ¬ env.IdTaken (n + 1) := fun htaken =>
        lastFault_ne_none (hkeys.attemptLog _ htaken) _ hfault
      rw [Option.map_id]
      refine ⟨hrunning, ?_⟩
      rw [modelCalls_append]
      exact hcalls.snoc hid rfl
    · exact fun _ _ _ h => storedAudited_of_running h.1
  · exact fun _ => recorded_step _ fun _ _ _ h => storedAudited_of_running h.1

theorem recorded_vlmStage :
    Recorded (FailedSoFar env 0) (vlmStage env) (fun r row out => match r with
      | .inl _ => StoredAudited row out
      | .inr attempts => ∃ n, attempts = n + 1 ∧ FailedSoFar env n row out)
      fun _ => StoredAudited := by
  have hcall : Recorded (FailedSoFar env 0)
      (executeVlmWithRetry env.retryPolicy env.vlm (vlmCallbacks env)) (CallsReturned env)
      fun _ => StoredAudited := by
    apply recorded_executeVlmWithRetry
    · exact fun _ _ _ _ h => storedAudited_of_running h.1
    · exact fun n => recorded_step _ fun _ _ _ h => storedAudited_of_running h.1
    · exact fun n => recorded_step _ fun _ _ _ h => storedAudited_of_running h.1
    · exact recorded_onAttemptFailed hkeys
  apply Recorded.bind hcall
  rintro ⟨_ | e, attempts⟩
  · apply Recorded.bind (recorded_step _ ?_)
    · exact fun _ => Recorded.pure fun _ _ h => h
    · rintro _ _ _ ⟨n, -, hrunning, -⟩
      exact storedAudited_of_running hrunning
  · apply Recorded.bind (R := fun _ => StoredAudited)
    · apply recorded_dbWriteUnit
      · rintro - row out ⟨n, hattempts, -, hcalls⟩
        dsimp only at hattempts
        subst hattempts
        rw [List.append_nil]
        -- the row names the id the unit was claimed with: that of attempt 1
        exact storedAudited_of_map hcalls (fun _ => rfl) (fun r => by simp [UnitRow.markFailed])
          ⟨1, le_refl 1, by omega, fun _ => rfl⟩
      · rintro _ _ _ ⟨n, -, hrunning, -⟩
        exact storedAudited_of_running hrunning
    · intro _
      apply Recorded.bind (recorded_step _ fun _ _ _ h => h)
      exact fun _ => Recorded.pure fun _ _ h => h

/-- The publication writes the row of the call that returned. -/
theorem recorded_publishStage {attempts : ℕ}
    (hreturns : ∃ row row', Act.exec (vlmStage env) row = (.ok (.inr attempts), row')) :
    Recorded (fun row out => ∃ n, attempts = n + 1 ∧ FailedSoFar env n row out)
      (publishStage env job attempts) (fun _ => StoredAudited) fun _ => StoredAudited := by
  have hrunning : ∀ (e : Exn) row out, (∃ n, attempts = n + 1 ∧ FailedSoFar env n row out) →
      StoredAudited row out := by
    rintro _ _ _ ⟨n, -, hrunning, -⟩
    exact storedAudited_of_running hrunning
  unfold publishStage
  dsimp only
  split
  · rename_i hjob
    apply Recorded.bind (R := fun _ => StoredAudited)
    · apply recorded_dbWriteUnit
      · rintro hfault row out ⟨n, rfl, -, hcalls⟩
        have hid : ¬ env.IdTaken (n + 1) := fun htaken =>
          lastFault_ne_none (hkeys.publish hjob _ hreturns htaken) _ hfault
        apply @storedAudited_of_map env n true
        · rw [modelCalls_append]
          exact hcalls.snoc hid rfl
        · exact fun _ => rfl
        · exact fun _ => iff_of_true rfl rfl
        · exact ⟨n + 1, by omega, le_refl _, fun _ => rfl⟩
      · exact hrunning
    · intro _
      apply Recorded.bind (recorded_step _ fun _ _ _ h => h)
      intro _
      apply Recorded.bind (recorded_step _ fun _ _ _ h => h)
      intro _
      apply Recorded.bind (recorded_step _ fun _ _ _ h => h)
      exact fun _ => Recorded.pure fun _ _ h => h
  · apply Recorded.bind (R := fun _ => StoredAudited)
    · apply recorded_dbWriteUnit
      · intro _ row out h
        rw [Option.map_id, List.append_nil]
        exact hrunning timelineLocked row out h
      · exact hrunning
    · exact fun _ => Recorded.pure fun _ _ h => h

end Stage

/-! ## A whole run -/

theorem not_unguarded_snoc {logs : List ModelCallLog} {log : ModelCallLog} {phase : UnitPhase}
    {cls : ExnClass} (h : log.errorType = some (.lifecycleGuard phase cls)) :
    ¬ Unguarded (logs ++ [log]) :=
  fun hall => hall log (List.mem_append_right _ (List.mem_singleton_self log)) phase cls h

/-- What the row stores is audited, unless the guard has written. -/
abbrev AuditedUnguarded (row : Option UnitRow) (out : List Effect) : Prop :=
  Unguarded (modelCalls out) → StoredAudited row out

theorem recorded_guarded {P : Option UnitRow → List Effect → Prop} {body : PhasedAct UnitOutcome}
    (hbody : Recorded P body (fun _ => StoredAudited) fun _ => StoredAudited) :
    Recorded P (guarded env body) (fun _ => AuditedUnguarded) fun _ _ _ => False := by
  have hreturned : Recorded P body (fun _ => AuditedUnguarded) fun _ => StoredAudited :=
    hbody.weaken (fun _ _ h => h) (fun _ _ _ h _ => h) fun _ _ _ h => h
  apply Recorded.catching hreturned
  intro escape
  apply Recorded.bind (R := fun _ => AuditedUnguarded)
  · apply Recorded.tryCatch (R := fun _ => StoredAudited)
    · apply recorded_dbWriteUnit
      · intro _ row out _ hunguarded
        rw [modelCalls_append] at hunguarded
        exact absurd hunguarded (not_unguarded_snoc rfl)
      · exact fun _ _ _ h => h
    · exact fun _ => Recorded.pure fun _ _ h _ => h
  · exact fun _ => Recorded.pure fun _ _ h => h

/-- The body of a running unit, once its first phase goes on to the VLM call. -/
theorem recorded_body (hkeys : env.KeepsKeys job) {row₁ row₂ : Option UnitRow}
    (hrow : HasStatus .running row₁)
    (hreached : Act.exec (preVlmPhase env (UnitProcessor.defaultSegment.gates env)) row₁
      = (.ok none, row₂)) :
    Recorded (fun row out => row = row₁ ∧ Silent row out)
      (UnitProcessor.defaultSegment.body env job) (fun _ => StoredAudited)
      fun _ => StoredAudited := by
  have hrunning : HasStatus .running row₂ :=
    (triple_preVlmPhase .defaultSegment).ok hrow hreached
  have hbefore : Recorded (fun row out => row = row₁ ∧ Silent row out)
      (beforePublication env (UnitProcessor.defaultSegment.gates env))
      (fun r row out => match r with
        | .inl _ => StoredAudited row out
        | .inr attempts => (∃ s s', Act.exec (vlmStage env) s = (.ok (.inr attempts), s')) ∧
            ∃ n, attempts = n + 1 ∧ FailedSoFar env n row out)
      fun _ => StoredAudited := by
    apply Recorded.bind (Recorded.mapError (silent_preVlmPhase.of_exec hreached))
    rintro (_ | o)
    · apply Recorded.mapError
      refine (recorded_vlmStage hkeys).returned.weaken ?_ ?_ fun _ _ _ h => h
      · rintro row out ⟨-, rfl, hsilent⟩
        have hnone : modelCalls out = [] := hsilent rfl
        refine ⟨hrunning, ?_⟩
        rw [hnone]
        exact callsMade_nil
      · rintro (o | attempts) row out ⟨hreturns, h⟩
        · exact h
        · exact ⟨hreturns, h⟩
    · exact Recorded.pure fun row out h => by cases h.1
  apply Recorded.bind hbefore
  rintro (o | attempts)
  · exact Recorded.pure fun _ _ h => h
  -- the publication needs the attempts the retry loop returned
  · apply Recorded.mapError
    rintro row out ⟨hreturns, h⟩
    exact recorded_publishStage hkeys hreturns row out h

theorem audited_of_endsNormally (hkeys : env.KeepsKeys job) {row : Option UnitRow}
    {unit : UnitRow} (h : EndsNormally env job row unit) :
    Audited (modelCalls (record (UnitProcessor.defaultSegment.runUnit env job) row)) unit := by
  obtain ⟨row₁, row₂, hclaim, hevent, hpre⟩ := h.reached
  have hrow := running_of_exec_claimUnit hclaim
  have hrun : Recorded (fun row' out => row' = row ∧ Silent row' out)
      (UnitProcessor.defaultSegment.runUnit env job) (fun _ => AuditedUnguarded)
      fun _ _ _ => False := by
    apply Recorded.bind (silent_claimUnit.of_exec hclaim)
    intro c
    rcases c with _ | _ | _ | _
    · exact Recorded.pure fun _ _ h => by cases h.1
    · exact Recorded.pure fun _ _ h => by cases h.1
    · exact Recorded.pure fun _ _ h => by cases h.1
    -- only a running unit gets to the body
    · have hstep : step env .unitRunning = pure () := by rw [step, hevent]
      show Recorded _ (step env .unitRunning >>= fun _ =>
        guarded env (UnitProcessor.defaultSegment.body env job)) _ _
      rw [hstep]
      exact (recorded_guarded (recorded_body hkeys hrow hpre)).weaken (fun _ _ h => h.2)
        (fun _ _ _ h => h) fun _ _ _ h => h
  have hend := hrun row [] ⟨rfl, rfl⟩
  have hstored := h.stored
  rcases hexec : Act.exec (UnitProcessor.defaultSegment.runUnit env job) row with ⟨e | o, row'⟩
  · rw [hexec] at hend
    exact hend.elim
  · rw [hexec] at hend hstored
    have hunit : row' = some unit := hstored
    exact hend h.unguarded unit hunit (hunit ▸ h.terminal)

/-- The first answer breaks the schema, the second does not. Every later attempt
would draw the id of the second. -/
def UnitEnv.regenerated : UnitEnv :=
  { UnitEnv.smooth with
    vlm := fun n _ =>
      if n = 1 then some ⟨.vlmSchemaValidation, "missing field: summary", false⟩ else none
    writeFault := fun w _ => match w with
      | .attemptLog n =>
          if 3 ≤ n then
            some ⟨.integrity, "UNIQUE constraint failed: model_call_logs.model_call_id", false⟩
          else none
      | _ => none
    retryPolicy := { UnitEnv.smooth.retryPolicy with schemaRegenerateMaxAttempts := 1 } }

/-- The unit as an earlier run left it, failed after three attempts. -/
def redeliveredRow : UnitRow :=
  UnitEnv.smooth.firstRow.markFailed (Iso.DateTime.utc 0) .vlmProviderError none
    (some "mcall_9") (some 3)

def regeneratedRow : UnitRow :=
  (redeliveredRow.markRunning (Iso.DateTime.utc 0) (some "mcall_0")).markSucceeded
    (Iso.DateTime.utc 0) (some "mcall_1") ["obs_0"] (some 2)

theorem audited_of_endsNormally_regenerated :
    Audited (modelCalls (record
      (UnitProcessor.defaultSegment.runUnit UnitEnv.regenerated ⟨true, true⟩)
        (some redeliveredRow))) regeneratedRow := by
  have htaken : ∀ n, UnitEnv.regenerated.IdTaken n → 3 ≤ n := by
    rintro n ⟨k, hpos, hlt, hid⟩
    by_contra hn
    obtain ⟨rfl, rfl⟩ : k = 1 ∧ n = 2 := by omega
    exact absurd hid (by decide)
  have hkeys : UnitEnv.regenerated.KeepsKeys ⟨true, true⟩ := by
    refine ⟨fun n hn m => ?_, ?_⟩
    · show (if 3 ≤ n then some _ else none) ≠ none
      rw [if_pos (htaken n hn)]
      exact Option.some_ne_none _
    · rintro - n ⟨row, row', hreturns⟩ hn
      have hexec : Act.exec (vlmStage UnitEnv.regenerated) row
          = (.ok (.inr 2), (row.map id)) := rfl
      rw [hexec] at hreturns
      cases hreturns
      exact absurd (htaken 2 hn) (by decide)
  refine audited_of_endsNormally hkeys ⟨⟨_, _, rfl, rfl, rfl⟩, rfl, ⟨.succeeded, rfl⟩, ?_⟩
  intro log hlog phase cls hguard
  have hmem := List.mem_map_of_mem (f := ModelCallLog.errorType) hlog
  have htypes : (modelCalls (record
      (UnitProcessor.defaultSegment.runUnit UnitEnv.regenerated ⟨true, true⟩)
      (some redeliveredRow))).map ModelCallLog.errorType
        = [some (.raised .vlmSchemaValidation), none] := rfl
  rw [htypes, hguard] at hmem
  revert hmem
  simp

end CctvMemory.Worker
