import CctvMemory.Library.Act
import Mathlib.Algebra.Order.Ring.Rat

/-!
# Exceptions, bounded write retry and VLM retry

`workers/retry.py`: which exceptions are transient, the bounded retry of a
database write (`run_db_write_with_retry`) and the retry loop around the VLM
call (`execute_vlm_with_retry`).

A write is tried as one transaction an attempt. What the database answers to
attempt `n` is `fault n`; `lastFault` is the exception that is left when the
retries are over, and `exec_dbWrite` reduces a write to it.
-/

namespace CctvMemory.Worker

/-- Ordinary exception classes, by what the worker asks about them. -/
inductive ExnClass where
  | insufficientFrames
  | objectDetectionSchemaValidation
  | vlmProvider
  | vlmSchemaValidation
  | invalidStateTransition
  | notFound
  | runtime
  | value
  | overflow
  | operational
  | integrity
  | other
deriving DecidableEq, Repr

/-- `type(exc).__name__`. -/
def ExnClass.name : ExnClass → String
  | insufficientFrames => "InsufficientFramesError"
  | objectDetectionSchemaValidation => "ObjectDetectionSchemaValidationError"
  | vlmProvider => "VlmProviderError"
  | vlmSchemaValidation => "VlmSchemaValidationError"
  | invalidStateTransition => "InvalidStateTransitionError"
  | notFound => "NotFoundError"
  | runtime => "RuntimeError"
  | value => "ValueError"
  | overflow => "OverflowError"
  | operational => "OperationalError"
  | integrity => "IntegrityError"
  | other => "Exception"

/-- A raised exception. `lockOrBusy` says that its text names a locked or busy
database or a timeout. -/
structure Exn where
  cls : ExnClass
  message : String
  lockOrBusy : Bool
deriving DecidableEq, Repr

/-- The error codes the worker stores. -/
inductive ErrorCode where
  | frameExtractionFailed
  | objectDetectionSchemaValidationFailed
  | vlmProviderError
  | vlmSchemaValidationFailed
  | analysisUnitFailed
  | videoDecodeError
  | orphanTimeout
  | insufficientFrames
  | preVlmGateSuppressed
deriving DecidableEq, Repr

/-- `text[:n]`. -/
def clip (n : ℕ) (text : String) : String := String.ofList (text.toList.take n)

/-! ## Classification -/

def isTransientVlmError (e : Exn) : Bool := decide (e.cls = .vlmProvider)

def isSchemaVlmError (e : Exn) : Bool := decide (e.cls = .vlmSchemaValidation)

def vlmFailureErrorCode (e : Exn) : ErrorCode :=
  if isTransientVlmError e then .vlmProviderError
  else if isSchemaVlmError e then .vlmSchemaValidationFailed
  else .analysisUnitFailed

/-- A lock, busy or timeout error; an integrity error never is one. -/
def isTransientDbError (e : Exn) : Bool :=
  if e.cls = .integrity then false else decide (e.cls = .operational) || e.lockOrBusy

/-! ## Database writes -/

section DbWrite

variable {σ ω α : Type}

/-- The exception left after the attempts from `attempt` on, if none got through. -/
def faultFrom (fault : ℕ → Option Exn) : ℕ → ℕ → Option Exn
  | 0, attempt => fault attempt
  | left + 1, attempt =>
      match fault attempt with
      | none => none
      | some e => if isTransientDbError e then faultFrom fault left (attempt + 1) else some e

def maxAttemptsError : Exn := ⟨.value, "max_attempts must be >= 1", false⟩

/-- The exception a write raises by itself, whatever its body does. -/
def lastFault (maxAttempts : ℕ) (fault : ℕ → Option Exn) : Option Exn :=
  match maxAttempts with
  | 0 => some maxAttemptsError
  | left + 1 => faultFrom fault left 1

/-- One attempt: a fault rolls the transaction back. -/
def attemptWrite (fault : Option Exn) (write : σ → Except Exn (α × σ × List ω)) :
    Act Exn σ ω α :=
  Act.txn fun s =>
    match fault with
    | some e => .error e
    | none => write s

/-- The loop of `run_db_write_with_retry`, `left` attempts before the last. -/
def dbWriteLoop (fault : ℕ → Option Exn) (write : σ → Except Exn (α × σ × List ω)) :
    ℕ → ℕ → Act Exn σ ω α
  | 0, attempt => attemptWrite (fault attempt) write
  | left + 1, attempt =>
      tryCatch (attemptWrite (fault attempt) write) fun e =>
        if isTransientDbError e then dbWriteLoop fault write left (attempt + 1) else throw e

/-- `run_db_write_with_retry`. -/
def dbWrite (maxAttempts : ℕ) (fault : ℕ → Option Exn)
    (write : σ → Except Exn (α × σ × List ω)) : Act Exn σ ω α :=
  match maxAttempts with
  | 0 => throw maxAttemptsError
  | left + 1 => dbWriteLoop fault write left 1

theorem exec_attemptWrite (fault : Option Exn) (write : σ → Except Exn (α × σ × List ω))
    (s : σ) :
    Act.exec (attemptWrite fault write) s = match fault with
      | some e => (.error e, s)
      | none => Act.exec (Act.txn write) s := by
  cases fault <;> rfl

/-- A write either fails with what is left of the faults, or its body runs once. -/
theorem exec_dbWrite {maxAttempts : ℕ} {fault : ℕ → Option Exn}
    {write : σ → Except Exn (α × σ × List ω)} {s : σ}
    (hwrite : ∀ e, write s = .error e → isTransientDbError e = false) :
    Act.exec (dbWrite maxAttempts fault write) s = match lastFault maxAttempts fault with
      | some e => (.error e, s)
      | none => Act.exec (Act.txn write) s := by
  cases maxAttempts with
  | zero => rfl
  | succ left =>
      show Act.exec (dbWriteLoop fault write left 1) s = match faultFrom fault left 1 with
        | some e => (.error e, s)
        | none => Act.exec (Act.txn write) s
      generalize 1 = attempt
      induction left generalizing attempt with
      | zero => exact exec_attemptWrite (fault attempt) write s
      | succ left ih =>
          rw [dbWriteLoop, Act.exec_tryCatch, exec_attemptWrite, faultFrom]
          rcases hf : fault attempt with _ | e
          · -- the body runs; its own exceptions are final
            rw [Act.exec_txn]
            rcases hw : write s with e | r
            · simp only [hwrite e hw, Bool.false_eq_true, if_false]
              rfl
            · rfl
          · dsimp only
            by_cases he : isTransientDbError e = true
            · rw [if_pos he, if_pos he]
              exact ih (attempt + 1)
            · rw [if_neg he, if_neg he]
              rfl

theorem triple_dbWrite {G : σ → σ × List ω → Prop} {P : σ → Prop} {Q : α → σ → Prop}
    {E : Exn → σ → Prop} {maxAttempts : ℕ} {fault : ℕ → Option Exn}
    {write : σ → Except Exn (α × σ × List ω)}
    (hok : ∀ s a s' out, P s → write s = .ok (a, s', out) → G s (s', out) ∧ Q a s')
    (herr : ∀ s e, P s → G s (s, []) ∧ E e s) :
    Act.Triple G P (dbWrite maxAttempts fault write) Q E := by
  have hattempt : ∀ f, Act.Triple G P (attemptWrite f write) Q fun e s => P s ∧ E e s := by
    intro f
    refine Act.Triple.txn (fun s a s' out hs h => ?_) fun s e hs h => ?_
    · cases f with
      | some e => cases h
      | none => exact hok s a s' out hs h
    · exact ⟨(herr s e hs).1, hs, (herr s e hs).2⟩
  cases maxAttempts with
  | zero => exact Act.Triple.throw fun s hs => (herr s _ hs).2
  | succ left =>
      show Act.Triple G P (dbWriteLoop fault write left 1) Q E
      generalize 1 = attempt
      induction left generalizing attempt with
      | zero =>
          exact (hattempt _).weaken (fun _ hs => hs) (fun _ _ hQ => hQ) fun _ _ h => h.2
      | succ left ih =>
          refine Act.Triple.tryCatch (hattempt _) fun e => ?_
          split
          · exact (ih (attempt + 1)).weaken (fun _ h => h.1) (fun _ _ hQ => hQ) fun _ _ h => h
          · exact Act.Triple.throw fun _ h => h.2

theorem each_attemptWrite {G : σ → σ × List ω → Prop} (hsame : ∀ s, G s (s, []))
    {fault : Option Exn} {write : σ → Except Exn (α × σ × List ω)}
    (hwrite : ∀ s a s' out, write s = .ok (a, s', out) → G s (s', out)) :
    Act.Each G (attemptWrite fault write) := by
  apply Act.Each.txn hsame
  intro s a s' out h
  rcases fault with _ | e
  · exact hwrite s a s' out h
  · cases h

theorem each_dbWrite {G : σ → σ × List ω → Prop} (hsame : ∀ s, G s (s, []))
    {maxAttempts : ℕ} {fault : ℕ → Option Exn} {write : σ → Except Exn (α × σ × List ω)}
    (hwrite : ∀ s a s' out, write s = .ok (a, s', out) → G s (s', out)) :
    Act.Each G (dbWrite maxAttempts fault write) := by
  cases maxAttempts with
  | zero => exact Act.Each.throw _
  | succ left =>
      show Act.Each G (dbWriteLoop fault write left 1)
      generalize 1 = attempt
      induction left generalizing attempt with
      | zero => exact each_attemptWrite hsame hwrite
      | succ left ih =>
          apply Act.Each.tryCatch (each_attemptWrite hsame hwrite)
          intro e
          split
          · exact ih (attempt + 1)
          · exact Act.Each.throw e

end DbWrite

/-! ## VLM retry -/

structure RetryPolicy where
  maxAttempts : ℕ
  backoffBaseMs : ℕ
  backoffCapMs : ℕ
  jitter : ℚ
  schemaRegenerateMaxAttempts : ℕ
  schemaRetryBackoffMs : ℕ
  maxAttempts_pos : 1 ≤ maxAttempts
  jitter_mem : 0 ≤ jitter ∧ jitter ≤ 1

/-- The bounds that a policy without jitter meets. -/
theorem noJitter_mem : 0 ≤ (0 : ℚ) ∧ (0 : ℚ) ≤ 1 := ⟨le_refl 0, zero_le_one⟩

/-- What `float(n)` rounds to infinity: the integers from half a step above the
largest double on. -/
def floatOverflow : ℕ := 2 ^ 1024 - 2 ^ 970

/-- `float(n)`, up to rounding. -/
def toFloat (n : ℕ) : Except Exn ℚ :=
  if floatOverflow ≤ n then .error ⟨.overflow, "int too large to convert to float", false⟩
  else .ok n

/-- `round(x, digits)`: to the nearest, ties to even. -/
def roundTo (digits : ℕ) (x : ℚ) : ℚ :=
  let y := x * 10 ^ digits
  let below := y.floor
  let nearest :=
    if y - below < 1 / 2 then below
    else if 1 / 2 < y - below then below + 1
    else if below % 2 = 0 then below else below + 1
  nearest / 10 ^ digits

/-- `compute_backoff_ms`; `drawn` is the random number, within the jitter. -/
def computeBackoffMs (attempt baseMs capMs : ℕ) (jitter drawn : ℚ) : Except Exn ℚ :=
  if baseMs = 0 then .ok 0
  else do
    let base ← toFloat baseMs
    let factor ← toFloat (2 ^ (attempt - 1))
    let cap ← toFloat capMs
    let raw := min (base * factor) cap
    if jitter ≤ 0 then .ok (max 0 raw) else .ok (max 0 (raw * (1 + drawn)))

structure VlmRetryResult where
  error : Option Exn
  attempts : ℕ

/-- What the caller does at each attempt. -/
structure VlmCallbacks (σ ω : Type) where
  onAttemptStarted : ℕ → Act Exn σ ω Unit
  onAttemptSucceeded : ℕ → Act Exn σ ω Unit
  onAttemptFailed : ℕ → Exn → Act Exn σ ω Unit

/-- How often a call has failed so far, by kind. -/
structure VlmFailures where
  provider : ℕ
  schema : ℕ

def VlmFailures.count (f : VlmFailures) (e : Exn) : VlmFailures where
  provider := if isTransientVlmError e then f.provider + 1 else f.provider
  schema := if isSchemaVlmError e then f.schema + 1 else f.schema

def providerBudget (policy : RetryPolicy) (f : VlmFailures) (e : Exn) : Bool :=
  isTransientVlmError e && decide (f.provider < policy.maxAttempts)

def schemaBudget (policy : RetryPolicy) (f : VlmFailures) (e : Exn) : Bool :=
  isSchemaVlmError e && decide (f.schema ≤ policy.schemaRegenerateMaxAttempts)

/-- The wait before the next attempt, if there is one. -/
def backoffMs (policy : RetryPolicy) (drawn : ℚ) (f : VlmFailures) (e : Exn) :
    Except Exn (Option ℚ) :=
  if providerBudget policy f e then
    (computeBackoffMs f.provider policy.backoffBaseMs policy.backoffCapMs policy.jitter drawn).map
      some
  else if schemaBudget policy f e && decide (0 < policy.schemaRetryBackoffMs) then
    (toFloat policy.schemaRetryBackoffMs).map some
  else .ok none

/-- The wait before the next attempt; computing it may raise. -/
def retryBackoff {σ ω : Type} (policy : RetryPolicy) (f : VlmFailures) (e : Exn) :
    Act Exn σ ω Unit :=
  match backoffMs policy 0 f e with
  | .ok _ => pure ()
  | .error e' => throw e'

/-- The loop of `execute_vlm_with_retry`, with `left` attempts to go; `vlm n
strict` is what the `n`-th scheduled call raises. -/
def vlmLoop {σ ω : Type} (policy : RetryPolicy) (vlm : ℕ → Bool → Option Exn)
    (cb : VlmCallbacks σ ω) : ℕ → ℕ → VlmFailures → Option Exn → Act Exn σ ω VlmRetryResult
  | 0, _, _, last =>
      pure ⟨last.or (some ⟨.runtime, "vlm retry exhausted", false⟩), policy.maxAttempts⟩
  | left + 1, attempt, failures, _ => do
      cb.onAttemptStarted attempt
      match vlm attempt (decide (0 < failures.schema)) with
      | none => do
          cb.onAttemptSucceeded attempt
          pure ⟨none, attempt⟩
      | some e => do
          let failures' := failures.count e
          retryBackoff policy failures' e
          cb.onAttemptFailed attempt e
          if providerBudget policy failures' e || schemaBudget policy failures' e then
            vlmLoop policy vlm cb left (attempt + 1) failures' (some e)
          else pure ⟨some e, attempt⟩

/-- `execute_vlm_with_retry`. -/
def executeVlmWithRetry {σ ω : Type} (policy : RetryPolicy) (vlm : ℕ → Bool → Option Exn)
    (cb : VlmCallbacks σ ω) : Act Exn σ ω VlmRetryResult :=
  vlmLoop policy vlm cb (policy.maxAttempts + policy.schemaRegenerateMaxAttempts) 1 ⟨0, 0⟩ none

/-- What every callback keeps, the retry loop keeps. -/
theorem triple_executeVlmWithRetry {σ ω : Type} {G : σ → σ × List ω → Prop} {I : σ → Prop}
    {policy : RetryPolicy} {vlm : ℕ → Bool → Option Exn} {cb : VlmCallbacks σ ω}
    {E : Exn → σ → Prop} (hE : ∀ e s, I s → E e s)
    (hstarted : ∀ n, Act.Triple G I (cb.onAttemptStarted n) (fun _ => I) E)
    (hsucceeded : ∀ n, Act.Triple G I (cb.onAttemptSucceeded n) (fun _ => I) E)
    (hfailed : ∀ n e, Act.Triple G I (cb.onAttemptFailed n e) (fun _ => I) E) :
    Act.Triple G I (executeVlmWithRetry policy vlm cb) (fun _ => I) E := by
  have hloop : ∀ left attempt failures last,
      Act.Triple G I (vlmLoop policy vlm cb left attempt failures last) (fun _ => I) E := by
    intro left
    induction left with
    | zero => exact fun _ _ _ => Act.Triple.pure fun s hs => hs
    | succ left ih =>
        intro attempt failures last
        refine Act.Triple.bind (hstarted attempt) fun _ => ?_
        split
        · refine Act.Triple.bind (hsucceeded attempt) fun _ => ?_
          exact Act.Triple.pure fun s hs => hs
        · rename_i e _
          have hback : Act.Triple G I (retryBackoff policy (failures.count e) e)
              (fun _ => I) E := by
            unfold retryBackoff
            split
            · exact Act.Triple.pure fun s hs => hs
            · exact Act.Triple.throw fun s hs => hE _ s hs
          refine Act.Triple.bind hback fun _ => ?_
          refine Act.Triple.bind (hfailed attempt e) fun _ => ?_
          split
          · exact ih _ _ _
          · exact Act.Triple.pure fun s hs => hs
  exact hloop _ _ _ _

theorem each_executeVlmWithRetry {σ ω : Type} {G : σ → σ × List ω → Prop} {policy : RetryPolicy}
    {vlm : ℕ → Bool → Option Exn} {cb : VlmCallbacks σ ω}
    (hstarted : ∀ n, Act.Each G (cb.onAttemptStarted n))
    (hsucceeded : ∀ n, Act.Each G (cb.onAttemptSucceeded n))
    (hfailed : ∀ n e, Act.Each G (cb.onAttemptFailed n e)) :
    Act.Each G (executeVlmWithRetry policy vlm cb) := by
  have hbackoff : ∀ f e, Act.Each G (retryBackoff policy f e : Act Exn σ ω Unit) := by
    intro f e
    unfold retryBackoff
    split
    · exact Act.Each.pure _
    · exact Act.Each.throw _
  have hloop : ∀ left attempt failures last,
      Act.Each G (vlmLoop policy vlm cb left attempt failures last) := by
    intro left
    induction left with
    | zero => exact fun _ _ _ => Act.Each.pure _
    | succ left ih =>
        intro attempt failures last
        apply Act.Each.bind (hstarted attempt)
        intro _
        split
        · exact Act.Each.bind (hsucceeded attempt) fun _ => Act.Each.pure _
        · rename_i e _
          apply Act.Each.bind (hbackoff (failures.count e) e)
          intro _
          apply Act.Each.bind (hfailed attempt e)
          intro _
          split
          · exact ih _ _ _
          · exact Act.Each.pure _
  exact hloop _ _ _ _

end CctvMemory.Worker
