import CctvMemory.Worker.Retry
import Mathlib.Data.List.Range
import Mathlib.Data.Nat.Find

/-!
# The VLM retry loop and its budgets

`execute_vlm_with_retry` with all it reports and returns, on a sequence of
attempt outcomes. Callbacks and sleep do not raise here: what they are called
with is the list of events. Two budgets, one a kind of failure, share a loop
that is bounded by their sum.

* `executes_iff`: every call, report and result is as it should be exactly when
  each wait between two attempts can be computed.
* `exec_executeVlmWithRetry`: the loop of the unit model is this one.
-/

namespace CctvMemory.Worker.VlmRetry

variable {α δ : Type}

/-! ## The loop -/

/-- An exception of a VLM call, with the attributes the loop looks for. -/
structure VlmError (δ : Type) extends Exn where
  rawResponse : Option String := none
  parsedPayload : Option δ := none
  stage : Option String := none
  /-- `to_details()`. -/
  details : Option δ := none

abbrev VlmOutcome (α δ : Type) := Except (VlmError δ) α

inductive AttemptStatus where
  | succeeded
  | failed
deriving DecidableEq, Repr

structure VlmAttempt (δ : Type) where
  attempt : ℕ
  status : AttemptStatus
  errorType : Option String := none
  errorMessage : Option String := none
  transient : Option Bool := none
  backoffMs : Option ℚ := none
  rawTextOutput : Option String := none
  parsedOutput : Option δ := none
  validationStatus : Option String := none
  schemaDetails : Option δ := none

/-- `VlmAttempt.to_dict`; a key is absent where its value is `none`. -/
structure AttemptDetail (δ : Type) where
  attempt : ℕ
  status : AttemptStatus
  errorType : Option String
  errorMessage : Option String
  transient : Option Bool
  backoffMs : Option ℚ
  validationStatus : Option String
  schemaDetails : Option δ

def VlmAttempt.toDict (a : VlmAttempt δ) : AttemptDetail δ where
  attempt := a.attempt
  status := a.status
  errorType := a.errorType
  errorMessage := a.errorMessage
  transient := a.transient
  backoffMs := a.backoffMs.map (roundTo 1)
  validationStatus := a.validationStatus
  schemaDetails := a.schemaDetails

structure VlmResult (α δ : Type) where
  output : Option α
  error : Option (VlmError δ)
  attempts : ℕ
  attemptDetails : List (AttemptDetail δ)

/-- What the loop calls, in order. -/
inductive VlmEvent (α δ : Type) where
  | started (attempt : ℕ)
  | called (strictSchema : Bool) (outcome : VlmOutcome α δ)
  | failed (record : VlmAttempt δ)
  | slept (seconds : ℚ)
  | succeeded (record : VlmAttempt δ)

/-- How the loop ends: by a return, by an exception of its own, or because it
has no attempts left. -/
inductive LoopEnd (α δ : Type) where
  | returned (result : VlmResult α δ)
  | raised (e : Exn)
  | exhausted (lastError : Option (VlmError δ)) (details : List (AttemptDetail δ))

def failedAttempt (attempt : ℕ) (e : VlmError δ) (backoffMs : Option ℚ) : VlmAttempt δ where
  attempt := attempt
  status := .failed
  errorType := some e.cls.name
  errorMessage := some (clip 500 e.message)
  transient := some (isTransientVlmError e.toExn)
  backoffMs := backoffMs
  rawTextOutput := e.rawResponse
  parsedOutput := e.parsedPayload
  validationStatus := e.stage
  schemaDetails := e.details

def succeededAttempt (attempt : ℕ) : VlmAttempt δ where
  attempt := attempt
  status := .succeeded

def sleepFor : Option ℚ → List (VlmEvent α δ)
  | none => []
  | some ms => if 0 < ms then [.slept (ms / 1000)] else []

def willRetry (policy : RetryPolicy) (f : VlmFailures) (e : Exn) : Bool :=
  providerBudget policy f e || schemaBudget policy f e

variable (policy : RetryPolicy) (drawn : ℕ → ℚ) (outcome : ℕ → VlmOutcome α δ)

/-- The loop, with `left` attempts to go after the first `done`; `outcome n` is
that of attempt `n + 1`, `drawn n` the random number of its wait. -/
def vlmAttempts : ℕ → ℕ → VlmFailures → Option (VlmError δ) → List (AttemptDetail δ) →
    List (VlmEvent α δ) × LoopEnd α δ
  | 0, _, _, last, details => ([], .exhausted last details)
  | left + 1, done, f, _, details =>
      let attempt := done + 1
      let called : List (VlmEvent α δ) :=
        [.started attempt, .called (decide (0 < f.schema)) (outcome done)]
      match outcome done with
      | .ok output =>
          let success := succeededAttempt attempt
          (called ++ [.succeeded success],
            .returned ⟨some output, none, attempt, details ++ [success.toDict]⟩)
      | .error e =>
          let f' := f.count e.toExn
          match backoffMs policy (drawn done) f' e.toExn with
          | .error raised => (called, .raised raised)
          | .ok wait =>
              let record := failedAttempt attempt e wait
              let details' := details ++ [record.toDict]
              if willRetry policy f' e.toExn then
                let rest := vlmAttempts left attempt f' (some e) details'
                (called ++ [.failed record] ++ sleepFor wait ++ rest.1, rest.2)
              else
                (called ++ [.failed record], .returned ⟨none, some e, attempt, details'⟩)

/-- The loop of a call. -/
def vlmLoop : List (VlmEvent α δ) × LoopEnd α δ :=
  vlmAttempts policy drawn outcome (policy.maxAttempts + policy.schemaRegenerateMaxAttempts) 0
    ⟨0, 0⟩ none []

def exhaustedError : VlmError δ where
  cls := .runtime
  message := "vlm retry exhausted"
  lockOrBusy := false

/-- `execute_vlm_with_retry`, and what it called. -/
def executeVlmWithRetry : List (VlmEvent α δ) × Except Exn (VlmResult α δ) :=
  let run := vlmLoop policy drawn outcome
  (run.1, match run.2 with
    | .returned result => .ok result
    | .raised e => .error e
    -- the return after the loop
    | .exhausted last details =>
        .ok ⟨none, some (last.getD exhaustedError), policy.maxAttempts, details⟩)

/-! ## What is asked of a run -/

def calls (events : List (VlmEvent α δ)) : List (Bool × VlmOutcome α δ) :=
  events.filterMap fun
    | .called strictSchema outcome => some (strictSchema, outcome)
    | _ => none

def reports (events : List (VlmEvent α δ)) : List (VlmAttempt δ) :=
  events.filterMap fun
    | .failed record => some record
    | _ => none

def endsInProvider : VlmOutcome α δ → Bool
  | .ok _ => false
  | .error e => isTransientVlmError e.toExn

def endsInSchema : VlmOutcome α δ → Bool
  | .ok _ => false
  | .error e => isSchemaVlmError e.toExn

/-- The numbers and the errors of the failed attempts. -/
def failedAttempts (made : List (VlmOutcome α δ)) : List (ℕ × VlmError δ) :=
  made.zipIdx.filterMap fun p => match p.1 with
    | .ok _ => none
    | .error e => some (p.2 + 1, e)

/-- The record of a failed attempt. -/
def Reports (record : VlmAttempt δ) (attempt : ℕ × VlmError δ) : Prop :=
  ∃ wait, record = failedAttempt attempt.1 attempt.2 wait

/-- After the attempts `made`, the last of which failed with `e`, another one is
due: it was a provider error and not yet the last of its budget, or a schema error
and no more than the regenerations. -/
def Due (policy : RetryPolicy) (made : List (VlmOutcome α δ)) (e : VlmError δ) : Prop :=
  endsInProvider (α := α) (.error e) = true ∧ made.countP endsInProvider < policy.maxAttempts ∨
    endsInSchema (α := α) (.error e) = true ∧
      made.countP endsInSchema ≤ policy.schemaRegenerateMaxAttempts

/-- The result of a run that made these attempts: the output or the error of the
last one, and not both. -/
structure Results (made : List (VlmOutcome α δ)) (result : VlmResult α δ) : Prop where
  attempts : result.attempts = made.length
  one : result.output.isSome = !result.error.isSome
  last : made.getLast? = match result.error with
    | some e => some (.error e)
    | none => result.output.map .ok

structure Executes (policy : RetryPolicy) (outcome : ℕ → VlmOutcome α δ)
    (events : List (VlmEvent α δ)) (fin : LoopEnd α δ) : Prop where
  /-- The calls end as the outcomes say, in their order. -/
  made : (calls events).map Prod.snd = (List.range (calls events).length).map outcome
  provider : ((calls events).map Prod.snd).countP endsInProvider ≤ policy.maxAttempts
  schema : ((calls events).map Prod.snd).countP endsInSchema
    ≤ policy.schemaRegenerateMaxAttempts + 1
  /-- Strict schema is asked for after a schema error, and only then. -/
  strict : ∀ before call after, calls events = before ++ call :: after →
    (call.1 = true ↔ ∃ earlier ∈ before, endsInSchema earlier.2 = true)
  reported : List.Forall₂ Reports (reports events) (failedAttempts ((calls events).map Prod.snd))
  /-- A call is followed by another exactly when it fails and another is due. -/
  stops : ∀ before call after, calls events = before ++ call :: after →
    (after ≠ [] ↔ ∃ e, call.2 = .error e ∧
      Due policy ((before ++ [call]).map Prod.snd) e)
  /-- The loop returns: the return after it is never reached. -/
  returns : ∃ result, fin = .returned result ∧ Results ((calls events).map Prod.snd) result

/-! ## Which attempts are retried -/

section Attempts

variable (policy : RetryPolicy) (outcome : ℕ → VlmOutcome α δ)

/-- The failures among the first `n` attempts. -/
def failuresAfter : ℕ → VlmFailures
  | 0 => ⟨0, 0⟩
  | n + 1 => match outcome n with
    | .ok _ => failuresAfter n
    | .error e => (failuresAfter n).count e.toExn

/-- Attempt `n + 1` fails, and there is budget for another one. -/
def Retried (n : ℕ) : Prop :=
  ∃ e, outcome n = .error e ∧ willRetry policy (failuresAfter outcome (n + 1)) e.toExn = true

/-- The numbers the wait is computed from have a float. -/
def WaitFits (f : VlmFailures) (e : Exn) : Prop :=
  if providerBudget policy f e = true then
    policy.backoffBaseMs = 0 ∨ policy.backoffBaseMs < floatOverflow ∧ f.provider ≤ 1024 ∧
      policy.backoffCapMs < floatOverflow
  else schemaBudget policy f e = true → policy.schemaRetryBackoffMs < floatOverflow

/-- So they do at every attempt that the run gets to. -/
def WaitsFit : Prop :=
  ∀ n, (∀ i < n, Retried policy outcome i) → ∀ e, outcome n = .error e →
    WaitFits policy (failuresAfter outcome (n + 1)) e.toExn

variable {policy outcome}

theorem failuresAfter_succ_of_error {n : ℕ} {e : VlmError δ} (h : outcome n = .error e) :
    failuresAfter outcome (n + 1) = (failuresAfter outcome n).count e.toExn := by
  simp only [failuresAfter, h]

theorem provider_failuresAfter (n : ℕ) :
    (failuresAfter outcome n).provider = ((List.range n).map outcome).countP endsInProvider := by
  induction n with
  | zero => rfl
  | succ n ih =>
      rw [List.range_succ, List.map_append, List.countP_append, ← ih]
      cases h : outcome n with
      | ok a => simp [failuresAfter, h, endsInProvider]
      | error e =>
          rw [failuresAfter_succ_of_error h]
          simp only [VlmFailures.count, List.map_cons, List.map_nil, h, List.countP_singleton,
            endsInProvider]
          by_cases hkind : isTransientVlmError e.toExn = true <;> simp [hkind]

theorem schema_failuresAfter (n : ℕ) :
    (failuresAfter outcome n).schema = ((List.range n).map outcome).countP endsInSchema := by
  induction n with
  | zero => rfl
  | succ n ih =>
      rw [List.range_succ, List.map_append, List.countP_append, ← ih]
      cases h : outcome n with
      | ok a => simp [failuresAfter, h, endsInSchema]
      | error e =>
          rw [failuresAfter_succ_of_error h]
          simp only [VlmFailures.count, List.map_cons, List.map_nil, h, List.countP_singleton,
            endsInSchema]
          by_cases hkind : isSchemaVlmError e.toExn = true <;> simp [hkind]

/-- No exception is of both kinds. -/
theorem kinds_apart (e : Exn) : isTransientVlmError e = true → isSchemaVlmError e = false := by
  unfold isTransientVlmError isSchemaVlmError
  intro h
  rw [of_decide_eq_true h]
  rfl

/-- The failures of `n` attempts that all had budget for another one: each is in
one of the two budgets. -/
structure WithinBudgets (policy : RetryPolicy) (n : ℕ) (f : VlmFailures) : Prop where
  provider : f.provider < policy.maxAttempts
  schema : f.schema ≤ policy.schemaRegenerateMaxAttempts
  sum : f.provider + f.schema = n

theorem withinBudgets_zero : WithinBudgets policy 0 ⟨0, 0⟩ :=
  ⟨policy.maxAttempts_pos, Nat.zero_le _, rfl⟩

theorem WithinBudgets.count {n : ℕ} {f : VlmFailures} {e : Exn} (h : WithinBudgets policy n f)
    (hretry : willRetry policy (f.count e) e = true) :
    WithinBudgets policy (n + 1) (f.count e) := by
  obtain ⟨hprovider, hschema, hsum⟩ := h
  rw [willRetry, Bool.or_eq_true] at hretry
  rcases hretry with hretry | hretry
  · rw [providerBudget, Bool.and_eq_true, decide_eq_true_eq] at hretry
    have hnot := kinds_apart _ hretry.1
    have hcount : f.count e = ⟨f.provider + 1, f.schema⟩ := by
      simp [VlmFailures.count, hretry.1, hnot]
    rw [hcount] at hretry ⊢
    exact ⟨hretry.2, hschema, by dsimp only; omega⟩
  · rw [schemaBudget, Bool.and_eq_true, decide_eq_true_eq] at hretry
    have hnot : isTransientVlmError e = false := by
      rw [← Bool.not_eq_true]
      intro htransient
      rw [kinds_apart _ htransient] at hretry
      exact absurd hretry.1 (by decide)
    have hcount : f.count e = ⟨f.provider, f.schema + 1⟩ := by
      simp [VlmFailures.count, hretry.1, hnot]
    rw [hcount] at hretry ⊢
    exact ⟨hprovider, hretry.2, by dsimp only; omega⟩

theorem WithinBudgets.lt_bound {n : ℕ} {f : VlmFailures} (h : WithinBudgets policy n f) :
    n < policy.maxAttempts + policy.schemaRegenerateMaxAttempts := by
  obtain ⟨hprovider, hschema, hsum⟩ := h
  omega

/-- Retried attempts stay within both budgets. -/
theorem budgets_of_retried {n : ℕ} (h : ∀ i < n, Retried policy outcome i) :
    WithinBudgets policy n (failuresAfter outcome n) := by
  induction n with
  | zero => exact withinBudgets_zero
  | succ n ih =>
      have hn := ih fun i hi => h i (Nat.lt_succ_of_lt hi)
      obtain ⟨e, he, hretry⟩ := h n (Nat.lt_succ_self n)
      rw [failuresAfter_succ_of_error he] at hretry ⊢
      exact hn.count hretry

/-- The first attempt that is not retried is within the bound of the loop. -/
theorem lt_bound_of_retried {n : ℕ} (h : ∀ i < n, Retried policy outcome i) :
    n < policy.maxAttempts + policy.schemaRegenerateMaxAttempts :=
  (budgets_of_retried h).lt_bound

theorem exists_last (policy : RetryPolicy) (outcome : ℕ → VlmOutcome α δ) :
    ∃ n, (∀ i < n, Retried policy outcome i) ∧ ¬ Retried policy outcome n := by
  classical
  have hex : ∃ n, ¬ Retried policy outcome n := by
    by_contra hall
    push Not at hall
    exact absurd (lt_bound_of_retried fun i _ => hall i) (lt_irrefl _)
  exact ⟨Nat.find hex, fun i hi => not_not.mp (Nat.find_min hex hi), Nat.find_spec hex⟩

theorem toFloat_ok_iff {n : ℕ} : (∃ x, toFloat n = .ok x) ↔ n < floatOverflow := by
  unfold toFloat
  split
  · rename_i h
    exact iff_of_false (fun ⟨x, hx⟩ => by cases hx) (not_lt.mpr h)
  · rename_i h
    exact iff_of_true ⟨_, rfl⟩ (not_le.mp h)

theorem pow_lt_floatOverflow {k : ℕ} : 2 ^ (k - 1) < floatOverflow ↔ k ≤ 1024 := by
  have hlow : 2 ^ 1023 < floatOverflow := by decide +kernel
  have hhigh : floatOverflow ≤ 2 ^ 1024 := by
    unfold floatOverflow
    omega
  constructor
  · intro h
    by_contra hk
    have hmono : ∀ m ≤ k - 1, 2 ^ m ≤ 2 ^ (k - 1) := fun m => Nat.pow_le_pow_right Nat.two_pos
    exact absurd (h.trans_le hhigh) (not_lt.mpr (hmono 1024 (by omega)))
  · intro hk
    exact (Nat.pow_le_pow_right (by decide) (by omega)).trans_lt hlow

theorem computeBackoffMs_ok_iff {attempt baseMs capMs : ℕ} {jitter drawn : ℚ} :
    (∃ w, computeBackoffMs attempt baseMs capMs jitter drawn = .ok w) ↔
      baseMs = 0 ∨ baseMs < floatOverflow ∧ attempt ≤ 1024 ∧ capMs < floatOverflow := by
  unfold computeBackoffMs
  split
  · rename_i h
    exact iff_of_true ⟨0, rfl⟩ (Or.inl h)
  · rename_i h
    rw [← pow_lt_floatOverflow, ← toFloat_ok_iff, ← toFloat_ok_iff, ← toFloat_ok_iff]
    rw [or_iff_right h]
    cases toFloat baseMs with
    | error e => exact iff_of_false (fun ⟨w, hw⟩ => by cases hw) fun ⟨⟨x, hx⟩, _⟩ => by cases hx
    | ok base =>
        cases toFloat (2 ^ (attempt - 1)) with
        | error e =>
            exact iff_of_false (fun ⟨w, hw⟩ => by cases hw) fun ⟨_, ⟨x, hx⟩, _⟩ => by cases hx
        | ok factor =>
            cases toFloat capMs with
            | error e =>
                exact iff_of_false (fun ⟨w, hw⟩ => by cases hw) fun ⟨_, _, ⟨x, hx⟩⟩ => by cases hx
            | ok cap =>
                refine iff_of_true ?_ ⟨⟨_, rfl⟩, ⟨_, rfl⟩, ⟨_, rfl⟩⟩
                show ∃ w, (if jitter ≤ 0 then Except.ok _ else .ok _) = Except.ok w
                split <;> exact ⟨_, rfl⟩

theorem backoffMs_ok_iff {d : ℚ} {f : VlmFailures} {e : Exn} :
    (∃ w, backoffMs policy d f e = .ok w) ↔ WaitFits policy f e := by
  unfold backoffMs WaitFits
  split
  · rw [← computeBackoffMs_ok_iff]
    cases computeBackoffMs f.provider policy.backoffBaseMs policy.backoffCapMs policy.jitter d with
    | error e' => exact iff_of_false (fun ⟨w, hw⟩ => by cases hw) fun ⟨w, hw⟩ => by cases hw
    | ok w => exact iff_of_true ⟨_, rfl⟩ ⟨w, rfl⟩
  · split
    · rename_i h
      rw [Bool.and_eq_true, decide_eq_true_eq] at h
      rw [← toFloat_ok_iff]
      cases toFloat policy.schemaRetryBackoffMs with
      | error e' =>
          exact iff_of_false (fun ⟨w, hw⟩ => by cases hw) fun hfits => by
            obtain ⟨x, hx⟩ := hfits h.1
            cases hx
      | ok w => exact iff_of_true ⟨_, rfl⟩ fun _ => ⟨w, rfl⟩
    · rename_i h
      refine iff_of_true ⟨none, rfl⟩ fun hbudget => ?_
      have hzero : policy.schemaRetryBackoffMs = 0 := by
        by_contra hne
        apply h
        rw [Bool.and_eq_true, decide_eq_true_eq]
        exact ⟨hbudget, Nat.pos_of_ne_zero hne⟩
      rw [hzero]
      decide +kernel

end Attempts

/-! ## How the loop ends -/

section Loop

variable {policy : RetryPolicy} (drawn : ℕ → ℚ) {outcome : ℕ → VlmOutcome α δ}

/-- The call of attempt `n + 1`. -/
def callOf (outcome : ℕ → VlmOutcome α δ) (n : ℕ) : Bool × VlmOutcome α δ :=
  (decide (0 < (failuresAfter outcome n).schema), outcome n)

/-- The number and the error of attempt `n + 1`, if it fails. -/
def failureOf (outcome : ℕ → VlmOutcome α δ) (n : ℕ) : Option (ℕ × VlmError δ) :=
  match outcome n with
  | .ok _ => none
  | .error e => some (n + 1, e)

@[simp] theorem calls_append (es es' : List (VlmEvent α δ)) :
    calls (es ++ es') = calls es ++ calls es' := List.filterMap_append

@[simp] theorem reports_append (es es' : List (VlmEvent α δ)) :
    reports (es ++ es') = reports es ++ reports es' := List.filterMap_append

@[simp] theorem calls_sleepFor (wait : Option ℚ) : calls (sleepFor wait : List (VlmEvent α δ)) = [] := by
  unfold sleepFor
  split
  · rfl
  · split <;> rfl

@[simp] theorem reports_sleepFor (wait : Option ℚ) :
    reports (sleepFor wait : List (VlmEvent α δ)) = [] := by
  unfold sleepFor
  split
  · rfl
  · split <;> rfl

/-- The result of a run whose last attempt is `n + 1`. -/
def Ends (outcome : ℕ → VlmOutcome α δ) (n : ℕ) (result : VlmResult α δ) : Prop :=
  result.attempts = n + 1 ∧ match outcome n with
    | .ok output => result.output = some output ∧ result.error = none
    | .error e => result.output = none ∧ result.error = some e

/-- A failed attempt whose wait can be computed is retried or is the last. -/
theorem vlmAttempts_error {left done : ℕ} {last : Option (VlmError δ)}
    {details : List (AttemptDetail δ)} {e : VlmError δ} {wait : Option ℚ}
    (houtcome : outcome done = .error e)
    (hwait : backoffMs policy (drawn done) (failuresAfter outcome (done + 1)) e.toExn = .ok wait) :
    vlmAttempts policy drawn outcome (left + 1) done (failuresAfter outcome done) last details
      = let failed := failedAttempt (done + 1) e wait
        let made : List (VlmEvent α δ) := [.started (done + 1),
          .called (callOf outcome done).1 (callOf outcome done).2, .failed failed]
        if willRetry policy (failuresAfter outcome (done + 1)) e.toExn then
          let rest := vlmAttempts policy drawn outcome left (done + 1)
            (failuresAfter outcome (done + 1)) (some e) (details ++ [failed.toDict])
          (made ++ sleepFor wait ++ rest.1, rest.2)
        else (made, .returned ⟨none, some e, done + 1, details ++ [failed.toDict]⟩) := by
  simp only [vlmAttempts, houtcome]
  rw [← failuresAfter_succ_of_error houtcome, hwait, callOf, houtcome]
  rfl

theorem eq_of_not_retried {n done : ℕ} (hretried : ∀ i < n, Retried policy outcome i)
    (hle : done ≤ n) (h : ¬ Retried policy outcome done) : done = n := by
  by_contra hne
  exact h (hretried done (lt_of_le_of_ne hle hne))

/-- From attempt `done + 1` on, where attempt `n + 1` is the first that is not
retried: the calls of these attempts, a report for each that fails, and a return. -/
theorem vlmAttempts_returns {n : ℕ} (hretried : ∀ i < n, Retried policy outcome i)
    (hlast : ¬ Retried policy outcome n) (hfits : WaitsFit policy outcome) :
    ∀ left done last details, done ≤ n → n < done + left → ∃ events result,
      vlmAttempts policy drawn outcome left done (failuresAfter outcome done) last details
          = (events, .returned result) ∧
        calls events = (List.range' done (n + 1 - done)).map (callOf outcome) ∧
        List.Forall₂ Reports (reports events)
          ((List.range' done (n + 1 - done)).filterMap (failureOf outcome)) ∧
        Ends outcome n result := by
  intro left
  induction left with
  | zero => exact fun done _ _ hle hlt => absurd hlt (not_lt.mpr hle)
  | succ left ih =>
      intro done last details hle hlt
      have hrange : n + 1 - done = n - done + 1 := by omega
      rw [hrange, List.range'_succ, List.map_cons, List.filterMap_cons]
      cases houtcome : outcome done with
      | ok output =>
          obtain rfl : done = n := by
            refine eq_of_not_retried hretried hle ?_
            rintro ⟨e, he, -⟩
            rw [houtcome] at he
            cases he
          refine ⟨_, _, by simp only [vlmAttempts, houtcome]; rfl, ?_, ?_, ?_⟩
          · simp [calls, callOf, houtcome]
          · simp [reports, failureOf, houtcome]
          · simp [Ends, houtcome]
      | error e =>
          have hbefore : ∀ i < done, Retried policy outcome i :=
            fun i hi => hretried i (by omega)
          obtain ⟨wait, hwait⟩ :=
            backoffMs_ok_iff (d := drawn done) |>.mpr (hfits done hbefore e houtcome)
          rw [vlmAttempts_error drawn houtcome hwait]
          dsimp only
          by_cases hretry : willRetry policy (failuresAfter outcome (done + 1)) e.toExn = true
          · have hne : done ≠ n := by
              rintro rfl
              exact hlast ⟨e, houtcome, hretry⟩
            obtain ⟨events, result, hrun, hcalls, hreports, hends⟩ :=
              ih (done + 1) (some e)
                (details ++ [(failedAttempt (done + 1) e wait).toDict]) (by omega) (by omega)
            have hrest : n + 1 - (done + 1) = n - done := by omega
            rw [hrest] at hcalls hreports
            rw [if_pos hretry, hrun]
            refine ⟨_, result, rfl, ?_, ?_, hends⟩
            · rw [calls_append, calls_append, calls_sleepFor, hcalls]
              rfl
            · rw [reports_append, reports_append, reports_sleepFor]
              simp only [failureOf, houtcome]
              exact .cons ⟨wait, rfl⟩ hreports
          · obtain rfl : done = n := by
              refine eq_of_not_retried hretried hle ?_
              rintro ⟨e', he', hretry'⟩
              rw [houtcome] at he'
              cases he'
              exact hretry hretry'
            rw [if_neg hretry]
            refine ⟨_, _, rfl, ?_, ?_, ?_⟩
            · simp [calls]
            · simp only [failureOf, houtcome, Nat.sub_self, List.range'_zero, List.filterMap_nil]
              exact .cons ⟨wait, rfl⟩ .nil
            · simp [Ends, houtcome]

/-- From attempt `done + 1` on, where all before attempt `n + 1` are retried and
the wait after that one cannot be computed: an exception gets out. -/
theorem vlmAttempts_raises {n : ℕ} {e : VlmError δ}
    (hretried : ∀ i < n, Retried policy outcome i) (he : outcome n = .error e)
    (hfits : ¬ WaitFits policy (failuresAfter outcome (n + 1)) e.toExn) :
    ∀ left done last details, done ≤ n → n < done + left → ∃ events raised,
      vlmAttempts policy drawn outcome left done (failuresAfter outcome done) last details
          = (events, .raised raised) := by
  intro left
  induction left with
  | zero => exact fun done _ _ hle hlt => absurd hlt (not_lt.mpr hle)
  | succ left ih =>
      intro done last details hle hlt
      obtain ⟨e', houtcome⟩ : ∃ e', outcome done = .error e' := by
        rcases Nat.lt_or_eq_of_le hle with hlt | rfl
        · obtain ⟨e', he', -⟩ := hretried done hlt
          exact ⟨e', he'⟩
        · exact ⟨e, he⟩
      have hcount := failuresAfter_succ_of_error houtcome
      simp only [vlmAttempts, houtcome]
      rw [← hcount]
      cases hwait : backoffMs policy (drawn done) (failuresAfter outcome (done + 1)) e'.toExn with
      | error raised => exact ⟨_, raised, rfl⟩
      | ok wait =>
          have hlt' : done < n := by
            refine lt_of_le_of_ne hle ?_
            rintro rfl
            rw [he] at houtcome
            cases houtcome
            exact hfits (backoffMs_ok_iff.mp ⟨wait, hwait⟩)
          obtain ⟨e'', he'', hretry⟩ := hretried done hlt'
          rw [houtcome] at he''
          cases he''
          obtain ⟨events, raised, hrun⟩ := ih (done + 1) (some e')
            (details ++ [(failedAttempt (done + 1) e' wait).toDict]) (by omega) (by omega)
          dsimp only
          rw [if_pos hretry, hrun]
          exact ⟨_, raised, rfl⟩

/-- How a list of calls splits. -/
theorem split_map_range {β : Type} {f : ℕ → β} {m : ℕ} {before after : List β} {x : β}
    (h : (List.range m).map f = before ++ x :: after) :
    before = (List.range before.length).map f ∧ x = f before.length ∧
      m = before.length + 1 + after.length := by
  have hlength := congrArg List.length h
  rw [List.length_map, List.length_range, List.length_append, List.length_cons] at hlength
  have hget : ∀ i < m, (before ++ x :: after)[i]? = some (f i) := by
    intro i hi
    rw [← h, List.getElem?_map, List.getElem?_range hi, Option.map_some]
  refine ⟨List.ext_getElem? fun i => ?_, ?_, by omega⟩
  · by_cases hi : i < before.length
    · rw [List.getElem?_map, List.getElem?_range hi, Option.map_some, ← hget i (by omega),
        List.getElem?_append_left hi]
    · have hle := not_lt.mp hi
      rw [List.getElem?_eq_none hle, List.getElem?_eq_none (by simpa using hle)]
  · have hx := hget before.length (by omega)
    rw [List.getElem?_append_right (le_refl _), Nat.sub_self, List.getElem?_cons_zero] at hx
    exact Option.some.inj hx

theorem failedAttempts_eq (outcome : ℕ → VlmOutcome α δ) (m : ℕ) :
    failedAttempts ((List.range m).map outcome) = (List.range m).filterMap (failureOf outcome) := by
  induction m with
  | zero => rfl
  | succ m ih =>
      rw [List.range_succ, List.map_append, List.filterMap_append, ← ih]
      unfold failedAttempts
      rw [List.zipIdx_append, List.filterMap_append]
      congr 1
      simp only [List.map_cons, List.map_nil, List.length_map, List.length_range,
        List.zipIdx_cons, List.zipIdx_nil, List.filterMap_cons, List.filterMap_nil, failureOf,
        Nat.zero_add]

theorem retried_iff_due (n : ℕ) :
    Retried policy outcome n ↔
      ∃ e, outcome n = .error e ∧ Due policy ((List.range (n + 1)).map outcome) e := by
  unfold Retried Due
  refine exists_congr fun e => and_congr_right fun _ => ?_
  rw [← provider_failuresAfter, ← schema_failuresAfter]
  simp only [willRetry, providerBudget, schemaBudget, Bool.or_eq_true, Bool.and_eq_true,
    decide_eq_true_eq, endsInProvider, endsInSchema]

/-- The last attempt spends at most one more of each budget. -/
theorem failuresAfter_succ_le (outcome : ℕ → VlmOutcome α δ) (n : ℕ) :
    (failuresAfter outcome (n + 1)).provider ≤ (failuresAfter outcome n).provider + 1 ∧
      (failuresAfter outcome (n + 1)).schema ≤ (failuresAfter outcome n).schema + 1 := by
  cases h : outcome n with
  | ok a => simp [failuresAfter, h]
  | error e =>
      rw [failuresAfter_succ_of_error h]
      simp only [VlmFailures.count]
      constructor <;> split <;> omega

theorem results_of_ends {n : ℕ} {result : VlmResult α δ} (h : Ends outcome n result) :
    Results ((List.range (n + 1)).map outcome) result := by
  obtain ⟨hattempts, hend⟩ := h
  have hlast : ((List.range (n + 1)).map outcome).getLast? = some (outcome n) := by
    rw [List.range_succ, List.map_append, List.map_singleton, List.getLast?_concat]
  cases houtcome : outcome n with
  | ok output =>
      rw [houtcome] at hend hlast
      exact ⟨by simpa using hattempts, by rw [hend.1, hend.2]; rfl, by rw [hlast, hend.1, hend.2]; rfl⟩
  | error e =>
      rw [houtcome] at hend hlast
      exact ⟨by simpa using hattempts, by rw [hend.1, hend.2]; rfl, by rw [hlast, hend.2]⟩

/-- A run that returns is as it should be. -/
theorem executes_of_calls {n : ℕ} {events : List (VlmEvent α δ)} {result : VlmResult α δ}
    (hretried : ∀ i < n, Retried policy outcome i) (hlast : ¬ Retried policy outcome n)
    (hcalls : calls events = (List.range (n + 1)).map (callOf outcome))
    (hreports : List.Forall₂ Reports (reports events)
      ((List.range (n + 1)).filterMap (failureOf outcome)))
    (hends : Ends outcome n result) :
    Executes policy outcome events (.returned result) := by
  have hsnd : (calls events).map Prod.snd = (List.range (n + 1)).map outcome := by
    rw [hcalls, List.map_map]
    rfl
  have hlength : (calls events).length = n + 1 := by
    rw [hcalls, List.length_map, List.length_range]
  obtain ⟨hprovider, hschema, -⟩ := budgets_of_retried hretried
  have hsucc := failuresAfter_succ_le outcome n
  refine ⟨by rw [hsnd, hlength], ?_, ?_, ?_, ?_, ?_, result, rfl, ?_⟩
  · rw [hsnd, ← provider_failuresAfter]
    omega
  · rw [hsnd, ← schema_failuresAfter]
    omega
  · intro before call after hsplit
    rw [hcalls] at hsplit
    obtain ⟨hbefore, rfl, -⟩ := split_map_range hsplit
    rw [callOf, decide_eq_true_eq, schema_failuresAfter, List.countP_pos_iff]
    have hmem : ∀ x, x ∈ (List.range before.length).map outcome ↔
        ∃ earlier ∈ before, earlier.2 = x := by
      intro x
      rw [hbefore, List.length_map, List.length_range]
      simp only [List.mem_map, callOf, exists_exists_and_eq_and]
    constructor
    · rintro ⟨x, hx, hschema⟩
      obtain ⟨earlier, hin, rfl⟩ := (hmem x).mp hx
      exact ⟨earlier, hin, hschema⟩
    · rintro ⟨earlier, hin, hschema⟩
      exact ⟨earlier.2, (hmem _).mpr ⟨earlier, hin, rfl⟩, hschema⟩
  · rw [hsnd, failedAttempts_eq]
    exact hreports
  · intro before call after hsplit
    rw [hcalls] at hsplit
    obtain ⟨hbefore, rfl, hcount⟩ := split_map_range hsplit
    have hmade : (before ++ [callOf outcome before.length]).map Prod.snd
        = (List.range (before.length + 1)).map outcome := by
      rw [hbefore, List.length_map, List.length_range, List.range_succ, List.map_append,
        List.map_append, List.map_map]
      rfl
    rw [hmade]
    refine Iff.trans ?_ (retried_iff_due before.length)
    rw [← List.length_pos_iff_ne_nil]
    constructor
    · intro hpos
      exact hretried _ (by omega)
    · intro hretry
      by_contra hpos
      have hn : before.length = n := by omega
      exact hlast (hn ▸ hretry)
  · rw [hsnd]
    exact results_of_ends hends

end Loop

/-! ## The claim of the loop -/

/-- What `execute_vlm_with_retry` returns, where its loop is as it should be. -/
theorem executeVlmWithRetry_of_executes
    (h : Executes policy outcome (vlmLoop policy drawn outcome).1
      (vlmLoop policy drawn outcome).2) :
    ∃ result, executeVlmWithRetry policy drawn outcome
        = ((vlmLoop policy drawn outcome).1, .ok result) ∧
      Results ((calls (vlmLoop policy drawn outcome).1).map Prod.snd) result := by
  obtain ⟨result, hreturned, hresults⟩ := h.returns
  exact ⟨result, by rw [executeVlmWithRetry, hreturned], hresults⟩

/-- A wait that cannot be computed raises out of the loop. -/
theorem waitsFit_of_executes
    (h : Executes policy outcome (vlmLoop policy drawn outcome).1
      (vlmLoop policy drawn outcome).2) : WaitsFit policy outcome := by
  intro n hretried e he
  by_contra hfits
  obtain ⟨events, raised, hrun⟩ := vlmAttempts_raises drawn hretried he hfits
    (policy.maxAttempts + policy.schemaRegenerateMaxAttempts) 0 none [] (Nat.zero_le _)
    (by simpa using lt_bound_of_retried hretried)
  obtain ⟨result, hreturned, -⟩ := h.returns
  rw [vlmLoop, show (⟨0, 0⟩ : VlmFailures) = failuresAfter outcome 0 from rfl, hrun]
    at hreturned
  cases hreturned

/-- A run is as it should be exactly when each of its waits can be computed. -/
theorem executes_iff (policy : RetryPolicy) (drawn : ℕ → ℚ) (outcome : ℕ → VlmOutcome α δ) :
    Executes policy outcome (vlmLoop policy drawn outcome).1 (vlmLoop policy drawn outcome).2 ↔
      WaitsFit policy outcome := by
  constructor
  · exact waitsFit_of_executes policy drawn outcome
  · intro hfits
    obtain ⟨n, hretried, hlast⟩ := exists_last policy outcome
    obtain ⟨events, result, hrun, hcalls, hreports, hends⟩ :=
      vlmAttempts_returns drawn hretried hlast hfits
        (policy.maxAttempts + policy.schemaRegenerateMaxAttempts) 0 none [] (Nat.zero_le _)
        (by simpa using lt_bound_of_retried hretried)
    rw [vlmLoop, show (⟨0, 0⟩ : VlmFailures) = failuresAfter outcome 0 from rfl, hrun]
    rw [Nat.sub_zero, ← List.range_eq_range'] at hcalls hreports
    exact executes_of_calls hretried hlast hcalls hreports hends

/-- The default backoff, and enough attempts for `2 ** 1024` to come up. -/
def patientPolicy : RetryPolicy where
  maxAttempts := 1026
  backoffBaseMs := 500
  backoffCapMs := 8000
  jitter := 0
  schemaRegenerateMaxAttempts := 0
  schemaRetryBackoffMs := 0
  maxAttempts_pos := by decide
  jitter_mem := noJitter_mem

def providerDown (_ : ℕ) : VlmOutcome Unit Unit :=
  .error { cls := .vlmProvider, message := "503", lockOrBusy := false }

theorem failuresAfter_providerDown (n : ℕ) : failuresAfter providerDown n = ⟨n, 0⟩ := by
  induction n with
  | zero => rfl
  | succ n ih => rw [failuresAfter, ih]; rfl

/-- A provider that stays down: the 1025th wait is `float(2 ** 1024)`, which raises. -/
theorem not_executes_providerDown :
    ¬ Executes patientPolicy providerDown (vlmLoop patientPolicy (fun _ => 0) providerDown).1
      (vlmLoop patientPolicy (fun _ => 0) providerDown).2 := by
  intro hexecutes
  have hfits := waitsFit_of_executes _ _ _ hexecutes
  have hbudget : ∀ n < 1025, ∀ e : VlmError Unit, e.cls = .vlmProvider →
      providerBudget patientPolicy (failuresAfter providerDown (n + 1)) e.toExn = true := by
    intro n hn e he
    have hlt : n + 1 < patientPolicy.maxAttempts := by
      show n + 1 < 1026
      omega
    rw [failuresAfter_providerDown]
    simp [providerBudget, isTransientVlmError, he, hlt]
  have hfit : ∀ n < 1025, n + 1 ≤ 1024 := by
    intro n hn
    have hretried : ∀ i < n, Retried patientPolicy providerDown i := by
      intro i hi
      refine ⟨_, rfl, ?_⟩
      rw [willRetry, hbudget i (by omega) _ rfl, Bool.true_or]
    have hwait := hfits n hretried _ rfl
    rw [WaitFits, if_pos (hbudget n hn _ rfl), failuresAfter_providerDown] at hwait
    rcases hwait with hzero | ⟨-, hle, -⟩
    · exact absurd hzero (by decide)
    · exact hle
  exact absurd (hfit 1024 (by omega)) (by omega)

/-! ## The loop of the unit model -/

section Unit

open Act

variable {σ ω : Type}

/-- Callbacks that do not raise. -/
structure Quiet (cb : VlmCallbacks σ ω) : Prop where
  started : ∀ n s, ∃ s', exec (cb.onAttemptStarted n) s = (.ok (), s')
  succeeded : ∀ n s, ∃ s', exec (cb.onAttemptSucceeded n) s = (.ok (), s')
  failed : ∀ n e s, ∃ s', exec (cb.onAttemptFailed n e) s = (.ok (), s')

/-- What a call raises, if it does. -/
def raisedBy : VlmOutcome α δ → Option Exn
  | .ok _ => none
  | .error e => some e.toExn

/-- What the unit model keeps of the end of a run. -/
def LoopEnd.unitResult (policy : RetryPolicy) : LoopEnd α δ → Except Exn VlmRetryResult
  | .returned result => .ok ⟨result.error.map VlmError.toExn, result.attempts⟩
  | .raised e => .error e
  | .exhausted last _ =>
      .ok ⟨(last.map VlmError.toExn).or (some ⟨.runtime, "vlm retry exhausted", false⟩),
        policy.maxAttempts⟩

theorem exec_vlmLoop {policy : RetryPolicy} {outcome : ℕ → VlmOutcome α δ}
    {vlm : ℕ → Bool → Option Exn} {cb : VlmCallbacks σ ω} (hquiet : Quiet cb)
    (hvlm : ∀ n, vlm (n + 1) (callOf outcome n).1 = raisedBy (outcome n)) :
    ∀ left done last details s, ∃ s',
      exec (Worker.vlmLoop policy vlm cb left (done + 1) (failuresAfter outcome done)
        (last.map VlmError.toExn)) s
        = ((vlmAttempts policy (fun _ => 0) outcome left done (failuresAfter outcome done) last
          details).2.unitResult policy, s') := by
  intro left
  induction left with
  | zero => exact fun done last details s => ⟨s, rfl⟩
  | succ left ih =>
      intro done last details s
      obtain ⟨s₁, hstarted⟩ := hquiet.started (done + 1) s
      have hcall := hvlm done
      rw [callOf] at hcall
      rw [Worker.vlmLoop, exec_bind_ok hstarted, hcall]
      cases houtcome : outcome done with
      | ok output =>
          obtain ⟨s₂, hsucceeded⟩ := hquiet.succeeded (done + 1) s₁
          refine ⟨s₂, ?_⟩
          simp only [raisedBy, vlmAttempts, houtcome]
          rw [exec_bind_ok hsucceeded]
          rfl
      | error e =>
          have hcount := failuresAfter_succ_of_error houtcome
          simp only [raisedBy, vlmAttempts, houtcome]
          rw [← hcount]
          cases hwait : backoffMs policy 0 (failuresAfter outcome (done + 1)) e.toExn with
          | error raised =>
              have hback : exec (retryBackoff policy (failuresAfter outcome (done + 1)) e.toExn :
                  Act Exn σ ω Unit) s₁ = (.error raised, s₁) := by rw [retryBackoff, hwait]; rfl
              exact ⟨s₁, exec_bind_error hback⟩
          | ok wait =>
              obtain ⟨s₂, hfailed⟩ := hquiet.failed (done + 1) e.toExn s₁
              have hback : exec (retryBackoff policy (failuresAfter outcome (done + 1)) e.toExn :
                  Act Exn σ ω Unit) s₁ = (.ok (), s₁) := by rw [retryBackoff, hwait]; rfl
              rw [exec_bind_ok hback, exec_bind_ok hfailed]
              dsimp only
              by_cases hretry : willRetry policy (failuresAfter outcome (done + 1)) e.toExn = true
              · rw [if_pos hretry]
                rw [willRetry] at hretry
                rw [if_pos hretry]
                exact ih (done + 1) (some e) _ s₂
              · rw [if_neg hretry]
                rw [willRetry] at hretry
                rw [if_neg hretry]
                exact ⟨s₂, rfl⟩

/-- The loop the unit model runs ends as this one does. -/
theorem exec_executeVlmWithRetry {policy : RetryPolicy} {outcome : ℕ → VlmOutcome α δ}
    {vlm : ℕ → Bool → Option Exn} {cb : VlmCallbacks σ ω} (hquiet : Quiet cb)
    (hvlm : ∀ n, vlm (n + 1) (callOf outcome n).1 = raisedBy (outcome n)) (s : σ) :
    ∃ s', exec (Worker.executeVlmWithRetry policy vlm cb) s
      = ((vlmLoop policy (fun _ => 0) outcome).2.unitResult policy, s') :=
  exec_vlmLoop hquiet hvlm (policy.maxAttempts + policy.schemaRegenerateMaxAttempts) 0 none [] s

end Unit

end CctvMemory.Worker.VlmRetry
