import CctvMemory.Worker.VlmRetry
import Mathlib.Tactic.Linarith

/-!
# Where the backoff overflows

`compute_backoff_ms` doubles before it caps, so what it converts grows with the
number of the attempt. `backoff_iff`: the waits it can compute, and the policies
under which `execute_vlm_with_retry` returns whatever the calls do, with the sleep
that it has by default.
-/

namespace CctvMemory.Worker.VlmRetry

variable {α δ : Type}

/-! ## The sleep -/

/-- `time.sleep` takes seconds whose nanoseconds are a signed 64-bit number. -/
def sleepLimit : ℚ := 2 ^ 63 / 10 ^ 9

def sleepError : Exn := ⟨.overflow, "timestamp too large to convert to C PyTime_t", false⟩

/-- A run, up to the first sleep that raises. -/
def withSleep : List (VlmEvent α δ) → Except Exn (VlmResult α δ) →
    List (VlmEvent α δ) × Except Exn (VlmResult α δ)
  | [], result => ([], result)
  | .slept seconds :: events, result =>
      if seconds < sleepLimit then
        (.slept seconds :: (withSleep events result).1, (withSleep events result).2)
      else ([.slept seconds], .error sleepError)
  | event :: events, result =>
      (event :: (withSleep events result).1, (withSleep events result).2)

/-- `execute_vlm_with_retry` with `time.sleep`. -/
def executeVlmSleeping (policy : RetryPolicy) (drawn : ℕ → ℚ) (outcome : ℕ → VlmOutcome α δ) :
    List (VlmEvent α δ) × Except Exn (VlmResult α δ) :=
  withSleep (executeVlmWithRetry policy drawn outcome).1
    (executeVlmWithRetry policy drawn outcome).2

/-- It returns when the run does and no sleep of the run raises. -/
theorem withSleep_ok_iff {events : List (VlmEvent α δ)} {result : Except Exn (VlmResult α δ)} :
    (∃ r, (withSleep events result).2 = .ok r) ↔
      (∃ r, result = .ok r) ∧ ∀ seconds, .slept seconds ∈ events → seconds < sleepLimit := by
  induction events with
  | nil => simp [withSleep]
  | cons event events ih =>
      cases event with
      | slept seconds =>
          by_cases h : seconds < sleepLimit
          · simp [withSleep, h, ih]
          · simp [withSleep, h]
      | started _ => simp [withSleep, ih]
      | called _ _ => simp [withSleep, ih]
      | failed _ => simp [withSleep, ih]
      | succeeded _ => simp [withSleep, ih]

/-! ## The wait -/

/-- What `compute_backoff_ms` scales. -/
def rawBackoff (attempt baseMs capMs : ℕ) : ℚ :=
  min ((baseMs : ℚ) * ((2 ^ (attempt - 1) : ℕ) : ℚ)) capMs

theorem rawBackoff_nonneg (attempt baseMs capMs : ℕ) : 0 ≤ rawBackoff attempt baseMs capMs :=
  le_min (mul_nonneg (Nat.cast_nonneg _) (Nat.cast_nonneg _)) (Nat.cast_nonneg _)

theorem rawBackoff_le_cap (attempt baseMs capMs : ℕ) :
    rawBackoff attempt baseMs capMs ≤ capMs := min_le_right _ _

theorem rawBackoff_mono {attempt attempt' : ℕ} (h : attempt ≤ attempt') (baseMs capMs : ℕ) :
    rawBackoff attempt baseMs capMs ≤ rawBackoff attempt' baseMs capMs := by
  refine min_le_min (mul_le_mul_of_nonneg_left ?_ (Nat.cast_nonneg _)) (le_refl _)
  exact Nat.cast_le.mpr (Nat.pow_le_pow_right Nat.two_pos (by omega))

theorem toFloat_eq {n : ℕ} (h : n < floatOverflow) : toFloat n = .ok (n : ℚ) :=
  if_neg (not_le.mpr h)

/-- The factor of the wait, with `drawn` within the jitter. -/
def scale (jitter drawn : ℚ) : ℚ := if jitter ≤ 0 then 1 else 1 + drawn

theorem computeBackoffMs_eq {attempt baseMs capMs : ℕ} {jitter drawn : ℚ} (hbase : baseMs ≠ 0)
    (hbaseFits : baseMs < floatOverflow) (hattempt : attempt ≤ 1024)
    (hcap : capMs < floatOverflow) :
    computeBackoffMs attempt baseMs capMs jitter drawn
      = .ok (max 0 (rawBackoff attempt baseMs capMs * scale jitter drawn)) := by
  unfold computeBackoffMs scale
  rw [if_neg hbase, toFloat_eq hbaseFits, toFloat_eq (pow_lt_floatOverflow.mpr hattempt),
    toFloat_eq hcap]
  show (if jitter ≤ 0 then Except.ok _ else .ok _) = _
  split
  · rw [mul_one]
    rfl
  · rfl

/-- The factors that the jitter allows. -/
theorem scale_mem {jitter drawn : ℚ} (hjitter : 0 ≤ jitter ∧ jitter ≤ 1)
    (hdrawn : -jitter ≤ drawn ∧ drawn ≤ jitter) :
    0 ≤ scale jitter drawn ∧ scale jitter drawn ≤ 1 + jitter := by
  unfold scale
  split
  · exact ⟨zero_le_one, by linarith [hjitter.1]⟩
  · exact ⟨by linarith [hjitter.2, hdrawn.1], by linarith [hdrawn.2]⟩

theorem scale_self {jitter : ℚ} (hjitter : 0 ≤ jitter) : scale jitter jitter = 1 + jitter := by
  unfold scale
  split
  · linarith
  · rfl

/-- A wait before the next attempt is at most that of a later one, scaled up. -/
theorem computeBackoffMs_le {attempt attempt' baseMs capMs : ℕ} {jitter drawn w : ℚ}
    (hle : attempt ≤ attempt') (hjitter : 0 ≤ jitter ∧ jitter ≤ 1)
    (hdrawn : -jitter ≤ drawn ∧ drawn ≤ jitter)
    (h : computeBackoffMs attempt baseMs capMs jitter drawn = .ok w) :
    0 ≤ w ∧ w ≤ rawBackoff attempt' baseMs capMs * (1 + jitter) := by
  have hraw := rawBackoff_nonneg attempt baseMs capMs
  have hlater := (rawBackoff_nonneg attempt' baseMs capMs)
  obtain ⟨hscale, hscaleLe⟩ := scale_mem hjitter hdrawn
  rcases computeBackoffMs_ok_iff.mp ⟨w, h⟩ with rfl | ⟨hbaseFits, hattempt, hcap⟩
  · obtain rfl : (0 : ℚ) = w := by
      injection h
    exact ⟨le_refl _, mul_nonneg hlater (by linarith [hjitter.1])⟩
  · by_cases hbase : baseMs = 0
    · subst hbase
      obtain rfl : (0 : ℚ) = w := by
        injection h
      exact ⟨le_refl _, mul_nonneg hlater (by linarith [hjitter.1])⟩
    · rw [computeBackoffMs_eq hbase hbaseFits hattempt hcap] at h
      injection h with h
      subst h
      refine ⟨le_max_left _ _, max_le (mul_nonneg hlater (by linarith [hjitter.1])) ?_⟩
      calc rawBackoff attempt baseMs capMs * scale jitter drawn
          ≤ rawBackoff attempt baseMs capMs * (1 + jitter) :=
            mul_le_mul_of_nonneg_left hscaleLe hraw
        _ ≤ rawBackoff attempt' baseMs capMs * (1 + jitter) :=
            mul_le_mul_of_nonneg_right (rawBackoff_mono hle baseMs capMs)
              (by linarith [hjitter.1])

/-! ## What a run sleeps -/

section Runs

variable {policy : RetryPolicy} {drawn : ℕ → ℚ} {outcome : ℕ → VlmOutcome α δ}

theorem slept_mem_sleepFor {wait : Option ℚ} {seconds : ℚ}
    (h : VlmEvent.slept seconds ∈ (sleepFor wait : List (VlmEvent α δ))) :
    ∃ ms, wait = some ms ∧ seconds = ms / 1000 := by
  cases wait with
  | none => cases h
  | some ms =>
      rw [sleepFor] at h
      split at h
      · obtain rfl : seconds = ms / 1000 := by simpa using h
        exact ⟨ms, rfl, rfl⟩
      · cases h

/-- Every sleep is the wait after some failure. -/
theorem slept_of_mem {seconds : ℚ} :
    ∀ left done f last details,
      VlmEvent.slept seconds ∈ (vlmAttempts policy drawn outcome left done f last details).1 →
        ∃ i, ∃ f' : VlmFailures, ∃ e ms,
          backoffMs policy (drawn i) (f'.count e) e = .ok (some ms) ∧ seconds = ms / 1000 := by
  intro left
  induction left with
  | zero =>
      intro done f last details h
      cases h
  | succ left ih =>
      intro done f last details h
      cases houtcome : outcome done with
      | ok output => simp [vlmAttempts, houtcome] at h
      | error e =>
          cases hwait : backoffMs policy (drawn done) (f.count e.toExn) e.toExn with
          | error raised => simp [vlmAttempts, houtcome, hwait] at h
          | ok wait =>
              simp only [vlmAttempts, houtcome, hwait] at h
              split at h
              · rw [List.mem_append, List.mem_append] at h
                rcases h with (h | h) | h
                · simp at h
                · obtain ⟨ms, rfl, hseconds⟩ := slept_mem_sleepFor h
                  exact ⟨done, _, _, ms, hwait, hseconds⟩
                · exact ih _ _ _ _ h
              · simp at h

/-- From attempt `done + 1` on, where all up to attempt `n + 1` are retried: the
run sleeps the wait after that one, if an exception does not get out before. -/
theorem vlmAttempts_sleeps {n : ℕ} {e : VlmError δ} {ms : ℚ}
    (hretried : ∀ i ≤ n, Retried policy outcome i) (he : outcome n = .error e)
    (hwait : backoffMs policy (drawn n) (failuresAfter outcome (n + 1)) e.toExn
      = .ok (some ms)) (hpos : 0 < ms) :
    ∀ left done last details, done ≤ n → n < done + left →
      (∃ raised, (vlmAttempts policy drawn outcome left done (failuresAfter outcome done) last
        details).2 = .raised raised) ∨
      .slept (ms / 1000) ∈ (vlmAttempts policy drawn outcome left done
        (failuresAfter outcome done) last details).1 := by
  intro left
  induction left with
  | zero => exact fun done _ _ hle hlt => absurd hlt (not_lt.mpr hle)
  | succ left ih =>
      intro done last details hle hlt
      obtain ⟨e', houtcome, hretry⟩ := hretried done hle
      cases hnow : backoffMs policy (drawn done) (failuresAfter outcome (done + 1)) e'.toExn with
      | error raised =>
          left
          refine ⟨raised, ?_⟩
          rw [failuresAfter_succ_of_error houtcome] at hnow
          simp only [vlmAttempts, houtcome, hnow]
      | ok wait =>
          rw [vlmAttempts_error drawn houtcome hnow]
          dsimp only
          rw [if_pos hretry]
          rcases Nat.lt_or_eq_of_le hle with hbefore | rfl
          · rcases ih (done + 1) (some e') _ hbefore (by omega) with hraised | hmem
            · exact Or.inl hraised
            · exact Or.inr (List.mem_append_right _ hmem)
          · obtain rfl : e = e' := by
              rw [he] at houtcome
              injection houtcome
            obtain rfl : some ms = wait := by
              rw [hwait] at hnow
              injection hnow
            right
            refine List.mem_append_left _ (List.mem_append_right _ ?_)
            rw [sleepFor, if_pos hpos]
            exact List.mem_singleton.mpr rfl

/-- The same of a whole run. -/
theorem executeVlmWithRetry_sleeps {n : ℕ} {e : VlmError δ} {ms : ℚ}
    (hretried : ∀ i ≤ n, Retried policy outcome i) (he : outcome n = .error e)
    (hwait : backoffMs policy (drawn n) (failuresAfter outcome (n + 1)) e.toExn
      = .ok (some ms)) (hpos : 0 < ms)
    (hreturns : ∃ r, (executeVlmWithRetry policy drawn outcome).2 = .ok r) :
    .slept (ms / 1000) ∈ (executeVlmWithRetry policy drawn outcome).1 := by
  have hlt := lt_bound_of_retried fun i (hi : i < n) => hretried i (Nat.le_of_lt hi)
  rcases vlmAttempts_sleeps hretried he hwait hpos
    (policy.maxAttempts + policy.schemaRegenerateMaxAttempts) 0 none [] (Nat.zero_le _)
    (by omega) with ⟨raised, hraised⟩ | hmem
  · obtain ⟨r, hr⟩ := hreturns
    have hloop : (vlmLoop policy drawn outcome).2 = .raised raised := hraised
    rw [executeVlmWithRetry, hloop] at hr
    cases hr
  · exact hmem

/-- A run that returns can compute the wait after each failure it gets to. -/
theorem waitFits_of_returns {n : ℕ} {e : VlmError δ}
    (hretried : ∀ i < n, Retried policy outcome i) (he : outcome n = .error e)
    (hreturns : ∃ r, (executeVlmWithRetry policy drawn outcome).2 = .ok r) :
    WaitFits policy (failuresAfter outcome (n + 1)) e.toExn := by
  by_contra hfits
  obtain ⟨events, raised, hrun⟩ := vlmAttempts_raises drawn hretried he hfits
    (policy.maxAttempts + policy.schemaRegenerateMaxAttempts) 0 none [] (Nat.zero_le _)
    (by simpa using lt_bound_of_retried hretried)
  obtain ⟨r, hr⟩ := hreturns
  have hloop : vlmLoop policy drawn outcome = (events, .raised raised) := hrun
  rw [executeVlmWithRetry, hloop] at hr
  cases hr

theorem executeVlmWithRetry_returns (hfits : WaitsFit policy outcome) :
    ∃ r, (executeVlmWithRetry policy drawn outcome).2 = .ok r := by
  obtain ⟨n, hretried, hlast⟩ := exists_last policy outcome
  obtain ⟨events, result, hrun, -⟩ :=
    vlmAttempts_returns drawn hretried hlast hfits
      (policy.maxAttempts + policy.schemaRegenerateMaxAttempts) 0 none [] (Nat.zero_le _)
      (by simpa using lt_bound_of_retried hretried)
  have hloop : vlmLoop policy drawn outcome = (events, .returned result) := hrun
  rw [executeVlmWithRetry, hloop]
  exact ⟨result, rfl⟩

end Runs

/-! ## Calls that always fail -/

/-- Every call raises an exception of this class. -/
def failing (cls : ExnClass) (_ : ℕ) : VlmOutcome α δ :=
  .error { cls := cls, message := "", lockOrBusy := false }

theorem failuresAfter_provider (n : ℕ) :
    failuresAfter (failing .vlmProvider : ℕ → VlmOutcome α δ) n = ⟨n, 0⟩ := by
  induction n with
  | zero => rfl
  | succ n ih =>
      rw [failuresAfter, ih]
      rfl

theorem retried_provider {policy : RetryPolicy} {n : ℕ} (h : n + 1 < policy.maxAttempts) :
    Retried policy (failing .vlmProvider : ℕ → VlmOutcome α δ) n := by
  refine ⟨_, rfl, ?_⟩
  rw [failuresAfter_provider]
  simp [willRetry, providerBudget, isTransientVlmError, h]

theorem retried_schema {policy : RetryPolicy} (h : policy.schemaRegenerateMaxAttempts ≠ 0) :
    Retried policy (failing .vlmSchemaValidation : ℕ → VlmOutcome α δ) 0 := by
  refine ⟨_, rfl, ?_⟩
  simp [willRetry, providerBudget, schemaBudget, isTransientVlmError, isSchemaVlmError,
    failuresAfter, failing, VlmFailures.count, Nat.one_le_iff_ne_zero, h]

/-! ## What is promised, and when it holds -/

/-- Each draw within the jitter. -/
def Drawn (policy : RetryPolicy) (drawn : ℚ) : Prop :=
  -policy.jitter ≤ drawn ∧ drawn ≤ policy.jitter

/-- The wait is computed, and is between 0 and the cap scaled up by the jitter. -/
def InRange (policy : RetryPolicy) (attempt : ℕ) : Prop :=
  ∀ drawn, Drawn policy drawn → ∃ w,
    computeBackoffMs attempt policy.backoffBaseMs policy.backoffCapMs policy.jitter drawn = .ok w ∧
      0 ≤ w ∧ w ≤ policy.backoffCapMs * (1 + policy.jitter)

/-- Whatever the calls do, a result is returned. -/
def AlwaysReturns (α δ : Type) (policy : RetryPolicy) : Prop :=
  ∀ (drawn : ℕ → ℚ) (outcome : ℕ → VlmOutcome α δ), (∀ n, Drawn policy (drawn n)) →
    ∃ result, (executeVlmSleeping policy drawn outcome).2 = .ok result

/-- The numbers that the wait before attempt `attempt + 1` is computed from have a
float. -/
def BackoffFits (policy : RetryPolicy) (attempt : ℕ) : Prop :=
  policy.backoffBaseMs = 0 ∨ policy.backoffBaseMs < floatOverflow ∧ attempt ≤ 1024 ∧
    policy.backoffCapMs < floatOverflow

/-- Of a policy: no wait is too long to compute or to sleep. -/
structure ShortWaits (policy : RetryPolicy) : Prop where
  /-- The longest wait is that after the last provider error but one. -/
  provider : policy.maxAttempts = 1 ∨ policy.backoffBaseMs = 0 ∨
    BackoffFits policy (policy.maxAttempts - 1) ∧
      rawBackoff (policy.maxAttempts - 1) policy.backoffBaseMs policy.backoffCapMs
        * (1 + policy.jitter) < 1000 * sleepLimit
  schema : policy.schemaRegenerateMaxAttempts = 0 ∨
    policy.schemaRetryBackoffMs < 1000 * sleepLimit

theorem inRange_iff (policy : RetryPolicy) (attempt : ℕ) :
    InRange policy attempt ↔ BackoffFits policy attempt := by
  constructor
  · intro h
    obtain ⟨w, hw, -⟩ := h 0 ⟨neg_nonpos.mpr policy.jitter_mem.1, policy.jitter_mem.1⟩
    exact computeBackoffMs_ok_iff.mp ⟨w, hw⟩
  · intro h drawn hdrawn
    obtain ⟨w, hw⟩ := (@computeBackoffMs_ok_iff attempt _ _ policy.jitter drawn).mpr h
    obtain ⟨hnonneg, hle⟩ := computeBackoffMs_le (le_refl attempt) policy.jitter_mem hdrawn hw
    refine ⟨w, hw, hnonneg, hle.trans ?_⟩
    exact mul_le_mul_of_nonneg_right (rawBackoff_le_cap _ _ _)
      (by linarith [policy.jitter_mem.1])

theorem sleepLimit_lt_floatOverflow {n : ℕ} (h : (n : ℚ) < 1000 * sleepLimit) :
    n < floatOverflow := by
  have hle : (1000 * sleepLimit : ℚ) ≤ (2 ^ 64 : ℕ) := by
    norm_num [sleepLimit]
  have hn : n < 2 ^ 64 := by exact_mod_cast h.trans_le hle
  exact hn.trans (by decide +kernel)

/-- The failure is counted. -/
structure Counted (f : VlmFailures) (e : Exn) : Prop where
  provider : isTransientVlmError e = true → 0 < f.provider
  schema : isSchemaVlmError e = true → 0 < f.schema

theorem counted_count (f : VlmFailures) (e : Exn) : Counted (f.count e) e := by
  constructor <;> intro h <;> simp [VlmFailures.count, h]

theorem lt_of_providerBudget {policy : RetryPolicy} {f : VlmFailures} {e : Exn}
    (hcounted : Counted f e) (h : providerBudget policy f e = true) :
    policy.maxAttempts ≠ 1 ∧ f.provider ≤ policy.maxAttempts - 1 := by
  rw [providerBudget, Bool.and_eq_true, decide_eq_true_eq] at h
  have hpos := hcounted.provider h.1
  omega

theorem ne_zero_of_schemaBudget {policy : RetryPolicy} {f : VlmFailures} {e : Exn}
    (hcounted : Counted f e) (h : schemaBudget policy f e = true) :
    policy.schemaRegenerateMaxAttempts ≠ 0 := by
  rw [schemaBudget, Bool.and_eq_true, decide_eq_true_eq] at h
  have hpos := hcounted.schema h.1
  omega

namespace ShortWaits

variable {policy : RetryPolicy} {f : VlmFailures} {e : Exn}

theorem waitFits (h : ShortWaits policy) (hcounted : Counted f e) : WaitFits policy f e := by
  unfold WaitFits
  split
  · rename_i hbudget
    obtain ⟨hne, hle⟩ := lt_of_providerBudget hcounted hbudget
    rcases h.provider with hone | hzero | ⟨hzero | ⟨hbase, hattempt, hcap⟩, -⟩
    · exact absurd hone hne
    · exact Or.inl hzero
    · exact Or.inl hzero
    · exact Or.inr ⟨hbase, hle.trans hattempt, hcap⟩
  · intro hbudget
    have hne := ne_zero_of_schemaBudget hcounted hbudget
    exact sleepLimit_lt_floatOverflow (h.schema.resolve_left hne)

theorem lt_sleepLimit {drawn ms : ℚ} (h : ShortWaits policy) (hcounted : Counted f e)
    (hdrawn : Drawn policy drawn) (hwait : backoffMs policy drawn f e = .ok (some ms)) :
    ms < 1000 * sleepLimit := by
  unfold backoffMs at hwait
  split at hwait
  · rename_i hbudget
    obtain ⟨hne, hle⟩ := lt_of_providerBudget hcounted hbudget
    cases hcompute : computeBackoffMs f.provider policy.backoffBaseMs policy.backoffCapMs
        policy.jitter drawn with
    | error raised =>
        rw [hcompute] at hwait
        cases hwait
    | ok w =>
        obtain rfl : w = ms := by
          rw [hcompute] at hwait
          injection hwait with hwait
          injection hwait
        rcases h.provider with hone | hzero | ⟨-, hshort⟩
        · exact absurd hone hne
        · rw [computeBackoffMs, if_pos hzero] at hcompute
          injection hcompute with hcompute
          rw [← hcompute]
          norm_num [sleepLimit]
        · exact (computeBackoffMs_le hle policy.jitter_mem hdrawn hcompute).2.trans_lt hshort
  · split at hwait
    · rename_i hbudget
      rw [Bool.and_eq_true] at hbudget
      have hshort := h.schema.resolve_left (ne_zero_of_schemaBudget hcounted hbudget.1)
      rw [toFloat_eq (sleepLimit_lt_floatOverflow hshort)] at hwait
      injection hwait with hwait
      injection hwait with hwait
      rw [← hwait]
      exact hshort
    · cases hwait

theorem returns (h : ShortWaits policy) : AlwaysReturns α δ policy := by
  intro drawn outcome hdrawn
  refine withSleep_ok_iff.mpr ⟨executeVlmWithRetry_returns fun n _ e he => ?_, ?_⟩
  · rw [failuresAfter_succ_of_error he]
    exact h.waitFits (counted_count _ _)
  · intro seconds hmem
    obtain ⟨i, f, e, ms, hwait, rfl⟩ := slept_of_mem _ _ _ _ _ hmem
    have hlt := h.lt_sleepLimit (counted_count f e) (hdrawn i) hwait
    linarith

end ShortWaits

section Returns

variable {policy : RetryPolicy}

/-- A provider that stays down asks for the longest wait. -/
theorem provider_of_returns (h : AlwaysReturns α δ policy) (hone : policy.maxAttempts ≠ 1)
    (hbase : policy.backoffBaseMs ≠ 0) :
    BackoffFits policy (policy.maxAttempts - 1) ∧
      rawBackoff (policy.maxAttempts - 1) policy.backoffBaseMs policy.backoffCapMs
        * (1 + policy.jitter) < 1000 * sleepLimit := by
  have hpos := policy.maxAttempts_pos
  obtain ⟨n, hn⟩ : ∃ n, policy.maxAttempts = n + 2 := ⟨policy.maxAttempts - 2, by omega⟩
  have hjitter := policy.jitter_mem
  have hdrawn : Drawn policy policy.jitter := ⟨by linarith [hjitter.1], le_refl _⟩
  obtain ⟨hreturns, hsleeps⟩ :=
    withSleep_ok_iff.mp (h (fun _ => policy.jitter) (failing .vlmProvider) fun _ => hdrawn)
  have hretried : ∀ i ≤ n, Retried policy (failing .vlmProvider : ℕ → VlmOutcome α δ) i :=
    fun i hi => retried_provider (by omega)
  obtain ⟨e, he, hkind⟩ : ∃ e : VlmError δ,
      (failing .vlmProvider : ℕ → VlmOutcome α δ) n = .error e ∧
        isTransientVlmError e.toExn = true := ⟨_, rfl, rfl⟩
  have hbudget : providerBudget policy ⟨n + 1, 0⟩ e.toExn = true := by
    rw [providerBudget, hkind, Bool.true_and, decide_eq_true_eq, hn]
    exact Nat.lt_succ_self _
  have hfits := waitFits_of_returns (fun i hi => hretried i (Nat.le_of_lt hi)) he hreturns
  rw [failuresAfter_provider, WaitFits, if_pos hbudget] at hfits
  obtain ⟨hbaseFits, hattempt, hcap⟩ := hfits.resolve_left hbase
  have hlast : policy.maxAttempts - 1 = n + 1 := by omega
  rw [hlast]
  refine ⟨Or.inr ⟨hbaseFits, hattempt, hcap⟩, ?_⟩
  have hnonneg : 0 ≤ rawBackoff (n + 1) policy.backoffBaseMs policy.backoffCapMs
      * (1 + policy.jitter) := mul_nonneg (rawBackoff_nonneg _ _ _) (by linarith [hjitter.1])
  have hwait : backoffMs policy policy.jitter
      (failuresAfter (failing .vlmProvider : ℕ → VlmOutcome α δ) (n + 1)) e.toExn
        = .ok (some (rawBackoff (n + 1) policy.backoffBaseMs policy.backoffCapMs
          * (1 + policy.jitter))) := by
    rw [failuresAfter_provider, backoffMs, if_pos hbudget,
      computeBackoffMs_eq hbase hbaseFits hattempt hcap, scale_self hjitter.1,
      max_eq_right hnonneg]
    rfl
  rcases hnonneg.eq_or_lt with hzero | hlt
  · rw [← hzero]
    norm_num [sleepLimit]
  · have hslept := hsleeps _ (executeVlmWithRetry_sleeps hretried he hwait hlt hreturns)
    linarith

/-- A schema error is followed by the wait of the schema. -/
theorem schema_of_returns (h : AlwaysReturns α δ policy)
    (hne : policy.schemaRegenerateMaxAttempts ≠ 0) :
    policy.schemaRetryBackoffMs < 1000 * sleepLimit := by
  have hjitter := policy.jitter_mem
  have hdrawn : Drawn policy policy.jitter := ⟨by linarith [hjitter.1], le_refl _⟩
  obtain ⟨hreturns, hsleeps⟩ :=
    withSleep_ok_iff.mp
      (h (fun _ => policy.jitter) (failing .vlmSchemaValidation) fun _ => hdrawn)
  have hretried : ∀ i ≤ 0,
      Retried policy (failing .vlmSchemaValidation : ℕ → VlmOutcome α δ) i := by
    intro i hi
    rw [Nat.le_zero.mp hi]
    exact retried_schema hne
  obtain ⟨e, he, hkind⟩ : ∃ e : VlmError δ,
      (failing .vlmSchemaValidation : ℕ → VlmOutcome α δ) 0 = .error e ∧
        e.cls = .vlmSchemaValidation := ⟨_, rfl, rfl⟩
  have hf : failuresAfter (failing .vlmSchemaValidation : ℕ → VlmOutcome α δ) 1 = ⟨0, 1⟩ := rfl
  have hprovider : providerBudget policy ⟨0, 1⟩ e.toExn = false := by
    simp [providerBudget, isTransientVlmError, hkind]
  have hbudget : schemaBudget policy ⟨0, 1⟩ e.toExn = true := by
    simp [schemaBudget, isSchemaVlmError, hkind, Nat.one_le_iff_ne_zero, hne]
  have hfits := waitFits_of_returns (fun i hi => absurd hi (Nat.not_lt_zero i)) he hreturns
  rw [hf, WaitFits, if_neg (by rw [hprovider]; decide)] at hfits
  rcases Nat.eq_zero_or_pos policy.schemaRetryBackoffMs with hzero | hlt
  · rw [hzero]
    norm_num [sleepLimit]
  · have hwait : backoffMs policy policy.jitter
        (failuresAfter (failing .vlmSchemaValidation : ℕ → VlmOutcome α δ) 1) e.toExn
          = .ok (some (policy.schemaRetryBackoffMs : ℚ)) := by
      rw [hf, backoffMs, hprovider, hbudget, toFloat_eq (hfits hbudget)]
      simp [hlt, Except.map]
    have hslept := hsleeps _ (executeVlmWithRetry_sleeps hretried he hwait
      (Nat.cast_pos.mpr hlt) hreturns)
    linarith

theorem shortWaits_of_returns (h : AlwaysReturns α δ policy) : ShortWaits policy := by
  refine ⟨?_, ?_⟩
  · by_cases hone : policy.maxAttempts = 1
    · exact Or.inl hone
    · by_cases hbase : policy.backoffBaseMs = 0
      · exact Or.inr (Or.inl hbase)
      · exact Or.inr (Or.inr (provider_of_returns h hone hbase))
  · by_cases hzero : policy.schemaRegenerateMaxAttempts = 0
    · exact Or.inl hzero
    · exact Or.inr (schema_of_returns h hzero)

end Returns

end CctvMemory.Worker.VlmRetry
