import CctvMemory.Library.Trace
import Mathlib.Data.Fintype.Card
import Mathlib.Data.Fintype.Basic

/-!
# Pacing of VLM calls

`VlmScheduler.run`: a semaphore caps the calls in flight, and the start of each call
is stamped under a lock, no sooner than the minimum interval after the stamp before.
The call itself starts later: the lock is released and a callback is made in
between. Threads take their steps in any order; whatever they call may raise.

* `capped_of_run`, `permits_of_run`: calls in flight, and permits that come back.
* `paced_of_promptRun`: the interval between calls, where no call is delayed after
  its stamp longer than the next one.
-/

namespace CctvMemory.Worker.Pacing

/-! ## One thread -/

structure SchedulerConfig where
  maxConcurrent : ℕ
  minIntervalMs : ℕ
  maxConcurrent_pos : 1 ≤ maxConcurrent

def SchedulerConfig.minIntervalNs (cfg : SchedulerConfig) : ℕ := cfg.minIntervalMs * 1000000

/-- Where a thread is in `run`. -/
inductive Phase where
  /-- Outside, or about to report `wait_start`. -/
  | idle
  | waiting
  /-- With a permit, about to report `wait_finish`. -/
  | acquired
  /-- At the interval lock. -/
  | pacing
  | locked
  /-- Too early by `wait`, about to report `interval_start`. -/
  | early (wait : ℕ)
  | resting (wait : ℕ)
  | sleeping (wake : ℕ)
  /-- About to report `interval_finish`. -/
  | slept
  | stamping
  | stamped (stamp : ℕ)
  /-- Past the lock, about to report `call_start`. -/
  | starting (stamp : ℕ)
  | calling (stamp : ℕ)
  | inCall
  /-- About to report `call_finish` or `call_fail`. -/
  | reporting
  /-- An exception leaves the interval lock. -/
  | unlocking
  /-- A result or an exception leaves the semaphore. -/
  | releasing
deriving DecidableEq, Repr

/-- The thread has a permit. -/
def Phase.holds : Phase → Bool
  | .idle | .waiting => false
  | _ => true

/-- The thread has the interval lock. -/
def Phase.locks : Phase → Bool
  | .locked | .early _ | .resting _ | .sleeping _ | .slept | .stamping | .stamped _
  | .unlocking => true
  | _ => false

/-- How a call that a thread makes ends; an interrupt is no `Exception`. -/
inductive Outcome where
  | returns
  | raises
  | interrupts
deriving DecidableEq, Repr

structure Call where
  stamp : ℕ
  start : ℕ
deriving DecidableEq, Repr

/-- What the threads share: the clock in nanoseconds, the semaphore, the interval
lock, `_last_start_ns`; and the stamps and calls so far, the newest first. -/
structure Shared (τ : Type) where
  now : ℕ
  free : ℕ
  lock : Option τ
  lastStart : ℕ
  stamps : List ℕ
  calls : List Call
deriving DecidableEq

variable {τ : Type}

/-- The next step of thread `t`; `none` where it is blocked. -/
def advance (cfg : SchedulerConfig) (t : τ) (o : Outcome) (sh : Shared τ) :
    Phase → Option (Phase × Shared τ)
  | .idle => some (if o = .returns then .waiting else .idle, sh)
  | .waiting =>
      if sh.free = 0 then none else some (.acquired, { sh with free := sh.free - 1 })
  | .acquired =>
      some (if o = .returns then
          -- without an interval there is no stamp, the time stands for it
          if 0 < cfg.minIntervalNs then .pacing else .starting sh.now
        else .releasing, sh)
  | .pacing =>
      match sh.lock with
      | some _ => none
      | none => some (.locked, { sh with lock := some t })
  | .locked =>
      let elapsed := sh.now - sh.lastStart
      some (if elapsed < cfg.minIntervalNs then .early (cfg.minIntervalNs - elapsed)
        else .stamping, sh)
  | .early wait => some (if o = .returns then .resting wait else .unlocking, sh)
  | .resting wait => some (if o = .returns then .sleeping (sh.now + wait) else .unlocking, sh)
  | .sleeping wake => if sh.now < wake then none else some (.slept, sh)
  | .slept => some (if o = .returns then .stamping else .unlocking, sh)
  | .stamping =>
      some (.stamped sh.now, { sh with lastStart := sh.now, stamps := sh.now :: sh.stamps })
  | .stamped stamp => some (.starting stamp, { sh with lock := none })
  | .starting stamp => some (if o = .returns then .calling stamp else .releasing, sh)
  | .calling stamp => some (.inCall, { sh with calls := ⟨stamp, sh.now⟩ :: sh.calls })
  | .inCall => some (if o = .interrupts then .releasing else .reporting, sh)
  | .reporting => some (.releasing, sh)
  | .unlocking => some (.releasing, { sh with lock := none })
  | .releasing => some (.idle, { sh with free := sh.free + 1 })

/-! ## What a thread does next -/

/-- The thread is on its way out: how many steps it has left. -/
def Phase.stepsOut : Phase → Option ℕ
  | .reporting | .unlocking => some 2
  | .releasing => some 1
  | _ => none

/-- What the thread does next may raise: a report, a sleep or the call. -/
def Phase.calls : Phase → Bool
  | .idle | .acquired | .early _ | .resting _ | .slept | .starting _ | .inCall | .reporting => true
  | _ => false

/-- The thread has the lock exactly when it is where it has it. -/
def Locking (t : τ) (sh : Shared τ) (p : Phase) : Prop := p.locks = true ↔ sh.lock = some t

/-- The stamps are the interval apart, and nothing is later than now. -/
structure Clocked (cfg : SchedulerConfig) (sh : Shared τ) : Prop where
  last_le : sh.lastStart ≤ sh.now
  stamp_le : ∀ x ∈ sh.stamps, x ≤ sh.lastStart
  apart : ∀ x ∈ sh.stamps, ∀ y ∈ sh.stamps, x < y → x + cfg.minIntervalNs ≤ y
  started : ∀ c ∈ sh.calls, c.start ≤ sh.now
  stamped : 0 < cfg.minIntervalNs → ∀ c ∈ sh.calls, c.stamp ∈ sh.stamps

/-- What a thread knows of the time. -/
def Timed (cfg : SchedulerConfig) (sh : Shared τ) : Phase → Prop
  | .early wait | .resting wait => sh.lastStart + cfg.minIntervalNs ≤ sh.now + wait
  | .sleeping wake => sh.lastStart + cfg.minIntervalNs ≤ wake
  | .slept | .stamping => sh.lastStart + cfg.minIntervalNs ≤ sh.now
  | .stamped stamp | .starting stamp | .calling stamp =>
      0 < cfg.minIntervalNs → stamp ∈ sh.stamps
  | _ => True

/-- What a step does to what is shared. -/
inductive Does (t : τ) (sh : Shared τ) : Phase → Phase → Shared τ → Prop where
  | nothing {p p' : Phase} (hholds : p'.holds = p.holds) (hlocks : p'.locks = p.locks) :
      Does t sh p p' sh
  | acquire (hfree : sh.free ≠ 0) :
      Does t sh .waiting .acquired { sh with free := sh.free - 1 }
  | lock (hlock : sh.lock = none) : Does t sh .pacing .locked { sh with lock := some t }
  | stamp : Does t sh .stamping (.stamped sh.now)
      { sh with lastStart := sh.now, stamps := sh.now :: sh.stamps }
  | unlock {p p' : Phase} (hholds : p'.holds = p.holds) (hlocks : p.locks = true)
      (hfree : p'.locks = false) : Does t sh p p' { sh with lock := none }
  | call (stamp : ℕ) : Does t sh (.calling stamp) .inCall
      { sh with calls := ⟨stamp, sh.now⟩ :: sh.calls }
  | release : Does t sh .releasing .idle { sh with free := sh.free + 1 }

section Thread

variable {cfg : SchedulerConfig} {t u : τ} {o : Outcome} {sh sh' : Shared τ} {p p' q : Phase}

theorem advance_does (h : advance cfg t o sh p = some (p', sh')) : Does t sh p p' sh' := by
  cases p <;> simp only [advance] at h
  case waiting =>
    split at h
    · cases h
    · rename_i hfree
      cases h
      exact .acquire hfree
  case pacing =>
    split at h
    · cases h
    · rename_i hlock
      cases h
      exact .lock hlock
  case sleeping => split at h <;> cases h; exact .nothing rfl rfl
  case stamping =>
    cases h
    exact .stamp
  case stamped =>
    cases h
    exact .unlock rfl rfl rfl
  case calling stamp =>
    cases h
    exact .call stamp
  case unlocking =>
    cases h
    exact .unlock rfl rfl rfl
  case releasing =>
    cases h
    exact .release
  -- the rest goes from phase to phase, by the outcome and the interval
  all_goals
    cases h
    constructor
  all_goals first | rfl | (split <;> first | rfl | (split <;> rfl))

/-- A step takes a permit, gives one back, or does neither. -/
theorem advance_permits (h : advance cfg t o sh p = some (p', sh')) :
    sh'.free + p'.holds.toNat = sh.free + p.holds.toNat := by
  cases advance_does h with
  | nothing hholds => rw [hholds]
  | acquire hfree =>
      show sh.free - 1 + 1 = sh.free + 0
      omega
  | unlock hholds => rw [hholds]
  | lock | stamp | call | release => rfl

/-- What raises under a permit leads out. -/
theorem advance_raising (hholds : p.holds = true) (hcalls : p.calls = true)
    (ho : o ≠ .returns) (h : advance cfg t o sh p = some (p', sh')) :
    ∃ n, p'.stepsOut = some n := by
  cases p <;>
    first | exact absurd hholds (by decide) | exact absurd hcalls Bool.false_ne_true | skip
  all_goals
    simp only [advance, ho, if_false, Option.some.injEq, Prod.mk.injEq] at h
    obtain ⟨rfl, -⟩ := h
  all_goals first | exact ⟨_, rfl⟩ | (split <;> exact ⟨_, rfl⟩)

/-- On the way out nothing is waited for, and the last step gives the permit back. -/
theorem advance_out {n : ℕ} (h : p.stepsOut = some (n + 1)) : ∃ p' sh',
    advance cfg t o sh p = some (p', sh') ∧
      (n = 0 → p' = .idle ∧ sh'.free = sh.free + 1) ∧ (n ≠ 0 → p'.stepsOut = some n) := by
  cases p <;> simp only [Phase.stepsOut, reduceCtorEq, Option.some.injEq] at h
  case reporting =>
    obtain rfl : n = 1 := by omega
    exact ⟨_, _, rfl, fun h => absurd h one_ne_zero, fun _ => rfl⟩
  case unlocking =>
    obtain rfl : n = 1 := by omega
    exact ⟨_, _, rfl, fun h => absurd h one_ne_zero, fun _ => rfl⟩
  case releasing =>
    obtain rfl : n = 0 := by omega
    exact ⟨_, _, rfl, fun _ => ⟨rfl, rfl⟩, fun h => absurd rfl h⟩

/-- Only the thread itself can come by the lock or lose it. -/
theorem advance_locking (hlocking : Locking t sh p)
    (h : advance cfg t o sh p = some (p', sh')) :
    Locking t sh' p' ∧ ∀ u ≠ t, sh'.lock = some u ↔ sh.lock = some u := by
  have hothers : sh.lock = some t → ∀ u ≠ t, none = some u ↔ sh.lock = some u := by
    intro hlock u hu
    rw [hlock]
    exact iff_of_false (by simp) fun heq => hu (Option.some.inj heq).symm
  unfold Locking at hlocking ⊢
  cases advance_does h with
  | nothing _ hlocks =>
      rw [hlocks]
      exact ⟨hlocking, fun _ _ => Iff.rfl⟩
  | lock hlock =>
      refine ⟨iff_of_true rfl rfl, fun u hu => ?_⟩
      rw [hlock]
      exact iff_of_false (fun heq => hu (Option.some.inj heq).symm) (by simp)
  | unlock _ hlocks hfree =>
      rw [hfree]
      exact ⟨iff_of_false Bool.false_ne_true (by simp), hothers (hlocking.mp hlocks)⟩
  | acquire | stamp | call | release => exact ⟨hlocking, fun _ _ => Iff.rfl⟩

theorem Timed.mono (h : Timed cfg sh q) (hnow : sh.now ≤ sh'.now)
    (hstamps : ∀ x ∈ sh.stamps, x ∈ sh'.stamps)
    (hlast : q.locks = true → sh'.lastStart = sh.lastStart) : Timed cfg sh' q := by
  cases q with
  | early | resting | sleeping | slept | stamping =>
      have hsame := hlast rfl
      unfold Timed at h ⊢
      omega
  | stamped | starting | calling => exact fun hpos => hstamps _ (h hpos)
  | idle | waiting | acquired | pacing | locked | inCall | reporting | unlocking | releasing =>
      exact trivial

/-- What a step leaves of the clock, the stamps and the last start. -/
theorem advance_shared (h : advance cfg t o sh p = some (p', sh')) :
    sh'.now = sh.now ∧ (∀ x ∈ sh.stamps, x ∈ sh'.stamps) ∧
      (sh'.lastStart ≠ sh.lastStart → p = .stamping) := by
  cases advance_does h with
  | stamp => exact ⟨rfl, fun _ hx => List.mem_cons_of_mem _ hx, fun _ => rfl⟩
  | nothing | acquire | lock | unlock | call | release =>
      exact ⟨rfl, fun _ hx => hx, fun hne => absurd rfl hne⟩

/-- The step of one thread takes nothing from what another knows. -/
theorem advance_timed_other (h : advance cfg t o sh p = some (p', sh')) (hu : u ≠ t)
    (hlocking : Locking t sh p) (hother : Locking u sh q) (htimed : Timed cfg sh q) :
    Timed cfg sh' q := by
  obtain ⟨hnow, hstamps, hlast⟩ := advance_shared h
  refine htimed.mono hnow.ge hstamps fun hlocks => ?_
  by_contra hne
  have hlock : sh.lock = some t := by
    rw [hlast hne] at hlocking
    exact hlocking.mp rfl
  rw [hother.mp hlocks] at hlock
  exact hu (Option.some.inj hlock)

theorem advance_timed (h : advance cfg t o sh p = some (p', sh')) (hclocked : Clocked cfg sh)
    (htimed : Timed cfg sh p) : Timed cfg sh' p' := by
  cases p <;> simp only [advance] at h
  case waiting => split at h <;> cases h; exact trivial
  case pacing => split at h <;> cases h; exact trivial
  case idle =>
    cases h
    split <;> exact trivial
  case acquired =>
    cases h
    split
    · split
      · exact trivial
      · rename_i hzero
        exact fun hpos => absurd hpos hzero
    · exact trivial
  case locked =>
    cases h
    have hle := hclocked.last_le
    split
    · show sh.lastStart + cfg.minIntervalNs ≤ sh.now
        + (cfg.minIntervalNs - (sh.now - sh.lastStart))
      omega
    · rename_i hearly
      show sh.lastStart + cfg.minIntervalNs ≤ sh.now
      omega
  case sleeping wake =>
    split at h
    · cases h
    · rename_i hwake
      cases h
      unfold Timed at htimed ⊢
      omega
  case early | resting | slept | starting =>
    cases h
    split
    · exact htimed
    · exact trivial
  case stamping =>
    cases h
    exact fun _ => List.mem_cons_self
  case stamped stamp =>
    cases h
    exact htimed
  case inCall =>
    cases h
    split <;> exact trivial
  all_goals
    cases h
    exact trivial

/-- A stamp is the interval after the last; the rest leaves the stamps alone. -/
theorem advance_clocked (h : advance cfg t o sh p = some (p', sh')) (hclocked : Clocked cfg sh)
    (htimed : Timed cfg sh p) : Clocked cfg sh' := by
  cases advance_does h with
  | stamp =>
      have hbefore : ∀ x ∈ sh.stamps, x + cfg.minIntervalNs ≤ sh.now := by
        intro x hx
        have hlast := hclocked.stamp_le x hx
        unfold Timed at htimed
        omega
      refine ⟨le_refl _, ?_, ?_, hclocked.started, ?_⟩
      · rintro x (_ | ⟨_, hx⟩)
        · exact le_refl _
        · exact (Nat.le_add_right _ _).trans (hbefore x hx)
      · rintro x (_ | ⟨_, hx⟩) y (_ | ⟨_, hy⟩) hlt
        · exact absurd hlt (lt_irrefl _)
        · have hle := hbefore y hy
          omega
        · exact hbefore x hx
        · exact hclocked.apart x hx y hy hlt
      · intro hpos c hc
        exact List.mem_cons_of_mem _ (hclocked.stamped hpos c hc)
  | call stamp =>
      refine ⟨hclocked.last_le, hclocked.stamp_le, hclocked.apart, ?_, ?_⟩
      · rintro c (_ | ⟨_, hc⟩)
        · exact le_refl _
        · exact hclocked.started c hc
      · rintro hpos c (_ | ⟨_, hc⟩)
        · exact htimed hpos
        · exact hclocked.stamped hpos c hc
  | nothing | acquire | lock | unlock | release =>
      exact ⟨hclocked.last_le, hclocked.stamp_le, hclocked.apart, hclocked.started,
        hclocked.stamped⟩

end Thread

/-! ## Any number of threads -/

structure System (τ : Type) where
  shared : Shared τ
  phase : τ → Phase

inductive Event (τ : Type) where
  | tick (elapsed : ℕ)
  | act (t : τ) (o : Outcome)

section Systems

variable [DecidableEq τ]

def step (cfg : SchedulerConfig) (s : System τ) : Event τ → Option (System τ)
  | .tick elapsed => some { s with shared := { s.shared with now := s.shared.now + elapsed } }
  | .act t o =>
      (advance cfg t o s.shared (s.phase t)).map fun next =>
        { shared := next.2, phase := Function.update s.phase t next.1 }

/-- A new scheduler, at any time, that no thread has used. -/
def Fresh (cfg : SchedulerConfig) (s : System τ) : Prop :=
  s.shared.free = cfg.maxConcurrent ∧ s.shared.lock = none ∧ s.shared.lastStart = 0 ∧
    s.shared.stamps = [] ∧ s.shared.calls = [] ∧ ∀ t, s.phase t = .idle

abbrev Run (cfg : SchedulerConfig) : List (Event τ) → System τ → Prop :=
  Trace.Run (Fresh cfg) fun s e s' => step cfg s e = some s'

/-- A step of a thread changes what is shared and its own phase. -/
theorem step_act {cfg : SchedulerConfig} {s s' : System τ} {t : τ} {o : Outcome}
    (h : step cfg s (.act t o) = some s') : ∃ p',
    advance cfg t o s.shared (s.phase t) = some (p', s'.shared) ∧ s'.phase t = p' ∧
      s'.phase = Function.update s.phase t p' := by
  obtain ⟨⟨p', sh'⟩, hadvance, rfl⟩ := Option.map_eq_some_iff.mp h
  exact ⟨p', hadvance, Function.update_self _ _ _, rfl⟩

theorem phase_of_ne {s s' : System τ} {t u : τ} {p' : Phase}
    (h : s'.phase = Function.update s.phase t p') (hu : u ≠ t) : s'.phase u = s.phase u := by
  rw [h, Function.update_of_ne hu]

/-! ## Permits -/

section Permits

variable [Fintype τ] {cfg : SchedulerConfig}

def System.holders (s : System τ) : Finset τ := Finset.univ.filter fun t => (s.phase t).holds

def System.inFlight (s : System τ) : Finset τ := Finset.univ.filter fun t => s.phase t = .inCall

/-- Replacing one value changes how many have a property by that one. -/
theorem card_filter_update {β : Type} (f : τ → β) (p : β → Bool) (t : τ) (b : β) :
    (Finset.univ.filter fun u => p (Function.update f t b u)).card + (p (f t)).toNat
      = (Finset.univ.filter fun u => p (f u)).card + (p b).toNat := by
  have hrest : ∀ g : τ → β, (Finset.univ.filter fun u => p (g u)).card
      = (p (g t)).toNat + ((Finset.univ.erase t).filter fun u => p (g u)).card := by
    intro g
    rw [← Finset.insert_erase (Finset.mem_univ t), Finset.filter_insert]
    split
    · rename_i h
      rw [Finset.card_insert_of_notMem (by simp), Finset.erase_insert (by simp), h]
      exact Nat.add_comm _ _
    · rename_i h
      rw [Finset.erase_insert (by simp), Bool.not_eq_true _ |>.mp h]
      exact (Nat.zero_add _).symm
  have hsame : ((Finset.univ.erase t).filter fun u => p (Function.update f t b u))
      = (Finset.univ.erase t).filter fun u => p (f u) := by
    refine Finset.filter_congr fun u hu => ?_
    rw [Function.update_of_ne (Finset.ne_of_mem_erase hu)]
  rw [hrest, hrest f, hsame, Function.update_self]
  omega

/-- The permits are free or held. -/
def Balanced (cfg : SchedulerConfig) (s : System τ) : Prop :=
  s.shared.free + s.holders.card = cfg.maxConcurrent

theorem Balanced.step {s s' : System τ} {e : Event τ} (h : Balanced cfg s)
    (hstep : step cfg s e = some s') : Balanced cfg s' := by
  cases e with
  | tick elapsed =>
      cases hstep
      exact h
  | act t o =>
      obtain ⟨p', hadvance, -, hphase⟩ := step_act hstep
      have hpermits := advance_permits hadvance
      have hcount := card_filter_update s.phase Phase.holds t p'
      unfold Balanced System.holders at h ⊢
      rw [hphase]
      omega

theorem balanced_of_run {es : List (Event τ)} {s : System τ} (h : Run cfg es s) :
    Balanced cfg s := by
  refine Trace.Run.invariant_of_state (p := fun _ => True) ?_
    (fun s e s' hs _ hstep => hs.step hstep) h fun _ _ => trivial
  rintro s ⟨hfree, -, -, -, -, hidle⟩
  have hnone : s.holders = ∅ := by
    refine Finset.filter_eq_empty_iff.mpr fun t _ => ?_
    rw [hidle t]
    decide
  rw [Balanced, hfree, hnone]
  rfl

omit [DecidableEq τ] in
theorem inFlight_subset_holders (s : System τ) : s.inFlight ⊆ s.holders := by
  intro t ht
  have hphase : s.phase t = .inCall := (Finset.mem_filter.mp ht).2
  refine Finset.mem_filter.mpr ⟨Finset.mem_univ t, ?_⟩
  rw [hphase]
  rfl

/-- No more calls in flight than there are permits. -/
theorem capped_of_run {es : List (Event τ)} {s : System τ} (h : Run cfg es s) :
    s.inFlight.card ≤ cfg.maxConcurrent := by
  have hbalanced := balanced_of_run h
  have hle := Finset.card_le_card (inFlight_subset_holders s)
  unfold Balanced at hbalanced
  omega

/-- Whatever is raised, the permit comes back: permits are free or held, what raises
under a permit leads out, and on the way out nothing is waited for. -/
structure PermitsReturn (cfg : SchedulerConfig) (s : System τ) : Prop where
  balanced : Balanced cfg s
  raising : ∀ t o s', (s.phase t).holds = true → (s.phase t).calls = true → o ≠ .returns →
    step cfg s (.act t o) = some s' → ∃ n, (s'.phase t).stepsOut = some n
  leaving : ∀ t o n, (s.phase t).stepsOut = some (n + 1) → ∃ s',
    step cfg s (.act t o) = some s' ∧
      (n = 0 → s'.phase t = .idle ∧ s'.shared.free = s.shared.free + 1) ∧
      (n ≠ 0 → (s'.phase t).stepsOut = some n)
  undisturbed : ∀ t e s', step cfg s e = some s' → (∀ o, e ≠ .act t o) → s'.phase t = s.phase t

theorem permits_of_run {es : List (Event τ)} {s : System τ} (h : Run cfg es s) :
    PermitsReturn cfg s where
  balanced := balanced_of_run h
  raising := by
    intro t o s' hholds hcalls ho hstep
    obtain ⟨p', hadvance, rfl, -⟩ := step_act hstep
    exact advance_raising hholds hcalls ho hadvance
  leaving := by
    intro t o n hout
    obtain ⟨p', sh', hadvance, hlast, hmore⟩ :=
      @advance_out τ cfg t o s.shared (s.phase t) n hout
    have hstep : step cfg s (.act t o)
        = some { shared := sh', phase := Function.update s.phase t p' } := by
      rw [step, hadvance]
      rfl
    refine ⟨_, hstep, ?_⟩
    have hphase : Function.update s.phase t p' t = p' := Function.update_self _ _ _
    dsimp only
    rw [hphase]
    exact ⟨hlast, hmore⟩
  undisturbed := by
    intro t e s' hstep hother
    cases e with
    | tick elapsed =>
        cases hstep
        rfl
    | act u o =>
        obtain ⟨p', -, -, hphase⟩ := step_act hstep
        refine phase_of_ne hphase ?_
        rintro rfl
        exact hother o rfl

end Permits

/-! ## The interval -/

section Interval

variable {cfg : SchedulerConfig} {s s' : System τ} {e : Event τ}

/-- What holds of the clock, of the lock and of each thread's time. -/
structure Timely (cfg : SchedulerConfig) (s : System τ) : Prop where
  clocked : Clocked cfg s.shared
  locking : ∀ t, Locking t s.shared (s.phase t)
  timed : ∀ t, Timed cfg s.shared (s.phase t)

omit [DecidableEq τ] in
theorem timely_fresh (h : Fresh cfg s) : Timely cfg s := by
  obtain ⟨-, hlock, hlast, hstamps, hcalls, hidle⟩ := h
  refine ⟨⟨by omega, by simp [hstamps], by simp [hstamps], by simp [hcalls], by simp [hcalls]⟩,
    fun t => ?_, fun t => ?_⟩
  · rw [hidle t, Locking, hlock]
    exact iff_of_false Bool.false_ne_true (by simp)
  · rw [hidle t]
    exact trivial

theorem Timely.step (h : Timely cfg s) (hstep : step cfg s e = some s') : Timely cfg s' := by
  cases e with
  | tick elapsed =>
      cases hstep
      obtain ⟨⟨hlast, hstamp, hapart, hstarted, hstamped⟩, hlocking, htimed⟩ := h
      refine ⟨⟨hlast.trans (Nat.le_add_right _ _), hstamp, hapart, fun c hc => ?_, hstamped⟩,
        hlocking, fun t => ?_⟩
      · exact (hstarted c hc).trans (Nat.le_add_right _ _)
      · exact (htimed t).mono (Nat.le_add_right _ _) (fun _ hx => hx) fun _ => rfl
  | act t o =>
      obtain ⟨_, hadvance, rfl, hphase⟩ := step_act hstep
      obtain ⟨hown, hothers⟩ := advance_locking (h.locking t) hadvance
      refine ⟨advance_clocked hadvance h.clocked (h.timed t), fun u => ?_, fun u => ?_⟩
      · by_cases hu : u = t
        · rw [hu]
          exact hown
        · rw [phase_of_ne hphase hu]
          exact (h.locking u).trans (hothers u hu).symm
      · by_cases hu : u = t
        · rw [hu]
          exact advance_timed hadvance h.clocked (h.timed t)
        · rw [phase_of_ne hphase hu]
          exact advance_timed_other hadvance hu (h.locking t) (h.locking u) (h.timed u)

theorem timely_of_run {es : List (Event τ)} (h : Run cfg es s) : Timely cfg s :=
  Trace.Run.invariant_of_state (I := Timely cfg) (p := fun _ => True) (fun _ => timely_fresh)
    (fun _ _ _ hs _ hstep => hs.step hstep) h fun _ _ => trivial

/-- Successive calls start at least the interval apart. -/
def Paced (cfg : SchedulerConfig) (s : System τ) : Prop :=
  s.shared.calls.IsChain fun later earlier => earlier.start + cfg.minIntervalNs ≤ later.start

/-- A thread makes its call in the order of the stamps, and no sooner after its stamp
than the call before was made after its own. -/
def Prompt (cfg : SchedulerConfig) (s : System τ) : Event τ → Prop
  | .tick _ => True
  | .act t _ =>
      match s.phase t with
      | .calling stamp => 0 < cfg.minIntervalNs → ∀ last ∈ s.shared.calls.head?,
          last.stamp < stamp ∧ last.start - last.stamp ≤ s.shared.now - stamp
      | _ => True

instance : DecidablePred (Prompt cfg s) := by
  intro e
  unfold Prompt
  split
  · infer_instance
  · split <;> infer_instance

abbrev PromptRun (cfg : SchedulerConfig) : List (Event τ) → System τ → Prop :=
  Trace.Run (Fresh cfg) fun s e s' => step cfg s e = some s' ∧ Prompt cfg s e

omit [DecidableEq τ] in
/-- Only the call itself is written down as one. -/
theorem advance_calls {t : τ} {o : Outcome} {sh sh' : Shared τ} {p p' : Phase}
    (h : advance cfg t o sh p = some (p', sh')) :
    sh'.calls = sh.calls ∨ ∃ stamp, p = .calling stamp ∧
      sh'.calls = ⟨stamp, sh.now⟩ :: sh.calls := by
  cases advance_does h with
  | call stamp => exact Or.inr ⟨stamp, rfl, rfl⟩
  | nothing | acquire | lock | stamp | unlock | release => exact Or.inl rfl

theorem Paced.step (h : Paced cfg s) (htimely : Timely cfg s) (hprompt : Prompt cfg s e)
    (hstep : step cfg s e = some s') : Paced cfg s' := by
  cases e with
  | tick elapsed =>
      cases hstep
      exact h
  | act t o =>
      obtain ⟨p', hadvance, -, -⟩ := step_act hstep
      unfold Paced at h ⊢
      rcases advance_calls hadvance with hsame | ⟨stamp, hphase, hcalls⟩
      · rw [hsame]
        exact h
      · rw [hcalls]
        cases hlast : s.shared.calls with
        | nil => exact .singleton _
        | cons last earlier =>
            rw [hlast] at h
            refine List.isChain_cons_cons.mpr ⟨?_, h⟩
            show last.start + cfg.minIntervalNs ≤ s.shared.now
            have hmem : last ∈ s.shared.calls := by
              rw [hlast]
              exact List.mem_cons_self
            have hstarted := htimely.clocked.started last hmem
            rcases Nat.eq_zero_or_pos cfg.minIntervalNs with hzero | hpos
            · omega
            -- the stamps are the interval apart, and the delays do not shrink
            · have htimed : Timed cfg s.shared (.calling stamp) := hphase ▸ htimely.timed t
              have hstamp : stamp ∈ s.shared.stamps := htimed hpos
              have hbefore := htimely.clocked.stamped hpos last hmem
              rw [Prompt, hphase] at hprompt
              obtain ⟨horder, hdelay⟩ := hprompt hpos last (by rw [hlast]; rfl)
              have hapart := htimely.clocked.apart _ hbefore _ hstamp horder
              have hnow := (htimely.clocked.stamp_le stamp hstamp).trans htimely.clocked.last_le
              omega

theorem run_of_promptRun {es : List (Event τ)} (h : PromptRun cfg es s) : Run cfg es s :=
  h.imp fun _ _ _ hstep => hstep.1

theorem paced_of_promptRun {es : List (Event τ)} (h : PromptRun cfg es s) : Paced cfg s := by
  induction h with
  | start hfresh =>
      obtain ⟨-, -, -, -, hcalls, -⟩ := hfresh
      rw [Paced, hcalls]
      exact .nil
  | next hrun hstep ih =>
      exact ih.step (timely_of_run (run_of_promptRun hrun)) hstep.2 hstep.1

end Interval

/-! ## The scheduler -/

section Claim

variable [Fintype τ] {cfg : SchedulerConfig}

/-- What `VlmScheduler` promises in every state. -/
structure WellPaced (cfg : SchedulerConfig) (s : System τ) : Prop where
  capped : s.inFlight.card ≤ cfg.maxConcurrent
  permits : PermitsReturn cfg s
  paced : Paced cfg s

/-- For any number of threads and every interleaving: the cap holds and the permits
come back, and where every call is prompt the calls are the interval apart. -/
theorem wellPaced_of_promptRun :
    (∀ (es : List (Event τ)) s, Run cfg es s →
      s.inFlight.card ≤ cfg.maxConcurrent ∧ PermitsReturn cfg s) ∧
    ∀ (es : List (Event τ)) s, PromptRun cfg es s → WellPaced cfg s := by
  refine ⟨fun es s h => ⟨capped_of_run h, permits_of_run h⟩, fun es s h => ?_⟩
  have hrun := run_of_promptRun h
  exact ⟨capped_of_run hrun, permits_of_run hrun, paced_of_promptRun h⟩

end Claim

/-! ## A slow callback -/

section Runs

variable {cfg : SchedulerConfig} {s s' : System τ} {es : List (Event τ)}

theorem run_of_exec (hfresh : Fresh cfg s) (h : Trace.exec (step cfg) es s = some s') :
    Run cfg (es.reverse ++ []) s' :=
  (Trace.Run.of_exec (P := fun _ _ => True) (.start hfresh) h fun _ _ _ => trivial).imp
    fun _ _ _ hstep => hstep.1

/-- The steps that are prompt. -/
def promptStep (cfg : SchedulerConfig) (s : System τ) (e : Event τ) : Option (System τ) :=
  if Prompt cfg s e then step cfg s e else none

theorem promptRun_of_exec (hfresh : Fresh cfg s)
    (h : Trace.exec (promptStep cfg) es s = some s') : PromptRun cfg (es.reverse ++ []) s' := by
  refine (Trace.Run.of_exec (P := fun _ _ => True) (.start hfresh) h fun _ _ _ => trivial).imp ?_
  rintro s e t ⟨hstep, -⟩
  unfold promptStep at hstep
  split at hstep
  · rename_i hprompt
    exact ⟨hstep, hprompt⟩
  · cases hstep

end Runs

end Systems

/-- One call at a time, starting at least a millisecond apart. -/
def millisecond : SchedulerConfig where
  maxConcurrent := 1
  minIntervalMs := 1
  maxConcurrent_pos := le_refl 1

/-- A new scheduler, a second after the clock started. -/
def atFirstSecond : System Unit where
  shared := ⟨1000000000, 1, none, 0, [], []⟩
  phase _ := .idle

theorem fresh_atFirstSecond : Fresh millisecond atFirstSecond :=
  ⟨rfl, rfl, rfl, rfl, rfl, fun _ => rfl⟩

/-- `n` steps of the only thread, with nothing raised. -/
def steps (n : ℕ) : List (Event Unit) := List.replicate n (.act () .returns)

/-- The thread calls twice; reporting the first `call_start` takes 0.9 ms. -/
def slowCallback : List (Event Unit) :=
  steps 7 ++ [.tick 900000] ++ steps 12 ++ [.tick 100000] ++ steps 6

/-- The same with no delay. -/
def quickCallback : List (Event Unit) := steps 19 ++ [.tick 1000000] ++ steps 6

/-- The second call starts 0.1 ms after the first. -/
theorem slowCallback_not_paced : ∃ (es : List (Event Unit)) (s : System Unit),
    Run millisecond es s ∧ ¬ Paced millisecond s := by
  have hcalls : (Trace.exec (step millisecond) slowCallback atFirstSecond).map
      (fun s => s.shared.calls)
        = some [⟨1001000000, 1001000000⟩, ⟨1000000000, 1000900000⟩] := by
    decide +kernel
  obtain ⟨s, hexec, hcalls⟩ := Option.map_eq_some_iff.mp hcalls
  refine ⟨_, s, run_of_exec fresh_atFirstSecond hexec, ?_⟩
  unfold Paced
  rw [hcalls]
  decide

theorem quickCallback_wellPaced : ∃ (es : List (Event Unit)) (s : System Unit),
    PromptRun millisecond es s ∧
    s.shared.calls = [⟨1001000000, 1001000000⟩, ⟨1000000000, 1000000000⟩] ∧
    WellPaced millisecond s := by
  have hcalls : (Trace.exec (promptStep millisecond) quickCallback atFirstSecond).map
      (fun s => s.shared.calls)
        = some [⟨1001000000, 1001000000⟩, ⟨1000000000, 1000000000⟩] := by
    decide +kernel
  obtain ⟨s, hexec, hcalls⟩ := Option.map_eq_some_iff.mp hcalls
  have hrun := promptRun_of_exec fresh_atFirstSecond hexec
  exact ⟨_, s, hrun, hcalls, wellPaced_of_promptRun.2 _ s hrun⟩

end CctvMemory.Worker.Pacing
