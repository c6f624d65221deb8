import CctvMemory.Queue.Leases

/-!
# The lease heartbeat

While `process_one` runs, its `LeaseHeartbeat` renews the lease at fixed
instants: one period after it was started, and one period after each renewal.
`HeartbeatStep` adds that schedule to the events of the queue; the other
workers do what they like.

* `exclusive_iff`: no other claim can win the task while it is processed
  exactly when the heartbeat is started early enough for its first renewal, or
  the processing ends within the lease of the claim.
* `one_second_lease_is_lost`: the configuration where no start but the instant
  of the claim is early enough.
-/

namespace CctvMemory.Queue

open Iso (DateTime)
open Iso.DateTime (utc)

variable {ι : Type} {worker : ι → String} {s s' : System ι}

/-! ## The configured period -/

/-- The fields of `WorkerSection` the heartbeat reads, with their bounds. -/
structure WorkerSection where
  leaseSeconds : ℕ
  leaseRenewSeconds : ℕ
  leaseSeconds_pos : 0 < leaseSeconds
  leaseRenewSeconds_pos : 0 < leaseRenewSeconds

namespace WorkerSection

/-- `self._lease_seconds`. -/
def heartbeatLease (cfg : WorkerSection) : ℕ := max 1 cfg.leaseSeconds

/-- `self._renew_seconds`. -/
def heartbeatRenew (cfg : WorkerSection) : ℕ :=
  max 1 (min cfg.leaseRenewSeconds (cfg.heartbeatLease - 1))

/-- The lease, in microseconds. -/
def lease (cfg : WorkerSection) : ℤ := cfg.heartbeatLease * Iso.second

/-- Time between two renewals, in microseconds. -/
def period (cfg : WorkerSection) : ℤ := cfg.heartbeatRenew * Iso.second

theorem heartbeatLease_eq (cfg : WorkerSection) : cfg.heartbeatLease = cfg.leaseSeconds :=
  max_eq_right cfg.leaseSeconds_pos

/-- The period is never longer than the lease. -/
theorem period_le_lease (cfg : WorkerSection) : cfg.period ≤ cfg.lease := by
  have hle : cfg.heartbeatRenew ≤ cfg.heartbeatLease := by
    unfold heartbeatRenew heartbeatLease
    omega
  unfold period lease Iso.second
  omega

/-- It is shorter, unless the lease is of one second. -/
theorem period_lt_lease_iff (cfg : WorkerSection) :
    cfg.period < cfg.lease ↔ cfg.leaseSeconds ≠ 1 := by
  have hpos := cfg.leaseSeconds_pos
  have hrenew := cfg.leaseRenewSeconds_pos
  unfold period lease heartbeatRenew heartbeatLease Iso.second
  omega

theorem period_pos (cfg : WorkerSection) : 0 < cfg.period := by
  unfold period heartbeatRenew Iso.second
  omega

end WorkerSection

/-! ## Processing under a heartbeat -/

/-- A processing of `task` by `slot`: the claim's `now`, and the instants where
its heartbeat is started and where `process_one` returns. -/
structure Processing (ι : Type) where
  slot : ι
  taskId : String
  claimNow : ℤ
  started : ℤ
  returned : ℤ

variable [DecidableEq ι]

/-- An event while the task is processed. The second component of the state is
the instant of the next renewal; no time passes it before the renewal is done,
and none passes the return. -/
def HeartbeatStep (worker : ι → String) (cfg : WorkerSection) (p : Processing ι)
    (s : System ι × ℤ) (e : Event ι) (s' : System ι × ℤ) : Prop :=
  Step worker s.1 e s'.1 ∧
    match e with
    | .tick clock => clock ≤ s.2 ∧ clock ≤ p.returned ∧ s'.2 = s.2
    | .refresh i k u =>
        (i = p.slot ∧ k = p.taskId ∧ s.1.clock = s.2 ∧ u = s.1.clock + cfg.lease ∧
            s'.2 = s.1.clock + cfg.period) ∨
          -- another heartbeat; under the same worker id it renews for the same time
          ((i ≠ p.slot ∨ k ≠ p.taskId) ∧ s'.2 = s.2 ∧
            (worker i = worker p.slot → s.1.clock + cfg.lease ≤ u))
    | .scheduleRetry _ _ _ => False
    | _ => s'.2 = s.2

/-- A processing that starts in `s`: its claim wins, and the heartbeat is
started `delay` after the claim's `now`. -/
def Starts (worker : ι → String) (cfg : WorkerSection) (p : Processing ι) (s : System ι) : Prop :=
  ∃ es s₀ c, Run worker es s₀ ∧ (∀ e ∈ es, e.isScheduleRetry = false) ∧
    s₀.calls p.slot = some c ∧ c.leaseSeconds = cfg.leaseSeconds ∧ c.now.instant = p.claimNow ∧
    Step worker s₀ (.claimWin p.slot p.taskId) s ∧ s.clock ≤ p.started ∧
    p.started ≤ p.returned

/-- No claim wins the task while it is processed, whatever the others do. -/
def Exclusive (worker : ι → String) (cfg : WorkerSection) (delay duration : ℤ) : Prop :=
  ∀ (p : Processing ι) (s : System ι), p.started = p.claimNow + delay →
    p.returned = p.claimNow + duration → Starts worker cfg p s →
    ∀ fs u, Trace.Run (fun v => v = (s, p.started + cfg.period)) (HeartbeatStep worker cfg p) fs u →
      ∀ i, Event.claimWin i p.taskId ∉ fs

/-! ## The lease is kept -/

/-- Closed, or under a lease that reaches the next renewal or the return. -/
def KeepsLease (workerId : String) (next returned : ℤ) (t : Task) : Prop :=
  t.status.isClosed = true ∨
    (t.status = .running ∧ t.leaseOwner = some workerId ∧
      ∃ u, t.leaseExpiresAt = some u ∧ (next ≤ u.instant ∨ returned ≤ u.instant))

theorem KeepsLease.not_claimableAt {w : String} {next returned clock : ℤ} {t : Task}
    (h : KeepsLease w next returned t) (hnext : clock ≤ next) (hreturned : clock ≤ returned) :
    ¬ t.ClaimableAt clock := by
  rintro ⟨-, hstatus⟩
  rcases h with hclosed | ⟨hrun, -, u, hu, hreach⟩
  · rcases hstatus with hq | ⟨hr, -⟩
    · rw [hq] at hclosed
      cases hclosed
    · rw [hr] at hclosed
      cases hclosed
  · rcases hstatus with hq | ⟨-, v, hv, hlt⟩
    · rw [hrun] at hq
      cases hq
    · rw [hu] at hv
      cases hv
      omega

/-- The invariant of a processing; the second component is the next renewal. -/
structure HeartbeatOk (worker : ι → String) (cfg : WorkerSection) (p : Processing ι)
    (s : System ι × ℤ) : Prop where
  leases : LeasesOk s.1
  next : s.1.clock ≤ s.2
  returned : s.1.clock ≤ p.returned
  reach : s.2 ≤ s.1.clock + cfg.lease ∨ p.returned ≤ s.1.clock + cfg.lease
  row : ∃ t, s.1.tasks.get? p.taskId = some t ∧
    KeepsLease (worker p.slot) s.2 p.returned t

namespace HeartbeatOk

variable {cfg : WorkerSection} {p : Processing ι} {v v' : System ι × ℤ} {e : Event ι}

theorem not_claimWin (h : HeartbeatOk worker cfg p v) (hs : HeartbeatStep worker cfg p v e v')
    (i : ι) : e ≠ .claimWin i p.taskId := by
  rintro rfl
  obtain ⟨t, ht, hkeeps⟩ := h.row
  obtain ⟨t', ht', hat⟩ := h.leases.claimableAt_of_claimWin hs.1
  rw [ht] at ht'
  cases ht'
  exact hkeeps.not_claimableAt h.next h.returned hat

/-- What the schedule says of the next renewal, event by event. -/
theorem next_of_step (h : HeartbeatOk worker cfg p v) (hs : HeartbeatStep worker cfg p v e v') :
    v'.1.clock ≤ v'.2 ∧ v'.1.clock ≤ p.returned ∧
      (v'.2 ≤ v'.1.clock + cfg.lease ∨ p.returned ≤ v'.1.clock + cfg.lease) := by
  obtain ⟨hstep, hsched⟩ := hs
  have hclock := step_clock hstep
  have hnext := h.next
  have hret := h.returned
  have hreach := h.reach
  have hperiod := cfg.period_pos
  have hle := cfg.period_le_lease
  cases e with
  | tick clock =>
      obtain ⟨hn, hr, heq⟩ := hsched
      have hmono : v.1.clock ≤ clock := (step_tick.mp hstep).1
      change v'.1.clock = clock at hclock
      omega
  | refresh i k u =>
      change v'.1.clock = v.1.clock at hclock
      rcases hsched with ⟨-, -, -, -, heq⟩ | ⟨-, heq, -⟩
      · omega
      · omega
  | scheduleRetry i k r => exact absurd hsched id
  | _ =>
      change v'.1.clock = v.1.clock at hclock
      change v'.2 = v.2 at hsched
      omega

/-- What an event leaves of the row. -/
theorem row_of_step (h : HeartbeatOk worker cfg p v) (hs : HeartbeatStep worker cfg p v e v') :
    ∃ t, v'.1.tasks.get? p.taskId = some t ∧ KeepsLease (worker p.slot) v'.2 p.returned t := by
  obtain ⟨t, ht, hkeeps⟩ := h.row
  obtain ⟨t', ht', hrow⟩ := step_row hs.1 ht
  refine ⟨t', ht', ?_⟩
  cases hrow with
  | untouched hne =>
      -- only a renewal of this task moves the next renewal
      have heq : v'.2 = v.2 := by
        have hsched := hs.2
        cases e with
        | tick clock => exact hsched.2.2
        | refresh i k u =>
            rcases hsched with ⟨-, hk, -⟩ | ⟨-, heq, -⟩
            · exact absurd (congrArg some hk) hne
            · exact heq
        | scheduleRetry i k r => exact absurd hsched id
        | _ => exact hsched
      rw [heq]
      exact hkeeps
  | claimWin _ _ _ => exact absurd rfl (h.not_claimWin hs _)
  | write => exact Or.inl (by simp)
  | scheduleRetry => exact absurd hs.2 id
  | @refresh i u =>
      rcases hkeeps with hclosed | ⟨hrun, howner, u₀, hu₀, hreach⟩
      · exact Or.inl (by simpa using hclosed)
      · right
        by_cases hsame : worker i = worker p.slot
        · have hnew : t.refreshLease (worker i) (utc u)
              = { t with leaseExpiresAt := some (utc u) } := by
            rw [Task.refreshLease, hsame, if_pos howner]
          rw [hnew]
          refine ⟨hrun, howner, utc u, rfl, ?_⟩
          rw [Iso.DateTime.instant_utc]
          have hle := cfg.period_le_lease
          have hbound := h.reach
          rcases hs.2 with ⟨-, -, -, hu, heq⟩ | ⟨-, heq, hu⟩
          · omega
          · have := hu hsame
            omega
        · have hkept : t.refreshLease (worker i) (utc u) = t := by
            rw [Task.refreshLease, if_neg]
            rw [howner]
            intro heq
            exact hsame (Option.some.inj heq).symm
          rw [hkept]
          have heq : v'.2 = v.2 := by
            rcases hs.2 with ⟨hi, -⟩ | ⟨-, heq, -⟩
            · exact absurd (congrArg worker hi) hsame
            · exact heq
          rw [heq]
          exact ⟨hrun, howner, u₀, hu₀, hreach⟩

theorem step (h : HeartbeatOk worker cfg p v) (hs : HeartbeatStep worker cfg p v e v') :
    HeartbeatOk worker cfg p v' := by
  obtain ⟨hnext, hret, hreach⟩ := h.next_of_step hs
  have hretry : e.isScheduleRetry = false := by
    cases e with
    | scheduleRetry i k r => exact absurd hs.2 id
    | _ => rfl
  exact ⟨h.leases.step hretry hs.1, hnext, hret, hreach, h.row_of_step hs⟩

theorem of_run {fs : List (Event ι)} (h : HeartbeatOk worker cfg p v)
    (hrun : Trace.Run (fun u => u = v) (HeartbeatStep worker cfg p) fs v') :
    HeartbeatOk worker cfg p v' ∧ ∀ i, Event.claimWin i p.taskId ∉ fs := by
  induction hrun with
  | start h0 =>
      subst h0
      exact ⟨h, by simp⟩
  | next _ hs ih =>
      obtain ⟨hok, hnone⟩ := ih
      refine ⟨hok.step hs, ?_⟩
      intro i hi
      rcases List.mem_cons.mp hi with heq | hmem
      · exact hok.not_claimWin hs i heq.symm
      · exact hnone i hmem

end HeartbeatOk

/-- A processing whose first renewal comes in time, or that ends before the
lease of its claim. -/
theorem heartbeatOk_of_starts {cfg : WorkerSection} {p : Processing ι}
    (hstart : Starts worker cfg p s)
    (hcond : p.started + cfg.period ≤ p.claimNow + cfg.lease ∨
      p.returned ≤ p.claimNow + cfg.lease) :
    HeartbeatOk worker cfg p (s, p.started + cfg.period) := by
  obtain ⟨es, s₀, c, hrun, hes, hc, hlease, hnow, hwin, hclock, hret⟩ := hstart
  have hok := LeasesOk.of_run hrun hes
  have hle : p.claimNow ≤ s.clock := by
    rw [step_clock hwin, ← hnow]
    exact (hok.calls _ c hc).2
  have hperiod := cfg.period_pos
  refine ⟨hok.step rfl hwin, ?_, ?_, ?_, ?_⟩
  · show s.clock ≤ p.started + cfg.period
    omega
  · show s.clock ≤ p.returned
    omega
  · show p.started + cfg.period ≤ s.clock + cfg.lease ∨ p.returned ≤ s.clock + cfg.lease
    omega
  · obtain ⟨c', t, hc', -, ht, -, rfl⟩ := step_claimWin.mp hwin
    rw [hc] at hc'
    cases hc'
    refine ⟨t.claimedBy (worker p.slot) c.now c.leaseUntil, ?_,
      Or.inr ⟨rfl, rfl, c.leaseUntil, rfl, ?_⟩⟩
    · show (s₀.tasks.claim p.taskId (worker p.slot) c.now c.leaseUntil).get? p.taskId = _
      rw [Tasks.get?_claim, if_pos rfl, ht]
      rfl
    · have huntil : c.leaseUntil.instant = p.claimNow + cfg.lease := by
        rw [ClaimCall.leaseUntil, instant_addSeconds, hnow, hlease, WorkerSection.lease,
          cfg.heartbeatLease_eq]
      show p.started + cfg.period ≤ c.leaseUntil.instant ∨ p.returned ≤ c.leaseUntil.instant
      rw [huntil]
      exact hcond

theorem exclusive_of_early {cfg : WorkerSection} {delay duration : ℤ}
    (hcond : delay + cfg.period ≤ cfg.lease ∨ duration ≤ cfg.lease) :
    Exclusive worker cfg delay duration := by
  intro p s hstarted hreturned hstart fs u hrun
  have hok := heartbeatOk_of_starts hstart (by omega)
  exact (hok.of_run hrun).2

/-! ## A late first renewal -/

theorem Task.not_ordersBefore_self (t : Task) : ¬ t.ordersBefore t := by
  unfold Task.ordersBefore
  simp

/-- A `claim_task` call that nobody disturbs claims the only task there is. -/
theorem claims_only_task {j : ι} (n : ℕ) {k : String} {t : Task} (hj : s.calls j = none)
    (ht : s.tasks.get? k = some t) (honly : ∀ t' ∈ s.tasks.rows, t'.taskId = k)
    (hclaim : t.claimable (utc s.clock) = true) :
    ∃ s₁ s₂ s₃, Step worker s (.claimBegin j n) s₁ ∧ Step worker s₁ (.claimSelect j k) s₂ ∧
      Step worker s₂ (.claimWin j k) s₃ ∧
      s₂.calls j = some ⟨utc s.clock, n, claimMaxProbes, some k⟩ ∧
      s₃.clock = s.clock ∧ (∀ i, i ≠ j → s₃.calls i = s.calls i) ∧
      s₃.tasks = s.tasks.claim k (worker j) (utc s.clock) (addSeconds (utc s.clock) n) := by
  have hselects : Tasks.Selects (utc s.clock) s.tasks t := by
    refine ⟨Keyed.Table.mem_of_get? ht, hclaim, ?_⟩
    intro t' hmem _
    have hkey : t'.taskId = t.taskId := (honly t' hmem).trans (Keyed.Table.key_of_get? ht).symm
    rw [Keyed.Table.eq_of_key_eq hmem (Keyed.Table.mem_of_get? ht) hkey]
    exact t.not_ordersBefore_self
  refine ⟨_, _, _, step_claimBegin.mpr ⟨hj, rfl⟩,
    step_claimSelect.mpr ⟨_, t, Function.update_self .., ht, rfl, hselects, rfl⟩,
    step_claimWin.mpr ⟨_, t, Function.update_self .., rfl, ht, hclaim, rfl⟩,
    Function.update_self .., rfl, ?_, rfl⟩
  intro i hi
  simp [System.setCall, Function.update_of_ne hi]

theorem only_claim {q : Tasks} {k : String} (h : ∀ t ∈ q.rows, t.taskId = k) (w : String)
    (now u : DateTime) : ∀ t ∈ (q.claim k w now u).rows, t.taskId = k := by
  intro t ht
  obtain ⟨t₀, hmem, rfl⟩ := List.mem_map.mp ht
  by_cases hk : t₀.taskId = k
  · simp [hk, Task.claimedBy]
  · exact absurd (h t₀ hmem) hk

/-- A task that is submitted and claimed at once, on an empty queue. -/
theorem starts_submitted (worker : ι → String) (cfg : WorkerSection) (i : ι) {delay duration : ℤ}
    (hdelay : 0 ≤ delay) (hduration : delay ≤ duration) :
    ∃ s, Starts worker cfg ⟨i, "task", 0, delay, duration⟩ s ∧ s.clock = 0 ∧
      (∀ j, j ≠ i → s.calls j = none) ∧ (∀ t ∈ s.tasks.rows, t.taskId = "task") ∧
      s.tasks.get? "task" = some ((submitted "task" 0).claimedBy (worker i) (utc 0)
        (addSeconds (utc 0) cfg.leaseSeconds)) := by
  obtain ⟨q, hq⟩ : ∃ q, (Keyed.Table.empty : Tasks).insert? (submitted "task" 0) = some q :=
    ⟨_, rfl⟩
  obtain ⟨-, hrows⟩ := Keyed.Table.insert?_eq_some_iff.mp hq
  have hget : q.get? "task" = some (submitted "task" 0) := by
    rw [Keyed.Table.get?_insert? hq]
    rfl
  have honly : ∀ t ∈ q.rows, t.taskId = "task" := by
    intro t ht
    rw [hrows] at ht
    rw [List.mem_singleton.mp ht]
    rfl
  have henqueue : Step worker (System.initial 0) (.enqueue (submitted "task" 0))
      { System.initial 0 with tasks := q } :=
    step_enqueue.mpr ⟨⟨rfl, rfl, rfl, rfl⟩, q, hq, rfl⟩
  have hrun : Run worker [.enqueue (submitted "task" 0)] { System.initial 0 with tasks := q } :=
    (Trace.Run.start ⟨0, rfl⟩).next henqueue
  obtain ⟨s₁, s₂, s₃, hbegin, hselect, hwin, hcall, hclock, hcalls, htasks⟩ :=
    @claims_only_task ι worker { System.initial 0 with tasks := q } _ i cfg.leaseSeconds "task"
      (submitted "task" 0) rfl hget honly
      (show (submitted "task" 0).claimable (utc 0) = true by decide)
  refine ⟨s₃, ⟨_, s₂, _, (hrun.next hbegin).next hselect, by simp [Event.isScheduleRetry],
    hcall, rfl, rfl, hwin, ?_, hduration⟩, hclock, hcalls, ?_, ?_⟩
  · rw [hclock]
    exact hdelay
  · rw [htasks]
    exact only_claim honly _ _ _
  · rw [htasks, Tasks.get?_claim, if_pos rfl]
    show (q.get? "task").map _ = _
    rw [hget]
    rfl

/-- The lease of the claim runs out before the first renewal, and another slot
claims the task. -/
theorem not_exclusive_of_late {i j : ι} (hij : j ≠ i) {cfg : WorkerSection}
    {delay duration : ℤ} (hdelay : 0 ≤ delay) (hduration : delay ≤ duration)
    (hrenew : cfg.lease < delay + cfg.period) (hreturn : cfg.lease < duration) :
    ¬ Exclusive worker cfg delay duration := by
  intro hexcl
  obtain ⟨s, hstart, hclock, hcalls, honly, hget⟩ :=
    starts_submitted worker cfg i hdelay hduration
  have hlease : 0 < cfg.lease := lt_of_lt_of_le cfg.period_pos cfg.period_le_lease
  -- one microsecond after the end of the lease
  have htick : Step worker s (.tick (cfg.lease + 1)) { s with clock := cfg.lease + 1 } :=
    step_tick.mpr ⟨by omega, rfl⟩
  have hclaim : ((submitted "task" 0).claimedBy (worker i) (utc 0)
      (addSeconds (utc 0) cfg.leaseSeconds)).claimable (utc (cfg.lease + 1)) = true := by
    rw [Task.claimable_iff, Task.leaseExpired_iff]
    refine ⟨?_, Or.inr ⟨rfl, _, rfl, ?_⟩⟩
    · have hutc : (utc 0).utcoffset = (utc (cfg.lease + 1)).utcoffset := rfl
      refine decide_eq_true ((isoformat_le_iff hutc).mpr ?_)
      simp only [Iso.DateTime.instant_utc]
      omega
    · have hutc : (addSeconds (utc 0) cfg.leaseSeconds).utcoffset
          = (utc (cfg.lease + 1)).utcoffset := rfl
      refine (Iso.isoformat_lt_iff hutc).mpr ?_
      simp only [instant_addSeconds, Iso.DateTime.instant_utc]
      have heq : cfg.lease = cfg.leaseSeconds * Iso.second := by
        rw [WorkerSection.lease, cfg.heartbeatLease_eq]
      omega
  obtain ⟨s₁, s₂, s₃, hbegin, hselect, hwin, -⟩ :=
    @claims_only_task ι worker { s with clock := cfg.lease + 1 } _ j cfg.leaseSeconds "task" _
      (hcalls j hij) hget honly hclaim
  -- the clock stays before the first renewal and before the return
  let p : Processing ι := ⟨i, "task", 0, delay, duration⟩
  let next : ℤ := p.started + cfg.period
  have hrun₀ : Trace.Run (fun v => v = (s, next)) (HeartbeatStep worker cfg p) [] (s, next) :=
    .start rfl
  have hrun₁ := hrun₀.next (show HeartbeatStep worker cfg p (s, next) (.tick (cfg.lease + 1))
    ({ s with clock := cfg.lease + 1 }, next) from ⟨htick, hrenew, hreturn, rfl⟩)
  have hrun₂ := hrun₁.next (show HeartbeatStep worker cfg p _ (.claimBegin j cfg.leaseSeconds)
    (s₁, next) from ⟨hbegin, rfl⟩)
  have hrun₃ := hrun₂.next (show HeartbeatStep worker cfg p _ (.claimSelect j "task")
    (s₂, next) from ⟨hselect, rfl⟩)
  have hrun₄ := hrun₃.next (show HeartbeatStep worker cfg p _ (.claimWin j "task")
    (s₃, next) from ⟨hwin, rfl⟩)
  exact hexcl p s (by simp [p]) (by simp [p]) hstart _ _ hrun₄ j List.mem_cons_self

/-- No other claim wins a task while it is processed, in every run in which the
renewals happen at their instants, exactly when the heartbeat is started early
enough for its first renewal or the processing ends within the claim's lease. -/
theorem exclusive_iff (worker : ι → String) {i j : ι} (hij : j ≠ i) (cfg : WorkerSection)
    {delay duration : ℤ} (hdelay : 0 ≤ delay) (hduration : delay ≤ duration) :
    Exclusive worker cfg delay duration ↔
      delay + cfg.period ≤ cfg.lease ∨ duration ≤ cfg.lease := by
  constructor
  · intro hexcl
    by_contra hnot
    rw [not_or, not_le, not_le] at hnot
    exact not_exclusive_of_late hij hdelay hduration hnot.1 hnot.2 hexcl
  · exact exclusive_of_early

/-- The defaults: a heartbeat has four minutes to start. -/
theorem exclusive_defaults :
    Exclusive reclaimWorker ⟨300, 60, by decide, by decide⟩ 1000000 7200000000 :=
  (exclusive_iff reclaimWorker (by decide : true ≠ false) _ (by decide) (by decide)).mpr
    (Or.inl (by decide))

/-- With a lease of one second the period is as long as the lease, and a
heartbeat started a millisecond after the claim renews too late. -/
theorem one_second_lease_is_lost : ¬ ∀ (cfg : WorkerSection) (delay duration : ℤ),
    0 ≤ delay → delay ≤ duration → Exclusive reclaimWorker cfg delay duration := by
  intro h
  have hexcl := h ⟨1, 60, by decide, by decide⟩ 1000 2000000 (by decide) (by decide)
  exact not_exclusive_of_late (by decide : true ≠ false) (by decide) (by decide) (by decide)
    (by decide) hexcl

end CctvMemory.Queue
