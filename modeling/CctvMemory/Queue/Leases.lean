import CctvMemory.Queue.System

/-!
# Claims and leases

Which tasks a claim can win, and that leases of two workers on one task never
overlap. `Covers` says what became of the lease a worker was granted last on a
task: the row still shows it, or the task is closed, or the lease has expired.

* `LeasesOk.step`: every event but `schedule_retry` keeps the invariant.
* `claims_are_safe`: what every claim finds at its UPDATE and at its SELECT,
  and that the granted leases are disjoint, in every run.
-/

namespace CctvMemory.Queue

open Iso (DateTime isoformat isoformat_lt_iff)
open Iso.DateTime (utc)

variable {ι : Type} {worker : ι → String} {s s' : System ι}

/-! ## UTC timestamps -/

@[simp] theorem utcoffset_utc (i : ℤ) : (utc i).utcoffset = 0 := rfl

@[simp] theorem instant_addSeconds (now : DateTime) (n : ℕ) :
    (addSeconds now n).instant = now.instant + n * Iso.second := by
  simp only [addSeconds, DateTime.instant]
  omega

theorem isoformat_le_iff {d e : DateTime} (h : d.utcoffset = e.utcoffset) :
    isoformat d ≤ isoformat e ↔ d.instant ≤ e.instant := by
  rw [← not_lt, isoformat_lt_iff h.symm, not_lt]

/-- What a row keeps: UTC timestamps, and an owner only while it is running. -/
structure RowOk (t : Task) : Prop where
  nextRunAt : t.nextRunAt.utcoffset = 0
  leaseExpiresAt : ∀ u, t.leaseExpiresAt = some u → u.utcoffset = 0
  owned : ∀ w, t.leaseOwner = some w → t.status = .running

/-- Claimable, in instants: due, and queued or running with an expired lease. -/
def Task.ClaimableAt (now : ℤ) (t : Task) : Prop :=
  t.nextRunAt.instant ≤ now ∧
    (t.status = .queued ∨
      (t.status = .running ∧ ∃ u, t.leaseExpiresAt = some u ∧ u.instant < now))

theorem RowOk.claimable_iff {t : Task} (h : RowOk t) {now : DateTime} (hnow : now.utcoffset = 0) :
    t.claimable now = true ↔ t.ClaimableAt now.instant := by
  rw [Task.claimable_iff, Task.leaseExpired_iff]
  unfold Task.due Task.ClaimableAt
  rw [decide_eq_true_iff, isoformat_le_iff (h.nextRunAt.trans hnow.symm)]
  refine and_congr_right fun _ => or_congr_right (and_congr_right fun _ => ?_)
  refine exists_congr fun u => and_congr_right fun hu => ?_
  exact isoformat_lt_iff ((h.leaseExpiresAt u hu).trans hnow.symm)

/-- A claimable task stays claimable as time passes. -/
theorem Task.ClaimableAt.mono {t : Task} {i j : ℤ} (h : t.ClaimableAt i) (hij : i ≤ j) :
    t.ClaimableAt j := by
  obtain ⟨hdue, hstatus⟩ := h
  refine ⟨hdue.trans hij, ?_⟩
  rcases hstatus with hq | ⟨hr, u, hu, hlt⟩
  · exact Or.inl hq
  · exact Or.inr ⟨hr, u, hu, lt_of_lt_of_le hlt hij⟩

theorem RowOk.claimedBy {t : Task} (h : RowOk t) (w : String) {now u : DateTime}
    (hu : u.utcoffset = 0) : RowOk (t.claimedBy w now u) where
  nextRunAt := h.nextRunAt
  leaseExpiresAt := by
    intro v hv
    cases hv
    exact hu
  owned := fun _ _ => rfl

theorem RowOk.refreshLease {t : Task} (h : RowOk t) (w : String) (u : ℤ) :
    RowOk (t.refreshLease w (utc u)) := by
  unfold Task.refreshLease
  split
  · refine ⟨h.nextRunAt, ?_, h.owned⟩
    intro v hv
    cases hv
    rfl
  · exact h

theorem RowOk.write {t : Task} (h : RowOk t) (w : TerminalWrite) : RowOk (w.apply t) where
  nextRunAt := by simpa using h.nextRunAt
  leaseExpiresAt := by simp
  owned := by simp

/-! ## The lease a worker was granted last -/

/-- The row shows the lease. -/
def Held (w : String) (u : DateTime) (t : Task) : Prop :=
  t.status = .running ∧ t.leaseOwner = some w ∧ t.leaseExpiresAt = some u

/-- What became of a granted lease. -/
def Covers (clock : ℤ) (w : String) (u : DateTime) (t : Task) : Prop :=
  Held w u t ∨ t.status.isClosed = true ∨ u.instant < clock

theorem Covers.mono {c c' : ℤ} {w : String} {u : DateTime} {t : Task} (h : Covers c w u t)
    (hc : c ≤ c') : Covers c' w u t := by
  rcases h with hheld | hclosed | hlt
  · exact Or.inl hheld
  · exact Or.inr (Or.inl hclosed)
  · exact Or.inr (Or.inr (lt_of_lt_of_le hlt hc))

/-- A claimable task is under no lease that runs. -/
theorem Covers.expired_of_claimable {c : ℤ} {w : String} {u now : DateTime} {t : Task}
    (h : Covers c w u t) (hrow : RowOk t) (hnow : now.utcoffset = 0) (hc : now.instant ≤ c)
    (hclaim : t.claimable now = true) : u.instant < c := by
  rcases h with ⟨hrun, -, hu⟩ | hclosed | hlt
  · rcases ((hrow.claimable_iff hnow).mp hclaim).2 with hq | ⟨-, v, hv, hlt⟩
    · rw [hrun] at hq
      cases hq
    · rw [hu] at hv
      cases hv
      omega
  · rw [Task.not_claimable_of_isClosed hclosed] at hclaim
    cases hclaim
  · exact hlt

/-- Nor is a task that another worker owns. -/
theorem Covers.expired_of_owner {c : ℤ} {w w' : String} {u : DateTime} {t : Task}
    (h : Covers c w u t) (hrow : RowOk t) (howner : t.leaseOwner = some w') (hne : w ≠ w') :
    u.instant < c := by
  rcases h with ⟨-, hw, -⟩ | hclosed | hlt
  · rw [howner] at hw
    cases hw
    exact absurd rfl hne
  · rw [hrow.owned w' howner] at hclosed
    cases hclosed
  · exact hlt

theorem lastLease_cons (g : Grant) (grants : List Grant) (k w : String) :
    lastLease (g :: grants) k w =
      if g.taskId = k ∧ g.workerId = w then some g.leaseUntil else lastLease grants k w := by
  unfold lastLease
  by_cases h : g.taskId = k ∧ g.workerId = w <;> simp [h]

/-- Every lease was granted after the last one of each other worker on its task
had expired. A renewal replaces the lease of its own worker. -/
def LeasesDisjoint : List Grant → Prop
  | [] => True
  | g :: older => LeasesDisjoint older ∧
      ∀ w, w ≠ g.workerId → ∀ u, lastLease older g.taskId w = some u → u.instant < g.instant

/-! ## The invariant -/

structure LeasesOk (s : System ι) : Prop where
  rows : ∀ k t, s.tasks.get? k = some t → RowOk t
  calls : ∀ i c, s.calls i = some c → c.now.utcoffset = 0 ∧ c.now.instant ≤ s.clock
  covered : ∀ k w u, lastLease s.grants k w = some u →
    ∃ t, s.tasks.get? k = some t ∧ Covers s.clock w u t
  disjoint : LeasesDisjoint s.grants

theorem leasesOk_initial (clock : ℤ) : LeasesOk (System.initial (ι := ι) clock) where
  rows := by
    intro k t ht
    cases ht
  calls := by
    intro i c hc
    cases hc
  covered := by
    intro k w u hu
    cases hu
  disjoint := trivial

namespace LeasesOk

theorem tick (h : LeasesOk s) {clock : ℤ} (hclock : s.clock ≤ clock) :
    LeasesOk { s with clock := clock } where
  rows := h.rows
  calls := fun i c hc => ⟨(h.calls i c hc).1, (h.calls i c hc).2.trans hclock⟩
  covered := by
    intro k w u hu
    obtain ⟨t, ht, hcov⟩ := h.covered k w u hu
    exact ⟨t, ht, hcov.mono hclock⟩
  disjoint := h.disjoint

theorem enqueue (h : LeasesOk s) {t : Task} {q : Tasks} (hrow : RowOk t)
    (hq : s.tasks.insert? t = some q) : LeasesOk { s with tasks := q } where
  rows := by
    intro k t' ht'
    have hget : (if t.taskId = k then some t else s.tasks.get? k) = some t' := by
      rw [← Keyed.Table.get?_insert? hq]
      exact ht'
    by_cases hk : t.taskId = k
    · rw [if_pos hk] at hget
      cases hget
      exact hrow
    · rw [if_neg hk] at hget
      exact h.rows k t' hget
  calls := h.calls
  covered := by
    intro k w u hu
    obtain ⟨t', ht', hcov⟩ := h.covered k w u hu
    refine ⟨t', ?_, hcov⟩
    -- the new key was free, so it is not `k`
    have hfree := (Keyed.Table.insert?_eq_some_iff.mp hq).1
    have hk : t.taskId ≠ k := by
      intro hk
      rw [hk, ht'] at hfree
      cases hfree
    show q.get? k = some t'
    rw [Keyed.Table.get?_insert? hq, if_neg hk]
    exact ht'
  disjoint := h.disjoint

theorem rows_modify (h : LeasesOk s) (k : String) (f : Task → Task)
    (hf : ∀ t, (f t).taskId = t.taskId) (hrow : ∀ t, RowOk t → RowOk (f t)) (k' : String)
    (t' : Task) (ht' : (s.tasks.modify k f hf).get? k' = some t') : RowOk t' := by
  rw [Keyed.Table.get?_modify] at ht'
  split at ht'
  · obtain ⟨t, ht, rfl⟩ := Option.map_eq_some_iff.mp ht'
    exact hrow t (h.rows k' t ht)
  · exact h.rows k' t' ht'

/-- Granting a lease on a row under which every other lease has expired. -/
theorem grant (h : LeasesOk s) {k w : String} {u : DateTime} {f : Task → Task}
    {hf : ∀ t, (f t).taskId = t.taskId} {t : Task} (ht : s.tasks.get? k = some t)
    (hrow : ∀ t, RowOk t → RowOk (f t)) (hheld : Held w u (f t))
    (hothers : ∀ w', w' ≠ w → ∀ u', Covers s.clock w' u' t → u'.instant < s.clock) :
    LeasesOk { s with
      tasks := s.tasks.modify k f hf
      grants := ⟨k, w, s.clock, u⟩ :: s.grants } where
  rows := h.rows_modify k f hf hrow
  calls := h.calls
  covered := by
    intro k' w' u' hu'
    have hlast : (if k = k' ∧ w = w' then some u else lastLease s.grants k' w') = some u' := by
      rw [← lastLease_cons ⟨k, w, s.clock, u⟩]
      exact hu'
    by_cases hnew : k = k' ∧ w = w'
    -- the lease just granted is the one the row shows
    · obtain ⟨rfl, rfl⟩ := hnew
      rw [if_pos ⟨rfl, rfl⟩] at hlast
      cases hlast
      refine ⟨f t, ?_, Or.inl hheld⟩
      show (s.tasks.modify k f hf).get? k = _
      rw [Keyed.Table.get?_modify_self, ht]
      rfl
    · rw [if_neg hnew] at hlast
      obtain ⟨t', ht', hcov⟩ := h.covered k' w' u' hlast
      by_cases hk : k = k'
      · subst hk
        rw [ht] at ht'
        cases ht'
        refine ⟨f t, ?_, Or.inr (Or.inr (hothers w' ?_ u' hcov))⟩
        · show (s.tasks.modify k f hf).get? k = _
          rw [Keyed.Table.get?_modify_self, ht]
          rfl
        · intro hw
          exact hnew ⟨rfl, hw.symm⟩
      · refine ⟨t', ?_, hcov⟩
        show (s.tasks.modify k f hf).get? k' = _
        rw [Keyed.Table.get?_modify_of_ne _ _ _ hk]
        exact ht'
  disjoint := by
    refine ⟨h.disjoint, ?_⟩
    intro w' hw' u' hu'
    obtain ⟨t', ht', hcov⟩ := h.covered k w' u' hu'
    rw [ht] at ht'
    cases ht'
    exact hothers w' hw' u' hcov

variable [DecidableEq ι]

theorem setCall (h : LeasesOk s) (i : ι) {c : Option ClaimCall}
    (hc : ∀ c', c = some c' → c'.now.utcoffset = 0 ∧ c'.now.instant ≤ s.clock) :
    LeasesOk (s.setCall i c) where
  rows := h.rows
  calls := by
    intro j c' hj
    by_cases hij : j = i
    · subst hij
      have hself : (s.setCall j c).calls j = c := Function.update_self ..
      exact hc c' (hself ▸ hj)
    · have hother : (s.setCall i c).calls j = s.calls j := Function.update_of_ne hij ..
      exact h.calls j c' (hother ▸ hj)
  covered := h.covered
  disjoint := h.disjoint

theorem claimWin (h : LeasesOk s) {i : ι} {k : String}
    (hs : Step worker s (.claimWin i k) s') : LeasesOk s' := by
  obtain ⟨c, t, hc, -, ht, hclaim, rfl⟩ := step_claimWin.mp hs
  obtain ⟨hutc, hle⟩ := h.calls i c hc
  have hrow : RowOk t := h.rows k t ht
  have hidle : LeasesOk (s.setCall i none) := h.setCall i (by intro c' hc'; cases hc')
  refine hidle.grant ht (fun t' ht' => ht'.claimedBy _ hutc) ⟨rfl, rfl, rfl⟩ ?_
  intro w' _ u' hcov
  exact hcov.expired_of_claimable hrow hutc hle hclaim

theorem refresh (h : LeasesOk s) {i : ι} {k : String} {u : ℤ}
    (hs : Step worker s (.refresh i k u) s') : LeasesOk s' := by
  have hs' := step_refresh.mp hs
  by_cases hr : renews s.tasks k (worker i) = true
  · rw [if_pos hr] at hs'
    subst hs'
    obtain ⟨t, ht, howner⟩ := renews_iff.mp hr
    have hrow := h.rows k t ht
    refine h.grant ht (fun t' ht' => ht'.refreshLease _ _) ⟨?_, ?_, ?_⟩ ?_
    · simpa using hrow.owned _ howner
    · simp [Task.refreshLease, howner]
    · simp [Task.refreshLease, howner]
    · intro w' hw' u' hcov
      exact hcov.expired_of_owner hrow howner hw'
  · rw [if_neg hr, Tasks.refreshLease_of_not_renews _ (Bool.eq_false_iff.mpr hr)] at hs'
    rw [hs']
    exact h

theorem write (h : LeasesOk s) {i : ι} {k : String} {w : TerminalWrite}
    (hs : Step worker s (.write i k w) s') : LeasesOk s' := by
  rw [step_write] at hs
  subst hs
  refine ⟨h.rows_modify k w.apply (fun t => w.taskId_apply t) fun t ht => ht.write w,
    h.calls, ?_, h.disjoint⟩
  intro k' w' u' hu'
  obtain ⟨t, ht, hcov⟩ := h.covered k' w' u' hu'
  by_cases hk : k = k'
  · subst hk
    refine ⟨w.apply t, ?_, Or.inr (Or.inl (w.isClosed_apply t))⟩
    show (s.tasks.write k w).get? k = _
    rw [Tasks.get?_write, if_pos rfl, ht]
    rfl
  · refine ⟨t, ?_, hcov⟩
    show (s.tasks.write k w).get? k' = _
    rw [Tasks.get?_write, if_neg hk]
    exact ht

/-- One event, `schedule_retry` apart. -/
theorem step (h : LeasesOk s) {e : Event ι} (he : e.isScheduleRetry = false)
    (hs : Step worker s e s') : LeasesOk s' := by
  cases e with
  | tick clock =>
      obtain ⟨hclock, rfl⟩ := step_tick.mp hs
      exact h.tick hclock
  | enqueue t =>
      obtain ⟨⟨-, howner, hlease, hutc⟩, q, hq, rfl⟩ := step_enqueue.mp hs
      refine h.enqueue ⟨hutc, ?_, ?_⟩ hq
      · rw [hlease]
        simp
      · rw [howner]
        simp
  | claimBegin i n =>
      obtain ⟨-, rfl⟩ := step_claimBegin.mp hs
      refine h.setCall i ?_
      intro c hc
      cases hc
      simp
  | claimSelect i k =>
      obtain ⟨c, t, hc, -, -, -, rfl⟩ := step_claimSelect.mp hs
      refine h.setCall i ?_
      intro c' hc'
      cases hc'
      exact h.calls i c hc
  | claimNone i =>
      obtain ⟨c, -, -, -, rfl⟩ := step_claimNone.mp hs
      refine h.setCall i ?_
      intro c' hc'
      cases hc'
  | claimWin i k => exact h.claimWin hs
  | claimLose i =>
      obtain ⟨c, k, hc, -, -, rfl⟩ := step_claimLose.mp hs
      refine h.setCall i ?_
      intro c' hc'
      unfold ClaimCall.lost at hc'
      split at hc'
      · cases hc'
      · cases hc'
        exact h.calls i c hc
  | refresh i k u => exact h.refresh hs
  | write i k w => exact h.write hs
  | scheduleRetry i k r => cases he
  | recoverOrphans =>
      rw [step_recoverOrphans.mp hs]
      exact h

theorem of_run {es : List (Event ι)} (h : Run worker es s)
    (hes : ∀ e ∈ es, e.isScheduleRetry = false) : LeasesOk s := by
  refine Trace.Run.invariant_of_state (p := fun e => e.isScheduleRetry = false) ?_ ?_ h hes
  · rintro s ⟨clock, rfl⟩
    exact leasesOk_initial clock
  · intro s e t hs he hstep
    exact hs.step he hstep

end LeasesOk

/-! ## What a claim finds -/

variable [DecidableEq ι]

/-- The instant of the UPDATE is not before the call's `now`, so what was due
and expired then still is. -/
theorem LeasesOk.claimableAt_of_claimWin (h : LeasesOk s) {i : ι} {k : String}
    (hs : Step worker s (.claimWin i k) s') :
    ∃ t, s.tasks.get? k = some t ∧ t.ClaimableAt s.clock := by
  obtain ⟨c, t, hc, -, ht, hclaim, -⟩ := step_claimWin.mp hs
  obtain ⟨hutc, hle⟩ := h.calls i c hc
  exact ⟨t, ht, (((h.rows k t ht).claimable_iff hutc).mp hclaim).mono hle⟩

/-- `t'` does not come before `t`, in instants. -/
def Task.NotBefore (t' t : Task) : Prop :=
  t'.priority ≤ t.priority ∧
    (t'.priority = t.priority → t.nextRunAt.instant ≤ t'.nextRunAt.instant)

theorem LeasesOk.first_of_claimSelect (h : LeasesOk s) {i : ι} {k : String}
    (hs : Step worker s (.claimSelect i k) s') :
    ∃ c t, s.calls i = some c ∧ s.tasks.get? k = some t ∧
      ∀ t' ∈ s.tasks.rows, t'.ClaimableAt c.now.instant → t'.NotBefore t := by
  obtain ⟨c, t, hc, ht, -, ⟨-, -, hfirst⟩, -⟩ := step_claimSelect.mp hs
  obtain ⟨hutc, -⟩ := h.calls i c hc
  refine ⟨c, t, hc, ht, ?_⟩
  intro t' hmem hat
  have hrow' : RowOk t' := h.rows _ t' (Keyed.Table.get?_of_mem hmem)
  have hnot := hfirst t' hmem ((hrow'.claimable_iff hutc).mpr hat)
  unfold Task.ordersBefore at hnot
  rw [not_or] at hnot
  constructor
  · exact not_lt.mp hnot.1
  · intro heq
    have hutc' : t'.nextRunAt.utcoffset = t.nextRunAt.utcoffset :=
      hrow'.nextRunAt.trans (h.rows k t ht).nextRunAt.symm
    have hlt : ¬ isoformat t'.nextRunAt < isoformat t.nextRunAt := fun hlt => hnot.2 ⟨heq, hlt⟩
    rw [isoformat_lt_iff hutc'] at hlt
    exact not_lt.mp hlt

/-- In every run of claims, renewals, terminal writes, new tasks and passing
time: a won claim is of a task that was due, and queued or running with an
expired lease, at the instant of its UPDATE; no lease overlaps one of another
worker on the same task; and the task a SELECT returned was behind no task
claimable at the call's `now`. -/
theorem claims_are_safe (worker : ι → String) {es : List (Event ι)} {s : System ι}
    (h : Run worker es s) (hes : ∀ e ∈ es, e.isScheduleRetry = false) :
    (∀ i k s', Step worker s (.claimWin i k) s' →
      ∃ t, s.tasks.get? k = some t ∧ t.ClaimableAt s.clock) ∧
    LeasesDisjoint s.grants ∧
    (∀ i k s', Step worker s (.claimSelect i k) s' →
      ∃ c t, s.calls i = some c ∧ s.tasks.get? k = some t ∧
        ∀ t' ∈ s.tasks.rows, t'.ClaimableAt c.now.instant → t'.NotBefore t) := by
  have hok := LeasesOk.of_run h hes
  refine ⟨?_, hok.disjoint, ?_⟩
  · intro i k s' hs
    exact hok.claimableAt_of_claimWin hs
  · intro i k s' hs
    exact hok.first_of_claimSelect hs

/-- Two workers; the lease of the first one expires and the second reclaims. -/
def reclaimWorker (i : Bool) : String := if i then "worker-b" else "worker-a"

def reclaimEvents : List (Event Bool) :=
  [.enqueue (submitted "task" 0), .claimBegin false 300, .claimSelect false "task",
    .claimWin false "task", .tick 301000000, .claimBegin true 300, .claimSelect true "task",
    .claimWin true "task"]

theorem claims_are_safe_reclaim : ∃ s, Run reclaimWorker reclaimEvents.reverse s ∧
    s.grants.length = 2 ∧ LeasesDisjoint s.grants := by
  obtain ⟨s, hexec, hlen⟩ : ∃ s, exec reclaimWorker reclaimEvents (System.initial 0) = some s ∧
      s.grants.length = 2 := ⟨_, rfl, rfl⟩
  have hrun : Run reclaimWorker reclaimEvents.reverse s := by
    simpa using run_of_exec (Trace.Run.start ⟨0, rfl⟩) hexec
  exact ⟨s, hrun, hlen, (claims_are_safe reclaimWorker hrun (by decide)).2.1⟩

end CctvMemory.Queue
