import CctvMemory.Library.Trace
import CctvMemory.Queue.Store
import Mathlib.Logic.Function.Basic

/-!
# Workers on one queue

Any number of `process_one` slots, each under a worker id, work on one queue.
A `claim_task` call takes its `now` when it begins; its SELECT and its
conditional UPDATE are separate steps, and the steps of the others (claims,
lease renewals, terminal writes, new tasks, passing time) fall anywhere
between them. `grants` records the leases that claims and effective renewals
granted.
-/

namespace CctvMemory.Queue

open Iso (DateTime)
open Iso.DateTime (utc)

variable {ι : Type} [DecidableEq ι]

/-! ## States -/

/-- A `claim_task` call in progress: what is left of its probes, and the task
its last SELECT returned. -/
structure ClaimCall where
  now : DateTime
  leaseSeconds : ℕ
  probes : ℕ
  selected : Option String
deriving DecidableEq

def ClaimCall.leaseUntil (c : ClaimCall) : DateTime := addSeconds c.now c.leaseSeconds

/-- `_CLAIM_MAX_PROBES`. -/
def claimMaxProbes : ℕ := 50

/-- A lost race: the next candidate is probed, if a probe is left. -/
def ClaimCall.lost (c : ClaimCall) : Option ClaimCall :=
  if c.probes ≤ 1 then none else some { c with probes := c.probes - 1, selected := none }

/-- A lease that was granted, and when. -/
structure Grant where
  taskId : String
  workerId : String
  instant : ℤ
  leaseUntil : DateTime
deriving DecidableEq

/-- The lease a worker was granted last on a task; `grants` has the newest first. -/
def lastLease (grants : List Grant) (taskId workerId : String) : Option DateTime :=
  (grants.find? fun g => decide (g.taskId = taskId ∧ g.workerId = workerId)).map
    Grant.leaseUntil

structure System (ι : Type) where
  clock : ℤ
  tasks : Tasks
  calls : ι → Option ClaimCall
  grants : List Grant

/-- No task, no call, no lease. -/
def System.initial (clock : ℤ) : System ι := ⟨clock, Keyed.Table.empty, fun _ => none, []⟩

def System.setCall (s : System ι) (i : ι) (c : Option ClaimCall) : System ι :=
  { s with calls := Function.update s.calls i c }

/-! ## Steps -/

inductive Event (ι : Type) where
  | tick (clock : ℤ)
  | enqueue (t : Task)
  | claimBegin (i : ι) (leaseSeconds : ℕ)
  | claimSelect (i : ι) (taskId : String)
  | claimNone (i : ι)
  | claimWin (i : ι) (taskId : String)
  | claimLose (i : ι)
  | refresh (i : ι) (taskId : String) (leaseUntil : ℤ)
  | write (i : ι) (taskId : String) (w : TerminalWrite)
  | scheduleRetry (i : ι) (taskId : String) (nextRunAt : ℤ)
  | recoverOrphans

/-- The renewal by a worker finds the row its own. -/
def renews (tasks : Tasks) (taskId workerId : String) : Bool :=
  (tasks.get? taskId).any fun t => decide (t.leaseOwner = some workerId)

theorem renews_iff {q : Tasks} {k w : String} :
    renews q k w = true ↔ ∃ t, q.get? k = some t ∧ t.leaseOwner = some w := by
  unfold renews
  cases q.get? k with
  | none => simp
  | some t => simp

/-- A renewal of a row that is not the worker's own changes nothing. -/
theorem Tasks.refreshLease_of_not_renews {q : Tasks} {k w : String} (u : DateTime)
    (h : renews q k w = false) : q.refreshLease k w u = q := by
  apply Keyed.Table.ext
  unfold Tasks.refreshLease
  rw [Keyed.Table.rows_modify]
  have hid : q.rows.map (fun t => if t.taskId = k then t.refreshLease w u else t)
      = q.rows.map id := by
    refine List.map_congr_left fun t ht => ?_
    by_cases hk : t.taskId = k
    · have howner : t.leaseOwner ≠ some w := by
        intro howner
        have hr := renews_iff.mpr ⟨t, hk ▸ Keyed.Table.get?_of_mem ht, howner⟩
        rw [h] at hr
        cases hr
      simp [hk, Task.refreshLease, howner]
    · simp [hk]
  rw [hid, List.map_id]

variable (worker : ι → String)

/-- What one event does; `none` where it cannot happen. The sweep of
`recover_orphans` writes units, scale tasks and jobs, never the queue. -/
def step (s : System ι) : Event ι → Option (System ι)
  | .tick clock => if s.clock ≤ clock then some { s with clock := clock } else none
  | .enqueue t =>
      if t.status = .queued ∧ t.leaseOwner = none ∧ t.leaseExpiresAt = none ∧
          t.nextRunAt.utcoffset = 0 then
        (s.tasks.insert? t).map fun q => { s with tasks := q }
      else none
  | .claimBegin i n =>
      if s.calls i = none then some (s.setCall i (some ⟨utc s.clock, n, claimMaxProbes, none⟩))
      else none
  | .claimSelect i k =>
      match s.calls i, s.tasks.get? k with
      | some c, some t =>
          if c.selected = none ∧ Tasks.Selects c.now s.tasks t then
            some (s.setCall i (some { c with selected := some k }))
          else none
      | _, _ => none
  | .claimNone i =>
      match s.calls i with
      | some c =>
          if c.selected = none ∧ s.tasks.selectsNone c.now = true then some (s.setCall i none)
          else none
      | none => none
  | .claimWin i k =>
      match s.calls i with
      | some c =>
          if c.selected = some k then
            (s.tasks.claimUpdate k (worker i) c.now c.leaseUntil).map fun q =>
              { s.setCall i none with
                tasks := q, grants := ⟨k, worker i, s.clock, c.leaseUntil⟩ :: s.grants }
          else none
      | none => none
  | .claimLose i =>
      match s.calls i with
      | some c =>
          match c.selected with
          | some k =>
              if s.tasks.claimUpdate k (worker i) c.now c.leaseUntil = none then
                some (s.setCall i c.lost)
              else none
          | none => none
      | none => none
  | .refresh i k u =>
      some { s with
        tasks := s.tasks.refreshLease k (worker i) (utc u)
        grants := if renews s.tasks k (worker i) = true then
            ⟨k, worker i, s.clock, utc u⟩ :: s.grants
          else s.grants }
  | .write _ k w => some { s with tasks := s.tasks.write k w }
  | .scheduleRetry _ k at' => some { s with tasks := s.tasks.scheduleRetry k (utc at') }
  | .recoverOrphans => some s

def Step (s : System ι) (e : Event ι) (s' : System ι) : Prop := step worker s e = some s'

/-- `schedule_retry` is in the repository, but no worker or command calls it. -/
def Event.isScheduleRetry : Event ι → Bool
  | .scheduleRetry _ _ _ => true
  | _ => false

/-- Every run of the events from an empty queue. -/
abbrev Run (es : List (Event ι)) (s : System ι) : Prop :=
  Trace.Run (fun s => ∃ clock, s = System.initial clock) (Step worker) es s

/-- The events one after the other; `none` where one of them cannot happen. -/
def exec : List (Event ι) → System ι → Option (System ι)
  | [], s => some s
  | e :: es, s => (step worker s e).bind (exec es)

theorem run_of_exec {worker : ι → String} {es fs : List (Event ι)} {s s' : System ι}
    (h : Run worker es s) (hexec : exec worker fs s = some s') :
    Run worker (fs.reverse ++ es) s' := by
  induction fs generalizing es s with
  | nil =>
      cases hexec
      exact h
  | cons e fs ih =>
      obtain ⟨s₁, hstep, hrest⟩ := Option.bind_eq_some_iff.mp hexec
      rw [List.reverse_cons, List.append_assoc]
      exact ih (h.next hstep) hrest

/-! ## What the events can do -/

variable {worker : ι → String} {s s' : System ι}

theorem step_tick {clock : ℤ} :
    Step worker s (.tick clock) s' ↔ s.clock ≤ clock ∧ s' = { s with clock := clock } := by
  simp only [Step, step, Option.ite_none_right_eq_some, Option.some.injEq]
  exact and_congr_right fun _ => eq_comm

theorem step_enqueue {t : Task} : Step worker s (.enqueue t) s' ↔
    (t.status = .queued ∧ t.leaseOwner = none ∧ t.leaseExpiresAt = none ∧
      t.nextRunAt.utcoffset = 0) ∧
      ∃ q, s.tasks.insert? t = some q ∧ s' = { s with tasks := q } := by
  simp only [Step, step, Option.ite_none_right_eq_some, Option.map_eq_some_iff]
  exact and_congr_right fun _ => exists_congr fun _ => and_congr_right fun _ => eq_comm

theorem step_claimBegin {i : ι} {n : ℕ} : Step worker s (.claimBegin i n) s' ↔
    s.calls i = none ∧ s' = s.setCall i (some ⟨utc s.clock, n, claimMaxProbes, none⟩) := by
  simp only [Step, step, Option.ite_none_right_eq_some, Option.some.injEq]
  exact and_congr_right fun _ => eq_comm

theorem step_claimSelect {i : ι} {k : String} : Step worker s (.claimSelect i k) s' ↔
    ∃ c t, s.calls i = some c ∧ s.tasks.get? k = some t ∧ c.selected = none ∧
      Tasks.Selects c.now s.tasks t ∧ s' = s.setCall i (some { c with selected := some k }) := by
  cases hc : s.calls i with
  | none => simp [Step, step, hc]
  | some c =>
      cases ht : s.tasks.get? k with
      | none => simp [Step, step, hc, ht]
      | some t =>
          simp only [Step, step, hc, ht, Option.ite_none_right_eq_some, Option.some.injEq,
            exists_and_left, exists_eq_left', and_assoc]
          exact and_congr_right fun _ => and_congr_right fun _ => eq_comm

theorem step_claimNone {i : ι} : Step worker s (.claimNone i) s' ↔
    ∃ c, s.calls i = some c ∧ c.selected = none ∧ s.tasks.selectsNone c.now = true ∧
      s' = s.setCall i none := by
  cases hc : s.calls i with
  | none => simp [Step, step, hc]
  | some c =>
      simp only [Step, step, hc, Option.ite_none_right_eq_some, Option.some.injEq,
        exists_eq_left', and_assoc]
      exact and_congr_right fun _ => and_congr_right fun _ => eq_comm

/-- A won claim found its row claimable at the call's `now`. -/
theorem step_claimWin {i : ι} {k : String} : Step worker s (.claimWin i k) s' ↔
    ∃ c t, s.calls i = some c ∧ c.selected = some k ∧ s.tasks.get? k = some t ∧
      t.claimable c.now = true ∧
      s' = { s.setCall i none with
        tasks := s.tasks.claim k (worker i) c.now c.leaseUntil
        grants := ⟨k, worker i, s.clock, c.leaseUntil⟩ :: s.grants } := by
  cases hc : s.calls i with
  | none => simp [Step, step, hc]
  | some c =>
      simp only [Step, step, hc, Option.ite_none_right_eq_some, Option.map_eq_some_iff,
        Tasks.claimUpdate_eq_some_iff, Option.some.injEq, exists_and_left, exists_eq_left']
      constructor
      · rintro ⟨hsel, q, ⟨t, ht, hclaim, rfl⟩, rfl⟩
        exact ⟨hsel, t, ht, hclaim, rfl⟩
      · rintro ⟨hsel, t, ht, hclaim, rfl⟩
        exact ⟨hsel, _, ⟨t, ht, hclaim, rfl⟩, rfl⟩

theorem step_claimLose {i : ι} : Step worker s (.claimLose i) s' ↔
    ∃ c k, s.calls i = some c ∧ c.selected = some k ∧
      s.tasks.claimUpdate k (worker i) c.now c.leaseUntil = none ∧
      s' = s.setCall i c.lost := by
  cases hc : s.calls i with
  | none => simp [Step, step, hc]
  | some c =>
      cases hk : c.selected with
      | none => simp [Step, step, hc, hk]
      | some k =>
          simp only [Step, step, hc, hk, Option.ite_none_right_eq_some, Option.some.injEq,
            exists_and_left, exists_eq_left']
          exact and_congr_right fun _ => eq_comm

theorem step_refresh {i : ι} {k : String} {u : ℤ} : Step worker s (.refresh i k u) s' ↔
    s' = { s with
      tasks := s.tasks.refreshLease k (worker i) (utc u)
      grants := if renews s.tasks k (worker i) = true then
          ⟨k, worker i, s.clock, utc u⟩ :: s.grants
        else s.grants } := by
  simp only [Step, step, Option.some.injEq]
  exact eq_comm

theorem step_write {i : ι} {k : String} {w : TerminalWrite} :
    Step worker s (.write i k w) s' ↔ s' = { s with tasks := s.tasks.write k w } := by
  simp only [Step, step, Option.some.injEq]
  exact eq_comm

theorem step_scheduleRetry {i : ι} {k : String} {r : ℤ} :
    Step worker s (.scheduleRetry i k r) s' ↔
      s' = { s with tasks := s.tasks.scheduleRetry k (utc r) } := by
  simp only [Step, step, Option.some.injEq]
  exact eq_comm

theorem step_recoverOrphans : Step worker s .recoverOrphans s' ↔ s' = s := by
  simp only [Step, step, Option.some.injEq]
  exact eq_comm

/-- The clock after an event. -/
def Event.clockAfter (clock : ℤ) : Event ι → ℤ
  | .tick clock' => clock'
  | _ => clock

theorem step_clock {e : Event ι} (hs : Step worker s e s') :
    s'.clock = e.clockAfter s.clock := by
  cases e with
  | tick clock =>
      obtain ⟨-, rfl⟩ := step_tick.mp hs
      rfl
  | enqueue t =>
      obtain ⟨-, q, -, rfl⟩ := step_enqueue.mp hs
      rfl
  | claimBegin i n =>
      obtain ⟨-, rfl⟩ := step_claimBegin.mp hs
      rfl
  | claimSelect i k =>
      obtain ⟨c, t, -, -, -, -, rfl⟩ := step_claimSelect.mp hs
      rfl
  | claimNone i =>
      obtain ⟨c, -, -, -, rfl⟩ := step_claimNone.mp hs
      rfl
  | claimWin i k =>
      obtain ⟨c, t, -, -, -, -, rfl⟩ := step_claimWin.mp hs
      rfl
  | claimLose i =>
      obtain ⟨c, k, -, -, -, rfl⟩ := step_claimLose.mp hs
      rfl
  | refresh i k u =>
      rw [step_refresh] at hs
      rw [hs]
      rfl
  | write i k w =>
      rw [step_write] at hs
      rw [hs]
      rfl
  | scheduleRetry i k r =>
      rw [step_scheduleRetry] at hs
      rw [hs]
      rfl
  | recoverOrphans =>
      rw [step_recoverOrphans.mp hs]
      rfl

/-! ## What the events can do to one row -/

/-- The row an event writes to, if it writes to one. -/
def Event.subject : Event ι → Option String
  | .claimWin _ k => some k
  | .refresh _ k _ => some k
  | .write _ k _ => some k
  | .scheduleRetry _ k _ => some k
  | _ => none

/-- The row `t` of task `k` becomes `t'` in an event from `s`. -/
inductive RowStep (worker : ι → String) (s : System ι) (k : String) (t : Task) :
    Event ι → Task → Prop where
  | untouched {e : Event ι} : e.subject ≠ some k → RowStep worker s k t e t
  | claimWin {i : ι} {c : ClaimCall} : s.calls i = some c → c.selected = some k →
      t.claimable c.now = true →
      RowStep worker s k t (.claimWin i k) (t.claimedBy (worker i) c.now c.leaseUntil)
  | refresh {i : ι} {u : ℤ} :
      RowStep worker s k t (.refresh i k u) (t.refreshLease (worker i) (utc u))
  | write {i : ι} {w : TerminalWrite} : RowStep worker s k t (.write i k w) (w.apply t)
  | scheduleRetry {i : ι} {r : ℤ} :
      RowStep worker s k t (.scheduleRetry i k r) (t.scheduleRetry (utc r))

omit [DecidableEq ι] in
/-- An update of the row of `k₀` is seen by `k` where `k₀` is `k`. -/
theorem RowStep.of_update {e : Event ι} {k k₀ : String} {t : Task} {q : Tasks}
    {f : Task → Task} (ht : s.tasks.get? k = some t)
    (hget : q.get? k = if k₀ = k then (s.tasks.get? k).map f else s.tasks.get? k)
    (hsubject : e.subject = some k₀) (hself : k₀ = k → RowStep worker s k t e (f t)) :
    ∃ t', q.get? k = some t' ∧ RowStep worker s k t e t' := by
  rw [hget]
  by_cases hk : k₀ = k
  · rw [if_pos hk, ht]
    exact ⟨f t, rfl, hself hk⟩
  · rw [if_neg hk]
    refine ⟨t, ht, .untouched ?_⟩
    rw [hsubject]
    exact fun h => hk (Option.some.inj h)

/-- No event deletes a row, and only its subject's row changes. -/
theorem step_row {e : Event ι} {k : String} {t : Task} (hs : Step worker s e s')
    (ht : s.tasks.get? k = some t) :
    ∃ t', s'.tasks.get? k = some t' ∧ RowStep worker s k t e t' := by
  cases e with
  | tick clock =>
      obtain ⟨-, rfl⟩ := step_tick.mp hs
      exact ⟨t, ht, .untouched (by simp [Event.subject])⟩
  | enqueue t₀ =>
      obtain ⟨-, q, hq, rfl⟩ := step_enqueue.mp hs
      refine ⟨t, ?_, .untouched (by simp [Event.subject])⟩
      have hfree := (Keyed.Table.insert?_eq_some_iff.mp hq).1
      have hk : t₀.taskId ≠ k := by
        intro hk
        rw [hk, ht] at hfree
        cases hfree
      show q.get? k = some t
      rw [Keyed.Table.get?_insert? hq, if_neg hk]
      exact ht
  | claimBegin i n =>
      obtain ⟨-, rfl⟩ := step_claimBegin.mp hs
      exact ⟨t, ht, .untouched (by simp [Event.subject])⟩
  | claimSelect i k₀ =>
      obtain ⟨c, t₀, -, -, -, -, rfl⟩ := step_claimSelect.mp hs
      exact ⟨t, ht, .untouched (by simp [Event.subject])⟩
  | claimNone i =>
      obtain ⟨c, -, -, -, rfl⟩ := step_claimNone.mp hs
      exact ⟨t, ht, .untouched (by simp [Event.subject])⟩
  | claimWin i k₀ =>
      obtain ⟨c, t₀, hc, hsel, ht₀, hclaim, rfl⟩ := step_claimWin.mp hs
      refine RowStep.of_update ht (Tasks.get?_claim ..) rfl ?_
      rintro rfl
      rw [ht] at ht₀
      cases ht₀
      exact .claimWin hc hsel hclaim
  | claimLose i =>
      obtain ⟨c, k₀, -, -, -, rfl⟩ := step_claimLose.mp hs
      exact ⟨t, ht, .untouched (by simp [Event.subject])⟩
  | refresh i k₀ u =>
      rw [step_refresh] at hs
      subst hs
      refine RowStep.of_update ht (Tasks.get?_refreshLease ..) rfl ?_
      rintro rfl
      exact .refresh
  | write i k₀ w =>
      rw [step_write] at hs
      subst hs
      refine RowStep.of_update ht (Tasks.get?_write ..) rfl ?_
      rintro rfl
      exact .write
  | scheduleRetry i k₀ r =>
      rw [step_scheduleRetry] at hs
      subst hs
      refine RowStep.of_update ht (Tasks.get?_scheduleRetry ..) rfl ?_
      rintro rfl
      exact .scheduleRetry
  | recoverOrphans =>
      rw [step_recoverOrphans.mp hs]
      exact ⟨t, ht, .untouched (by simp [Event.subject])⟩

end CctvMemory.Queue
