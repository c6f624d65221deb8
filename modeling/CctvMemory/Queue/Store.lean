import CctvMemory.Library.IsoText
import CctvMemory.Library.Table

/-!
# The task queue

The rows of `analysis_tasks` and the writes of the queue repository on them:
`claim_task` with its SELECT and its conditional UPDATE, `refresh_lease`,
`mark_succeeded`, `mark_failed` and `schedule_retry`. Timestamps are compared
as the ISO texts the table stores.
-/

namespace CctvMemory.Queue

open Iso (DateTime isoformat)
open Keyed (Table)

/-! ## Statuses -/

inductive Status where
  | queued
  | running
  | succeeded
  | failed
  | retryScheduled
  | cancelled
deriving DecidableEq, Repr

/-- The transitions of the queue contract. -/
def transitions : Status → List Status
  | .queued => [.running, .cancelled]
  | .running => [.succeeded, .failed, .retryScheduled, .cancelled]
  | .retryScheduled => [.queued]
  | .succeeded => []
  | .failed => []
  | .cancelled => []

/-- A status change the contract allows; staying is no change. -/
def Status.MayBecome (current target : Status) : Prop :=
  current = target ∨ target ∈ transitions current

instance (a b : Status) : Decidable (a.MayBecome b) :=
  inferInstanceAs (Decidable (_ ∨ _))

/-- Neither claimable now nor at any later time by the status alone. -/
def Status.isClosed : Status → Bool
  | .queued => false
  | .running => false
  | _ => true

/-! ## Rows -/

structure Task where
  taskId : String
  status : Status
  priority : ℤ
  retryCount : ℕ
  maxRetries : ℕ
  nextRunAt : DateTime
  leaseOwner : Option String
  leaseExpiresAt : Option DateTime
  updatedAt : DateTime
  errorCode : Option String
  errorMessage : Option String
deriving DecidableEq

/-- The task `submit_video_source` enqueues. -/
def submitted (taskId : String) (now : ℤ) : Task where
  taskId
  status := .queued
  priority := 0
  retryCount := 0
  maxRetries := 3
  nextRunAt := Iso.DateTime.utc now
  leaseOwner := none
  leaseExpiresAt := none
  updatedAt := Iso.DateTime.utc now
  errorCode := none
  errorMessage := none

/-- `now + timedelta(seconds=n)`. -/
def addSeconds (now : DateTime) (n : ℕ) : DateTime :=
  ⟨now.wall + n * Iso.second, now.utcoffset⟩

namespace Task

/-- `next_run_at <= now_iso`. -/
def due (now : DateTime) (t : Task) : Bool :=
  decide (isoformat t.nextRunAt ≤ isoformat now)

/-- The lease is set and `lease_expires_at < now_iso`. -/
def leaseExpired (now : DateTime) (t : Task) : Bool :=
  t.leaseExpiresAt.any fun e => decide (isoformat e < isoformat now)

/-- Queued, or running with an expired lease. -/
def stillClaimable (now : DateTime) (t : Task) : Bool :=
  decide (t.status = .queued) || (decide (t.status = .running) && t.leaseExpired now)

def claimable (now : DateTime) (t : Task) : Bool := t.due now && t.stillClaimable now

/-- `a` comes before `b` in `ORDER BY priority DESC, next_run_at`. -/
def ordersBefore (a b : Task) : Prop :=
  b.priority < a.priority ∨
    (a.priority = b.priority ∧ isoformat a.nextRunAt < isoformat b.nextRunAt)

instance (a b : Task) : Decidable (a.ordersBefore b) :=
  inferInstanceAs (Decidable (_ ∨ _))

/-- The values of the conditional UPDATE. -/
def claimedBy (workerId : String) (now leaseUntil : DateTime) (t : Task) : Task :=
  { t with
    status := .running
    leaseOwner := some workerId
    leaseExpiresAt := some leaseUntil
    updatedAt := now }

def refreshLease (workerId : String) (leaseUntil : DateTime) (t : Task) : Task :=
  if t.leaseOwner = some workerId then { t with leaseExpiresAt := some leaseUntil } else t

def markSucceeded (t : Task) : Task :=
  { t with status := .succeeded, leaseOwner := none, leaseExpiresAt := none }

def markFailed (errorCode : String) (errorMessage : Option String) (t : Task) : Task :=
  { t with
    status := if t.retryCount < t.maxRetries then .retryScheduled else .failed
    errorCode := some errorCode
    errorMessage := errorMessage
    leaseOwner := none
    leaseExpiresAt := none }

def scheduleRetry (nextRunAt : DateTime) (t : Task) : Task :=
  { t with
    status := .queued
    retryCount := t.retryCount + 1
    nextRunAt := nextRunAt
    leaseOwner := none
    leaseExpiresAt := none }

theorem claimable_iff {now : DateTime} {t : Task} :
    t.claimable now = true ↔ t.due now = true ∧
      (t.status = .queued ∨ (t.status = .running ∧ t.leaseExpired now = true)) := by
  simp [claimable, stillClaimable]

theorem leaseExpired_iff {now : DateTime} {t : Task} :
    t.leaseExpired now = true ↔
      ∃ e, t.leaseExpiresAt = some e ∧ isoformat e < isoformat now := by
  cases h : t.leaseExpiresAt with
  | none => simp [leaseExpired, h]
  | some e => simp [leaseExpired, h]

/-- A closed task is claimable at no time. -/
theorem not_claimable_of_isClosed {now : DateTime} {t : Task} (h : t.status.isClosed = true) :
    t.claimable now = false := by
  rw [Bool.eq_false_iff]
  intro hc
  rcases (claimable_iff.mp hc).2 with hq | ⟨hr, -⟩
  · rw [hq] at h
    cases h
  · rw [hr] at h
    cases h

end Task

/-! ## Outcome writes -/

/-- The writes that end the processing of a task. -/
inductive TerminalWrite where
  | succeeded
  | failed (errorCode : String) (errorMessage : Option String)
deriving DecidableEq

def TerminalWrite.apply : TerminalWrite → Task → Task
  | .succeeded => Task.markSucceeded
  | .failed errorCode errorMessage => Task.markFailed errorCode errorMessage

@[simp] theorem Task.taskId_refreshLease (w : String) (u : DateTime) (t : Task) :
    (t.refreshLease w u).taskId = t.taskId := by
  unfold Task.refreshLease
  split <;> rfl

@[simp] theorem Task.status_refreshLease (w : String) (u : DateTime) (t : Task) :
    (t.refreshLease w u).status = t.status := by
  unfold Task.refreshLease
  split <;> rfl

@[simp] theorem TerminalWrite.taskId_apply (w : TerminalWrite) (t : Task) :
    (w.apply t).taskId = t.taskId := by
  cases w <;> rfl

@[simp] theorem TerminalWrite.leaseOwner_apply (w : TerminalWrite) (t : Task) :
    (w.apply t).leaseOwner = none := by
  cases w <;> rfl

@[simp] theorem TerminalWrite.leaseExpiresAt_apply (w : TerminalWrite) (t : Task) :
    (w.apply t).leaseExpiresAt = none := by
  cases w <;> rfl

@[simp] theorem TerminalWrite.nextRunAt_apply (w : TerminalWrite) (t : Task) :
    (w.apply t).nextRunAt = t.nextRunAt := by
  cases w <;> rfl

/-- Both writes close the task: a retry is scheduled, not queued. -/
@[simp] theorem TerminalWrite.isClosed_apply (w : TerminalWrite) (t : Task) :
    (w.apply t).status.isClosed = true := by
  cases w with
  | succeeded => rfl
  | failed ec em =>
      show (if t.retryCount < t.maxRetries then Status.retryScheduled
        else Status.failed).isClosed = true
      split <;> rfl

/-- From a running task both writes take a transition of the contract. -/
theorem TerminalWrite.mayBecome_apply (w : TerminalWrite) {t : Task}
    (h : t.status = .running) : t.status.MayBecome (w.apply t).status := by
  rw [h]
  cases w with
  | succeeded =>
      show Status.running.MayBecome .succeeded
      decide
  | failed ec em =>
      show Status.running.MayBecome (if t.retryCount < t.maxRetries then Status.retryScheduled
        else Status.failed)
      split <;> decide

/-! ## The table -/

abbrev Tasks := Table Task Task.taskId

namespace Tasks

/-- What the SELECT of `claim_task` may return: a claimable row that no other
claimable row orders before. -/
def Selects (now : DateTime) (q : Tasks) (t : Task) : Prop :=
  t ∈ q.rows ∧ t.claimable now = true ∧
    ∀ t' ∈ q.rows, t'.claimable now = true → ¬ t'.ordersBefore t

instance (now : DateTime) (q : Tasks) (t : Task) : Decidable (Selects now q t) :=
  inferInstanceAs (Decidable (_ ∧ _ ∧ _))

/-- The SELECT returns no row. -/
def selectsNone (now : DateTime) (q : Tasks) : Bool :=
  q.rows.all fun t => !t.claimable now

def claim (taskId workerId : String) (now leaseUntil : DateTime) (q : Tasks) : Tasks :=
  q.modify taskId (Task.claimedBy workerId now leaseUntil) fun _ => rfl

/-- The conditional UPDATE; `none` when it matches no row. -/
def claimUpdate (taskId workerId : String) (now leaseUntil : DateTime) (q : Tasks) :
    Option Tasks :=
  match q.get? taskId with
  | none => none
  | some t =>
      if t.claimable now = true then some (q.claim taskId workerId now leaseUntil) else none

def refreshLease (taskId workerId : String) (leaseUntil : DateTime) (q : Tasks) : Tasks :=
  q.modify taskId (Task.refreshLease workerId leaseUntil) fun t => t.taskId_refreshLease _ _

def write (taskId : String) (w : TerminalWrite) (q : Tasks) : Tasks :=
  q.modify taskId w.apply fun t => w.taskId_apply t

def scheduleRetry (taskId : String) (nextRunAt : DateTime) (q : Tasks) : Tasks :=
  q.modify taskId (Task.scheduleRetry nextRunAt) fun _ => rfl

theorem get?_claim (k w : String) (now u : DateTime) (q : Tasks) (k' : String) :
    (q.claim k w now u).get? k'
      = if k = k' then (q.get? k').map (Task.claimedBy w now u) else q.get? k' :=
  Table.get?_modify _ _ _ _ _

theorem get?_refreshLease (k w : String) (u : DateTime) (q : Tasks) (k' : String) :
    (q.refreshLease k w u).get? k'
      = if k = k' then (q.get? k').map (Task.refreshLease w u) else q.get? k' :=
  Table.get?_modify _ _ _ _ _

theorem get?_write (k : String) (w : TerminalWrite) (q : Tasks) (k' : String) :
    (q.write k w).get? k' = if k = k' then (q.get? k').map w.apply else q.get? k' :=
  Table.get?_modify _ _ _ _ _

theorem get?_scheduleRetry (k : String) (r : DateTime) (q : Tasks) (k' : String) :
    (q.scheduleRetry k r).get? k'
      = if k = k' then (q.get? k').map (Task.scheduleRetry r) else q.get? k' :=
  Table.get?_modify _ _ _ _ _

/-- An UPDATE that matches finds a claimable row and changes no other. -/
theorem claimUpdate_eq_some_iff {k w : String} {now u : DateTime} {q q' : Tasks} :
    claimUpdate k w now u q = some q' ↔ ∃ t, q.get? k = some t ∧ t.claimable now = true ∧
      q' = q.claim k w now u := by
  unfold claimUpdate
  cases h : q.get? k with
  | none => simp
  | some t =>
      by_cases hc : t.claimable now = true
      · simp only [hc, if_true, Option.some.injEq, exists_eq_left', true_and]
        exact eq_comm
      · simp [hc]

end Tasks

end CctvMemory.Queue
