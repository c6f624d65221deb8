import CctvMemory.Library.KeySort
import CctvMemory.Queue.Leases

/-!
# The queue on PostgreSQL

`claim_task` of the PostgreSQL adapter is one statement: its SELECT takes the first row of
its snapshot that nobody has locked (`FOR UPDATE SKIP LOCKED`), and its UPDATE writes that
row. Every write keeps its row locked until its transaction ends; under READ COMMITTED it
looks at the row once more when it has the lock. Timestamps are compared as instants.

* `commits_replay`: the committed rows are what the writes of the SQLite adapter make of
  them one after the other, each conditional UPDATE matching its row.
* `committed_claims_are_safe`: what a claim finds at its commit, and that the leases of two
  workers on one task never overlap.
* `claim_alone_agrees`: with nobody else at work both adapters claim the same tasks.
-/

namespace CctvMemory.Queue.Postgres

open Iso (DateTime)
open Iso.DateTime (utc)

variable {ι : Type} [DecidableEq ι]

/-! ## Statements -/

/-- `next_run_at <= :now`, and queued, or running with `lease_expires_at < :now`. -/
def claimable (now : DateTime) (t : Task) : Bool :=
  decide (t.nextRunAt.instant ≤ now.instant) &&
    (decide (t.status = .queued) ||
      (decide (t.status = .running) &&
        t.leaseExpiresAt.any fun e => decide (e.instant < now.instant)))

/-- `a` comes before `b` in `ORDER BY priority DESC, next_run_at`. -/
def ordersBefore (a b : Task) : Prop :=
  b.priority < a.priority ∨
    (a.priority = b.priority ∧ a.nextRunAt.instant < b.nextRunAt.instant)

instance (a b : Task) : Decidable (ordersBefore a b) :=
  inferInstanceAs (Decidable (_ ∨ _))

/-- The rows that the SELECT goes through; rows that tie come in any order. -/
def IsSnapshot (now : DateTime) (q : Tasks) (rows : List Task) : Prop :=
  rows.Perm (q.rows.filter (claimable now)) ∧ rows.Pairwise fun a b => ¬ ordersBefore b a

instance (now : DateTime) (q : Tasks) (rows : List Task) : Decidable (IsSnapshot now q rows) :=
  inferInstanceAs (Decidable (_ ∧ _))

inductive Update where
  | claim (now : DateTime) (leaseSeconds : ℕ)
  | refreshLease (leaseUntil : ℤ)
  | write (w : TerminalWrite)
  | scheduleRetry (nextRunAt : ℤ)

namespace Update

/-- What the `WHERE` says of the row. -/
def finds (workerId : String) : Update → Task → Bool
  | .claim now _, t => claimable now t
  | .refreshLease _, t => decide (t.leaseOwner = some workerId)
  | .write _, _ => true
  | .scheduleRetry _, _ => true

/-- What the `SET` makes of it. -/
def apply (workerId : String) : Update → Task → Task
  | .claim now n => Task.claimedBy workerId now (addSeconds now n)
  | .refreshLease u => fun t => { t with leaseExpiresAt := some (utc u) }
  | .write w => w.apply
  | .scheduleRetry r => Task.scheduleRetry (utc r)

/-- The lease that it grants. -/
def leaseUntil : Update → Option DateTime
  | .claim now n => some (addSeconds now n)
  | .refreshLease u => some (utc u)
  | .write _ => none
  | .scheduleRetry _ => none

end Update

/-- A committed write. -/
inductive Entry where
  | enqueue (t : Task)
  | update (workerId taskId : String) (u : Update)

/-- The same write by the SQLite adapter. -/
def sqliteWrite (q : Tasks) : Entry → Option Tasks
  | .enqueue t => q.insert? t
  | .update workerId k (.claim now n) => q.claimUpdate k workerId now (addSeconds now n)
  | .update workerId k (.refreshLease u) => some (q.refreshLease k workerId (utc u))
  | .update _ k (.write w) => some (q.write k w)
  | .update _ k (.scheduleRetry r) => some (q.scheduleRetry k (utc r))

/-! ## Transactions -/

inductive Session where
  | idle
  /-- In `claim_task`, before its statement has a snapshot. -/
  | calling (now : DateTime) (leaseSeconds : ℕ)
  /-- The statement of `claim_task`, and the rows that it has not looked at yet. -/
  | probing (now : DateTime) (leaseSeconds : ℕ) (rest : List Task)
  /-- A transaction with a locked row, and what it has written there. -/
  | holds (taskId : String) (u : Update) (row : Task)

structure Cluster (ι : Type) where
  clock : ℤ
  /-- The committed rows. -/
  tasks : Tasks
  locks : String → Option ι
  sessions : ι → Session
  grants : List Grant
  log : List Entry

def Cluster.initial (clock : ℤ) : Cluster ι :=
  ⟨clock, Keyed.Table.empty, fun _ => none, fun _ => .idle, [], []⟩

inductive Event (ι : Type) where
  | tick (clock : ℤ)
  | enqueue (t : Task)
  | claimBegin (i : ι) (leaseSeconds : ℕ)
  | claimSnapshot (i : ι) (rows : List Task)
  | claimSkip (i : ι)
  | claimLock (i : ι)
  | claimNone (i : ι)
  | update (i : ι) (taskId : String) (u : Update)
  | commit (i : ι)
  /-- The end of a transaction in any other way; the worker may be dead. -/
  | rollback (i : ι)

/-- The new version of a row in the place of the committed one. -/
def replace (k : String) (row : Task) (q : Tasks) : Tasks :=
  q.modify k (fun t => { row with taskId := t.taskId }) fun _ => rfl

namespace Cluster

variable (c : Cluster ι)

def go (i : ι) (session : Session) : Cluster ι :=
  { c with sessions := Function.update c.sessions i session }

/-- Without its lock. -/
def release (i : ι) (k : String) : Cluster ι :=
  { c.go i .idle with locks := Function.update c.locks k none }

variable (worker : ι → String)

/-- The lock of a row, and the write; `none` while another transaction has the lock. -/
def lockRow (i : ι) (k : String) (u : Update) : Option (Cluster ι) :=
  match c.locks k, c.tasks.get? k with
  | none, some t =>
      if u.finds (worker i) t = true then
        some { c.go i (.holds k u (u.apply (worker i) t)) with
          locks := Function.update c.locks k (some i) }
      else none
  | _, _ => none

def commit (i : ι) (k : String) (u : Update) (row : Task) : Cluster ι :=
  { c.release i k with
    tasks := replace k row c.tasks
    grants := match u.leaseUntil with
      | some lease => ⟨k, worker i, c.clock, lease⟩ :: c.grants
      | none => c.grants
    log := c.log ++ [.update (worker i) k u] }

end Cluster

variable (worker : ι → String)

def step (c : Cluster ι) : Event ι → Option (Cluster ι)
  | .tick clock => if c.clock ≤ clock then some { c with clock := clock } else none
  | .enqueue t =>
      if t.status = .queued ∧ t.leaseOwner = none ∧ t.leaseExpiresAt = none ∧
          t.nextRunAt.utcoffset = 0 then
        (c.tasks.insert? t).map fun q => { c with tasks := q, log := c.log ++ [.enqueue t] }
      else none
  | .claimBegin i n =>
      match c.sessions i with
      | .idle => some (c.go i (.calling (utc c.clock) n))
      | _ => none
  | .claimSnapshot i rows =>
      match c.sessions i with
      | .calling now n =>
          if IsSnapshot now c.tasks rows then some (c.go i (.probing now n rows)) else none
      | _ => none
  | .claimSkip i =>
      match c.sessions i with
      | .probing now n (t :: rest) =>
          -- `SKIP LOCKED`, or a newer version that is not claimable
          if c.locks t.taskId ≠ none ∨ (c.tasks.get? t.taskId).any (claimable now) = false then
            some (c.go i (.probing now n rest))
          else none
      | _ => none
  | .claimLock i =>
      match c.sessions i with
      | .probing now n (t :: _) => c.lockRow worker i t.taskId (.claim now n)
      | _ => none
  | .claimNone i =>
      match c.sessions i with
      | .probing _ _ [] => some (c.go i .idle)
      | _ => none
  | .update i k u =>
      match c.sessions i, u with
      | .idle, .claim _ _ => none
      | .idle, u =>
          if (c.tasks.get? k).any (u.finds (worker i)) = true then c.lockRow worker i k u
          else some c
      | _, _ => none
  | .commit i =>
      match c.sessions i with
      | .holds k u row => some (c.commit worker i k u row)
      | _ => none
  | .rollback i =>
      match c.sessions i with
      | .holds k _ _ => some (c.release i k)
      | .idle => none
      | _ => some (c.go i .idle)

/-- What a step can do. -/
inductive Does (c : Cluster ι) : Event ι → Cluster ι → Prop where
  | tick {clock : ℤ} (hclock : c.clock ≤ clock) : Does c (.tick clock) { c with clock := clock }
  | enqueue {t : Task} {q : Tasks} (hrow : RowOk t) (hq : c.tasks.insert? t = some q) :
      Does c (.enqueue t) { c with tasks := q, log := c.log ++ [.enqueue t] }
  | claimBegin {i : ι} {n : ℕ} (hsession : c.sessions i = .idle) :
      Does c (.claimBegin i n) (c.go i (.calling (utc c.clock) n))
  | claimSnapshot {i : ι} {now : DateTime} {n : ℕ} {rows : List Task}
      (hsession : c.sessions i = .calling now n) (hrows : IsSnapshot now c.tasks rows) :
      Does c (.claimSnapshot i rows) (c.go i (.probing now n rows))
  | claimSkip {i : ι} {now : DateTime} {n : ℕ} {t : Task} {rest : List Task}
      (hsession : c.sessions i = .probing now n (t :: rest))
      (hskip : c.locks t.taskId ≠ none ∨ (c.tasks.get? t.taskId).any (claimable now) = false) :
      Does c (.claimSkip i) (c.go i (.probing now n rest))
  | claimLock {i : ι} {now : DateTime} {n : ℕ} {t t' : Task} {rest : List Task}
      (hsession : c.sessions i = .probing now n (t :: rest)) (hlock : c.locks t.taskId = none)
      (ht : c.tasks.get? t.taskId = some t') (hfinds : claimable now t' = true) :
      Does c (.claimLock i)
        { c.go i (.holds t.taskId (.claim now n) (Update.apply (worker i) (.claim now n) t')) with
          locks := Function.update c.locks t.taskId (some i) }
  | claimNone {i : ι} {now : DateTime} {n : ℕ} (hsession : c.sessions i = .probing now n []) :
      Does c (.claimNone i) (c.go i .idle)
  | update {i : ι} {k : String} {u : Update} {t : Task} (hsession : c.sessions i = .idle)
      (hclaim : ∀ now n, u ≠ .claim now n) (hlock : c.locks k = none)
      (ht : c.tasks.get? k = some t) (hfinds : u.finds (worker i) t = true) :
      Does c (.update i k u)
        { c.go i (.holds k u (u.apply (worker i) t)) with
          locks := Function.update c.locks k (some i) }
  | miss {i : ι} {k : String} {u : Update} : Does c (.update i k u) c
  | commit {i : ι} {k : String} {u : Update} {row : Task}
      (hsession : c.sessions i = .holds k u row) : Does c (.commit i) (c.commit worker i k u row)
  | release {i : ι} {k : String} {u : Update} {row : Task}
      (hsession : c.sessions i = .holds k u row) : Does c (.rollback i) (c.release i k)
  | abandon {i : ι} (hsession : ∀ k u row, c.sessions i ≠ .holds k u row) :
      Does c (.rollback i) (c.go i .idle)

variable {worker} {c c' : Cluster ι}

theorem lockRow_eq_some_iff {i : ι} {k : String} {u : Update} :
    c.lockRow worker i k u = some c' ↔ c.locks k = none ∧ ∃ t, c.tasks.get? k = some t ∧
      u.finds (worker i) t = true ∧
      c' = { c.go i (.holds k u (u.apply (worker i) t)) with
        locks := Function.update c.locks k (some i) } := by
  unfold Cluster.lockRow
  cases hlock : c.locks k with
  | some j => simp
  | none =>
      cases ht : c.tasks.get? k with
      | none => simp
      | some t =>
          simp only [Option.ite_none_right_eq_some, Option.some.injEq, true_and, exists_eq_left']
          exact and_congr_right fun _ => eq_comm

theorem step_does {e : Event ι} (h : step worker c e = some c') : Does worker c e c' := by
  cases e with
  | tick clock =>
      obtain ⟨hclock, hc⟩ := Option.ite_none_right_eq_some.mp h
      cases hc
      exact .tick hclock
  | enqueue t =>
      obtain ⟨⟨-, howner, hlease, hutc⟩, hc⟩ := Option.ite_none_right_eq_some.mp h
      obtain ⟨q, hq, rfl⟩ := Option.map_eq_some_iff.mp hc
      exact .enqueue ⟨hutc, by simp [hlease], by simp [howner]⟩ hq
  | claimBegin i n =>
      simp only [step] at h
      split at h
      · rename_i hsession
        cases h
        exact .claimBegin hsession
      · cases h
  | claimSnapshot i rows =>
      simp only [step] at h
      split at h
      · rename_i hsession
        obtain ⟨hrows, hc⟩ := Option.ite_none_right_eq_some.mp h
        cases hc
        exact .claimSnapshot hsession hrows
      · cases h
  | claimSkip i =>
      simp only [step] at h
      split at h
      · rename_i hsession
        obtain ⟨hskip, hc⟩ := Option.ite_none_right_eq_some.mp h
        cases hc
        exact .claimSkip hsession hskip
      · cases h
  | claimLock i =>
      simp only [step] at h
      split at h
      · rename_i hsession
        obtain ⟨hlock, t, ht, hfinds, rfl⟩ := lockRow_eq_some_iff.mp h
        exact .claimLock hsession hlock ht hfinds
      · cases h
  | claimNone i =>
      simp only [step] at h
      split at h
      · rename_i hsession
        cases h
        exact .claimNone hsession
      · cases h
  | update i k u =>
      simp only [step] at h
      split at h
      · cases h
      · rename_i hsession hclaim
        split at h
        · obtain ⟨hlock, t, ht, hfinds, rfl⟩ := lockRow_eq_some_iff.mp h
          exact .update hsession hclaim hlock ht hfinds
        · cases h
          exact .miss
      · cases h
  | commit i =>
      simp only [step] at h
      split at h
      · rename_i hsession
        cases h
        exact .commit hsession
      · cases h
  | rollback i =>
      simp only [step] at h
      split at h
      · rename_i hsession
        cases h
        exact .release hsession
      · cases h
      · rename_i hholds _
        cases h
        exact .abandon hholds

/-! ## Rows -/

omit [DecidableEq ι] in
theorem claimable_iff {now : DateTime} {t : Task} :
    claimable now t = true ↔ t.ClaimableAt now.instant := by
  unfold claimable Task.ClaimableAt
  cases h : t.leaseExpiresAt with
  | none => simp
  | some u => simp

/-- On UTC timestamps the adapters agree on what is claimable. -/
theorem claimable_eq {now : DateTime} {t : Task} (hrow : RowOk t) (hnow : now.utcoffset = 0) :
    claimable now t = t.claimable now :=
  Bool.eq_iff_iff.mpr (claimable_iff.trans (hrow.claimable_iff hnow).symm)

theorem ordersBefore_iff {a b : Task} (ha : RowOk a) (hb : RowOk b) :
    ordersBefore a b ↔ a.ordersBefore b := by
  unfold ordersBefore Task.ordersBefore
  rw [Iso.isoformat_lt_iff (ha.nextRunAt.trans hb.nextRunAt.symm)]

theorem Update.taskId_apply (workerId : String) (u : Update) (t : Task) :
    (u.apply workerId t).taskId = t.taskId := by
  cases u with
  | write w => exact w.taskId_apply t
  | _ => rfl

/-- A version that was made from the committed row is as good as an update in place. -/
theorem replace_apply {q : Tasks} {k : String} {t : Task} {f : Task → Task}
    (hf : ∀ t, (f t).taskId = t.taskId) (ht : q.get? k = some t) :
    replace k (f t) q = q.modify k f hf := by
  apply Keyed.Table.ext
  unfold replace
  rw [Keyed.Table.rows_modify, Keyed.Table.rows_modify]
  refine List.map_congr_left fun r hr => ?_
  by_cases hk : r.taskId = k
  · have hrt : r = t := Keyed.Table.eq_of_key_eq hr (Keyed.Table.mem_of_get? ht)
      (hk.trans (Keyed.Table.key_of_get? ht).symm)
    rw [if_pos hk, if_pos hk, hrt, ← hf t]
  · rw [if_neg hk, if_neg hk]

theorem get?_replace {q : Tasks} {k : String} {t : Task} {f : Task → Task}
    (hf : ∀ t, (f t).taskId = t.taskId) (ht : q.get? k = some t) (k' : String) :
    (replace k (f t) q).get? k' = if k = k' then some (f t) else q.get? k' := by
  rw [replace_apply hf ht, Keyed.Table.get?_modify]
  by_cases hk : k = k'
  · subst hk
    rw [if_pos rfl, if_pos rfl, ht]
    rfl
  · rw [if_neg hk, if_neg hk]

/-- A lease is renewed where the row is the worker's own. -/
theorem refreshLease_eq {q : Tasks} {k workerId : String} {t : Task} {u : ℤ}
    (ht : q.get? k = some t) (howner : t.leaseOwner = some workerId) :
    replace k { t with leaseExpiresAt := some (utc u) } q = q.refreshLease k workerId (utc u) := by
  have hrow : { t with leaseExpiresAt := some (utc u) } = t.refreshLease workerId (utc u) := by
    rw [Task.refreshLease, if_pos howner]
  rw [hrow]
  exact replace_apply (fun t => t.taskId_refreshLease _ _) ht

/-- What a commit writes is what the SQLite adapter writes, and its conditional UPDATE
matches. -/
theorem sqliteWrite_update {q : Tasks} {workerId k : String} {u : Update} {t : Task}
    (ht : q.get? k = some t) (hrow : RowOk t) (hfinds : u.finds workerId t = true)
    (hnow : ∀ now n, u = .claim now n → now.utcoffset = 0) :
    sqliteWrite q (.update workerId k u) = some (replace k (u.apply workerId t) q) := by
  cases u with
  | claim now n =>
      have hclaim : t.claimable now = true := by
        rw [← claimable_eq hrow (hnow now n rfl)]
        exact hfinds
      refine Tasks.claimUpdate_eq_some_iff.mpr ⟨t, ht, hclaim, ?_⟩
      exact replace_apply (f := Task.claimedBy workerId now (addSeconds now n)) (fun _ => rfl) ht
  | refreshLease u =>
      exact congrArg some (refreshLease_eq ht (of_decide_eq_true hfinds)).symm
  | write w => exact congrArg some (replace_apply (fun t => w.taskId_apply t) ht).symm
  | scheduleRetry r =>
      exact congrArg some (replace_apply (f := Task.scheduleRetry (utc r)) (fun _ => rfl) ht).symm

/-! ## Commits -/

namespace Session

/-- The `now` of a claim that is under way. -/
def now : Session → Option DateTime
  | .idle => none
  | .calling now _ => some now
  | .probing now _ _ => some now
  | .holds _ (.claim now _) _ => some now
  | .holds _ _ _ => none

end Session

/-- What a transaction has written fits the committed row, which nobody else can change. -/
structure Sound (worker : ι → String) (c : Cluster ι) : Prop where
  rows : ∀ k t, c.tasks.get? k = some t → RowOk t
  now : ∀ i now, (c.sessions i).now = some now → now.utcoffset = 0 ∧ now.instant ≤ c.clock
  holds : ∀ i k u row, c.sessions i = .holds k u row → c.locks k = some i ∧
    ∃ t, c.tasks.get? k = some t ∧ u.finds (worker i) t = true ∧ row = u.apply (worker i) t
  replay : Trace.exec sqliteWrite c.log Keyed.Table.empty = some c.tasks

omit [DecidableEq ι] in
theorem sound_initial (clock : ℤ) : Sound worker (Cluster.initial clock) where
  rows := by
    intro k t ht
    cases ht
  now := by
    intro i now hnow
    cases hnow
  holds := by
    intro i k u row hi
    cases hi
  replay := rfl

/-- A session goes on; nothing is committed. -/
theorem Sound.go (h : Sound worker c) {i : ι} {session : Session} (locks : String → Option ι)
    (hnow : ∀ now, session.now = some now → now.utcoffset = 0 ∧ now.instant ≤ c.clock)
    (hholds : ∀ k u row, session = .holds k u row → locks k = some i ∧
      ∃ t, c.tasks.get? k = some t ∧ u.finds (worker i) t = true ∧ row = u.apply (worker i) t)
    (hlocks : ∀ j k u row, j ≠ i → c.sessions j = .holds k u row → locks k = c.locks k) :
    Sound worker { c.go i session with locks := locks } where
  rows := h.rows
  now := by
    intro j now hj
    by_cases hji : j = i
    · have hself : (c.go i session).sessions j = session := by rw [hji]; exact Function.update_self ..
      exact hnow now (hself ▸ hj)
    · have hother : (c.go i session).sessions j = c.sessions j := Function.update_of_ne hji ..
      exact h.now j now (hother ▸ hj)
  holds := by
    intro j k u row hj
    by_cases hji : j = i
    · subst hji
      have hself : (c.go j session).sessions j = session := Function.update_self ..
      exact hholds k u row (hself ▸ hj)
    · have hother : (c.go i session).sessions j = c.sessions j := Function.update_of_ne hji ..
      have hj' : c.sessions j = .holds k u row := hother ▸ hj
      obtain ⟨hlock, hrow⟩ := h.holds j k u row hj'
      exact ⟨(hlocks j k u row hji hj').trans hlock, hrow⟩
  replay := h.replay

omit [DecidableEq ι] in
/-- Two transactions hold different rows. -/
theorem Sound.ne_of_holds (h : Sound worker c) {i j : ι} {k k' : String} {u u' : Update}
    {row row' : Task} (hi : c.sessions i = .holds k u row) (hj : c.sessions j = .holds k' u' row')
    (hne : j ≠ i) : k' ≠ k := by
  rintro rfl
  have hlock := (h.holds i _ _ _ hi).1
  rw [(h.holds j _ _ _ hj).1] at hlock
  exact hne (Option.some.inj hlock)

theorem Sound.release (h : Sound worker c) {i : ι} {k : String} {u : Update} {row : Task}
    (hsession : c.sessions i = .holds k u row) : Sound worker (c.release i k) := by
  refine h.go _ (fun _ hnow => by cases hnow) (fun _ _ _ hholds => by cases hholds) ?_
  intro j k' u' row' hne hj
  exact Function.update_of_ne (h.ne_of_holds hsession hj hne) ..

/-- A lock is taken that nobody has. -/
theorem Sound.lock (h : Sound worker c) {i : ι} {k : String} {u : Update} {t : Task}
    (hnow : ∀ now n, u = .claim now n → now.utcoffset = 0 ∧ now.instant ≤ c.clock)
    (hlock : c.locks k = none) (ht : c.tasks.get? k = some t)
    (hfinds : u.finds (worker i) t = true) :
    Sound worker { c.go i (.holds k u (u.apply (worker i) t)) with
      locks := Function.update c.locks k (some i) } := by
  refine h.go _ ?_ ?_ ?_
  · intro now hu
    cases u with
    | claim now' n =>
        cases hu
        exact hnow now n rfl
    | _ => cases hu
  · rintro k' u' row' hholds
    cases hholds
    exact ⟨Function.update_self .., t, ht, hfinds, rfl⟩
  · intro j k' u' row' hne hj
    refine Function.update_of_ne ?_ ..
    rintro rfl
    rw [(h.holds j _ _ _ hj).1] at hlock
    cases hlock

theorem Update.rowOk_apply {u : Update} {workerId : String} {t : Task} (h : RowOk t)
    (hfinds : u.finds workerId t = true)
    (hnow : ∀ now n, u = .claim now n → now.utcoffset = 0) : RowOk (u.apply workerId t) := by
  cases u with
  | claim now n => exact h.claimedBy workerId (hnow now n rfl)
  | refreshLease u =>
      have hrow := h.refreshLease workerId u
      rw [Task.refreshLease, if_pos (of_decide_eq_true hfinds)] at hrow
      exact hrow
  | write w => exact h.write w
  | scheduleRetry r =>
      refine ⟨rfl, ?_, ?_⟩
      · intro u hu
        cases hu
      · intro w hw
        cases hw

omit [DecidableEq ι] in
theorem Sound.now_of_holds (h : Sound worker c) {i : ι} {k : String} {u : Update} {row : Task}
    (hsession : c.sessions i = .holds k u row) (now : DateTime) (n : ℕ) (hu : u = .claim now n) :
    now.utcoffset = 0 ∧ now.instant ≤ c.clock :=
  h.now i now (by rw [hsession, hu]; rfl)

theorem Sound.commit (h : Sound worker c) {i : ι} {k : String} {u : Update} {row : Task}
    (hsession : c.sessions i = .holds k u row) : Sound worker (c.commit worker i k u row) := by
  have hrelease := h.release hsession
  obtain ⟨-, t, ht, hfinds, rfl⟩ := h.holds i k u row hsession
  have hutc : ∀ now n, u = .claim now n → now.utcoffset = 0 := fun now n hu =>
    (h.now_of_holds hsession now n hu).1
  have hrows : ∀ k', (replace k (u.apply (worker i) t) c.tasks).get? k' =
      if k = k' then some (u.apply (worker i) t) else c.tasks.get? k' :=
    get?_replace (u.taskId_apply (worker i)) ht
  refine ⟨fun k' t' ht' => ?_, hrelease.now, fun j k' u' row' hj => ?_, ?_⟩
  · have hget := (hrows k').symm.trans ht'
    by_cases hk : k = k'
    · rw [if_pos hk] at hget
      cases hget
      exact Update.rowOk_apply (h.rows k t ht) hfinds hutc
    · rw [if_neg hk] at hget
      exact h.rows k' t' hget
  · have hji : j ≠ i := by
      rintro rfl
      have hself : (c.commit worker j k u (u.apply (worker j) t)).sessions j = .idle :=
        Function.update_self ..
      rw [hself] at hj
      cases hj
    have hj' : c.sessions j = .holds k' u' row' := by
      rw [← hj]
      exact (Function.update_of_ne hji ..).symm
    obtain ⟨hlock, t', ht', hrow'⟩ := hrelease.holds j k' u' row' hj
    refine ⟨hlock, t', ?_, hrow'⟩
    have hk : k ≠ k' := Ne.symm (h.ne_of_holds hsession hj' hji)
    exact (hrows k').trans (by rw [if_neg hk]; exact ht')
  · show Trace.exec sqliteWrite (c.log ++ _) _ = _
    rw [Trace.exec_concat h.replay]
    exact sqliteWrite_update ht (h.rows k t ht) hfinds hutc

omit [DecidableEq ι] in
theorem Sound.enqueue (h : Sound worker c) {t : Task} {q : Tasks} (hrow : RowOk t)
    (hq : c.tasks.insert? t = some q) :
    Sound worker { c with tasks := q, log := c.log ++ [.enqueue t] } where
  rows := by
    intro k t' ht'
    have hget : (if t.taskId = k then some t else c.tasks.get? k) = some t' := by
      rw [← Keyed.Table.get?_insert? hq]
      exact ht'
    by_cases hk : t.taskId = k
    · rw [if_pos hk] at hget
      cases hget
      exact hrow
    · rw [if_neg hk] at hget
      exact h.rows k t' hget
  now := h.now
  holds := by
    intro i k u row hi
    obtain ⟨hlock, t', ht', hrow'⟩ := h.holds i k u row hi
    refine ⟨hlock, t', ?_, hrow'⟩
    have hk : t.taskId ≠ k := by
      rintro rfl
      rw [(Keyed.Table.insert?_eq_some_iff.mp hq).1] at ht'
      cases ht'
    show q.get? k = some t'
    rw [Keyed.Table.get?_insert? hq, if_neg hk]
    exact ht'
  replay := by
    show Trace.exec sqliteWrite (c.log ++ _) _ = _
    rw [Trace.exec_concat h.replay]
    exact hq

theorem Sound.does {e : Event ι} (h : Sound worker c) (hdoes : Does worker c e c') :
    Sound worker c' := by
  -- a session that neither takes nor leaves a lock
  have hgo : ∀ (i : ι) (session : Session), (∀ k u row, session ≠ .holds k u row) →
      (∀ now, session.now = some now → now.utcoffset = 0 ∧ now.instant ≤ c.clock) →
      Sound worker (c.go i session) := fun i session hholds hnow =>
    h.go c.locks hnow (fun k u row heq => absurd heq (hholds k u row))
      fun _ _ _ _ _ _ => rfl
  cases hdoes with
  | tick hclock =>
      exact ⟨h.rows, fun i now hnow => ⟨(h.now i now hnow).1, (h.now i now hnow).2.trans hclock⟩,
        h.holds, h.replay⟩
  | enqueue hrow hq => exact h.enqueue hrow hq
  | claimBegin hsession =>
      refine hgo _ _ (by simp) fun now hnow => ?_
      cases hnow
      simp
  | claimSnapshot hsession hrows =>
      refine hgo _ _ (by simp) fun now hnow => ?_
      exact h.now _ now (by rw [hsession]; exact hnow)
  | claimSkip hsession hskip =>
      refine hgo _ _ (by simp) fun now hnow => ?_
      exact h.now _ now (by rw [hsession]; exact hnow)
  | claimLock hsession hlock ht hfinds =>
      refine h.lock (fun now n hu => ?_) hlock ht hfinds
      cases hu
      exact h.now _ _ (by rw [hsession]; rfl)
  | claimNone hsession => exact hgo _ _ (by simp) fun _ hnow => by cases hnow
  | update hsession hclaim hlock ht hfinds =>
      exact h.lock (fun now n hu => absurd hu (hclaim now n)) hlock ht hfinds
  | miss => exact h
  | commit hsession => exact h.commit hsession
  | release hsession => exact h.release hsession
  | abandon hsession => exact hgo _ _ (by simp) fun _ hnow => by cases hnow

/-- Every run of the events from an empty queue. -/
abbrev ClusterRun (worker : ι → String) (es : List (Event ι)) (c : Cluster ι) : Prop :=
  Trace.Run (fun c => ∃ clock, c = Cluster.initial clock)
    (fun c e c' => step worker c e = some c') es c

theorem sound_of_run {es : List (Event ι)} (h : ClusterRun worker es c) : Sound worker c := by
  refine Trace.Run.invariant_of_state (I := Sound worker) (p := fun _ => True) ?_ ?_ h
    fun _ _ => trivial
  · rintro c ⟨clock, rfl⟩
    exact sound_initial clock
  · intro c e c' hc _ hstep
    exact hc.does (step_does hstep)

theorem clusterRun_of_exec {es : List (Event ι)} {clock : ℤ}
    (hexec : Trace.exec (step worker) es (Cluster.initial clock) = some c) :
    ClusterRun worker (es.reverse ++ []) c :=
  (Trace.Run.of_exec (P := fun _ _ => True) (.start ⟨clock, rfl⟩) hexec fun _ _ _ => trivial).imp
    fun _ _ _ hstep => hstep.1

/-- The committed rows are what the writes of the SQLite adapter make of them one after the
other, in the order of the commits; each conditional UPDATE of a claim matches its row. -/
theorem commits_replay (worker : ι → String) {es : List (Event ι)} {c : Cluster ι}
    (h : ClusterRun worker es c) :
    Trace.exec sqliteWrite c.log Keyed.Table.empty = some c.tasks :=
  (sound_of_run h).replay

/-- Two workers with one snapshot: the second one skips the locked row and takes the next;
the first one rolls back, and its task is claimed, lost and claimed by the other one. -/
def skipEvents : List (Event Bool) :=
  [.enqueue (submitted "a" 0), .enqueue (submitted "b" 0), .claimBegin false 300,
    .claimSnapshot false [submitted "a" 0, submitted "b" 0], .claimBegin true 300,
    .claimSnapshot true [submitted "a" 0, submitted "b" 0], .claimLock false, .claimSkip true,
    .claimLock true, .commit true, .rollback false, .claimBegin false 300,
    .claimSnapshot false [submitted "a" 0], .claimLock false, .commit false, .tick 301000000,
    .update true "b" (.write .succeeded), .commit true, .claimBegin true 300,
    .claimSnapshot true [(submitted "a" 0).claimedBy "worker-a" (utc 0) (utc 300000000)],
    .claimLock true]

theorem commits_replay_skip : ∃ c, ClusterRun reclaimWorker (skipEvents.reverse ++ []) c ∧
    c.log.length = 5 ∧ Trace.exec sqliteWrite c.log Keyed.Table.empty = some c.tasks := by
  have hexec : (Trace.exec (step reclaimWorker) skipEvents (Cluster.initial 0)).any
      (fun c => decide (c.log.length = 5)) = true := by decide +kernel
  obtain ⟨c, hc, hlength⟩ := (Option.any_eq_true ..).mp hexec
  exact ⟨c, clusterRun_of_exec hc, of_decide_eq_true hlength,
    commits_replay reclaimWorker (clusterRun_of_exec hc)⟩

/-! ## Leases -/

/-- The cluster as the leases see it. -/
def Cluster.view (c : Cluster ι) : System ι := ⟨c.clock, c.tasks, fun _ => none, c.grants⟩

def Update.isScheduleRetry : Update → Bool
  | .scheduleRetry _ => true
  | _ => false

def Event.isScheduleRetry : Event ι → Bool
  | .update _ _ u => u.isScheduleRetry
  | _ => false

/-- Leases on the committed rows, while no transaction is about to requeue a task. -/
structure Leased (worker : ι → String) (c : Cluster ι) : Prop where
  sound : Sound worker c
  leases : LeasesOk c.view
  holds : ∀ i k u row, c.sessions i = .holds k u row → u.isScheduleRetry = false

omit [DecidableEq ι] in
theorem leased_initial (clock : ℤ) : Leased worker (Cluster.initial clock) where
  sound := sound_initial clock
  leases := leasesOk_initial clock
  holds := by
    intro i k u row hi
    cases hi

theorem leases_commit (h : Leased worker c) {i : ι} {k : String} {u : Update} {row : Task}
    (hsession : c.sessions i = .holds k u row) : LeasesOk (c.commit worker i k u row).view := by
  obtain ⟨-, t, ht, hfinds, rfl⟩ := h.sound.holds i k u row hsession
  have hrow := h.sound.rows k t ht
  have htasks : replace k (u.apply (worker i) t) c.tasks =
      c.tasks.modify k (u.apply (worker i)) (u.taskId_apply _) := replace_apply _ ht
  show LeasesOk ⟨c.clock, replace k (u.apply (worker i) t) c.tasks, fun _ => none, _⟩
  rw [htasks]
  cases u with
  | claim now n =>
      obtain ⟨hutc, hle⟩ := h.sound.now_of_holds hsession now n rfl
      have hclaim : t.claimable now = true := by
        rw [← claimable_eq hrow hutc]
        exact hfinds
      exact h.leases.grant ht (fun t' ht' => ht'.claimedBy _ hutc) ⟨rfl, rfl, rfl⟩
        fun w' _ u' hcov => hcov.expired_of_claimable hrow hutc hle hclaim
  | refreshLease u =>
      have howner : t.leaseOwner = some (worker i) := of_decide_eq_true hfinds
      refine h.leases.grant ht (fun t' ht' => ⟨ht'.nextRunAt, ?_, ht'.owned⟩)
        ⟨hrow.owned _ howner, howner, rfl⟩
        fun w' hw' u' hcov => hcov.expired_of_owner hrow howner hw'
      intro v hv
      cases hv
      rfl
  | write w =>
      have hwrite : Step worker c.view (.write i k w) _ := step_write.mpr rfl
      exact h.leases.write hwrite
  | scheduleRetry r => cases h.holds i k _ _ hsession

theorem Leased.does {e : Event ι} (h : Leased worker c) (he : e.isScheduleRetry = false)
    (hdoes : Does worker c e c') : Leased worker c' := by
  have hsound := h.sound.does hdoes
  -- one session changes, and what it is about to commit
  have hgo : ∀ (i : ι) (session : Session),
      (∀ k u row, session = .holds k u row → u.isScheduleRetry = false) →
      ∀ j k u row, (c.go i session).sessions j = .holds k u row → u.isScheduleRetry = false := by
    intro i session hsession j k u row hj
    by_cases hji : j = i
    · have hself : (c.go i session).sessions j = session := by rw [hji]; exact Function.update_self ..
      exact hsession k u row (hself ▸ hj)
    · have hother : (c.go i session).sessions j = c.sessions j := Function.update_of_ne hji ..
      exact h.holds j k u row (hother ▸ hj)
  cases hdoes with
  | tick hclock => exact ⟨hsound, h.leases.tick hclock, h.holds⟩
  | enqueue hrow hq => exact ⟨hsound, h.leases.enqueue hrow hq, h.holds⟩
  | claimBegin hsession => exact ⟨hsound, h.leases, hgo _ _ (by simp)⟩
  | claimSnapshot hsession hrows => exact ⟨hsound, h.leases, hgo _ _ (by simp)⟩
  | claimSkip hsession hskip => exact ⟨hsound, h.leases, hgo _ _ (by simp)⟩
  | claimLock hsession hlock ht hfinds =>
      refine ⟨hsound, h.leases, hgo _ _ fun k u row hholds => ?_⟩
      cases hholds
      rfl
  | claimNone hsession => exact ⟨hsound, h.leases, hgo _ _ (by simp)⟩
  | update hsession hclaim hlock ht hfinds =>
      refine ⟨hsound, h.leases, hgo _ _ fun k u row hholds => ?_⟩
      cases hholds
      exact he
  | miss => exact h
  | commit hsession =>
      exact ⟨hsound, leases_commit h hsession, hgo _ .idle (by simp)⟩
  | release hsession =>
      exact ⟨hsound, h.leases, hgo _ .idle (by simp)⟩
  | abandon hsession => exact ⟨hsound, h.leases, hgo _ .idle (by simp)⟩

/-- In every run in which nothing is requeued: what a claim commits, it takes from a row that
was due, and queued or running with an expired lease, at the instant of the commit; and no
lease overlaps one of another worker on the same task. -/
theorem committed_claims_are_safe (worker : ι → String) {es : List (Event ι)} {c : Cluster ι}
    (h : ClusterRun worker es c) (hes : ∀ e ∈ es, e.isScheduleRetry = false) :
    (∀ i k now n row, c.sessions i = .holds k (.claim now n) row →
      ∃ t, c.tasks.get? k = some t ∧ t.ClaimableAt c.clock) ∧ LeasesDisjoint c.grants := by
  have hleased : Leased worker c := by
    refine Trace.Run.invariant_of_state (I := Leased worker)
      (p := fun e => e.isScheduleRetry = false) ?_ ?_ h hes
    · rintro c ⟨clock, rfl⟩
      exact leased_initial clock
    · intro c e c' hc he hstep
      exact hc.does he (step_does hstep)
  refine ⟨fun i k now n row hi => ?_, hleased.leases.disjoint⟩
  obtain ⟨-, t, ht, hfinds, -⟩ := hleased.sound.holds i k _ row hi
  obtain ⟨-, hle⟩ := hleased.sound.now_of_holds hi now n rfl
  exact ⟨t, ht, (claimable_iff.mp hfinds).mono hle⟩

theorem committed_claims_are_safe_skip : ∃ c : Cluster Bool,
    (c.sessions true).now = some (utc 301000000) ∧ c.grants.length = 2 ∧
      LeasesDisjoint c.grants := by
  have hexec : (Trace.exec (step reclaimWorker) skipEvents (Cluster.initial 0)).any
      (fun c => decide ((c.sessions true).now = some (utc 301000000) ∧ c.grants.length = 2)) =
        true := by decide +kernel
  obtain ⟨c, hc, hstate⟩ := (Option.any_eq_true ..).mp hexec
  obtain ⟨hnow, hlength⟩ := of_decide_eq_true hstate
  exact ⟨c, hnow, hlength, (committed_claims_are_safe reclaimWorker (clusterRun_of_exec hc)
    (by decide)).2⟩

/-! ## A claim alone -/

/-- `priority DESC, next_run_at`. -/
def orderKey (t : Task) : ℤᵒᵈ ×ₗ ℤ := toLex (OrderDual.toDual t.priority, t.nextRunAt.instant)

omit [DecidableEq ι] in
theorem ordersBefore_iff_key {a b : Task} : ordersBefore a b ↔ orderKey a < orderKey b := by
  unfold ordersBefore orderKey
  rw [Prod.Lex.toLex_lt_toLex, OrderDual.toDual_lt_toDual, OrderDual.toDual_inj]

theorem mem_of_isSnapshot {now : DateTime} {q : Tasks} {rows : List Task}
    (h : IsSnapshot now q rows) {t : Task} :
    t ∈ rows ↔ t ∈ q.rows ∧ claimable now t = true := by
  rw [h.1.mem_iff, List.mem_filter]

/-- The rows that a snapshot may begin with are those that SQLite's SELECT may return. -/
theorem exists_isSnapshot_cons_iff {now : DateTime} {q : Tasks} {t : Task}
    (hrows : ∀ t ∈ q.rows, RowOk t) (hnow : now.utcoffset = 0) :
    (∃ rows, IsSnapshot now q (t :: rows)) ↔ Tasks.Selects now q t := by
  constructor
  · rintro ⟨rows, hsnapshot⟩
    obtain ⟨ht, hclaim⟩ := (mem_of_isSnapshot hsnapshot).mp List.mem_cons_self
    refine ⟨ht, by rw [← claimable_eq (hrows t ht) hnow, hclaim], fun t' ht' hclaim' => ?_⟩
    rw [← ordersBefore_iff (hrows t' ht') (hrows t ht)]
    rw [← claimable_eq (hrows t' ht') hnow] at hclaim'
    rcases List.mem_cons.mp ((mem_of_isSnapshot hsnapshot).mpr ⟨ht', hclaim'⟩) with heq | hmem
    · rw [heq, ordersBefore_iff_key]
      exact lt_irrefl _
    · exact List.rel_of_pairwise_cons hsnapshot.2 hmem
  · rintro ⟨ht, hclaim, hfirst⟩
    let others := (q.rows.filter (claimable now)).erase t
    have hmem : t ∈ q.rows.filter (claimable now) := by
      rw [List.mem_filter, claimable_eq (hrows t ht) hnow]
      exact ⟨ht, hclaim⟩
    let sorted := others.mergeSort fun a b => decide (orderKey a ≤ orderKey b)
    refine ⟨sorted, ?_, List.pairwise_cons.mpr ⟨fun t' ht' => ?_, ?_⟩⟩
    · exact ((List.mergeSort_perm others _).cons t).trans (List.perm_cons_erase hmem).symm
    · have hothers : t' ∈ q.rows.filter (claimable now) :=
        List.mem_of_mem_erase (List.mem_mergeSort.mp ht')
      obtain ⟨ht', hclaim'⟩ := List.mem_filter.mp hothers
      rw [ordersBefore_iff (hrows t' ht') (hrows t ht)]
      exact hfirst t' ht' (by rw [← claimable_eq (hrows t' ht') hnow, hclaim'])
    · refine ((SortKey.of_decide orderKey).pairwise_key_mergeSort others).imp fun {a b} hab => ?_
      rw [ordersBefore_iff_key]
      exact not_lt.mpr hab

theorem exec_snapshot {i : ι} (hidle : c.sessions i = .idle) (n : ℕ) (rows : List Task)
    (fs : List (Event ι)) :
    Trace.exec (step worker) (.claimBegin i n :: .claimSnapshot i rows :: fs) c =
      if IsSnapshot (utc c.clock) c.tasks rows then
        Trace.exec (step worker) fs (c.go i (.probing (utc c.clock) n rows))
      else none := by
  have hgo : ∀ a b, (c.go i a).go i b = c.go i b := fun a b => by
    simp [Cluster.go]
  have hcalling : (c.go i (.calling (utc c.clock) n)).sessions i = .calling (utc c.clock) n :=
    Function.update_self ..
  have htasks : (c.go i (.calling (utc c.clock) n)).tasks = c.tasks := rfl
  simp only [Trace.exec, step, hidle, Option.bind_some, hcalling, hgo, htasks]
  split <;> rfl

/-- The first row of the snapshot is taken where nobody has it locked. -/
theorem exec_claim (worker : ι → String) {i : ι} {n : ℕ} {now : DateTime} {t : Task}
    (rest : List Task)
    (hlock : c.locks t.taskId = none) (ht : t ∈ c.tasks.rows) (hclaim : claimable now t = true) :
    ∃ c', Trace.exec (step worker) [.claimLock i, .commit i] (c.go i (.probing now n (t :: rest)))
      = some c' ∧ c'.tasks = c.tasks.claim t.taskId (worker i) now (addSeconds now n) := by
  have hget := Keyed.Table.get?_of_mem ht
  have hprobing : (c.go i (.probing now n (t :: rest))).sessions i = .probing now n (t :: rest) :=
    Function.update_self ..
  let locked : Cluster ι :=
    { (c.go i (.probing now n (t :: rest))).go i
        (.holds t.taskId (.claim now n) (Update.apply (worker i) (.claim now n) t)) with
      locks := Function.update c.locks t.taskId (some i) }
  have hlocked : step worker (c.go i (.probing now n (t :: rest))) (.claimLock i) = some locked := by
    simp only [step, hprobing]
    exact lockRow_eq_some_iff.mpr ⟨hlock, t, hget, hclaim, rfl⟩
  have hholds : locked.sessions i =
      .holds t.taskId (.claim now n) (Update.apply (worker i) (.claim now n) t) :=
    Function.update_self ..
  let done : Cluster ι :=
    locked.commit worker i t.taskId (.claim now n) (Update.apply (worker i) (.claim now n) t)
  have hcommit : step worker locked (.commit i) = some done := by
    simp only [step, hholds]
    rfl
  refine ⟨done, ?_,
    replace_apply (f := Task.claimedBy (worker i) now (addSeconds now n)) (fun _ => rfl) hget⟩
  simp only [Trace.exec, hlocked, hcommit, Option.bind_some]

/-- With nobody else at work both adapters claim alike: PostgreSQL may take any task that
SQLite's SELECT may return, with what SQLite's UPDATE makes of it, it answers `None` where
that SELECT finds nothing, and it skips no row. -/
theorem claim_alone_agrees (worker : ι → String) {es : List (Event ι)} {c : Cluster ι} {i : ι}
    (h : ClusterRun worker es c) (hidle : c.sessions i = .idle) (hquiet : ∀ k, c.locks k = none)
    (n : ℕ) :
    (∀ t q, (∃ rows c', Trace.exec (step worker)
        [.claimBegin i n, .claimSnapshot i (t :: rows), .claimLock i, .commit i] c = some c' ∧
          c'.tasks = q) ↔
      Tasks.Selects (utc c.clock) c.tasks t ∧ c.tasks.claimUpdate t.taskId (worker i) (utc c.clock)
        (addSeconds (utc c.clock) n) = some q) ∧
    ((∃ rows c', Trace.exec (step worker)
        [.claimBegin i n, .claimSnapshot i rows, .claimNone i] c = some c') ↔
      c.tasks.selectsNone (utc c.clock) = true) ∧
    ∀ rows, Trace.exec (step worker)
      [.claimBegin i n, .claimSnapshot i rows, .claimSkip i] c = none := by
  have hrows : ∀ t ∈ c.tasks.rows, RowOk t := fun t ht =>
    (sound_of_run h).rows t.taskId t (Keyed.Table.get?_of_mem ht)
  refine ⟨fun t q => ⟨?_, ?_⟩, ⟨?_, ?_⟩, fun rows => ?_⟩
  · rintro ⟨rows, c', hexec, rfl⟩
    rw [exec_snapshot hidle] at hexec
    obtain ⟨hsnapshot, hexec⟩ := Option.ite_none_right_eq_some.mp hexec
    obtain ⟨ht, hclaim⟩ := (mem_of_isSnapshot hsnapshot).mp List.mem_cons_self
    obtain ⟨c'', hexec', htasks⟩ := exec_claim worker (i := i) (n := n) rows
      (hquiet t.taskId) ht hclaim
    rw [hexec'] at hexec
    cases hexec
    refine ⟨(exists_isSnapshot_cons_iff hrows rfl).mp ⟨rows, hsnapshot⟩, ?_⟩
    refine Tasks.claimUpdate_eq_some_iff.mpr ⟨t, Keyed.Table.get?_of_mem ht, ?_, htasks⟩
    rw [← claimable_eq (hrows t ht) rfl, hclaim]
  · rintro ⟨hselects, hupdate⟩
    obtain ⟨rows, hsnapshot⟩ := (exists_isSnapshot_cons_iff hrows rfl).mpr hselects
    obtain ⟨ht, hclaim⟩ := (mem_of_isSnapshot hsnapshot).mp List.mem_cons_self
    obtain ⟨c', hexec, htasks⟩ := exec_claim worker (i := i) (n := n) rows
      (hquiet t.taskId) ht hclaim
    obtain ⟨-, -, -, rfl⟩ := Tasks.claimUpdate_eq_some_iff.mp hupdate
    refine ⟨rows, c', ?_, htasks⟩
    rw [exec_snapshot hidle, if_pos hsnapshot]
    exact hexec
  · rintro ⟨rows, c', hexec⟩
    rw [exec_snapshot hidle] at hexec
    obtain ⟨hsnapshot, hexec⟩ := Option.ite_none_right_eq_some.mp hexec
    have hnone : rows = [] := by
      cases rows with
      | nil => rfl
      | cons t rows => simp [Trace.exec, step, Cluster.go] at hexec
    subst hnone
    refine List.all_eq_true.mpr fun t ht => ?_
    rw [← claimable_eq (hrows t ht) rfl, Bool.not_eq_true']
    by_contra hclaim
    rw [Bool.not_eq_false] at hclaim
    exact List.not_mem_nil ((mem_of_isSnapshot hsnapshot).mpr ⟨ht, hclaim⟩)
  · intro hnone
    have hsnapshot : IsSnapshot (utc c.clock) c.tasks [] := by
      refine ⟨?_, List.Pairwise.nil⟩
      have hfilter : c.tasks.rows.filter (claimable (utc c.clock)) = [] := by
        refine List.filter_eq_nil_iff.mpr fun t ht hclaim => ?_
        have hnot := List.all_eq_true.mp hnone t ht
        rw [← claimable_eq (hrows t ht) rfl, hclaim] at hnot
        cases hnot
      rw [hfilter]
    refine ⟨[], c.go i .idle, ?_⟩
    rw [exec_snapshot hidle, if_pos hsnapshot]
    simp [Trace.exec, step, Cluster.go]
  · rw [exec_snapshot hidle]
    split
    · rename_i hsnapshot
      cases rows with
      | nil => simp [Trace.exec, step, Cluster.go]
      | cons t rows =>
          obtain ⟨ht, hclaim⟩ := (mem_of_isSnapshot hsnapshot).mp List.mem_cons_self
          simp [Trace.exec, step, Cluster.go, hquiet, Keyed.Table.get?_of_mem ht, hclaim]
    · rfl

theorem claim_alone_agrees_two : ∃ c : Cluster Bool, c.tasks.rows.length = 2 ∧
    ∀ rows, Trace.exec (step reclaimWorker)
      [.claimBegin true 300, .claimSnapshot true rows, .claimSkip true] c = none := by
  obtain ⟨c, hc, hlength, hidle, hquiet⟩ : ∃ c, Trace.exec (step reclaimWorker)
      [.enqueue (submitted "a" 0), .enqueue (submitted "b" 0)] (Cluster.initial 0) = some c ∧
        c.tasks.rows.length = 2 ∧ c.sessions true = .idle ∧ ∀ k, c.locks k = none :=
    ⟨_, rfl, rfl, rfl, fun _ => rfl⟩
  exact ⟨c, hlength,
    (claim_alone_agrees reclaimWorker (clusterRun_of_exec hc) hidle hquiet 300).2.2⟩

end CctvMemory.Queue.Postgres
