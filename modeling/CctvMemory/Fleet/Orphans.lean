import CctvMemory.Queue.System
import CctvMemory.Worker.Unit

/-!
# The orphan sweep

`list_stale_running` and the sweep of `recover_orphans` on the units of all
jobs, beside the queue the workers claim the jobs from. A job is named by its
queue task. `attempts` records when each unit was last set running, and
`processing` the slot that claimed a task last and neither ended nor crashed.

* `sweeps_are_safe`: the runs in which a sweep only fails abandoned units.
* `sweep_kills_a_retry`: a retried unit is stale at once.
-/

namespace CctvMemory.Orphans

open Iso (DateTime isoformat)
open Iso.DateTime (utc)
open Keyed (Table)
open Worker (UnitRow ErrorCode)

/-! ## Stale units -/

/-- `status = 'running' AND started_at < cutoff`. -/
def isStale (cutoff : DateTime) (row : UnitRow) : Bool :=
  decide (row.status = .running) &&
    row.startedAt.any fun t => decide (isoformat t < isoformat cutoff)

/-- `ORDER BY started_at`. -/
def startedBefore (a b : UnitRow) : Bool :=
  match a.startedAt, b.startedAt with
  | some t, some t' => decide (isoformat t ≤ isoformat t')
  | none, _ => true
  | some _, none => false

def listStaleRunning {α : Type} (row : α → UnitRow) (cutoff : DateTime) (limit : ℕ)
    (units : List α) : List α :=
  ((units.filter fun u => isStale cutoff (row u)).mergeSort fun a b =>
    startedBefore (row a) (row b)).take limit

theorem isStale_of_mem {α : Type} {row : α → UnitRow} {cutoff : DateTime} {limit : ℕ}
    {units : List α} {u : α} (h : u ∈ listStaleRunning row cutoff limit units) :
    u ∈ units ∧ isStale cutoff (row u) = true := by
  have hsorted := (List.mem_mergeSort.mp (List.mem_of_mem_take h))
  exact List.mem_filter.mp hsorted

/-- `mark_failed` of the sweep. -/
def orphanFailed (now : DateTime) (row : UnitRow) : UnitRow :=
  row.markFailed now .orphanTimeout
    (some "unit running past stale cutoff; recovered by sweep") none none

/-! ## The fleet -/

structure UnitRecord where
  unitId : String
  taskId : String
  row : UnitRow
deriving DecidableEq

abbrev Units := Table UnitRecord UnitRecord.unitId

/-- A terminal write of a unit. -/
inductive Settlement where
  | succeeded (now : DateTime) (modelCallId : Option String) (recordIds : List String)
      (attemptCount : Option ℕ)
  | failed (now : DateTime) (errorCode : ErrorCode) (errorMessage modelCallId : Option String)
      (attemptCount : Option ℕ)
  | skipped (now : DateTime) (skippedReason : ErrorCode) (modelCallId : Option String)

def Settlement.apply : Settlement → UnitRow → UnitRow
  | .succeeded now m ids n => UnitRow.markSucceeded now m ids n
  | .failed now code text m n => UnitRow.markFailed now code text m n
  | .skipped now reason m => UnitRow.markSkipped now reason m

@[simp] theorem Settlement.status_apply_ne (w : Settlement) (row : UnitRow) :
    (w.apply row).status ≠ .running := by
  cases w <;> simp [apply]

structure Fleet (ι : Type) where
  queue : Queue.System ι
  units : Units
  processing : String → Option ι
  attempts : String → Option ℤ

variable {ι : Type} [DecidableEq ι]

def Fleet.initial (clock : ℤ) : Fleet ι := ⟨.initial clock, Table.empty, fun _ => none, fun _ => none⟩

inductive Event (ι : Type) where
  | queue (e : Queue.Event ι)
  | crash (i : ι)
  | claimUnit (i : ι) (unit : UnitRecord) (utcoffset : ℤ) (modelCallId : Option String)
  | settle (i : ι) (unitId : String) (w : Settlement)
  | sweep (i : ι) (staleSeconds limit : ℕ) (utcoffset : ℤ)

/-- Who processes what after a queue event. -/
def processingAfter (e : Queue.Event ι) (processing : String → Option ι) : String → Option ι :=
  match e with
  | .claimWin i k => Function.update processing k (some i)
  | .write i k _ => if processing k = some i then Function.update processing k none else processing
  | _ => processing

/-- Done units are left alone, any other is set running. -/
def isDone (row : UnitRow) : Bool := decide (row.status = .succeeded ∨ row.status = .skipped)

/-- The rows after the claim transaction of a unit: created or got, and set running. -/
def claimUnit (unit : UnitRecord) (now : DateTime) (modelCallId : Option String) (units : Units) :
    Units :=
  match units.get? unit.unitId with
  | some u =>
      if isDone u.row = true then units
      else units.modify unit.unitId (fun u => { u with row := u.row.markRunning now modelCallId })
        fun _ => rfl
  | none => units.put { unit with row :=
      (UnitRow.created unit.row.windowIndex unit.row.triggerId).markRunning now modelCallId }

/-- Whether the claim transaction sets the unit running. -/
def setsRunning (unitId : String) (units : Units) : Bool :=
  (units.get? unitId).all fun u => !isDone u.row

def settleUnit (unitId : String) (w : Settlement) (units : Units) : Units :=
  units.modify unitId (fun u => { u with row := w.apply u.row }) fun _ => rfl

/-- The units a sweep at `cutoff` terminalizes. -/
def swept (cutoff : DateTime) (limit : ℕ) (units : Units) : List String :=
  (listStaleRunning UnitRecord.row cutoff limit units.rows).map UnitRecord.unitId

def sweepUnits (now cutoff : DateTime) (limit : ℕ) (units : Units) : Units :=
  units.mapRows (fun u =>
    if u.unitId ∈ swept cutoff limit units then { u with row := orphanFailed now u.row } else u)
    fun u => by split <;> rfl

/-- `datetime.now(UTC) - timedelta(seconds=orphan_stale_seconds)`. -/
def cutoffOf (clock : ℤ) (staleSeconds : ℕ) : DateTime := utc (clock - staleSeconds * Iso.second)

variable (worker : ι → String)

/-- What one event does; `none` where it cannot happen. -/
def step (s : Fleet ι) : Event ι → Option (Fleet ι)
  | .queue e => (Queue.step worker s.queue e).map fun q =>
      { s with queue := q, processing := processingAfter e s.processing }
  | .crash i => some { s with
      processing := fun k => if s.processing k = some i then none else s.processing k }
  | .claimUnit _ unit offset m => some { s with
      units := claimUnit unit (.onClock offset s.queue.clock) m s.units
      attempts := if setsRunning unit.unitId s.units = true then
          Function.update s.attempts unit.unitId (some s.queue.clock)
        else s.attempts }
  | .settle _ k w => some { s with units := settleUnit k w s.units }
  | .sweep _ stale limit offset => some { s with
      units := sweepUnits (.onClock offset s.queue.clock) (cutoffOf s.queue.clock stale) limit
        s.units }

def Step (s : Fleet ι) (e : Event ι) (s' : Fleet ι) : Prop := step worker s e = some s'

/-! ## Abandoned units -/

/-- The task is under a lease of slot `i` that has not expired. -/
def HoldsLease (s : Fleet ι) (i : ι) (taskId : String) : Prop :=
  ∃ t u, s.queue.tasks.get? taskId = some t ∧ t.leaseOwner = some (worker i) ∧
    t.leaseExpiresAt = some u ∧ s.queue.clock ≤ u.instant

/-- The current attempt was set running before the cutoff, and nobody processes
the job under an unexpired lease. -/
structure Abandoned (s : Fleet ι) (cutoff : ℤ) (u : UnitRecord) : Prop where
  before : ∃ a, s.attempts u.unitId = some a ∧ a < cutoff
  unprocessed : ∀ i, s.processing u.taskId = some i → ¬ HoldsLease worker s i u.taskId

/-- Every unit that a sweep turns from running to failed is abandoned. -/
def KillsOnlyAbandoned (s : Fleet ι) (e : Event ι) (s' : Fleet ι) : Prop :=
  ∀ i stale limit offset, e = .sweep i stale limit offset →
    ∀ k u u', s.units.get? k = some u → u.row.status = .running →
      s'.units.get? k = some u' → u'.row.status = .failed →
        Abandoned worker s (cutoffOf s.queue.clock stale).instant u

/-- A unit is set running only for the first time and on a host not west of
UTC; at a sweep no attempt under an unexpired lease is older than the cutoff. -/
def Ok (s : Fleet ι) : Event ι → Prop
  | .claimUnit _ unit offset _ => setsRunning unit.unitId s.units = true →
      0 ≤ offset ∧ ∀ u, s.units.get? unit.unitId = some u → u.row.startedAt = none
  | .sweep _ stale _ _ => ∀ k u, s.units.get? k = some u → u.row.status = .running →
      ∀ i a, s.processing u.taskId = some i → HoldsLease worker s i u.taskId →
        s.attempts k = some a → (cutoffOf s.queue.clock stale).instant ≤ a
  | _ => True

/-- The runs whose events all meet `Ok`, from an empty fleet. -/
abbrev OkRun (es : List (Event ι)) (s : Fleet ι) : Prop :=
  Trace.Run (fun s => ∃ clock, s = Fleet.initial clock)
    (fun s e s' => Step worker s e s' ∧ Ok worker s e) es s

/-- A running unit shows when its current attempt was set running. -/
def Dated (s : Fleet ι) : Prop :=
  ∀ k u, s.units.get? k = some u → u.row.status = .running →
    ∃ offset a, 0 ≤ offset ∧ u.row.startedAt = some (.onClock offset a) ∧ s.attempts k = some a

/-! ## Rows after an event -/

theorem get?_settleUnit (k : String) (w : Settlement) (units : Units) (k' : String) :
    (settleUnit k w units).get? k' = if k = k' then
      (units.get? k').map fun u => { u with row := w.apply u.row } else units.get? k' :=
  Table.get?_modify ..

theorem get?_sweepUnits (now cutoff : DateTime) (limit : ℕ) (units : Units) (k : String) :
    (sweepUnits now cutoff limit units).get? k = (units.get? k).map fun u =>
      if u.unitId ∈ swept cutoff limit units then { u with row := orphanFailed now u.row } else u :=
  Table.get?_mapRows ..

/-- Only the row of the unit changes, and only if it is not done. -/
theorem get?_claimUnit_of_ne {unit : UnitRecord} {now : DateTime} {m : Option String}
    {units : Units} {k : String} (h : unit.unitId ≠ k) :
    (claimUnit unit now m units).get? k = units.get? k := by
  unfold claimUnit
  split
  · split
    · rfl
    · exact Table.get?_modify_of_ne units _ _ h
  · exact (Table.get?_put units _ k).trans (if_neg h)

theorem get?_claimUnit_self {unit : UnitRecord} {now : DateTime} {m : Option String}
    {units : Units} {u : UnitRecord} (h : (claimUnit unit now m units).get? unit.unitId = some u) :
    (setsRunning unit.unitId units = false ∧ units.get? unit.unitId = some u ∧
        isDone u.row = true) ∨
      (setsRunning unit.unitId units = true ∧ ∃ row, u.row = row.markRunning now m ∧
        (units.get? unit.unitId = none ∧ row.startedAt = none ∨
          ∃ u₀, units.get? unit.unitId = some u₀ ∧ u₀.row = row)) := by
  unfold claimUnit at h
  unfold setsRunning
  cases hget : units.get? unit.unitId with
  | none =>
      simp only [hget] at h
      rw [Table.get?_put, if_pos rfl] at h
      cases h
      exact Or.inr ⟨rfl, _, rfl, Or.inl ⟨rfl, rfl⟩⟩
  | some u₀ =>
      simp only [hget] at h
      split at h
      · rename_i hdone
        rw [hget] at h
        cases h
        exact Or.inl ⟨by simp [hdone], rfl, hdone⟩
      · rename_i hdone
        rw [Table.get?_modify_self, hget] at h
        cases h
        exact Or.inr ⟨by simpa using hdone, _, rfl, Or.inr ⟨u₀, rfl, rfl⟩⟩

/-! ## Runs -/

variable {worker} {s s' : Fleet ι}

theorem Dated.step {e : Event ι} (h : Dated s) (hok : Ok worker s e) (hs : Step worker s e s') :
    Dated s' := by
  intro k u hu hrun
  cases e with
  | queue e =>
      obtain ⟨q, -, rfl⟩ := Option.map_eq_some_iff.mp hs
      exact h k u hu hrun
  | crash i =>
      cases hs
      exact h k u hu hrun
  | settle i k' w =>
      cases hs
      have hget := get?_settleUnit k' w s.units k
      rw [show (settleUnit k' w s.units).get? k = some u from hu] at hget
      split at hget
      · obtain ⟨u₀, -, rfl⟩ := Option.map_eq_some_iff.mp hget.symm
        exact absurd hrun (w.status_apply_ne u₀.row)
      · exact h k u hget.symm hrun
  | sweep i stale limit offset =>
      cases hs
      have hget := get?_sweepUnits (.onClock offset s.queue.clock)
        (cutoffOf s.queue.clock stale) limit s.units k
      rw [show (sweepUnits (.onClock offset s.queue.clock) (cutoffOf s.queue.clock stale) limit
        s.units).get? k = some u from hu] at hget
      obtain ⟨u₀, hu₀, rfl⟩ := Option.map_eq_some_iff.mp hget.symm
      split at hrun
      · cases hrun
      · rename_i hkept
        rw [if_neg hkept]
        exact h k u₀ hu₀ hrun
  | claimUnit i unit offset m =>
      cases hs
      by_cases hk : unit.unitId = k
      · subst hk
        rcases get?_claimUnit_self hu with ⟨hset, hget, hdone⟩ | ⟨hset, row, hrow, hold⟩
        · simp [isDone, hrun] at hdone
        -- the first attempt, which is the one that dates the row
        · obtain ⟨hoffset, hfirst⟩ := hok hset
          have hnone : row.startedAt = none := by
            rcases hold with ⟨-, hnone⟩ | ⟨u₀, hu₀, rfl⟩
            · exact hnone
            · exact hfirst u₀ hu₀
          refine ⟨offset, s.queue.clock, hoffset, ?_, ?_⟩
          · rw [hrow]
            exact UnitRow.startedAt_markRunning_of_none hnone
          · show (if setsRunning unit.unitId s.units = true then
              Function.update s.attempts unit.unitId (some s.queue.clock) else s.attempts) _ = _
            rw [if_pos hset, Function.update_self]
      · have hget := (get?_claimUnit_of_ne hk).symm.trans hu
        obtain ⟨o, a, ho, hstart, hat⟩ := h k u hget hrun
        refine ⟨o, a, ho, hstart, ?_⟩
        show (if setsRunning unit.unitId s.units = true then
          Function.update s.attempts unit.unitId (some s.queue.clock) else s.attempts) k = _
        split
        · rw [Function.update_of_ne (Ne.symm hk)]
          exact hat
        · exact hat

theorem Dated.of_run {es : List (Event ι)} (h : OkRun worker es s) : Dated s := by
  refine Trace.Run.invariant_of_state (p := fun _ => True) ?_ ?_ h fun _ _ => trivial
  · rintro s ⟨clock, rfl⟩ k u hu
    cases hu
  · intro s e s' hdated _ hs
    exact hdated.step hs.2 hs.1

/-- In the runs that meet `Ok`, every sweep fails abandoned units only. -/
theorem sweeps_are_safe {es : List (Event ι)} (h : OkRun worker es s) {e : Event ι}
    (hs : Step worker s e s') (hok : Ok worker s e) : KillsOnlyAbandoned worker s e s' := by
  rintro i stale limit offset rfl k u u' hu hrun hu' hfailed
  have hdated := Dated.of_run h
  obtain ⟨o, a, ho, hstart, hat⟩ := hdated k u hu hrun
  cases hs
  have hget := get?_sweepUnits (.onClock offset s.queue.clock)
    (cutoffOf s.queue.clock stale) limit s.units k
  rw [hu, show (sweepUnits (.onClock offset s.queue.clock) (cutoffOf s.queue.clock stale) limit
    s.units).get? k = some u' from hu'] at hget
  have hkey := Table.key_of_get? hu
  -- the unit was listed, so the text of its start sorts before the cutoff
  have hstale : isStale (cutoffOf s.queue.clock stale) u.row = true := by
    rw [Option.map_some, Option.some.injEq] at hget
    split at hget
    · rename_i hswept
      obtain ⟨v, hv, hid⟩ := List.mem_map.mp hswept
      obtain ⟨hmem, hstale⟩ := isStale_of_mem hv
      rwa [Table.eq_of_key_eq hmem (Table.mem_of_get? hu) hid] at hstale
    · rw [hget, hrun] at hfailed
      cases hfailed
  have hbefore : a < (cutoffOf s.queue.clock stale).instant := by
    rw [isStale, hstart, Bool.and_eq_true] at hstale
    have htext := of_decide_eq_true hstale.2
    exact ((Iso.isoformat_lt_utc_iff o).mpr ho a _ htext).trans_eq
      (Iso.DateTime.instant_utc _).symm
  refine ⟨⟨a, hkey ▸ hat, hbefore⟩, fun j hj hlease => ?_⟩
  have hyoung := hok k u hu hrun j a hj hlease hat
  omega

/-! ## Two sweeps -/

def fleetWorker : Bool → String
  | false => "worker_a"
  | true => "worker_b"

/-- What the events make of a fleet, where they can happen. -/
def Fleet.after (s : Fleet Bool) (es : List (Event Bool)) : Fleet Bool :=
  (Trace.exec (step fleetWorker) es s).getD s

def claimEvents : List (Event Bool) :=
  [.queue (.enqueue (Queue.submitted "job" 0)), .queue (.claimBegin false 300),
    .queue (.claimSelect false "job"), .queue (.claimWin false "job")]

/-- A job that was just claimed. -/
def claimedFleet : Fleet Bool := (Fleet.initial 0).after claimEvents

/-- Its unit is set running. -/
def startUnit : Event Bool :=
  .claimUnit false ⟨"unit", "job", UnitRow.created 0 none⟩ 0 (some "mcall")

/-- The worker crashes, and a thousand seconds pass. -/
def crashEvents : List (Event Bool) := [.crash false, .queue (.tick 1000000000)]

def crashedFleet : Fleet Bool := (claimedFleet.after [startUnit]).after crashEvents

theorem okRun_crashed :
    OkRun fleetWorker (crashEvents.reverse ++ startUnit :: (claimEvents.reverse ++ [])) crashedFleet := by
  have hstart : OkRun fleetWorker [] (.initial 0) := .start ⟨0, rfl⟩
  have hclaimed : OkRun fleetWorker (claimEvents.reverse ++ []) claimedFleet :=
    hstart.of_exec rfl fun e he s => by
      simp only [claimEvents, List.mem_cons, List.not_mem_nil, or_false] at he
      rcases he with rfl | rfl | rfl | rfl <;> trivial
  have hrunning : OkRun fleetWorker (startUnit :: (claimEvents.reverse ++ []))
      (claimedFleet.after [startUnit]) :=
    hclaimed.next ⟨rfl, fun _ => ⟨by decide, fun u hu => by cases hu⟩⟩
  refine hrunning.of_exec rfl fun e he s => ?_
  simp only [crashEvents, List.mem_cons, List.not_mem_nil, or_false] at he
  rcases he with rfl | rfl <;> trivial

/-- The sweep of the second worker fails the unit of the crashed one. -/
theorem sweeps_are_safe_crash :
    KillsOnlyAbandoned fleetWorker crashedFleet (.sweep true 900 100 0)
        (crashedFleet.after [.sweep true 900 100 0]) ∧
      ((crashedFleet.after [.sweep true 900 100 0]).units.get? "unit").map (fun u => u.row.status)
        = some .failed := by
  have hidle : ∀ k, crashedFleet.processing k = none := by
    intro k
    show (if (Function.update (fun _ => none) "job" (some false) k : Option Bool) = some false
      then none else Function.update (fun _ => none) "job" (some false) k) = none
    by_cases hk : k = "job" <;> simp [hk]
  refine ⟨sweeps_are_safe okRun_crashed rfl ?_, by decide +kernel⟩
  intro k u hu hrun i a hi
  rw [hidle] at hi
  cases hi

/-- The unit fails, and is tried again after a thousand seconds, under a lease
that was just renewed. -/
def retryEvents : List (Event Bool) :=
  claimEvents ++ [startUnit, .settle false "unit" (.failed (utc 0) .vlmProviderError none none none),
    .queue (.tick 1000000000), .queue (.refresh false "job" 1300000000), startUnit]

def retriedFleet : Fleet Bool := (Fleet.initial 0).after retryEvents

/-- The unit was set running this instant, its worker holds the lease, and the
sweep of the other worker fails it. -/
theorem sweep_kills_a_retry : ¬ ∀ (es : List (Event Bool)) (s s' : Fleet Bool) (e : Event Bool),
    Trace.Run (fun s => ∃ clock, s = Fleet.initial clock) (Step fleetWorker) es s →
      Step fleetWorker s e s' → KillsOnlyAbandoned fleetWorker s e s' := by
  intro h
  have hrun : Trace.Run (fun s => ∃ clock, s = Fleet.initial clock) (Step fleetWorker)
      (retryEvents.reverse ++ []) retriedFleet :=
    (Trace.Run.of_exec (P := fun _ _ => True) (.start ⟨0, rfl⟩) rfl fun _ _ _ => trivial).imp
      fun _ _ _ hs => hs.1
  have hsafe := h _ _ (retriedFleet.after [.sweep true 900 100 0]) (.sweep true 900 100 0) hrun rfl
  obtain ⟨u, hu, hstatus, hattempt⟩ : ∃ u, retriedFleet.units.get? "unit" = some u ∧
      u.row.status = .running ∧ retriedFleet.attempts u.unitId = some 1000000000 :=
    ⟨_, rfl, rfl, rfl⟩
  obtain ⟨u', hu', hfailed⟩ : ∃ u', (retriedFleet.after [.sweep true 900 100 0]).units.get? "unit"
      = some u' ∧ u'.row.status = .failed :=
    Option.map_eq_some_iff.mp (by decide +kernel)
  obtain ⟨a, ha, hlt⟩ := (hsafe true 900 100 0 rfl "unit" u u' hu hstatus hu' hfailed).before
  rw [hattempt] at ha
  cases ha
  exact absurd hlt (by decide)

end CctvMemory.Orphans
