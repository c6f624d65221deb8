import CctvMemory.Queue.Leases

/-!
# Outcome writes and retries

`mark_succeeded`, `mark_failed` and `schedule_retry` write the row they name
whatever it holds. `OwnWrite` is the order of events under which that is
harmless: the writer won the task, and since then nobody else won it and no
outcome was written.

* `writes_are_owned`: in runs of such writes every outcome is written to a
  running task its writer owns, and every status change is in the contract.
* `late_write_overwrites`: a worker whose lease expired overwrites the task
  another worker runs.
* `retry_is_never_claimed`: nothing the workers and commands do claims a task
  that was put in `retry_scheduled`.
-/

namespace CctvMemory.Queue

open Trace (Meets)

variable {ι : Type} {worker : ι → String} {s s' : System ι}

/-! ## Who writes outcomes -/

/-- The slot that won the task last, if no outcome was written since. -/
def holder (k : String) : List (Event ι) → Option ι
  | [] => none
  | .claimWin i k' :: es => if k' = k then some i else holder k es
  | .write _ k' _ :: es => if k' = k then none else holder k es
  | _ :: es => holder k es

/-- An outcome is written by the slot that won the task last, once, and never
through `schedule_retry`. -/
def OwnWrite (es : List (Event ι)) : Event ι → Prop
  | .write i k _ => holder k es = some i
  | .scheduleRetry _ _ _ => False
  | _ => True

/-- The slot whose processing issues an outcome write, and the task it names. -/
def Event.outcome : Event ι → Option (ι × String)
  | .write i k _ => some (i, k)
  | .scheduleRetry i k _ => some (i, k)
  | _ => none

/-- An outcome write changes a task only when it is running under a lease of
the worker that issues the write. -/
def ChangedByOwner (worker : ι → String) (s : System ι) (e : Event ι) (s' : System ι) : Prop :=
  ∀ i k, e.outcome = some (i, k) → ∀ t t', s.tasks.get? k = some t →
    s'.tasks.get? k = some t' → t' ≠ t → t.status = .running ∧ t.leaseOwner = some (worker i)

/-- Every status change is a transition of the queue contract. -/
def LegalChanges (s s' : System ι) : Prop :=
  ∀ k t t', s.tasks.get? k = some t → s'.tasks.get? k = some t' → t.status.MayBecome t'.status

/-- The holder of a task owns its running row. -/
def HolderOwns (worker : ι → String) (es : List (Event ι)) (s : System ι) : Prop :=
  ∀ k i, holder k es = some i →
    ∃ t, s.tasks.get? k = some t ∧ t.status = .running ∧ t.leaseOwner = some (worker i)

theorem holder_cons_of_subject_ne {k : String} {e : Event ι} (es : List (Event ι))
    (h : e.subject ≠ some k) : holder k (e :: es) = holder k es := by
  cases e with
  | claimWin i k' =>
      have hk : k' ≠ k := by simpa [Event.subject] using h
      simp [holder, hk]
  | write i k' w =>
      have hk : k' ≠ k := by simpa [Event.subject] using h
      simp [holder, hk]
  | _ => rfl

variable [DecidableEq ι]

theorem HolderOwns.step {es : List (Event ι)} {e : Event ι} (h : HolderOwns worker es s)
    (he : OwnWrite es e) (hs : Step worker s e s') : HolderOwns worker (e :: es) s' := by
  intro k i hi
  by_cases hsub : e.subject = some k
  · cases e with
    | claimWin j k' =>
        cases hsub
        have hji : j = i := by simpa [holder] using hi
        subst hji
        obtain ⟨c, t, -, -, ht, -, rfl⟩ := step_claimWin.mp hs
        refine ⟨t.claimedBy (worker j) c.now c.leaseUntil, ?_, rfl, rfl⟩
        show (s.tasks.claim k (worker j) c.now c.leaseUntil).get? k = _
        rw [Tasks.get?_claim, if_pos rfl, ht]
        rfl
    | refresh j k' u =>
        cases hsub
        obtain ⟨t, ht, hrun, howner⟩ := h k i hi
        obtain ⟨t', ht', hrow⟩ := step_row hs ht
        refine ⟨t', ht', ?_⟩
        cases hrow with
        | untouched hne => exact absurd rfl hne
        | refresh =>
            refine ⟨by simpa using hrun, ?_⟩
            unfold Task.refreshLease
            split <;> exact howner
    | write j k' w =>
        cases hsub
        simp [holder] at hi
    | scheduleRetry j k' r => exact absurd he id
    | _ => cases hsub
  · rw [holder_cons_of_subject_ne es hsub] at hi
    obtain ⟨t, ht, hrun, howner⟩ := h k i hi
    obtain ⟨t', ht', hrow⟩ := step_row hs ht
    cases hrow with
    | untouched _ => exact ⟨t, ht', hrun, howner⟩
    | claimWin => exact absurd rfl hsub
    | refresh => exact absurd rfl hsub
    | write => exact absurd rfl hsub
    | scheduleRetry => exact absurd rfl hsub

theorem HolderOwns.of_run {es : List (Event ι)} (h : Run worker es s) (hes : Meets OwnWrite es) :
    HolderOwns worker es s := by
  refine Trace.Run.invariant (I := HolderOwns worker) ?_ ?_ h hes
  · intro s _ k i hi
    cases hi
  · intro es s e t hs he hstep
    exact hs.step he hstep

theorem Status.MayBecome.refl (a : Status) : a.MayBecome a := Or.inl rfl

/-- A claim starts a queued task or keeps a running one running. -/
theorem mayBecome_claimedBy {t : Task} {now u : Iso.DateTime} (w : String)
    (h : t.claimable now = true) : t.status.MayBecome (t.claimedBy w now u).status := by
  rcases (Task.claimable_iff.mp h).2 with hq | ⟨hr, -⟩
  · rw [hq]
    exact Or.inr (by decide : Status.running ∈ transitions .queued)
  · exact Or.inl hr

/-- In every run whose outcome writes are all issued by the slot that won the
task last, once and not through `schedule_retry`: each of them changes a
running task of its own worker, and no status change leaves the contract. -/
theorem writes_are_owned {es : List (Event ι)} {e : Event ι} (h : Run worker es s)
    (hes : Meets OwnWrite (e :: es)) (hs : Step worker s e s') :
    ChangedByOwner worker s e s' ∧ LegalChanges s s' := by
  have howns := HolderOwns.of_run h hes.1
  have he := hes.2
  constructor
  · intro i k hout t t' ht _ _
    cases e with
    | write j k' w =>
        cases hout
        obtain ⟨t₁, ht₁, hrun, howner⟩ := howns k i he
        rw [ht] at ht₁
        cases ht₁
        exact ⟨hrun, howner⟩
    | scheduleRetry j k' r => exact absurd he id
    | _ => cases hout
  · intro k t t' ht ht'
    obtain ⟨t₁, ht₁, hrow⟩ := step_row hs ht
    rw [ht'] at ht₁
    cases ht₁
    cases hrow with
    | untouched _ => exact .refl _
    | claimWin _ _ hclaim => exact mayBecome_claimedBy _ hclaim
    | refresh => exact Or.inl (Task.status_refreshLease _ _ _).symm
    | write =>
        obtain ⟨t₁, ht₁, hrun, -⟩ := howns k _ he
        rw [ht] at ht₁
        cases ht₁
        exact TerminalWrite.mayBecome_apply _ hrun
    | scheduleRetry => exact absurd he id

/-- A claim, a renewal and the outcome of it. -/
def finishEvents : List (Event Bool) :=
  [.enqueue (submitted "task" 0), .claimBegin false 300, .claimSelect false "task",
    .claimWin false "task", .tick 60000000, .refresh false "task" 360000000]

theorem writes_are_owned_finish : ∃ s s', Run reclaimWorker finishEvents.reverse s ∧
    Step reclaimWorker s (.write false "task" .succeeded) s' ∧
    ChangedByOwner reclaimWorker s (.write false "task" .succeeded) s' ∧ LegalChanges s s' := by
  obtain ⟨s, hexec⟩ : ∃ s, exec reclaimWorker finishEvents (System.initial 0) = some s :=
    ⟨_, rfl⟩
  have hrun : Run reclaimWorker finishEvents.reverse s := by
    simpa using run_of_exec (Trace.Run.start ⟨0, rfl⟩) hexec
  have hmeets : Meets OwnWrite (.write false "task" .succeeded :: finishEvents.reverse) := by
    simp [finishEvents, OwnWrite, holder]
  exact ⟨s, _, hrun, rfl, writes_are_owned hrun hmeets rfl⟩

/-- The first worker's processing ends after its lease has expired and the
second worker has claimed the task: it overwrites the running task. -/
theorem late_write_overwrites : ¬ ∀ (es : List (Event Bool)) (s s' : System Bool)
    (e : Event Bool), Run reclaimWorker es s → Step reclaimWorker s e s' →
      ChangedByOwner reclaimWorker s e s' ∧ LegalChanges s s' := by
  intro h
  obtain ⟨s, hexec, t, ht, howner⟩ : ∃ s,
      exec reclaimWorker reclaimEvents (System.initial 0) = some s ∧
      ∃ t, s.tasks.get? "task" = some t ∧ t.leaseOwner = some "worker-b" :=
    ⟨_, rfl, _, rfl, rfl⟩
  have hrun : Run reclaimWorker reclaimEvents.reverse s := by
    simpa using run_of_exec (Trace.Run.start ⟨0, rfl⟩) hexec
  obtain ⟨hchanged, -⟩ := h _ s _ (.write false "task" .succeeded) hrun rfl
  have hwritten : (s.tasks.write "task" .succeeded).get? "task" = some t.markSucceeded := by
    rw [Tasks.get?_write, if_pos rfl, ht]
    rfl
  have hne : t.markSucceeded ≠ t := by
    intro heq
    have := congrArg Task.leaseOwner heq
    rw [howner] at this
    cases this
  obtain ⟨-, howner'⟩ := hchanged false "task" rfl t _ ht hwritten hne
  rw [howner] at howner'
  revert howner'
  decide

/-! ## Scheduled retries -/

/-- Some sequence of what the workers and the commands do claims the task. -/
def ClaimReachable (worker : ι → String) (s : System ι) (k : String) : Prop :=
  ∃ fs s', Trace.Run (fun u => u = s) (Step worker) fs s' ∧
    (∀ e ∈ fs, e.isScheduleRetry = false) ∧ ∃ i, Event.claimWin i k ∈ fs

/-- A closed task stays closed, whatever is written to it. -/
theorem isClosed_step {e : Event ι} {k : String} {t : Task} (he : e.isScheduleRetry = false)
    (hs : Step worker s e s') (ht : s.tasks.get? k = some t) (hclosed : t.status.isClosed = true) :
    (∀ i, e ≠ .claimWin i k) ∧ ∃ t', s'.tasks.get? k = some t' ∧ t'.status.isClosed = true := by
  obtain ⟨t', ht', hrow⟩ := step_row hs ht
  cases hrow with
  | untouched hne =>
      refine ⟨?_, t, ht', hclosed⟩
      rintro i rfl
      exact hne rfl
  | claimWin _ _ hclaim =>
      rw [Task.not_claimable_of_isClosed hclosed] at hclaim
      cases hclaim
  | refresh => exact ⟨by simp, _, ht', by simpa using hclosed⟩
  | write => exact ⟨by simp, _, ht', by simp⟩
  | scheduleRetry => cases he

theorem not_claimReachable_of_isClosed {k : String} {t : Task} (ht : s.tasks.get? k = some t)
    (hclosed : t.status.isClosed = true) : ¬ ClaimReachable worker s k := by
  rintro ⟨fs, s', hrun, hfs, i, hi⟩
  -- the events so far claimed nothing of `k`, and the row is still closed
  have hinv : (∀ j, Event.claimWin j k ∉ fs) ∧
      ∃ t', s'.tasks.get? k = some t' ∧ t'.status.isClosed = true := by
    clear hi
    induction hrun with
    | start h0 =>
        subst h0
        exact ⟨by simp, t, ht, hclosed⟩
    | @next es u e v _ hstep ih =>
        obtain ⟨hnone, t', ht', hclosed'⟩ := ih fun e he => hfs e (List.mem_cons_of_mem _ he)
        obtain ⟨hne, hrow⟩ := isClosed_step (hfs e List.mem_cons_self) hstep ht' hclosed'
        refine ⟨?_, hrow⟩
        intro j hj
        rcases List.mem_cons.mp hj with heq | hmem
        · exact hne j heq.symm
        · exact hnone j hmem
  exact hinv.1 i hi

/-- From no state does anything the workers and the commands do claim a task
that a failure has put in `retry_scheduled`. -/
theorem retry_is_never_claimed (worker : ι → String) {es : List (Event ι)} {s : System ι}
    {k : String} {t : Task} (_ : Run worker es s) (ht : s.tasks.get? k = some t)
    (hretry : t.status = .retryScheduled) : ¬ ClaimReachable worker s k := by
  apply not_claimReachable_of_isClosed ht
  rw [hretry]
  rfl

/-- A first failure with retries left. -/
def failEvents : List (Event Bool) :=
  [.enqueue (submitted "task" 0), .claimBegin false 300, .claimSelect false "task",
    .claimWin false "task", .write false "task" (.failed "vlm_timeout" none)]

theorem run_failEvents : ∃ s t, Run reclaimWorker failEvents.reverse s ∧
    s.tasks.get? "task" = some t ∧ t.status = .retryScheduled ∧ t.retryCount < t.maxRetries := by
  obtain ⟨s, hexec, t, ht, hrow⟩ : ∃ s,
      exec reclaimWorker failEvents (System.initial 0) = some s ∧
      ∃ t, s.tasks.get? "task" = some t ∧
        (t.status = .retryScheduled ∧ t.retryCount < t.maxRetries) :=
    ⟨_, rfl, _, rfl, by decide⟩
  have hrun : Run reclaimWorker failEvents.reverse s := by
    simpa using run_of_exec (Trace.Run.start ⟨0, rfl⟩) hexec
  exact ⟨s, t, hrun, ht, hrow⟩

theorem retry_is_never_claimed_failed : ∃ s, Run reclaimWorker failEvents.reverse s ∧
    ¬ ClaimReachable reclaimWorker s "task" := by
  obtain ⟨s, t, hrun, ht, hretry, -⟩ := run_failEvents
  exact ⟨s, hrun, retry_is_never_claimed reclaimWorker hrun ht hretry⟩

/-- The claim the contract makes for a scheduled retry fails after one failure. -/
theorem retry_unreachable : ¬ ∀ (es : List (Event Bool)) (s : System Bool) (k : String)
    (t : Task), Run reclaimWorker es s → s.tasks.get? k = some t →
      t.status = .retryScheduled → t.retryCount < t.maxRetries →
      ClaimReachable reclaimWorker s k := by
  intro h
  obtain ⟨s, t, hrun, ht, hretry, hcount⟩ := run_failEvents
  refine not_claimReachable_of_isClosed ht ?_ (h _ s _ t hrun ht hretry hcount)
  rw [hretry]
  rfl

end CctvMemory.Queue
