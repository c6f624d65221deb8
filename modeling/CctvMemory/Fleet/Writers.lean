import CctvMemory.Fleet.Orphans
import CctvMemory.Worker.Moves
import CctvMemory.Worker.Process

/-!
# The writers of one unit row

One unit row and everybody who writes it: any number of runs of its unit
program, one transaction at a time in any order, the end-of-job reconciliation
and the orphan sweep. A run that takes no more steps has crashed; one that goes
on after another claim is a stale worker. `owner` is the run whose claim set
the row running last, as long as nobody else wrote the row.

* `outcomes_are_stable`: the runs in which a terminal outcome is kept.
* `stale_run_succeeds`: a stale worker publishes a unit that the sweep failed.
-/

namespace CctvMemory.Writers

open Act (Each)
open Iso (DateTime)
open Orphans (isStale orphanFailed)
open Worker

/-! ## What a row becomes succeeded with -/

/-- A row that becomes succeeded does so in a transaction that publishes. -/
def SuccessPublishes (row : Option UnitRow) (next : Option UnitRow × List Effect) : Prop :=
  HasStatus .succeeded next.1 → HasStatus .succeeded row ∨ ∃ ids, Effect.published ids ∈ next.2

theorem SuccessPublishes.same (row : Option UnitRow) (out : List Effect) :
    SuccessPublishes row (row, out) := Or.inl

theorem SuccessPublishes.of_move {row : Option UnitRow} {next : Option UnitRow × List Effect}
    (h : RowMove row next) : SuccessPublishes row next := by
  intro hsucc
  rcases h _ hsucc with hrow | hs | hs | hs | ⟨-, hpublished⟩
  · exact Or.inl hrow
  · cases hs
  · cases hs
  · cases hs
  · exact Or.inr hpublished

/-! ## The writers -/

/-- A run of the unit: what it meets, the transactions it has left, and whether
its claim is behind it. -/
structure UnitRun where
  env : UnitEnv
  rest : Act.Prog (Option UnitRow) Effect (Except Exn UnitOutcome)
  claimed : Bool

def UnitRun.begin (p : UnitProcessor) (env : UnitEnv) (job : JobLookup) : UnitRun :=
  ⟨env, ExceptT.run (p.runUnit env job), false⟩

/-- `orphaned` says that the sweep failed the unit and that it was not running
since; `emitted` is what the last event wrote beside the row. -/
structure SharedRow (ι : Type) where
  row : Option UnitRow
  runs : ι → Option UnitRun
  owner : Option ι
  orphaned : Bool
  emitted : List Effect

inductive Event (ι : Type) where
  | start (i : ι) (p : UnitProcessor) (env : UnitEnv) (job : JobLookup)
  | transact (i : ι)
  | reconcile (env : WorkerEnv)
  | sweep (now cutoff : DateTime)

variable {ι : Type}

/-- No row, and nobody at work on it. -/
def SharedRow.initial : SharedRow ι := ⟨none, fun _ => none, none, false, []⟩

namespace SharedRow

/-- Run `i` commits: it owns the row if that was its claim, and keeps a row it owns. -/
def commit [DecidableEq ι] (s : SharedRow ι) (i : ι) (r : UnitRun) (next : Option UnitRow × List Effect)
    (rest : Act.Prog (Option UnitRow) Effect (Except Exn UnitOutcome)) : SharedRow ι where
  row := next.1
  runs := Function.update s.runs i (some ⟨r.env, rest, true⟩)
  owner :=
    if next.1 = s.row then s.owner
    else if r.claimed = false ∨ s.owner = some i then some i else none
  orphaned := s.orphaned && !decide (HasStatus .running next.1)
  emitted := next.2

/-- Somebody who is no run of the unit writes the row. -/
def overwrite (s : SharedRow ι) (row : Option UnitRow) : SharedRow ι :=
  { s with row, owner := if row = s.row then s.owner else none, emitted := [] }

/-- The sweep, on a row it lists. -/
def sweepRow (s : SharedRow ι) (now cutoff : DateTime) : SharedRow ι :=
  if s.row.any (isStale cutoff) = true then
    { s.overwrite (s.row.map (orphanFailed now)) with orphaned := true }
  else s.overwrite s.row

end SharedRow

/-- What one event does; `none` where it cannot happen. -/
def step [DecidableEq ι] (s : SharedRow ι) : Event ι → Option (SharedRow ι)
  | .start i p env job => match s.runs i with
      | none => some { s with
          runs := Function.update s.runs i (some (.begin p env job)), emitted := [] }
      | some _ => none
  | .transact i => match s.runs i with
      | some r => match r.rest with
          | .atomic next k => some (s.commit i r (next s.row) (k s.row))
          | .ret _ => none
      | none => none
  | .reconcile env => some (s.overwrite (s.row.map (reconcileUnit env)))
  | .sweep now cutoff => some (s.sweepRow now cutoff)

def Step [DecidableEq ι] (s : SharedRow ι) (e : Event ι) (s' : SharedRow ι) : Prop := step s e = some s'

/-! ## Stable outcomes -/

/-- A done row keeps its status, a unit that the sweep failed does not become
succeeded, and a row becomes succeeded with its record. -/
structure Stable (s s' : SharedRow ι) : Prop where
  done : Done s.row → s'.row.map UnitRow.status = s.row.map UnitRow.status
  orphan : s.orphaned = true → ¬ HasStatus .succeeded s'.row
  published : SuccessPublishes s.row (s'.row, s'.emitted)

/-- No exception follows the commit of a done row, and a run that does not own
the row any more leaves it alone once it is done or failed by the sweep. -/
def Ok (s : SharedRow ι) : Event ι → Prop
  | .start _ _ env _ => env.Calm
  | .transact i => ∀ r, s.runs i = some r → r.claimed = true → s.owner ≠ some i →
      ¬ Done s.row ∧ s.orphaned = false
  | _ => True

/-- The runs whose events all meet `Ok`. -/
abbrev OkRun [DecidableEq ι] (es : List (Event ι)) (s : SharedRow ι) : Prop :=
  Trace.Run (fun s => s = SharedRow.initial) (fun s e s' => Step s e s' ∧ Ok s e) es s

/-- What a run brings with it: nothing raises after its commit, it publishes
what it makes succeeded, and before its claim it is ready for any row. -/
structure UnitRun.Sound (r : UnitRun) : Prop where
  calm : r.env.Calm
  publishes : r.rest.Each SuccessPublishes
  unclaimed : r.claimed = false → ∀ row, r.rest.Along (UnitGuar r.env) row

/-- The owner is ready for the row as it is, and a unit that the sweep failed
is not running again. -/
structure Fenced (s : SharedRow ι) : Prop where
  runs : ∀ i r, s.runs i = some r → r.Sound
  owner : ∀ i r, s.owner = some i → s.runs i = some r → r.rest.Along (UnitGuar r.env) s.row
  orphaned : s.orphaned = true → ¬ HasStatus .succeeded s.row ∧ ¬ HasStatus .running s.row

theorem UnitRun.sound_begin (p : UnitProcessor) (job : JobLookup) {env : UnitEnv}
    (hcalm : env.Calm) : (UnitRun.begin p env job).Sound where
  calm := hcalm
  publishes := (each_runUnit p job).imp fun _ _ => SuccessPublishes.of_move
  unclaimed _ := p.along_runUnit job

/-- A run after its next transaction, on a row the others may have changed. -/
theorem UnitRun.Sound.next {r : UnitRun} (h : r.Sound)
    {next : Option UnitRow → Option UnitRow × List Effect}
    {k : Option UnitRow → Act.Prog (Option UnitRow) Effect (Except Exn UnitOutcome)}
    (hrest : r.rest = .atomic next k) (row : Option UnitRow) :
    UnitRun.Sound ⟨r.env, k row, true⟩ where
  calm := h.calm
  publishes := by
    have hp := h.publishes
    rw [hrest] at hp
    exact (hp row).2
  unclaimed hnew := by cases hnew

/-- A run of the new table is the new one or an old one. -/
theorem of_update_eq_some [DecidableEq ι] {runs : ι → Option UnitRun} {i j : ι} {r r' : UnitRun}
    (h : Function.update runs i (some r) j = some r') :
    (j = i ∧ r' = r) ∨ (j ≠ i ∧ runs j = some r') := by
  rw [Function.update_apply] at h
  split at h
  · rename_i hj
    exact Or.inl ⟨hj, (Option.some.inj h).symm⟩
  · rename_i hj
    exact Or.inr ⟨hj, h⟩

variable {s s' : SharedRow ι}

namespace Fenced

theorem initial : Fenced (SharedRow.initial : SharedRow ι) where
  runs i r hr := by cases hr
  owner i r ho := by cases ho
  orphaned ho := by cases ho

/-- A run that has not claimed yet, or owns the row, keeps to its guarantee. -/
theorem along (h : Fenced s) {i : ι} {r : UnitRun} (hr : s.runs i = some r)
    (hright : r.claimed = false ∨ s.owner = some i) : r.rest.Along (UnitGuar r.env) s.row := by
  rcases hright with hnew | howner
  · exact (h.runs i r hr).unclaimed hnew s.row
  · exact h.owner i r howner hr

theorem start [DecidableEq ι] (h : Fenced s) {i : ι} (p : UnitProcessor) (job : JobLookup) {env : UnitEnv}
    (hcalm : env.Calm) :
    Fenced { s with runs := Function.update s.runs i (some (.begin p env job)), emitted := [] } := by
  constructor
  · intro j r hr
    rcases of_update_eq_some hr with ⟨-, rfl⟩ | ⟨-, hr⟩
    · exact UnitRun.sound_begin p job hcalm
    · exact h.runs j r hr
  · intro j r howner hr
    rcases of_update_eq_some hr with ⟨-, rfl⟩ | ⟨-, hr⟩
    · exact p.along_runUnit job s.row
    · exact h.owner j r howner hr
  · exact h.orphaned

/-- Somebody else writes a row that is not an orphan. -/
theorem overwrite (h : Fenced s) {row : Option UnitRow} (hrow : s.orphaned = true → row = s.row) :
    Fenced (s.overwrite row) := by
  constructor
  · exact h.runs
  · intro i r howner hr
    change (if row = s.row then s.owner else none) = some i at howner
    change r.rest.Along (UnitGuar r.env) row
    split at howner
    · rename_i hsame
      rw [hsame]
      exact h.owner i r howner hr
    · cases howner
  · intro ho
    change ¬ HasStatus .succeeded row ∧ ¬ HasStatus .running row
    rw [hrow ho]
    exact h.orphaned ho

section Commit

variable {i : ι} {r : UnitRun} {next : Option UnitRow → Option UnitRow × List Effect}
  {k : Option UnitRow → Act.Prog (Option UnitRow) Effect (Except Exn UnitOutcome)}

/-- What a run with a right to the row does to it, and what it has left then. -/
theorem transact (h : Fenced s) (hr : s.runs i = some r) (hrest : r.rest = .atomic next k)
    (hright : r.claimed = false ∨ s.owner = some i) :
    UnitGuar r.env s.row (next s.row) ∧ (k s.row).Along (UnitGuar r.env) (next s.row).1 := by
  have halong := h.along hr hright
  rwa [hrest] at halong

/-- An orphan stays one, or is set running. -/
theorem not_succeeded_next (h : Fenced s) (hr : s.runs i = some r)
    (hrest : r.rest = .atomic next k) (hok : Ok s (.transact i)) (ho : s.orphaned = true) :
    ¬ HasStatus .succeeded (next s.row).1 := by
  intro hsucc
  by_cases hright : r.claimed = false ∨ s.owner = some i
  · rcases (h.transact hr hrest hright).1.2 hsucc with hrow | ⟨hrow, -⟩
    · exact (h.orphaned ho).1 hrow
    · exact (h.orphaned ho).2 hrow
  · rw [not_or, Bool.not_eq_false] at hright
    have hfree := (hok r hr hright.1 hright.2).2
    rw [ho] at hfree
    cases hfree

theorem commit [DecidableEq ι] (h : Fenced s) (hr : s.runs i = some r) (hrest : r.rest = .atomic next k)
    (hok : Ok s (.transact i)) : Fenced (s.commit i r (next s.row) (k s.row)) := by
  constructor
  · intro j r' hr'
    rcases of_update_eq_some hr' with ⟨-, rfl⟩ | ⟨-, hr'⟩
    · exact (h.runs i r hr).next hrest s.row
    · exact h.runs j r' hr'
  · intro j r' howner hr'
    change (if (next s.row).1 = s.row then s.owner
      else if r.claimed = false ∨ s.owner = some i then some i else none) = some j at howner
    change r'.rest.Along (UnitGuar r'.env) (next s.row).1
    rcases of_update_eq_some hr' with ⟨rfl, rfl⟩ | ⟨hj, hr'⟩
    · refine (h.transact hr hrest ?_).2
      split at howner
      · exact Or.inr howner
      · split at howner
        · assumption
        · cases howner
    · split at howner
      · rename_i hsame
        rw [hsame]
        exact h.owner j r' howner hr'
      · split at howner
        · exact absurd (Option.some.inj howner).symm hj
        · cases howner
  · intro ho
    obtain ⟨ho, hrun⟩ := Bool.and_eq_true_iff.mp ho
    exact ⟨h.not_succeeded_next hr hrest hok ho, by simpa [SharedRow.commit] using hrun⟩

end Commit

end Fenced

/-! ## The events beside the runs -/

/-- Reconciliation writes running rows only. -/
theorem reconcileUnit_of_ne {env : WorkerEnv} {row : Option UnitRow}
    (h : ¬ HasStatus .running row) : row.map (reconcileUnit env) = row := by
  rcases row with _ | r
  · rfl
  · exact congrArg some (if_neg fun hr => h (congrArg some hr))

/-- The sweep lists running rows only. -/
theorem hasStatus_of_isStale {cutoff : DateTime} {row : Option UnitRow}
    (h : row.any (isStale cutoff) = true) : HasStatus .running row := by
  rcases row with _ | r
  · cases h
  · have hstale : isStale cutoff r = true := h
    rw [isStale, Bool.and_eq_true, decide_eq_true_eq] at hstale
    exact congrArg some hstale.1

theorem failed_orphanFailed {now : DateTime} {row : Option UnitRow} (h : HasStatus .running row) :
    HasStatus .failed (row.map (orphanFailed now)) :=
  hasStatus_map (fun _ => rfl) h.isSome

theorem failed_reconcileUnit {env : WorkerEnv} {row : Option UnitRow}
    (h : HasStatus .running row) : HasStatus .failed (row.map (reconcileUnit env)) := by
  rcases row with _ | r
  · cases h
  · have hr : r.status = .running := Option.some.inj h
    simp [HasStatus, reconcileUnit, hr]

theorem not_succeeded_of_failed {row : Option UnitRow} (h : HasStatus .failed row) :
    ¬ HasStatus .succeeded row ∧ ¬ HasStatus .running row := by
  constructor
  · intro hs
    cases h.unique hs
  · intro hr
    cases h.unique hr

/-- An event that leaves the row alone. -/
theorem Stable.of_row (h : Fenced s) (hrow : s'.row = s.row) : Stable s s' where
  done _ := by rw [hrow]
  orphan ho := by
    rw [hrow]
    exact (h.orphaned ho).1
  published := by
    rw [hrow]
    exact SuccessPublishes.same s.row s'.emitted

/-- An event that fails a running unit. -/
theorem Stable.of_failed (hrun : HasStatus .running s.row) (hfailed : HasStatus .failed s'.row) :
    Stable s s' where
  done hdone := absurd hdone (hrun.not_done (by decide) (by decide))
  orphan _ := (not_succeeded_of_failed hfailed).1
  published hsucc := absurd hsucc (not_succeeded_of_failed hfailed).1

/-! ## Runs of the whole -/

variable [DecidableEq ι]

theorem step_transact {i : ι} (hs : Step s (.transact i) s') :
    ∃ r next k, s.runs i = some r ∧ r.rest = .atomic next k ∧
      s' = s.commit i r (next s.row) (k s.row) := by
  cases hr : s.runs i with
  | none =>
      simp only [Step, step, hr] at hs
      cases hs
  | some r =>
      cases hrest : r.rest with
      | ret a =>
          simp only [Step, step, hr, hrest] at hs
          cases hs
      | atomic next k =>
          simp only [Step, step, hr, hrest] at hs
          exact ⟨r, next, k, rfl, hrest, (Option.some.inj hs).symm⟩

theorem Fenced.step {e : Event ι} (h : Fenced s) (hok : Ok s e) (hs : Step s e s') :
    Fenced s' := by
  cases e with
  | start i p env job =>
      simp only [Step, Writers.step] at hs
      split at hs
      · cases hs
        exact h.start p job hok
      · cases hs
  | transact i =>
      obtain ⟨r, next, k, hr, hrest, rfl⟩ := step_transact hs
      exact h.commit hr hrest hok
  | reconcile env =>
      cases hs
      exact h.overwrite fun ho => reconcileUnit_of_ne (h.orphaned ho).2
  | sweep now cutoff =>
      cases hs
      show Fenced (s.sweepRow now cutoff)
      unfold SharedRow.sweepRow
      split
      · rename_i hstale
        have hrun := hasStatus_of_isStale hstale
        have hfenced : Fenced (s.overwrite (s.row.map (orphanFailed now))) :=
          h.overwrite fun ho => absurd hrun (h.orphaned ho).2
        exact { hfenced with orphaned := fun _ => not_succeeded_of_failed (failed_orphanFailed hrun) }
      · exact h.overwrite fun _ => rfl

theorem Fenced.of_run {es : List (Event ι)} (h : OkRun es s) : Fenced s := by
  refine Trace.Run.invariant_of_state (p := fun _ => True) ?_ ?_ h fun _ _ => trivial
  · rintro s rfl
    exact Fenced.initial
  · exact fun s e s' hfenced _ hs => hfenced.step hs.2 hs.1

theorem Stable.commit {i : ι} {r : UnitRun} {next : Option UnitRow → Option UnitRow × List Effect}
    {k : Option UnitRow → Act.Prog (Option UnitRow) Effect (Except Exn UnitOutcome)}
    (h : Fenced s) (hr : s.runs i = some r) (hrest : r.rest = .atomic next k)
    (hok : Ok s (.transact i)) : Stable s (s.commit i r (next s.row) (k s.row)) where
  done := by
    intro hdone
    by_cases hright : r.claimed = false ∨ s.owner = some i
    · exact (h.transact hr hrest hright).1.1 (h.runs i r hr).calm hdone
    · rw [not_or, Bool.not_eq_false] at hright
      exact absurd hdone (hok r hr hright.1 hright.2).1
  orphan := h.not_succeeded_next hr hrest hok
  published := by
    have hp := (h.runs i r hr).publishes
    rw [hrest] at hp
    exact (hp s.row).1

/-- In the runs that meet `Ok`, every event keeps the outcome of the unit. -/
theorem outcomes_are_stable {es : List (Event ι)} (h : OkRun es s) {e : Event ι}
    (hs : Step s e s') (hok : Ok s e) : Stable s s' := by
  have hfenced := Fenced.of_run h
  cases e with
  | start i p env job =>
      simp only [Step, step] at hs
      split at hs
      · cases hs
        exact Stable.of_row hfenced rfl
      · cases hs
  | transact i =>
      obtain ⟨r, next, k, hr, hrest, rfl⟩ := step_transact hs
      exact Stable.commit hfenced hr hrest hok
  | reconcile env =>
      cases hs
      by_cases hrun : HasStatus .running s.row
      · exact Stable.of_failed hrun (failed_reconcileUnit hrun)
      · exact Stable.of_row hfenced (reconcileUnit_of_ne hrun)
  | sweep now cutoff =>
      cases hs
      show Stable s (s.sweepRow now cutoff)
      unfold SharedRow.sweepRow
      split
      · rename_i hstale
        have hrun := hasStatus_of_isStale hstale
        exact Stable.of_failed hrun (failed_orphanFailed hrun)
      · exact Stable.of_row hfenced rfl

/-! ## A unit that is slow -/

/-- What the events make of a unit without a row, where they can happen. -/
def after (es : List (Event Bool)) : SharedRow Bool :=
  (Trace.exec step es SharedRow.initial).getD SharedRow.initial

def startUnit : Event Bool := .start false .defaultSegment UnitEnv.smooth JobLookup.present

/-- The unit publishes, owning its row. -/
theorem outcomes_are_stable_published :
    Stable (after [startUnit, .transact false])
        (after [startUnit, .transact false, .transact false]) ∧
      HasStatus .succeeded (after [startUnit, .transact false, .transact false]).row := by
  have hstarted : OkRun [startUnit] (after [startUnit]) :=
    Trace.Run.next (.start rfl) ⟨rfl, fun _ _ => rfl⟩
  have hclaimed : OkRun [.transact false, startUnit] (after [startUnit, .transact false]) := by
    refine hstarted.next ⟨rfl, ?_⟩
    rintro r hr hclaimed
    cases hr
    cases hclaimed
  refine ⟨outcomes_are_stable hclaimed (e := .transact false) rfl ?_, rfl⟩
  exact fun r _ _ howner => absurd rfl howner

/-- The sweep, a thousand seconds after the unit was claimed. -/
def sweepUnit : Event Bool :=
  .sweep (DateTime.utc 1000000000) (DateTime.utc 100000000)

/-- The worker that claimed the unit is slow, not dead: it publishes what the
sweep failed. -/
theorem stale_run_succeeds : ¬ ∀ (es : List (Event Bool)) (s s' : SharedRow Bool) (e : Event Bool),
    Trace.Run (fun s => s = SharedRow.initial) Step es s → Step s e s' → Stable s s' := by
  intro h
  have hrun : Trace.Run (fun s : SharedRow Bool => s = SharedRow.initial) Step
      [sweepUnit, .transact false, startUnit] (after [startUnit, .transact false, sweepUnit]) :=
    .next (.next (.next (.start rfl) rfl) rfl) rfl
  obtain ⟨s', hs', hsucc⟩ : ∃ s', step (after [startUnit, .transact false, sweepUnit])
      (.transact false) = some s' ∧ decide (HasStatus .succeeded s'.row) = true :=
    (Option.any_eq_true _ _).mp (by decide +kernel)
  exact (h _ _ s' _ hrun hs').orphan (by decide +kernel) (of_decide_eq_true hsucc)

end CctvMemory.Writers
