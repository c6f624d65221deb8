import CctvMemory.Library.Trace
import CctvMemory.Publication.Invariant
import Mathlib.Logic.Function.Basic

/-!
# The publish summary of one job

The success transactions of the units of one job: each reads the job row,
publishes its record, rewrites the id lists as what it read followed by its own
ids, and commits. On SQLite the write coordinator and `BEGIN IMMEDIATE` keep a
transaction alone from its first statement; on PostgreSQL only the row lock of
the UPDATE does, and a waiting UPDATE then writes the value it was given.

* `summary_complete_iff`: the lists hold the ids of every committed unit, each
  once, exactly when no unit committed between the last read and the commit of
  another; on SQLite none ever does.
* `summary_loses_an_id`: two units on PostgreSQL.
-/

namespace CctvMemory.Publication

open Trace (Meets)

variable {ι : Type} [DecidableEq ι]

/-! ## What a unit publishes -/

/-- The record a unit published, and the one it replaced. -/
structure UnitPublication where
  recordId : String
  replaced : Option String
deriving DecidableEq

def UnitPublication.tally (p : UnitPublication) : Tally :=
  match p.replaced with
  | none => ⟨[p.recordId], [], []⟩
  | some old => ⟨[], [p.recordId], [old]⟩

/-- One turn of the record loop returns the tally of its record and of the
active version it found. -/
theorem tally_publishRecord {env : PublishEnv} {cmd : PublishCommand} {tally : Tally}
    {r : ObservationRecord} {w w' : Working}
    (h : publishRecord env cmd ⟨[], [], []⟩ r w = (.ok tally, w')) :
    tally = UnitPublication.tally
      ⟨r.recordId, (w.store.active.byNaturalKey r.naturalKey).map ObservationRecord.recordId⟩ := by
  unfold publishRecord at h
  split at h
  · rename_i old hold
    obtain ⟨_, w₁, -, h⟩ := bind_ok h
    obtain ⟨_, w₂, -, h⟩ := bind_ok h
    obtain ⟨_, w₃, -, h⟩ := bind_ok h
    obtain ⟨rfl, -⟩ := pure_ok h
    rw [hold]
    rfl
  · rename_i hnone
    obtain ⟨_, w₁, -, h⟩ := bind_ok h
    obtain ⟨_, w₂, -, h⟩ := bind_ok h
    obtain ⟨rfl, -⟩ := pure_ok h
    rw [hnone]
    rfl

/-! ## Transactions -/

inductive Backend where
  | sqlite
  | postgres
deriving DecidableEq, Repr

/-- Where the success transaction of a unit is: before it, after it has read
the job row, after its UPDATE, or done. -/
inductive TxPhase where
  | idle
  | seen (job : JobSummary)
  | written (job : JobSummary)
  | committed
deriving DecidableEq

/-- The job row an open transaction has read. -/
def TxPhase.value : TxPhase → Option JobSummary
  | .seen job => some job
  | .written job => some job
  | _ => none

structure JobRun (ι : Type) where
  job : JobSummary
  phases : ι → TxPhase

def JobRun.setPhase (s : JobRun ι) (i : ι) (phase : TxPhase) : JobRun ι :=
  { s with phases := Function.update s.phases i phase }

inductive TxEvent (ι : Type) where
  | read (i : ι)
  | write (i : ι)
  | commit (i : ι)
  | rollback (i : ι)
deriving DecidableEq

/-- Whether the backend lets a transaction start: SQLite has one writer. -/
def Backend.Admits (backend : Backend) (s : JobRun ι) : Prop :=
  backend = .sqlite → ∀ k, (s.phases k).value = none

inductive TxStep (backend : Backend) (pubs : ι → UnitPublication) :
    JobRun ι → TxEvent ι → JobRun ι → Prop where
  | start {s : JobRun ι} {i : ι} : s.phases i = .idle → backend.Admits s →
      TxStep backend pubs s (.read i) (s.setPhase i (.seen s.job))
  /-- The row is read again where the session no longer holds it. -/
  | reread {s : JobRun ι} {i : ι} {job : JobSummary} : s.phases i = .seen job →
      TxStep backend pubs s (.read i) (s.setPhase i (.seen s.job))
  /-- The UPDATE takes the row lock. -/
  | write {s : JobRun ι} {i : ι} {job : JobSummary} : s.phases i = .seen job →
      (∀ k job', s.phases k ≠ .written job') →
      TxStep backend pubs s (.write i) (s.setPhase i (.written job))
  | commit {s : JobRun ι} {i : ι} {job : JobSummary} : s.phases i = .written job →
      TxStep backend pubs s (.commit i)
        { s.setPhase i .committed with job := job.append (pubs i).tally }
  | rollback {s : JobRun ι} {i : ι} {job : JobSummary} : (s.phases i).value = some job →
      TxStep backend pubs s (.rollback i) (s.setPhase i .idle)

/-- Runs from the job as its other transactions left it. -/
abbrev SummaryRun (backend : Backend) (pubs : ι → UnitPublication) (job : JobSummary)
    (es : List (TxEvent ι)) (s : JobRun ι) : Prop :=
  Trace.Run (fun s => s = ⟨job, fun _ => .idle⟩) (TxStep backend pubs) es s

/-- The committed units, the newest first. -/
def committedUnits : List (TxEvent ι) → List ι
  | [] => []
  | .commit i :: es => i :: committedUnits es
  | _ :: es => committedUnits es

/-- The lists hold what they held before and the ids of every committed unit,
each once. -/
def SummaryComplete (pubs : ι → UnitPublication) (job : JobSummary) (es : List (TxEvent ι))
    (s : JobRun ι) : Prop :=
  s.job.createdRecordIds.Perm
      (job.createdRecordIds ++ (committedUnits es).flatMap fun i => (pubs i).tally.created) ∧
  s.job.updatedRecordIds.Perm
      (job.updatedRecordIds ++ (committedUnits es).flatMap fun i => (pubs i).tally.updated) ∧
  s.job.archivedRecordIds.Perm
      (job.archivedRecordIds ++ (committedUnits es).flatMap fun i => (pubs i).tally.archived)

/-- No unit has committed since the last read of unit `i`. -/
def ReadsLatest (i : ι) : List (TxEvent ι) → Prop
  | [] => False
  | .commit _ :: _ => False
  | .read k :: es => k = i ∨ ReadsLatest i es
  | _ :: es => ReadsLatest i es

/-- A commit follows its unit's last read with no other commit between. -/
def Isolated (es : List (TxEvent ι)) : TxEvent ι → Prop
  | .commit i => ReadsLatest i es
  | _ => True

/-! ## What a transaction has read -/

variable {backend : Backend} {pubs : ι → UnitPublication} {job : JobSummary}
  {es : List (TxEvent ι)} {s s' : JobRun ι}

theorem phases_setPhase (s : JobRun ι) (i k : ι) (phase : TxPhase) :
    (s.setPhase i phase).phases k = if k = i then phase else s.phases k := by
  unfold JobRun.setPhase
  by_cases hk : k = i
  · simp [hk]
  · simp [hk]

/-- The ids in the lists of created and updated records; a unit adds one. -/
def JobSummary.size (j : JobSummary) : ℕ :=
  j.createdRecordIds.length + j.updatedRecordIds.length

theorem size_append (j : JobSummary) (p : UnitPublication) :
    (j.append p.tally).size = j.size + 1 := by
  unfold JobSummary.size JobSummary.append UnitPublication.tally
  cases p.replaced with
  | none =>
      simp only [List.length_append, List.length_singleton, List.append_nil]
      omega
  | some old =>
      simp only [List.length_append, List.length_singleton, List.append_nil]
      omega

/-- Open transactions that read after the last commit hold the job row as it
is; the others hold fewer ids than units have committed. -/
structure ReadsOk (job : JobSummary) (es : List (TxEvent ι)) (s : JobRun ι) : Prop where
  latest : ∀ i j, (s.phases i).value = some j → ReadsLatest i es → j = s.job
  stale : ∀ i j, (s.phases i).value = some j → ¬ ReadsLatest i es →
    j.size < job.size + (committedUnits es).length
  le : s.job.size ≤ job.size + (committedUnits es).length
  lost : ¬ Meets Isolated es → s.job.size < job.size + (committedUnits es).length

namespace ReadsOk

/-- Reading the job row, for the first time or again. -/
theorem read (h : ReadsOk job es s) (i : ι) :
    ReadsOk job (.read i :: es) (s.setPhase i (.seen s.job)) where
  latest := by
    intro k j hk hreads
    rw [phases_setPhase] at hk
    by_cases hki : k = i
    · rw [if_pos hki] at hk
      cases hk
      rfl
    · rw [if_neg hki] at hk
      rcases hreads with heq | hreads
      · exact absurd heq.symm hki
      · exact h.latest k j hk hreads
  stale := by
    intro k j hk hreads
    rw [phases_setPhase] at hk
    by_cases hki : k = i
    · exact absurd (Or.inl hki.symm) hreads
    · rw [if_neg hki] at hk
      exact h.stale k j hk fun hr => hreads (Or.inr hr)
  le := h.le
  lost := fun hm => h.lost fun hes => hm ⟨hes, trivial⟩

/-- An event that neither reads nor commits keeps what the others have read. -/
theorem setPhase (h : ReadsOk job es s) {i : ι} {phase : TxPhase} {e : TxEvent ι}
    (hphase : ∀ j, phase.value = some j → (s.phases i).value = some j)
    (hreads : ∀ k, ReadsLatest k (e :: es) ↔ ReadsLatest k es)
    (hcommitted : committedUnits (e :: es) = committedUnits es) (hiso : Isolated es e) :
    ReadsOk job (e :: es) (s.setPhase i phase) := by
  have hvalue : ∀ k j, ((s.setPhase i phase).phases k).value = some j →
      (s.phases k).value = some j := by
    intro k j hk
    rw [phases_setPhase] at hk
    by_cases hki : k = i
    · rw [if_pos hki] at hk
      rw [hki]
      exact hphase j hk
    · rwa [if_neg hki] at hk
  refine ⟨?_, ?_, ?_, ?_⟩
  · intro k j hk hr
    exact h.latest k j (hvalue k j hk) ((hreads k).mp hr)
  · intro k j hk hr
    rw [hcommitted]
    exact h.stale k j (hvalue k j hk) fun hr' => hr ((hreads k).mpr hr')
  · rw [hcommitted]
    exact h.le
  · intro hm
    rw [hcommitted]
    exact h.lost fun hes => hm ⟨hes, hiso⟩

theorem commit (h : ReadsOk job es s) {i : ι} {j : JobSummary} (hi : s.phases i = .written j) :
    ReadsOk job (.commit i :: es)
      { s.setPhase i .committed with job := j.append (pubs i).tally } := by
  have hvalue : (s.phases i).value = some j := by
    rw [hi]
    rfl
  -- what `i` writes is no larger than the commits so far allow
  have hj : j.size ≤ job.size + (committedUnits es).length ∧
      (¬ (Meets Isolated es ∧ ReadsLatest i es) →
        j.size < job.size + (committedUnits es).length) := by
    by_cases hr : ReadsLatest i es
    · rw [h.latest i j hvalue hr]
      exact ⟨h.le, fun hnot => h.lost fun hes => hnot ⟨hes, hr⟩⟩
    · have hlt := h.stale i j hvalue hr
      exact ⟨hlt.le, fun _ => hlt⟩
  have hlen : (committedUnits (.commit i :: es)).length = (committedUnits es).length + 1 := rfl
  refine ⟨?_, ?_, ?_, ?_⟩
  · intro k j' _ hr
    exact absurd hr id
  · intro k j' hk _
    have hk' : (s.phases k).value = some j' := by
      have hphase : (if k = i then TxPhase.committed else s.phases k).value = some j' := by
        rw [← phases_setPhase s]
        exact hk
      by_cases hki : k = i
      · rw [if_pos hki] at hphase
        cases hphase
      · rwa [if_neg hki] at hphase
    rw [hlen]
    by_cases hr : ReadsLatest k es
    · rw [h.latest k j' hk' hr]
      have := h.le
      omega
    · have := h.stale k j' hk' hr
      omega
  · show (j.append (pubs i).tally).size ≤ _
    rw [size_append, hlen]
    omega
  · intro hm
    show (j.append (pubs i).tally).size < _
    rw [size_append, hlen]
    have := hj.2 hm
    omega

theorem step {e : TxEvent ι} (h : ReadsOk job es s) (hs : TxStep backend pubs s e s') :
    ReadsOk job (e :: es) s' := by
  cases hs with
  | start _ _ => exact h.read _
  | reread _ => exact h.read _
  | write hi _ =>
      refine h.setPhase ?_ (fun k => Iff.rfl) rfl trivial
      intro j hj
      rw [hi]
      exact hj
  | commit hi => exact h.commit hi
  | rollback hi =>
      refine h.setPhase ?_ (fun k => Iff.rfl) rfl trivial
      intro j hj
      cases hj

theorem of_run (h : SummaryRun backend pubs job es s) : ReadsOk job es s := by
  induction h with
  | start h0 =>
      subst h0
      refine ⟨?_, ?_, ?_, fun hm => absurd trivial hm⟩
      · intro i j hi
        cases hi
      · intro i j hi
        cases hi
      · simp [committedUnits]
  | next _ hs ih => exact ih.step hs

end ReadsOk

/-! ## Isolated commits -/

theorem perm_append_own {old base own rest : List String} (h : old.Perm (base ++ rest)) :
    (old ++ own).Perm (base ++ (own ++ rest)) := by
  refine (h.append_right own).trans ?_
  rw [List.append_assoc]
  exact List.perm_append_comm.append_left base

theorem complete_of_isolated (h : SummaryRun backend pubs job es s) (hes : Meets Isolated es) :
    SummaryComplete pubs job es s := by
  induction h with
  | start h0 =>
      subst h0
      refine ⟨?_, ?_, ?_⟩ <;> simp [committedUnits]
  | @next es s e s' hrun hs ih =>
      have hok := ReadsOk.of_run hrun
      have hbefore := ih hes.1
      cases hs with
      | start _ _ => exact hbefore
      | reread _ => exact hbefore
      | write _ _ => exact hbefore
      | rollback _ => exact hbefore
      | @commit i j hi =>
          have hvalue : (s.phases i).value = some j := by
            rw [hi]
            rfl
          -- the unit read the row as it is, so it adds its ids to it
          rw [hok.latest i j hvalue hes.2]
          obtain ⟨hcreated, hupdated, harchived⟩ := hbefore
          exact ⟨perm_append_own hcreated, perm_append_own hupdated,
            perm_append_own harchived⟩

/-- A commit that is not isolated loses an id for good. -/
theorem isolated_of_complete (h : SummaryRun backend pubs job es s)
    (hcomplete : SummaryComplete pubs job es s) : Meets Isolated es := by
  by_contra hnot
  have hlost := (ReadsOk.of_run h).lost hnot
  obtain ⟨hcreated, hupdated, -⟩ := hcomplete
  have hsum : ((committedUnits es).flatMap fun i => (pubs i).tally.created).length
      + ((committedUnits es).flatMap fun i => (pubs i).tally.updated).length
      = (committedUnits es).length := by
    induction committedUnits es with
    | nil => rfl
    | cons i is ih =>
        simp only [List.flatMap_cons, List.length_append, List.length_cons]
        have hone : (pubs i).tally.created.length + (pubs i).tally.updated.length = 1 := by
          unfold UnitPublication.tally
          cases (pubs i).replaced <;> rfl
        omega
  have h₁ := hcreated.length_eq
  have h₂ := hupdated.length_eq
  rw [List.length_append] at h₁ h₂
  unfold JobSummary.size at hlost
  omega

/-! ## One writer -/

/-- On SQLite at most one transaction is open, and it read after the last commit. -/
structure OneWriter (es : List (TxEvent ι)) (s : JobRun ι) : Prop where
  alone : ∀ i k j j', (s.phases i).value = some j → (s.phases k).value = some j' → i = k
  reads : ∀ i j, (s.phases i).value = some j → ReadsLatest i es

omit [DecidableEq ι] in
/-- Where only `i` may have a transaction open, and read last. -/
theorem OneWriter.of_only {i : ι} (h : ∀ k j, (s.phases k).value = some j → k = i)
    (hreads : ReadsLatest i es) : OneWriter es s := by
  refine ⟨?_, ?_⟩
  · intro k k' j j' hk hk'
    exact (h k j hk).trans (h k' j' hk').symm
  · intro k j hk
    exact h k j hk ▸ hreads

/-- A transaction that is open once `i` has changed its phase is that of `i`, or was
open before. -/
theorem value_setPhase {i k : ι} {phase : TxPhase} {j : JobSummary}
    (hk : ((s.setPhase i phase).phases k).value = some j) :
    k = i ∧ phase.value = some j ∨ k ≠ i ∧ (s.phases k).value = some j := by
  rw [phases_setPhase] at hk
  by_cases hki : k = i
  · rw [if_pos hki] at hk
    exact Or.inl ⟨hki, hk⟩
  · rw [if_neg hki] at hk
    exact Or.inr ⟨hki, hk⟩

omit [DecidableEq ι] in
/-- Where every open transaction was open before. -/
theorem OneWriter.of_open (h : OneWriter es s)
    (hopen : ∀ k j, (s'.phases k).value = some j → ∃ j', (s.phases k).value = some j') :
    OneWriter es s' := by
  refine ⟨fun i k j j' hi hk => ?_, fun i j hi => ?_⟩
  · obtain ⟨j₁, h₁⟩ := hopen i j hi
    obtain ⟨j₂, h₂⟩ := hopen k j' hk
    exact h.alone i k j₁ j₂ h₁ h₂
  · obtain ⟨j₁, h₁⟩ := hopen i j hi
    exact h.reads i j₁ h₁

theorem OneWriter.step {e : TxEvent ι} (h : OneWriter es s)
    (hs : TxStep .sqlite pubs s e s') : OneWriter (e :: es) s' ∧ Isolated es e := by
  cases hs with
  | @start i hi hadmits =>
      refine ⟨.of_only (i := i) (fun k j hk => ?_) (Or.inl rfl), trivial⟩
      rcases value_setPhase hk with ⟨hki, -⟩ | ⟨-, hk⟩
      · exact hki
      · rw [hadmits rfl k] at hk
        cases hk
  | @reread i j₀ hi =>
      have hopen : (s.phases i).value = some j₀ := by
        rw [hi]
        rfl
      refine ⟨.of_only (i := i) (fun k j hk => ?_) (Or.inl rfl), trivial⟩
      rcases value_setPhase hk with ⟨hki, -⟩ | ⟨-, hk⟩
      · exact hki
      · exact h.alone k i j j₀ hk hopen
  | @write i j₀ hi _ =>
      have hkept : OneWriter es (s.setPhase i (.written j₀)) := by
        apply h.of_open
        intro k j hk
        rcases value_setPhase hk with ⟨rfl, -⟩ | ⟨-, hk⟩
        · exact ⟨j₀, by rw [hi]; rfl⟩
        · exact ⟨j, hk⟩
      exact ⟨⟨hkept.alone, hkept.reads⟩, trivial⟩
  | @commit i j₀ hi =>
      have hopen : (s.phases i).value = some j₀ := by
        rw [hi]
        rfl
      -- the only open transaction ends, so that its commit is isolated
      have hnone : ∀ k j, ((s.setPhase i .committed).phases k).value ≠ some j := by
        intro k j hk
        rcases value_setPhase hk with ⟨-, hvalue⟩ | ⟨hki, hk⟩
        · cases hvalue
        · exact hki (h.alone k i j j₀ hk hopen)
      refine ⟨⟨?_, ?_⟩, h.reads i j₀ hopen⟩
      · intro k k' j j' hk _
        exact absurd hk (hnone k j)
      · intro k j hk
        exact absurd hk (hnone k j)
  | @rollback i j₀ hi =>
      have hkept : OneWriter es (s.setPhase i .idle) := by
        apply h.of_open
        intro k j hk
        rcases value_setPhase hk with ⟨-, hvalue⟩ | ⟨-, hk⟩
        · cases hvalue
        · exact ⟨j, hk⟩
      exact ⟨⟨hkept.alone, hkept.reads⟩, trivial⟩

theorem isolated_of_sqlite (h : SummaryRun .sqlite pubs job es s) :
    OneWriter es s ∧ Meets Isolated es := by
  induction h with
  | start h0 =>
      subst h0
      refine ⟨⟨?_, ?_⟩, trivial⟩
      · intro i k j j' hi
        cases hi
      · intro i j hi
        cases hi
  | next _ hs ih =>
      obtain ⟨hone, hiso⟩ := ih.1.step hs
      exact ⟨hone, ih.2, hiso⟩

/-! ## Main result -/

/-- After any interleaving of the success transactions of any number of units,
the job's lists hold the ids of every committed unit, each once, exactly when
every commit followed its unit's last read of the job row with no other commit
between; on SQLite every run is so. -/
theorem summary_complete_iff (backend : Backend) (pubs : ι → UnitPublication)
    {job : JobSummary} {es : List (TxEvent ι)} {s : JobRun ι}
    (h : SummaryRun backend pubs job es s) :
    (SummaryComplete pubs job es s ↔ Meets Isolated es) ∧
      (backend = .sqlite → SummaryComplete pubs job es s) := by
  refine ⟨⟨isolated_of_complete h, complete_of_isolated h⟩, ?_⟩
  rintro rfl
  exact complete_of_isolated h (isolated_of_sqlite h).2

/-- Two units of a job, each with a record of its own. -/
def twoUnits (i : Bool) : UnitPublication := ⟨if i then "rec_b" else "rec_a", none⟩

def emptySummary : JobSummary := ⟨"job_1", [], [], []⟩

theorem summary_complete_serial : ∃ s, SummaryRun .sqlite twoUnits emptySummary
    [.commit false, .write false, .read false] s ∧
    SummaryComplete twoUnits emptySummary [.commit false, .write false, .read false] s := by
  have h₀ : SummaryRun .sqlite twoUnits emptySummary [] ⟨emptySummary, fun _ => .idle⟩ :=
    .start rfl
  have h₁ := h₀.next (.start (i := false) rfl fun _ _ => rfl)
  have h₂ := h₁.next (.write (i := false) rfl fun k job' hk => by cases k <;> cases hk)
  have h₃ := h₂.next (.commit (i := false) rfl)
  exact ⟨_, h₃, (summary_complete_iff .sqlite twoUnits h₃).2 rfl⟩

/-- Both units read the job row before either commits: the second UPDATE
rewrites the lists without the first unit's id. -/
theorem summary_loses_an_id : ¬ ∀ (es : List (TxEvent Bool)) (s : JobRun Bool),
    SummaryRun .postgres twoUnits emptySummary es s → SummaryComplete twoUnits emptySummary es s := by
  intro h
  have h₀ : SummaryRun .postgres twoUnits emptySummary [] ⟨emptySummary, fun _ => .idle⟩ :=
    .start rfl
  have h₁ := h₀.next (.start (i := false) rfl fun hb => by cases hb)
  have h₂ := h₁.next (.start (i := true) rfl fun hb => by cases hb)
  have h₃ := h₂.next (.write (i := false) rfl fun k job' hk => by cases k <;> cases hk)
  have h₄ := h₃.next (.commit (i := false) rfl)
  have h₅ := h₄.next (.write (i := true) rfl fun k job' hk => by cases k <;> cases hk)
  have h₆ := h₅.next (.commit (i := true) rfl)
  have hlength := (h _ _ h₆).1.length_eq
  revert hlength
  decide

end CctvMemory.Publication
