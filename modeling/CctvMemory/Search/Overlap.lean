import CctvMemory.Search.Outcome
import CctvMemory.Search.Postgres

/-!
# The time filter of the candidate pool

A request for a time range asks for the records whose observed interval meets it,
whatever offsets the four times are written with. PostgreSQL compares instants;
SQLite compares ISO text.

* `postgres_exact`: the pool of PostgreSQL is the records asked for.
* `timeExact_iff`: both pools are exactly when no eligible record has a time that
  text order misreads against the range, unless it is out of the range either way.
-/

namespace CctvMemory.Search

open CctvMemory.Publication (ObservationRecord ObservationStore)
open CctvMemory.Authorization

abbrev TimeRange := Option (Iso.DateTime × Iso.DateTime)

/-- The observed interval meets the requested one, as instants. -/
def Meets : TimeRange → ObservationRecord → Prop
  | none, _ => True
  | some (start, stop), r =>
      start.instant ≤ r.observedEndTime.instant ∧ r.observedStartTime.instant ≤ stop.instant

/-- The observed interval meets the requested one, as the ISO texts sort. -/
def MeetsAsText : TimeRange → ObservationRecord → Prop
  | none, _ => True
  | some (start, stop), r =>
      Iso.isoformat start ≤ Iso.isoformat r.observedEndTime ∧
        Iso.isoformat r.observedStartTime ≤ Iso.isoformat stop

def StartRequest.anyTime (req : StartRequest) : StartRequest := { req with timeRange := none }

/-- The records a pool is to be taken from: active, authorized and through the
filters other than time. -/
def sqliteEligible (eng : Engine) (scope : AuthorizedScope) (req : StartRequest)
    (r : ObservationRecord) : Bool :=
  authorizedObservationFilter scope r && structuralFilter eng req.anyTime r

def postgresEligible (fold : List Char → List Char) (scope : AuthorizedScope)
    (req : StartRequest) (r : ObservationRecord) : Bool :=
  authorizedObservationFilter scope r && Postgres.structuralWhere fold req.anyTime r

/-- Below its limit a pool holds exactly the eligible records that meet the range. -/
def Exact (pool : ℕ → List ObservationRecord) (store : ObservationStore)
    (eligible : ObservationRecord → Bool) (range : TimeRange) : Prop :=
  ∀ limit, (pool limit).length < limit → ∀ r,
    r ∈ pool limit ↔ r ∈ store.active.rows ∧ eligible r = true ∧ Meets range r

structure TimeExact (eng : Engine) (fold : List Char → List Char) (store : ObservationStore)
    (scope : AuthorizedScope) (req : StartRequest) : Prop where
  sqlite : Exact (fun limit => authorizedCandidatePool eng store scope req limit) store
    (sqliteEligible eng scope req) req.timeRange
  postgres : Exact (Postgres.authorizedCandidatePool fold store scope req) store
    (postgresEligible fold scope req) req.timeRange

/-! ## Pools -/

/-- Below its limit a sorted selection is what is wanted exactly when the selection is. -/
theorem mem_pool_iff {pool : ℕ → List ObservationRecord} {store : ObservationStore}
    {wanted : ObservationRecord → Prop} {keep : ObservationRecord → Bool}
    {le : ObservationRecord → ObservationRecord → Bool}
    (hpool : ∀ limit, pool limit = ((store.active.rows.filter keep).mergeSort le).take limit) :
    (∀ limit, (pool limit).length < limit →
        ∀ r, r ∈ pool limit ↔ r ∈ store.active.rows ∧ wanted r) ↔
      ∀ r ∈ store.active.rows, (keep r = true ↔ wanted r) := by
  have hwhole : ∀ limit, (pool limit).length < limit → ∀ r,
      r ∈ pool limit ↔ r ∈ store.active.rows ∧ keep r = true := by
    intro limit hbelow r
    rw [hpool, List.length_take] at hbelow
    rw [hpool, List.take_of_length_le (by omega), List.mem_mergeSort, List.mem_filter]
  constructor
  · intro h r hr
    have hbelow : (pool (store.active.rows.length + 1)).length < store.active.rows.length + 1 := by
      rw [hpool, List.length_take, List.length_mergeSort]
      have hfilter := List.length_filter_le keep store.active.rows
      omega
    have hexact := h _ hbelow r
    rw [hwhole _ hbelow] at hexact
    simpa only [hr, true_and] using hexact
  · intro h limit hbelow r
    rw [hwhole limit hbelow]
    exact and_congr_right (h r)

theorem exact_iff {pool : ℕ → List ObservationRecord} {store : ObservationStore}
    {eligible : ObservationRecord → Bool} {range : TimeRange} {keep : ObservationRecord → Bool}
    {le : ObservationRecord → ObservationRecord → Bool}
    (hpool : ∀ limit, pool limit = ((store.active.rows.filter keep).mergeSort le).take limit) :
    Exact pool store eligible range ↔
      ∀ r ∈ store.active.rows, (keep r = true ↔ eligible r = true ∧ Meets range r) :=
  mem_pool_iff hpool

/-- The pool of SQLite, for a limit that is one. -/
theorem authorizedCandidatePool_eq (eng : Engine) (store : ObservationStore)
    (scope : AuthorizedScope) (req : StartRequest) (limit : ℕ) :
    authorizedCandidatePool eng store scope req limit
      = ((store.active.rows.filter fun r =>
          authorizedObservationFilter scope r && structuralFilter eng req r).mergeSort
            startTimeLe).take limit := by
  unfold authorizedCandidatePool sqlLimit
  rw [if_neg (by omega), Int.toNat_natCast]

theorem structuralFilter_iff (eng : Engine) (req : StartRequest) (r : ObservationRecord) :
    structuralFilter eng req r = true ↔
      structuralFilter eng req.anyTime r = true ∧ MeetsAsText req.timeRange r := by
  unfold structuralFilter StartRequest.anyTime
  cases hrange : req.timeRange with
  | none => simp [MeetsAsText]
  | some range =>
      simp only [MeetsAsText, Bool.and_eq_true, decide_eq_true_eq, and_true]
      tauto

theorem structuralWhere_iff (fold : List Char → List Char) (req : StartRequest)
    (r : ObservationRecord) :
    Postgres.structuralWhere fold req r = true ↔
      Postgres.structuralWhere fold req.anyTime r = true ∧ Meets req.timeRange r := by
  unfold Postgres.structuralWhere StartRequest.anyTime
  cases hrange : req.timeRange with
  | none => simp [Meets]
  | some range =>
      simp only [Meets, Bool.and_eq_true, decide_eq_true_eq, and_true]
      tauto

/-- PostgreSQL returns exactly the records asked for. -/
theorem postgres_exact (fold : List Char → List Char) (store : ObservationStore)
    (scope : AuthorizedScope) (req : StartRequest) :
    Exact (Postgres.authorizedCandidatePool fold store scope req) store
      (postgresEligible fold scope req) req.timeRange := by
  refine (exact_iff fun limit => rfl).mpr fun r _ => ?_
  rw [Postgres.authorizedObservationWhere_eq, postgresEligible, Bool.and_eq_true,
    Bool.and_eq_true, structuralWhere_iff, and_assoc]

/-- SQLite does exactly when text and instants agree on every eligible record. -/
theorem sqlite_exact_iff (eng : Engine) (store : ObservationStore) (scope : AuthorizedScope)
    (req : StartRequest) :
    Exact (fun limit => authorizedCandidatePool eng store scope req limit) store
        (sqliteEligible eng scope req) req.timeRange ↔
      ∀ r ∈ store.active.rows, sqliteEligible eng scope req r = true →
        (MeetsAsText req.timeRange r ↔ Meets req.timeRange r) := by
  rw [exact_iff (authorizedCandidatePool_eq eng store scope req)]
  refine forall₂_congr fun r _ => ?_
  rw [sqliteEligible, Bool.and_eq_true, Bool.and_eq_true, structuralFilter_iff, ← and_assoc]
  exact and_congr_right_iff

/-! ## Text and instants -/

/-- Neither time of a record is misread against the range, or the record is out of
the range as text and as instants. -/
def ReadRight : TimeRange → ObservationRecord → Prop
  | none, _ => True
  | some (start, stop), r =>
      ¬ Iso.Misread start r.observedEndTime ∧ ¬ Iso.Misread r.observedStartTime stop ∨
        ¬ MeetsAsText (some (start, stop)) r ∧ ¬ Meets (some (start, stop)) r

theorem readRight_iff (range : TimeRange) (r : ObservationRecord) :
    ReadRight range r ↔ (MeetsAsText range r ↔ Meets range r) := by
  cases range with
  | none => exact iff_of_true trivial Iff.rfl
  | some range =>
      obtain ⟨start, stop⟩ := range
      simp only [ReadRight, Iso.misread_iff, not_not, Meets, MeetsAsText]
      tauto

/-- Both pools are exact exactly when ISO text misleads on no eligible record. -/
theorem timeExact_iff (eng : Engine) (fold : List Char → List Char) (store : ObservationStore)
    (scope : AuthorizedScope) (req : StartRequest) :
    TimeExact eng fold store scope req ↔
      ∀ r ∈ store.active.rows, sqliteEligible eng scope req r = true →
        ReadRight req.timeRange r := by
  simp only [readRight_iff]
  rw [← sqlite_exact_iff]
  exact ⟨TimeExact.sqlite, fun h => ⟨h, postgres_exact fold store scope req⟩⟩

/-! ## A record at UTC+8 -/

/-- What the gate camera saw in the first minute, on a clock at UTC+8. -/
def eastSeen : ObservationRecord :=
  { seen "rec_1" "cam_1" 0 "" with
    observedStartTime := .onClock 28800 0
    observedEndTime := .onClock 28800 (60 * Iso.second) }

def eastWorld : World :=
  World.holding [eastSeen] (List.nodup_singleton _) (List.nodup_singleton _)

/-- A search of that minute, at UTC. -/
def firstMinute : StartRequest :=
  { staticSearch "" with timeRange := some (.utc 0, .utc (60 * Iso.second)) }

/-- SQLite leaves the record out. -/
theorem not_timeExact_eastSeen :
    ¬ TimeExact wordEngine id eastWorld.store gateScope firstMinute := by
  intro h
  have hagree := (sqlite_exact_iff _ _ _ _).mp h.sqlite eastSeen (List.mem_singleton_self _)
    (by decide +kernel)
  rcases (readRight_iff _ _).mpr hagree with ⟨-, hstart⟩ | ⟨-, hout⟩
  · refine hstart (Or.inr (Or.inl ?_))
    decide +kernel
  · refine hout ?_
    unfold Meets
    decide +kernel

end CctvMemory.Search
