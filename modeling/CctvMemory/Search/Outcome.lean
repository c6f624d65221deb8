import CctvMemory.Library.KeySort
import CctvMemory.Publication.Invariant
import CctvMemory.Search.Confinement
import Mathlib.Data.String.Basic

/-!
# The answer of a start request

What `start_search` returns when it is not refused: a request that holds the
capability, stays below the `top_k` limit and draws unused ids succeeds, and
its answer is a function of the ranked pool alone (`startAnswer`). The ids of a
ranking are distinct, so its candidate rows can always be stored.

* `nodup_rank`: no id is ranked twice.
* `startSearch_fresh`: the request succeeds with `startAnswer`.
* `startSearch_over`: above the limit it fails with the limit error.
-/

namespace CctvMemory.Search

open Keyed (Table)
open CctvMemory.Publication (ObservationRecord ObservationStore FtsTables)
open CctvMemory.Authorization

/-! ## Distinct ids -/

theorem nodup_keys_dictSet {ν : Type} {k : String} {v : ν} {d : List (String × ν)}
    (h : (d.map Prod.fst).Nodup) : ((dictSet k v d).map Prod.fst).Nodup := by
  induction d with
  | nil => simp [dictSet]
  | cons p rest ih =>
      obtain ⟨k', v'⟩ := p
      rw [List.map_cons, List.nodup_cons] at h
      unfold dictSet
      by_cases hk : k' = k
      · subst hk
        rw [if_pos rfl, List.map_cons, List.nodup_cons]
        exact h
      · rw [if_neg hk, List.map_cons, List.nodup_cons]
        refine ⟨fun hmem => ?_, ih h.2⟩
        rcases mem_keys_dictSet hmem with heq | hmem
        · exact hk heq
        · exact h.1 hmem

theorem nodup_keys_dictOf {ν : Type} (pairs : List (String × ν)) :
    ((dictOf pairs).map Prod.fst).Nodup := by
  have hfold : ∀ d : List (String × ν), (d.map Prod.fst).Nodup →
      ((pairs.foldl (fun d p => dictSet p.1 p.2 d) d).map Prod.fst).Nodup := by
    induction pairs with
    | nil => exact fun d hd => hd
    | cons p rest ih => exact fun d hd => ih _ (nodup_keys_dictSet hd)
  exact hfold [] List.nodup_nil

theorem nodup_orderCandidates {fused : Scores} (h : (fused.map Prod.fst).Nodup) :
    ((orderCandidates fused).map Prod.fst).Nodup :=
  ((List.mergeSort_perm fused scoreLe).map Prod.fst).nodup_iff.mpr h

theorem nodup_rank (eng : Engine) (cfg : SearchConfig) (fts : Option FtsTables)
    (vectors : List StoredVector) (records : List ObservationRecord) (q : RankQuery) :
    ((rank eng cfg fts vectors records q).map Prod.fst).Nodup := by
  unfold rank
  split
  · exact List.nodup_nil
  · split
    · exact nodup_orderCandidates (nodup_keys_dictOf _)
    · split
      · exact nodup_orderCandidates (nodup_keys_dictOf _)
      · exact nodup_orderCandidates (nodup_keys_dictOf _)

theorem sliceTo_sublist {α : Type} (n : ℤ) (l : List α) : (sliceTo n l).Sublist l := by
  unfold sliceTo
  split <;> exact List.take_sublist _ _

/-! ## The order of scores -/

theorem scoreLe_iff {a b : String × ℚ} :
    scoreLe a b = true ↔ b.2 < a.2 ∨ a.2 = b.2 ∧ a.1 ≤ b.1 := by
  simp [scoreLe]

theorem sortKey_scoreLe :
    SortKey scoreLe fun p : String × ℚ => toLex (OrderDual.toDual p.2, p.1) := by
  constructor
  intro a b
  rw [scoreLe_iff, Prod.Lex.toLex_le_toLex]
  exact Iff.rfl

theorem scoreLe_antisymm {a b : String × ℚ} (hab : scoreLe a b = true) (hba : scoreLe b a = true) :
    a = b := by
  have hkey := congrArg ofLex (sortKey_scoreLe.key_eq hab hba)
  exact Prod.ext (congrArg Prod.snd hkey) (congrArg Prod.fst hkey)

theorem pairwise_mergeSort_scoreLe (l : Scores) :
    (l.mergeSort scoreLe).Pairwise fun a b => scoreLe a b = true :=
  sortKey_scoreLe.pairwise_mergeSort l

theorem mergeSort_scoreLe (l : Scores) :
    l.mergeSort scoreLe = l.insertionSort fun a b => scoreLe a b = true := by
  have : Std.Total (fun a b : String × ℚ => scoreLe a b = true) := ⟨sortKey_scoreLe.total⟩
  have : IsTrans (String × ℚ) (fun a b => scoreLe a b = true) := ⟨fun _ _ _ => sortKey_scoreLe.trans⟩
  have hperm : (l.mergeSort scoreLe).Perm (l.insertionSort fun a b => scoreLe a b = true) :=
    (l.mergeSort_perm scoreLe).trans (l.perm_insertionSort _).symm
  exact hperm.eq_of_pairwise (fun a b _ _ => scoreLe_antisymm)
    (pairwise_mergeSort_scoreLe l) (List.pairwise_insertionSort _ l)

/-! ## Storing the candidates -/

theorem insertCandidates_isSome {cs : List SearchCandidate}
    {t : Table SearchCandidate SearchCandidate.key}
    (h : ((t.rows ++ cs).map SearchCandidate.key).Nodup) :
    ∃ t', insertCandidates t cs = some t' := by
  induction cs generalizing t with
  | nil => exact ⟨t, rfl⟩
  | cons c cs ih =>
      have hins : ∃ u, t.insert? c = some u ∧ u.rows = t.rows ++ [c] := by
        have hfree : c.key ∉ t.rows.map SearchCandidate.key := by
          intro hmem
          rw [List.map_append, List.map_cons, List.nodup_append] at h
          exact h.2.2 _ hmem _ List.mem_cons_self rfl
        unfold Table.insert?
        rw [dif_neg hfree]
        exact ⟨_, rfl, rfl⟩
      obtain ⟨u, hu, hrows⟩ := hins
      obtain ⟨t', ht'⟩ := ih (t := u) (by rwa [hrows, List.append_assoc])
      refine ⟨t', ?_⟩
      unfold insertCandidates
      rw [hu]
      exact ht'

theorem keys_candidateRows (revisionId : String) (ordered : Scores) :
    (candidateRows revisionId ordered).map SearchCandidate.key
      = (ordered.map Prod.fst).map fun rid => (revisionId, rid) := by
  unfold candidateRows
  rw [List.map_map, List.map_map]
  conv_rhs => rw [← List.zipIdx_map_fst 0 ordered, List.map_map]
  rfl

/-- The ids a request draws are unused (`_new_id` takes them from a uuid). -/
structure FreshIds (env : RequestEnv) (w : World) : Prop where
  context : w.contexts.get? env.contextId = none
  revision : w.revisions.get? env.revisionId = none
  candidates : ∀ c ∈ w.candidates.rows, c.revisionId ≠ env.revisionId

theorem FreshIds.nodup {env : RequestEnv} {w : World} (hf : FreshIds env w) {ordered : Scores}
    (h : (ordered.map Prod.fst).Nodup) :
    ((w.candidates.rows ++ candidateRows env.revisionId ordered).map
      SearchCandidate.key).Nodup := by
  rw [List.map_append, List.nodup_append]
  refine ⟨w.candidates.nodup, ?_, ?_⟩
  · rw [keys_candidateRows]
    exact h.map fun a b hab => (Prod.mk.inj hab).2
  · rintro k hk k' hk' rfl
    rw [keys_candidateRows] at hk'
    obtain ⟨c, hc, rfl⟩ := List.mem_map.mp hk
    obtain ⟨rid, -, hrid⟩ := List.mem_map.mp hk'
    exact hf.candidates c hc (Prod.mk.inj hrid).1.symm

/-! ## The answer -/

/-- The pool a start request ranks. -/
def startPool (eng : Engine) (cfg : SearchConfig) (scope : AuthorizedScope) (req : StartRequest)
    (w : World) : List ObservationRecord :=
  authorizedCandidatePool eng w.store scope req cfg.maxCandidatesPerRevision

abbrev poolIds (eng : Engine) (cfg : SearchConfig) (scope : AuthorizedScope)
    (req : StartRequest) (w : World) : List String :=
  (startPool eng cfg scope req w).map ObservationRecord.recordId

/-- What a start request asks the ranking for. -/
abbrev startQuery (req : StartRequest) : RankQuery where
  queryText := req.queryText
  searchMode := req.searchMode
  tagFilters := req.tagFilters
  preferredScales := req.preferredAnalysisScales
  useVector := none

/-- The answer over `pool`. -/
def startAnswer (eng : Engine) (cfg : SearchConfig) (env : RequestEnv) (req : StartRequest)
    (w : World) (pool : List ObservationRecord) : SearchResponse :=
  let ordered := startRanking eng cfg w req pool
  respond env.contextId (revisionRow env env.contextId none "start" ordered pool)
    (toResults ordered pool)

theorem insert?_of_get?_none {ρ κ : Type} [DecidableEq κ] {key : ρ → κ} {t : Table ρ key} {r : ρ}
    (h : t.get? (key r) = none) : ∃ t', t.insert? r = some t' := by
  have hfree : key r ∉ t.rows.map key := by
    intro hmem
    obtain ⟨r', hr', hkey⟩ := List.mem_map.mp hmem
    exact Table.get?_eq_none_iff.mp h r' hr' hkey
  unfold Table.insert?
  rw [dif_neg hfree]
  exact ⟨_, rfl⟩

theorem exec_bind_of_ok {α β : Type} {x : Session α} {f : α → Session β} {w w₁ : World} {a : α}
    (h : x.exec w = (.ok a, w₁)) : (x >>= f).exec w = (f a).exec w₁ := by
  rw [exec_bind, h]

theorem createContext_of_fresh (context : SearchContext) {w : World}
    (h : w.contexts.get? context.contextId = none) :
    ∃ w', (createContext context).exec w = (.ok (), w') ∧ SameData w w' := by
  obtain ⟨contexts, hins⟩ := insert?_of_get?_none h
  have hexec : (createContext context).exec w = (.ok (), { w with contexts := contexts }) := by
    unfold createContext
    rw [exec_get_bind, hins]
    rfl
  exact ⟨_, hexec, createContext_ok hexec⟩

theorem persistRevision_of_fresh {env : RequestEnv} (contextId : String)
    (parent : Option String) (op : String) {ordered : Scores} (pool : List ObservationRecord)
    {w : World}
    (hrev : w.revisions.get? env.revisionId = none)
    (hnodup : ((w.candidates.rows ++ candidateRows env.revisionId ordered).map
      SearchCandidate.key).Nodup) :
    ∃ w', (persistRevision env contextId parent op ordered pool).exec w
      = (.ok (revisionRow env contextId parent op ordered pool), w') := by
  obtain ⟨revisions, hins⟩ := insert?_of_get?_none
    (r := revisionRow env contextId parent op ordered pool) hrev
  obtain ⟨candidates, hcand⟩ := insertCandidates_isSome hnodup
  have hcreate : (createRevision (revisionRow env contextId parent op ordered pool)
      (candidateRows env.revisionId ordered)).exec w
      = (.ok (), { w with revisions := revisions, candidates := candidates }) := by
    unfold createRevision
    rw [exec_get_bind, hins]
    dsimp only
    rw [hcand]
    rfl
  refine ⟨{ w with revisions := revisions, candidates := candidates }, ?_⟩
  unfold persistRevision
  rw [exec_bind_of_ok hcreate]
  rfl

section Start

variable {eng : Engine} {cfg : SearchConfig} {env : RequestEnv} {scope : AuthorizedScope}
  {sessionId : Option String} {req : StartRequest} {w : World}

theorem startSearch_denied (hcap : Capability.observationSearch ∉ scope.capabilities) :
    ((startSearch eng cfg env scope sessionId req).exec w).1
      = .error ⟨.capabilityDenied, Capability.observationSearch.value ++ " required"⟩ := by
  unfold startSearch
  rw [exec_bind, requireCapability, if_neg hcap]
  rfl

theorem startSearch_over (hcap : Capability.observationSearch ∈ scope.capabilities)
    (h : cfg.maxTopK < req.topK) :
    ((startSearch eng cfg env scope sessionId req).exec w).1
      = .error ⟨.limitExceeded, "top_k exceeds max " ++ toString cfg.maxTopK⟩ := by
  unfold startSearch
  rw [exec_bind, requireCapability, if_pos hcap]
  show ((if cfg.maxTopK < req.topK then _ else _ : Session SearchResponse).exec w).1 = _
  rw [if_pos h]
  rfl

theorem startSearch_fresh (hcap : Capability.observationSearch ∈ scope.capabilities)
    (h : req.topK ≤ cfg.maxTopK) (hf : FreshIds env w) :
    ((startSearch eng cfg env scope sessionId req).exec w).1
      = .ok (startAnswer eng cfg env req w (startPool eng cfg scope req w)) := by
  obtain ⟨w₁, hctx, hsame⟩ := createContext_of_fresh
    (newContext cfg env scope sessionId) hf.context
  have hids : ((startRanking eng cfg w req (startPool eng cfg scope req w)).map
      Prod.fst).Nodup :=
    (nodup_rank eng cfg _ _ _ _).sublist ((sliceTo_sublist _ _).map Prod.fst)
  obtain ⟨w₂, hrev⟩ := persistRevision_of_fresh env.contextId none "start"
    (startPool eng cfg scope req w)
    (hsame.revisions ▸ hf.revision) (hsame.candidates ▸ hf.nodup hids)
  unfold startSearch
  rw [exec_bind, requireCapability, if_pos hcap]
  show ((if cfg.maxTopK < req.topK then _ else _ : Session SearchResponse).exec w).1 = _
  rw [if_neg (not_lt.mpr h), exec_get_bind]
  show ((createContext _ >>= _ : Session SearchResponse).exec w).1 = _
  rw [exec_bind_of_ok hctx]
  show ((persistRevision env env.contextId none "start"
    (startRanking eng cfg w req (startPool eng cfg scope req w)) (startPool eng cfg scope req w)
    >>= _ : Session SearchResponse).exec w₁).1 = _
  rw [exec_bind_of_ok hrev]
  rfl

end Start

/-! ## A small database -/

/-- Words are matched as they stand, and the rarer a term is in the table the
more a row that contains it scores. -/
def wordEngine : Engine where
  lower := id
  isalnum := fun _ => true
  isspace := fun c => decide (c = ' ')
  ftsMatch := fun terms text => terms.any fun t => isSubstring t text
  bm25 := fun table terms row =>
    ((terms.filter fun t => isSubstring t row.text).map fun t =>
      (table.countP (fun other => !isSubstring t other.text) : ℚ)).sum
  embedQuery := fun _ => none
  cosineSimilarity := fun _ _ => 0
  rerank := fun _ _ => none

def defaultWeights : RrfWeights where
  k := 60
  staticWeight := 1
  dynamicWeight := 1
  vectorWeight := 1
  maxTagBoost := 1 / 5
  maxAnalysisScaleBoost := 1 / 5

def defaultSearchConfig : SearchConfig where
  contextTtlSeconds := 900
  contextIdleSeconds := 300
  maxTopK := 100
  maxCandidatesPerRevision := 1000
  maxRevisionsPerContext := 8
  weights := defaultWeights
  vectorEnabled := false
  rerankerEnabled := false
  rerankTopN := 50

/-- What camera `cameraId` saw in minute `minute`. -/
def seen (recordId cameraId : String) (minute : ℤ) (text : String) : ObservationRecord where
  recordId := recordId
  tenantId := "tenant_1"
  videoId := "video_1"
  analysisJobId := "job_1"
  analysisScale := .defaultSegment
  segmentStartMs := minute * 60000
  segmentEndMs := (minute + 1) * 60000
  observedStartTime := .utc (minute * 60 * Iso.second)
  observedEndTime := .utc ((minute + 1) * 60 * Iso.second)
  cameraId := cameraId
  locationId := "gate"
  staticDescriptionText := text
  dynamicDescriptionText := ""
  tags := []
  attributes := "{}"
  accessPolicyId := "policy_1"
  securityLevel := .internal

/-- A database that holds `rows`, indexed, and was never searched. -/
def World.holding (rows : List ObservationRecord)
    (hids : (rows.map ObservationRecord.recordId).Nodup)
    (hkeys : (rows.map ObservationRecord.naturalKey).Nodup) : World :=
  World.beforeSearch ⟨⟨⟨rows, hids⟩, hkeys⟩, Table.empty, some (FtsTables.ofRecords rows),
    Table.empty, Table.empty⟩ [] Table.empty Table.empty Table.empty Table.empty

def gateScope : AuthorizedScope where
  tenantId := "tenant_1"
  principalId := "guard"
  allowedCameraIds := ["cam_1"]
  allowedLocationIds := ["gate"]
  allowedAccessPolicyIds := ["policy_1"]
  maxSecurityLevel := .internal
  capabilities := [.observationSearch]
  scopeHash := "hash"

/-- A search in the static text, without filters. -/
def staticSearch (query : String) : StartRequest where
  queryText := some query
  timeRange := none
  cameraIds := []
  locationIds := []
  videoIds := []
  tagFilters := []
  analysisScaleFilter := []
  preferredAnalysisScales := []
  searchMode := .staticAttribute
  topK := 20

def firstRequest : RequestEnv := ⟨0, "ctx_1", "rev_1", id⟩

theorem freshIds_holding (env : RequestEnv) (rows : List ObservationRecord)
    (hids : (rows.map ObservationRecord.recordId).Nodup)
    (hkeys : (rows.map ObservationRecord.naturalKey).Nodup) :
    FreshIds env (World.holding rows hids hkeys) :=
  ⟨rfl, rfl, fun c hc => (by cases hc)⟩

end CctvMemory.Search
