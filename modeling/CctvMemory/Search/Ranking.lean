import CctvMemory.Publication.Store
import Mathlib.Algebra.Order.Ring.Rat
import Mathlib.Data.List.Basic
import Mathlib.Data.List.Dedup

/-!
# Ranking candidates

`domain/ranking.py` and the ranking half of `SearchService`: the channel
scores (FTS within the candidate ids, the keyword fallback, the vectors
stored for the candidate ids), their reciprocal rank fusion and the
cross-encoder stage. Scores are exact rationals and the explanatory
`score_detail` is left out, nothing reads it.

* `mem_rank`: only candidate ids are ranked.
* `mem_applyCrossEncoder`: the cross-encoder stage only reorders.
-/

namespace CctvMemory.Search

open CctvMemory.Publication (ObservationRecord ObservationStore FtsRow FtsTables)

/-! ## Dictionaries -/

/-- `d[k] = v`: an existing key keeps its place. -/
def dictSet {ν : Type} (k : String) (v : ν) : List (String × ν) → List (String × ν)
  | [] => [(k, v)]
  | (k', v') :: rest => if k' = k then (k, v) :: rest else (k', v') :: dictSet k v rest

/-- A dictionary filled by the assignments of `pairs`, in order. -/
def dictOf {ν : Type} (pairs : List (String × ν)) : List (String × ν) :=
  pairs.foldl (fun d p => dictSet p.1 p.2 d) []

theorem mem_keys_dictSet {ν : Type} {k x : String} {v : ν} {d : List (String × ν)}
    (h : x ∈ (dictSet k v d).map Prod.fst) : x = k ∨ x ∈ d.map Prod.fst := by
  induction d with
  | nil => simpa [dictSet] using h
  | cons p rest ih =>
      obtain ⟨k', v'⟩ := p
      unfold dictSet at h
      by_cases hk : k' = k
      · rw [if_pos hk] at h
        rcases List.mem_cons.mp h with h | h
        · exact Or.inl h
        · exact Or.inr (List.mem_cons_of_mem _ h)
      · rw [if_neg hk] at h
        rcases List.mem_cons.mp h with h | h
        · exact Or.inr (h ▸ List.mem_cons_self)
        · exact (ih h).imp_right (List.mem_cons_of_mem _)

theorem mem_keys_foldl_dictSet {ν : Type} {x : String} {pairs d : List (String × ν)}
    (h : x ∈ (pairs.foldl (fun d p => dictSet p.1 p.2 d) d).map Prod.fst) :
    x ∈ d.map Prod.fst ∨ x ∈ pairs.map Prod.fst := by
  induction pairs generalizing d with
  | nil => exact Or.inl h
  | cons p rest ih =>
      rcases ih h with h | h
      · rcases mem_keys_dictSet h with rfl | h
        · exact Or.inr List.mem_cons_self
        · exact Or.inl h
      · exact Or.inr (List.mem_cons_of_mem _ h)

theorem mem_keys_dictOf {ν : Type} {x : String} {pairs : List (String × ν)}
    (h : x ∈ (dictOf pairs).map Prod.fst) : x ∈ pairs.map Prod.fst := by
  rcases mem_keys_foldl_dictSet h with h | h
  · cases h
  · exact h

/-! ## Fusion -/

abbrev Scores := List (String × ℚ)

/-- Sort key `(-score, record_id)`. -/
def scoreLe (a b : String × ℚ) : Bool :=
  decide (b.2 < a.2) || (decide (a.2 = b.2) && decide (a.1 ≤ b.1))

/-- 1-based ranks, higher relevance first. -/
def toRankMap (scores : Scores) : List (String × ℕ) :=
  (scores.mergeSort scoreLe).zipIdx.map fun p => (p.1.1, p.2 + 1)

structure RrfWeights where
  k : ℤ
  staticWeight : ℚ
  dynamicWeight : ℚ
  vectorWeight : ℚ
  maxTagBoost : ℚ
  maxAnalysisScaleBoost : ℚ

structure ChannelInputs where
  staticRanks : List (String × ℕ)
  dynamicRanks : List (String × ℕ)
  tagBoosts : Scores
  scaleBoosts : Scores
  vectorRanks : List (String × ℕ)

/-- The contribution of one rank list: nothing for an unranked record. -/
def component (weight : ℚ) (k : ℤ) : Option ℕ → ℚ
  | none => 0
  | some rank => if rank = 0 then 0 else weight * (1 / ((rank : ℚ) + k))

def rrfScore (inputs : ChannelInputs) (weights : RrfWeights) (rid : String) : ℚ :=
  component weights.staticWeight weights.k (inputs.staticRanks.lookup rid)
    + component weights.dynamicWeight weights.k (inputs.dynamicRanks.lookup rid)
    + component weights.vectorWeight weights.k (inputs.vectorRanks.lookup rid)
    + min weights.maxTagBoost ((inputs.tagBoosts.lookup rid).getD 0)
    + min weights.maxAnalysisScaleBoost ((inputs.scaleBoosts.lookup rid).getD 0)

def rrfFuse (candidateIds : List String) (inputs : ChannelInputs) (weights : RrfWeights) :
    Scores :=
  dictOf (candidateIds.map fun rid => (rid, rrfScore inputs weights rid))

def orderCandidates (fused : Scores) : Scores := fused.mergeSort scoreLe

theorem mem_keys_toRankMap {scores : Scores} {x : String}
    (h : x ∈ (toRankMap scores).map Prod.fst) : x ∈ scores.map Prod.fst := by
  unfold toRankMap at h
  rw [List.map_map] at h
  obtain ⟨p, hp, rfl⟩ := List.mem_map.mp h
  have hmem : p.1 ∈ scores.mergeSort scoreLe := List.fst_mem_of_mem_zipIdx hp
  exact List.mem_map_of_mem (List.mem_mergeSort.mp hmem)

theorem mem_keys_orderCandidates {fused : Scores} {x : String} :
    x ∈ (orderCandidates fused).map Prod.fst ↔ x ∈ fused.map Prod.fst := by
  simp only [orderCandidates, List.mem_map, List.mem_mergeSort]

theorem mem_keys_rrfFuse {ids : List String} {inputs : ChannelInputs} {weights : RrfWeights}
    {x : String} (h : x ∈ (rrfFuse ids inputs weights).map Prod.fst) : x ∈ ids := by
  have hmem := mem_keys_dictOf h
  rw [List.map_map] at hmem
  obtain ⟨rid, hrid, rfl⟩ := List.mem_map.mp hmem
  exact hrid

/-! ## Channels -/

/-- A text column of a record with an index of its own. -/
inductive TextField where
  | static
  | dynamic
  | tags
deriving DecidableEq, Repr

inductive SearchMode where
  | staticAttribute
  | dynamicEvent
  | hybrid
  | autoByExternalAi
deriving DecidableEq, Repr

structure StoredVector where
  recordId : String
  vectorType : TextField
  embedding : List ℚ
deriving DecidableEq

structure RerankDocument where
  recordId : String
  text : String
deriving DecidableEq

/-- What the service calls outside its own code: Unicode text operations, the
FTS5 matcher and its bm25 over a whole table, the embedder and the reranker
(`none` where they raise their error), and floating point cosine. -/
structure Engine where
  lower : String → String
  isalnum : String → Bool
  isspace : Char → Bool
  ftsMatch : List String → String → Bool
  bm25 : List FtsRow → List String → FtsRow → ℚ
  embedQuery : String → Option (List ℚ)
  cosineSimilarity : List ℚ → List ℚ → ℚ
  rerank : String → List RerankDocument → Option (List (String × ℚ))

structure SearchConfig where
  contextTtlSeconds : ℤ
  contextIdleSeconds : ℤ
  maxTopK : ℤ
  maxCandidatesPerRevision : ℤ
  maxRevisionsPerContext : ℕ
  weights : RrfWeights
  /-- Vector search is enabled and both an embedder and an index are wired. -/
  vectorEnabled : Bool
  /-- Reranking is enabled and a reranker is wired. -/
  rerankerEnabled : Bool
  rerankTopN : ℤ

/-- `l[:n]`: a negative bound counts from the end. -/
def sliceTo {α : Type} (n : ℤ) (l : List α) : List α :=
  if 0 ≤ n then l.take n.toNat else l.take (l.length - n.natAbs)

/-- `l[n:]`. -/
def sliceFrom {α : Type} (n : ℤ) (l : List α) : List α :=
  if 0 ≤ n then l.drop n.toNat else l.drop (l.length - n.natAbs)

/-- `query.lower().replace(",", " ").split()`. -/
def queryTerms (eng : Engine) (query : String) : List String :=
  let chars := (eng.lower query).toList.map fun c => if c = ',' then ' ' else c
  ((chars.splitOnP eng.isspace).filter fun w => !w.isEmpty).map String.ofList

/-- `part in text`. -/
def isSubstring (part text : String) : Bool :=
  text.toList.tails.any fun suffix => part.toList.isPrefixOf suffix

def ObservationRecord.fieldText (r : ObservationRecord) : TextField → String
  | .static => r.staticDescriptionText
  | .dynamic => r.dynamicDescriptionText
  | .tags => Publication.joinTags r.tags

def ftsRows (t : FtsTables) : TextField → List FtsRow
  | .static => t.staticRows
  | .dynamic => t.dynamicRows
  | .tags => t.tagsRows

/-- `fts_rank`: matching rows among the candidate ids. -/
def ftsRank (eng : Engine) (fts : Option FtsTables) (query : String)
    (candidateIds : List String) (field : TextField) : Scores :=
  match fts with
  | none => []
  | some t =>
      let terms := (queryTerms eng query).filter eng.isalnum
      if terms = [] then []
      else dictOf (((ftsRows t field).filter fun row =>
          eng.ftsMatch terms row.text && decide (row.recordId ∈ candidateIds)).map
        fun row => (row.recordId, eng.bm25 (ftsRows t field) terms row))

/-- The keyword fallback: how many terms occur in the text. -/
def keywordRelevance (eng : Engine) (records : List ObservationRecord) (query : String)
    (field : TextField) : Scores :=
  let terms := queryTerms eng query
  dictOf (records.filterMap fun r =>
    let text := eng.lower (ObservationRecord.fieldText r field)
    let hits := terms.countP fun t => isSubstring t text
    if hits = 0 then none else some (r.recordId, (hits : ℚ)))

def channelScores (eng : Engine) (fts : Option FtsTables) (records : List ObservationRecord)
    (query : String) (field : TextField) : Scores :=
  let scores := ftsRank eng fts query (records.map ObservationRecord.recordId) field
  if scores = [] then keywordRelevance eng records query field else scores

/-- Vectors are fetched for the candidate ids only. -/
def vectorChannel (eng : Engine) (vectors : List StoredVector) (candidateIds : List String)
    (query : String) (vectorType : TextField) : Scores :=
  let stored := vectors.filter fun v =>
    decide (v.recordId ∈ candidateIds) && decide (v.vectorType = vectorType)
  if stored = [] then []
  else match eng.embedQuery query with
    | none => []
    | some queryVec => dictOf (stored.filterMap fun v =>
        let similarity := eng.cosineSimilarity queryVec v.embedding
        if 0 < similarity then some (v.recordId, similarity) else none)

def tagBoosts (eng : Engine) (records : List ObservationRecord) (tagFilters : List String) :
    Scores :=
  let wanted := tagFilters.map eng.lower
  dictOf (records.filterMap fun r =>
    let matched := wanted.countP fun t => decide (t ∈ r.tags.map eng.lower)
    if matched = 0 then none else some (r.recordId, (1 / 20) * (matched : ℚ)))

def scaleBoosts (records : List ObservationRecord) (preferred : List AnalysisScale) : Scores :=
  dictOf ((records.filter fun r => decide (r.analysisScale ∈ preferred)).map
    fun r => (r.recordId, 1 / 10))

/-! ## The ranking -/

structure RankQuery where
  queryText : Option String
  searchMode : SearchMode
  tagFilters : List String
  preferredScales : List AnalysisScale
  /-- Force the vector channel, where the service allows it. -/
  useVector : Option Bool

def usesStatic : SearchMode → Bool
  | .dynamicEvent => false
  | _ => true

def usesDynamic : SearchMode → Bool
  | .staticAttribute => false
  | _ => true

def combineVectors (candidateIds : List String) (staticVec dynamicVec : Scores) : Scores :=
  dictOf (candidateIds.filterMap fun rid =>
    match staticVec.lookup rid, dynamicVec.lookup rid with
    | none, none => none
    | some s, none => some (rid, s)
    | none, some d => some (rid, d)
    | some s, some d => some (rid, max s d))

/-- Without a query: by start time and id, every candidate kept. -/
def rankByTime (weights : RrfWeights) (records : List ObservationRecord) : Scores :=
  let ordered := (records.mergeSort fun a b =>
    decide (a.observedStartTime.instant < b.observedStartTime.instant) ||
      (decide (a.observedStartTime.instant = b.observedStartTime.instant) &&
        decide (a.recordId ≤ b.recordId))).map ObservationRecord.recordId
  let inputs : ChannelInputs := {
    staticRanks := ordered.zipIdx.map fun p => (p.1, p.2 + 1)
    dynamicRanks := []
    tagBoosts := []
    scaleBoosts := []
    vectorRanks := [] }
  orderCandidates (rrfFuse ordered inputs weights)

/-- The signals of a query: ranks of the text channels, of the vectors, and
the boosts. -/
def channelInputs (eng : Engine) (cfg : SearchConfig) (fts : Option FtsTables)
    (vectors : List StoredVector) (records : List ObservationRecord) (query : String)
    (q : RankQuery) : ChannelInputs :=
  let candidateIds := records.map ObservationRecord.recordId
  let staticScores :=
    if usesStatic q.searchMode then channelScores eng fts records query .static else []
  let dynamicScores :=
    if usesDynamic q.searchMode then channelScores eng fts records query .dynamic else []
  let wantVector := match q.useVector with
    | none => cfg.vectorEnabled
    | some use => use && cfg.vectorEnabled
  let staticVec := if wantVector && usesStatic q.searchMode
    then vectorChannel eng vectors candidateIds query .static else []
  let dynamicVec := if wantVector && usesDynamic q.searchMode
    then vectorChannel eng vectors candidateIds query .dynamic else []
  { staticRanks := toRankMap staticScores
    dynamicRanks := toRankMap dynamicScores
    tagBoosts := tagBoosts eng records q.tagFilters
    scaleBoosts := scaleBoosts records q.preferredScales
    vectorRanks := toRankMap (combineVectors candidateIds staticVec dynamicVec) }

/-- The ids some channel matched. -/
def ChannelInputs.matchedIds (inputs : ChannelInputs) : List String :=
  (inputs.staticRanks.map Prod.fst ++ inputs.dynamicRanks.map Prod.fst
    ++ inputs.vectorRanks.map Prod.fst).dedup

/-- With a query: fuse the channels over the matched ids, or over every
candidate when no channel matched. -/
def rankByQuery (eng : Engine) (cfg : SearchConfig) (fts : Option FtsTables)
    (vectors : List StoredVector) (records : List ObservationRecord) (query : String)
    (q : RankQuery) : Scores :=
  let inputs := channelInputs eng cfg fts vectors records query q
  let rankedIds := if inputs.matchedIds = [] then records.map ObservationRecord.recordId
    else inputs.matchedIds
  orderCandidates (rrfFuse rankedIds inputs cfg.weights)

def rank (eng : Engine) (cfg : SearchConfig) (fts : Option FtsTables)
    (vectors : List StoredVector) (records : List ObservationRecord) (q : RankQuery) : Scores :=
  if records = [] then []
  else match q.queryText with
    | none => rankByTime cfg.weights records
    | some query =>
        if query = "" then rankByTime cfg.weights records
        else rankByQuery eng cfg fts vectors records query q

/-- The cross-encoder stage: the head is sorted by the returned scores. -/
def applyCrossEncoder (eng : Engine) (cfg : SearchConfig) (ranked : Scores)
    (records : List ObservationRecord) (queryText : Option String) : Scores :=
  match cfg.rerankerEnabled, queryText with
  | true, some query =>
      if query = "" ∨ ranked = [] then ranked
      else
        let textById := dictOf (records.map fun r => (r.recordId, r.staticDescriptionText))
        let head := sliceTo cfg.rerankTopN ranked
        let tail := sliceFrom cfg.rerankTopN ranked
        match eng.rerank query
            (head.map fun p => ⟨p.1, (textById.lookup p.1).getD ""⟩) with
        | none => ranked
        | some scores =>
            let scoreById := dictOf scores
            (head.map fun p => (p.1, (scoreById.lookup p.1).getD 0)).mergeSort scoreLe ++ tail
  | _, _ => ranked

/-! ## Only candidates are ranked -/

section Candidates

variable {eng : Engine} {cfg : SearchConfig} {fts : Option FtsTables}
  {vectors : List StoredVector} {records : List ObservationRecord} {query x : String}

theorem mem_ftsRank {ids : List String} {field : TextField}
    (h : x ∈ (ftsRank eng fts query ids field).map Prod.fst) : x ∈ ids := by
  unfold ftsRank at h
  split at h
  · cases h
  · dsimp only at h
    split at h
    · cases h
    · have hmem := mem_keys_dictOf h
      rw [List.map_map] at hmem
      obtain ⟨row, hrow, rfl⟩ := List.mem_map.mp hmem
      have hfilter := (List.mem_filter.mp hrow).2
      rw [Bool.and_eq_true] at hfilter
      exact of_decide_eq_true hfilter.2

theorem mem_keywordRelevance {field : TextField}
    (h : x ∈ (keywordRelevance eng records query field).map Prod.fst) :
    x ∈ records.map ObservationRecord.recordId := by
  obtain ⟨p, hp, rfl⟩ := List.mem_map.mp (mem_keys_dictOf h)
  obtain ⟨r, hr, hsome⟩ := List.mem_filterMap.mp hp
  dsimp only at hsome
  split at hsome
  · cases hsome
  · cases hsome
    exact List.mem_map_of_mem hr

theorem mem_channelScores {field : TextField}
    (h : x ∈ (channelScores eng fts records query field).map Prod.fst) :
    x ∈ records.map ObservationRecord.recordId := by
  unfold channelScores at h
  dsimp only at h
  split at h
  · exact mem_keywordRelevance h
  · exact mem_ftsRank h

theorem mem_combineVectors {ids : List String} {staticVec dynamicVec : Scores}
    (h : x ∈ (combineVectors ids staticVec dynamicVec).map Prod.fst) : x ∈ ids := by
  obtain ⟨p, hp, rfl⟩ := List.mem_map.mp (mem_keys_dictOf h)
  obtain ⟨rid, hrid, hsome⟩ := List.mem_filterMap.mp hp
  split at hsome <;> cases hsome <;> exact hrid

theorem mem_rankByTime {weights : RrfWeights}
    (h : x ∈ (rankByTime weights records).map Prod.fst) :
    x ∈ records.map ObservationRecord.recordId := by
  have hmem := mem_keys_rrfFuse (mem_keys_orderCandidates.mp h)
  simpa only [List.mem_map, List.mem_mergeSort] using hmem

theorem mem_matchedIds {q : RankQuery}
    (h : x ∈ (channelInputs eng cfg fts vectors records query q).matchedIds) :
    x ∈ records.map ObservationRecord.recordId := by
  unfold ChannelInputs.matchedIds at h
  rw [List.mem_dedup, List.mem_append, List.mem_append] at h
  rcases h with (h | h) | h
  · have hkey := mem_keys_toRankMap h
    split at hkey
    · exact mem_channelScores hkey
    · cases hkey
  · have hkey := mem_keys_toRankMap h
    split at hkey
    · exact mem_channelScores hkey
    · cases hkey
  · exact mem_combineVectors (mem_keys_toRankMap h)

theorem mem_rankByQuery {q : RankQuery}
    (h : x ∈ (rankByQuery eng cfg fts vectors records query q).map Prod.fst) :
    x ∈ records.map ObservationRecord.recordId := by
  have hmem := mem_keys_rrfFuse (mem_keys_orderCandidates.mp h)
  split at hmem
  · exact hmem
  · exact mem_matchedIds hmem

/-- Every ranked id is the id of a candidate record. -/
theorem mem_rank {q : RankQuery}
    (h : x ∈ (rank eng cfg fts vectors records q).map Prod.fst) :
    x ∈ records.map ObservationRecord.recordId := by
  unfold rank at h
  split at h
  · cases h
  · split at h
    · exact mem_rankByTime h
    · split at h
      · exact mem_rankByTime h
      · exact mem_rankByQuery h

theorem sliceTo_append_sliceFrom {α : Type} (n : ℤ) (l : List α) :
    sliceTo n l ++ sliceFrom n l = l := by
  unfold sliceTo sliceFrom
  split <;> exact List.take_append_drop _ _

theorem mem_of_mem_sliceTo {α : Type} {n : ℤ} {l : List α} {a : α} (h : a ∈ sliceTo n l) :
    a ∈ l := by
  rw [← sliceTo_append_sliceFrom n l]
  exact List.mem_append_left _ h

theorem mem_applyCrossEncoder {ranked : Scores} {queryText : Option String}
    (h : x ∈ (applyCrossEncoder eng cfg ranked records queryText).map Prod.fst) :
    x ∈ ranked.map Prod.fst := by
  unfold applyCrossEncoder at h
  split at h
  · split at h
    · exact h
    · dsimp only at h
      split at h
      · exact h
      · rw [← sliceTo_append_sliceFrom cfg.rerankTopN ranked]
        rw [List.map_append, List.mem_append] at h ⊢
        refine h.imp_left fun hhead => ?_
        obtain ⟨p, hp, rfl⟩ := List.mem_map.mp hhead
        obtain ⟨p', hp', rfl⟩ := List.mem_map.mp (List.mem_mergeSort.mp hp)
        exact List.mem_map.mpr ⟨p', hp', rfl⟩
  · exact h

end Candidates

end CctvMemory.Search
