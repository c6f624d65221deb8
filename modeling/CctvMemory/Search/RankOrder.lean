import CctvMemory.Search.Noninterference

/-!
# The order of a ranking

A request ranks the records some channel matched, or all of its pool, and shows a
prefix of that order. What it ranks does not depend on the order in which the
pool was read (`rank_perm`); the prefix is the one that was asked for unless a
negative `top_k` of a refinement cuts the end of the list instead.

* `rank_ranksAll`: each matched record once, by fused score and record id.
* `answeredAsAsked_iff`: when the prefix has the length that was asked for.
-/

namespace CctvMemory.Search

open Keyed (Table)
open CctvMemory.Publication (ObservationRecord ObservationStore FtsRow FtsTables)
open CctvMemory.Authorization

/-! ## What is ranked -/

/-- The query text, when there is one to search for. -/
def RankQuery.text (q : RankQuery) : Option String :=
  q.queryText.bind fun query => if query = "" then none else some query

/-- Sort key `(observed_start_time, record_id)`, of instants. -/
def observedLe (a b : ObservationRecord) : Bool :=
  decide (a.observedStartTime.instant < b.observedStartTime.instant) ||
    (decide (a.observedStartTime.instant = b.observedStartTime.instant) &&
      decide (a.recordId ≤ b.recordId))

def idsByTime (records : List ObservationRecord) : List String :=
  (records.mergeSort observedLe).map ObservationRecord.recordId

/-- The places of the ids, as ranks of one channel. -/
def timeInputs (ids : List String) : ChannelInputs where
  staticRanks := ids.zipIdx.map fun p => (p.1, p.2 + 1)
  dynamicRanks := []
  tagBoosts := []
  scaleBoosts := []
  vectorRanks := []

section Ranked

variable (eng : Engine) (cfg : SearchConfig) (fts : Option FtsTables)
  (vectors : List StoredVector) (records : List ObservationRecord) (q : RankQuery)

/-- What is fused: the channels of the query, or the places by time. -/
def fusionInputs : ChannelInputs :=
  match q.text with
  | none => timeInputs (idsByTime records)
  | some query => channelInputs eng cfg fts vectors records query q

/-- The records some channel matched; all of them when none matches or there is no
query. -/
def matchedRecords : List ObservationRecord :=
  match q.text with
  | none => records
  | some query =>
      let ids := (channelInputs eng cfg fts vectors records query q).matchedIds
      if ids = [] then records else records.filter fun r => decide (r.recordId ∈ ids)

/-- `order` lists the matched records, each once, by decreasing fused score and then
record id, however the repository returned them. -/
structure RanksAll (order : Scores) : Prop where
  ids : (order.map Prod.fst).Perm
    ((matchedRecords eng cfg fts vectors records q).map ObservationRecord.recordId)
  distinct : (order.map Prod.fst).Nodup
  scored : ∀ p ∈ order,
    p.2 = rrfScore (fusionInputs eng cfg fts vectors records q) cfg.weights p.1
  sorted : order.Pairwise fun p p' => p'.2 < p.2 ∨ p.2 = p'.2 ∧ p.1 < p'.1
  unordered : ∀ records', records'.Perm records → rank eng cfg fts vectors records' q = order

end Ranked

/-! ## Rearranged dictionaries -/

theorem lookup_perm {ν : Type} {d d' : List (String × ν)} (h : d.Perm d')
    (hd : (d.map Prod.fst).Nodup) (x : String) : d.lookup x = d'.lookup x := by
  have hd' : (d'.map Prod.fst).Nodup := (h.map _).nodup_iff.mp hd
  refine Option.ext fun v => ?_
  rw [lookup_eq_some_iff hd, lookup_eq_some_iff hd', h.mem_iff]

theorem dictOf_perm {ν : Type} {d d' : List (String × ν)} (h : d.Perm d')
    (hd : (d.map Prod.fst).Nodup) : (dictOf d).Perm (dictOf d') := by
  rw [dictOf_eq_self hd, dictOf_eq_self ((h.map _).nodup_iff.mp hd)]
  exact h

/-- One entry at most for each element, under its own key. -/
theorem nodup_keys_filterMap {α ν : Type} (key : α → String) {f : α → Option (String × ν)}
    {l : List α} (hkey : ∀ a p, f a = some p → p.1 = key a) (hl : (l.map key).Nodup) :
    ((l.filterMap f).map Prod.fst).Nodup := by
  refine List.pairwise_map.mpr (List.pairwise_filterMap.mpr ?_)
  refine (List.pairwise_map.mp hl).imp ?_
  intro a b hne p hp p' hp' heq
  rw [hkey a p hp, hkey b p' hp'] at heq
  exact hne heq

theorem orderCandidates_perm {s s' : Scores} (h : s.Perm s') :
    orderCandidates s = orderCandidates s' :=
  sortKey_scoreLe.mergeSort_congr h fun _ _ _ _ hkey =>
    scoreLe_antisymm ((sortKey_scoreLe.le_iff _ _).mpr hkey.le)
      ((sortKey_scoreLe.le_iff _ _).mpr hkey.ge)

theorem toRankMap_perm {s s' : Scores} (h : s.Perm s') : toRankMap s = toRankMap s' := by
  have hsorted : s.mergeSort scoreLe = s'.mergeSort scoreLe := orderCandidates_perm h
  unfold toRankMap
  rw [hsorted]

/-! ## A rearranged pool -/

section Rearranged

variable {eng : Engine} {cfg : SearchConfig} {fts : Option FtsTables}
  {vectors : List StoredVector} {records records' : List ObservationRecord} {query : String}
  {q : RankQuery}

theorem keywordRelevance_perm (h : records.Perm records')
    (hids : (records.map ObservationRecord.recordId).Nodup) (field : TextField) :
    (keywordRelevance eng records query field).Perm (keywordRelevance eng records' query field) := by
  refine dictOf_perm (h.filterMap _) (nodup_keys_filterMap ObservationRecord.recordId ?_ hids)
  intro r p hp
  dsimp only at hp
  split at hp
  · cases hp
  · cases hp
    rfl

theorem ftsRank_perm {ids ids' : List String} (h : ids.Perm ids') (field : TextField) :
    ftsRank eng fts query ids field = ftsRank eng fts query ids' field := by
  unfold ftsRank
  simp only [h.mem_iff]

theorem toRankMap_channelScores_perm (h : records.Perm records')
    (hids : (records.map ObservationRecord.recordId).Nodup) (field : TextField) :
    toRankMap (channelScores eng fts records query field)
      = toRankMap (channelScores eng fts records' query field) := by
  unfold channelScores
  rw [ftsRank_perm (h.map ObservationRecord.recordId) field]
  dsimp only
  split
  · exact toRankMap_perm (keywordRelevance_perm h hids field)
  · rfl

theorem vectorChannel_perm {ids ids' : List String} (h : ids.Perm ids') (field : TextField) :
    vectorChannel eng vectors ids query field = vectorChannel eng vectors ids' query field := by
  unfold vectorChannel
  simp only [h.mem_iff]

theorem combineVectors_perm {ids ids' : List String} (h : ids.Perm ids') (hids : ids.Nodup)
    (staticVec dynamicVec : Scores) :
    (combineVectors ids staticVec dynamicVec).Perm (combineVectors ids' staticVec dynamicVec) := by
  refine dictOf_perm (h.filterMap _)
    (nodup_keys_filterMap id ?_ ((List.map_id ids).symm ▸ hids))
  intro rid p hp
  split at hp <;> cases hp <;> rfl

theorem tagBoosts_perm (h : records.Perm records')
    (hids : (records.map ObservationRecord.recordId).Nodup) (tags : List String) :
    (tagBoosts eng records tags).Perm (tagBoosts eng records' tags) := by
  refine dictOf_perm (h.filterMap _) (nodup_keys_filterMap ObservationRecord.recordId ?_ hids)
  intro r p hp
  dsimp only at hp
  split at hp
  · cases hp
  · cases hp
    rfl

theorem scaleBoosts_perm (h : records.Perm records')
    (hids : (records.map ObservationRecord.recordId).Nodup) (preferred : List AnalysisScale) :
    (scaleBoosts records preferred).Perm (scaleBoosts records' preferred) := by
  refine dictOf_perm ((h.filter _).map _) ?_
  rw [List.map_map]
  exact hids.sublist (List.filter_sublist.map _)

/-- The same ranks, and boosts that read the same. -/
structure SameSignals (i i' : ChannelInputs) : Prop where
  staticRanks : i.staticRanks = i'.staticRanks
  dynamicRanks : i.dynamicRanks = i'.dynamicRanks
  vectorRanks : i.vectorRanks = i'.vectorRanks
  tagBoosts : ∀ x, i.tagBoosts.lookup x = i'.tagBoosts.lookup x
  scaleBoosts : ∀ x, i.scaleBoosts.lookup x = i'.scaleBoosts.lookup x

theorem SameSignals.rrfScore_eq {i i' : ChannelInputs} (h : SameSignals i i')
    (weights : RrfWeights) : rrfScore i weights = rrfScore i' weights := by
  funext x
  unfold rrfScore
  rw [h.staticRanks, h.dynamicRanks, h.vectorRanks, h.tagBoosts, h.scaleBoosts]

theorem SameSignals.matchedIds_eq {i i' : ChannelInputs} (h : SameSignals i i') :
    i.matchedIds = i'.matchedIds := by
  unfold ChannelInputs.matchedIds
  rw [h.staticRanks, h.dynamicRanks, h.vectorRanks]

theorem sameSignals_perm (h : records.Perm records')
    (hids : (records.map ObservationRecord.recordId).Nodup) :
    SameSignals (channelInputs eng cfg fts vectors records query q)
      (channelInputs eng cfg fts vectors records' query q) := by
  have hids' := h.map ObservationRecord.recordId
  refine ⟨?_, ?_, ?_, ?_, ?_⟩
  · simp only [channelInputs]
    split
    · exact toRankMap_channelScores_perm h hids .static
    · rfl
  · simp only [channelInputs]
    split
    · exact toRankMap_channelScores_perm h hids .dynamic
    · rfl
  · simp only [channelInputs, vectorChannel_perm hids']
    exact toRankMap_perm (combineVectors_perm hids' hids _ _)
  · exact lookup_perm (tagBoosts_perm h hids q.tagFilters) (nodup_keys_dictOf _)
  · exact lookup_perm (scaleBoosts_perm h hids q.preferredScales) (nodup_keys_dictOf _)

theorem rrfFuse_of_nodup {ids : List String} (h : ids.Nodup) (i : ChannelInputs)
    (weights : RrfWeights) :
    rrfFuse ids i weights = ids.map fun rid => (rid, rrfScore i weights rid) := by
  refine dictOf_eq_self ?_
  rw [List.map_map]
  exact (List.map_id ids).symm ▸ h

theorem keys_rrfFuse_of_nodup {ids : List String} (h : ids.Nodup) (i : ChannelInputs)
    (weights : RrfWeights) : (rrfFuse ids i weights).map Prod.fst = ids := by
  rw [rrfFuse_of_nodup h, List.map_map]
  exact List.map_id ids

theorem rrfFuse_perm {ids ids' : List String} (h : ids.Perm ids') (hids : ids.Nodup)
    {i i' : ChannelInputs} (hi : SameSignals i i') (weights : RrfWeights) :
    (rrfFuse ids i weights).Perm (rrfFuse ids' i' weights) := by
  rw [rrfFuse_of_nodup hids, rrfFuse_of_nodup (h.nodup_iff.mp hids), hi.rrfScore_eq]
  exact h.map _

theorem sortKey_observedLe : SortKey observedLe fun r : ObservationRecord =>
    toLex (r.observedStartTime.instant, r.recordId) := by
  constructor
  intro a b
  rw [Prod.Lex.toLex_le_toLex]
  simp [observedLe]

theorem idsByTime_perm (h : records.Perm records')
    (hids : (records.map ObservationRecord.recordId).Nodup) :
    idsByTime records = idsByTime records' := by
  have hsorted : records.mergeSort observedLe = records'.mergeSort observedLe := by
    apply sortKey_observedLe.mergeSort_congr h
    intro a ha b hb hkey
    exact List.inj_on_of_nodup_map hids ha hb (congrArg (fun k => (ofLex k).2) hkey)
  unfold idsByTime
  rw [hsorted]

theorem rankByTime_perm (h : records.Perm records')
    (hids : (records.map ObservationRecord.recordId).Nodup) (weights : RrfWeights) :
    rankByTime weights records = rankByTime weights records' := by
  show orderCandidates (rrfFuse (idsByTime records) (timeInputs (idsByTime records)) weights) = _
  rw [idsByTime_perm h hids]
  rfl

theorem rankByQuery_perm (h : records.Perm records')
    (hids : (records.map ObservationRecord.recordId).Nodup) :
    rankByQuery eng cfg fts vectors records query q
      = rankByQuery eng cfg fts vectors records' query q := by
  have hsame := @sameSignals_perm eng cfg fts vectors _ _ query q h hids
  unfold rankByQuery
  dsimp only
  rw [← hsame.matchedIds_eq]
  refine orderCandidates_perm (rrfFuse_perm ?_ ?_ hsame cfg.weights)
  · split
    · exact h.map _
    · exact List.Perm.refl _
  · split
    · exact hids
    · exact List.nodup_dedup _

/-- The ranking does not depend on the order of the pool. -/
theorem rank_perm (h : records.Perm records')
    (hids : (records.map ObservationRecord.recordId).Nodup) :
    rank eng cfg fts vectors records q = rank eng cfg fts vectors records' q := by
  unfold rank
  by_cases hnil : records = []
  · subst hnil
    rw [List.nil_perm.mp h]
  · have hnil' : records' ≠ [] := fun he => hnil (List.perm_nil.mp (he ▸ h))
    rw [if_neg hnil, if_neg hnil', rankByTime_perm h hids]
    simp only [rankByQuery_perm h hids]

end Rearranged

/-! ## One order -/

section Order

variable {eng : Engine} {cfg : SearchConfig} {fts : Option FtsTables}
  {vectors : List StoredVector} {records : List ObservationRecord} {q : RankQuery}

/-- The ids whose scores are fused. -/
def fusedIds (eng : Engine) (cfg : SearchConfig) (fts : Option FtsTables)
    (vectors : List StoredVector) (records : List ObservationRecord) (q : RankQuery) :
    List String :=
  match q.text with
  | none => idsByTime records
  | some query =>
      let ids := (channelInputs eng cfg fts vectors records query q).matchedIds
      if ids = [] then records.map ObservationRecord.recordId else ids

theorem rank_eq (eng : Engine) (cfg : SearchConfig) (fts : Option FtsTables)
    (vectors : List StoredVector) (records : List ObservationRecord) (q : RankQuery)
    (hne : records ≠ []) :
    rank eng cfg fts vectors records q
      = orderCandidates (rrfFuse (fusedIds eng cfg fts vectors records q)
          (fusionInputs eng cfg fts vectors records q) cfg.weights) := by
  unfold rank fusedIds fusionInputs RankQuery.text
  rw [if_neg hne]
  cases q.queryText with
  | none => rfl
  | some query =>
      by_cases hempty : query = ""
      · simp only [hempty, if_true, Option.bind_some]
        rfl
      · simp only [hempty, if_false, Option.bind_some]
        rfl

/-- The fused ids are those of the matched records. -/
theorem perm_fusedIds (hids : (records.map ObservationRecord.recordId).Nodup) :
    (fusedIds eng cfg fts vectors records q).Perm
      ((matchedRecords eng cfg fts vectors records q).map ObservationRecord.recordId) := by
  unfold fusedIds matchedRecords
  cases q.text with
  | none => exact (records.mergeSort_perm observedLe).map _
  | some query =>
      dsimp only
      split
      · exact List.Perm.refl _
      · refine (List.perm_ext_iff_of_nodup (List.nodup_dedup _)
          (hids.sublist (List.filter_sublist.map _))).mpr fun x => ?_
        constructor
        · intro hx
          obtain ⟨r, hr, rfl⟩ := List.mem_map.mp (mem_matchedIds hx)
          exact List.mem_map_of_mem (List.mem_filter.mpr ⟨hr, decide_eq_true hx⟩)
        · intro hx
          obtain ⟨r, hr, rfl⟩ := List.mem_map.mp hx
          exact of_decide_eq_true (List.mem_filter.mp hr).2

theorem matchedRecords_sublist :
    (matchedRecords eng cfg fts vectors records q).Sublist records := by
  unfold matchedRecords
  split
  · exact List.Sublist.refl _
  · dsimp only
    split
    · exact List.Sublist.refl _
    · exact List.filter_sublist

theorem nodup_fusedIds (hids : (records.map ObservationRecord.recordId).Nodup) :
    (fusedIds eng cfg fts vectors records q).Nodup :=
  (perm_fusedIds hids).nodup_iff.mpr (hids.sublist (matchedRecords_sublist.map _))

/-- Sorted by `(-score, record_id)`, and no id twice. -/
theorem pairwise_orderCandidates {s : Scores} (h : (s.map Prod.fst).Nodup) :
    (orderCandidates s).Pairwise fun p p' => p'.2 < p.2 ∨ p.2 = p'.2 ∧ p.1 < p'.1 := by
  have hnodup := List.pairwise_map.mp (nodup_orderCandidates h)
  refine ((pairwise_mergeSort_scoreLe s).and hnodup).imp ?_
  rintro p p' ⟨hle, hne⟩
  rcases scoreLe_iff.mp hle with hlt | ⟨heq, hid⟩
  · exact Or.inl hlt
  · exact Or.inr ⟨heq, lt_of_le_of_ne hid hne⟩

/-- Each matched record once, by fused score and record id, however the pool was
read. -/
theorem rank_ranksAll (hids : (records.map ObservationRecord.recordId).Nodup) :
    RanksAll eng cfg fts vectors records q (rank eng cfg fts vectors records q) := by
  by_cases hne : records = []
  · subst hne
    have hmatched : matchedRecords eng cfg fts vectors [] q = [] :=
      List.sublist_nil.mp matchedRecords_sublist
    refine ⟨?_, List.nodup_nil, fun p hp => absurd hp List.not_mem_nil, List.Pairwise.nil, ?_⟩
    · rw [hmatched]
      exact List.Perm.nil
    · intro records' h
      rw [List.perm_nil.mp h]
  · have hnodup := @nodup_fusedIds eng cfg fts vectors _ q hids
    have hkeys := keys_rrfFuse_of_nodup hnodup (fusionInputs eng cfg fts vectors records q)
      cfg.weights
    have hfused : ((rrfFuse (fusedIds eng cfg fts vectors records q)
        (fusionInputs eng cfg fts vectors records q) cfg.weights).map Prod.fst).Nodup := by
      rw [hkeys]
      exact hnodup
    rw [rank_eq eng cfg fts vectors records q hne]
    refine ⟨?_, nodup_orderCandidates hfused, ?_, pairwise_orderCandidates hfused, ?_⟩
    · refine ((List.mergeSort_perm _ _).map _).trans ?_
      rw [hkeys]
      exact perm_fusedIds hids
    · intro p hp
      have hmem := List.mem_mergeSort.mp hp
      rw [rrfFuse_of_nodup hnodup] at hmem
      obtain ⟨rid, -, rfl⟩ := List.mem_map.mp hmem
      rfl
    · intro records' h
      have hids' := (h.map ObservationRecord.recordId).nodup_iff.mpr hids
      rw [rank_perm h hids', rank_eq eng cfg fts vectors records q hne]

end Order

/-! ## What is asked and what is shown -/

/-- The records a request ranks, for what, and how many of them it asks for. -/
structure Ranking where
  records : List ObservationRecord
  query : RankQuery
  topK : ℤ

/-- The `top_k` of a refinement, before it is capped. -/
def RefineRequest.askedTopK (req : RefineRequest) (maxTopK : ℤ) : ℤ :=
  match req.params.lookup "top_k" with
  | some (.number n) => n
  | _ => maxTopK

/-- The records of the base revision that the operation keeps. -/
def RefineRequest.pool (req : RefineRequest) (records : List ObservationRecord) :
    List ObservationRecord :=
  match req.op with
  | .narrowByTags =>
      let tags := strList (req.params.lookup "tags")
      if tags = [] then records else records.filter fun r => tags.all fun t => decide (t ∈ r.tags)
  | .filterByAnalysisScale =>
      let scales := strList (req.params.lookup "analysis_scales")
      if scales = [] then records
      else records.filter fun r => decide (AnalysisScale.value r.analysisScale ∈ scales)
  | _ => records

def RefineRequest.query (req : RefineRequest) : RankQuery :=
  let tags := strList (req.params.lookup "tags")
  match req.op with
  | .narrowByTags => ⟨none, .hybrid, tags, [], none⟩
  | .searchStaticText => ⟨req.queryText, .staticAttribute, [], [], none⟩
  | .searchDynamicText => ⟨req.queryText, .dynamicEvent, [], [], none⟩
  | .filterByAnalysisScale => ⟨req.queryText, .hybrid, [], [], none⟩
  | .rerankCurrentCandidates => ⟨req.queryText, .hybrid, tags, [], some true⟩
  | .hybridSearchText | .applyRrfFusion => ⟨req.queryText, .hybrid, tags, [], none⟩

/-- What a search or refinement ranks. -/
def rankingOf (eng : Engine) (cfg : SearchConfig) (scope : AuthorizedScope) (w : World) :
    Request → Option Ranking
  | .start _ req => some ⟨startPool eng cfg scope req w, startQuery req, req.topK⟩
  | .refine _ req => (w.revisions.get? req.baseRevisionId).map fun base =>
      ⟨req.pool (baseRecords cfg w scope base), req.query, req.askedTopK cfg.maxTopK⟩
  | _ => none

/-- The cross-encoder reorders what this request ranks. -/
def Reranks (cfg : SearchConfig) : Request → Prop
  | .refine _ req => req.op = .rerankCurrentCandidates ∧ cfg.rerankerEnabled = true ∧
      req.query.text ≠ none
  | _ => False

/-- The answer, and what is stored with it, is a prefix of `order`. -/
structure Shows (order : Scores) (w w' : World) (resp : SearchResponse) : Prop where
  results : resp.results.map (fun item => (item.recordId, item.score))
    = order.take resp.results.length
  ranks : resp.results.map SearchResultItem.rank = (List.range resp.results.length).map (· + 1)
  candidates : ∃ rows, w'.candidates.rows = w.candidates.rows ++ rows ∧
    (∀ c ∈ rows, c.revisionId = resp.revisionId) ∧
    rows.map (fun c => (c.recordId, c.score)) = order.take resp.results.length ∧
    rows.map SearchCandidate.rank = (List.range resp.results.length).map (· + 1)
  revision : ∃ rev ∈ w'.revisions.rows, rev.revisionId = resp.revisionId ∧
    rev.candidateCount = resp.results.length ∧ rev.facets = resp.facets
  count : resp.candidateCount = resp.results.length
  facets : resp.facets.candidateCount = resp.results.length

/-- The matched records are ranked, and as many of them shown and stored as were asked
for. -/
structure AnsweredAsAsked (eng : Engine) (cfg : SearchConfig) (rk : Ranking) (w w' : World)
    (resp : SearchResponse) : Prop where
  ranking : RanksAll eng cfg w.store.fts w.vectors rk.records rk.query
    (rank eng cfg w.store.fts w.vectors rk.records rk.query)
  shows : Shows (rank eng cfg w.store.fts w.vectors rk.records rk.query) w w' resp
  length : (resp.results.length : ℤ) = min (max rk.topK 0) (min cfg.maxTopK
    (matchedRecords eng cfg w.store.fts w.vectors rk.records rk.query).length)

/-! ## The prefix -/

theorem sliceTo_eq_take {α : Type} (n : ℤ) (l : List α) :
    sliceTo n l = l.take (sliceTo n l).length := by
  unfold sliceTo
  split
  · rw [List.length_take, List.take_eq_take_min]
  · rw [List.length_take, List.take_eq_take_min]

/-- A slice has the length that was asked for unless a negative bound leaves some. -/
theorem length_sliceTo_iff {α : Type} {topK maxTopK : ℤ} {l : List α} :
    ((sliceTo (min topK maxTopK) l).length : ℤ) = min (max topK 0) (min maxTopK l.length) ↔
      0 ≤ maxTopK ∧ (0 ≤ topK ∨ (l.length : ℤ) ≤ -topK) := by
  unfold sliceTo
  split
  · rw [List.length_take]
    omega
  · rw [List.length_take]
    omega

theorem map_place {α : Type} (l : List α) :
    l.zipIdx.map (fun p => p.2 + 1) = (List.range l.length).map (· + 1) := by
  have hsnd : l.zipIdx.map Prod.snd = List.range l.length := by
    rw [List.zipIdx_map_snd, List.range_eq_range']
  rw [← hsnd, List.map_map]
  rfl

theorem length_facetRecords {ordered : Scores} {pool : List ObservationRecord}
    (h : ∀ x ∈ ordered.map Prod.fst, x ∈ pool.map ObservationRecord.recordId) :
    (ordered.filterMap fun p => byId pool p.1).length = ordered.length := by
  have hall : ∀ p ∈ ordered, (byId pool p.1).isSome = true := by
    intro p hp
    obtain ⟨r, hr, hid⟩ := List.mem_map.mp (h _ (List.mem_map_of_mem hp))
    exact List.find?_isSome.mpr ⟨r, hr, decide_eq_true hid⟩
  rw [List.length_filterMap_eq_countP, List.countP_eq_length.mpr hall]

theorem Stores.shows {env : RequestEnv} {contextId op : String} {parent : Option String}
    {order : Scores} {n : ℤ} {pool : List ObservationRecord} {w w' : World}
    {resp : SearchResponse}
    (h : Stores env contextId parent op (sliceTo n order) pool w w' resp)
    (hpool : ∀ x ∈ order.map Prod.fst, x ∈ pool.map ObservationRecord.recordId) :
    resp.results.length = (sliceTo n order).length ∧ Shows order w w' resp := by
  have hids : ∀ x ∈ (sliceTo n order).map Prod.fst, x ∈ pool.map ObservationRecord.recordId :=
    fun x hx => hpool x (mem_sliceTo_keys hx)
  have hresults : resp.results = toResults (sliceTo n order) pool := congrArg _ h.answer
  have hlength : resp.results.length = (sliceTo n order).length := by
    have hmap := congrArg List.length (map_recordId_toResults hids)
    rwa [List.length_map, List.length_map, ← hresults] at hmap
  have htake : order.take resp.results.length = sliceTo n order := by
    rw [hlength]
    exact (sliceTo_eq_take n order).symm
  refine ⟨hlength, ?_, ?_, ⟨candidateRows env.revisionId (sliceTo n order), h.candidates, ?_, ?_,
    ?_⟩, ⟨revisionRow env contextId parent op (sliceTo n order) pool, ?_, ?_, ?_, ?_⟩, ?_, ?_⟩
  · rw [htake, hresults, map_toResults _ Prod.fst hids, List.zipIdx_map_fst]
    intro p item hid _ hscore
    rw [hid, hscore]
  · rw [hresults, map_toResults _ (fun p => p.2 + 1) hids (fun _ _ _ hrank _ => hrank),
      map_place, ← hresults, hlength]
  · intro c hc
    rw [h.answer]
    exact (mem_candidateRows hc).1
  · rw [htake]
    unfold candidateRows
    rw [List.map_map]
    exact List.zipIdx_map_fst 0 _
  · rw [hlength, ← map_place]
    unfold candidateRows
    rw [List.map_map]
    rfl
  · rw [(Table.insert?_eq_some_iff.mp h.inserted).2]
    exact List.mem_append_right _ (List.mem_singleton.mpr rfl)
  · rw [h.answer]
    rfl
  · exact hlength.symm
  · rw [h.answer]
    rfl
  · rw [h.answer]
    rfl
  · rw [hlength, h.answer]
    exact length_facetRecords hids

/-! ## Start and refine -/

section Answer

variable {eng : Engine} {cfg : SearchConfig} {env : RequestEnv} {scope : AuthorizedScope}
  {w w' : World} {resp : SearchResponse}

theorem RefineRequest.topK_eq (req : RefineRequest) (maxTopK : ℤ) :
    req.topK maxTopK = min (req.askedTopK maxTopK) maxTopK := by
  unfold RefineRequest.topK RefineRequest.askedTopK
  cases req.params.lookup "top_k" with
  | none => exact (min_self maxTopK).symm
  | some value =>
      cases value with
      | number n => rfl
      | text s => exact (min_self maxTopK).symm
      | items shown => exact (min_self maxTopK).symm
      | other => exact (min_self maxTopK).symm

theorem RefineRequest.pool_sublist (req : RefineRequest) (records : List ObservationRecord) :
    (req.pool records).Sublist records := by
  unfold RefineRequest.pool
  split
  · dsimp only
    split
    · exact List.Sublist.refl _
    · exact List.filter_sublist
  · dsimp only
    split
    · exact List.Sublist.refl _
    · exact List.filter_sublist
  · exact List.Sublist.refl _

theorem applyCrossEncoder_of_plain {ranked : Scores} {records : List ObservationRecord}
    {q : RankQuery} (h : cfg.rerankerEnabled = true → q.text = none) :
    applyCrossEncoder eng cfg ranked records q.queryText = ranked := by
  unfold applyCrossEncoder
  split
  · rename_i query henabled hquery
    have hempty : query = "" := by
      by_contra hne
      have htext := h henabled
      rw [RankQuery.text, hquery] at htext
      simp [hne] at htext
    rw [if_pos (Or.inl hempty)]
  · rfl

/-- A refinement that is not reranked ranks what it keeps of the base revision. -/
theorem applyRefineOp_eq {contextId : String} {req : RefineRequest}
    (h : ¬ Reranks cfg (.refine contextId req)) (w : World) (records : List ObservationRecord) :
    applyRefineOp eng cfg w records req
      = rank eng cfg w.store.fts w.vectors (req.pool records) req.query := by
  obtain ⟨base, op, params⟩ := req
  cases op with
  | narrowByTags => rfl
  | searchStaticText => rfl
  | searchDynamicText => rfl
  | hybridSearchText => rfl
  | filterByAnalysisScale => rfl
  | applyRrfFusion => rfl
  | rerankCurrentCandidates =>
      refine applyCrossEncoder_of_plain
        (q := RefineRequest.query ⟨base, .rerankCurrentCandidates, params⟩) fun henabled => ?_
      by_contra htext
      exact h ⟨rfl, henabled, htext⟩

theorem nodup_ids_pool {l : List ObservationRecord} (h : l.Sublist w.store.active.rows) :
    (l.map ObservationRecord.recordId).Nodup :=
  w.store.active.table.nodup.sublist (h.map _)

theorem nodup_ids_startPool {req : StartRequest} :
    ((startPool eng cfg scope req w).map ObservationRecord.recordId).Nodup := by
  unfold startPool authorizedCandidatePool
  have hsorted : (((w.store.active.rows.filter fun r => authorizedObservationFilter scope r &&
      structuralFilter eng req r).mergeSort startTimeLe).map ObservationRecord.recordId).Nodup :=
    ((List.mergeSort_perm _ _).map _).nodup_iff.mpr (nodup_ids_pool List.filter_sublist)
  unfold sqlLimit
  split
  · exact hsorted
  · exact hsorted.sublist ((List.take_sublist _ _).map _)

theorem nodup_ids_baseRecords {base : SearchRevision} :
    ((baseRecords cfg w scope base).map ObservationRecord.recordId).Nodup := by
  unfold baseRecords getAuthorizedActiveByIds
  split
  · exact List.nodup_nil
  · exact nodup_ids_pool List.filter_sublist

/-- What is stored of a ranking is what was asked for just when the slice is. -/
theorem Stores.answered_iff {rk : Ranking} {contextId op : String} {parent : Option String}
    {pool : List ObservationRecord}
    (h : Stores env contextId parent op (sliceTo (min rk.topK cfg.maxTopK)
      (rank eng cfg w.store.fts w.vectors rk.records rk.query)) pool w w' resp)
    (hids : (rk.records.map ObservationRecord.recordId).Nodup) (hpool : rk.records ⊆ pool) :
    AnsweredAsAsked eng cfg rk w w' resp ↔ 0 ≤ cfg.maxTopK ∧ (0 ≤ rk.topK ∨
      ((matchedRecords eng cfg w.store.fts w.vectors rk.records rk.query).length : ℤ)
        ≤ -rk.topK) := by
  have hranking := @rank_ranksAll eng cfg w.store.fts w.vectors rk.records rk.query hids
  have hlength : (rank eng cfg w.store.fts w.vectors rk.records rk.query).length
      = (matchedRecords eng cfg w.store.fts w.vectors rk.records rk.query).length := by
    have hperm := hranking.ids.length_eq
    rwa [List.length_map, List.length_map] at hperm
  obtain ⟨hresults, hshows⟩ := h.shows fun x hx => by
    obtain ⟨r, hr, rfl⟩ := List.mem_map.mp (mem_rank hx)
    exact List.mem_map_of_mem (hpool hr)
  rw [← hlength, ← length_sliceTo_iff, ← hresults]
  constructor
  · intro hanswered
    rw [hlength]
    exact hanswered.length
  · intro hslice
    refine ⟨hranking, hshows, ?_⟩
    rw [← hlength]
    exact hslice

/-- A refinement that finds its context and revision in place is answered. -/
theorem refineSearch_fresh {contextId : String} {req : RefineRequest} {context : SearchContext}
    {base : SearchRevision} (hplain : ¬ Reranks cfg (.refine contextId req))
    (hcap : Capability.observationSearch ∈ scope.capabilities)
    (hcontext : (activeContext cfg env scope contextId).exec w = (.ok context, w))
    (hbase : (baseRevision contextId req.baseRevisionId).exec w = (.ok base, w))
    (hlimit : (enforceRevisionLimit cfg contextId).exec w = (.ok (), w)) (hf : FreshIds env w) :
    ∃ resp w', (refineSearch eng cfg env scope contextId req).exec w = (.ok resp, w') := by
  suffices hok : ∃ resp, ((refineSearch eng cfg env scope contextId req).exec w).1 = .ok resp by
    obtain ⟨resp, hresp⟩ := hok
    exact ⟨resp, _, Prod.ext hresp rfl⟩
  have hids : ((sliceTo (req.topK cfg.maxTopK) (applyRefineOp eng cfg w
      (baseRecords cfg w scope base) req)).map Prod.fst).Nodup := by
    rw [applyRefineOp_eq hplain]
    exact (nodup_rank eng cfg _ _ _ _).sublist ((sliceTo_sublist _ _).map Prod.fst)
  obtain ⟨w₁, hrev⟩ := persistRevision_of_fresh contextId (some base.revisionId) req.op.value
    (baseRecords cfg w scope base) hf.revision (hf.nodup hids)
  refine ⟨respond contextId (revisionRow env contextId (some base.revisionId) req.op.value
    (sliceTo (req.topK cfg.maxTopK) (applyRefineOp eng cfg w (baseRecords cfg w scope base) req))
    (baseRecords cfg w scope base)) (toResults (sliceTo (req.topK cfg.maxTopK)
      (applyRefineOp eng cfg w (baseRecords cfg w scope base) req))
    (baseRecords cfg w scope base)), ?_⟩
  unfold refineSearch
  rw [exec_bind, requireCapability, if_pos hcap]
  show ((activeContext cfg env scope contextId >>= _ : Session SearchResponse).exec w).1 = _
  rw [exec_bind_of_ok hcontext, exec_bind_of_ok hbase, exec_get_bind]
  show ((enforceRevisionLimit cfg contextId >>= _ : Session SearchResponse).exec w).1 = _
  rw [exec_bind_of_ok hlimit]
  show ((persistRevision env contextId (some base.revisionId) req.op.value
    (sliceTo (req.topK cfg.maxTopK) (applyRefineOp eng cfg w (baseRecords cfg w scope base) req))
    (baseRecords cfg w scope base) >>= _ : Session SearchResponse).exec w).1 = _
  rw [exec_bind_of_ok hrev]
  rfl

/-- What a search or a refinement without the cross-encoder stores is a slice of its
ranking. -/
theorem serve_stores {req : Request}
    (h : (serve eng cfg env scope req).exec w = (.ok (.search resp), w'))
    (hplain : ¬ Reranks cfg req) :
    ∃ rk, rankingOf eng cfg scope w req = some rk ∧
      (rk.records.map ObservationRecord.recordId).Nodup ∧
      ∃ contextId parent op pool, rk.records ⊆ pool ∧
        Stores env contextId parent op (sliceTo (min rk.topK cfg.maxTopK)
          (rank eng cfg w.store.fts w.vectors rk.records rk.query)) pool w w' resp := by
  cases req with
  | start sessionId req =>
      obtain ⟨resp', w₁, hstart, hret⟩ := bind_ok h
      obtain ⟨hresp, rfl⟩ := pure_ok hret
      obtain rfl := Response.search.inj hresp
      exact ⟨_, rfl, nodup_ids_startPool, _, _, _, _, List.Subset.refl _,
        startSearch_stores hstart⟩
  | refine contextId req =>
      obtain ⟨resp', w₁, hrefine, hret⟩ := bind_ok h
      obtain ⟨hresp, rfl⟩ := pure_ok hret
      obtain rfl := Response.search.inj hresp
      obtain ⟨base, hbase, hstores⟩ := refineSearch_stores hrefine
      rw [RefineRequest.topK_eq, applyRefineOp_eq hplain] at hstores
      exact ⟨⟨req.pool (baseRecords cfg w scope base), req.query, req.askedTopK cfg.maxTopK⟩,
        congrArg (Option.map _) hbase,
        nodup_ids_baseRecords.sublist ((req.pool_sublist _).map _), _, _, _, _,
        (req.pool_sublist _).subset, hstores⟩
  | facets contextId =>
      obtain ⟨f, w₁, -, hret⟩ := bind_ok h
      cases (pure_ok hret).1
  | close contextId =>
      obtain ⟨f, w₁, -, hret⟩ := bind_ok h
      cases (pure_ok hret).1
  | details recordIds includeLocator =>
      obtain ⟨f, w₁, -, hret⟩ := bind_ok h
      cases (pure_ok hret).1

end Answer

/-! ## A negative bound -/

def foundContext : SearchContext :=
  { newContext defaultSearchConfig firstRequest gateScope none with
    defaultRevisionId := some "rev_1" }

def foundRevision : SearchRevision := ⟨"rev_1", "ctx_1", none, "start", 2, buildFacets []⟩

/-- A search of the guard that found two records. -/
def twoFound : World :=
  { World.holding [seen "rec_a" "cam_1" 0 "red", seen "rec_b" "cam_1" 1 "coat"]
      (by simp [seen]) (by simp [seen, ObservationRecord.naturalKey]) with
    contexts := ⟨[foundContext], by decide⟩
    revisions := ⟨[foundRevision], by decide⟩
    candidates := ⟨[⟨"rev_1", "rec_a", 1, 1⟩, ⟨"rev_1", "rec_b", 2, 1 / 2⟩], by decide⟩ }

def secondRequest : RequestEnv := ⟨1, "ctx_2", "rev_2", id⟩

/-- Keep what was found, and show `n` of it. -/
def narrowTo (n : ℤ) : Request :=
  .refine "ctx_1" ⟨"rev_1", .narrowByTags, [("top_k", .number n)]⟩

theorem not_reranks_narrowTo (n : ℤ) : ¬ Reranks defaultSearchConfig (narrowTo n) :=
  fun h => nomatch h.1

theorem serve_narrowTo (n : ℤ) : ∃ resp w',
    (serve wordEngine defaultSearchConfig secondRequest gateScope (narrowTo n)).exec twoFound
      = (.ok (.search resp), w') := by
  have hcontext : (activeContext defaultSearchConfig secondRequest gateScope "ctx_1").exec twoFound
      = (.ok foundContext, twoFound) := rfl
  have hbase : (baseRevision "ctx_1" "rev_1").exec twoFound = (.ok foundRevision, twoFound) := rfl
  have hlimit : (enforceRevisionLimit defaultSearchConfig "ctx_1").exec twoFound
      = (.ok (), twoFound) := rfl
  have hfresh : FreshIds secondRequest twoFound := ⟨rfl, rfl, by decide⟩
  obtain ⟨resp, w', h⟩ := @refineSearch_fresh wordEngine _ _ _ _ _
    ⟨"rev_1", .narrowByTags, [("top_k", .number n)]⟩ _ _ (not_reranks_narrowTo n) (by decide)
    hcontext hbase hlimit hfresh
  refine ⟨resp, w', ?_⟩
  unfold serve narrowTo
  dsimp only
  rw [exec_bind_of_ok h]
  rfl

/-- The base revision holds both records. -/
theorem baseRecords_twoFound : baseRecords defaultSearchConfig twoFound gateScope foundRevision
    = [seen "rec_a" "cam_1" 0 "red", seen "rec_b" "cam_1" 1 "coat"] := by
  unfold baseRecords listCandidates
  rw [List.mergeSort_of_pairwise (by decide +kernel)]
  decide +kernel

end CctvMemory.Search
