import CctvMemory.Search.Service

/-!
# Search stays inside the scope

Every channel of the search side ranks, stores and shows records it read
through `authorized_observation_filter` with the scope of the request at hand;
a refined revision holds candidates of its base only.

* `Persisted`: what a start or a refinement leaves behind when it succeeds.
* `handle_confined`: one request shows visible records only.
* `Narrowing.step`: revisions never gain candidates their base does not have.
* `search_confined`: both, after any sequence of events.
-/

namespace CctvMemory.Search

open Keyed (Table)
open CctvMemory.Publication (ObservationRecord ObservationStore PublishEnv PublishCommand)
open CctvMemory.Authorization

/-! ## What may be seen -/

/-- An active record the scope permits. -/
def Visible (scope : AuthorizedScope) (w : World) (r : ObservationRecord) : Prop :=
  r ∈ w.store.active.rows ∧ scope.permitsResource r = true

def SearchResultItem.Shows (item : SearchResultItem) (r : ObservationRecord) : Prop :=
  item.recordId = r.recordId ∧
  item.previewText = String.ofList (r.staticDescriptionText.toList.take 200) ∧
  item.analysisScale = r.analysisScale ∧
  item.observedStartTime = r.observedStartTime ∧
  item.observedEndTime = r.observedEndTime

def DetailsItem.Shows (item : DetailsItem) (r : ObservationRecord) : Prop :=
  item.recordId = r.recordId ∧
  item.staticDescriptionText = r.staticDescriptionText ∧
  item.dynamicDescriptionText = r.dynamicDescriptionText ∧
  item.tags = r.tags ∧
  item.attributes = r.attributes ∧
  item.analysisScale = r.analysisScale ∧
  item.observedStartTime = r.observedStartTime ∧
  item.observedEndTime = r.observedEndTime ∧
  ∀ l, item.locator = some l → l.videoId = r.videoId ∧ l.cameraId = r.cameraId

/-- The stored candidate ids of a revision. -/
def candidateIds (w : World) (revisionId : String) : List String :=
  (w.candidates.rows.filter fun c => decide (c.revisionId = revisionId)).map
    SearchCandidate.recordId

/-- Facets counted over visible records. -/
def FacetsConfined (scope : AuthorizedScope) (w : World) (f : Facets) : Prop :=
  ∃ rs, f = buildFacets rs ∧ ∀ r ∈ rs, Visible scope w r

/-- A response of a request that found the database at `w` and left it at
`w'`, and what it stored. -/
def Confined (scope : AuthorizedScope) (w w' : World) : Response → Prop
  | .search resp =>
      (∀ item ∈ resp.results, ∃ r, Visible scope w r ∧ item.Shows r) ∧
      (∀ id ∈ candidateIds w' resp.revisionId, ∃ r, Visible scope w r ∧ r.recordId = id) ∧
      FacetsConfined scope w resp.facets
  | .facets f => FacetsConfined scope w f
  | .closed => True
  | .details items => ∀ item ∈ items, ∃ r, Visible scope w r ∧ item.Shows r

/-- Candidates of a stored revision are candidates of its base, and every
candidate belongs to a stored revision. -/
structure Narrowing (w : World) : Prop where
  narrows : ∀ rev ∈ w.revisions.rows, ∀ base, rev.parentRevisionId = some base →
    ∀ id ∈ candidateIds w rev.revisionId, id ∈ candidateIds w base
  owned : ∀ c ∈ w.candidates.rows, w.revisions.get? c.revisionId ≠ none

/-! ## Session steps that succeed -/

theorem exec_bind {α β : Type} (x : Session α) (f : α → Session β) (w : World) :
    (x >>= f).exec w = match x.exec w with
      | (.ok a, w₁) => (f a).exec w₁
      | (.error e, w₁) => (.error e, w₁) := by
  show (ExceptT.bindCont f ((x.exec w).1)) ((x.exec w).2) = _
  rcases x.exec w with ⟨_ | _, _⟩ <;> rfl

theorem bind_ok {α β : Type} {x : Session α} {f : α → Session β} {w w' : World} {b : β}
    (h : (x >>= f).exec w = (.ok b, w')) :
    ∃ a w₁, x.exec w = (.ok a, w₁) ∧ (f a).exec w₁ = (.ok b, w') := by
  rw [exec_bind] at h
  split at h
  · rename_i a w₁ hx
    exact ⟨a, w₁, hx, h⟩
  · cases h

theorem exec_get_bind {α : Type} (f : World → Session α) (w : World) :
    ((get : Session World) >>= f).exec w = (f w).exec w := exec_bind _ f w

theorem get_bind_ok {α : Type} {f : World → Session α} {w w' : World} {a : α}
    (h : ((get : Session World) >>= f).exec w = (.ok a, w')) : (f w).exec w = (.ok a, w') := by
  rwa [exec_get_bind] at h

theorem pure_ok {α : Type} {a b : α} {w w' : World}
    (h : (pure a : Session α).exec w = (.ok b, w')) : a = b ∧ w = w' := by
  cases h
  exact ⟨rfl, rfl⟩

/-- The tables a request reads records and candidates from are untouched. -/
structure SameData (w w' : World) : Prop where
  store : w'.store = w.store
  revisions : w'.revisions = w.revisions
  candidates : w'.candidates = w.candidates

theorem SameData.refl (w : World) : SameData w w := ⟨rfl, rfl, rfl⟩

theorem requireCapability_ok {scope : AuthorizedScope} {c : Capability} {w w' : World} {u : Unit}
    (h : (requireCapability scope c).exec w = (.ok u, w')) : w' = w := by
  unfold requireCapability at h
  split at h
  · exact (pure_ok h).2.symm
  · cases h

theorem capable_of_requireCapability {scope : AuthorizedScope} {c : Capability} {w w' : World}
    {u : Unit} (h : (requireCapability scope c).exec w = (.ok u, w')) :
    c ∈ scope.capabilities := by
  unfold requireCapability at h
  split at h
  · assumption
  · cases h

theorem closeContext_ok {contextId : String} {w w' : World} {u : Unit}
    (h : (closeContext contextId).exec w = (.ok u, w')) : SameData w w' := by
  cases h
  exact ⟨rfl, rfl, rfl⟩

theorem replaceDefaultRevision_ok {env : RequestEnv} {contextId revisionId : String}
    {w w' : World} {u : Unit}
    (h : (replaceDefaultRevision env contextId revisionId).exec w = (.ok u, w')) :
    SameData w w' := by
  cases h
  exact ⟨rfl, rfl, rfl⟩

theorem appendEvent_ok {event : QueryAudit} {w w' : World} {u : Unit}
    (h : (appendEvent event).exec w = (.ok u, w')) : SameData w w' := by
  cases h
  exact ⟨rfl, rfl, rfl⟩

theorem createContext_ok {context : SearchContext} {w w' : World} {u : Unit}
    (h : (createContext context).exec w = (.ok u, w')) : SameData w w' := by
  unfold createContext at h
  replace h := get_bind_ok h
  split at h
  · cases h
  · cases h
    exact ⟨rfl, rfl, rfl⟩

theorem rows_insertCandidates {cs : List SearchCandidate}
    {t t' : Table SearchCandidate SearchCandidate.key} (h : insertCandidates t cs = some t') :
    t'.rows = t.rows ++ cs := by
  induction cs generalizing t with
  | nil =>
      cases h
      simp
  | cons c cs ih =>
      unfold insertCandidates at h
      split at h
      · cases h
      · rename_i u hu
        rw [ih h, (Table.insert?_eq_some_iff.mp hu).2, List.append_assoc]
        rfl

theorem createRevision_ok {revision : SearchRevision} {cs : List SearchCandidate}
    {w w' : World} {u : Unit} (h : (createRevision revision cs).exec w = (.ok u, w')) :
    w.revisions.insert? revision = some w'.revisions ∧
    w'.candidates.rows = w.candidates.rows ++ cs ∧ w'.store = w.store := by
  unfold createRevision at h
  replace h := get_bind_ok h
  split at h
  · cases h
  · rename_i revisions hrev
    split at h
    · cases h
    · rename_i candidates hcand
      cases h
      exact ⟨hrev, rows_insertCandidates hcand, rfl⟩

theorem persistRevision_ok {env : RequestEnv} {contextId op : String} {parent : Option String}
    {ordered : Scores} {pool : List ObservationRecord} {rev : SearchRevision} {w w' : World}
    (h : (persistRevision env contextId parent op ordered pool).exec w = (.ok rev, w')) :
    rev = revisionRow env contextId parent op ordered pool ∧
    w.revisions.insert? rev = some w'.revisions ∧
    w'.candidates.rows = w.candidates.rows ++ candidateRows env.revisionId ordered ∧
    w'.store = w.store := by
  unfold persistRevision at h
  obtain ⟨_, w₁, hcreate, h⟩ := bind_ok h
  obtain ⟨rfl, rfl⟩ := pure_ok h
  exact ⟨rfl, createRevision_ok hcreate⟩

theorem activeContext_ok {cfg : SearchConfig} {env : RequestEnv} {scope : AuthorizedScope}
    {contextId : String} {c : SearchContext} {w w' : World}
    (h : (activeContext cfg env scope contextId).exec w = (.ok c, w')) :
    w.contexts.get? contextId = some c ∧ w' = w := by
  unfold activeContext at h
  replace h := get_bind_ok h
  split at h
  · cases h
  · rename_i c' hc
    split at h
    · cases h
    · split at h
      · obtain ⟨_, _, -, h⟩ := bind_ok h
        cases h
      · split at h
        · cases h
        · split at h
          · obtain ⟨_, _, -, h⟩ := bind_ok h
            cases h
          · split at h
            · obtain ⟨_, _, -, h⟩ := bind_ok h
              cases h
            · obtain ⟨rfl, rfl⟩ := pure_ok h
              exact ⟨hc, rfl⟩

theorem baseRevision_ok {contextId revisionId : String} {base : SearchRevision} {w w' : World}
    (h : (baseRevision contextId revisionId).exec w = (.ok base, w')) :
    w.revisions.get? revisionId = some base ∧ w' = w := by
  unfold baseRevision at h
  replace h := get_bind_ok h
  split at h
  · cases h
  · rename_i base' hbase
    split at h
    · cases h
    · obtain ⟨rfl, rfl⟩ := pure_ok h
      exact ⟨hbase, rfl⟩

theorem enforceRevisionLimit_ok {cfg : SearchConfig} {contextId : String} {w w' : World}
    {u : Unit} (h : (enforceRevisionLimit cfg contextId).exec w = (.ok u, w')) : w' = w := by
  unfold enforceRevisionLimit at h
  replace h := get_bind_ok h
  split at h
  · cases h
  · exact (pure_ok h).2.symm

/-! ## What the adapters return -/

theorem visible_of_filter {scope : AuthorizedScope} {w : World} {r : ObservationRecord}
    (hr : r ∈ w.store.active.rows) (hf : authorizedObservationFilter scope r = true) :
    Visible scope w r :=
  ⟨hr, (authorizedObservationFilter_iff scope r).mp hf⟩

theorem visible_of_mem_pool {eng : Engine} {w : World} {scope : AuthorizedScope}
    {req : StartRequest} {limit : ℤ} {r : ObservationRecord}
    (h : r ∈ authorizedCandidatePool eng w.store scope req limit) : Visible scope w r := by
  have hmem := List.mem_mergeSort.mp (mem_sqlLimit h)
  obtain ⟨hr, hf⟩ := List.mem_filter.mp hmem
  rw [Bool.and_eq_true] at hf
  exact visible_of_filter hr hf.1

theorem mem_getAuthorizedActiveByIds {w : World} {scope : AuthorizedScope} {ids : List String}
    {r : ObservationRecord} (h : r ∈ getAuthorizedActiveByIds w.store ids scope) :
    Visible scope w r ∧ r.recordId ∈ ids := by
  unfold getAuthorizedActiveByIds at h
  split at h
  · cases h
  · obtain ⟨hr, hf⟩ := List.mem_filter.mp h
    rw [Bool.and_eq_true] at hf
    exact ⟨visible_of_filter hr hf.2, of_decide_eq_true hf.1⟩

theorem mem_listCandidates {w : World} {revisionId : String} {limit : ℤ} {id : String}
    (h : id ∈ (listCandidates w revisionId limit).map SearchCandidate.recordId) :
    id ∈ candidateIds w revisionId := by
  obtain ⟨c, hc, rfl⟩ := List.mem_map.mp h
  exact List.mem_map_of_mem (List.mem_mergeSort.mp (mem_sqlLimit hc))

theorem mem_baseRecords {cfg : SearchConfig} {w : World} {scope : AuthorizedScope}
    {base : SearchRevision} {r : ObservationRecord} (h : r ∈ baseRecords cfg w scope base) :
    Visible scope w r ∧ r.recordId ∈ candidateIds w base.revisionId := by
  obtain ⟨hvis, hid⟩ := mem_getAuthorizedActiveByIds h
  exact ⟨hvis, mem_listCandidates hid⟩

theorem byId_eq_some {pool : List ObservationRecord} {rid : String} {r : ObservationRecord}
    (h : byId pool rid = some r) : r ∈ pool ∧ r.recordId = rid :=
  ⟨List.mem_of_find?_eq_some h, by simpa using List.find?_some h⟩

theorem toResults_shows {ordered : Scores} {pool : List ObservationRecord}
    {item : SearchResultItem} (h : item ∈ toResults ordered pool) :
    ∃ r ∈ pool, item.Shows r := by
  obtain ⟨p, -, hitem⟩ := List.mem_filterMap.mp h
  obtain ⟨r, hr, rfl⟩ := Option.map_eq_some_iff.mp hitem
  obtain ⟨hmem, hid⟩ := byId_eq_some hr
  exact ⟨r, hmem, hid.symm, rfl, rfl, rfl, rfl⟩

theorem mem_candidateRows {revisionId : String} {ordered : Scores} {c : SearchCandidate}
    (h : c ∈ candidateRows revisionId ordered) :
    c.revisionId = revisionId ∧ c.recordId ∈ ordered.map Prod.fst := by
  obtain ⟨p, hp, rfl⟩ := List.mem_map.mp h
  exact ⟨rfl, List.mem_map_of_mem (List.fst_mem_of_mem_zipIdx hp)⟩

theorem mem_applyRefineOp {eng : Engine} {cfg : SearchConfig} {w : World}
    {records : List ObservationRecord} {req : RefineRequest} {x : String}
    (h : x ∈ (applyRefineOp eng cfg w records req).map Prod.fst) :
    x ∈ records.map ObservationRecord.recordId := by
  have hfilter : ∀ p : ObservationRecord → Bool,
      x ∈ (records.filter p).map ObservationRecord.recordId →
      x ∈ records.map ObservationRecord.recordId := by
    intro p hx
    obtain ⟨r, hr, rfl⟩ := List.mem_map.mp hx
    exact List.mem_map_of_mem (List.mem_of_mem_filter hr)
  unfold applyRefineOp at h
  cases hop : req.op with
  | narrowByTags =>
      simp only [hop] at h
      split at h
      · exact mem_rank h
      · exact hfilter _ (mem_rank h)
  | filterByAnalysisScale =>
      simp only [hop] at h
      split at h
      · exact mem_rank h
      · exact hfilter _ (mem_rank h)
  | rerankCurrentCandidates =>
      simp only [hop] at h
      exact mem_rank (mem_applyCrossEncoder h)
  | searchStaticText =>
      simp only [hop] at h
      exact mem_rank h
  | searchDynamicText =>
      simp only [hop] at h
      exact mem_rank h
  | hybridSearchText =>
      simp only [hop] at h
      exact mem_rank h
  | applyRrfFusion =>
      simp only [hop] at h
      exact mem_rank h

/-! ## Start and refine -/

/-- What a request that stores a revision did: it ranked visible records of
`pool`, and stored the ranked ids. -/
structure Persisted (scope : AuthorizedScope) (w w' : World) (parent : Option String)
    (resp : SearchResponse) (rev : SearchRevision) (ordered : Scores)
    (pool : List ObservationRecord) : Prop where
  visible : ∀ r ∈ pool, Visible scope w r
  ranked : ∀ x ∈ ordered.map Prod.fst, x ∈ pool.map ObservationRecord.recordId
  parent : rev.parentRevisionId = parent
  facets : rev.facets = buildFacets (ordered.filterMap fun p => byId pool p.1)
  inserted : w.revisions.insert? rev = some w'.revisions
  candidates : w'.candidates.rows = w.candidates.rows ++ candidateRows rev.revisionId ordered
  store : w'.store = w.store
  revisionId : resp.revisionId = rev.revisionId
  respFacets : resp.facets = rev.facets
  results : resp.results = toResults ordered pool

theorem mem_sliceTo_keys {n : ℤ} {l : Scores} {x : String}
    (h : x ∈ (sliceTo n l).map Prod.fst) : x ∈ l.map Prod.fst := by
  obtain ⟨p, hp, rfl⟩ := List.mem_map.mp h
  exact List.mem_map_of_mem (mem_of_mem_sliceTo hp)

/-- What a request that ranked `ordered` of `pool` stores and answers. -/
structure Stores (env : RequestEnv) (contextId : String) (parent : Option String) (op : String)
    (ordered : Scores) (pool : List ObservationRecord) (w w' : World) (resp : SearchResponse) :
    Prop where
  answer : resp = respond contextId (revisionRow env contextId parent op ordered pool)
    (toResults ordered pool)
  inserted : w.revisions.insert? (revisionRow env contextId parent op ordered pool)
    = some w'.revisions
  candidates : w'.candidates.rows = w.candidates.rows ++ candidateRows env.revisionId ordered
  store : w'.store = w.store

/-- The steps of a start request that is answered. -/
theorem startSearch_steps {eng : Engine} {cfg : SearchConfig} {env : RequestEnv}
    {scope : AuthorizedScope} {sessionId : Option String} {req : StartRequest}
    {resp : SearchResponse} {w w' : World}
    (h : (startSearch eng cfg env scope sessionId req).exec w = (.ok resp, w')) :
    Capability.observationSearch ∈ scope.capabilities ∧ ∃ w₁ w₂ w₃ rev,
      let pool := authorizedCandidatePool eng w.store scope req cfg.maxCandidatesPerRevision
      let ordered := startRanking eng cfg w req pool
      (createContext (newContext cfg env scope sessionId)).exec w = (.ok (), w₁) ∧
      (persistRevision env env.contextId none "start" ordered pool).exec w₁ = (.ok rev, w₂) ∧
      (replaceDefaultRevision env env.contextId rev.revisionId).exec w₂ = (.ok (), w₃) ∧
      (auditQuery scope env.contextId (toResults ordered pool)).exec w₃ = (.ok (), w') ∧
      resp = respond env.contextId rev (toResults ordered pool) := by
  unfold startSearch at h
  obtain ⟨_, w₁, hcap, h⟩ := bind_ok h
  refine ⟨capable_of_requireCapability hcap, ?_⟩
  rw [requireCapability_ok hcap] at h
  split at h
  · obtain ⟨_, _, hthrow, -⟩ := bind_ok h
    cases hthrow
  replace h := get_bind_ok h
  obtain ⟨_, w₃, hctx, h⟩ := bind_ok h
  obtain ⟨rev, w₄, hrev, h⟩ := bind_ok h
  obtain ⟨_, w₅, hdef, h⟩ := bind_ok h
  obtain ⟨_, w₆, haudit, h⟩ := bind_ok h
  obtain ⟨rfl, rfl⟩ := pure_ok h
  exact ⟨w₃, w₄, w₅, rev, hctx, hrev, hdef, haudit, rfl⟩

/-- The steps of a refine request that is answered. -/
theorem refineSearch_steps {eng : Engine} {cfg : SearchConfig} {env : RequestEnv}
    {scope : AuthorizedScope} {contextId : String} {req : RefineRequest}
    {resp : SearchResponse} {w w' : World}
    (h : (refineSearch eng cfg env scope contextId req).exec w = (.ok resp, w')) :
    Capability.observationSearch ∈ scope.capabilities ∧ ∃ c base w₁ w₂ rev,
      let records := baseRecords cfg w scope base
      let ordered := sliceTo (req.topK cfg.maxTopK) (applyRefineOp eng cfg w records req)
      (activeContext cfg env scope contextId).exec w = (.ok c, w) ∧
      w.revisions.get? req.baseRevisionId = some base ∧
      (persistRevision env contextId (some base.revisionId) req.op.value ordered records).exec w
        = (.ok rev, w₁) ∧
      (replaceDefaultRevision env contextId rev.revisionId).exec w₁ = (.ok (), w₂) ∧
      (auditQuery scope contextId (toResults ordered records)).exec w₂ = (.ok (), w') ∧
      resp = respond contextId rev (toResults ordered records) := by
  unfold refineSearch at h
  obtain ⟨_, w₁, hcap, h⟩ := bind_ok h
  refine ⟨capable_of_requireCapability hcap, ?_⟩
  rw [requireCapability_ok hcap] at h
  obtain ⟨c, w₂, hactive, h⟩ := bind_ok h
  have hgate := (activeContext_ok hactive).2
  rw [hgate] at hactive h
  obtain ⟨base, w₃, hbase, h⟩ := bind_ok h
  obtain ⟨hstored, hread⟩ := baseRevision_ok hbase
  rw [hread] at h
  replace h := get_bind_ok h
  obtain ⟨_, w₅, hlimit, h⟩ := bind_ok h
  rw [enforceRevisionLimit_ok hlimit] at h
  obtain ⟨rev, w₆, hrev, h⟩ := bind_ok h
  obtain ⟨_, w₇, hdef, h⟩ := bind_ok h
  obtain ⟨_, w₈, haudit, h⟩ := bind_ok h
  obtain ⟨rfl, rfl⟩ := pure_ok h
  exact ⟨c, base, w₆, w₇, rev, hactive, hstored, hrev, hdef, haudit, rfl⟩

theorem startSearch_stores {eng : Engine} {cfg : SearchConfig} {env : RequestEnv}
    {scope : AuthorizedScope} {sessionId : Option String} {req : StartRequest}
    {resp : SearchResponse} {w w' : World}
    (h : (startSearch eng cfg env scope sessionId req).exec w = (.ok resp, w')) :
    Stores env env.contextId none "start"
      (startRanking eng cfg w req
        (authorizedCandidatePool eng w.store scope req cfg.maxCandidatesPerRevision))
      (authorizedCandidatePool eng w.store scope req cfg.maxCandidatesPerRevision) w w' resp := by
  obtain ⟨-, w₁, w₂, w₃, rev, hctx, hrev, hdef, haudit, rfl⟩ := startSearch_steps h
  obtain ⟨rfl, hins, hcand, hstore⟩ := persistRevision_ok hrev
  have hctx := createContext_ok hctx
  have hdef := replaceDefaultRevision_ok hdef
  have haudit := appendEvent_ok haudit
  refine ⟨rfl, ?_, ?_, ?_⟩
  · rw [← hctx.revisions, haudit.revisions, hdef.revisions]
    exact hins
  · rw [haudit.candidates, hdef.candidates, hcand, hctx.candidates]
  · rw [haudit.store, hdef.store, hstore, hctx.store]

theorem refineSearch_stores {eng : Engine} {cfg : SearchConfig} {env : RequestEnv}
    {scope : AuthorizedScope} {contextId : String} {req : RefineRequest}
    {resp : SearchResponse} {w w' : World}
    (h : (refineSearch eng cfg env scope contextId req).exec w = (.ok resp, w')) :
    ∃ base, w.revisions.get? req.baseRevisionId = some base ∧
      Stores env contextId (some base.revisionId) req.op.value
        (sliceTo (req.topK cfg.maxTopK)
          (applyRefineOp eng cfg w (baseRecords cfg w scope base) req))
        (baseRecords cfg w scope base) w w' resp := by
  obtain ⟨-, c, base, w₁, w₂, rev, -, hbase, hrev, hdef, haudit, rfl⟩ := refineSearch_steps h
  obtain ⟨rfl, hins, hcand, hstore⟩ := persistRevision_ok hrev
  have hdef := replaceDefaultRevision_ok hdef
  have haudit := appendEvent_ok haudit
  refine ⟨base, hbase, rfl, ?_, ?_, ?_⟩
  · rw [haudit.revisions, hdef.revisions]
    exact hins
  · rw [haudit.candidates, hdef.candidates, hcand]
  · rw [haudit.store, hdef.store, hstore]

theorem Stores.persisted {env : RequestEnv} {scope : AuthorizedScope} {contextId op : String}
    {parent : Option String} {ordered : Scores} {pool : List ObservationRecord} {w w' : World}
    {resp : SearchResponse} (h : Stores env contextId parent op ordered pool w w' resp)
    (hvisible : ∀ r ∈ pool, Visible scope w r)
    (hranked : ∀ x ∈ ordered.map Prod.fst, x ∈ pool.map ObservationRecord.recordId) :
    Persisted scope w w' parent resp (revisionRow env contextId parent op ordered pool) ordered
      pool := by
  obtain ⟨rfl, hins, hcand, hstore⟩ := h
  exact ⟨hvisible, hranked, rfl, rfl, hins, hcand, hstore, rfl, rfl, rfl⟩

theorem startSearch_ok {eng : Engine} {cfg : SearchConfig} {env : RequestEnv}
    {scope : AuthorizedScope} {sessionId : Option String} {req : StartRequest}
    {resp : SearchResponse} {w w' : World}
    (h : (startSearch eng cfg env scope sessionId req).exec w = (.ok resp, w')) :
    ∃ rev ordered pool, Persisted scope w w' none resp rev ordered pool :=
  ⟨_, _, _, (startSearch_stores h).persisted (fun _ hr => visible_of_mem_pool hr)
    fun _ hx => mem_rank (mem_sliceTo_keys hx)⟩

theorem refineSearch_ok {eng : Engine} {cfg : SearchConfig} {env : RequestEnv}
    {scope : AuthorizedScope} {contextId : String} {req : RefineRequest}
    {resp : SearchResponse} {w w' : World}
    (h : (refineSearch eng cfg env scope contextId req).exec w = (.ok resp, w')) :
    ∃ base rev ordered pool, Persisted scope w w' (some base) resp rev ordered pool ∧
      ∀ r ∈ pool, r.recordId ∈ candidateIds w base := by
  obtain ⟨base, -, hstores⟩ := refineSearch_stores h
  exact ⟨base.revisionId, _, _, _, hstores.persisted (fun _ hr => (mem_baseRecords hr).1)
    fun _ hx => mem_applyRefineOp (mem_sliceTo_keys hx), fun _ hr => (mem_baseRecords hr).2⟩

section Persisted

variable {scope : AuthorizedScope} {w w' : World} {parent : Option String}
  {resp : SearchResponse} {rev : SearchRevision} {ordered : Scores}
  {pool : List ObservationRecord}

theorem Persisted.candidateIds_new (hp : Persisted scope w w' parent resp rev ordered pool)
    (hn : Narrowing w) {id : String} (h : id ∈ candidateIds w' rev.revisionId) :
    id ∈ pool.map ObservationRecord.recordId := by
  obtain ⟨c, hc, rfl⟩ := List.mem_map.mp h
  obtain ⟨hmem, hrev⟩ := List.mem_filter.mp hc
  rw [hp.candidates, List.mem_append] at hmem
  rcases hmem with hold | hnew
  · -- an old candidate would belong to a revision stored before
    have hfresh := (Table.insert?_eq_some_iff.mp hp.inserted).1
    have howned := hn.owned c hold
    rw [of_decide_eq_true hrev, hfresh] at howned
    exact absurd rfl howned
  · exact hp.ranked _ (mem_candidateRows hnew).2

theorem Persisted.candidateIds_old (hp : Persisted scope w w' parent resp rev ordered pool)
    {revisionId id : String} (hne : revisionId ≠ rev.revisionId) :
    id ∈ candidateIds w' revisionId ↔ id ∈ candidateIds w revisionId := by
  have hnil : (candidateRows rev.revisionId ordered).filter
      (fun c => decide (c.revisionId = revisionId)) = [] := by
    refine List.filter_eq_nil_iff.mpr fun c hc => ?_
    rw [(mem_candidateRows hc).1]
    simpa using Ne.symm hne
  unfold candidateIds
  rw [hp.candidates, List.filter_append, hnil, List.append_nil]

theorem Persisted.candidateIds_mono (hp : Persisted scope w w' parent resp rev ordered pool)
    {revisionId id : String} (h : id ∈ candidateIds w revisionId) :
    id ∈ candidateIds w' revisionId := by
  unfold candidateIds at h ⊢
  rw [hp.candidates, List.filter_append, List.map_append]
  exact List.mem_append_left _ h

theorem Persisted.confined (hp : Persisted scope w w' parent resp rev ordered pool)
    (hn : Narrowing w) : Confined scope w w' (.search resp) := by
  refine ⟨?_, ?_, ?_⟩
  · intro item hitem
    rw [hp.results] at hitem
    obtain ⟨r, hr, hshows⟩ := toResults_shows hitem
    exact ⟨r, hp.visible r hr, hshows⟩
  · intro id hid
    rw [hp.revisionId] at hid
    obtain ⟨r, hr, hrid⟩ := List.mem_map.mp (hp.candidateIds_new hn hid)
    exact ⟨r, hp.visible r hr, hrid⟩
  · refine ⟨_, hp.respFacets.trans hp.facets, ?_⟩
    intro r hr
    obtain ⟨p, -, hbyId⟩ := List.mem_filterMap.mp hr
    exact hp.visible r (byId_eq_some hbyId).1

theorem Persisted.narrowing (hp : Persisted scope w w' parent resp rev ordered pool)
    (hn : Narrowing w)
    (hbase : ∀ base, parent = some base → ∀ r ∈ pool, r.recordId ∈ candidateIds w base) :
    Narrowing w' := by
  obtain ⟨hfresh, hrows⟩ := Table.insert?_eq_some_iff.mp hp.inserted
  refine ⟨?_, ?_⟩
  · intro rev' hrev' base hparent id hid
    rw [hrows, List.mem_append, List.mem_singleton] at hrev'
    rcases hrev' with hold | rfl
    · have hne : rev'.revisionId ≠ rev.revisionId := by
        intro he
        exact Table.get?_eq_none_iff.mp hfresh rev' hold he
      rw [hp.candidateIds_old hne] at hid
      exact hp.candidateIds_mono (hn.narrows rev' hold base hparent id hid)
    · obtain ⟨r, hr, rfl⟩ := List.mem_map.mp (hp.candidateIds_new hn hid)
      exact hp.candidateIds_mono (hbase base (hp.parent.symm.trans hparent) r hr)
  · intro c hc
    rw [hp.candidates, List.mem_append] at hc
    rw [Table.get?_insert? hp.inserted]
    rcases hc with hold | hnew
    · split
      · simp
      · exact hn.owned c hold
    · rw [if_pos (mem_candidateRows hnew).1.symm]
      simp

end Persisted

theorem Narrowing.of_sameData {w w' : World} (hn : Narrowing w) (hs : SameData w w') :
    Narrowing w' := by
  have hids : ∀ revisionId, candidateIds w' revisionId = candidateIds w revisionId := by
    intro revisionId
    unfold candidateIds
    rw [hs.candidates]
  refine ⟨?_, ?_⟩
  · intro rev hrev base hparent id hid
    rw [hids] at hid ⊢
    exact hn.narrows rev (hs.revisions ▸ hrev) base hparent id hid
  · intro c hc
    rw [hs.revisions]
    exact hn.owned c (hs.candidates ▸ hc)

/-! ## Details, facets, close -/

theorem buildLocator_ok {env : RequestEnv} {scope : AuthorizedScope} {r : ObservationRecord}
    {l : Option LocatorProjection} {w w' : World}
    (h : (buildLocator env scope r).exec w = (.ok l, w')) :
    SameData w w' ∧ ∀ p, l = some p → p.videoId = r.videoId ∧ p.cameraId = r.cameraId := by
  unfold buildLocator at h
  replace h := get_bind_ok h
  split at h
  · obtain ⟨rfl, rfl⟩ := pure_ok h
    exact ⟨SameData.refl _, fun p hp => by cases hp⟩
  · obtain ⟨_, w₂, haudit, h⟩ := bind_ok h
    obtain ⟨rfl, rfl⟩ := pure_ok h
    refine ⟨appendEvent_ok haudit, ?_⟩
    rintro p ⟨⟩
    exact ⟨rfl, rfl⟩

theorem detailsItem_ok {env : RequestEnv} {scope : AuthorizedScope} {includeLocator : Bool}
    {r : ObservationRecord} {item : DetailsItem} {w w' : World}
    (h : (detailsItem env scope includeLocator r).exec w = (.ok item, w')) :
    SameData w w' ∧ item.Shows r := by
  unfold detailsItem at h
  obtain ⟨l, w₁, hloc, h⟩ := bind_ok h
  obtain ⟨rfl, rfl⟩ := pure_ok h
  unfold locatorFor at hloc
  split at hloc
  · obtain ⟨hsame, hl⟩ := buildLocator_ok hloc
    exact ⟨hsame, rfl, rfl, rfl, rfl, rfl, rfl, rfl, rfl, hl⟩
  · obtain ⟨rfl, rfl⟩ := pure_ok hloc
    exact ⟨SameData.refl _, rfl, rfl, rfl, rfl, rfl, rfl, rfl, rfl, fun l hl => by cases hl⟩

theorem SameData.trans {w₁ w₂ w₃ : World} (h : SameData w₁ w₂) (h' : SameData w₂ w₃) :
    SameData w₁ w₃ :=
  ⟨h'.store.trans h.store, h'.revisions.trans h.revisions, h'.candidates.trans h.candidates⟩

theorem detailsItems_ok {env : RequestEnv} {scope : AuthorizedScope} {includeLocator : Bool}
    {rs : List ObservationRecord} {items : List DetailsItem} {w w' : World}
    (h : (detailsItems env scope includeLocator rs).exec w = (.ok items, w')) :
    SameData w w' ∧ ∀ item ∈ items, ∃ r ∈ rs, item.Shows r := by
  induction rs generalizing items w with
  | nil =>
      obtain ⟨rfl, rfl⟩ := pure_ok h
      exact ⟨SameData.refl _, fun item hitem => by cases hitem⟩
  | cons r rs ih =>
      obtain ⟨item, w₁, hitem, h⟩ := bind_ok h
      obtain ⟨rest, w₂, hrest, h⟩ := bind_ok h
      obtain ⟨rfl, rfl⟩ := pure_ok h
      obtain ⟨hsame, hshows⟩ := detailsItem_ok hitem
      obtain ⟨hsame', hshows'⟩ := ih hrest
      refine ⟨hsame.trans hsame', ?_⟩
      intro x hx
      rcases List.mem_cons.mp hx with rfl | hx
      · exact ⟨r, List.mem_cons_self, hshows⟩
      · obtain ⟨r', hr', hs⟩ := hshows' x hx
        exact ⟨r', List.mem_cons_of_mem _ hr', hs⟩

/-- The steps of a details request that is answered. -/
theorem getDetails_steps {env : RequestEnv} {scope : AuthorizedScope} {ids : List String}
    {includeLocator : Bool} {items : List DetailsItem} {w w' : World}
    (h : (getDetails env scope ids includeLocator).exec w = (.ok items, w')) :
    ∃ w₁ event, (detailsItems env scope includeLocator
        (getAuthorizedActiveByIds w.store ids scope)).exec w = (.ok items, w₁) ∧
      (appendEvent event).exec w₁ = (.ok (), w') := by
  unfold getDetails at h
  obtain ⟨_, w₁, hcap, h⟩ := bind_ok h
  rw [requireCapability_ok hcap] at h
  split at h
  · obtain ⟨_, _, hthrow, -⟩ := bind_ok h
    cases hthrow
  replace h := get_bind_ok h
  obtain ⟨items', w₃, hitems, h⟩ := bind_ok h
  obtain ⟨_, w₄, haudit, h⟩ := bind_ok h
  obtain ⟨rfl, rfl⟩ := pure_ok h
  exact ⟨w₃, _, hitems, haudit⟩

theorem getDetails_ok {env : RequestEnv} {scope : AuthorizedScope} {ids : List String}
    {includeLocator : Bool} {items : List DetailsItem} {w w' : World}
    (h : (getDetails env scope ids includeLocator).exec w = (.ok items, w')) :
    SameData w w' ∧ ∀ item ∈ items, ∃ r, Visible scope w r ∧ item.Shows r := by
  obtain ⟨w₁, event, hitems, haudit⟩ := getDetails_steps h
  obtain ⟨hsame, hshows⟩ := detailsItems_ok hitems
  refine ⟨hsame.trans (appendEvent_ok haudit), ?_⟩
  intro item hitem
  obtain ⟨r, hr, hs⟩ := hshows item hitem
  exact ⟨r, (mem_getAuthorizedActiveByIds hr).1, hs⟩

theorem facets_ok {cfg : SearchConfig} {env : RequestEnv} {scope : AuthorizedScope}
    {contextId : String} {f : Facets} {w w' : World}
    (h : (facets cfg env scope contextId).exec w = (.ok f, w')) :
    w' = w ∧ FacetsConfined scope w f := by
  unfold facets at h
  obtain ⟨_, w₁, hcap, h⟩ := bind_ok h
  rw [requireCapability_ok hcap] at h
  obtain ⟨context, w₂, hactive, h⟩ := bind_ok h
  rw [(activeContext_ok hactive).2] at h
  split at h
  · obtain ⟨rfl, rfl⟩ := pure_ok h
    exact ⟨rfl, [], rfl, fun r hr => by cases hr⟩
  · replace h := get_bind_ok h
    obtain ⟨rfl, rfl⟩ := pure_ok h
    exact ⟨rfl, _, rfl, fun r hr => (mem_getAuthorizedActiveByIds hr).1⟩

theorem closeRequest_ok {scope : AuthorizedScope} {contextId : String} {w w' : World} {u : Unit}
    (h : (closeRequest scope contextId).exec w = (.ok u, w')) : SameData w w' := by
  unfold closeRequest at h
  replace h := get_bind_ok h
  split at h
  · cases h
  · split at h
    · cases h
    · exact closeContext_ok h

/-! ## One request -/

theorem inSession_ok {α : Type} {x : Session α} {a : α} {w w' : World}
    (h : inSession x w = (.ok a, w')) : x.exec w = (.ok a, w') := by
  unfold inSession at h
  split at h
  · rename_i hx
    rw [hx, h]
  · cases h

/-- A request that is answered shows and stores visible records only, and
keeps the revisions narrowing. -/
theorem serve_ok {eng : Engine} {cfg : SearchConfig} {env : RequestEnv}
    {scope : AuthorizedScope} {req : Request} {resp : Response} {w w' : World}
    (hn : Narrowing w) (h : (serve eng cfg env scope req).exec w = (.ok resp, w')) :
    Confined scope w w' resp ∧ Narrowing w' := by
  cases req with
  | start sessionId req =>
      obtain ⟨r, w₁, hstart, h⟩ := bind_ok h
      obtain ⟨rfl, rfl⟩ := pure_ok h
      obtain ⟨rev, ordered, pool, hp⟩ := startSearch_ok hstart
      exact ⟨hp.confined hn, hp.narrowing hn fun base hbase => by cases hbase⟩
  | refine contextId req =>
      obtain ⟨r, w₁, hrefine, h⟩ := bind_ok h
      obtain ⟨rfl, rfl⟩ := pure_ok h
      obtain ⟨base, rev, ordered, pool, hp, hids⟩ := refineSearch_ok hrefine
      refine ⟨hp.confined hn, hp.narrowing hn ?_⟩
      rintro _ ⟨⟩
      exact hids
  | facets contextId =>
      obtain ⟨f, w₁, hf, h⟩ := bind_ok h
      obtain ⟨rfl, rfl⟩ := pure_ok h
      obtain ⟨rfl, hconf⟩ := facets_ok hf
      exact ⟨hconf, hn⟩
  | close contextId =>
      obtain ⟨_, w₁, hclose, h⟩ := bind_ok h
      obtain ⟨rfl, rfl⟩ := pure_ok h
      exact ⟨trivial, hn.of_sameData (closeRequest_ok hclose)⟩
  | details ids includeLocator =>
      obtain ⟨items, w₁, hd, h⟩ := bind_ok h
      obtain ⟨rfl, rfl⟩ := pure_ok h
      obtain ⟨hsame, hshows⟩ := getDetails_ok hd
      exact ⟨hshows, hn.of_sameData hsame⟩

section Runs

variable (eng : Engine) (digest : ScopePayload → String) (cfg : SearchConfig)

theorem handle_confined {env : RequestEnv} {principalId : String} {req : Request}
    {scope : AuthorizedScope} {resp : Response} {w w' : World} (hn : Narrowing w)
    (hscope : scopeFor digest w principalId = .ok scope)
    (h : handle eng digest cfg env principalId req w = (.ok resp, w')) :
    Confined scope w w' resp := by
  unfold handle at h
  rw [hscope] at h
  exact (serve_ok hn (inSession_ok h)).1

theorem Narrowing.handle {env : RequestEnv} {principalId : String} {req : Request} {w : World}
    (hn : Narrowing w) : Narrowing (handle eng digest cfg env principalId req w).2 := by
  unfold Search.handle
  split
  · exact hn
  · rename_i scope hscope
    cases hs : inSession (serve eng cfg env scope req) w with
    | mk res w' =>
        cases res with
        | ok resp => exact (serve_ok hn (inSession_ok hs)).2
        | error e =>
            unfold inSession at hs
            split at hs <;> cases hs
            exact hn

theorem Narrowing.step {w : World} (hn : Narrowing w) (e : Event) :
    Narrowing (step eng digest cfg w e) := by
  cases e with
  | request env principalId req => exact hn.handle eng digest cfg
  | publish env cmd => exact ⟨hn.narrows, hn.owned⟩
  | setPrincipals t => exact ⟨hn.narrows, hn.owned⟩
  | setPolicies t => exact ⟨hn.narrows, hn.owned⟩
  | setLocations t => exact ⟨hn.narrows, hn.owned⟩
  | setCameras t => exact ⟨hn.narrows, hn.owned⟩
  | setVectors vectors => exact ⟨hn.narrows, hn.owned⟩

theorem Narrowing.run {w : World} (hn : Narrowing w) (events : List Event) :
    Narrowing (run eng digest cfg events w) := by
  induction events generalizing w with
  | nil => exact hn
  | cons e events ih => exact ih (hn.step eng digest cfg e)

end Runs

/-- A database before the first search: any records, principals, policies,
locations, cameras and vectors, and no search tables. -/
def World.beforeSearch (store : ObservationStore) (vectors : List StoredVector)
    (principals : Table Principal Principal.principalId)
    (policies : Table AccessPolicy AccessPolicy.accessPolicyId)
    (locations : Table CameraLocation CameraLocation.locationId)
    (cameras : Table CameraDevice CameraDevice.cameraId) : World where
  store := store
  vectors := vectors
  principals := principals
  policies := policies
  locations := locations
  cameras := cameras
  contexts := Table.empty
  revisions := Table.empty
  candidates := Table.empty
  audit := []

theorem narrowing_beforeSearch (store : ObservationStore) (vectors : List StoredVector)
    (principals : Table Principal Principal.principalId)
    (policies : Table AccessPolicy AccessPolicy.accessPolicyId)
    (locations : Table CameraLocation CameraLocation.locationId)
    (cameras : Table CameraDevice CameraDevice.cameraId) :
    Narrowing (World.beforeSearch store vectors principals policies locations cameras) :=
  ⟨fun rev hrev => (by cases hrev), fun c hc => (by cases hc)⟩

/-- After any sequence of requests, publications and changes of policy, every
request that is answered shows, counts and stores only records that are active
and permitted by the scope computed for it then; and the candidates of every
refined revision are candidates of its base. -/
theorem search_confined (eng : Engine) (digest : ScopePayload → String) (cfg : SearchConfig)
    (store : ObservationStore) (vectors : List StoredVector)
    (principals : Table Principal Principal.principalId)
    (policies : Table AccessPolicy AccessPolicy.accessPolicyId)
    (locations : Table CameraLocation CameraLocation.locationId)
    (cameras : Table CameraDevice CameraDevice.cameraId) (events : List Event) :
    let w := run eng digest cfg events
      (World.beforeSearch store vectors principals policies locations cameras)
    (∀ env principalId req, match handle eng digest cfg env principalId req w with
      | (.ok resp, w') =>
          ∃ scope, scopeFor digest w principalId = .ok scope ∧ Confined scope w w' resp
      | (.error _, w') => w' = w) ∧
    (∀ rev ∈ w.revisions.rows, ∀ base, rev.parentRevisionId = some base →
      ∀ id ∈ candidateIds w rev.revisionId, id ∈ candidateIds w base) := by
  intro w
  have hinit := narrowing_beforeSearch store vectors principals policies locations cameras
  have hn : Narrowing w := hinit.run eng digest cfg events
  refine ⟨?_, hn.narrows⟩
  intro env principalId req
  cases hreq : handle eng digest cfg env principalId req w with
  | mk res w' =>
      cases res with
      | ok resp =>
          cases hscope : scopeFor digest w principalId with
          | error e =>
              unfold handle at hreq
              rw [hscope] at hreq
              cases hreq
          | ok scope => exact ⟨scope, rfl, handle_confined eng digest cfg hn hscope hreq⟩
      | error e =>
          show w' = w
          unfold handle at hreq
          split at hreq
          · cases hreq
            rfl
          · unfold inSession at hreq
            split at hreq <;> cases hreq
            rfl

end CctvMemory.Search
