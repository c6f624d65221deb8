import CctvMemory.Authorization.Scope
import CctvMemory.Search.Ranking

/-!
# Search requests

`SearchService` (start, refine, facets, close), `LocatorService.get_details`
and the read adapters under them, over one database `World`. A request runs in
one session: it resolves its principal, computes the scope from the policies,
locations and cameras stored at that moment, and its writes are kept only when
it returns (`Runtime.session`).
-/

namespace CctvMemory.Search

open Keyed (Table)
open CctvMemory.Publication (ObservationRecord ObservationStore PublishEnv PublishCommand)
open CctvMemory.Authorization

/-! ## Stored rows -/

inductive ContextStatus where
  | active
  | closed
  | expired
deriving DecidableEq, Repr

structure SearchContext where
  contextId : String
  tenantId : String
  principalId : String
  sessionId : Option String
  authorizedScopeHash : String
  defaultRevisionId : Option String
  createdAt : ℤ
  lastAccessedAt : ℤ
  expiresAt : ℤ
  status : ContextStatus
deriving DecidableEq

/-- `_build_facets` output. -/
structure Facets where
  candidateCount : ℕ
  topTags : List (String × ℕ)
  cameraDistribution : List (String × ℕ)
  locationDistribution : List (String × ℕ)
  timeDistribution : List (Iso.Text × ℕ)
  analysisScaleDistribution : List (AnalysisScale × ℕ)
deriving DecidableEq

structure SearchRevision where
  revisionId : String
  contextId : String
  parentRevisionId : Option String
  op : String
  candidateCount : ℕ
  facets : Facets
deriving DecidableEq

structure SearchCandidate where
  revisionId : String
  recordId : String
  rank : ℕ
  score : ℚ
deriving DecidableEq

def SearchCandidate.key (c : SearchCandidate) : String × String := (c.revisionId, c.recordId)

structure QueryAudit where
  eventType : String
  principalId : String
  contextId : Option String
  resourceScopeHash : String
  recordIds : List String
deriving DecidableEq

/-- The database as the search side sees it. -/
structure World where
  store : ObservationStore
  vectors : List StoredVector
  principals : Table Principal Principal.principalId
  policies : Table AccessPolicy AccessPolicy.accessPolicyId
  locations : Table CameraLocation CameraLocation.locationId
  cameras : Table CameraDevice CameraDevice.cameraId
  contexts : Table SearchContext SearchContext.contextId
  revisions : Table SearchRevision SearchRevision.revisionId
  candidates : Table SearchCandidate SearchCandidate.key
  audit : List QueryAudit

/-! ## Sessions -/

inductive ErrorKind where
  | principalNotFound
  | authorization
  | capabilityDenied
  | limitExceeded
  | notFound
  | contextExpired
  | conflict
  | integrity
deriving DecidableEq, Repr

structure ServiceError where
  kind : ErrorKind
  message : String
deriving DecidableEq, Repr

/-- Steps of an open session: a raised error leaves its writes behind. -/
abbrev Session (α : Type) := ExceptT ServiceError (StateM World) α

def Session.exec {α : Type} (x : Session α) (w : World) : Except ServiceError α × World :=
  x.run w

/-- `Runtime.session`: commit on success, roll back on a raised error. -/
def inSession {α : Type} (x : Session α) (w : World) : Except ServiceError α × World :=
  match x.exec w with
  | (.ok a, w') => (.ok a, w')
  | (.error e, _) => (.error e, w)

/-- The clock of a request and the ids it draws. -/
structure RequestEnv where
  now : ℤ
  contextId : String
  revisionId : String
  playbackToken : String → String

/-! ## Text columns -/

def hexDigit (n : ℕ) : Char :=
  if n < 10 then Char.ofNat (48 + n) else Char.ofNat (87 + n)

def unicodeEscape (n : ℕ) : List Char :=
  [Char.ofNat 92, 'u', hexDigit (n / 4096 % 16), hexDigit (n / 256 % 16),
   hexDigit (n / 16 % 16), hexDigit (n % 16)]

/-- One character inside a JSON string, as `json.dumps` writes it (ASCII only,
surrogate pairs above the basic plane). -/
def jsonChar (c : Char) : List Char :=
  let n := c.toNat
  let escaped (d : Char) := [Char.ofNat 92, d]
  if n = 34 then escaped (Char.ofNat 34)
  else if n = 92 then escaped (Char.ofNat 92)
  else if n = 10 then escaped 'n'
  else if n = 13 then escaped 'r'
  else if n = 9 then escaped 't'
  else if n = 12 then escaped 'f'
  else if n = 8 then escaped 'b'
  else if 32 ≤ n ∧ n ≤ 126 then [c]
  else if n < 65536 then unicodeEscape n
  else unicodeEscape (55296 + (n - 65536) / 1024) ++ unicodeEscape (56320 + (n - 65536) % 1024)

def jsonString (s : String) : List Char :=
  [Char.ofNat 34] ++ s.toList.flatMap jsonChar ++ [Char.ofNat 34]

/-- `json.dumps(tags)`, the `tags_json` column. -/
def tagsJson (tags : List String) : List Char :=
  ['['] ++ [',', ' '].intercalate (tags.map jsonString) ++ [']']

/-- SQL `LIKE`: `%` any run, `_` any character, ASCII letters without case. -/
def likeMatch : List Char → List Char → Bool
  | [], text => text.isEmpty
  | p :: pattern, text =>
      if p = '%' then text.tails.any (likeMatch pattern)
      else match text with
        | [] => false
        | c :: text =>
            (decide (p = '_') || decide (p.toLower = c.toLower)) && likeMatch pattern text

/-- `lower(tags_json) LIKE '%tag%'`; SQL `lower` only folds ASCII. -/
def tagLike (eng : Engine) (tag : String) (r : ObservationRecord) : Bool :=
  likeMatch (['%'] ++ (eng.lower tag).toList ++ ['%']) ((tagsJson r.tags).map Char.toLower)

/-! ## Read adapters -/

/-- `LIMIT n`: a negative bound is no limit. -/
def sqlLimit {α : Type} (n : ℤ) (rows : List α) : List α :=
  if n < 0 then rows else rows.take n.toNat

theorem mem_sqlLimit {α : Type} {n : ℤ} {rows : List α} {a : α} (h : a ∈ sqlLimit n rows) :
    a ∈ rows := by
  unfold sqlLimit at h
  split at h
  · exact h
  · exact List.mem_of_mem_take h

structure StartRequest where
  queryText : Option String
  timeRange : Option (Iso.DateTime × Iso.DateTime)
  cameraIds : List String
  locationIds : List String
  videoIds : List String
  tagFilters : List String
  analysisScaleFilter : List AnalysisScale
  preferredAnalysisScales : List AnalysisScale
  searchMode : SearchMode
  topK : ℤ

/-- An optional `IN` filter: an empty list does not restrict. -/
def inFilter {α : Type} [DecidableEq α] (allowed : List α) (a : α) : Bool :=
  decide (allowed = []) || decide (a ∈ allowed)

def structuralFilter (eng : Engine) (req : StartRequest) (r : ObservationRecord) : Bool :=
  inFilter req.cameraIds r.cameraId &&
  inFilter req.locationIds r.locationId &&
  inFilter req.videoIds r.videoId &&
  inFilter req.analysisScaleFilter r.analysisScale &&
  (match req.timeRange with
    | none => true
    | some (start, stop) =>
        decide (Iso.isoformat start ≤ Iso.isoformat r.observedEndTime) &&
        decide (Iso.isoformat r.observedStartTime ≤ Iso.isoformat stop)) &&
  req.tagFilters.all fun tag => tagLike eng tag r

/-- `ORDER BY observed_start_time, record_id`, on the stored text. -/
def startTimeLe (a b : ObservationRecord) : Bool :=
  decide (Iso.isoformat a.observedStartTime < Iso.isoformat b.observedStartTime) ||
  (decide (Iso.isoformat a.observedStartTime = Iso.isoformat b.observedStartTime) &&
    decide (a.recordId ≤ b.recordId))

def authorizedCandidatePool (eng : Engine) (store : ObservationStore)
    (scope : AuthorizedScope) (req : StartRequest) (limit : ℤ) : List ObservationRecord :=
  sqlLimit limit ((store.active.rows.filter fun r =>
    authorizedObservationFilter scope r && structuralFilter eng req r).mergeSort startTimeLe)

def getAuthorizedActiveById (store : ObservationStore) (recordId : String)
    (scope : AuthorizedScope) : Option ObservationRecord :=
  store.active.rows.find? fun r =>
    decide (r.recordId = recordId) && authorizedObservationFilter scope r

def getAuthorizedActiveByIds (store : ObservationStore) (recordIds : List String)
    (scope : AuthorizedScope) : List ObservationRecord :=
  if recordIds = [] then []
  else store.active.rows.filter fun r =>
    decide (r.recordId ∈ recordIds) && authorizedObservationFilter scope r

def listCandidates (w : World) (revisionId : String) (limit : ℤ) : List SearchCandidate :=
  sqlLimit limit ((w.candidates.rows.filter fun c => decide (c.revisionId = revisionId)).mergeSort
    fun a b => decide (a.rank ≤ b.rank))

/-! ## Context writes -/

def createContext (context : SearchContext) : Session Unit := do
  let w ← get
  match w.contexts.insert? context with
  | none => throw ⟨.integrity, "UNIQUE constraint failed: search_contexts.context_id"⟩
  | some contexts => set { w with contexts := contexts }

def closeContext (contextId : String) : Session Unit :=
  modify fun w => { w with
    contexts := w.contexts.modify contextId (fun c => { c with status := .closed })
      fun _ => rfl }

def expireRow (now : ℤ) (c : SearchContext) : SearchContext :=
  if c.status = .active ∧ c.expiresAt < now then { c with status := .expired } else c

theorem contextId_expireRow (now : ℤ) (c : SearchContext) :
    (expireRow now c).contextId = c.contextId := by
  unfold expireRow
  split <;> rfl

def expireContexts (now : ℤ) : Session Unit :=
  modify fun w => { w with
    contexts := ⟨w.contexts.rows.map (expireRow now), by
      rw [List.map_map, show SearchContext.contextId ∘ expireRow now = SearchContext.contextId
        from funext (contextId_expireRow now)]
      exact w.contexts.nodup⟩ }

/-- Insert the candidates one by one; the first taken key is a violation. -/
def insertCandidates (t : Table SearchCandidate SearchCandidate.key) :
    List SearchCandidate → Option (Table SearchCandidate SearchCandidate.key)
  | [] => some t
  | c :: cs =>
      match t.insert? c with
      | none => none
      | some t' => insertCandidates t' cs

def createRevision (revision : SearchRevision) (candidates : List SearchCandidate) :
    Session Unit := do
  let w ← get
  match w.revisions.insert? revision with
  | none =>
      throw ⟨.conflict, "Revision " ++ revision.revisionId ++ " already exists (immutable)"⟩
  | some revisions =>
      match insertCandidates w.candidates candidates with
      | none => throw ⟨.integrity, "UNIQUE constraint failed: search_candidates"⟩
      | some candidates => set { w with revisions := revisions, candidates := candidates }

def replaceDefaultRevision (env : RequestEnv) (contextId revisionId : String) : Session Unit :=
  modify fun w => { w with
    contexts := w.contexts.modify contextId
      (fun c => { c with defaultRevisionId := some revisionId, lastAccessedAt := env.now })
      fun _ => rfl }

def appendEvent (event : QueryAudit) : Session Unit :=
  modify fun w => { w with audit := w.audit ++ [event] }

/-! ## Facets and results -/

/-- `Counter`: counts by first occurrence. -/
def counter {α : Type} [DecidableEq α] (l : List α) : List (α × ℕ) :=
  l.eraseDups.map fun a => (a, l.count a)

/-- `most_common()`: by count, ties in order of first occurrence. -/
def mostCommon {α : Type} (counts : List (α × ℕ)) : List (α × ℕ) :=
  counts.mergeSort fun a b => decide (b.2 ≤ a.2)

/-- The start of the hour, on the record's own clock. -/
def hourBucket (d : Iso.DateTime) : Iso.DateTime :=
  { d with wall := d.wall - d.wall % (3600 * Iso.second) }

def buildFacets (records : List ObservationRecord) : Facets where
  candidateCount := records.length
  topTags := (mostCommon (counter (records.flatMap ObservationRecord.tags))).take 10
  cameraDistribution := mostCommon (counter (records.map ObservationRecord.cameraId))
  locationDistribution := mostCommon (counter (records.map ObservationRecord.locationId))
  timeDistribution :=
    (counter (records.map fun r => Iso.isoformat (hourBucket r.observedStartTime))).mergeSort
      fun a b => decide (a.1 ≤ b.1)
  analysisScaleDistribution := mostCommon (counter (records.map ObservationRecord.analysisScale))

structure SearchResultItem where
  recordId : String
  rank : ℕ
  score : ℚ
  previewText : String
  analysisScale : AnalysisScale
  observedStartTime : Iso.DateTime
  observedEndTime : Iso.DateTime
deriving DecidableEq

structure SearchResponse where
  contextId : String
  revisionId : String
  candidateCount : ℕ
  facets : Facets
  results : List SearchResultItem
deriving DecidableEq

/-- `pool_by_id.get(rid)`. -/
def byId (pool : List ObservationRecord) (rid : String) : Option ObservationRecord :=
  pool.find? fun r => decide (r.recordId = rid)

def toResults (ordered : Scores) (pool : List ObservationRecord) : List SearchResultItem :=
  ordered.zipIdx.filterMap fun p =>
    (byId pool p.1.1).map fun r => {
      recordId := p.1.1
      rank := p.2 + 1
      score := p.1.2
      previewText := String.ofList (r.staticDescriptionText.toList.take 200)
      analysisScale := r.analysisScale
      observedStartTime := r.observedStartTime
      observedEndTime := r.observedEndTime }

def candidateRows (revisionId : String) (ordered : Scores) : List SearchCandidate :=
  ordered.zipIdx.map fun p => {
    revisionId := revisionId
    recordId := p.1.1
    rank := p.2 + 1
    score := p.1.2 }

def revisionRow (env : RequestEnv) (contextId : String) (parent : Option String) (op : String)
    (ordered : Scores) (pool : List ObservationRecord) : SearchRevision where
  revisionId := env.revisionId
  contextId := contextId
  parentRevisionId := parent
  op := op
  candidateCount := ordered.length
  facets := buildFacets (ordered.filterMap fun p => byId pool p.1)

def persistRevision (env : RequestEnv) (contextId : String) (parent : Option String)
    (op : String) (ordered : Scores) (pool : List ObservationRecord) :
    Session SearchRevision := do
  let revision := revisionRow env contextId parent op ordered pool
  createRevision revision (candidateRows env.revisionId ordered)
  pure revision

def requireCapability (scope : AuthorizedScope) (c : Capability) : Session Unit :=
  if c ∈ scope.capabilities then pure ()
  else throw ⟨.capabilityDenied, c.value ++ " required"⟩

def auditQuery (scope : AuthorizedScope) (contextId : String) (results : List SearchResultItem) :
    Session Unit :=
  appendEvent {
    eventType := "query"
    principalId := scope.principalId
    contextId := some contextId
    resourceScopeHash := scope.scopeHash
    recordIds := results.map SearchResultItem.recordId }

def respond (contextId : String) (revision : SearchRevision) (results : List SearchResultItem) :
    SearchResponse where
  contextId := contextId
  revisionId := revision.revisionId
  candidateCount := results.length
  facets := revision.facets
  results := results

/-! ## Start -/

def startRanking (eng : Engine) (cfg : SearchConfig) (w : World) (req : StartRequest)
    (pool : List ObservationRecord) : Scores :=
  sliceTo (min req.topK cfg.maxTopK) (rank eng cfg w.store.fts w.vectors pool {
    queryText := req.queryText
    searchMode := req.searchMode
    tagFilters := req.tagFilters
    preferredScales := req.preferredAnalysisScales
    useVector := none })

def newContext (cfg : SearchConfig) (env : RequestEnv) (scope : AuthorizedScope)
    (sessionId : Option String) : SearchContext where
  contextId := env.contextId
  tenantId := scope.tenantId
  principalId := scope.principalId
  sessionId := sessionId
  authorizedScopeHash := scope.scopeHash
  defaultRevisionId := none
  createdAt := env.now
  lastAccessedAt := env.now
  expiresAt := env.now + cfg.contextTtlSeconds * Iso.second
  status := .active

def startSearch (eng : Engine) (cfg : SearchConfig) (env : RequestEnv)
    (scope : AuthorizedScope) (sessionId : Option String) (req : StartRequest) :
    Session SearchResponse := do
  requireCapability scope .observationSearch
  if cfg.maxTopK < req.topK then
    throw ⟨.limitExceeded, "top_k exceeds max " ++ toString cfg.maxTopK⟩
  let w ← get
  let pool := authorizedCandidatePool eng w.store scope req cfg.maxCandidatesPerRevision
  let ordered := startRanking eng cfg w req pool
  let context := newContext cfg env scope sessionId
  createContext context
  let revision ← persistRevision env context.contextId none "start" ordered pool
  replaceDefaultRevision env context.contextId revision.revisionId
  let results := toResults ordered pool
  auditQuery scope context.contextId results
  pure (respond context.contextId revision results)

/-! ## Refine -/

inductive RefineOp where
  | narrowByTags
  | searchStaticText
  | searchDynamicText
  | hybridSearchText
  | filterByAnalysisScale
  | applyRrfFusion
  | rerankCurrentCandidates
deriving DecidableEq, Repr

def RefineOp.value : RefineOp → String
  | .narrowByTags => "narrow_by_tags"
  | .searchStaticText => "search_static_text"
  | .searchDynamicText => "search_dynamic_text"
  | .hybridSearchText => "hybrid_search_text"
  | .filterByAnalysisScale => "filter_by_analysis_scale"
  | .applyRrfFusion => "apply_rrf_fusion"
  | .rerankCurrentCandidates => "rerank_current_candidates"

/-- A value of the free-form `params`: a string, an integer (or boolean), a
list with its items as `str` shows them, or anything else. -/
inductive ParamValue where
  | text (s : String)
  | number (n : ℤ)
  | items (shown : List String)
  | other
deriving DecidableEq

structure RefineRequest where
  baseRevisionId : String
  op : RefineOp
  params : List (String × ParamValue)

def strList : Option ParamValue → List String
  | some (.items l) => l
  | _ => []

def RefineRequest.queryText (req : RefineRequest) : Option String :=
  match req.params.lookup "query_text" with
  | some (.text s) => some s
  | _ => none

def RefineRequest.topK (req : RefineRequest) (maxTopK : ℤ) : ℤ :=
  match req.params.lookup "top_k" with
  | some (.number n) => min n maxTopK
  | _ => maxTopK

def AnalysisScale.value : AnalysisScale → String
  | .defaultSegment => "default_segment"
  | .motionScan => "motion_scan"
  | .highFreqEvent => "high_freq_event"
  | .lowFreqSummary => "low_freq_summary"

def applyRefineOp (eng : Engine) (cfg : SearchConfig) (w : World)
    (records : List ObservationRecord) (req : RefineRequest) : Scores :=
  let tagFilters := strList (req.params.lookup "tags")
  let rankWith (rs : List ObservationRecord) (q : RankQuery) : Scores :=
    rank eng cfg w.store.fts w.vectors rs q
  match req.op with
  | .narrowByTags =>
      let filtered := if tagFilters = [] then records
        else records.filter fun r => tagFilters.all fun t => decide (t ∈ r.tags)
      rankWith filtered ⟨none, .hybrid, tagFilters, [], none⟩
  | .searchStaticText => rankWith records ⟨req.queryText, .staticAttribute, [], [], none⟩
  | .searchDynamicText => rankWith records ⟨req.queryText, .dynamicEvent, [], [], none⟩
  | .hybridSearchText => rankWith records ⟨req.queryText, .hybrid, tagFilters, [], none⟩
  | .filterByAnalysisScale =>
      let scales := strList (req.params.lookup "analysis_scales")
      let filtered := if scales = [] then records
        else records.filter fun r => decide (AnalysisScale.value r.analysisScale ∈ scales)
      rankWith filtered ⟨req.queryText, .hybrid, [], [], none⟩
  | .rerankCurrentCandidates =>
      applyCrossEncoder eng cfg
        (rankWith records ⟨req.queryText, .hybrid, tagFilters, [], some true⟩)
        records req.queryText
  | .applyRrfFusion => rankWith records ⟨req.queryText, .hybrid, tagFilters, [], none⟩

/-- The context of a request, or why it may not be used any more. -/
def activeContext (cfg : SearchConfig) (env : RequestEnv) (scope : AuthorizedScope)
    (contextId : String) : Session SearchContext := do
  match (← get).contexts.get? contextId with
  | none => throw ⟨.notFound, "context not found"⟩
  | some c =>
    if c.principalId ≠ scope.principalId then
      throw ⟨.notFound, "context not found"⟩
    else if c.authorizedScopeHash ≠ scope.scopeHash then
      closeContext contextId
      throw ⟨.contextExpired, "authorized scope changed; restart search"⟩
    else if c.status ≠ .active then
      throw ⟨.contextExpired, "context is not active"⟩
    else if c.expiresAt < env.now then
      expireContexts env.now
      throw ⟨.contextExpired, "context expired"⟩
    else if c.lastAccessedAt + cfg.contextIdleSeconds * Iso.second < env.now then
      expireContexts env.now
      throw ⟨.contextExpired, "context idle-expired"⟩
    else pure c

def baseRevision (contextId revisionId : String) : Session SearchRevision := do
  match (← get).revisions.get? revisionId with
  | none => throw ⟨.notFound, "base revision not found in context"⟩
  | some base =>
    if base.contextId ≠ contextId then
      throw ⟨.notFound, "base revision not found in context"⟩
    else pure base

def enforceRevisionLimit (cfg : SearchConfig) (contextId : String) : Session Unit := do
  let w ← get
  if cfg.maxRevisionsPerContext ≤
      w.revisions.rows.countP (fun r => decide (r.contextId = contextId)) then
    throw ⟨.limitExceeded,
      "context revisions exceed max " ++ toString cfg.maxRevisionsPerContext⟩

/-- The records of the base revision that are still active and authorized. -/
def baseRecords (cfg : SearchConfig) (w : World) (scope : AuthorizedScope)
    (base : SearchRevision) : List ObservationRecord :=
  getAuthorizedActiveByIds w.store
    ((listCandidates w base.revisionId cfg.maxCandidatesPerRevision).map
      SearchCandidate.recordId) scope

def refineSearch (eng : Engine) (cfg : SearchConfig) (env : RequestEnv)
    (scope : AuthorizedScope) (contextId : String) (req : RefineRequest) :
    Session SearchResponse := do
  requireCapability scope .observationSearch
  let _ ← activeContext cfg env scope contextId
  let base ← baseRevision contextId req.baseRevisionId
  let w ← get
  let records := baseRecords cfg w scope base
  let ordered := sliceTo (req.topK cfg.maxTopK) (applyRefineOp eng cfg w records req)
  enforceRevisionLimit cfg contextId
  let revision ← persistRevision env contextId (some base.revisionId) req.op.value ordered records
  replaceDefaultRevision env contextId revision.revisionId
  let results := toResults ordered records
  auditQuery scope contextId results
  pure (respond contextId revision results)

/-! ## Facets, close, details -/

def facets (cfg : SearchConfig) (env : RequestEnv) (scope : AuthorizedScope)
    (contextId : String) : Session Facets := do
  requireCapability scope .observationSearch
  let context ← activeContext cfg env scope contextId
  match context.defaultRevisionId with
  | none => pure (buildFacets [])
  | some revisionId =>
    let w ← get
    pure (buildFacets (getAuthorizedActiveByIds w.store
      ((listCandidates w revisionId cfg.maxCandidatesPerRevision).map
        SearchCandidate.recordId) scope))

def closeRequest (scope : AuthorizedScope) (contextId : String) : Session Unit := do
  match (← get).contexts.get? contextId with
  | none => throw ⟨.notFound, "context not found"⟩
  | some c =>
    if c.principalId ≠ scope.principalId then throw ⟨.notFound, "context not found"⟩
    else closeContext contextId

structure LocatorProjection where
  videoId : String
  cameraId : String
  segmentStartMs : ℤ
  segmentEndMs : ℤ
  absoluteStartTime : Iso.DateTime
  absoluteEndTime : Iso.DateTime
  playbackUrl : String
  expiresAt : ℤ
deriving DecidableEq

structure DetailsItem where
  recordId : String
  staticDescriptionText : String
  dynamicDescriptionText : String
  tags : List String
  attributes : String
  analysisScale : AnalysisScale
  observedStartTime : Iso.DateTime
  observedEndTime : Iso.DateTime
  locator : Option LocatorProjection
deriving DecidableEq

def locatorTtlSeconds : ℤ := 600

/-- The second authorization, then the projection without the source uri. -/
def buildLocator (env : RequestEnv) (scope : AuthorizedScope) (r : ObservationRecord) :
    Session (Option LocatorProjection) := do
  let w ← get
  match getAuthorizedActiveById w.store r.recordId scope with
  | none => pure none
  | some _ =>
    appendEvent {
      eventType := "locator"
      principalId := scope.principalId
      contextId := none
      resourceScopeHash := scope.scopeHash
      recordIds := [r.recordId] }
    pure (some {
      videoId := r.videoId
      cameraId := r.cameraId
      segmentStartMs := r.segmentStartMs
      segmentEndMs := r.segmentEndMs
      absoluteStartTime := r.observedStartTime
      absoluteEndTime := r.observedEndTime
      playbackUrl := "/api/v1/playback/" ++ env.playbackToken r.recordId
      expiresAt := env.now + locatorTtlSeconds * Iso.second })

def locatorFor (env : RequestEnv) (scope : AuthorizedScope) (includeLocator : Bool)
    (r : ObservationRecord) : Session (Option LocatorProjection) :=
  if includeLocator then buildLocator env scope r else pure none

def detailsItem (env : RequestEnv) (scope : AuthorizedScope) (includeLocator : Bool)
    (r : ObservationRecord) : Session DetailsItem := do
  let locator ← locatorFor env scope includeLocator r
  pure {
    recordId := r.recordId
    staticDescriptionText := r.staticDescriptionText
    dynamicDescriptionText := r.dynamicDescriptionText
    tags := r.tags
    attributes := r.attributes
    analysisScale := r.analysisScale
    observedStartTime := r.observedStartTime
    observedEndTime := r.observedEndTime
    locator := locator }

def detailsItems (env : RequestEnv) (scope : AuthorizedScope) (includeLocator : Bool) :
    List ObservationRecord → Session (List DetailsItem)
  | [] => pure []
  | r :: rs => do
    let item ← detailsItem env scope includeLocator r
    let items ← detailsItems env scope includeLocator rs
    pure (item :: items)

def getDetails (env : RequestEnv) (scope : AuthorizedScope) (recordIds : List String)
    (includeLocator : Bool) : Session (List DetailsItem) := do
  requireCapability scope .observationReadDetail
  if includeLocator && !decide (Capability.observationReadLocator ∈ scope.capabilities) then
    throw ⟨.capabilityDenied, "observation.read_locator required for locator"⟩
  let w ← get
  let items ← detailsItems env scope includeLocator
    (getAuthorizedActiveByIds w.store recordIds scope)
  appendEvent {
    eventType := "details"
    principalId := scope.principalId
    contextId := none
    resourceScopeHash := scope.scopeHash
    recordIds := items.map DetailsItem.recordId }
  pure items

/-! ## Requests -/

inductive Request where
  | start (sessionId : Option String) (req : StartRequest)
  | refine (contextId : String) (req : RefineRequest)
  | facets (contextId : String)
  | close (contextId : String)
  | details (recordIds : List String) (includeLocator : Bool)

inductive Response where
  | search (r : SearchResponse)
  | facets (f : Facets)
  | closed
  | details (items : List DetailsItem)
deriving DecidableEq

/-- `resolve_principal`: an active principal. -/
def resolvePrincipal (w : World) (principalId : String) : Except ServiceError Principal :=
  match w.principals.get? principalId with
  | none => .error ⟨.principalNotFound, "principal " ++ principalId ++ " not found"⟩
  | some p =>
      if p.status ≠ "active" then
        .error ⟨.authorization, "principal " ++ principalId ++ " is not active"⟩
      else .ok p

/-- Rows in the order of their key, at most `limit`. -/
def listOrdered {ρ : Type} (key : ρ → String) (limit : ℕ) (rows : List ρ) : List ρ :=
  (rows.mergeSort fun a b => decide (key a ≤ key b)).take limit

def authorizedScopeFor (digest : ScopePayload → String) (w : World) (p : Principal) :
    AuthorizedScope :=
  computeAuthorizedScope digest p w.policies.rows
    (listOrdered CameraLocation.locationId 10000 w.locations.rows)
    (listOrdered CameraDevice.cameraId 10000 w.cameras.rows)

/-- The scope a request of `principalId` gets in `w`. -/
def scopeFor (digest : ScopePayload → String) (w : World) (principalId : String) :
    Except ServiceError AuthorizedScope :=
  (resolvePrincipal w principalId).map (authorizedScopeFor digest w)

def serve (eng : Engine) (cfg : SearchConfig) (env : RequestEnv) (scope : AuthorizedScope) :
    Request → Session Response
  | .start sessionId req => do
    let r ← startSearch eng cfg env scope sessionId req
    pure (.search r)
  | .refine contextId req => do
    let r ← refineSearch eng cfg env scope contextId req
    pure (.search r)
  | .facets contextId => do
    let f ← facets cfg env scope contextId
    pure (.facets f)
  | .close contextId => do
    closeRequest scope contextId
    pure .closed
  | .details recordIds includeLocator => do
    let items ← getDetails env scope recordIds includeLocator
    pure (.details items)

/-- One request: its scope is computed from what is stored when it arrives. -/
def handle (eng : Engine) (digest : ScopePayload → String) (cfg : SearchConfig)
    (env : RequestEnv) (principalId : String) (req : Request) (w : World) :
    Except ServiceError Response × World :=
  match scopeFor digest w principalId with
  | .error e => (.error e, w)
  | .ok scope => inSession (serve eng cfg env scope req) w

/-- What can happen to the database: a request, a publication, or any change
of principals, policies, locations, cameras or stored vectors. -/
inductive Event where
  | request (env : RequestEnv) (principalId : String) (req : Request)
  | publish (env : PublishEnv) (cmd : PublishCommand)
  | setPrincipals (t : Table Principal Principal.principalId)
  | setPolicies (t : Table AccessPolicy AccessPolicy.accessPolicyId)
  | setLocations (t : Table CameraLocation CameraLocation.locationId)
  | setCameras (t : Table CameraDevice CameraDevice.cameraId)
  | setVectors (vectors : List StoredVector)

def step (eng : Engine) (digest : ScopePayload → String) (cfg : SearchConfig) (w : World) :
    Event → World
  | .request env principalId req => (handle eng digest cfg env principalId req w).2
  | .publish env cmd => { w with store := (Publication.publish env cmd w.store).2 }
  | .setPrincipals t => { w with principals := t }
  | .setPolicies t => { w with policies := t }
  | .setLocations t => { w with locations := t }
  | .setCameras t => { w with cameras := t }
  | .setVectors vectors => { w with vectors := vectors }

def run (eng : Engine) (digest : ScopePayload → String) (cfg : SearchConfig)
    (events : List Event) (w : World) : World :=
  events.foldl (step eng digest cfg) w

end CctvMemory.Search
