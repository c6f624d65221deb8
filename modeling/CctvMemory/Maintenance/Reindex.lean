import CctvMemory.Library.References
import CctvMemory.Search.Service

/-!
# Reindexing

`MaintenanceService.reindex` over `SqliteIndexRepository`: the embeddings of the
active records within a scope, written to `observation_vectors`. The table has
the primary key `(record_id, vector_type)` and no foreign key, so nothing but a
delete of its own takes a row out of it.

* `reindex_refers`: a reindex writes vectors of active records only.
-/

namespace CctvMemory.Maintenance

open Keyed (Table Refers)
open CctvMemory.Publication (ObservationRecord ObservationStore)
open CctvMemory.Authorization (AuthorizedScope Capability)
open CctvMemory.Search (Engine StartRequest TextField authorizedCandidatePool sqlLimit)

/-! ## The vector index -/

/-- A row of `observation_vectors`; the model and the dimension are kept in its
`metadata_json`. -/
structure StoredVector extends Search.StoredVector where
  modelId : String
  dimension : ℕ
deriving DecidableEq

def StoredVector.key (v : StoredVector) : String × TextField := (v.recordId, v.vectorType)

abbrev VectorTable := Table StoredVector StoredVector.key

/-- One insert a vector, replacing the row with its key; returns how many. -/
def upsertVectors (vectors : List StoredVector) (t : VectorTable) : ℕ × VectorTable :=
  (vectors.length, vectors.foldl Table.put t)

def getVectorsForRecords (recordIds : List String) (vectorType : Option TextField)
    (t : VectorTable) : List StoredVector :=
  if recordIds = [] then []
  else t.rows.filter fun v =>
    decide (v.recordId ∈ recordIds) && vectorType.all fun ty => decide (v.vectorType = ty)

/-! ## The database -/

inductive MetadataValue where
  | bool (b : Bool)
  | number (n : ℕ)
  | text (s : String)
deriving DecidableEq

structure AuditEvent where
  eventType : String
  requestId : Option String
  principalId : String
  resourceScopeHash : String
  metadata : List (String × MetadataValue)
deriving DecidableEq

structure Database where
  observations : ObservationStore
  vectors : VectorTable
  audit : List AuditEvent

/-! ## The service -/

/-- An embedding provider; `embedTexts` is `none` where it raises
`EmbeddingError`, which may differ from one batch to the next. -/
structure Embedder where
  modelId : String
  dimension : ℕ
  embedTexts : ℕ → List String → Option (List (List ℚ))

inductive ReindexError where
  | capabilityDenied (message : String)
  | embeddingError
  | valueError (message : String)
deriving DecidableEq, Repr

structure ReindexRequest where
  scope : AuthorizedScope
  requestId : Option String := none
  batchSize : ℤ := 64
  force : Bool := false
  limit : ℤ := 100000

structure ReindexResult where
  scanned : ℕ
  reindexed : ℕ
  skipped : ℕ
  vectorsWritten : ℕ
  modelId : String
  dimension : ℕ
deriving DecidableEq

/-- The channels the reindex embeds; the tags are not among them. -/
def vectorChannels : List TextField := [.static, .dynamic]

def channelsOf (batch : List ObservationRecord) : List (ObservationRecord × TextField) :=
  batch.flatMap fun r => vectorChannels.map fun ty => (r, ty)

/-- What one batch adds to the counts. -/
structure BatchOutcome where
  written : ℕ
  reindexedIds : List String
  skipped : ℕ

def storedVector (emb : Embedder) (c : ObservationRecord × TextField) (embedding : List ℚ) :
    StoredVector where
  recordId := c.1.recordId
  vectorType := c.2
  embedding := embedding
  modelId := emb.modelId
  dimension := emb.dimension

/-- The channels of a batch that have no vector of the current model yet, or all
of them under `force`. -/
def pendingChannels (emb : Embedder) (force : Bool) (batch : List ObservationRecord)
    (t : VectorTable) : List (ObservationRecord × TextField) :=
  let existing := getVectorsForRecords (batch.map ObservationRecord.recordId) none t
  let current := (existing.filter fun v => decide (v.modelId = emb.modelId)).map StoredVector.key
  (channelsOf batch).filter fun c => force || decide ((c.1.recordId, c.2) ∉ current)

def reindexBatch (emb : Embedder) (force : Bool) (i : ℕ) (batch : List ObservationRecord)
    (t : VectorTable) : Except ReindexError (BatchOutcome × VectorTable) :=
  let pending := pendingChannels emb force batch t
  let skipped := (channelsOf batch).length - pending.length
  if pending = [] then .ok (⟨0, [], skipped⟩, t)
  else match emb.embedTexts i (pending.map fun c => Search.ObservationRecord.fieldText c.1 c.2) with
    | none => .error .embeddingError
    | some embeddings =>
        -- `zip(..., strict=True)`
        if embeddings.length < pending.length then
          .error (.valueError "zip() argument 2 is shorter than argument 1")
        else if pending.length < embeddings.length then
          .error (.valueError "zip() argument 2 is longer than argument 1")
        else
          let (written, t') := upsertVectors (List.zipWith (storedVector emb) pending embeddings) t
          .ok (⟨written, pending.map fun c => c.1.recordId, skipped⟩, t')

structure Progress where
  scanned : ℕ
  reindexedRecords : List String
  skipped : ℕ
  vectorsWritten : ℕ

def Progress.add (p : Progress) (batch : List ObservationRecord) (out : BatchOutcome) :
    Progress where
  scanned := p.scanned + batch.length
  reindexedRecords := p.reindexedRecords ∪ out.reindexedIds.dedup
  skipped := p.skipped + out.skipped
  vectorsWritten := p.vectorsWritten + out.written

/-- The batches in turn, until one raises. -/
def reindexBatches (emb : Embedder) (force : Bool) :
    ℕ → List (List ObservationRecord) → Progress → VectorTable →
      Except ReindexError Progress × VectorTable
  | _, [], p, t => (.ok p, t)
  | i, batch :: rest, p, t =>
      match reindexBatch emb force i batch t with
      | .error e => (.error e, t)
      | .ok (out, t') => reindexBatches emb force (i + 1) rest (p.add batch out) t'

/-- `records[start : start + batch_size]` for `start` in
`range(0, len(records), batch_size)`. -/
def batchesOf (batchSize : ℤ) (records : List ObservationRecord) :
    Except ReindexError (List (List ObservationRecord)) :=
  if batchSize = 0 then .error (.valueError "range() arg 3 must not be zero")
  else if batchSize < 0 then .ok []
  else
    let size := batchSize.toNat
    .ok ((List.range ((records.length + size - 1) / size)).map fun i =>
      (records.drop (i * size)).take size)

def Database.auditEvent (db : Database) (q : ReindexRequest) (eventType : String)
    (metadata : List (String × MetadataValue)) : Database :=
  { db with
    audit := db.audit ++
      [⟨eventType, q.requestId, q.scope.principalId, q.scope.scopeHash, metadata⟩] }

def unfiltered : StartRequest where
  queryText := none
  timeRange := none
  cameraIds := []
  locationIds := []
  videoIds := []
  tagFilters := []
  analysisScaleFilter := []
  preferredAnalysisScales := []
  searchMode := .hybrid
  topK := 0

/-- The records a reindex reads: the active ones within the scope. -/
def reindexedPool (eng : Engine) (q : ReindexRequest) (store : ObservationStore) :
    List ObservationRecord :=
  authorizedCandidatePool eng store q.scope unfiltered q.limit

def reindex (eng : Engine) (emb : Embedder) (q : ReindexRequest) (db : Database) :
    Except ReindexError ReindexResult × Database :=
  if Capability.runtimeManage ∉ q.scope.capabilities then
    (.error (.capabilityDenied "runtime.manage required for reindex"), db)
  else
    let db := db.auditEvent q "reindex_started" [("force", .bool q.force)]
    match batchesOf q.batchSize (reindexedPool eng q db.observations) with
    | .error e => (.error e, db)
    | .ok batches =>
        match reindexBatches emb q.force 0 batches ⟨0, [], 0, 0⟩ db.vectors with
        | (.error e, vectors) =>
            let db := { db with vectors := vectors }
            if e = .embeddingError then
              (.error e, db.auditEvent q "reindex_failed" [("reason", .text "EmbeddingError")])
            else (.error e, db)
        | (.ok p, vectors) =>
            let result : ReindexResult := {
              scanned := p.scanned
              reindexed := p.reindexedRecords.length
              skipped := p.skipped
              vectorsWritten := p.vectorsWritten
              modelId := emb.modelId
              dimension := emb.dimension }
            (.ok result, { db with vectors := vectors }.auditEvent q "reindex_succeeded" [
              ("scanned", .number result.scanned),
              ("reindexed", .number result.reindexed),
              ("skipped", .number result.skipped),
              ("vectors_written", .number result.vectorsWritten),
              ("model_id", .text result.modelId),
              ("dimension", .number result.dimension)])

/-- The `reindex` command: a reindex in a session of its own. -/
def cmdReindex (eng : Engine) (emb : Embedder) (q : ReindexRequest) (db : Database) :
    Except ReindexError ReindexResult × Database :=
  match reindex eng emb q db with
  | (.ok result, db') => (.ok result, db')
  | (.error e, _) => (.error e, db)

/-! ## What a reindex writes -/

theorem mem_channelsOf {batch : List ObservationRecord} {c : ObservationRecord × TextField} :
    c ∈ channelsOf batch ↔ c.1 ∈ batch ∧ c.2 ∈ vectorChannels := by
  obtain ⟨r, ty⟩ := c
  simp [channelsOf]

theorem mem_pendingChannels {emb : Embedder} {force : Bool} {batch : List ObservationRecord}
    {t : VectorTable} {c : ObservationRecord × TextField}
    (h : c ∈ pendingChannels emb force batch t) : c.1 ∈ batch :=
  (mem_channelsOf.mp (List.mem_of_mem_filter h)).1

theorem recordId_of_mem_zipWith {emb : Embedder} {pending : List (ObservationRecord × TextField)}
    {embeddings : List (List ℚ)} {v : StoredVector}
    (h : v ∈ List.zipWith (storedVector emb) pending embeddings) :
    ∃ c ∈ pending, c.1.recordId = v.recordId := by
  rw [← List.map_uncurry_zip_eq_zipWith] at h
  obtain ⟨⟨c, e⟩, hce, rfl⟩ := List.mem_map.mp h
  exact ⟨c, (List.of_mem_zip hce).1, rfl⟩

variable {emb : Embedder} {force : Bool} {i : ℕ} {t t' : VectorTable}
  {active : Table ObservationRecord ObservationRecord.recordId}

theorem reindexBatch_refers {batch : List ObservationRecord} {out : BatchOutcome}
    (hbatch : ∀ r ∈ batch, r ∈ active.rows)
    (ht : Refers (fun v : StoredVector => v.recordId) t active)
    (h : reindexBatch emb force i batch t = .ok (out, t')) :
    Refers (fun v : StoredVector => v.recordId) t' active := by
  unfold reindexBatch at h
  dsimp only at h
  split at h
  · cases h
    exact ht
  · split at h
    · cases h
    · split at h
      · cases h
      · split at h
        · cases h
        · cases h
          apply ht.puts
          intro v hv
          obtain ⟨c, hc, hid⟩ := recordId_of_mem_zipWith hv
          exact ⟨c.1, hbatch c.1 (mem_pendingChannels hc), hid⟩

theorem reindexBatches_refers {batches : List (List ObservationRecord)} {p : Progress}
    {result : Except ReindexError Progress}
    (hbatches : ∀ batch ∈ batches, ∀ r ∈ batch, r ∈ active.rows)
    (ht : Refers (fun v : StoredVector => v.recordId) t active)
    (h : reindexBatches emb force i batches p t = (result, t')) :
    Refers (fun v : StoredVector => v.recordId) t' active := by
  induction batches generalizing i p t with
  | nil =>
      cases h
      exact ht
  | cons batch rest ih =>
      unfold reindexBatches at h
      split at h
      · cases h
        exact ht
      · rename_i out t₁ hbatch
        have hfirst := reindexBatch_refers (hbatches batch List.mem_cons_self) ht hbatch
        exact ih (fun b hb => hbatches b (List.mem_cons_of_mem _ hb)) hfirst h

theorem mem_of_mem_batchesOf {batchSize : ℤ} {records : List ObservationRecord}
    {batches : List (List ObservationRecord)} (h : batchesOf batchSize records = .ok batches)
    {batch : List ObservationRecord} (hbatch : batch ∈ batches) {r : ObservationRecord}
    (hr : r ∈ batch) : r ∈ records := by
  unfold batchesOf at h
  split at h
  · cases h
  · split at h
    · cases h
      cases hbatch
    · cases h
      obtain ⟨i, -, rfl⟩ := List.mem_map.mp hbatch
      exact List.mem_of_mem_drop (List.mem_of_mem_take hr)

theorem mem_reindexedPool {eng : Engine} {q : ReindexRequest} {store : ObservationStore}
    {r : ObservationRecord} (h : r ∈ reindexedPool eng q store) : r ∈ store.active.rows := by
  exact List.mem_of_mem_filter (List.mem_mergeSort.mp (Search.mem_sqlLimit h))

/-- A reindex leaves the records alone, and every vector it writes is of one of
them. -/
theorem cmdReindex_refers (eng : Engine) (emb : Embedder) (q : ReindexRequest) (db : Database)
    (h : Refers (fun v : StoredVector => v.recordId) db.vectors db.observations.active.table) :
    (cmdReindex eng emb q db).2.observations = db.observations ∧
      Refers (fun v : StoredVector => v.recordId) (cmdReindex eng emb q db).2.vectors
        db.observations.active.table := by
  unfold cmdReindex
  split
  · rename_i result db' hok
    unfold reindex at hok
    dsimp only at hok
    split at hok
    · cases hok
    · split at hok
      · cases hok
      · rename_i batches hbatches
        split at hok
        · split at hok <;> cases hok
        · rename_i p vectors hloop
          cases hok
          constructor
          · rfl
          · apply reindexBatches_refers _ h hloop
            intro batch hbatch r hr
            exact mem_reindexedPool (mem_of_mem_batchesOf hbatches hbatch hr)
  · exact ⟨rfl, h⟩

end CctvMemory.Maintenance
