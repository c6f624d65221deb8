import CctvMemory.Library.Table
import CctvMemory.Library.IsoText
import CctvMemory.Domain.Enums

/-!
# The observation store and its only writer

Active observation records, their history, the FTS tables over them, the job
publish summaries and the audit events, with
`SqlitePublicationRepository.publish_records_atomically` (and `index_record` /
`deindex_record` of `fts.py`) over them.

A publication is a sequence of single writes inside one savepoint. Each write
can be refused by the database (`PublishEnv.failAt`) or by a constraint; the
writes already made stay in the working store until the savepoint throws them
away (`beginNested`).
-/

namespace CctvMemory.Publication

open Keyed (Table)

/-! ## Rows -/

/-- The columns of `uq_obs_segment_scale`. -/
structure NaturalKey where
  videoId : String
  segmentStartMs : ℤ
  segmentEndMs : ℤ
  analysisScale : AnalysisScale
deriving DecidableEq

structure ObservationRecord where
  recordId : String
  tenantId : String
  videoId : String
  analysisJobId : String
  analysisScale : AnalysisScale
  segmentStartMs : ℤ
  segmentEndMs : ℤ
  observedStartTime : Iso.DateTime
  observedEndTime : Iso.DateTime
  cameraId : String
  locationId : String
  staticDescriptionText : String
  dynamicDescriptionText : String
  tags : List String
  attributes : String
  accessPolicyId : String
  securityLevel : SecurityLevel
deriving DecidableEq

def ObservationRecord.naturalKey (r : ObservationRecord) : NaturalKey :=
  ⟨r.videoId, r.segmentStartMs, r.segmentEndMs, r.analysisScale⟩

/-- One archived version of a record. -/
structure HistoryRow where
  historyId : String
  oldRecordId : String
  replacedByRecordId : String
  archivedByAnalysisJobId : String
  archivedAt : Iso.Text
  archiveReason : String
  recordSnapshot : ObservationRecord
deriving DecidableEq

structure FtsRow where
  recordId : String
  text : String
deriving DecidableEq

/-- The three FTS5 virtual tables. They have no key of their own. -/
structure FtsTables where
  staticRows : List FtsRow
  dynamicRows : List FtsRow
  tagsRows : List FtsRow
deriving DecidableEq

/-- The publish summary columns of a job row. -/
structure JobSummary where
  analysisJobId : String
  createdRecordIds : List String
  updatedRecordIds : List String
  archivedRecordIds : List String
deriving DecidableEq

structure AuditRow where
  auditEventId : String
  eventType : String
  recordIds : List String
  analysisJobId : String
deriving DecidableEq

/-- Active records: keyed by record id and, by `uq_obs_segment_scale`, unique
on the natural key too. -/
structure ActiveRecords where
  table : Table ObservationRecord ObservationRecord.recordId
  naturalKeys_nodup : (table.rows.map ObservationRecord.naturalKey).Nodup

instance : DecidableEq ActiveRecords := fun a b =>
  decidable_of_iff (a.table = b.table)
    ⟨fun h => by cases a; cases b; cases h; rfl, fun h => h ▸ rfl⟩

structure ObservationStore where
  active : ActiveRecords
  history : Table HistoryRow HistoryRow.historyId
  /-- `none` when the virtual tables were never created. -/
  fts : Option FtsTables
  jobs : Table JobSummary JobSummary.analysisJobId
  audit : Table AuditRow AuditRow.auditEventId

namespace ActiveRecords

def rows (a : ActiveRecords) : List ObservationRecord := a.table.rows

/-- The row a natural key selects. -/
def byNaturalKey (a : ActiveRecords) (k : NaturalKey) : Option ObservationRecord :=
  a.rows.find? fun r => decide (r.naturalKey = k)

def erase (a : ActiveRecords) (recordId : String) : ActiveRecords where
  table := a.table.erase recordId
  naturalKeys_nodup :=
    a.naturalKeys_nodup.sublist ((List.filter_sublist (l := a.table.rows)).map _)

/-- Insert a row; `none` when its id or its natural key is taken, or when
`ck_obs_time_order` refuses it. -/
def insert? (a : ActiveRecords) (r : ObservationRecord) : Option ActiveRecords :=
  if h : r.naturalKey ∈ a.table.rows.map ObservationRecord.naturalKey then none
  else if r.segmentStartMs < r.segmentEndMs then
    match hins : a.table.insert? r with
    | none => none
    | some t => some ⟨t, by
        rw [(Table.insert?_eq_some_iff.mp hins).2, List.map_append, List.map_singleton]
        refine List.nodup_append.mpr ⟨a.naturalKeys_nodup, List.nodup_singleton _, ?_⟩
        rintro k hk k' hk' rfl
        exact h (List.mem_singleton.mp hk' ▸ hk)⟩
  else none

theorem mem_byNaturalKey {a : ActiveRecords} {k : NaturalKey} {r : ObservationRecord} :
    a.byNaturalKey k = some r ↔ r ∈ a.rows ∧ r.naturalKey = k := by
  constructor
  · intro h
    exact ⟨List.mem_of_find?_eq_some h, by simpa using List.find?_some h⟩
  · rintro ⟨hr, rfl⟩
    cases hf : a.byNaturalKey r.naturalKey with
    | none =>
        have := List.find?_eq_none.mp hf r hr
        simp at this
    | some r' =>
        have hk : r'.naturalKey = r.naturalKey := by simpa using List.find?_some hf
        rw [List.inj_on_of_nodup_map a.naturalKeys_nodup (List.mem_of_find?_eq_some hf) hr hk]

theorem byNaturalKey_eq_none {a : ActiveRecords} {k : NaturalKey} :
    a.byNaturalKey k = none ↔ ∀ r ∈ a.rows, r.naturalKey ≠ k := by
  simp [byNaturalKey, List.find?_eq_none]

theorem rows_erase (a : ActiveRecords) (id : String) :
    (a.erase id).rows = a.rows.filter fun r => decide (r.recordId ≠ id) := rfl

/-- A successful insertion appends the record. -/
theorem rows_insert? {a b : ActiveRecords} {r : ObservationRecord}
    (h : a.insert? r = some b) : b.rows = a.rows ++ [r] := by
  unfold insert? at h
  split at h
  · cases h
  · split at h
    · split at h
      · cases h
      · rename_i t ht
        cases h
        exact (Table.insert?_eq_some_iff.mp ht).2
    · cases h

end ActiveRecords

/-! ## Single writes -/

/-- Why a write was refused. -/
inductive DbError where
  | integrity
  | operational
deriving DecidableEq, Repr

/-- Commands, as the workers issue them. -/
structure PublishCommand where
  commandId : String
  analysisJobId : String
  records : List ObservationRecord
  archiveReason : String
deriving DecidableEq

structure PublicationResult where
  analysisJobId : String
  createdRecordIds : List String
  updatedRecordIds : List String
  archivedRecordIds : List String
deriving DecidableEq

/-- What a publication draws from outside the store: the clock, the uuids (by
draw), and the write, if any, that the database refuses. -/
structure PublishEnv where
  now : Iso.Text
  uuid : ℕ → String
  failAt : Option ℕ

/-- The store a transaction is working on and the writes it has made. -/
structure Working where
  store : ObservationStore
  writes : ℕ

/-- Steps of a transaction: a raised error leaves the working store as it is. -/
abbrev Tx (α : Type) := Working → Except DbError α × Working

/-- One write statement. -/
def write (env : PublishEnv) (f : ObservationStore → Except DbError ObservationStore) :
    Tx Unit := fun w =>
  if env.failAt = some w.writes then (.error .operational, w)
  else match f w.store with
    | .error e => (.error e, w)
    | .ok s => (.ok (), ⟨s, w.writes + 1⟩)

def Tx.bind {α β : Type} (x : Tx α) (f : α → Tx β) : Tx β := fun w =>
  match x w with
  | (.error e, w') => (.error e, w')
  | (.ok a, w') => f a w'

/-- A savepoint: on an error the store is the one it started from. -/
def beginNested {α : Type} (x : Tx α) : Tx α := fun w =>
  match x w with
  | (.error e, w') => (.error e, { w' with store := w.store })
  | (.ok a, w') => (.ok a, w')

instance : Monad Tx where
  pure a := fun w => (.ok a, w)
  bind := Tx.bind

/-! ## FTS sync -/

def joinTags (tags : List String) : String := String.intercalate " " tags

def FtsTables.index (t : FtsTables) (r : ObservationRecord) : FtsTables where
  staticRows := t.staticRows ++ [⟨r.recordId, r.staticDescriptionText⟩]
  dynamicRows := t.dynamicRows ++ [⟨r.recordId, r.dynamicDescriptionText⟩]
  tagsRows := t.tagsRows ++ [⟨r.recordId, joinTags r.tags⟩]

def withFts (f : FtsTables → FtsTables) (s : ObservationStore) :
    Except DbError ObservationStore :=
  .ok { s with fts := s.fts.map f }

/-- `index_record`: three inserts, or nothing without the virtual tables. -/
def indexRecord (env : PublishEnv) (r : ObservationRecord) : Tx Unit := fun w =>
  match w.store.fts with
  | none => (.ok (), w)
  | some _ =>
    (do
      write env (withFts fun t =>
        { t with staticRows := t.staticRows ++ [⟨r.recordId, r.staticDescriptionText⟩] })
      write env (withFts fun t =>
        { t with dynamicRows := t.dynamicRows ++ [⟨r.recordId, r.dynamicDescriptionText⟩] })
      write env (withFts fun t =>
        { t with tagsRows := t.tagsRows ++ [⟨r.recordId, joinTags r.tags⟩] }) : Tx Unit) w

def dropId (id : String) (rows : List FtsRow) : List FtsRow :=
  rows.filter fun row => decide (row.recordId ≠ id)

/-- `deindex_record`: three deletes, or nothing without the virtual tables. -/
def deindexRecord (env : PublishEnv) (id : String) : Tx Unit := fun w =>
  match w.store.fts with
  | none => (.ok (), w)
  | some _ =>
    (do
      write env (withFts fun t => { t with staticRows := dropId id t.staticRows })
      write env (withFts fun t => { t with dynamicRows := dropId id t.dynamicRows })
      write env (withFts fun t => { t with tagsRows := dropId id t.tagsRows }) : Tx Unit) w

/-! ## Publication -/

def insertHistory (row : HistoryRow) (s : ObservationStore) :
    Except DbError ObservationStore :=
  match s.history.insert? row with
  | none => .error .integrity
  | some h => .ok { s with history := h }

def deleteActive (id : String) (s : ObservationStore) : Except DbError ObservationStore :=
  .ok { s with active := s.active.erase id }

def insertActive (r : ObservationRecord) (s : ObservationStore) :
    Except DbError ObservationStore :=
  match s.active.insert? r with
  | none => .error .integrity
  | some a => .ok { s with active := a }

/-- The ids one publication has collected so far. -/
structure Tally where
  created : List String
  updated : List String
  archived : List String
deriving DecidableEq

def historyRow (env : PublishEnv) (cmd : PublishCommand) (tally : Tally)
    (old new : ObservationRecord) : HistoryRow where
  historyId := "hist_" ++ env.uuid tally.archived.length
  oldRecordId := old.recordId
  replacedByRecordId := new.recordId
  archivedByAnalysisJobId := cmd.analysisJobId
  archivedAt := env.now
  archiveReason := cmd.archiveReason
  recordSnapshot := old

/-- The replacement branch: archive the active row of the natural key, delete
it, and take it out of the index. -/
def archiveExisting (env : PublishEnv) (cmd : PublishCommand) (tally : Tally)
    (old new : ObservationRecord) : Tx Unit := do
  write env (insertHistory (historyRow env cmd tally old new))
  write env (deleteActive old.recordId)
  deindexRecord env old.recordId

/-- One turn of the record loop. -/
def publishRecord (env : PublishEnv) (cmd : PublishCommand) (tally : Tally)
    (r : ObservationRecord) : Tx Tally := fun w =>
  match w.store.active.byNaturalKey r.naturalKey with
  | some old =>
    (do
      archiveExisting env cmd tally old r
      write env (insertActive r)
      indexRecord env r
      pure { tally with
        updated := tally.updated ++ [r.recordId]
        archived := tally.archived ++ [old.recordId] } : Tx Tally) w
  | none =>
    (do
      write env (insertActive r)
      indexRecord env r
      pure { tally with created := tally.created ++ [r.recordId] } : Tx Tally) w

def publishRecordsLoop (env : PublishEnv) (cmd : PublishCommand) :
    Tally → List ObservationRecord → Tx Tally
  | tally, [] => pure tally
  | tally, r :: rs => do
    let tally ← publishRecord env cmd tally r
    publishRecordsLoop env cmd tally rs

def JobSummary.append (tally : Tally) (j : JobSummary) : JobSummary where
  analysisJobId := j.analysisJobId
  createdRecordIds := j.createdRecordIds ++ tally.created
  updatedRecordIds := j.updatedRecordIds ++ tally.updated
  archivedRecordIds := j.archivedRecordIds ++ tally.archived

/-- Update the job summary; a missing job row is passed over. -/
def appendSummary (cmd : PublishCommand) (tally : Tally) (s : ObservationStore) :
    Except DbError ObservationStore :=
  .ok { s with
    jobs := s.jobs.modify cmd.analysisJobId (JobSummary.append tally) fun _ => rfl }

def appendAudit (env : PublishEnv) (cmd : PublishCommand) (tally : Tally)
    (s : ObservationStore) : Except DbError ObservationStore :=
  match s.audit.insert? {
      auditEventId := "audit_" ++ env.uuid tally.archived.length
      eventType := "publication_succeeded"
      recordIds := tally.created ++ tally.updated
      analysisJobId := cmd.analysisJobId } with
  | none => .error .integrity
  | some a => .ok { s with audit := a }

def publishRecordsAtomically (env : PublishEnv) (cmd : PublishCommand) :
    Tx PublicationResult :=
  beginNested do
    let tally ← publishRecordsLoop env cmd ⟨[], [], []⟩ cmd.records
    write env (appendSummary cmd tally)
    write env (appendAudit env cmd tally)
    pure {
      analysisJobId := cmd.analysisJobId
      createdRecordIds := tally.created
      updatedRecordIds := tally.updated
      archivedRecordIds := tally.archived }

/-- A publication in a session of its own: committed on success; a raised error
rolls the session back to what the savepoint left, the store it started from. -/
def publish (env : PublishEnv) (cmd : PublishCommand) (s : ObservationStore) :
    Except DbError PublicationResult × ObservationStore :=
  let (result, w) := publishRecordsAtomically env cmd ⟨s, 0⟩
  (result, w.store)

end CctvMemory.Publication
