import CctvMemory.Library.Trace
import CctvMemory.Maintenance.Reindex
import CctvMemory.Publication.Invariant
import CctvMemory.Search.Outcome

/-!
# The vector index and the active set

Publications and reindex runs over one database, in any order. Publication
archives and deletes the record it replaces and takes it out of the FTS tables;
`observation_vectors` it leaves alone, and no caller of the index deletes from
it. A replaced record's vectors stay.

* `kept_iff_spares`: one step from a database whose vectors are all of active
  records keeps it so exactly when it replaces no record that has vectors.
* `vectors_track_active_records`: the same of every step of a run.
-/

namespace CctvMemory.Maintenance

open Keyed (Table Refers)
open CctvMemory.Publication (ObservationRecord ObservationStore HistoryRow PublishEnv
  PublishCommand Replaces publish publish_error publish_replaces)
open CctvMemory.Search (Engine)

/-! ## Runs -/

inductive Event where
  /-- A publication that commits. -/
  | published (env : PublishEnv) (cmd : PublishCommand)
  /-- A publication that raises, and is rolled back. -/
  | refused (env : PublishEnv) (cmd : PublishCommand)
  | reindexed (emb : Embedder) (q : ReindexRequest)

def step (eng : Engine) (db : Database) : Event → Option Database
  | .published env cmd =>
      match publish env cmd db.observations with
      | (.ok _, observations) => some { db with observations := observations }
      | (.error _, _) => none
  | .refused env cmd =>
      match publish env cmd db.observations with
      | (.ok _, _) => none
      | (.error _, observations) => some { db with observations := observations }
  | .reindexed emb q => some (cmdReindex eng emb q db).2

/-- Before anything was indexed. -/
def Database.unindexed (observations : ObservationStore) : Database where
  observations := observations
  vectors := Table.empty
  audit := []

/-! ## The index tracks the active set -/

/-- Every stored vector is of an active record. -/
def Tracks (db : Database) : Prop :=
  Refers (fun v : StoredVector => v.recordId) db.vectors db.observations.active.table

/-- After the step every stored vector is of an active record, and none is of a
record that the step archived. -/
def Kept (db : Database) (_ : Event) (db' : Database) : Prop :=
  Tracks db' ∧ ∀ h ∈ db'.observations.history.rows, h ∉ db.observations.history.rows →
    ∀ v ∈ db'.vectors.rows, v.recordId ≠ h.oldRecordId

/-- The event publishes no version of an active record that has vectors. -/
def Spares (db : Database) : Event → Database → Prop
  | .published _ cmd, _ => ∀ r ∈ cmd.records, ∀ old,
      db.observations.active.byNaturalKey r.naturalKey = some old →
        ∀ v ∈ db.vectors.rows, v.recordId ≠ old.recordId
  | .refused _ _, _ => True
  | .reindexed _ _, _ => True

section Steps

variable {eng : Engine} {db db' : Database}

theorem step_published {env : PublishEnv} {cmd : PublishCommand}
    (h : step eng db (.published env cmd) = some db') :
    db'.vectors = db.vectors ∧ ∃ archived,
      Replaces cmd.records db.observations db'.observations archived := by
  unfold step at h
  dsimp only at h
  split at h
  · rename_i res observations hpub
    cases h
    obtain ⟨archived, hreplaces⟩ := publish_replaces (congrArg Prod.fst hpub)
    rw [hpub] at hreplaces
    exact ⟨rfl, archived, hreplaces⟩
  · cases h

theorem step_refused {env : PublishEnv} {cmd : PublishCommand}
    (h : step eng db (.refused env cmd) = some db') : db' = db := by
  unfold step at h
  dsimp only at h
  split at h
  · cases h
  · rename_i e observations hpub
    cases h
    have hsame := publish_error (congrArg Prod.fst hpub)
    rw [hpub] at hsame
    dsimp only at hsame
    rw [hsame]

/-- A row that a publication added was not there before. -/
theorem mem_archived_iff {records : List ObservationRecord} {s s' : ObservationStore}
    {archived : List HistoryRow} (h : Replaces records s s' archived) {row : HistoryRow} :
    row ∈ archived ↔ row ∈ s'.history.rows ∧ row ∉ s.history.rows := by
  have hnodup := s'.history.nodup
  rw [h.history, List.map_append] at hnodup
  rw [h.history, List.mem_append]
  constructor
  · intro hnew
    refine ⟨Or.inr hnew, fun hold => ?_⟩
    exact (List.nodup_append.mp hnodup).2.2 _ (List.mem_map_of_mem hold) _
      (List.mem_map_of_mem hnew) rfl
  · rintro ⟨hold | hnew, hnot⟩
    · exact absurd hold hnot
    · exact hnew

/-- A sparing publication names no active record that has a vector. -/
theorem Spares.unnamed {env : PublishEnv} {cmd : PublishCommand}
    (h : Spares db (.published env cmd) db') {old : ObservationRecord}
    (hold : old ∈ db.observations.active.rows) {v : StoredVector} (hv : v ∈ db.vectors.rows)
    (hid : v.recordId = old.recordId) : ∀ r ∈ cmd.records, r.naturalKey ≠ old.naturalKey := by
  intro r hr hkey
  have hfound : db.observations.active.byNaturalKey r.naturalKey = some old :=
    Publication.ActiveRecords.mem_byNaturalKey.mpr ⟨hold, hkey.symm⟩
  exact h r hr old hfound v hv hid

theorem kept_of_spares {env : PublishEnv} {cmd : PublishCommand} (hs : Tracks db)
    (h : step eng db (.published env cmd) = some db')
    (hspares : Spares db (.published env cmd) db') : Kept db (.published env cmd) db' := by
  obtain ⟨hvectors, archived, hreplaces⟩ := step_published h
  constructor
  · unfold Tracks
    rw [hvectors]
    apply hs.mono
    rintro old hold ⟨v, hv, hid⟩
    exact (hreplaces.kept old hold (hspares.unnamed hold hv hid)).1
  · intro row hrow hnew v hv
    rw [hvectors] at hv
    obtain ⟨old, hold, hid⟩ := hs v hv
    have hunnamed := hspares.unnamed hold hv hid.symm
    have harchived := (mem_archived_iff hreplaces).mpr ⟨hrow, hnew⟩
    have hne := (hreplaces.kept old hold hunnamed).2 row harchived
    intro hrowId
    exact hne (hrowId.symm.trans hid.symm)

theorem spares_of_kept {env : PublishEnv} {cmd : PublishCommand}
    (h : step eng db (.published env cmd) = some db')
    (hkept : Kept db (.published env cmd) db') : Spares db (.published env cmd) db' := by
  obtain ⟨hvectors, archived, hreplaces⟩ := step_published h
  intro r hr old hfound v hv hid
  obtain ⟨hold, hkey⟩ := Publication.ActiveRecords.mem_byNaturalKey.mp hfound
  obtain ⟨row, hrow, hrowId⟩ := hreplaces.replaced old hold ⟨r, hr, hkey.symm⟩
  obtain ⟨hmem, hnew⟩ := (mem_archived_iff hreplaces).mp hrow
  apply hkept.2 row hmem hnew v
  · rw [hvectors]
    exact hv
  · rw [hid, hrowId]

theorem kept_reindexed (emb : Embedder) (q : ReindexRequest) (hs : Tracks db) :
    Kept db (.reindexed emb q) (cmdReindex eng emb q db).2 := by
  obtain ⟨hobs, hrefers⟩ := cmdReindex_refers eng emb q db hs
  constructor
  · unfold Tracks
    rw [hobs]
    exact hrefers
  · intro row hrow hnew
    rw [hobs] at hrow
    exact absurd hrow hnew

/-- Of a database whose vectors are all of active records: a step keeps it so,
and leaves no vector of what it archives, exactly when it spares the records
that have vectors. -/
theorem kept_iff_spares {e : Event} (hs : Tracks db) (h : step eng db e = some db') :
    Kept db e db' ↔ Spares db e db' := by
  cases e with
  | published env cmd => exact ⟨spares_of_kept h, kept_of_spares hs h⟩
  | refused env cmd =>
      rw [step_refused h]
      exact ⟨fun _ => trivial, fun _ => ⟨hs, fun row hrow hnew => absurd hrow hnew⟩⟩
  | reindexed emb q =>
      cases h
      exact ⟨fun _ => trivial, fun _ => kept_reindexed emb q hs⟩

end Steps

/-- Every sequence of publications and reindex runs, over a database that
nothing was indexed in yet: the index tracks the active set at every step
exactly when no publication of the sequence replaces a record that has
vectors. -/
theorem vectors_track_active_records (eng : Engine) (observations : ObservationStore)
    (es : List Event) :
    Trace.Throughout (step eng) Kept es (Database.unindexed observations) ↔
      Trace.Throughout (step eng) Spares es (Database.unindexed observations) := by
  apply Trace.throughout_congr (I := Tracks)
  · exact fun db e db' hs hstep => kept_iff_spares hs hstep
  · intro db e db' hs hstep hspares
    exact ((kept_iff_spares hs hstep).mpr hspares).1
  · exact Refers.empty _ _

/-! ## A replaced record -/

def mockEmbedder : Embedder where
  modelId := "mock-embedder-v1"
  dimension := 1
  embedTexts := fun _ texts => some (texts.map fun _ => [1])

def maintainer : ReindexRequest where
  scope := { Search.gateScope with capabilities := [.runtimeManage] }

/-- A command of one record, with the uuids of that suffix. -/
def publication (suffix : String) (r : ObservationRecord) : Event :=
  .published ⟨Iso.isoformat (.utc 0), fun n => suffix ++ toString n, none⟩
    ⟨"cmd_" ++ suffix, "job_1", [r], "reanalysis"⟩

/-- A record published, indexed, and published again under a new id: its
vectors stay. -/
theorem replaced_record_keeps_vectors : ∃ (es : List Event) (db : Database),
    Trace.exec (step Search.wordEngine) es
      (Database.unindexed (ObservationStore.initial true Table.empty Table.empty)) = some db ∧
    db.vectors.rows.map StoredVector.key = [("rec_a", .static), ("rec_a", .dynamic)] ∧
    db.observations.active.rows.map ObservationRecord.recordId = ["rec_b"] ∧
    db.observations.history.rows.map HistoryRow.oldRecordId = ["rec_a"] ∧
    ¬ Trace.Throughout (step Search.wordEngine) Kept es
      (Database.unindexed (ObservationStore.initial true Table.empty Table.empty)) := by
  let es : List Event := [
    publication "a" (Search.seen "rec_a" "cam_1" 0 "a red truck"),
    .reindexed mockEmbedder maintainer,
    publication "b" (Search.seen "rec_b" "cam_1" 0 "a red truck at the gate")]
  let db₀ := Database.unindexed (ObservationStore.initial true Table.empty Table.empty)
  have hrun : (Trace.exec (step Search.wordEngine) es db₀).map (fun db =>
      (db.vectors.rows.map StoredVector.key,
        db.observations.active.rows.map ObservationRecord.recordId,
        db.observations.history.rows.map HistoryRow.oldRecordId)) =
      some ([("rec_a", .static), ("rec_a", .dynamic)], ["rec_b"], ["rec_a"]) := by
    decide +kernel
  obtain ⟨db, hexec, hids⟩ := Option.map_eq_some_iff.mp hrun
  obtain ⟨hvectors, hids⟩ := Prod.mk.inj hids
  obtain ⟨hactive, hhistory⟩ := Prod.mk.inj hids
  refine ⟨es, db, hexec, hvectors, hactive, hhistory, fun hkept => ?_⟩
  have htracks : Tracks db :=
    hkept.at_end (fun _ _ _ hP => hP.1) (Refers.empty _ _) hexec
  have hmem : ("rec_a", Search.TextField.static) ∈ db.vectors.rows.map StoredVector.key := by
    rw [hvectors]
    exact List.mem_cons_self
  obtain ⟨v, hv, hkey⟩ := List.mem_map.mp hmem
  obtain ⟨r, hr, (hid : r.recordId = v.recordId)⟩ := htracks v hv
  have hrb : r.recordId ∈ ["rec_b"] := by
    rw [← hactive]
    exact List.mem_map_of_mem hr
  have hva : v.recordId = "rec_a" := congrArg Prod.fst hkey
  rw [hid, hva] at hrb
  exact absurd hrb (by decide)

end CctvMemory.Maintenance
