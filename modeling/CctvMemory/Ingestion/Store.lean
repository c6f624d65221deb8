import CctvMemory.Domain.Enums
import CctvMemory.Library.Indexed
import CctvMemory.Provisioning.Store
import Mathlib.Data.Rat.Defs

/-!
# Rows that are created or found

Video sources, high-frequency triggers and analysis units: each has a primary
key, drawn anew for every call, and an idempotency key with a unique constraint.
`create_or_get_by_idempotency` returns the row with the key of the request, or
inserts one; a call whose insert meets the constraint fails, on SQLite with an
idempotency conflict, on PostgreSQL with the driver's own error.
-/

namespace CctvMemory.Ingestion

open Keyed (Indexed)
open CctvMemory.Provisioning (VideoSource)

inductive Backend where
  | sqlite
  | postgres
deriving DecidableEq, Repr

inductive StoreError where
  | capabilityDenied (message : String)
  | idempotencyConflict (message : String)
  | conflict (message : String)
  | integrity (message : String)
deriving DecidableEq, Repr

/-! ## Rows -/

inductive TriggerStatus where
  | pending
  | running
  | succeeded
  | failed
  | skipped
deriving DecidableEq, Repr

structure HighFreqTrigger where
  triggerId : String
  analysisJobId : String
  scaleTaskId : String
  videoId : String
  triggerStartMs : ℤ
  triggerEndMs : ℤ
  motionScore : Option ℚ := none
  changeScore : Option ℚ := none
  triggerReason : String
  status : TriggerStatus := .pending
  idempotencyKey : String
  errorCode : Option String := none
  errorMessage : Option String := none
deriving DecidableEq

structure AnalysisUnit where
  unitId : String
  analysisJobId : String
  scaleTaskId : String
  videoId : String
  analysisScale : AnalysisScale
  unitKind : String
  segmentStartMs : ℤ
  segmentEndMs : ℤ
  windowIndex : ℕ
  triggerId : Option String := none
  status : TaskStatus := .pending
  attemptCount : ℕ := 0
  maxAttempts : ℕ := 1
  lastErrorCode : Option String := none
  lastErrorMessage : Option String := none
  latestModelCallId : Option String := none
  successfulModelCallId : Option String := none
  producedRecordIds : List String := []
  idempotencyKey : String
deriving DecidableEq

/-! ## Repositories -/

/-- One table with an idempotency key. Rows of one payload differ in the id they
draw (`withId`); `conflict` is the message for a stored row of another payload. -/
structure Repository (ρ κ : Type) where
  pk : ρ → String
  key : ρ → κ
  withId : ρ → String → ρ
  conflict : ρ → ρ → Option String
  pkColumn : String
  keyColumns : String
  pk_withId : ∀ row id, pk (withId row id) = id
  key_withId : ∀ row id, key (withId row id) = key row
  conflict_withId : ∀ row id id', conflict (withId row id) (withId row id') = none

/-- A start time as the unique constraint compares it: the text on SQLite, the
instant on PostgreSQL. -/
def startKey : Backend → Iso.DateTime → Iso.Text
  | .sqlite, t => Iso.isoformat t
  | .postgres, t => Iso.isoformat (Iso.DateTime.utc t.instant)

def videoKey (b : Backend) (v : VideoSource) : String × Iso.Text :=
  (v.cameraId, startKey b v.videoStartTime)

def sourceConflict (existing incoming : VideoSource) : Option String :=
  if existing.sourceUri ≠ incoming.sourceUri then
    some "VideoSource exists for (camera_id, video_start_time) with different payload"
  else none

def videoSources (b : Backend) : Repository VideoSource (String × Iso.Text) where
  pk := VideoSource.videoId
  key := videoKey b
  withId v id := { v with videoId := id }
  conflict := sourceConflict
  pkColumn := "video_sources.video_id"
  keyColumns := "video_sources.camera_id, video_sources.video_start_time"
  pk_withId _ _ := rfl
  key_withId _ _ := rfl
  conflict_withId _ _ _ := if_neg fun h => h rfl

def highFreqTriggers : Repository HighFreqTrigger String where
  pk := HighFreqTrigger.triggerId
  key := HighFreqTrigger.idempotencyKey
  withId t id := { t with triggerId := id }
  conflict _ _ := none
  pkColumn := "high_freq_triggers.trigger_id"
  keyColumns := "high_freq_triggers.idempotency_key"
  pk_withId _ _ := rfl
  key_withId _ _ := rfl
  conflict_withId _ _ _ := rfl

def analysisUnits : Repository AnalysisUnit String where
  pk := AnalysisUnit.unitId
  key := AnalysisUnit.idempotencyKey
  withId u id := { u with unitId := id }
  conflict _ _ := none
  pkColumn := "analysis_units.unit_id"
  keyColumns := "analysis_units.idempotency_key"
  pk_withId _ _ := rfl
  key_withId _ _ := rfl
  conflict_withId _ _ _ := rfl

namespace Repository

variable {ρ κ : Type} (r : Repository ρ κ)

/-- The rows of the table: no two with one primary key, none with one
idempotency key. -/
abbrev Rows : Type := Indexed ρ r.pk r.key

/-- A unique constraint is violated: SQLite's error is mapped, the one of a
PostgreSQL `execute` is raised outside the mapping. -/
def uniqueViolation (b : Backend) (columns : String) : StoreError :=
  match b with
  | .sqlite => .idempotencyConflict ("UNIQUE constraint failed: " ++ columns)
  | .postgres => .integrity ("duplicate key value violates unique constraint on " ++ columns)

variable [DecidableEq κ]

def insert (b : Backend) (t : r.Rows) (row : ρ) : Except StoreError r.Rows :=
  match t.insert? row with
  | some t' => .ok t'
  | none => .error (uniqueViolation b
      (if (t.find? (r.key row)).isSome then r.keyColumns else r.pkColumn))

def createOrGet (b : Backend) (t : r.Rows) (row : ρ) : Except StoreError (ρ × r.Rows) :=
  match t.find? (r.key row) with
  | some existing => match r.conflict existing row with
      | some message => .error (.idempotencyConflict message)
      | none => .ok (existing, t)
  | none => match r.insert b t row with
      | .ok t' => .ok (row, t')
      | .error e => .error e

variable {r}

theorem insert_ok {b : Backend} {t t' : r.Rows} {row : ρ} (h : r.insert b t row = .ok t') :
    t.insert? row = some t' := by
  unfold insert at h
  split at h
  · rename_i u hins
    cases h
    exact hins
  · cases h

/-- A free id and a free key are inserted. -/
theorem insert_of_free {b : Backend} {t : r.Rows} {row : ρ} (hpk : t.get? (r.pk row) = none)
    (hkey : t.find? (r.key row) = none) : ∃ t', r.insert b t row = .ok t' := by
  obtain ⟨t', hins⟩ := Indexed.exists_insert? hpk hkey
  refine ⟨t', ?_⟩
  unfold insert
  rw [hins]

/-- A row of the same key and payload is returned as it is. -/
theorem createOrGet_of_found {b : Backend} {t : r.Rows} {row existing : ρ}
    (hfind : t.find? (r.key row) = some existing) (hconflict : r.conflict existing row = none) :
    r.createOrGet b t row = .ok (existing, t) := by
  unfold createOrGet
  rw [hfind]
  dsimp only
  rw [hconflict]

/-- A free id and a free key: the row is stored behind the others. -/
theorem createOrGet_of_free {b : Backend} {t : r.Rows} {row : ρ} (hpk : t.get? (r.pk row) = none)
    (hkey : t.find? (r.key row) = none) :
    ∃ t', r.createOrGet b t row = .ok (row, t') ∧ t'.rows = t.rows ++ [row] := by
  obtain ⟨t', hins⟩ := insert_of_free (b := b) hpk hkey
  refine ⟨t', ?_, (Indexed.insert?_eq_some_iff.mp (insert_ok hins)).2.2⟩
  unfold createOrGet
  rw [hkey]
  dsimp only
  rw [hins]

end Repository

end CctvMemory.Ingestion
