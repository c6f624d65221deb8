import CctvMemory.Ingestion.Service
import CctvMemory.Library.FirstCome

/-!
# Submissions on the two backends

A sequence of submissions to `create_or_get_by_idempotency` of the video sources,
from the empty table, on SQLite and on PostgreSQL. A start time is compared as ISO
text on the one and as an instant on the other.

* `submissions_eq`: a backend answers as the first-come machine of its key does.
* `backendIndependent_iff`: both answer the same exactly when no camera has two
  submissions of one instant written with two offsets.
-/

namespace CctvMemory.Ingestion

open FirstCome (Verdict Coincide)
open Keyed (Indexed)
open CctvMemory.Provisioning (VideoSource)

/-- The ids of new video sources, no two the same. -/
structure VideoIds where
  draw : ℕ → String
  injective : Function.Injective draw

inductive Submitted where
  | created
  | existing
  | conflict
  | failed
deriving DecidableEq, Repr

/-- Submission `n`, which draws its id. -/
def answer (b : Backend) (ids : VideoIds) (n : ℕ) (t : (videoSources b).Rows)
    (q : SubmitRequest) : Except StoreError (VideoSource × (videoSources b).Rows) :=
  (videoSources b).createOrGet b t (q.source (ids.draw n))

/-- What a submission that draws `videoId` comes to. -/
def comesTo {b : Backend} (videoId : String) :
    Except StoreError (VideoSource × (videoSources b).Rows) → Submitted
  | .ok (source, _) => if source.videoId = videoId then .created else .existing
  | .error (.idempotencyConflict _) => .conflict
  | .error _ => .failed

/-- The table after a submission: a session that fails is rolled back. -/
def rowsAfter {b : Backend} (t : (videoSources b).Rows) :
    Except StoreError (VideoSource × (videoSources b).Rows) → (videoSources b).Rows
  | .ok (_, t') => t'
  | .error _ => t

/-- The submissions from number `n` on, one after the other. -/
def submissionsFrom (b : Backend) (ids : VideoIds) :
    ℕ → (videoSources b).Rows → List SubmitRequest → List Submitted
  | _, _, [] => []
  | n, t, q :: qs =>
      comesTo (ids.draw n) (answer b ids n t q) ::
        submissionsFrom b ids (n + 1) (rowsAfter t (answer b ids n t q)) qs

def submissions (b : Backend) (ids : VideoIds) (qs : List SubmitRequest) : List Submitted :=
  submissionsFrom b ids 0 Indexed.empty qs

/-- What is asked of the two backends: as many sources, and the same submissions
that find one and that conflict with one. -/
structure BackendIndependent (sqlite postgres : List Submitted) : Prop where
  created : sqlite.count .created = postgres.count .created
  existing : ∀ i : ℕ, sqlite[i]? = some Submitted.existing ↔ postgres[i]? = some Submitted.existing
  conflict : ∀ i : ℕ, sqlite[i]? = some Submitted.conflict ↔ postgres[i]? = some Submitted.conflict

/-! ## One backend -/

section Backend

variable {b : Backend} {ids : VideoIds}

/-- A source without the id that was drawn for it. -/
def anonymous (v : VideoSource) : VideoSource := { v with videoId := "" }

def sameUri (v w : VideoSource) : Bool := decide (v.sourceUri = w.sourceUri)

def Submitted.ofVerdict : Verdict → Submitted
  | .created => .created
  | .found => .existing
  | .refused => .conflict

/-- The table after `n` submissions, and the sources kept so far. -/
structure Holds (b : Backend) (ids : VideoIds) (n : ℕ) (t : (videoSources b).Rows)
    (kept : List VideoSource) : Prop where
  rows : t.rows.map anonymous = kept
  drawn : ∀ v ∈ t.rows, ∃ i < n, v.videoId = ids.draw i

theorem holds_empty : Holds b ids 0 Indexed.empty [] :=
  ⟨rfl, fun _ h => absurd h List.not_mem_nil⟩

theorem Holds.free {n : ℕ} {t : (videoSources b).Rows} {kept : List VideoSource}
    (h : Holds b ids n t kept) : t.get? (ids.draw n) = none := by
  refine Keyed.Table.get?_eq_none_iff.mpr fun v hv heq => ?_
  obtain ⟨i, hi, hdrawn⟩ := h.drawn v hv
  exact absurd (ids.injective (hdrawn.symm.trans heq)) (Nat.ne_of_lt hi)

theorem Holds.find? {n : ℕ} {t : (videoSources b).Rows} {kept : List VideoSource}
    (h : Holds b ids n t kept) (q : SubmitRequest) (videoId : String) :
    kept.find? (fun v => decide (videoKey b v = videoKey b (q.source "")))
      = (t.find? (videoKey b (q.source videoId))).map anonymous := by
  rw [← h.rows, List.find?_map]
  rfl

/-- A submission is answered as the first-come machine answers it. -/
theorem Holds.submit {n : ℕ} {t : (videoSources b).Rows} {kept : List VideoSource}
    (h : Holds b ids n t kept) (q : SubmitRequest) :
    comesTo (ids.draw n) (answer b ids n t q)
        = .ofVerdict (FirstCome.verdict (videoKey b) sameUri kept (q.source "")) ∧
      Holds b ids (n + 1) (rowsAfter t (answer b ids n t q))
        (FirstCome.keep (videoKey b) sameUri kept (q.source "")) := by
  have hlater : ∀ v ∈ t.rows, ∃ i < n + 1, v.videoId = ids.draw i := by
    intro v hv
    obtain ⟨i, hi, hdrawn⟩ := h.drawn v hv
    exact ⟨i, Nat.lt_succ_of_lt hi, hdrawn⟩
  unfold FirstCome.keep FirstCome.verdict answer Repository.createOrGet
  rw [h.find? q (ids.draw n), show (videoSources b).key (q.source (ids.draw n))
    = videoKey b (q.source (ids.draw n)) from rfl]
  cases hget : t.find? (videoKey b (q.source (ids.draw n))) with
  | none =>
      obtain ⟨t', hinsert⟩ : ∃ t', (videoSources b).insert b t (q.source (ids.draw n)) = .ok t' :=
        Repository.insert_of_free h.free hget
      obtain ⟨-, -, hrows⟩ := Indexed.insert?_eq_some_iff.mp (Repository.insert_ok hinsert)
      dsimp only [Option.map_none]
      rw [hinsert]
      refine ⟨if_pos rfl, ?_, ?_⟩
      · show t'.rows.map anonymous = kept ++ [_]
        rw [hrows, List.map_append, h.rows]
        rfl
      · show ∀ v ∈ t'.rows, _
        intro v hv
        rw [hrows] at hv
        rcases List.mem_append.mp hv with hv | hv
        · exact hlater v hv
        · exact ⟨n, Nat.lt_succ_self n, by rw [List.mem_singleton.mp hv]; rfl⟩
  | some existing =>
      have hother : existing.videoId ≠ ids.draw n := by
        intro heq
        have hmem := (Indexed.find?_eq_some_iff.mp hget).1
        exact Keyed.Table.get?_eq_none_iff.mp h.free existing hmem heq
      dsimp only [Option.map_some]
      by_cases huri : existing.sourceUri = q.sourceUri
      · have hconflict : (videoSources b).conflict existing (q.source (ids.draw n)) = none :=
          if_neg fun hne => hne huri
        have hsame : sameUri (anonymous existing) (q.source "") = true := decide_eq_true huri
        rw [hconflict, hsame]
        exact ⟨if_neg hother, h.rows, hlater⟩
      · obtain ⟨message, hconflict⟩ : ∃ message,
            (videoSources b).conflict existing (q.source (ids.draw n)) = some message :=
          ⟨_, if_pos huri⟩
        have hsame : sameUri (anonymous existing) (q.source "") = false := decide_eq_false huri
        rw [hconflict, hsame]
        exact ⟨rfl, h.rows, hlater⟩

theorem submissionsFrom_eq (qs : List SubmitRequest) :
    ∀ n t kept, Holds b ids n t kept → submissionsFrom b ids n t qs
      = (FirstCome.verdicts (videoKey b) sameUri kept (qs.map (SubmitRequest.source · ""))).map
        .ofVerdict := by
  induction qs with
  | nil => exact fun _ _ _ _ => rfl
  | cons q qs ih =>
      intro n t kept h
      obtain ⟨hanswer, hnext⟩ := h.submit q
      rw [submissionsFrom, List.map_cons, FirstCome.verdicts, List.map_cons]
      exact congrArg₂ List.cons hanswer (ih _ _ _ hnext)

/-- A backend answers as the first-come machine of its key does. -/
theorem submissions_eq (b : Backend) (ids : VideoIds) (qs : List SubmitRequest) :
    submissions b ids qs
      = (FirstCome.verdicts (videoKey b) sameUri [] (qs.map (SubmitRequest.source · ""))).map
        .ofVerdict :=
  submissionsFrom_eq qs 0 Indexed.empty [] holds_empty

end Backend

/-! ## Both backends -/

/-- The three parts say that the answers are equal. -/
theorem backendIndependent_iff_eq (vs ws : List Verdict) (hlength : vs.length = ws.length) :
    BackendIndependent (vs.map .ofVerdict) (ws.map .ofVerdict) ↔ vs = ws := by
  constructor
  · intro h
    refine List.ext_getElem? fun i => ?_
    have hexisting := h.existing i
    have hconflict := h.conflict i
    rw [List.getElem?_map, List.getElem?_map] at hexisting hconflict
    by_cases hi : i < vs.length
    · rw [List.getElem?_eq_getElem hi, List.getElem?_eq_getElem (hlength ▸ hi)] at *
      generalize vs[i] = v at *
      generalize ws[i] = w at *
      cases v <;> cases w <;> simp_all [Submitted.ofVerdict]
    · rw [List.getElem?_eq_none (not_lt.mp hi), List.getElem?_eq_none (hlength ▸ not_lt.mp hi)]
  · rintro rfl
    exact ⟨rfl, fun _ => Iff.rfl, fun _ => Iff.rfl⟩

/-- The two anchors of a submission: the text tells apart more than the instant. -/
theorem videoKey_postgres_of_sqlite (v w : VideoSource)
    (h : videoKey .sqlite v = videoKey .sqlite w) : videoKey .postgres v = videoKey .postgres w := by
  obtain ⟨hcamera, htext⟩ := Prod.ext_iff.mp h
  rw [videoKey, videoKey, show v.cameraId = w.cameraId from hcamera, startKey, startKey,
    Iso.isoformat_injective htext]

/-- One camera, one instant, two offsets. -/
def SameInstant (q q' : SubmitRequest) : Prop :=
  q.cameraId = q'.cameraId ∧ q.videoStartTime.instant = q'.videoStartTime.instant

theorem coincide_iff (qs : List SubmitRequest) :
    Coincide (videoKey .sqlite) (videoKey .postgres) (qs.map (SubmitRequest.source · "")) ↔
      ∀ q ∈ qs, ∀ q' ∈ qs, SameInstant q q' →
        q.videoStartTime.utcoffset = q'.videoStartTime.utcoffset := by
  unfold Coincide
  rw [List.forall_mem_map]
  refine forall₂_congr fun q _ => ?_
  rw [List.forall_mem_map]
  refine forall₂_congr fun q' _ => ?_
  have hpostgres : videoKey .postgres (q.source "") = videoKey .postgres (q'.source "") ↔
      SameInstant q q' := by
    unfold videoKey startKey SameInstant
    rw [Prod.mk.injEq, Iso.isoformat_injective.eq_iff]
    refine and_congr_right fun _ => ⟨fun h => ?_, fun h => congrArg Iso.DateTime.utc h⟩
    have hinstant := congrArg Iso.DateTime.instant h
    rw [Iso.DateTime.instant_utc, Iso.DateTime.instant_utc] at hinstant
    exact hinstant
  have hsqlite : videoKey .sqlite (q.source "") = videoKey .sqlite (q'.source "") ↔
      q.cameraId = q'.cameraId ∧ q.videoStartTime = q'.videoStartTime := by
    unfold videoKey startKey
    rw [Prod.mk.injEq, Iso.isoformat_injective.eq_iff]
    rfl
  rw [hpostgres, hsqlite]
  refine forall_congr' fun hsame => ?_
  rw [and_iff_right hsame.1]
  exact ⟨fun h => congrArg Iso.DateTime.utcoffset h, Iso.DateTime.ext_instant hsame.2⟩

/-- The backends answer the same exactly when their anchors tell apart the same
submissions. -/
theorem backendIndependent_iff_coincide (sqliteIds postgresIds : VideoIds)
    (qs : List SubmitRequest) :
    BackendIndependent (submissions .sqlite sqliteIds qs)
        (submissions .postgres postgresIds qs) ↔
      Coincide (videoKey .sqlite) (videoKey .postgres)
        (qs.map (SubmitRequest.source · "")) := by
  rw [submissions_eq, submissions_eq, backendIndependent_iff_eq _ _ (by
    rw [FirstCome.length_verdicts, FirstCome.length_verdicts]),
    FirstCome.verdicts_eq_iff videoKey_postgres_of_sqlite]

/-- Both backends answer a sequence of submissions the same exactly when no camera
has two of one instant that are written with two offsets. -/
theorem backendIndependent_iff (sqliteIds postgresIds : VideoIds) (qs : List SubmitRequest) :
    BackendIndependent (submissions .sqlite sqliteIds qs)
        (submissions .postgres postgresIds qs) ↔
      ∀ q ∈ qs, ∀ q' ∈ qs, SameInstant q q' →
        q.videoStartTime.utcoffset = q'.videoStartTime.utcoffset := by
  rw [backendIndependent_iff_coincide, coincide_iff]

def countedIds : VideoIds where
  draw n := String.ofList (List.replicate n '0')
  injective m n h := by
    have hlength := congrArg List.length (String.ofList_injective h)
    simpa using hlength

/-- One camera, 21:00 at UTC+8 and 13:00 at UTC. -/
def oneInstant : List SubmitRequest :=
  [⟨.file, "/videos/a.mp4", "cam_lobby_01", Iso.DateTime.onClock 28800 0, none, none, []⟩,
    ⟨.file, "/videos/a.mp4", "cam_lobby_01", Iso.DateTime.utc 0, none, none, []⟩]

/-- SQLite makes two sources of them, PostgreSQL one. -/
theorem not_backendIndependent_oneInstant :
    ¬ BackendIndependent (submissions .sqlite countedIds oneInstant)
      (submissions .postgres countedIds oneInstant) := by
  rw [backendIndependent_iff_coincide, coincide_iff]
  intro h
  have hoffset := h _ List.mem_cons_self _ (List.mem_cons_of_mem _ List.mem_cons_self)
    ⟨rfl, by rw [Iso.DateTime.instant_onClock, Iso.DateTime.instant_utc]⟩
  exact absurd hoffset (by decide)

end CctvMemory.Ingestion
