import CctvMemory.Search.Service

/-!
# The PostgreSQL read adapter

`PostgresObservationReadRepository._search_observations` as the candidate pool
calls it: start and end times are instants (`TIMESTAMPTZ`), tags are JSONB, whose
text keeps every character but quotes, backslashes and control characters, and
`ILIKE` takes a backslash in its pattern for an escape.
-/

namespace CctvMemory.Search.Postgres

open CctvMemory.Publication (ObservationRecord ObservationStore)
open CctvMemory.Authorization

/-! ## Tags -/

/-- One character inside a JSON string, as the text of a JSONB value has it. -/
def jsonbChar (c : Char) : List Char :=
  let n := c.toNat
  let escaped (d : Char) := [Char.ofNat 92, d]
  if n = 34 then escaped (Char.ofNat 34)
  else if n = 92 then escaped (Char.ofNat 92)
  else if n = 10 then escaped 'n'
  else if n = 13 then escaped 'r'
  else if n = 9 then escaped 't'
  else if n = 12 then escaped 'f'
  else if n = 8 then escaped 'b'
  else if n < 32 then unicodeEscape n
  else [c]

def jsonbString (s : String) : List Char :=
  [Char.ofNat 34] ++ s.toList.flatMap jsonbChar ++ [Char.ofNat 34]

/-- `tags_json::text`. -/
def tagsText (tags : List String) : List Char :=
  ['['] ++ [',', ' '].intercalate (tags.map jsonbString) ++ [']']

/-- SQL `LIKE` on folded texts: `%` any run, `_` any character, a backslash takes
the next character as it is. -/
def likeMatch : List Char → List Char → Bool
  | [], text => text.isEmpty
  | p :: pattern, text =>
      if p = '%' then text.tails.any (likeMatch pattern)
      else if p = Char.ofNat 92 then
        match pattern, text with
        | q :: pattern, c :: text => decide (q = c) && likeMatch pattern text
        | _, _ => false
      else match text with
        | [] => false
        | c :: text => (decide (p = '_') || decide (p = c)) && likeMatch pattern text

/-- `tags_json::text ILIKE '%tag%'`; `fold` is the lower case of the database. -/
def tagLike (fold : List Char → List Char) (tag : String) (r : ObservationRecord) : Bool :=
  likeMatch (fold (['%'] ++ tag.toList ++ ['%'])) (fold (tagsText r.tags))

/-! ## The pool -/

/-- `_authorized_observation_where`: an empty dimension is `FALSE`. -/
def authorizedObservationWhere (scope : AuthorizedScope) (r : ObservationRecord) : Bool :=
  let allowedLevels := SecurityLevel.all.filter scope.maxSecurityLevel.allows
  if scope.allowedCameraIds = [] ∨ scope.allowedLocationIds = [] ∨
      scope.allowedAccessPolicyIds = [] ∨ allowedLevels = [] then false
  else
    decide (r.tenantId = scope.tenantId) &&
    decide (r.cameraId ∈ scope.allowedCameraIds) &&
    decide (r.locationId ∈ scope.allowedLocationIds) &&
    decide (r.accessPolicyId ∈ scope.allowedAccessPolicyIds) &&
    decide (r.securityLevel ∈ allowedLevels)

/-- Empty or not, it is the filter of the other adapter. -/
theorem authorizedObservationWhere_eq (scope : AuthorizedScope) (r : ObservationRecord) :
    authorizedObservationWhere scope r = authorizedObservationFilter scope r := by
  unfold authorizedObservationWhere authorizedObservationFilter
  dsimp only
  split
  · rename_i hempty
    rcases hempty with h | h | h | h <;> simp [h]
  · rfl

def structuralWhere (fold : List Char → List Char) (req : StartRequest)
    (r : ObservationRecord) : Bool :=
  inFilter req.cameraIds r.cameraId &&
  inFilter req.locationIds r.locationId &&
  inFilter req.videoIds r.videoId &&
  inFilter req.analysisScaleFilter r.analysisScale &&
  (match req.timeRange with
    | none => true
    | some (start, stop) =>
        decide (start.instant ≤ r.observedEndTime.instant) &&
        decide (r.observedStartTime.instant ≤ stop.instant)) &&
  req.tagFilters.all fun tag => tagLike fold tag r

/-- `ORDER BY observed_start_time, record_id`. -/
def startTimeLe (a b : ObservationRecord) : Bool :=
  decide (a.observedStartTime.instant < b.observedStartTime.instant) ||
  (decide (a.observedStartTime.instant = b.observedStartTime.instant) &&
    decide (a.recordId ≤ b.recordId))

def authorizedCandidatePool (fold : List Char → List Char) (store : ObservationStore)
    (scope : AuthorizedScope) (req : StartRequest) (limit : ℕ) : List ObservationRecord :=
  ((store.active.rows.filter fun r =>
    authorizedObservationWhere scope r && structuralWhere fold req r).mergeSort startTimeLe).take
    limit

end CctvMemory.Search.Postgres
