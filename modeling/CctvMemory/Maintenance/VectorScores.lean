import CctvMemory.Maintenance.Reindex
import CctvMemory.Search.Noninterference

/-!
# Vector scores and embedding models

Search asks an index for the vectors of its candidates by record and channel and
scores each row it gets, whatever model the row was embedded with. SQLite keeps
one row for a record and channel, PostgreSQL one for each model, read in the
order of the model ids.

* `lookup_vectorScores_eq_some_iff`: the row that decides a candidate's score.
* `modelConsistent_iff`: scores are those of the current model exactly when every
  deciding row has the cosine of the current model's row.
-/

namespace CctvMemory.Maintenance

open Keyed (Table)
open CctvMemory.Search (Engine Scores TextField vectorChannel lookup_dictOf)

/-! ## The two indexes -/

def vectorTypeName : TextField → String
  | .static => "static"
  | .dynamic => "dynamic"
  | .tags => "tags"

/-- How a database sorts text: by a key that tells any two texts apart. -/
structure Collation where
  Key : Type
  linear : LinearOrder Key
  sortKey : String → Key
  injective : Function.Injective sortKey

attribute [instance] Collation.linear

/-- `ORDER BY record_id, vector_type, model_id`. -/
def Collation.rowKey (c : Collation) (v : StoredVector) : c.Key ×ₗ (c.Key ×ₗ c.Key) :=
  toLex (c.sortKey v.recordId, toLex (c.sortKey (vectorTypeName v.vectorType),
    c.sortKey v.modelId))

def StoredVector.modelKey (v : StoredVector) : String × TextField × String :=
  (v.recordId, v.vectorType, v.modelId)

inductive VectorIndex where
  | sqlite (t : VectorTable)
  | postgres (c : Collation) (t : Table StoredVector StoredVector.modelKey)

namespace VectorIndex

def rows : VectorIndex → List StoredVector
  | sqlite t => t.rows
  | postgres _ t => t.rows

/-- `get_vectors_for_records`. -/
def getVectorsForRecords : VectorIndex → List String → TextField → List StoredVector
  | sqlite t, ids, ty => Maintenance.getVectorsForRecords ids (some ty) t
  | postgres c t, ids, ty =>
      if ids = [] then []
      else (t.rows.filter fun v =>
        decide (v.recordId ∈ ids) && decide (v.vectorType = ty)).mergeSort
          fun v w => decide (c.rowKey v ≤ c.rowKey w)

/-- The row of a record and channel under a model. -/
def current (index : VectorIndex) (modelId recordId : String) (ty : TextField) :
    Option StoredVector :=
  index.rows.find? fun v => decide (v.modelKey = (recordId, ty, modelId))

/-- Rows of one record and channel, in the order they are read. -/
def ModelLe : VectorIndex → StoredVector → StoredVector → Prop
  | sqlite _, _, _ => True
  | postgres c _, v, w => c.sortKey v.modelId ≤ c.sortKey w.modelId

end VectorIndex

section Scores

variable (eng : Engine) (index : VectorIndex) (ids : List String) (query : String)
  (ty : TextField) (modelId : String)

/-- `_vector_channel`. -/
def vectorScores : Scores :=
  vectorChannel eng ((index.getVectorsForRecords ids ty).map StoredVector.toStoredVector) ids
    query ty

/-- The score a record should have: the positive cosine of its vector under the
current model. -/
def currentScore (recordId : String) : Option ℚ := do
  let queryVec ← eng.embedQuery query
  let v ← index.current modelId recordId ty
  let similarity := eng.cosineSimilarity queryVec v.embedding
  if 0 < similarity then some similarity else none

/-- Every candidate has the score of the current model, or none. -/
def ModelConsistent : Prop :=
  ∀ recordId ∈ ids, (vectorScores eng index ids query ty).lookup recordId
    = currentScore eng index query ty modelId recordId

/-- A row that a record's score is taken from: similar to the query, and of no such
row of the record and channel is the model read after its own. -/
structure Decides (queryVec : List ℚ) (recordId : String) (v : StoredVector) : Prop where
  stored : v ∈ index.rows
  key : v.key = (recordId, ty)
  positive : 0 < eng.cosineSimilarity queryVec v.embedding
  last : ∀ w ∈ index.rows, w.key = (recordId, ty) →
    0 < eng.cosineSimilarity queryVec w.embedding → index.ModelLe w v

end Scores

/-! ## The deciding row -/

section Decide

variable {eng : Engine} {index : VectorIndex} {ids : List String} {query : String}
  {ty : TextField} {queryVec : List ℚ} {recordId : String}

theorem mem_getVectorsForRecords {v : StoredVector} :
    v ∈ index.getVectorsForRecords ids ty ↔
      v ∈ index.rows ∧ v.recordId ∈ ids ∧ v.vectorType = ty := by
  cases index with
  | sqlite t =>
      simp only [VectorIndex.getVectorsForRecords, Maintenance.getVectorsForRecords,
        VectorIndex.rows]
      split
      · rename_i h
        simp [h]
      · simp
  | postgres c t =>
      simp only [VectorIndex.getVectorsForRecords, VectorIndex.rows]
      split
      · rename_i h
        simp [h]
      · simp

/-- Rows of one record, channel and model are one row. -/
theorem VectorIndex.eq_of_modelKey_eq {v w : StoredVector} (hv : v ∈ index.rows)
    (hw : w ∈ index.rows) (h : v.modelKey = w.modelKey) : v = w := by
  obtain ⟨hrecord, htype, -⟩ : v.recordId = w.recordId ∧ v.vectorType = w.vectorType ∧
      v.modelId = w.modelId := by simpa [StoredVector.modelKey] using h
  cases index with
  | sqlite t => exact Table.eq_of_key_eq hv hw (by rw [StoredVector.key, hrecord, htype]; rfl)
  | postgres c t => exact Table.eq_of_key_eq hv hw h

/-- The rows of one record are read in the order of their models. -/
theorem pairwise_getVectorsForRecords (recordId : String) :
    ((index.getVectorsForRecords ids ty).filter fun v => decide (v.recordId = recordId)).Pairwise
      index.ModelLe := by
  cases index with
  | sqlite t => exact List.pairwise_of_forall fun _ _ => trivial
  | postgres c t =>
      simp only [VectorIndex.getVectorsForRecords]
      split
      · exact List.Pairwise.nil
      · have hsorted := (SortKey.of_decide c.rowKey).pairwise_key_mergeSort
          (t.rows.filter fun v => decide (v.recordId ∈ ids) && decide (v.vectorType = ty))
        refine (hsorted.filter _).imp_of_mem fun {v w} hv hw hle => ?_
        rw [List.mem_filter, List.mem_mergeSort, List.mem_filter, Bool.and_eq_true,
          decide_eq_true_eq, decide_eq_true_eq, decide_eq_true_eq] at hv hw
        rw [Collation.rowKey, Collation.rowKey, hv.2, hw.2, hv.1.2.2, hw.1.2.2,
          Prod.Lex.toLex_le_toLex, Prod.Lex.toLex_le_toLex] at hle
        have hmodel : c.sortKey v.modelId ≤ c.sortKey w.modelId := by simpa using hle
        exact hmodel

/-- The rows of a record that are similar to the query, as they are read. -/
def similarRows (eng : Engine) (index : VectorIndex) (ids : List String) (ty : TextField)
    (queryVec : List ℚ) (recordId : String) : List StoredVector :=
  ((index.getVectorsForRecords ids ty).filter fun v => decide (v.recordId = recordId)).filter
    fun v => decide (0 < eng.cosineSimilarity queryVec v.embedding)

theorem mem_similarRows (hid : recordId ∈ ids) {v : StoredVector} :
    v ∈ similarRows eng index ids ty queryVec recordId ↔
      v ∈ index.rows ∧ v.key = (recordId, ty) ∧
        0 < eng.cosineSimilarity queryVec v.embedding := by
  simp only [similarRows, List.mem_filter, mem_getVectorsForRecords, decide_eq_true_eq,
    StoredVector.key, Prod.mk.injEq]
  constructor
  · rintro ⟨⟨⟨hv, -, htype⟩, hrecord⟩, hpositive⟩
    exact ⟨hv, ⟨hrecord, htype⟩, hpositive⟩
  · rintro ⟨hv, ⟨hrecord, htype⟩, hpositive⟩
    exact ⟨⟨⟨hv, hrecord ▸ hid, htype⟩, hrecord⟩, hpositive⟩

/-- The last row wins. -/
theorem lookup_vectorScores (hquery : eng.embedQuery query = some queryVec)
    (recordId : String) :
    (vectorScores eng index ids query ty).lookup recordId
      = (similarRows eng index ids ty queryVec recordId).getLast?.map fun v =>
        eng.cosineSimilarity queryVec v.embedding := by
  have hstored : (((index.getVectorsForRecords ids ty).map StoredVector.toStoredVector).filter
      fun v => decide (v.recordId ∈ ids) && decide (v.vectorType = ty))
        = (index.getVectorsForRecords ids ty).map StoredVector.toStoredVector := by
    rw [List.filter_eq_self]
    intro v hv
    obtain ⟨row, hrow, rfl⟩ := List.mem_map.mp hv
    obtain ⟨-, hid, htype⟩ := mem_getVectorsForRecords.mp hrow
    simp [hid, htype]
  have hpairs : ∀ l : List StoredVector, ((l.map StoredVector.toStoredVector).filterMap fun v =>
      if 0 < eng.cosineSimilarity queryVec v.embedding
        then some (v.recordId, eng.cosineSimilarity queryVec v.embedding) else none)
      = (l.filter fun v => decide (0 < eng.cosineSimilarity queryVec v.embedding)).map
        fun v => (v.recordId, eng.cosineSimilarity queryVec v.embedding) := by
    intro l
    induction l with
    | nil => rfl
    | cons v l ih =>
        rw [List.map_cons, List.filterMap_cons, List.filter_cons, ih]
        by_cases hpositive : 0 < eng.cosineSimilarity queryVec v.embedding <;> simp [hpositive]
  unfold vectorScores vectorChannel
  rw [hstored, hquery]
  dsimp only
  split
  · rename_i hnone
    rw [List.map_eq_nil_iff] at hnone
    simp [similarRows, hnone]
  · rw [lookup_dictOf, hpairs, List.filter_map, List.getLast?_map, Option.map_map, similarRows,
      List.filter_comm]
    rfl

/-- In a sorted list everything else is below the last element. -/
theorem eq_or_rel_of_getLast? {α : Type} {R : α → α → Prop} {l : List α} (h : l.Pairwise R)
    {a b : α} (hlast : l.getLast? = some b) (ha : a ∈ l) : a = b ∨ R a b := by
  obtain ⟨init, rfl⟩ := List.getLast?_eq_some_iff.mp hlast
  rcases List.mem_append.mp ha with ha | ha
  · exact Or.inr ((List.pairwise_append.mp h).2.2 a ha b (List.mem_singleton_self b))
  · exact Or.inl (List.mem_singleton.mp ha)

/-- Of the rows of a record and channel no two are read at one place. -/
theorem VectorIndex.eq_of_modelLe {v w : StoredVector} (hv : v ∈ index.rows)
    (hw : w ∈ index.rows) (hkey : v.key = w.key) (hvw : index.ModelLe v w)
    (hwv : index.ModelLe w v) : v = w := by
  cases index with
  | sqlite t => exact Table.eq_of_key_eq hv hw hkey
  | postgres c t =>
      have hmodel : v.modelId = w.modelId := c.injective (le_antisymm hvw hwv)
      obtain ⟨hrecord, htype⟩ := Prod.ext_iff.mp hkey
      refine Table.eq_of_key_eq hv hw ?_
      rw [StoredVector.modelKey, StoredVector.modelKey, hmodel,
        show v.recordId = w.recordId from hrecord, show v.vectorType = w.vectorType from htype]

theorem VectorIndex.modelLe_refl (v : StoredVector) : index.ModelLe v v := by
  cases index with
  | sqlite t => exact trivial
  | postgres c t => exact le_refl (c.sortKey v.modelId)

/-- The row a score is taken from is the last one read. -/
theorem decides_iff (hid : recordId ∈ ids) {v : StoredVector} :
    Decides eng index ty queryVec recordId v ↔
      (similarRows eng index ids ty queryVec recordId).getLast? = some v := by
  have hsorted : (similarRows eng index ids ty queryVec recordId).Pairwise index.ModelLe :=
    (pairwise_getVectorsForRecords recordId).filter _
  constructor
  · intro h
    have hv := (mem_similarRows hid).mpr ⟨h.stored, h.key, h.positive⟩
    cases hlast : (similarRows eng index ids ty queryVec recordId).getLast? with
    | none =>
        rw [List.getLast?_eq_none_iff] at hlast
        rw [hlast] at hv
        exact absurd hv List.not_mem_nil
    | some w =>
        obtain ⟨hw, hkey, hpositive⟩ := (mem_similarRows hid).mp (List.mem_of_getLast? hlast)
        rcases eq_or_rel_of_getLast? hsorted hlast hv with rfl | hle
        · rfl
        · rw [VectorIndex.eq_of_modelLe h.stored hw (h.key.trans hkey.symm) hle
            (h.last w hw hkey hpositive)]
  · intro hlast
    obtain ⟨hv, hkey, hpositive⟩ := (mem_similarRows hid).mp (List.mem_of_getLast? hlast)
    refine ⟨hv, hkey, hpositive, fun w hw hwkey hwpositive => ?_⟩
    rcases eq_or_rel_of_getLast? hsorted hlast
      ((mem_similarRows hid).mpr ⟨hw, hwkey, hwpositive⟩) with rfl | hle
    · exact VectorIndex.modelLe_refl w
    · exact hle

/-- The row a candidate's score comes from. -/
theorem lookup_vectorScores_eq_some_iff (hquery : eng.embedQuery query = some queryVec)
    (hid : recordId ∈ ids) {score : ℚ} :
    (vectorScores eng index ids query ty).lookup recordId = some score ↔
      ∃ v, Decides eng index ty queryVec recordId v ∧
        eng.cosineSimilarity queryVec v.embedding = score := by
  rw [lookup_vectorScores hquery, Option.map_eq_some_iff]
  exact exists_congr fun v => and_congr_left fun _ => (decides_iff hid).symm

theorem VectorIndex.current_eq_some_iff {modelId : String} {v : StoredVector} :
    index.current modelId recordId ty = some v ↔
      v ∈ index.rows ∧ v.modelKey = (recordId, ty, modelId) := by
  unfold VectorIndex.current
  constructor
  · intro h
    have hfound := List.find?_some h
    rw [decide_eq_true_eq] at hfound
    exact ⟨List.mem_of_find?_eq_some h, hfound⟩
  · rintro ⟨hv, hkey⟩
    cases h : index.rows.find? fun w => decide (w.modelKey = (recordId, ty, modelId)) with
    | none =>
        rw [List.find?_eq_none] at h
        exact absurd (decide_eq_true hkey) (h v hv)
    | some w =>
        have hwkey := List.find?_some h
        rw [decide_eq_true_eq] at hwkey
        rw [VectorIndex.eq_of_modelKey_eq (List.mem_of_find?_eq_some h) hv
          (hwkey.trans hkey.symm)]

theorem currentScore_eq_some_iff (hquery : eng.embedQuery query = some queryVec)
    {modelId : String} {score : ℚ} :
    currentScore eng index query ty modelId recordId = some score ↔
      ∃ v ∈ index.rows, v.modelKey = (recordId, ty, modelId) ∧ 0 < score ∧
        eng.cosineSimilarity queryVec v.embedding = score := by
  have hread : currentScore eng index query ty modelId recordId
      = (index.current modelId recordId ty).bind fun v =>
        if 0 < eng.cosineSimilarity queryVec v.embedding
        then some (eng.cosineSimilarity queryVec v.embedding) else none := by
    unfold currentScore
    rw [hquery]
    rfl
  rw [hread, Option.bind_eq_some_iff]
  simp only [VectorIndex.current_eq_some_iff, and_assoc]
  refine exists_congr fun v => and_congr_right fun _ => and_congr_right fun _ => ?_
  constructor
  · intro h
    split at h
    · rename_i hpositive
      cases h
      exact ⟨hpositive, rfl⟩
    · cases h
  · rintro ⟨hpositive, rfl⟩
    exact if_pos hpositive

end Decide

/-! ## When the scores are those of the current model -/

/-- Each row that decides a candidate's score has the cosine of a row of the current
model. -/
def DecidedByCurrent (eng : Engine) (index : VectorIndex) (ids : List String) (query : String)
    (ty : TextField) (modelId : String) : Prop :=
  ∀ queryVec, eng.embedQuery query = some queryVec → ∀ recordId ∈ ids, ∀ v,
    Decides eng index ty queryVec recordId v → ∃ w ∈ index.rows,
      w.modelKey = (recordId, ty, modelId) ∧
        eng.cosineSimilarity queryVec w.embedding = eng.cosineSimilarity queryVec v.embedding

/-- A row that decides a score has it from a row of the current model. -/
theorem ModelConsistent.decided {eng : Engine} {index : VectorIndex} {ids : List String}
    {query : String} {ty : TextField} {modelId : String}
    (h : ModelConsistent eng index ids query ty modelId) :
    DecidedByCurrent eng index ids query ty modelId := by
  intro queryVec hquery recordId hid v hv
  have hscore := (lookup_vectorScores_eq_some_iff hquery hid).mpr ⟨v, hv, rfl⟩
  rw [h recordId hid, currentScore_eq_some_iff hquery] at hscore
  obtain ⟨w, hw, hkey, -, heq⟩ := hscore
  exact ⟨w, hw, hkey, heq⟩

/-- On either index, whatever is stored: scores are of the current model exactly when
every deciding row has the cosine of that model's row. -/
theorem modelConsistent_iff (eng : Engine) (index : VectorIndex) (ids : List String)
    (query : String) (ty : TextField) (modelId : String) :
    ModelConsistent eng index ids query ty modelId ↔
      DecidedByCurrent eng index ids query ty modelId := by
  cases hquery : eng.embedQuery query with
  | none =>
      refine iff_of_true (fun recordId _ => ?_) fun queryVec h => ?_
      · have hcurrent : currentScore eng index query ty modelId recordId = none := by
          unfold currentScore
          rw [hquery]
          rfl
        have hscores : vectorScores eng index ids query ty = [] := by
          unfold vectorScores vectorChannel
          rw [hquery]
          dsimp only
          split <;> rfl
        rw [hcurrent, hscores]
        rfl
      · rw [hquery] at h
        cases h
  | some queryVec =>
      constructor
      · exact ModelConsistent.decided
      · intro h recordId hid
        refine Option.ext fun score => ?_
        rw [lookup_vectorScores_eq_some_iff hquery hid, currentScore_eq_some_iff hquery]
        constructor
        · rintro ⟨v, hv, rfl⟩
          obtain ⟨w, hw, hkey, heq⟩ := h queryVec hquery recordId hid v hv
          exact ⟨w, hw, hkey, hv.positive, heq⟩
        · rintro ⟨w, hw, hkey, hpositive, rfl⟩
          -- some row decides, as this one is similar
          have hwkey : w.key = (recordId, ty) := by
            simp only [StoredVector.modelKey, Prod.mk.injEq] at hkey
            rw [StoredVector.key, hkey.1, hkey.2.1]
          have hsimilar := (mem_similarRows hid).mpr ⟨hw, hwkey, hpositive⟩
          obtain ⟨v, hlast⟩ := List.getLast?_isSome.mpr (List.ne_nil_of_mem hsimilar) |>
            Option.isSome_iff_exists.mp
          have hv := (decides_iff hid).mpr hlast
          obtain ⟨w', hw', hkey', heq⟩ := h queryVec hquery recordId hid v hv
          rw [VectorIndex.eq_of_modelKey_eq hw hw' (hkey.trans hkey'.symm)]
          exact ⟨v, hv, heq.symm⟩

/-! ## A change of the model -/

/-- Words of one length are alike. -/
def lengthEngine : Engine :=
  { Search.wordEngine with
    embedQuery := fun query => some [(query.length : ℚ)]
    cosineSimilarity := fun a b => if a = b then 1 else 0 }

def embeddedBy (modelId : String) : StoredVector where
  recordId := "rec_1"
  vectorType := .static
  embedding := [3]
  modelId := modelId
  dimension := 1

/-- What a reindex under `model_a` wrote. -/
def indexedByA : VectorIndex := .sqlite (upsertVectors [embeddedBy "model_a"] Table.empty).2

/-- A search under `model_b` still scores the record by it. -/
theorem not_modelConsistent_indexedByA :
    ¬ ModelConsistent lengthEngine indexedByA ["rec_1"] "man" .static "model_b" := by
  intro hconsistent
  have h := hconsistent.decided
  have hdecides : Decides lengthEngine indexedByA .static [3] "rec_1" (embeddedBy "model_a") :=
    ⟨List.mem_singleton_self _, rfl, by decide +kernel, fun _ _ _ _ => trivial⟩
  obtain ⟨w, hw, hkey, -⟩ := h [3] (by decide +kernel) "rec_1" (List.mem_singleton_self _)
    (embeddedBy "model_a") hdecides
  rw [List.mem_singleton.mp hw] at hkey
  exact absurd hkey (by decide)

end CctvMemory.Maintenance
