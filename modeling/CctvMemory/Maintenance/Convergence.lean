import CctvMemory.Maintenance.Tracking

/-!
# Reindex converges

What one run of `reindex` leaves in the index, batch by batch: a channel whose
stored vector is not of the current model, or any under `force`, is embedded
again; every other row stays as it is, also where the record under it has
another text by now.

* `exec_reindexBatches`: the table and the counts after a list of batches.
* `converges_iff`: a run leaves every authorized record embedded, a second one
  nothing to do, and a new model everything, exactly when the run gets to every
  record and no vector of the current model is stale.
-/

namespace CctvMemory.Maintenance

open Keyed (Table)
open CctvMemory.Publication (ObservationRecord ObservationStore)
open CctvMemory.Authorization
open CctvMemory.Search (Engine TextField)

/-! ## What is asked -/

/-- An embedder that answers each text with its vector. -/
structure TextEmbedder where
  modelId : String
  dimension : ℕ
  embed : String → List ℚ

def TextEmbedder.toEmbedder (te : TextEmbedder) : Embedder where
  modelId := te.modelId
  dimension := te.dimension
  embedTexts := fun _ texts => some (texts.map te.embed)

/-- A record and a channel of it. -/
abbrev Channel := ObservationRecord × TextField

def channelText (c : Channel) : String := Search.ObservationRecord.fieldText c.1 c.2

def channelKey (c : Channel) : String × TextField := (c.1.recordId, c.2)

/-- The channel has a vector under the current model. -/
def isCurrent (modelId : String) (t : VectorTable) (c : Channel) : Bool :=
  match t.get? (channelKey c) with
  | none => false
  | some v => decide (v.modelId = modelId)

/-- The channel has a vector under the current model, of its text. -/
def Fresh (te : TextEmbedder) (t : VectorTable) (c : Channel) : Prop :=
  ∃ v, t.get? (channelKey c) = some v ∧ v.modelId = te.modelId ∧
    v.embedding = te.embed (channelText c)

theorem fresh_iff_any {te : TextEmbedder} {t : VectorTable} {c : Channel} :
    Fresh te t c ↔ ((t.get? (channelKey c)).any fun v =>
      decide (v.modelId = te.modelId) && decide (v.embedding = te.embed (channelText c))) = true := by
  unfold Fresh
  cases t.get? (channelKey c) with
  | none => simp
  | some v => simp

/-- The active records the caller may see. -/
def authorizedActive (q : ReindexRequest) (store : ObservationStore) : List ObservationRecord :=
  store.active.rows.filter fun r => authorizedObservationFilter q.scope r

def AllFresh (te : TextEmbedder) (q : ReindexRequest) (db : Database) : Prop :=
  ∀ c ∈ channelsOf (authorizedActive q db.observations), Fresh te db.vectors c

/-- A run that embeds nothing and skips every channel. -/
def Idles (eng : Engine) (te : TextEmbedder) (q : ReindexRequest) (db : Database) : Prop :=
  ∃ result, (cmdReindex eng te.toEmbedder { q with force := false } db).1 = .ok result ∧
    result.vectorsWritten = 0 ∧
    result.skipped = (channelsOf (authorizedActive q db.observations)).length

/-- A run that embeds every channel. -/
def ReembedsAll (eng : Engine) (te : TextEmbedder) (q : ReindexRequest) (db : Database) : Prop :=
  ∃ result, (cmdReindex eng te.toEmbedder { q with force := false } db).1 = .ok result ∧
    result.skipped = 0 ∧
    result.vectorsWritten = (channelsOf (authorizedActive q db.observations)).length ∧
    AllFresh te q (cmdReindex eng te.toEmbedder { q with force := false } db).2

/-- A run, by a caller who may, does its work; a second one has nothing to do, and
one under another model everything. -/
structure Converges (eng : Engine) (te : TextEmbedder) (q : ReindexRequest) (db : Database) :
    Prop where
  fresh : AllFresh te q (cmdReindex eng te.toEmbedder q db).2
  idle : Idles eng te q (cmdReindex eng te.toEmbedder q db).2
  reembeds : ∀ te' : TextEmbedder, te'.modelId ≠ te.modelId →
    ReembedsAll eng te' q (cmdReindex eng te.toEmbedder q db).2

/-! ## One batch -/

section Batch

variable {te : TextEmbedder} {force : Bool} {t : VectorTable}

theorem isCurrent_iff {modelId : String} {c : Channel} :
    isCurrent modelId t c = true ↔
      ∃ v, t.get? (channelKey c) = some v ∧ v.modelId = modelId := by
  unfold isCurrent
  cases t.get? (channelKey c) with
  | none => simp
  | some v => simp

theorem isCurrent_congr {t' : VectorTable} {modelId : String} {c : Channel}
    (h : t.get? (channelKey c) = t'.get? (channelKey c)) :
    isCurrent modelId t c = isCurrent modelId t' c := by
  unfold isCurrent
  rw [h]

theorem pendingChannels_eq (emb : Embedder) (force : Bool) (batch : List ObservationRecord)
    (t : VectorTable) :
    pendingChannels emb force batch t
      = (channelsOf batch).filter fun c => force || !isCurrent emb.modelId t c := by
  unfold pendingChannels
  dsimp only
  refine List.filter_congr fun c hc => ?_
  obtain ⟨hin, -⟩ := mem_channelsOf.mp hc
  have hid : c.1.recordId ∈ batch.map ObservationRecord.recordId := List.mem_map_of_mem hin
  have hcurrent : (c.1.recordId, c.2) ∈ ((getVectorsForRecords
      (batch.map ObservationRecord.recordId) none t).filter
        fun v => decide (v.modelId = emb.modelId)).map StoredVector.key ↔
      isCurrent emb.modelId t c = true := by
    rw [isCurrent_iff, getVectorsForRecords, if_neg (List.ne_nil_of_mem hid)]
    simp only [List.mem_map, List.mem_filter, Table.get?_eq_some_iff, Option.all_none,
      Bool.and_true, decide_eq_true_eq]
    constructor
    · rintro ⟨v, ⟨⟨hv, -⟩, hmodel⟩, hkey⟩
      exact ⟨v, ⟨hv, hkey⟩, hmodel⟩
    · rintro ⟨v, ⟨hv, hkey⟩, hmodel⟩
      have hrecord : v.recordId = c.1.recordId := congrArg Prod.fst hkey
      exact ⟨v, ⟨⟨hv, hrecord ▸ List.mem_map.mp hid⟩, hmodel⟩, hkey⟩
  simp only [hcurrent]
  cases isCurrent emb.modelId t c <;> rfl

/-- What is written for a channel. -/
def embedded (te : TextEmbedder) (c : Channel) : StoredVector :=
  storedVector te.toEmbedder c (te.embed (channelText c))

/-- The channels of these records that a run embeds. -/
def pending (te : TextEmbedder) (force : Bool) (t : VectorTable)
    (records : List ObservationRecord) : List Channel :=
  (channelsOf records).filter fun c => force || !isCurrent te.modelId t c

/-- The table after a run over these records. -/
def reindexed (te : TextEmbedder) (force : Bool) (t : VectorTable)
    (records : List ObservationRecord) : VectorTable :=
  ((pending te force t records).map (embedded te)).foldl Table.put t

/-- A batch embeds its pending channels. -/
theorem reindexBatch_eq (i : ℕ) (batch : List ObservationRecord) :
    reindexBatch te.toEmbedder force i batch t =
      .ok (⟨(pending te force t batch).length,
        (pending te force t batch).map fun c => c.1.recordId,
        (channelsOf batch).length - (pending te force t batch).length⟩,
        reindexed te force t batch) := by
  have hpending : pendingChannels te.toEmbedder force batch t = pending te force t batch :=
    pendingChannels_eq te.toEmbedder force batch t
  unfold reindexBatch reindexed
  dsimp only
  rw [hpending]
  generalize pending te force t batch = todo
  split
  · rename_i hnone
    rw [hnone]
    rfl
  · have hvectors : List.zipWith (storedVector te.toEmbedder) todo
        ((todo.map fun c => Search.ObservationRecord.fieldText c.1 c.2).map te.embed)
          = todo.map (embedded te) := by
      rw [List.map_map, List.zipWith_map_right, List.zipWith_self]
      rfl
    rw [show te.toEmbedder.embedTexts i = fun texts => some (texts.map te.embed) from rfl]
    dsimp only
    rw [if_neg (by simp), if_neg (by simp), hvectors]
    unfold upsertVectors
    rw [List.length_map]

end Batch

/-! ## A list of batches -/

section Batches

variable {te : TextEmbedder} {force : Bool} {t : VectorTable} {records : List ObservationRecord}

theorem mem_pending {c : Channel} :
    c ∈ pending te force t records ↔
      c ∈ channelsOf records ∧ (force || !isCurrent te.modelId t c) = true := List.mem_filter

/-- Records with distinct ids are told apart by the keys of their channels. -/
theorem channel_eq_of_key_eq (hids : (records.map ObservationRecord.recordId).Nodup)
    {c c' : Channel} (hc : c ∈ channelsOf records) (hc' : c' ∈ channelsOf records)
    (h : channelKey c = channelKey c') : c = c' := by
  obtain ⟨hrecord, htype⟩ := Prod.ext_iff.mp h
  refine Prod.ext ?_ htype
  exact List.inj_on_of_nodup_map hids (mem_channelsOf.mp hc).1 (mem_channelsOf.mp hc').1 hrecord

/-- A channel that is pending is embedded, any other keeps its row. -/
theorem get?_reindexed (hids : (records.map ObservationRecord.recordId).Nodup) {c : Channel}
    (hc : c ∈ channelsOf records) :
    (reindexed te force t records).get? (channelKey c)
      = if (force || !isCurrent te.modelId t c) = true then some (embedded te c)
        else t.get? (channelKey c) := by
  unfold reindexed
  split
  · rename_i htodo
    refine Table.get?_puts_of_mem t (List.mem_map_of_mem (mem_pending.mpr ⟨hc, htodo⟩)) ?_
    intro v hv hkey
    obtain ⟨c', hc', rfl⟩ := List.mem_map.mp hv
    rw [channel_eq_of_key_eq hids (mem_pending.mp hc').1 hc hkey]
  · rename_i hkept
    refine Table.get?_puts_of_not_mem t fun hmem => hkept ?_
    obtain ⟨v, hv, hkey⟩ := List.mem_map.mp hmem
    obtain ⟨c', hc', rfl⟩ := List.mem_map.mp hv
    obtain ⟨hin, htodo⟩ := mem_pending.mp hc'
    rwa [channel_eq_of_key_eq hids hin hc hkey] at htodo

/-- The rows of other records stay. -/
theorem get?_reindexed_of_not_mem {k : String × TextField}
    (h : k.1 ∉ records.map ObservationRecord.recordId) :
    (reindexed te force t records).get? k = t.get? k := by
  refine Table.get?_puts_of_not_mem t fun hmem => h ?_
  obtain ⟨v, hv, rfl⟩ := List.mem_map.mp hmem
  obtain ⟨c, hc, rfl⟩ := List.mem_map.mp hv
  exact List.mem_map_of_mem (mem_channelsOf.mp (mem_pending.mp hc).1).1

theorem channelsOf_append (xs ys : List ObservationRecord) :
    channelsOf (xs ++ ys) = channelsOf xs ++ channelsOf ys := List.flatMap_append

/-- One batch does not touch the channels of another. -/
theorem pending_append {xs ys : List ObservationRecord}
    (hids : ((xs ++ ys).map ObservationRecord.recordId).Nodup) :
    pending te force t (xs ++ ys)
      = pending te force t xs ++ pending te force (reindexed te force t xs) ys := by
  unfold pending
  rw [channelsOf_append, List.filter_append]
  congr 1
  refine List.filter_congr fun c hc => ?_
  rw [List.map_append, List.nodup_append] at hids
  rw [isCurrent_congr (get?_reindexed_of_not_mem fun hin => ?_).symm]
  exact hids.2.2 _ hin _ (List.mem_map_of_mem (mem_channelsOf.mp hc).1) rfl

theorem reindexed_append {xs ys : List ObservationRecord}
    (hids : ((xs ++ ys).map ObservationRecord.recordId).Nodup) :
    reindexed te force t (xs ++ ys)
      = reindexed te force (reindexed te force t xs) ys := by
  rw [reindexed, pending_append hids, List.map_append, List.foldl_append]
  rfl

/-- Batch by batch or all at once: one table, and the counts add up. -/
theorem exec_reindexBatches (te : TextEmbedder) (force : Bool)
    (batches : List (List ObservationRecord)) :
    ∀ i p (t : VectorTable), (batches.flatten.map ObservationRecord.recordId).Nodup →
      ∃ p', reindexBatches te.toEmbedder force i batches p t
          = (.ok p', reindexed te force t batches.flatten) ∧
        p'.vectorsWritten = p.vectorsWritten + (pending te force t batches.flatten).length ∧
        p'.skipped = p.skipped + ((channelsOf batches.flatten).length
          - (pending te force t batches.flatten).length) := by
  induction batches with
  | nil => exact fun i p t _ => ⟨p, rfl, rfl, rfl⟩
  | cons batch rest ih =>
      intro i p t hids
      rw [List.flatten_cons] at hids ⊢
      have hrest : (rest.flatten.map ObservationRecord.recordId).Nodup := by
        rw [List.map_append, List.nodup_append] at hids
        exact hids.2.1
      rw [reindexBatches, reindexBatch_eq]
      dsimp only
      obtain ⟨p', hrun, hwritten, hskipped⟩ := ih (i + 1) (p.add batch
        ⟨(pending te force t batch).length,
          (pending te force t batch).map fun c => c.1.recordId,
          (channelsOf batch).length - (pending te force t batch).length⟩)
        (reindexed te force t batch) hrest
      refine ⟨p', ?_, ?_, ?_⟩
      · rw [hrun, reindexed_append hids]
      · rw [hwritten, pending_append hids, List.length_append]
        simp only [Progress.add]
        omega
      · have hle : ∀ (t : VectorTable) (records : List ObservationRecord),
            (pending te force t records).length ≤ (channelsOf records).length :=
          fun t records => List.length_filter_le _ _
        have hbatch := hle t batch
        have hothers := hle (reindexed te force t batch) rest.flatten
        rw [hskipped, pending_append hids, channelsOf_append, List.length_append,
          List.length_append]
        simp only [Progress.add]
        omega

end Batches

/-! ## A run -/

section Run

variable {eng : Engine} {te : TextEmbedder} {q : ReindexRequest} {db : Database}

theorem structuralFilter_unfiltered (r : ObservationRecord) :
    Search.structuralFilter eng unfiltered r = true := rfl

theorem reindexedPool_eq (eng : Engine) (q : ReindexRequest) (db : Database) :
    ∃ sorted : List ObservationRecord, sorted.Perm (authorizedActive q db.observations) ∧
      reindexedPool eng q db.observations = Search.sqlLimit q.limit sorted := by
  refine ⟨_, ?_, rfl⟩
  refine (List.mergeSort_perm _ _).trans (List.Perm.of_eq ?_)
  unfold authorizedActive
  refine List.filter_congr fun r _ => ?_
  rw [structuralFilter_unfiltered, Bool.and_true]

theorem nodup_ids_authorizedActive :
    ((authorizedActive q db.observations).map ObservationRecord.recordId).Nodup :=
  (db.observations.active.table.nodup).sublist (List.filter_sublist.map _)

theorem nodup_ids_reindexedPool :
    ((reindexedPool eng q db.observations).map ObservationRecord.recordId).Nodup := by
  obtain ⟨sorted, hperm, hpool⟩ := reindexedPool_eq eng q db
  have hsorted : (sorted.map ObservationRecord.recordId).Nodup :=
    (hperm.map _).nodup_iff.mpr nodup_ids_authorizedActive
  rw [hpool]
  unfold Search.sqlLimit
  split
  · exact hsorted
  · exact hsorted.sublist ((List.take_sublist _ _).map _)

/-- The limit leaves out none of `n` records. -/
def WithinLimit (q : ReindexRequest) (n : ℕ) : Prop := q.limit < 0 ∨ (n : ℤ) ≤ q.limit

theorem reindexedPool_perm (eng : Engine)
    (h : WithinLimit q (authorizedActive q db.observations).length) :
    (reindexedPool eng q db.observations).Perm (authorizedActive q db.observations) := by
  obtain ⟨sorted, hperm, hpool⟩ := reindexedPool_eq eng q db
  rw [hpool]
  unfold Search.sqlLimit
  split
  · exact hperm
  · rename_i hlimit
    rw [List.take_of_length_le]
    · exact hperm
    · rcases h with h | h
      · exact absurd h hlimit
      · rw [hperm.length_eq]
        omega

theorem withinLimit_of_length (eng : Engine)
    (h : (authorizedActive q db.observations).length
      ≤ (reindexedPool eng q db.observations).length) :
    WithinLimit q (authorizedActive q db.observations).length := by
  obtain ⟨sorted, hperm, hpool⟩ := reindexedPool_eq eng q db
  rw [hpool] at h
  unfold Search.sqlLimit at h
  split at h
  · rename_i hlimit
    exact Or.inl hlimit
  · rw [List.length_take] at h
    exact Or.inr (by omega)

theorem length_channelsOf (records : List ObservationRecord) :
    (channelsOf records).length = 2 * records.length := by
  induction records with
  | nil => rfl
  | cons r records ih =>
      rw [← List.singleton_append, channelsOf_append, List.length_append, ih]
      show 2 + _ = _
      rw [List.singleton_append, List.length_cons]
      omega

/-- The slices of a list, put together, are the list. -/
theorem flatten_slices (records : List ObservationRecord) (size m : ℕ) :
    ((List.range m).map fun i => (records.drop (i * size)).take size).flatten
      = records.take (m * size) := by
  induction m with
  | zero => simp
  | succ m ih =>
      rw [List.range_succ, List.map_append, List.flatten_append, ih, List.map_singleton,
        List.flatten_singleton, Nat.succ_mul, List.take_add]

theorem flatten_batchesOf {batchSize : ℤ} (hsize : 0 < batchSize)
    (records : List ObservationRecord) :
    ∃ batches, batchesOf batchSize records = .ok batches ∧ batches.flatten = records := by
  unfold batchesOf
  rw [if_neg (by omega), if_neg (by omega)]
  refine ⟨_, rfl, ?_⟩
  rw [flatten_slices, List.take_of_length_le]
  have hpos : 0 < batchSize.toNat := by omega
  have hdiv := Nat.lt_div_mul_add hpos (a := records.length + batchSize.toNat - 1)
  omega

/-- What a run that returns over the records of `pool` does. -/
structure Ran (te : TextEmbedder) (q : ReindexRequest) (db : Database)
    (pool : List ObservationRecord) (result : ReindexResult) (db' : Database) : Prop where
  written : result.vectorsWritten = (pending te q.force db.vectors pool).length
  skipped : result.skipped
    = (channelsOf pool).length - (pending te q.force db.vectors pool).length
  vectors : db'.vectors = reindexed te q.force db.vectors pool
  observations : db'.observations = db.observations

/-- A run in positive batches is over the whole pool, one in negative batches over
nothing, and none starts in batches of zero. -/
theorem exec_cmdReindex (eng : Engine) (te : TextEmbedder) (db : Database)
    (hallowed : Capability.runtimeManage ∈ q.scope.capabilities) :
    (0 < q.batchSize ∧ ∃ result db', cmdReindex eng te.toEmbedder q db = (.ok result, db') ∧
        Ran te q db (reindexedPool eng q db.observations) result db') ∨
      (q.batchSize < 0 ∧ ∃ result db', cmdReindex eng te.toEmbedder q db = (.ok result, db') ∧
        Ran te q db [] result db') ∨
      (q.batchSize = 0 ∧ ∃ e, cmdReindex eng te.toEmbedder q db = (.error e, db)) := by
  rcases lt_trichotomy 0 q.batchSize with hsize | hsize | hsize
  · refine Or.inl ⟨hsize, ?_⟩
    obtain ⟨batches, hbatches, hflatten⟩ :=
      flatten_batchesOf hsize (reindexedPool eng q db.observations)
    have hids : (batches.flatten.map ObservationRecord.recordId).Nodup := by
      rw [hflatten]
      exact nodup_ids_reindexedPool
    obtain ⟨p', hrun, hwritten, hskipped⟩ :=
      exec_reindexBatches te q.force batches 0 ⟨0, [], 0, 0⟩ db.vectors hids
    rw [hflatten] at hrun hwritten hskipped
    unfold cmdReindex reindex
    rw [if_neg (not_not.mpr hallowed)]
    dsimp only [Database.auditEvent]
    rw [hbatches]
    dsimp only
    rw [hrun]
    exact ⟨_, _, rfl, by simpa using hwritten, by simpa using hskipped, rfl, rfl⟩
  · refine Or.inr (Or.inr ⟨hsize.symm, ?_⟩)
    have hbatches : batchesOf q.batchSize (reindexedPool eng q db.observations)
        = .error (.valueError "range() arg 3 must not be zero") := if_pos hsize.symm
    unfold cmdReindex reindex
    rw [if_neg (not_not.mpr hallowed)]
    dsimp only [Database.auditEvent]
    rw [hbatches]
    exact ⟨_, rfl⟩
  · refine Or.inr (Or.inl ⟨hsize, ?_⟩)
    have hbatches : batchesOf q.batchSize (reindexedPool eng q db.observations) = .ok [] := by
      unfold batchesOf
      rw [if_neg (by omega), if_pos hsize]
    unfold cmdReindex reindex
    rw [if_neg (not_not.mpr hallowed)]
    dsimp only [Database.auditEvent]
    rw [hbatches]
    exact ⟨_, _, rfl, rfl, rfl, rfl, rfl⟩

end Run

/-! ## After a run -/

section After

variable {te te' : TextEmbedder} {force : Bool} {t : VectorTable}
  {records : List ObservationRecord} {c : Channel}

/-- A channel is fresh after a run when it was embedded by it, or was fresh before. -/
theorem fresh_reindexed_iff (hids : (records.map ObservationRecord.recordId).Nodup)
    (hc : c ∈ channelsOf records) :
    Fresh te (reindexed te force t records) c ↔
      force = true ∨ isCurrent te.modelId t c = false ∨ Fresh te t c := by
  unfold Fresh
  rw [get?_reindexed hids hc]
  by_cases htodo : (force || !isCurrent te.modelId t c) = true
  · rw [if_pos htodo]
    rw [Bool.or_eq_true, Bool.not_eq_true'] at htodo
    exact iff_of_true ⟨_, rfl, rfl, rfl⟩ (htodo.imp_right Or.inl)
  · rw [if_neg htodo]
    rw [Bool.or_eq_true, Bool.not_eq_true', not_or] at htodo
    rw [or_iff_right htodo.1, or_iff_right htodo.2]

theorem isCurrent_reindexed (hids : (records.map ObservationRecord.recordId).Nodup)
    (hc : c ∈ channelsOf records) :
    isCurrent te.modelId (reindexed te force t records) c = true := by
  rw [isCurrent_iff, get?_reindexed hids hc]
  split
  · exact ⟨_, rfl, rfl⟩
  · rename_i hkept
    rw [Bool.or_eq_true, Bool.not_eq_true', not_or, Bool.not_eq_false] at hkept
    exact isCurrent_iff.mp hkept.2

theorem isCurrent_other (hids : (records.map ObservationRecord.recordId).Nodup)
    (hmodel : te'.modelId ≠ te.modelId) (hc : c ∈ channelsOf records) :
    isCurrent te'.modelId (reindexed te force t records) c = false := by
  rw [← Bool.not_eq_true]
  intro hcurrent
  have hown : isCurrent te.modelId (reindexed te force t records) c = true :=
    isCurrent_reindexed hids hc
  obtain ⟨v, hget, hv⟩ := isCurrent_iff.mp hcurrent
  obtain ⟨w, hget', hw⟩ := isCurrent_iff.mp hown
  rw [hget] at hget'
  cases hget'
  exact hmodel (hv.symm.trans hw)

theorem pending_eq_nil (h : ∀ c ∈ channelsOf records, isCurrent te.modelId t c = true) :
    pending te false t records = [] := by
  unfold pending
  rw [List.filter_eq_nil_iff]
  intro c hc
  rw [h c hc]
  decide

theorem pending_eq_channelsOf (h : ∀ c ∈ channelsOf records, isCurrent te.modelId t c = false) :
    pending te false t records = channelsOf records := by
  unfold pending
  rw [List.filter_eq_self]
  intro c hc
  rw [h c hc]
  rfl

end After

/-! ## When a reindex converges -/

/-- The run gets to all of `n` records. -/
def Reached (q : ReindexRequest) (n : ℕ) : Prop :=
  0 < q.batchSize ∧ WithinLimit q n ∨ q.batchSize < 0 ∧ n = 0

/-- No vector of the current model that a run would skip is of another text. -/
def NotStale (te : TextEmbedder) (q : ReindexRequest) (db : Database) : Prop :=
  ∀ c ∈ channelsOf (authorizedActive q db.observations),
    q.force = true ∨ isCurrent te.modelId db.vectors c = false ∨ Fresh te db.vectors c

section Main

variable {eng : Engine} {te : TextEmbedder} {q : ReindexRequest} {db : Database}

theorem mem_channelsOf_perm {xs ys : List ObservationRecord} (h : xs.Perm ys) {c : Channel} :
    c ∈ channelsOf xs ↔ c ∈ channelsOf ys := by
  rw [mem_channelsOf, mem_channelsOf, h.mem_iff]

/-- A run in positive batches, over a database with the same records. -/
theorem exec_unforced (eng : Engine) (te : TextEmbedder)
    (hallowed : Capability.runtimeManage ∈ q.scope.capabilities) (hsize : 0 < q.batchSize)
    {db' : Database} (hobs : db'.observations = db.observations) :
    ∃ result db'', cmdReindex eng te.toEmbedder { q with force := false } db'
        = (.ok result, db'') ∧
      Ran te { q with force := false } db' (reindexedPool eng q db.observations) result db'' := by
  obtain ⟨-, result, db'', hrun, hran⟩ | ⟨hneg, -⟩ | ⟨hzero, -⟩ :=
    exec_cmdReindex (q := { q with force := false }) eng te db' hallowed
  · rw [hobs] at hran
    exact ⟨result, db'', hrun, hran⟩
  · exact absurd hneg (not_lt.mpr hsize.le)
  · exact absurd hzero hsize.ne'

/-- A run over the whole pool converges exactly when nothing is stale. -/
theorem converges_of_within (hallowed : Capability.runtimeManage ∈ q.scope.capabilities)
    (hsize : 0 < q.batchSize)
    (hlimit : WithinLimit q (authorizedActive q db.observations).length) :
    Converges eng te q db ↔ NotStale te q db := by
  obtain ⟨-, result, db', hrun, hran⟩ | ⟨hneg, -⟩ | ⟨hzero, -⟩ :=
    exec_cmdReindex eng te db hallowed
  · have hperm := reindexedPool_perm eng hlimit
    have hids : ((reindexedPool eng q db.observations).map ObservationRecord.recordId).Nodup :=
      nodup_ids_reindexedPool
    have hlength : (channelsOf (reindexedPool eng q db.observations)).length
        = (channelsOf (authorizedActive q db'.observations)).length := by
      rw [hran.observations, length_channelsOf, length_channelsOf, hperm.length_eq]
    have hfresh : AllFresh te q db' ↔ NotStale te q db := by
      unfold AllFresh NotStale
      rw [hran.observations]
      refine forall₂_congr fun c hc => ?_
      rw [hran.vectors, fresh_reindexed_iff hids ((mem_channelsOf_perm hperm).mpr hc)]
    have hidle : Idles eng te q db' := by
      obtain ⟨second, db'', hsecond, hran₂⟩ := exec_unforced eng te hallowed hsize hran.observations
      have hnone : pending te false db'.vectors (reindexedPool eng q db.observations) = [] := by
        rw [hran.vectors]
        exact pending_eq_nil fun c hc => isCurrent_reindexed hids hc
      refine ⟨second, congrArg Prod.fst hsecond, ?_, ?_⟩
      · rw [hran₂.written, hnone, List.length_nil]
      · rw [hran₂.skipped, hnone, List.length_nil, Nat.sub_zero, hlength]
    have hreembeds : ∀ te' : TextEmbedder, te'.modelId ≠ te.modelId →
        ReembedsAll eng te' q db' := by
      intro te' hmodel
      obtain ⟨second, db'', hsecond, hran₂⟩ :=
        exec_unforced eng te' hallowed hsize hran.observations
      have hall : pending te' false db'.vectors (reindexedPool eng q db.observations)
          = channelsOf (reindexedPool eng q db.observations) := by
        rw [hran.vectors]
        exact pending_eq_channelsOf fun c hc => isCurrent_other hids hmodel hc
      refine ⟨second, congrArg Prod.fst hsecond, ?_, ?_, ?_⟩
      · rw [hran₂.skipped, hall, Nat.sub_self]
      · rw [hran₂.written, hall, hlength]
      · rw [hsecond]
        unfold AllFresh
        rw [hran₂.observations, hran.observations]
        intro c hc
        have hin := (mem_channelsOf_perm hperm).mpr hc
        rw [hran₂.vectors, fresh_reindexed_iff hids hin, hran.vectors]
        exact Or.inr (Or.inl (isCurrent_other hids hmodel hin))
    constructor
    · intro h
      have hdone := h.fresh
      rw [hrun] at hdone
      exact hfresh.mp hdone
    · intro h
      constructor
      · rw [hrun]
        exact hfresh.mpr h
      · rw [hrun]
        exact hidle
      · rw [hrun]
        exact hreembeds
  · exact absurd hneg (not_lt.mpr hsize.le)
  · exact absurd hzero hsize.ne'

theorem observations_cmdReindex (eng : Engine) (te : TextEmbedder) (db : Database)
    (hallowed : Capability.runtimeManage ∈ q.scope.capabilities) :
    (cmdReindex eng te.toEmbedder q db).2.observations = db.observations := by
  obtain ⟨-, result, db', hrun, hran⟩ | ⟨-, result, db', hrun, hran⟩ | ⟨-, e, hrun⟩ :=
    exec_cmdReindex eng te db hallowed
  · rw [hrun]
    exact hran.observations
  · rw [hrun]
    exact hran.observations
  · rw [hrun]

/-- A run in negative batches does nothing, which is enough where nothing is to do. -/
theorem converges_of_none (hallowed : Capability.runtimeManage ∈ q.scope.capabilities)
    (hsize : q.batchSize < 0) (hnone : authorizedActive q db.observations = []) :
    Converges eng te q db := by
  have hfresh : ∀ (te' : TextEmbedder) (db' : Database), db'.observations = db.observations →
      AllFresh te' q db' := by
    intro te' db' hobs c hc
    rw [hobs, hnone] at hc
    cases hc
  have hrun : ∀ (te' : TextEmbedder) (db' : Database), db'.observations = db.observations →
      ∃ result, (cmdReindex eng te'.toEmbedder { q with force := false } db').1 = .ok result ∧
        result.vectorsWritten = 0 ∧ result.skipped = 0 ∧
        (channelsOf (authorizedActive q db'.observations)).length = 0 := by
    intro te' db' hobs
    obtain ⟨hpos, -⟩ | ⟨-, result, db'', hrun, hran⟩ | ⟨hzero, -⟩ :=
      exec_cmdReindex (q := { q with force := false }) eng te' db' hallowed
    · exact absurd hpos (not_lt.mpr hsize.le)
    · refine ⟨result, congrArg Prod.fst hrun, hran.written, hran.skipped, ?_⟩
      rw [hobs, hnone]
      rfl
    · exact absurd hzero hsize.ne
  have hobs := observations_cmdReindex eng te db hallowed
  constructor
  · exact hfresh te _ hobs
  · obtain ⟨result, hok, hwritten, hskipped, hzero⟩ := hrun te _ hobs
    exact ⟨result, hok, hwritten, hskipped.trans hzero.symm⟩
  · intro te' _
    obtain ⟨result, hok, hwritten, hskipped, hzero⟩ := hrun te' _ hobs
    refine ⟨result, hok, hskipped, hwritten.trans hzero.symm, hfresh te' _ ?_⟩
    exact (observations_cmdReindex (q := { q with force := false }) eng te' _ hallowed).trans hobs

/-- The second run tells whether every record was got to. -/
theorem reached_of_converges (hallowed : Capability.runtimeManage ∈ q.scope.capabilities)
    (h : Converges eng te q db) : Reached q (authorizedActive q db.observations).length := by
  obtain ⟨second, hsecond, hwritten, hskipped⟩ := h.idle
  have hobs := observations_cmdReindex eng te db hallowed
  generalize (cmdReindex eng te.toEmbedder q db).2 = db' at hsecond hskipped hobs
  rw [hobs, length_channelsOf] at hskipped
  obtain ⟨hsize, result, db'', hrun, hran⟩ | ⟨hsize, result, db'', hrun, hran⟩ | ⟨-, e, hrun⟩ :=
    exec_cmdReindex (q := { q with force := false }) eng te db' hallowed
  · rw [hrun] at hsecond
    cases hsecond
    refine Or.inl ⟨hsize, withinLimit_of_length eng ?_⟩
    rw [hran.written] at hwritten
    rw [hran.skipped, hwritten, Nat.sub_zero, length_channelsOf, hobs] at hskipped
    have hpool : reindexedPool eng { q with force := false } db.observations
        = reindexedPool eng q db.observations := rfl
    rw [hpool] at hskipped
    omega
  · rw [hrun] at hsecond
    cases hsecond
    refine Or.inr ⟨hsize, ?_⟩
    rw [hran.skipped] at hskipped
    have hnothing : (channelsOf []).length = 0 := rfl
    rw [hnothing] at hskipped
    omega
  · rw [hrun] at hsecond
    cases hsecond

/-- A stale vector that is skipped stays. -/
theorem notStale_of_converges (hallowed : Capability.runtimeManage ∈ q.scope.capabilities)
    (h : Converges eng te q db) : NotStale te q db := by
  rcases reached_of_converges hallowed h with ⟨hsize, hlimit⟩ | ⟨-, hnone⟩
  · exact (converges_of_within hallowed hsize hlimit).mp h
  · intro c hc
    rw [List.length_eq_zero_iff.mp hnone] at hc
    cases hc

/-- A reindex converges exactly when it gets to every record and skips no stale vector. -/
theorem converges_iff (eng : Engine) (te : TextEmbedder) (q : ReindexRequest) (db : Database)
    (hallowed : Capability.runtimeManage ∈ q.scope.capabilities) :
    Converges eng te q db ↔
      Reached q (authorizedActive q db.observations).length ∧ NotStale te q db := by
  constructor
  · exact fun h => ⟨reached_of_converges hallowed h, notStale_of_converges hallowed h⟩
  · rintro ⟨⟨hsize, hlimit⟩ | ⟨hsize, hnone⟩, hstale⟩
    · exact (converges_of_within hallowed hsize hlimit).mpr hstale
    · exact converges_of_none hallowed hsize (List.length_eq_zero_iff.mp hnone)

end Main

/-! ## A record published again under its id -/

/-- One number a text: its length. -/
def lengthEmbedder : TextEmbedder where
  modelId := "mock-embedder-v1"
  dimension := 1
  embed := fun text => [(text.length : ℚ)]

/-- A record published and indexed. -/
def indexedOnce : List Event := [
  publication "a" (Search.seen "rec_a" "cam_1" 0 "a red truck"),
  .reindexed lengthEmbedder.toEmbedder maintainer]

/-- The same record published again, with another text. -/
def publishedAgain : List Event := indexedOnce ++ [
  publication "b" (Search.seen "rec_a" "cam_1" 0 "a red truck at the gate")]

/-- The database after a history. -/
def after (es : List Event) : Database :=
  let start := Database.unindexed (ObservationStore.initial true Table.empty Table.empty)
  (Trace.exec (step Search.wordEngine) es start).getD start

theorem converges_indexedOnce :
    Converges Search.wordEngine lengthEmbedder maintainer (after indexedOnce) := by
  refine (converges_iff Search.wordEngine lengthEmbedder maintainer _ (by decide)).mpr ⟨?_, ?_⟩
  · exact Or.inl ⟨by decide, Or.inr (by decide +kernel)⟩
  · have hfresh : ∀ c ∈ channelsOf (authorizedActive maintainer (after indexedOnce).observations),
        (((after indexedOnce).vectors.get? (channelKey c)).any fun v =>
          decide (v.modelId = lengthEmbedder.modelId) &&
            decide (v.embedding = lengthEmbedder.embed (channelText c))) = true := by
      decide +kernel
    exact fun c hc => Or.inr (Or.inr (fresh_iff_any.mpr (hfresh c hc)))

/-- A run after the second publication skips the record's vector. -/
theorem not_converges_publishedAgain :
    ¬ Converges Search.wordEngine lengthEmbedder maintainer (after publishedAgain) := by
  intro h
  have hstale := notStale_of_converges (by decide) h
  have hread : ∃ c ∈ channelsOf (authorizedActive maintainer (after publishedAgain).observations),
      isCurrent lengthEmbedder.modelId (after publishedAgain).vectors c = true ∧
      ((after publishedAgain).vectors.get? (channelKey c)).any (fun v =>
        decide (v.modelId = lengthEmbedder.modelId) &&
          decide (v.embedding = lengthEmbedder.embed (channelText c))) = false := by
    decide +kernel
  obtain ⟨c, hc, hcurrent, hother⟩ := hread
  rcases hstale c hc with hforce | hnone | hfresh
  · cases hforce
  · rw [hcurrent] at hnone
    cases hnone
  · rw [fresh_iff_any, hother] at hfresh
    cases hfresh

end CctvMemory.Maintenance
