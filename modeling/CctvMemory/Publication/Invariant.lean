import CctvMemory.Publication.Store
import Mathlib.Data.List.Induction
import Mathlib.Data.List.Perm.Basic

/-!
# The store agrees with the log of what was published

The abstract state is the log: the records of the commands that succeeded, in
order. `currentVersions` and `replacedVersions` say what should be active and
what should be archived; `Consistent` relates a store to a log.

* `publishRecord_spec`: what one turn of the record loop does when it succeeds.
* `Consistent.publishRecord`: one turn extends the log by its record.
* `publish_error`: a failed command leaves the store as it was.
* `publish_replaces`: a successful one archives the records it replaces, no other.
* `store_agrees_with_log`: the invariant after every sequence of commands.
-/

namespace CctvMemory.Publication

open Keyed (Table)

/-! ## The log -/

/-- The version of a natural key that was published last. -/
def lastPublished (log : List ObservationRecord) (k : NaturalKey) :
    Option ObservationRecord :=
  log.reverse.find? fun r => decide (r.naturalKey = k)

/-- A later entry of the log has the natural key of `r`. -/
def replacedIn (later : List ObservationRecord) (r : ObservationRecord) : Bool :=
  later.any fun r' => decide (r'.naturalKey = r.naturalKey)

/-- The versions no later entry replaced, by the time they were published. -/
def currentVersions : List ObservationRecord → List ObservationRecord
  | [] => []
  | r :: later =>
      if replacedIn later r then currentVersions later else r :: currentVersions later

/-- The versions a later entry replaced, one for each time that happened. -/
def replacedVersions : List ObservationRecord → List ObservationRecord
  | [] => []
  | r :: later =>
      if replacedIn later r then r :: replacedVersions later else replacedVersions later

theorem lastPublished_snoc (log : List ObservationRecord) (r : ObservationRecord)
    (k : NaturalKey) :
    lastPublished (log ++ [r]) k = if r.naturalKey = k then some r else lastPublished log k := by
  unfold lastPublished
  rw [List.reverse_append, List.reverse_singleton, List.singleton_append, List.find?_cons]
  by_cases h : r.naturalKey = k <;> simp [h]

theorem replacedIn_snoc (later : List ObservationRecord) (r x : ObservationRecord) :
    replacedIn (later ++ [r]) x = (replacedIn later x || decide (r.naturalKey = x.naturalKey)) := by
  simp [replacedIn]

theorem currentVersions_snoc (log : List ObservationRecord) (r : ObservationRecord) :
    currentVersions (log ++ [r])
      = (currentVersions log).filter (fun x => decide (x.naturalKey ≠ r.naturalKey)) ++ [r] := by
  induction log with
  | nil => simp [currentVersions, replacedIn]
  | cons x later ih =>
      rw [List.cons_append, currentVersions, currentVersions, replacedIn_snoc, ih]
      by_cases hlater : replacedIn later x = true
      · simp [hlater]
      · by_cases hkey : r.naturalKey = x.naturalKey
        · simp [hlater, hkey]
        · simp [hlater, hkey, Ne.symm hkey]

/-- Publishing `r` replaces the current version of its natural key. -/
theorem replacedVersions_snoc (log : List ObservationRecord) (r : ObservationRecord) :
    (replacedVersions (log ++ [r])).Perm (replacedVersions log
      ++ (currentVersions log).filter (fun x => decide (x.naturalKey = r.naturalKey))) := by
  induction log with
  | nil => simp [replacedVersions, currentVersions, replacedIn]
  | cons x later ih =>
      rw [List.cons_append, replacedVersions, replacedVersions, currentVersions,
        replacedIn_snoc]
      by_cases hlater : replacedIn later x = true
      · simpa [hlater] using ih.cons x
      · by_cases hkey : r.naturalKey = x.naturalKey
        · have hperm : (replacedVersions later ++ x :: (currentVersions later).filter fun y =>
              decide (y.naturalKey = r.naturalKey)).Perm _ := List.perm_middle
          have hmid := (ih.cons x).trans hperm.symm
          simpa [hlater, hkey] using hmid
        · simpa [hlater, hkey, Ne.symm hkey] using ih

theorem filter_currentVersions (log : List ObservationRecord) (k : NaturalKey) :
    (currentVersions log).filter (fun x => decide (x.naturalKey = k))
      = (lastPublished log k).toList := by
  induction log using List.reverseRecOn with
  | nil => rfl
  | append_singleton log r ih =>
      rw [currentVersions_snoc, lastPublished_snoc, List.filter_append, List.filter_filter]
      by_cases hkey : r.naturalKey = k
      · subst hkey
        simp
      · have hsame : ∀ x ∈ currentVersions log,
            (decide (x.naturalKey = k) && decide (x.naturalKey ≠ r.naturalKey))
              = decide (x.naturalKey = k) := by
          intro x _
          by_cases hx : x.naturalKey = k
          · simp [hx, Ne.symm hkey]
          · simp [hx]
        rw [List.filter_congr hsame, ih]
        simp [hkey]

/-! ## Successful writes -/

theorem bind_ok {α β : Type} {x : Tx α} {f : α → Tx β} {w w' : Working} {b : β}
    (h : (x >>= f) w = (.ok b, w')) :
    ∃ a w₁, x w = (.ok a, w₁) ∧ f a w₁ = (.ok b, w') := by
  change Tx.bind x f w = _ at h
  unfold Tx.bind at h
  split at h
  · cases h
  · rename_i a w₁ hx
    exact ⟨a, w₁, hx, h⟩

theorem pure_ok {α : Type} {a b : α} {w w' : Working}
    (h : (pure a : Tx α) w = (.ok b, w')) : a = b ∧ w = w' := by
  cases h
  exact ⟨rfl, rfl⟩

theorem write_ok {env : PublishEnv} {f : ObservationStore → Except DbError ObservationStore}
    {w w' : Working} {u : Unit} (h : write env f w = (.ok u, w')) :
    f w.store = .ok w'.store := by
  unfold write at h
  split at h
  · cases h
  · split at h
    · cases h
    · rename_i hs
      cases h
      exact hs

/-- The three deletes of `deindexRecord` together. -/
def FtsTables.deindex (t : FtsTables) (id : String) : FtsTables where
  staticRows := dropId id t.staticRows
  dynamicRows := dropId id t.dynamicRows
  tagsRows := dropId id t.tagsRows

theorem indexRecord_ok {env : PublishEnv} {r : ObservationRecord} {w w' : Working} {u : Unit}
    (h : indexRecord env r w = (.ok u, w')) :
    w'.store = { w.store with fts := w.store.fts.map fun t => t.index r } := by
  unfold indexRecord at h
  split at h
  · rename_i hnone
    cases h
    rw [hnone, Option.map_none, ← hnone]
  · rename_i t hsome
    obtain ⟨_, w₁, h₁, h⟩ := bind_ok h
    obtain ⟨_, w₂, h₂, h₃⟩ := bind_ok h
    have e₁ := write_ok h₁
    have e₂ := write_ok h₂
    have e₃ := write_ok h₃
    simp only [withFts, Except.ok.injEq] at e₁ e₂ e₃
    rw [← e₃, ← e₂, ← e₁]
    simp [hsome, FtsTables.index]

theorem deindexRecord_ok {env : PublishEnv} {id : String} {w w' : Working} {u : Unit}
    (h : deindexRecord env id w = (.ok u, w')) :
    w'.store = { w.store with fts := w.store.fts.map fun t => t.deindex id } := by
  unfold deindexRecord at h
  split at h
  · rename_i hnone
    cases h
    rw [hnone, Option.map_none, ← hnone]
  · rename_i t hsome
    obtain ⟨_, w₁, h₁, h⟩ := bind_ok h
    obtain ⟨_, w₂, h₂, h₃⟩ := bind_ok h
    have e₁ := write_ok h₁
    have e₂ := write_ok h₂
    have e₃ := write_ok h₃
    simp only [withFts, Except.ok.injEq] at e₁ e₂ e₃
    rw [← e₃, ← e₂, ← e₁]
    simp [hsome, FtsTables.deindex]

theorem insertActive_ok {r : ObservationRecord} {s s' : ObservationStore}
    (h : insertActive r s = .ok s') :
    s'.active.rows = s.active.rows ++ [r] ∧ s'.history = s.history ∧ s'.fts = s.fts := by
  unfold insertActive at h
  split at h
  · cases h
  · rename_i a ha
    cases h
    exact ⟨ActiveRecords.rows_insert? ha, rfl, rfl⟩

theorem insertHistory_ok {row : HistoryRow} {s s' : ObservationStore}
    (h : insertHistory row s = .ok s') :
    s'.history.rows = s.history.rows ++ [row] ∧ s'.active = s.active ∧ s'.fts = s.fts := by
  unfold insertHistory at h
  split at h
  · cases h
  · rename_i t ht
    cases h
    exact ⟨(Table.insert?_eq_some_iff.mp ht).2, rfl, rfl⟩

/-- The replacement branch moves `old` from the active rows and the index to
the history. -/
theorem archiveExisting_ok {env : PublishEnv} {cmd : PublishCommand} {tally : Tally}
    {old new : ObservationRecord} {w w' : Working} {u : Unit}
    (h : archiveExisting env cmd tally old new w = (.ok u, w')) :
    w'.store.active = w.store.active.erase old.recordId ∧
    w'.store.history.rows = w.store.history.rows ++ [historyRow env cmd tally old new] ∧
    w'.store.fts = w.store.fts.map fun t => t.deindex old.recordId := by
  unfold archiveExisting at h
  obtain ⟨_, w₁, h₁, h⟩ := bind_ok h
  obtain ⟨_, w₂, h₂, h₃⟩ := bind_ok h
  obtain ⟨hhist, hactive, hfts⟩ := insertHistory_ok (write_ok h₁)
  have hdel := write_ok h₂
  simp only [deleteActive, Except.ok.injEq] at hdel
  rw [deindexRecord_ok h₃, ← hdel]
  exact ⟨by rw [hactive], hhist, by rw [hfts]⟩

/-- What one turn of the record loop leaves behind when it succeeds: the
active version of the natural key, if there was one, went to the history. -/
theorem publishRecord_spec {env : PublishEnv} {cmd : PublishCommand} {tally tally' : Tally}
    {r : ObservationRecord} {w w' : Working}
    (h : publishRecord env cmd tally r w = (.ok tally', w')) :
    (∃ old, w.store.active.byNaturalKey r.naturalKey = some old ∧
      w'.store.active.rows = (w.store.active.erase old.recordId).rows ++ [r] ∧
      w'.store.history.rows = w.store.history.rows ++ [historyRow env cmd tally old r] ∧
      w'.store.fts = w.store.fts.map fun t => (t.deindex old.recordId).index r) ∨
    (w.store.active.byNaturalKey r.naturalKey = none ∧
      w'.store.active.rows = w.store.active.rows ++ [r] ∧
      w'.store.history = w.store.history ∧
      w'.store.fts = w.store.fts.map fun t => t.index r) := by
  unfold publishRecord at h
  split at h
  · rename_i old hold
    left
    obtain ⟨_, w₁, h₁, h⟩ := bind_ok h
    obtain ⟨_, w₂, h₂, h⟩ := bind_ok h
    obtain ⟨_, w₃, h₃, h⟩ := bind_ok h
    obtain ⟨-, rfl⟩ := pure_ok h
    obtain ⟨hactive₁, hhist₁, hfts₁⟩ := archiveExisting_ok h₁
    obtain ⟨hactive₂, hhist₂, hfts₂⟩ := insertActive_ok (write_ok h₂)
    rw [indexRecord_ok h₃]
    refine ⟨old, hold, ?_, ?_, ?_⟩
    · rw [hactive₂, hactive₁]
    · rw [hhist₂, hhist₁]
    · rw [hfts₂, hfts₁, Option.map_map]
      rfl
  · rename_i hnone
    right
    obtain ⟨_, w₁, h₁, h⟩ := bind_ok h
    obtain ⟨_, w₂, h₂, h⟩ := bind_ok h
    obtain ⟨-, rfl⟩ := pure_ok h
    obtain ⟨hactive, hhist, hfts⟩ := insertActive_ok (write_ok h₁)
    rw [indexRecord_ok h₂]
    exact ⟨hnone, hactive, hhist, by rw [hfts]⟩

/-! ## The invariant -/

/-- The index that a list of active records should have. -/
def FtsTables.ofRecords (rs : List ObservationRecord) : FtsTables where
  staticRows := rs.map fun r => ⟨r.recordId, r.staticDescriptionText⟩
  dynamicRows := rs.map fun r => ⟨r.recordId, r.dynamicDescriptionText⟩
  tagsRows := rs.map fun r => ⟨r.recordId, joinTags r.tags⟩

/-- A store holds exactly what the log says. -/
structure Consistent (log : List ObservationRecord) (s : ObservationStore) : Prop where
  active : s.active.rows = currentVersions log
  history : (s.history.rows.map HistoryRow.recordSnapshot).Perm (replacedVersions log)
  fts : ∀ t, s.fts = some t → t = FtsTables.ofRecords s.active.rows

theorem FtsTables.index_ofRecords (rs : List ObservationRecord) (r : ObservationRecord) :
    (FtsTables.ofRecords rs).index r = FtsTables.ofRecords (rs ++ [r]) := by
  simp [FtsTables.index, FtsTables.ofRecords]

theorem dropId_map (id : String) (text : ObservationRecord → String)
    (rs : List ObservationRecord) :
    dropId id (rs.map fun r => ⟨r.recordId, text r⟩)
      = (rs.filter fun r => decide (r.recordId ≠ id)).map fun r => ⟨r.recordId, text r⟩ := by
  unfold dropId
  rw [List.filter_map]
  rfl

theorem FtsTables.deindex_ofRecords (a : ActiveRecords) (id : String) :
    (FtsTables.ofRecords a.rows).deindex id = FtsTables.ofRecords (a.erase id).rows := by
  simp only [FtsTables.deindex, FtsTables.ofRecords, dropId_map, ActiveRecords.rows_erase]

/-- Deleting the active row of a natural key by its id deletes that key. -/
theorem rows_erase_of_byNaturalKey {a : ActiveRecords} {k : NaturalKey}
    {old : ObservationRecord} (h : a.byNaturalKey k = some old) :
    (a.erase old.recordId).rows = a.rows.filter fun r => decide (r.naturalKey ≠ k) := by
  obtain ⟨hold, rfl⟩ := ActiveRecords.mem_byNaturalKey.mp h
  rw [ActiveRecords.rows_erase]
  refine List.filter_congr fun r hr => ?_
  have hiff : r.recordId = old.recordId ↔ r.naturalKey = old.naturalKey :=
    ⟨fun hid => by rw [Table.eq_of_key_eq (t := a.table) hr hold hid],
     fun hkey => by rw [List.inj_on_of_nodup_map a.naturalKeys_nodup hr hold hkey]⟩
  simp [hiff]

/-- With `old` active for `k`, it is the only active version of `k`. -/
theorem filter_of_byNaturalKey {a : ActiveRecords} {k : NaturalKey}
    {old : ObservationRecord} {log : List ObservationRecord}
    (hlog : a.rows = currentVersions log) (h : a.byNaturalKey k = some old) :
    (currentVersions log).filter (fun x => decide (x.naturalKey = k)) = [old] := by
  obtain ⟨hold, hkey⟩ := ActiveRecords.mem_byNaturalKey.mp h
  have hmem : old ∈ (currentVersions log).filter (fun x => decide (x.naturalKey = k)) :=
    List.mem_filter.mpr ⟨hlog ▸ hold, by simpa using hkey⟩
  rw [filter_currentVersions] at hmem ⊢
  rw [Option.mem_toList.mp hmem]
  rfl

/-- One turn of the record loop extends the log by its record. -/
theorem Consistent.publishRecord {env : PublishEnv} {cmd : PublishCommand}
    {tally tally' : Tally} {r : ObservationRecord} {w w' : Working}
    {log : List ObservationRecord} (hc : Consistent log w.store)
    (h : publishRecord env cmd tally r w = (.ok tally', w')) :
    Consistent (log ++ [r]) w'.store := by
  rcases publishRecord_spec h with ⟨old, hold, hactive, hhist, hfts⟩ |
    ⟨hnone, hactive, hhist, hfts⟩
  · refine ⟨?_, ?_, ?_⟩
    · rw [hactive, rows_erase_of_byNaturalKey hold, currentVersions_snoc, hc.active]
    · rw [hhist, List.map_append]
      refine (hc.history.append_right _).trans ?_
      have hsnoc := (replacedVersions_snoc log r).symm
      rw [filter_of_byNaturalKey hc.active hold] at hsnoc
      exact hsnoc
    · intro t ht
      rw [hfts, Option.map_eq_some_iff] at ht
      obtain ⟨t₀, ht₀, rfl⟩ := ht
      rw [hc.fts t₀ ht₀, FtsTables.deindex_ofRecords, FtsTables.index_ofRecords, hactive]
  · have hfresh : ∀ x ∈ currentVersions log, x.naturalKey ≠ r.naturalKey := by
      rw [← hc.active]
      exact ActiveRecords.byNaturalKey_eq_none.mp hnone
    refine ⟨?_, ?_, ?_⟩
    · rw [hactive, currentVersions_snoc, hc.active,
        List.filter_eq_self.mpr fun x hx => by simpa using hfresh x hx]
    · rw [hhist]
      refine hc.history.trans ?_
      have hsnoc := (replacedVersions_snoc log r).symm
      rw [List.filter_eq_nil_iff.mpr fun x hx => by simpa using hfresh x hx,
        List.append_nil] at hsnoc
      exact hsnoc
    · intro t ht
      rw [hfts, Option.map_eq_some_iff] at ht
      obtain ⟨t₀, ht₀, rfl⟩ := ht
      rw [hc.fts t₀ ht₀, FtsTables.index_ofRecords, hactive]

theorem Consistent.publishRecordsLoop {env : PublishEnv} {cmd : PublishCommand}
    {records : List ObservationRecord} {tally tally' : Tally} {w w' : Working}
    {log : List ObservationRecord} (hc : Consistent log w.store)
    (h : publishRecordsLoop env cmd tally records w = (.ok tally', w')) :
    Consistent (log ++ records) w'.store := by
  induction records generalizing tally w log with
  | nil =>
      obtain ⟨-, rfl⟩ := pure_ok h
      simpa using hc
  | cons r rs ih =>
      obtain ⟨tally₁, w₁, h₁, h₂⟩ := bind_ok h
      have hrest := ih (hc.publishRecord h₁) h₂
      rwa [List.append_assoc, List.singleton_append] at hrest

/-- Only the active rows, the history and the index matter. -/
theorem Consistent.of_eq {log : List ObservationRecord} {s s' : ObservationStore}
    (hc : Consistent log s) (ha : s'.active = s.active) (hh : s'.history = s.history)
    (hf : s'.fts = s.fts) : Consistent log s' :=
  ⟨ha ▸ hc.active, hh ▸ hc.history, by rw [ha, hf]; exact hc.fts⟩

/-- A failed command leaves the store as it was: the savepoint throws away
whatever it wrote. -/
theorem publish_error {env : PublishEnv} {cmd : PublishCommand} {s : ObservationStore}
    {e : DbError} (h : (publish env cmd s).1 = .error e) : (publish env cmd s).2 = s := by
  unfold publish publishRecordsAtomically beginNested at h ⊢
  dsimp only at h ⊢
  split at h
  · rfl
  · cases h

/-- The active rows, the history and the index that a successful command leaves
are those its record loop left. -/
theorem publish_ok {env : PublishEnv} {cmd : PublishCommand} {s : ObservationStore}
    {res : PublicationResult} (h : (publish env cmd s).1 = .ok res) :
    ∃ tally w, publishRecordsLoop env cmd ⟨[], [], []⟩ cmd.records ⟨s, 0⟩ = (.ok tally, w) ∧
      (publish env cmd s).2.active = w.store.active ∧
      (publish env cmd s).2.history = w.store.history ∧
      (publish env cmd s).2.fts = w.store.fts := by
  unfold publish publishRecordsAtomically beginNested at h ⊢
  dsimp only at h ⊢
  split at h
  · cases h
  · rename_i res' w hbody
    obtain ⟨tally, w₁, hloop, hbody⟩ := bind_ok hbody
    obtain ⟨_, w₂, hsummary, hbody⟩ := bind_ok hbody
    obtain ⟨_, w₃, haudit, hbody⟩ := bind_ok hbody
    obtain ⟨-, rfl⟩ := pure_ok hbody
    have hsum := write_ok hsummary
    simp only [appendSummary, Except.ok.injEq] at hsum
    have haud := write_ok haudit
    unfold appendAudit at haud
    split at haud
    · cases haud
    · simp only [Except.ok.injEq] at haud
      have heq : w₃.store = { w₂.store with audit := w₃.store.audit } := by
        rw [← haud]
      refine ⟨tally, w₁, hloop, ?_, ?_, ?_⟩ <;> rw [heq, ← hsum]

theorem Consistent.publish_ok {env : PublishEnv} {cmd : PublishCommand}
    {s : ObservationStore} {res : PublicationResult} {log : List ObservationRecord}
    (hc : Consistent log s) (h : (publish env cmd s).1 = .ok res) :
    Consistent (log ++ cmd.records) (publish env cmd s).2 := by
  obtain ⟨tally, w, hloop, hactive, hhist, hfts⟩ := Publication.publish_ok h
  have hpublished := Consistent.publishRecordsLoop (w := ⟨s, 0⟩) hc hloop
  exact hpublished.of_eq hactive hhist hfts

/-! ## What a publication replaces -/

/-- What became of a record that was active before a publication, by whether
one of the published records has its natural key: it was archived, or it is
active still and was not. -/
structure Replaces (records : List ObservationRecord) (s s' : ObservationStore)
    (archived : List HistoryRow) : Prop where
  history : s'.history.rows = s.history.rows ++ archived
  replaced : ∀ old ∈ s.active.rows, (∃ r ∈ records, r.naturalKey = old.naturalKey) →
    ∃ h ∈ archived, h.oldRecordId = old.recordId
  kept : ∀ old ∈ s.active.rows, (∀ r ∈ records, r.naturalKey ≠ old.naturalKey) →
    old ∈ s'.active.rows ∧ ∀ h ∈ archived, h.oldRecordId ≠ old.recordId

theorem Replaces.nil (s : ObservationStore) : Replaces [] s s [] := by
  constructor
  · rw [List.append_nil]
  · rintro old hold ⟨r, hr, -⟩
    cases hr
  · intro old hold _
    exact ⟨hold, fun h hh => by cases hh⟩

theorem publishRecord_replaces {env : PublishEnv} {cmd : PublishCommand}
    {tally tally' : Tally} {r : ObservationRecord} {w w' : Working}
    (h : publishRecord env cmd tally r w = (.ok tally', w')) :
    ∃ archived, Replaces [r] w.store w'.store archived := by
  rcases publishRecord_spec h with ⟨old, hold, hactive, hhist, -⟩ | ⟨hnone, hactive, hhist, -⟩
  · obtain ⟨hmem, hkey⟩ := ActiveRecords.mem_byNaturalKey.mp hold
    refine ⟨[historyRow env cmd tally old r], hhist, ?_, ?_⟩
    · rintro x hx ⟨r', hr', hsame⟩
      rw [List.mem_singleton.mp hr', ← hkey] at hsame
      have : x = old :=
        (List.inj_on_of_nodup_map w.store.active.naturalKeys_nodup hmem hx hsame).symm
      exact ⟨_, List.mem_singleton_self _, by rw [this]; rfl⟩
    · intro x hx hother
      have hne : x.recordId ≠ old.recordId := by
        intro hid
        have : x = old := Table.eq_of_key_eq (t := w.store.active.table) hx hmem hid
        exact hother r (List.mem_singleton_self r) (by rw [this, hkey])
      constructor
      · rw [hactive, ActiveRecords.rows_erase]
        exact List.mem_append_left _ (List.mem_filter.mpr ⟨hx, by simpa using hne⟩)
      · intro row hrow
        rw [List.mem_singleton.mp hrow]
        exact hne.symm
  · have hfresh := ActiveRecords.byNaturalKey_eq_none.mp hnone
    refine ⟨[], by rw [hhist, List.append_nil], ?_, ?_⟩
    · rintro x hx ⟨r', hr', hsame⟩
      rw [List.mem_singleton.mp hr'] at hsame
      exact absurd hsame.symm (hfresh x hx)
    · intro x hx _
      rw [hactive]
      exact ⟨List.mem_append_left _ hx, fun row hrow => by cases hrow⟩

theorem Replaces.cons {r : ObservationRecord} {rs : List ObservationRecord}
    {s s₁ s' : ObservationStore} {archived₁ archived₂ : List HistoryRow}
    (h₁ : Replaces [r] s s₁ archived₁) (h₂ : Replaces rs s₁ s' archived₂) :
    Replaces (r :: rs) s s' (archived₁ ++ archived₂) := by
  constructor
  · rw [h₂.history, h₁.history, List.append_assoc]
  · rintro old hold ⟨r', hr', hsame⟩
    by_cases hfirst : r.naturalKey = old.naturalKey
    · obtain ⟨row, hrow, hid⟩ := h₁.replaced old hold ⟨r, List.mem_singleton_self r, hfirst⟩
      exact ⟨row, List.mem_append_left _ hrow, hid⟩
    · have hkept := (h₁.kept old hold (by simpa using hfirst)).1
      rcases List.mem_cons.mp hr' with rfl | hrest
      · exact absurd hsame hfirst
      · obtain ⟨row, hrow, hid⟩ := h₂.replaced old hkept ⟨r', hrest, hsame⟩
        exact ⟨row, List.mem_append_right _ hrow, hid⟩
  · intro old hold hother
    obtain ⟨hkept₁, hnot₁⟩ := h₁.kept old hold fun r' hr' =>
      hother r' (List.mem_singleton.mp hr' ▸ List.mem_cons_self)
    obtain ⟨hkept₂, hnot₂⟩ := h₂.kept old hkept₁ fun r' hr' =>
      hother r' (List.mem_cons_of_mem _ hr')
    refine ⟨hkept₂, fun row hrow => ?_⟩
    rcases List.mem_append.mp hrow with hrow | hrow
    · exact hnot₁ row hrow
    · exact hnot₂ row hrow

theorem publishRecordsLoop_replaces {env : PublishEnv} {cmd : PublishCommand}
    {records : List ObservationRecord} {tally tally' : Tally} {w w' : Working}
    (h : publishRecordsLoop env cmd tally records w = (.ok tally', w')) :
    ∃ archived, Replaces records w.store w'.store archived := by
  induction records generalizing tally w with
  | nil =>
      obtain ⟨-, rfl⟩ := pure_ok h
      exact ⟨[], Replaces.nil w.store⟩
  | cons r rs ih =>
      obtain ⟨tally₁, w₁, hturn, hrest⟩ := bind_ok h
      obtain ⟨archived₁, h₁⟩ := publishRecord_replaces hturn
      obtain ⟨archived₂, h₂⟩ := ih hrest
      exact ⟨archived₁ ++ archived₂, h₁.cons h₂⟩

/-- A successful command archives exactly the active records whose natural key
it names. -/
theorem publish_replaces {env : PublishEnv} {cmd : PublishCommand} {s : ObservationStore}
    {res : PublicationResult} (h : (publish env cmd s).1 = .ok res) :
    ∃ archived, Replaces cmd.records s (publish env cmd s).2 archived := by
  obtain ⟨tally, w, hloop, hactive, hhist, -⟩ := publish_ok h
  obtain ⟨archived, hloop⟩ := publishRecordsLoop_replaces (w := ⟨s, 0⟩) hloop
  refine ⟨archived, ?_, hloop.replaced, ?_⟩
  · rw [hhist]
    exact hloop.history
  · rw [hactive]
    exact hloop.kept

/-! ## Runs -/

/-- A store before anything was published, with or without virtual tables. -/
def ObservationStore.initial (hasFts : Bool) (jobs : Table JobSummary JobSummary.analysisJobId)
    (audit : Table AuditRow AuditRow.auditEventId) : ObservationStore where
  active := ⟨Table.empty, by simp⟩
  history := Table.empty
  fts := if hasFts then some ⟨[], [], []⟩ else none
  jobs := jobs
  audit := audit

/-- Commands one after the other, each with its own clock, uuids and failing
write. -/
def publishAll : List (PublishEnv × PublishCommand) → ObservationStore → ObservationStore
  | [], s => s
  | (env, cmd) :: rest, s => publishAll rest (publish env cmd s).2

/-- The records of the commands of a run that succeeded. -/
def publishedLog : List (PublishEnv × PublishCommand) → ObservationStore →
    List ObservationRecord
  | [], _ => []
  | (env, cmd) :: rest, s =>
      (match (publish env cmd s).1 with
        | .ok _ => cmd.records
        | .error _ => []) ++ publishedLog rest (publish env cmd s).2

theorem Consistent.initial (hasFts : Bool) (jobs : Table JobSummary JobSummary.analysisJobId)
    (audit : Table AuditRow AuditRow.auditEventId) :
    Consistent [] (ObservationStore.initial hasFts jobs audit) := by
  refine ⟨rfl, List.Perm.nil, ?_⟩
  intro t ht
  cases hasFts with
  | false => cases ht
  | true =>
      cases ht
      rfl

theorem Consistent.publishAll {reqs : List (PublishEnv × PublishCommand)}
    {s : ObservationStore} {log : List ObservationRecord} (hc : Consistent log s) :
    Consistent (log ++ publishedLog reqs s) (publishAll reqs s) := by
  induction reqs generalizing s log with
  | nil => simpa [publishedLog, Publication.publishAll] using hc
  | cons req rest ih =>
      obtain ⟨env, cmd⟩ := req
      rw [publishedLog, Publication.publishAll]
      cases hres : (publish env cmd s).1 with
      | error e =>
          rw [publish_error hres]
          exact ih hc
      | ok res =>
          have hnext := ih (hc.publish_ok hres)
          rwa [List.append_assoc] at hnext

/-- The rows of an index column for one id: one if the id is active. -/
theorem filter_ofRecords (a : ActiveRecords) (text : ObservationRecord → String)
    (id : String) :
    (a.rows.map fun r => (⟨r.recordId, text r⟩ : FtsRow)).filter
        (fun row => decide (row.recordId = id))
      = ((a.table.get? id).map fun r => (⟨id, text r⟩ : FtsRow)).toList := by
  rw [List.filter_map]
  have hcomp : ((fun row : FtsRow => decide (row.recordId = id)) ∘
      fun r : ObservationRecord => (⟨r.recordId, text r⟩ : FtsRow))
      = fun r => decide (r.recordId = id) := rfl
  rw [hcomp, show a.rows.filter (fun r => decide (r.recordId = id))
      = (a.table.get? id).toList from Table.filter_key a.table id]
  cases hg : a.table.get? id with
  | none => rfl
  | some r =>
      rw [← Table.key_of_get? hg]
      rfl

/-- After every sequence of publish commands, each succeeding or failing at
any of its writes: one active version per natural key, the one published last;
every replaced version archived once; one row of each FTS table per active id,
with its current text; and a command that fails next changes nothing. -/
theorem store_agrees_with_log (hasFts : Bool)
    (jobs : Table JobSummary JobSummary.analysisJobId)
    (audit : Table AuditRow AuditRow.auditEventId)
    (reqs : List (PublishEnv × PublishCommand)) :
    let s₀ := ObservationStore.initial hasFts jobs audit
    let s := publishAll reqs s₀
    let log := publishedLog reqs s₀
    (∀ k, s.active.rows.filter (fun r => decide (r.naturalKey = k))
      = (lastPublished log k).toList) ∧
    (s.history.rows.map HistoryRow.recordSnapshot).Perm (replacedVersions log) ∧
    (∀ t, s.fts = some t → ∀ id,
      t.staticRows.filter (fun row => decide (row.recordId = id))
        = ((s.active.table.get? id).map fun r => ⟨id, r.staticDescriptionText⟩).toList ∧
      t.dynamicRows.filter (fun row => decide (row.recordId = id))
        = ((s.active.table.get? id).map fun r => ⟨id, r.dynamicDescriptionText⟩).toList ∧
      t.tagsRows.filter (fun row => decide (row.recordId = id))
        = ((s.active.table.get? id).map fun r => ⟨id, joinTags r.tags⟩).toList) ∧
    (∀ env cmd e, (publish env cmd s).1 = .error e → (publish env cmd s).2 = s) := by
  intro s₀ s log
  have hc : Consistent log s := by
    have hrun : Consistent ([] ++ publishedLog reqs s₀) s :=
      (Consistent.initial hasFts jobs audit).publishAll
    simpa using hrun
  refine ⟨?_, hc.history, ?_, fun env cmd e he => publish_error he⟩
  · intro k
    rw [hc.active]
    exact filter_currentVersions log k
  · intro t ht id
    rw [hc.fts t ht]
    exact ⟨filter_ofRecords s.active _ id, filter_ofRecords s.active _ id,
      filter_ofRecords s.active _ id⟩

end CctvMemory.Publication
