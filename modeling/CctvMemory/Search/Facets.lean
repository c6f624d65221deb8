import CctvMemory.Library.Tally
import CctvMemory.Search.Completeness
import CctvMemory.Search.Contexts
import CctvMemory.Search.Locators
import CctvMemory.Search.RankOrder

/-!
# Facets read again

A search stores the facets of the records it ranked, in the order of their ranks;
`facets` counts the same records in the order in which the table gives them. Counts
are listed by frequency and ties by first occurrence, so the two agree for every
order of the table exactly when no tie is left to it (`facetsKept_iff`). The hours,
which are listed by their text, always agree.
-/

namespace CctvMemory.Search

open Keyed (Table)
open CctvMemory.Publication (ObservationRecord ObservationStore FtsTables)
open CctvMemory.Authorization

/-- The records the revision holds, in the order of the table. -/
def revisionRecords (w : World) (revisionId : String) : List ObservationRecord :=
  w.store.active.rows.filter fun r => decide (r.recordId ∈ candidateIds w revisionId)

/-- Cameras, locations and scales differ in their counts, and so do the tags that can
be listed, unless they come in one order in every record. -/
structure Steady (records : List ObservationRecord) : Prop where
  tags : Tally.Decided ObservationRecord.tags 10 records
  cameras : Tally.Untied (records.map ObservationRecord.cameraId)
  locations : Tally.Untied (records.map ObservationRecord.locationId)
  scales : Tally.Untied (records.map ObservationRecord.analysisScale)

instance (records : List ObservationRecord) : Decidable (Steady records) :=
  decidable_of_iff (Tally.Decided ObservationRecord.tags 10 records ∧
      Tally.Untied (records.map ObservationRecord.cameraId) ∧
      Tally.Untied (records.map ObservationRecord.locationId) ∧
      Tally.Untied (records.map ObservationRecord.analysisScale))
    ⟨fun ⟨ht, hc, hl, hs⟩ => ⟨ht, hc, hl, hs⟩, fun h => ⟨h.tags, h.cameras, h.locations, h.scales⟩⟩

/-! ## Facets of a rearranged list -/

theorem mostCommon_counter {α : Type} [DecidableEq α] (l : List α) :
    mostCommon (counter l) = (Tally.ranked l).map fun a => (a, l.count a) := by
  have hmap := @List.map_mergeSort α (α × ℕ) (fun a b => decide (l.count b ≤ l.count a))
    (fun p q => decide (q.2 ≤ p.2)) (fun a => (a, l.count a)) l.eraseDups fun _ _ _ _ => rfl
  exact hmap.symm

theorem map_count_eq_iff {α : Type} [DecidableEq α] {l l' s s' : List α} (h : l.Perm l') :
    (s'.map fun a => (a, l'.count a)) = (s.map fun a => (a, l.count a)) ↔ s' = s := by
  have hcount : (fun a => (a, l'.count a)) = fun a => (a, l.count a) :=
    funext fun a => by rw [h.count_eq]
  rw [hcount]
  exact (List.map_injective_iff.mpr fun a b hab => (Prod.mk.inj hab).1).eq_iff

theorem mostCommon_eq_iff {α : Type} [DecidableEq α] {l l' : List α} (h : l.Perm l') :
    mostCommon (counter l') = mostCommon (counter l) ↔ Tally.ranked l' = Tally.ranked l := by
  rw [mostCommon_counter, mostCommon_counter]
  exact map_count_eq_iff h

theorem take_mostCommon_eq_iff {α : Type} [DecidableEq α] {l l' : List α} (h : l.Perm l')
    (n : ℕ) : (mostCommon (counter l')).take n = (mostCommon (counter l)).take n ↔
      (Tally.ranked l').take n = (Tally.ranked l).take n := by
  rw [mostCommon_counter, mostCommon_counter, ← List.map_take, ← List.map_take]
  exact map_count_eq_iff h

theorem mostCommon_map_eq_iff {ρ α : Type} [DecidableEq α] {f : ρ → α} {rows : List ρ} :
    (∀ rows', rows.Perm rows' →
      mostCommon (counter (rows'.map f)) = mostCommon (counter (rows.map f))) ↔
      Tally.Untied (rows.map f) := by
  rw [← Tally.ranked_map_eq_iff]
  exact forall₂_congr fun rows' hp => mostCommon_eq_iff (hp.map f)

theorem counter_perm {α : Type} [DecidableEq α] {l l' : List α} (h : l.Perm l') :
    (counter l).Perm (counter l') := by
  unfold counter
  have hcount : (fun a => (a, l'.count a)) = fun a => (a, l.count a) :=
    funext fun a => by rw [h.count_eq]
  rw [hcount]
  exact (Tally.perm_eraseDups h).map _

/-- Counts listed by what is counted do not depend on the order of the list. -/
theorem byKey_perm {α : Type} [LinearOrder α] {l l' : List α} (h : l.Perm l') :
    (counter l').mergeSort (fun a b => decide (a.1 ≤ b.1))
      = (counter l).mergeSort fun a b => decide (a.1 ≤ b.1) := by
  have hkey : SortKey (fun a b : α × ℕ => decide (a.1 ≤ b.1)) Prod.fst := SortKey.of_decide _
  refine (hkey.mergeSort_congr (counter_perm h) ?_).symm
  intro a ha b hb heq
  obtain ⟨x, -, rfl⟩ := List.mem_map.mp ha
  obtain ⟨y, -, rfl⟩ := List.mem_map.mp hb
  obtain rfl : x = y := heq
  rfl

/-- The facets do not depend on the order of the records exactly when they are steady. -/
theorem buildFacets_eq_iff {records : List ObservationRecord} :
    (∀ records', records.Perm records' → buildFacets records' = buildFacets records) ↔
      Steady records := by
  have htags : (∀ records', records.Perm records' →
      (mostCommon (counter (records'.flatMap ObservationRecord.tags))).take 10
        = (mostCommon (counter (records.flatMap ObservationRecord.tags))).take 10) ↔
      Tally.Decided ObservationRecord.tags 10 records := by
    rw [← Tally.ranked_take_eq_iff]
    exact forall₂_congr fun records' hp => take_mostCommon_eq_iff (hp.flatMap_right _) 10
  constructor
  · intro h
    exact ⟨htags.mp fun records' hp => congrArg Facets.topTags (h records' hp),
      mostCommon_map_eq_iff.mp fun records' hp => congrArg Facets.cameraDistribution (h records' hp),
      mostCommon_map_eq_iff.mp fun records' hp =>
        congrArg Facets.locationDistribution (h records' hp),
      mostCommon_map_eq_iff.mp fun records' hp =>
        congrArg Facets.analysisScaleDistribution (h records' hp)⟩
  · intro h records' hp
    have hcameras := mostCommon_map_eq_iff.mpr h.cameras records' hp
    have hlocations := mostCommon_map_eq_iff.mpr h.locations records' hp
    have hscales := mostCommon_map_eq_iff.mpr h.scales records' hp
    have hhours := byKey_perm (hp.map fun r => Iso.isoformat (hourBucket r.observedStartTime))
    have htop := htags.mpr h.tags records' hp
    unfold buildFacets
    rw [hp.length_eq, htop, hcameras, hlocations, hhours, hscales]

/-! ## Permissions -/

/-- The tables scopes are computed from. -/
def World.grants (w : World) : Table Principal Principal.principalId ×
    Table AccessPolicy AccessPolicy.accessPolicyId ×
    Table CameraLocation CameraLocation.locationId × Table CameraDevice CameraDevice.cameraId :=
  (w.principals, w.policies, w.locations, w.cameras)

theorem scopeFor_grants {digest : ScopePayload → String} {principalId : String} {w w' : World}
    (h : w'.grants = w.grants) : scopeFor digest w' principalId = scopeFor digest w principalId := by
  obtain ⟨hprincipals, hpolicies, hlocations, hcameras⟩ :
      w'.principals = w.principals ∧ w'.policies = w.policies ∧ w'.locations = w.locations ∧
        w'.cameras = w.cameras := by
    simpa [World.grants] using h
  unfold scopeFor resolvePrincipal authorizedScopeFor
  rw [hprincipals, hpolicies, hlocations, hcameras]

/-- A step after which every principal has the scope it had before. -/
def KeepsGrants {α : Type} (x : Session α) : Prop :=
  ∀ w, (x.exec w).2.grants = w.grants

section KeepsGrants

variable {α β : Type}

theorem KeepsGrants.bind {x : Session α} {f : α → Session β} (hx : KeepsGrants x)
    (hf : ∀ a, KeepsGrants (f a)) : KeepsGrants (x >>= f) := by
  intro w
  have hfirst := hx w
  rw [exec_bind]
  rcases hexec : x.exec w with ⟨e | a, w₁⟩
  · rwa [hexec] at hfirst
  · rw [hexec] at hfirst
    exact (hf a w₁).trans hfirst

theorem KeepsGrants.get_bind {f : World → Session α}
    (hf : ∀ w, ((f w).exec w).2.grants = w.grants) :
    KeepsGrants ((get : Session World) >>= f) := by
  intro w
  rw [exec_bind]
  exact hf w

theorem keepsGrants_requireCapability (scope : AuthorizedScope) (c : Capability) :
    KeepsGrants (requireCapability scope c) := by
  intro w
  unfold requireCapability
  split <;> rfl

theorem keepsGrants_activeContext (cfg : SearchConfig) (env : RequestEnv)
    (scope : AuthorizedScope) (contextId : String) :
    KeepsGrants (activeContext cfg env scope contextId) := by
  refine KeepsGrants.get_bind fun w => ?_
  split
  · rfl
  · split
    · rfl
    · repeat' split
      all_goals rfl

theorem keepsGrants_baseRevision (contextId revisionId : String) :
    KeepsGrants (baseRevision contextId revisionId) := by
  refine KeepsGrants.get_bind fun w => ?_
  split
  · rfl
  · split <;> rfl

theorem keepsGrants_enforceRevisionLimit (cfg : SearchConfig) (contextId : String) :
    KeepsGrants (enforceRevisionLimit cfg contextId) := by
  refine KeepsGrants.get_bind fun w => ?_
  split <;> rfl

theorem keepsGrants_createContext (context : SearchContext) :
    KeepsGrants (createContext context) := by
  refine KeepsGrants.get_bind fun w => ?_
  split <;> rfl

theorem keepsGrants_persistRevision (env : RequestEnv) (contextId : String)
    (parent : Option String) (op : String) (ordered : Scores) (pool : List ObservationRecord) :
    KeepsGrants (persistRevision env contextId parent op ordered pool) := by
  refine KeepsGrants.bind (KeepsGrants.get_bind fun w => ?_) fun _ _ => rfl
  split
  · rfl
  · split <;> rfl

theorem keepsGrants_startSearch (eng : Engine) (cfg : SearchConfig) (env : RequestEnv)
    (scope : AuthorizedScope) (sessionId : Option String) (req : StartRequest) :
    KeepsGrants (startSearch eng cfg env scope sessionId req) := by
  refine (keepsGrants_requireCapability _ _).bind fun _ => ?_
  split
  · exact fun _ => rfl
  · refine KeepsGrants.get_bind fun w => ?_
    refine ((keepsGrants_createContext _).bind fun _ => ?_) w
    refine (keepsGrants_persistRevision _ _ _ _ _ _).bind fun _ => ?_
    exact fun _ => rfl

theorem keepsGrants_refineSearch (eng : Engine) (cfg : SearchConfig) (env : RequestEnv)
    (scope : AuthorizedScope) (contextId : String) (req : RefineRequest) :
    KeepsGrants (refineSearch eng cfg env scope contextId req) := by
  refine (keepsGrants_requireCapability _ _).bind fun _ => ?_
  refine (keepsGrants_activeContext _ _ _ _).bind fun _ => ?_
  refine (keepsGrants_baseRevision _ _).bind fun _ => ?_
  refine KeepsGrants.get_bind fun w => ?_
  refine ((keepsGrants_enforceRevisionLimit _ _).bind fun _ => ?_) w
  refine (keepsGrants_persistRevision _ _ _ _ _ _).bind fun _ => ?_
  exact fun _ => rfl

end KeepsGrants

/-! ## A stored revision -/

/-- `w'` is the database at another time, with the records, the permissions and the
revision as they were in `w`, in any order, and the revision its context's last. -/
structure Unchanged (contextId revisionId : String) (w w' : World) : Prop where
  records : w.store.active.rows.Perm w'.store.active.rows
  grants : w'.grants = w.grants
  candidates : (candidateIds w revisionId).Perm (candidateIds w' revisionId)
  last : ∃ c, w'.contexts.get? contextId = some c ∧ c.defaultRevisionId = some revisionId

/-- While nothing changes, `facets` answers what is stored with the revision. -/
def FacetsKept (eng : Engine) (digest : ScopePayload → String) (cfg : SearchConfig)
    (principalId : String) (rev : SearchRevision) (w : World) : Prop :=
  ∀ env w' f w'', Unchanged rev.contextId rev.revisionId w w' →
    handle eng digest cfg env principalId (.facets rev.contextId) w' = (.ok (.facets f), w'') →
      f = rev.facets

section Stored

variable {eng : Engine} {digest : ScopePayload → String} {cfg : SearchConfig} {env : RequestEnv}
  {scope : AuthorizedScope} {principalId contextId op : String} {parent : Option String}
  {ordered : Scores} {pool : List ObservationRecord} {w w' : World} {resp : SearchResponse}

theorem candidateIds_candidateRows (revisionId : String) (ordered : Scores) :
    ((candidateRows revisionId ordered).filter fun c => decide (c.revisionId = revisionId)).map
      SearchCandidate.recordId = ordered.map Prod.fst := by
  have hall : (candidateRows revisionId ordered).filter
      (fun c => decide (c.revisionId = revisionId)) = candidateRows revisionId ordered :=
    List.filter_eq_self.mpr fun c hc => decide_eq_true (mem_candidateRows hc).1
  rw [hall]
  unfold candidateRows
  rw [List.map_map]
  conv_rhs => rw [← List.zipIdx_map_fst 0 ordered, List.map_map]
  rfl

/-- The new revision holds what was ranked. -/
theorem Stores.candidateIds_eq (h : Stores env contextId parent op ordered pool w w' resp)
    (hn : Narrowing w) : candidateIds w' env.revisionId = ordered.map Prod.fst := by
  have hold : w.candidates.rows.filter (fun c => decide (c.revisionId = env.revisionId)) = [] := by
    refine List.filter_eq_nil_iff.mpr fun c hc hrev => hn.owned c hc ?_
    rw [of_decide_eq_true hrev]
    exact (Table.insert?_eq_some_iff.mp h.inserted).1
  unfold candidateIds
  rw [h.candidates, List.filter_append, hold, List.nil_append]
  exact candidateIds_candidateRows env.revisionId ordered

theorem Stores.nodup_ids (h : Stores env contextId parent op ordered pool w w' resp) :
    (ordered.map Prod.fst).Nodup := by
  have hkeys := w'.candidates.nodup
  rw [h.candidates, List.map_append, keys_candidateRows] at hkeys
  exact List.Nodup.of_map _ (List.nodup_append.mp hkeys).2.1

theorem map_recordId_byId
    (hranked : ∀ x ∈ ordered.map Prod.fst, x ∈ pool.map ObservationRecord.recordId) :
    (ordered.filterMap fun p => byId pool p.1).map ObservationRecord.recordId
      = ordered.map Prod.fst := by
  rw [List.map_filterMap, ← List.filterMap_eq_map]
  refine List.filterMap_congr fun p hp => ?_
  obtain ⟨r, hr, hid⟩ := List.mem_map.mp (hranked p.1 (List.mem_map_of_mem hp))
  cases hby : byId pool p.1 with
  | none =>
      have hnone := List.find?_eq_none.mp hby r hr
      simp [hid] at hnone
  | some r' => exact congrArg some (byId_eq_some hby).2

/-- The stored facets are those of the records the revision holds. -/
theorem Stores.facets_eq (h : Stores env contextId parent op ordered pool w w' resp)
    (hn : Narrowing w) (hpool : pool ⊆ w.store.active.rows)
    (hranked : ∀ x ∈ ordered.map Prod.fst, x ∈ pool.map ObservationRecord.recordId) :
    ∃ records, (revisionRecords w' env.revisionId).Perm records ∧
      (revisionRow env contextId parent op ordered pool).facets = buildFacets records := by
  refine ⟨ordered.filterMap fun p => byId pool p.1, ?_, rfl⟩
  have hids := map_recordId_byId hranked
  have hnodup : (ordered.filterMap fun p => byId pool p.1).Nodup := by
    refine List.Nodup.of_map ObservationRecord.recordId ?_
    rw [hids]
    exact h.nodup_ids
  refine (List.perm_ext_iff_of_nodup ?_ hnodup).mpr fun r => ?_
  · exact (List.Nodup.of_map _ w'.store.active.table.nodup).filter _
  unfold revisionRecords
  rw [List.mem_filter, decide_eq_true_iff, h.candidateIds_eq hn, h.store]
  constructor
  · rintro ⟨hr, hid⟩
    rw [← hids] at hid
    obtain ⟨r', hr', hid'⟩ := List.mem_map.mp hid
    obtain ⟨p, -, hby⟩ := List.mem_filterMap.mp hr'
    obtain rfl := Table.eq_of_key_eq hr (hpool (byId_eq_some hby).1) hid'.symm
    exact hr'
  · intro hr
    obtain ⟨p, hp, hby⟩ := List.mem_filterMap.mp hr
    obtain ⟨hmem, hid⟩ := byId_eq_some hby
    exact ⟨hpool hmem, hid ▸ List.mem_map_of_mem hp⟩

/-! ## Counting again -/

theorem length_sqlLimit_le {α : Type} (n : ℤ) (rows : List α) :
    n < 0 ∨ ((sqlLimit n rows).length : ℤ) ≤ n := by
  unfold sqlLimit
  split
  · exact Or.inl ‹_›
  · rw [List.length_take]
    exact Or.inr (by omega)

theorem perm_listCandidates {revisionId : String} {limit : ℤ}
    (h : limit < 0 ∨ ((candidateIds w revisionId).length : ℤ) ≤ limit) :
    ((listCandidates w revisionId limit).map SearchCandidate.recordId).Perm
      (candidateIds w revisionId) := by
  unfold candidateIds at h ⊢
  unfold listCandidates
  rw [sqlLimit_eq_self]
  · exact (List.mergeSort_perm _ _).map _
  · rwa [List.length_map, ← List.length_mergeSort] at h

theorem revisionRecords_perm {revisionId : String} (h : Unchanged contextId revisionId w w') :
    (revisionRecords w revisionId).Perm (revisionRecords w' revisionId) := by
  unfold revisionRecords
  have hids : (fun r : ObservationRecord => decide (r.recordId ∈ candidateIds w revisionId))
      = fun r => decide (r.recordId ∈ candidateIds w' revisionId) :=
    funext fun r => decide_eq_decide.mpr h.candidates.mem_iff
  rw [hids]
  exact h.records.filter _

/-- What `facets` counts is what the revision holds. -/
theorem getAuthorizedActiveByIds_eq {revisionId : String} {limit : ℤ}
    (hlimit : limit < 0 ∨ ((candidateIds w revisionId).length : ℤ) ≤ limit)
    (hvisible : ∀ r ∈ revisionRecords w revisionId, authorizedObservationFilter scope r = true) :
    getAuthorizedActiveByIds w.store
      ((listCandidates w revisionId limit).map SearchCandidate.recordId) scope
      = revisionRecords w revisionId := by
  have hids := perm_listCandidates hlimit
  have hfilter : (w.store.active.rows.filter fun r =>
      decide (r.recordId ∈ (listCandidates w revisionId limit).map SearchCandidate.recordId) &&
        authorizedObservationFilter scope r) = revisionRecords w revisionId := by
    refine List.filter_congr fun r hr => ?_
    rw [decide_eq_decide.mpr hids.mem_iff]
    by_cases hid : r.recordId ∈ candidateIds w revisionId
    · have hmem : r ∈ revisionRecords w revisionId :=
        List.mem_filter.mpr ⟨hr, decide_eq_true hid⟩
      rw [hvisible r hmem, Bool.and_true]
    · rw [decide_eq_false hid, Bool.false_and]
  unfold getAuthorizedActiveByIds
  split
  · rename_i hnil
    rw [← hfilter, hnil]
    exact (List.filter_eq_nil_iff.mpr fun r _ => by simp).symm
  · exact hfilter

/-- What `facets` relies on for a revision it is asked about. -/
structure Current (cfg : SearchConfig) (scope : AuthorizedScope) (rev : SearchRevision)
    (w : World) : Prop where
  capable : Capability.observationSearch ∈ scope.capabilities
  context : ∃ c, w.contexts.get? rev.contextId = some c ∧ c.principalId = scope.principalId ∧
    c.authorizedScopeHash = scope.scopeHash ∧ c.status = .active ∧
    c.defaultRevisionId = some rev.revisionId
  limit : cfg.maxCandidatesPerRevision < 0 ∨
    ((candidateIds w rev.revisionId).length : ℤ) ≤ cfg.maxCandidatesPerRevision
  visible : ∀ r ∈ revisionRecords w rev.revisionId, authorizedObservationFilter scope r = true
  counted : ∃ records, (revisionRecords w rev.revisionId).Perm records ∧
    rev.facets = buildFacets records

theorem facets_answer {c : SearchContext} {revisionId : String} {f : Facets}
    (hc : w.contexts.get? contextId = some c) (hrev : c.defaultRevisionId = some revisionId)
    (h : (facets cfg env scope contextId).exec w = (.ok f, w')) :
    f = buildFacets (getAuthorizedActiveByIds w.store
      ((listCandidates w revisionId cfg.maxCandidatesPerRevision).map
        SearchCandidate.recordId) scope) := by
  unfold facets at h
  obtain ⟨_, w₁, hcap, h⟩ := bind_ok h
  rw [requireCapability_ok hcap] at h
  obtain ⟨context, w₂, hactive, h⟩ := bind_ok h
  obtain ⟨hcontext, hsame⟩ := activeContext_ok hactive
  obtain rfl := Option.some.inj (hcontext.symm.trans hc)
  rw [hsame, hrev] at h
  replace h := get_bind_ok h
  exact (pure_ok h).1.symm

theorem activeContext_of_admitted {c : SearchContext} (h : Admitted cfg env scope contextId w c) :
    (activeContext cfg env scope contextId).exec w = (.ok c, w) := by
  unfold activeContext
  rw [exec_get_bind, h.stored]
  simp only
  rw [if_neg (not_not.mpr h.owner), if_neg (not_not.mpr h.bound),
    if_neg (not_not.mpr h.live.active), if_neg (not_lt.mpr h.live.fresh),
    if_neg (not_lt.mpr h.live.used)]
  rfl

theorem facets_of_admitted {c : SearchContext} {revisionId : String}
    (hcap : Capability.observationSearch ∈ scope.capabilities)
    (hc : Admitted cfg env scope contextId w c) (hrev : c.defaultRevisionId = some revisionId) :
    ∃ f, (facets cfg env scope contextId).exec w = (.ok f, w) := by
  refine ⟨buildFacets (getAuthorizedActiveByIds w.store
    ((listCandidates w revisionId cfg.maxCandidatesPerRevision).map
      SearchCandidate.recordId) scope), ?_⟩
  unfold facets
  rw [exec_bind, requireCapability, if_pos hcap]
  show (activeContext cfg env scope contextId >>= _ : Session Facets).exec w = _
  rw [exec_bind_of_ok (activeContext_of_admitted hc), hrev]
  rfl

/-- The database with its active records in another order. -/
def World.rearranged (w : World) (rows : List ObservationRecord)
    (h : w.store.active.rows.Perm rows) : World :=
  { w with store := { w.store with active := ⟨⟨rows,
      ((h.map ObservationRecord.recordId).nodup_iff).mp w.store.active.table.nodup⟩,
      ((h.map ObservationRecord.naturalKey).nodup_iff).mp w.store.active.naturalKeys_nodup⟩ } }

theorem exists_rearranged {revisionId : String} {records : List ObservationRecord}
    (h : (revisionRecords w revisionId).Perm records) :
    ∃ rows, ∃ hp : w.store.active.rows.Perm rows,
      revisionRecords (w.rearranged rows hp) revisionId = records := by
  have hrest := List.filter_append_perm
    (fun r : ObservationRecord => decide (r.recordId ∈ candidateIds w revisionId))
    w.store.active.rows
  refine ⟨records ++ w.store.active.rows.filter
    (fun r => !decide (r.recordId ∈ candidateIds w revisionId)),
    hrest.symm.trans (h.append_right _), ?_⟩
  show (records ++ w.store.active.rows.filter
    (fun r => !decide (r.recordId ∈ candidateIds w revisionId))).filter
      (fun r => decide (r.recordId ∈ candidateIds w revisionId)) = records
  have hheld : ∀ r ∈ records, decide (r.recordId ∈ candidateIds w revisionId) = true :=
    fun r hr => (List.mem_filter.mp (h.mem_iff.mpr hr)).2
  rw [List.filter_append, List.filter_eq_self.mpr hheld, List.filter_filter]
  simp

/-- While nothing changes, `facets` counts what the revision holds. -/
theorem Current.answer {rev : SearchRevision} {f : Facets} {w₁ w₂ : World}
    (h : Current cfg scope rev w) (hsame : Unchanged rev.contextId rev.revisionId w w₁)
    (hrun : (facets cfg env scope rev.contextId).exec w₁ = (.ok f, w₂)) :
    f = buildFacets (revisionRecords w₁ rev.revisionId) := by
  obtain ⟨c, hc, hrev⟩ := hsame.last
  have hlimit := h.limit
  rw [hsame.candidates.length_eq] at hlimit
  rw [facets_answer hc hrev hrun, getAuthorizedActiveByIds_eq hlimit]
  intro r hr
  exact h.visible r ((revisionRecords_perm hsame).mem_iff.mpr hr)

theorem Current.unchanged_rearranged {rev : SearchRevision} {rows : List ObservationRecord}
    (h : Current cfg scope rev w) (hp : w.store.active.rows.Perm rows) :
    Unchanged rev.contextId rev.revisionId w (w.rearranged rows hp) := by
  obtain ⟨c, hc, -, -, -, hrev⟩ := h.context
  exact ⟨hp, rfl, List.Perm.refl _, c, hc, hrev⟩

/-- In any order of the records there is a time at which `facets` is answered. -/
theorem Current.exists_answer {rev : SearchRevision} {rows : List ObservationRecord}
    (h : Current cfg scope rev w) (hp : w.store.active.rows.Perm rows) :
    ∃ env f, (facets cfg env scope rev.contextId).exec (w.rearranged rows hp)
      = (.ok f, w.rearranged rows hp) := by
  obtain ⟨c, hc, howner, hbound, hactive, hrev⟩ := h.context
  obtain ⟨f, hf⟩ := @facets_of_admitted cfg
    ⟨min c.expiresAt (c.lastAccessedAt + cfg.contextIdleSeconds * Iso.second), "", "", id⟩
    scope rev.contextId (w.rearranged rows hp) c rev.revisionId h.capable
    ⟨hc, howner, hbound, hactive, min_le_left _ _, min_le_right _ _⟩ hrev
  exact ⟨_, f, hf⟩

/-- The facets of a revision stay as they were stored exactly when its records leave no
tie open. -/
theorem Current.kept_iff {rev : SearchRevision}
    (hscope : scopeFor digest w principalId = .ok scope) (h : Current cfg scope rev w) :
    FacetsKept eng digest cfg principalId rev w ↔ Steady (revisionRecords w rev.revisionId) := by
  obtain ⟨counted, hcounted, hfacets⟩ := h.counted
  rw [← buildFacets_eq_iff]
  constructor
  · intro hkept
    -- any order of the revision's records is one the table can return them in
    have hall : ∀ records, (revisionRecords w rev.revisionId).Perm records →
        buildFacets records = rev.facets := by
      intro records hp
      obtain ⟨rows, hrows, hrecords⟩ := exists_rearranged hp
      have hsame := h.unchanged_rearranged hrows
      obtain ⟨env', f, hrun⟩ := h.exists_answer hrows
      rw [← hrecords, ← h.answer hsame hrun]
      refine hkept env' _ f (w.rearranged rows hrows) hsame ?_
      unfold handle inSession serve
      rw [scopeFor_grants hsame.grants, hscope]
      simp only
      rw [exec_bind_of_ok hrun]
      rfl
    intro records hp
    rw [hall records hp, hall _ (List.Perm.refl _)]
  -- both are built from the records of the revision, each in an order of its own
  · intro hsteady env' w₁ f w₂ hsame hrun
    obtain ⟨scope', hscope', hserve⟩ := handle_ok hrun
    rw [scopeFor_grants hsame.grants, hscope] at hscope'
    obtain rfl := Except.ok.inj hscope'
    obtain ⟨f', w₃, hf, hret⟩ := bind_ok hserve
    obtain rfl := Response.facets.inj (pure_ok hret).1
    rw [h.answer hsame hf, hfacets, hsteady _ (revisionRecords_perm hsame),
      hsteady _ hcounted]

/-! ## Every search -/

theorem Stores.current (h : Stores env contextId parent op ordered pool w w' resp)
    (hn : Narrowing w) (hcap : Capability.observationSearch ∈ scope.capabilities)
    (hcontext : ∃ c, w'.contexts.get? contextId = some c ∧ c.principalId = scope.principalId ∧
      c.authorizedScopeHash = scope.scopeHash ∧ c.status = .active ∧
      c.defaultRevisionId = some env.revisionId)
    (hlimit : cfg.maxCandidatesPerRevision < 0 ∨
      (pool.length : ℤ) ≤ cfg.maxCandidatesPerRevision)
    (hvisible : ∀ r ∈ pool, r ∈ w.store.active.rows ∧ authorizedObservationFilter scope r = true)
    (hranked : ∀ x ∈ ordered.map Prod.fst, x ∈ pool.map ObservationRecord.recordId) :
    Current cfg scope (revisionRow env contextId parent op ordered pool) w' := by
  refine ⟨hcap, hcontext, ?_, ?_, h.facets_eq hn (fun r hr => (hvisible r hr).1) hranked⟩
  -- what is stored is of the pool, so reading the candidates back drops none of them
  · show _ ∨ ((candidateIds w' env.revisionId).length : ℤ) ≤ _
    rw [h.candidateIds_eq hn]
    have hle := (List.subperm_of_subset h.nodup_ids hranked).length_le
    rw [List.length_map, List.length_map] at hle
    rw [List.length_map]
    omega
  -- nor does the filter: the record of a candidate is the one the pool had
  · intro r hr
    obtain ⟨hmem, hid⟩ := List.mem_filter.mp hr
    have hid' : r.recordId ∈ ordered.map Prod.fst := by
      rw [← h.candidateIds_eq hn]
      exact of_decide_eq_true hid
    obtain ⟨r', hr', hsame⟩ := List.mem_map.mp (hranked _ hid')
    rw [h.store] at hmem
    obtain rfl := Table.eq_of_key_eq hmem (hvisible r' hr').1 hsame.symm
    exact (hvisible r hr').2

theorem Stores.get_revision (h : Stores env contextId parent op ordered pool w w' resp) :
    w'.revisions.get? resp.revisionId
      = some (revisionRow env contextId parent op ordered pool) := by
  rw [Table.get?_insert? h.inserted, h.answer]
  exact if_pos rfl

theorem startSearch_current {sessionId : Option String} {req : StartRequest} (hn : Narrowing w)
    (h : (startSearch eng cfg env scope sessionId req).exec w = (.ok resp, w')) :
    ∃ rev, w'.revisions.get? resp.revisionId = some rev ∧ Current cfg scope rev w' := by
  have hstores := startSearch_stores h
  refine ⟨_, hstores.get_revision, hstores.current hn ?_ ?_ (length_sqlLimit_le _ _) ?_ ?_⟩
  · exact (startSearch_steps h).1
  · have hrow := (@startSearch_row eng cfg env scope env.contextId w w' _ _ _ h).2
    rw [if_pos rfl] at hrow
    exact ⟨_, hrow, rfl, rfl, rfl, rfl⟩
  · intro r hr
    obtain ⟨hmem, hfilter⟩ := List.mem_filter.mp (List.mem_mergeSort.mp (mem_sqlLimit hr))
    rw [Bool.and_eq_true] at hfilter
    exact ⟨hmem, hfilter.1⟩
  · exact fun x hx => mem_rank (mem_sliceTo_keys hx)

theorem length_baseRecords_le {base : SearchRevision} :
    cfg.maxCandidatesPerRevision < 0 ∨
      ((baseRecords cfg w scope base).length : ℤ) ≤ cfg.maxCandidatesPerRevision := by
  have hids : (baseRecords cfg w scope base).map ObservationRecord.recordId ⊆
      (listCandidates w base.revisionId cfg.maxCandidatesPerRevision).map
        SearchCandidate.recordId := by
    intro x hx
    obtain ⟨r, hr, rfl⟩ := List.mem_map.mp hx
    exact (mem_getAuthorizedActiveByIds hr).2
  have hle := (List.subperm_of_subset nodup_ids_baseRecords hids).length_le
  rw [List.length_map, List.length_map] at hle
  have hlimit : cfg.maxCandidatesPerRevision < 0 ∨
      ((listCandidates w base.revisionId cfg.maxCandidatesPerRevision).length : ℤ)
        ≤ cfg.maxCandidatesPerRevision := length_sqlLimit_le _ _
  omega

theorem refineSearch_current {req : RefineRequest} (hn : Narrowing w)
    (h : (refineSearch eng cfg env scope contextId req).exec w = (.ok resp, w')) :
    ∃ rev, w'.revisions.get? resp.revisionId = some rev ∧ Current cfg scope rev w' := by
  obtain ⟨base, -, hstores⟩ := refineSearch_stores h
  refine ⟨_, hstores.get_revision, hstores.current hn ?_ ?_ length_baseRecords_le ?_ ?_⟩
  · exact (refineSearch_steps h).1
  · have hrow := @refineSearch_row eng cfg env scope contextId w w' _ _ _ h
    obtain ⟨-, c, _, _, _, _, hactive, -⟩ := refineSearch_steps h
    have hadmitted := activeContext_admitted hactive
    rw [if_pos rfl, hadmitted.stored] at hrow
    exact ⟨_, hrow, hadmitted.owner, hadmitted.bound, hadmitted.live.active, rfl⟩
  · intro r hr
    have hvisible := (mem_getAuthorizedActiveByIds hr).1
    exact ⟨hvisible.1, (authorizedObservationFilter_iff scope r).mpr hvisible.2⟩
  · exact fun x hx => mem_applyRefineOp (mem_sliceTo_keys hx)

/-- A search leaves its revision and its context in place, and the permissions. -/
theorem handle_current {req : Request} (hn : Narrowing w)
    (h : handle eng digest cfg env principalId req w = (.ok (.search resp), w')) :
    ∃ scope rev, scopeFor digest w' principalId = .ok scope ∧
      w'.revisions.get? resp.revisionId = some rev ∧ Current cfg scope rev w' := by
  obtain ⟨scope, hscope, hserve⟩ := handle_ok h
  cases req with
  | start sessionId req =>
      obtain ⟨resp', w₁, hstart, hret⟩ := bind_ok hserve
      obtain ⟨hresp, rfl⟩ := pure_ok hret
      obtain rfl := Response.search.inj hresp
      obtain ⟨rev, hrev, hcurrent⟩ := startSearch_current hn hstart
      have hgrants := keepsGrants_startSearch eng cfg env scope sessionId req w
      rw [hstart] at hgrants
      exact ⟨scope, rev, (scopeFor_grants hgrants).trans hscope, hrev, hcurrent⟩
  | refine contextId req =>
      obtain ⟨resp', w₁, hrefine, hret⟩ := bind_ok hserve
      obtain ⟨hresp, rfl⟩ := pure_ok hret
      obtain rfl := Response.search.inj hresp
      obtain ⟨rev, hrev, hcurrent⟩ := refineSearch_current hn hrefine
      have hgrants := keepsGrants_refineSearch eng cfg env scope contextId req w
      rw [hrefine] at hgrants
      exact ⟨scope, rev, (scopeFor_grants hgrants).trans hscope, hrev, hcurrent⟩
  -- the other requests are not answered with a page
  | facets contextId =>
      obtain ⟨f, w₁, -, hret⟩ := bind_ok hserve
      cases (pure_ok hret).1
  | close contextId =>
      obtain ⟨f, w₁, -, hret⟩ := bind_ok hserve
      cases (pure_ok hret).1
  | details recordIds includeLocator =>
      obtain ⟨f, w₁, -, hret⟩ := bind_ok hserve
      cases (pure_ok hret).1

end Stored

/-- After any sequence of requests, publications and changes of permissions, the facets
a search stores are what `facets` answers while nothing changes, in whatever order the
records come, exactly when the records of its revision leave no tie open. -/
theorem facetsKept_iff (eng : Engine) (digest : ScopePayload → String) (cfg : SearchConfig)
    (store : ObservationStore) (vectors : List StoredVector)
    (principals : Table Principal Principal.principalId)
    (policies : Table AccessPolicy AccessPolicy.accessPolicyId)
    (locations : Table CameraLocation CameraLocation.locationId)
    (cameras : Table CameraDevice CameraDevice.cameraId) (events : List Event)
    (env : RequestEnv) (principalId : String) (req : Request) (resp : SearchResponse)
    (w' : World)
    (h : handle eng digest cfg env principalId req (run eng digest cfg events
      (World.beforeSearch store vectors principals policies locations cameras))
        = (.ok (.search resp), w')) :
    ∃ rev, w'.revisions.get? resp.revisionId = some rev ∧
      (FacetsKept eng digest cfg principalId rev w' ↔
        Steady (revisionRecords w' resp.revisionId)) := by
  have hinit := narrowing_beforeSearch store vectors principals policies locations cameras
  obtain ⟨scope, rev, hscope, hrev, hcurrent⟩ :=
    handle_current (hinit.run eng digest cfg events) h
  have hid : rev.revisionId = resp.revisionId := Table.key_of_get? hrev
  refine ⟨rev, hrev, ?_⟩
  rw [← hid]
  exact hcurrent.kept_iff hscope

/-! ## Two records at the gate -/

/-- What the camera saw in two minutes, tagged with `tags` and `tags'`. -/
def twoTagged (tags tags' : List String) : List ObservationRecord :=
  [{ seen "rec_a" "cam_1" 0 "" with tags := tags },
    { seen "rec_b" "cam_1" 1 "" with tags := tags' }]

/-- A database that holds the two records, which the guard may see. -/
def taggedStore (tags tags' : List String) : ObservationStore :=
  ⟨⟨⟨twoTagged tags tags', by simp [twoTagged, seen]⟩,
      by simp [twoTagged, seen, ObservationRecord.naturalKey]⟩, Table.empty,
    some (FtsTables.ofRecords (twoTagged tags tags')), Table.empty, Table.empty⟩

def taggedWorld (tags tags' : List String) : World :=
  World.beforeSearch (taggedStore tags tags') [] shownWorld.principals shownWorld.policies
    shownWorld.locations shownWorld.cameras

/-- All records. -/
def listAll : StartRequest := { staticSearch "" with queryText := none }

theorem scopeFor_tagged (tags tags' : List String) :
    scopeFor shownServer.digest (taggedWorld tags tags') "guard"
      = .ok (authorizedScopeFor shownServer.digest shownWorld guard) := by
  have hguard : (taggedWorld tags tags').principals.get? "guard" = some guard := by
    show shownWorld.principals.get? "guard" = some guard
    decide +kernel
  unfold scopeFor resolvePrincipal
  rw [hguard]
  rfl

theorem mem_startPool_tagged {tags tags' : List String} {r : ObservationRecord}
    (h : r ∈ twoTagged tags tags') :
    r ∈ startPool wordEngine defaultSearchConfig
      (authorizedScopeFor shownServer.digest shownWorld guard) listAll
      (taggedWorld tags tags') := by
  unfold startPool authorizedCandidatePool
  rw [sqlLimit_eq_self]
  · refine List.mem_mergeSort.mpr (List.mem_filter.mpr ⟨h, ?_⟩)
    rw [Bool.and_eq_true]
    have hgate : authorizedObservationFilter
        (authorizedScopeFor shownServer.digest shownWorld guard) (seen "" "cam_1" 0 "") = true := by
      decide +kernel
    rcases List.mem_cons.mp h with rfl | h
    · exact ⟨hgate, rfl⟩
    · obtain rfl := List.mem_singleton.mp h
      exact ⟨hgate, rfl⟩
  · refine Or.inr ?_
    rw [List.length_mergeSort]
    have hle := List.length_filter_le (fun r => authorizedObservationFilter
      (authorizedScopeFor shownServer.digest shownWorld guard) r &&
        structuralFilter wordEngine listAll r) (twoTagged tags tags')
    exact (Int.ofNat_le.mpr hle).trans (show (2 : ℤ) ≤ 1000 by decide)

/-- The whole ranking of the search is shown, and both records are in it. -/
theorem ids_ranked_listAll (tags tags' : List String) :
    let pool := startPool wordEngine defaultSearchConfig
      (authorizedScopeFor shownServer.digest shownWorld guard) listAll (taggedWorld tags tags')
    let ranked := rank wordEngine defaultSearchConfig (taggedWorld tags tags').store.fts
      (taggedWorld tags tags').vectors pool (startQuery listAll)
    (ranked.length : ℤ) ≤ 20 ∧
      ∀ r ∈ twoTagged tags tags', r.recordId ∈ ranked.map Prod.fst := by
  intro pool ranked
  have hranking : RanksAll wordEngine defaultSearchConfig _ _ pool _ ranked :=
    rank_ranksAll nodup_ids_startPool
  constructor
  · have hperm := hranking.ids.length_eq
    rw [List.length_map, List.length_map] at hperm
    have hle : pool.length ≤ (twoTagged tags tags').length :=
      (List.subperm_of_subset (List.Nodup.of_map _ nodup_ids_startPool) fun r hr =>
        (visible_of_mem_pool hr).1).length_le
    exact (Int.ofNat_le.mpr (hperm.trans_le hle)).trans (show (2 : ℤ) ≤ 20 by decide)
  · intro r hr
    exact hranking.ids.mem_iff.mpr (List.mem_map_of_mem (mem_startPool_tagged hr))

/-- The search finds both records. -/
theorem handle_listAll (tags tags' : List String) : ∃ resp w',
    handle wordEngine shownServer.digest defaultSearchConfig firstRequest "guard"
      (.start none listAll) (taggedWorld tags tags') = (.ok (.search resp), w') ∧
    revisionRecords w' resp.revisionId = twoTagged tags tags' := by
  obtain ⟨hlength, hfound⟩ := ids_ranked_listAll tags tags'
  obtain ⟨scope, hscope⟩ : ∃ scope,
      scope = authorizedScopeFor shownServer.digest shownWorld guard := ⟨_, rfl⟩
  rw [← hscope] at hlength hfound
  have hcap : Capability.observationSearch ∈ scope.capabilities := by
    rw [hscope]
    decide +kernel
  have hfresh : FreshIds firstRequest (taggedWorld tags tags') :=
    ⟨rfl, rfl, fun c hc => (by cases hc)⟩
  have hresp := @startSearch_fresh wordEngine defaultSearchConfig firstRequest scope none listAll
    (taggedWorld tags tags') hcap (by decide) hfresh
  obtain ⟨w', hstart⟩ : ∃ w', (startSearch wordEngine defaultSearchConfig firstRequest scope none
      listAll).exec (taggedWorld tags tags') = (.ok (startAnswer wordEngine defaultSearchConfig
        firstRequest listAll (taggedWorld tags tags') (startPool wordEngine defaultSearchConfig
          scope listAll (taggedWorld tags tags'))), w') := ⟨_, Prod.ext hresp rfl⟩
  refine ⟨startAnswer wordEngine defaultSearchConfig firstRequest listAll
    (taggedWorld tags tags') (startPool wordEngine defaultSearchConfig scope listAll
      (taggedWorld tags tags')), w', ?_, ?_⟩
  · unfold handle inSession serve
    rw [scopeFor_tagged, ← hscope]
    simp only
    rw [exec_bind_of_ok hstart]
    rfl
  · have hstores := startSearch_stores hstart
    have hids := hstores.candidateIds_eq (narrowing_beforeSearch _ _ _ _ _ _)
    unfold revisionRecords
    show w'.store.active.rows.filter (fun r => decide (r.recordId ∈ candidateIds w' "rev_1")) = _
    rw [hstores.store]
    refine List.filter_eq_self.mpr fun r hr => decide_eq_true ?_
    have hmem := hfound r hr
    rw [← sliceTo_eq_self hlength] at hmem
    show r.recordId ∈ candidateIds w' firstRequest.revisionId
    rw [hids]
    exact hmem

/-- Two tags that come in one order in both records leave no tie open. -/
theorem facetsKept_iff_red_coat : ∃ resp w' rev,
    handle wordEngine shownServer.digest defaultSearchConfig firstRequest "guard"
      (.start none listAll) (taggedWorld ["red", "coat"] ["red", "coat"])
        = (.ok (.search resp), w') ∧
    w'.revisions.get? resp.revisionId = some rev ∧
    FacetsKept wordEngine shownServer.digest defaultSearchConfig "guard" rev w' := by
  obtain ⟨resp, w', h, hrecords⟩ := handle_listAll ["red", "coat"] ["red", "coat"]
  obtain ⟨rev, hrev, hiff⟩ := facetsKept_iff wordEngine shownServer.digest defaultSearchConfig
    (taggedStore ["red", "coat"] ["red", "coat"]) [] shownWorld.principals shownWorld.policies
    shownWorld.locations shownWorld.cameras [] firstRequest "guard" (.start none listAll) resp w' h
  refine ⟨resp, w', rev, h, hrev, hiff.mpr ?_⟩
  rw [hrecords]
  decide +kernel

/-- With one tag each, the tag listed first is that of the record read first. -/
theorem facets_change_red_coat : ¬ ∀ resp w' rev,
    handle wordEngine shownServer.digest defaultSearchConfig firstRequest "guard"
      (.start none listAll) (taggedWorld ["red"] ["coat"]) = (.ok (.search resp), w') →
    w'.revisions.get? resp.revisionId = some rev →
    FacetsKept wordEngine shownServer.digest defaultSearchConfig "guard" rev w' := by
  intro hclaim
  obtain ⟨resp, w', h, hrecords⟩ := handle_listAll ["red"] ["coat"]
  have hn : Narrowing (taggedWorld ["red"] ["coat"]) := narrowing_beforeSearch _ _ _ _ _ _
  obtain ⟨scope, rev, hscope, hrev, hcurrent⟩ := handle_current hn h
  have hsteady := (hcurrent.kept_iff hscope).mp (hclaim resp w' rev h hrev)
  rw [Table.key_of_get? hrev, hrecords] at hsteady
  exact absurd hsteady (by decide +kernel)

end CctvMemory.Search
