import CctvMemory.Search.Outcome
import Mathlib.Tactic.Linarith
import Mathlib.Tactic.Positivity

/-!
# What unauthorized records can change

Two databases agree for a principal when the active records it may see, and
their index rows and vectors, are the same in both (`Agree`). The pools, the
keyword fallback, the vector channel and the boosts of a start request are then
the same; the one thing another record can touch is the bm25 of the whole FTS
table. A request is answered alike when bm25 puts the matching rows of the pool
in the same order against both tables (`SameTextOrder`).

* `answers_agree`: the answers agree when the text order does, and on a request
  that shows the order of one text channel only then.
* `answers_differ`: one record of another camera turns two results around.
-/

namespace CctvMemory.Search

open Keyed (Table)
open CctvMemory.Publication (ObservationRecord ObservationStore FtsRow FtsTables)
open CctvMemory.Authorization

/-! ## Lookups in a dictionary -/

theorem lookup_dictSet {ν : Type} (k x : String) (v : ν) (d : List (String × ν)) :
    (dictSet k v d).lookup x = if x = k then some v else d.lookup x := by
  induction d with
  | nil =>
      by_cases hx : x = k
      · simp [dictSet, hx]
      · simp [dictSet, List.lookup_cons, hx, beq_eq_false_iff_ne.mpr hx]
  | cons p rest ih =>
      obtain ⟨k', v'⟩ := p
      unfold dictSet
      by_cases hk : k' = k
      · subst hk
        rw [if_pos rfl]
        by_cases hx : x = k'
        · simp [hx]
        · simp [List.lookup_cons, hx, beq_eq_false_iff_ne.mpr hx]
      · rw [if_neg hk]
        by_cases hx : x = k'
        · subst hx
          rw [if_neg hk]
          simp
        · rw [List.lookup_cons, List.lookup_cons, beq_eq_false_iff_ne.mpr hx]
          exact ih

/-- The last assignment to a key is the one that is read. -/
theorem lookup_dictOf {ν : Type} (x : String) (pairs : List (String × ν)) :
    (dictOf pairs).lookup x
      = ((pairs.filter fun p => decide (p.1 = x)).getLast?).map Prod.snd := by
  induction pairs using List.reverseRecOn with
  | nil => rfl
  | append_singleton pairs p ih =>
      unfold dictOf at ih ⊢
      rw [List.foldl_append, List.filter_append]
      show (dictSet p.1 p.2 _).lookup x = _
      rw [lookup_dictSet, ih]
      by_cases hx : x = p.1
      · simp [hx]
      · simp [hx, Ne.symm hx]

theorem lookup_eq_some_iff {ν : Type} {d : List (String × ν)} (hd : (d.map Prod.fst).Nodup)
    {x : String} {v : ν} : d.lookup x = some v ↔ (x, v) ∈ d := by
  induction d with
  | nil => simp
  | cons p rest ih =>
      obtain ⟨k, u⟩ := p
      rw [List.map_cons, List.nodup_cons] at hd
      rw [List.lookup_cons, List.mem_cons]
      by_cases hx : x = k
      · subst hx
        have hrest : (x, v) ∉ rest := fun hmem => hd.1 (List.mem_map.mpr ⟨_, hmem, rfl⟩)
        simp [hrest, eq_comm]
      · rw [beq_eq_false_iff_ne.mpr hx]
        simp [hx, ih hd.2]

theorem dictOf_eq_self {ν : Type} {pairs : List (String × ν)} (h : (pairs.map Prod.fst).Nodup) :
    dictOf pairs = pairs := by
  have hset : ∀ (d : List (String × ν)) (p : String × ν), p.1 ∉ d.map Prod.fst →
      dictSet p.1 p.2 d = d ++ [p] := by
    intro d p hp
    induction d with
    | nil => rfl
    | cons q d ih =>
        rw [List.map_cons, List.mem_cons, not_or] at hp
        unfold dictSet
        rw [if_neg (Ne.symm hp.1), ih hp.2]
        rfl
  induction pairs using List.reverseRecOn with
  | nil => rfl
  | append_singleton pairs p ih =>
      rw [List.map_append, List.nodup_append] at h
      unfold dictOf at ih ⊢
      rw [List.foldl_append, ih h.1]
      refine hset pairs p fun hmem => ?_
      exact h.2.2 _ hmem _ (List.mem_singleton_self _) rfl

/-! ## Two scores, one order -/

/-- The ids of a score list, best first. -/
def rankedIds (scores : Scores) : List String := (scores.mergeSort scoreLe).map Prod.fst

theorem toRankMap_eq_rankedIds (scores : Scores) :
    toRankMap scores = (rankedIds scores).zipIdx.map fun p => (p.1, p.2 + 1) := by
  unfold toRankMap rankedIds
  rw [List.zipIdx_map, List.map_map]
  rfl

theorem mem_rankedIds {scores : Scores} {x : String} :
    x ∈ rankedIds scores ↔ x ∈ scores.map Prod.fst := by
  simp only [rankedIds, List.mem_map, List.mem_mergeSort]

theorem nodup_rankedIds {scores : Scores} (h : (scores.map Prod.fst).Nodup) :
    (rankedIds scores).Nodup :=
  nodup_orderCandidates h

/-- Every two ids compare the same way under both lists of scores. -/
def ComparesAlike (s s' : Scores) : Prop :=
  ∀ p ∈ s, ∀ q ∈ s, ∀ p' ∈ s', ∀ q' ∈ s', p.1 = p'.1 → q.1 = q'.1 →
    scoreLe p q = scoreLe p' q'

theorem scoreLe_self (p : String × ℚ) : scoreLe p p = true := by
  rcases sortKey_scoreLe.total p p with h | h <;> exact h

/-- An item that sorts after another one does not sort before it. -/
theorem scoreLe_eq_false {p q : String × ℚ} (h : scoreLe p q = true) (hne : p.1 ≠ q.1) :
    scoreLe q p = false := by
  rw [← Bool.not_eq_true]
  intro h'
  exact hne (congrArg Prod.fst (scoreLe_antisymm h h'))

theorem comparesAlike_of_sorted {s s' : Scores} (hs : s.Pairwise fun a b => scoreLe a b = true)
    (hs' : s'.Pairwise fun a b => scoreLe a b = true) (hd : (s.map Prod.fst).Nodup)
    (hids : s.map Prod.fst = s'.map Prod.fst) : ComparesAlike s s' := by
  induction s generalizing s' with
  | nil => exact fun p hp => (by cases hp)
  | cons a s ih =>
      obtain ⟨a', s', rfl⟩ : ∃ a' t, s' = a' :: t := by
        cases s' with
        | nil => cases hids
        | cons a' t => exact ⟨a', t, rfl⟩
      rw [List.map_cons, List.map_cons, List.cons.injEq] at hids
      rw [List.pairwise_cons] at hs hs'
      rw [List.map_cons, List.nodup_cons] at hd
      have hd' : a'.1 ∉ s'.map Prod.fst := hids.1 ▸ hids.2 ▸ hd.1
      -- an id sits at the head of both lists or in the tails of both
      have hplace : ∀ p ∈ a :: s, ∀ p' ∈ a' :: s', p.1 = p'.1 →
          (p = a ∧ p' = a') ∨ (p ∈ s ∧ p' ∈ s' ∧ p.1 ≠ a.1 ∧ p'.1 ≠ a'.1) := by
        intro p hp p' hp' heq
        rcases List.mem_cons.mp hp with rfl | hp
        · rcases List.mem_cons.mp hp' with rfl | hp'
          · exact Or.inl ⟨rfl, rfl⟩
          · exact absurd (List.mem_map_of_mem hp') (heq ▸ hids.1 ▸ hd')
        · have hne : p.1 ≠ a.1 := fun h => hd.1 (h ▸ List.mem_map_of_mem hp)
          rcases List.mem_cons.mp hp' with rfl | hp'
          · exact absurd (heq.trans hids.1.symm) hne
          · exact Or.inr ⟨hp, hp', hne, fun h => hd' (h ▸ List.mem_map_of_mem hp')⟩
      intro p hp q hq p' hp' q' hq' hpp hqq
      rcases hplace p hp p' hp' hpp with ⟨rfl, rfl⟩ | ⟨hps, hps', hpne, hpne'⟩
      · rcases hplace q hq q' hq' hqq with ⟨rfl, rfl⟩ | ⟨hqs, hqs', -, -⟩
        · rw [scoreLe_self, scoreLe_self]
        · rw [hs.1 q hqs, hs'.1 q' hqs']
      · rcases hplace q hq q' hq' hqq with ⟨rfl, rfl⟩ | ⟨hqs, hqs', -, -⟩
        · rw [scoreLe_eq_false (hs.1 p hps) hpne.symm, scoreLe_eq_false (hs'.1 p' hps') hpne'.symm]
        · exact ih hs.2 hs'.2 hd.2 hids.2 p hps q hqs p' hps' q' hqs' hpp hqq

/-- Scores of the same ids rank them alike exactly when they compare alike. -/
theorem rankedIds_eq_iff {s s' : Scores} (hd : (s.map Prod.fst).Nodup)
    (hd' : (s'.map Prod.fst).Nodup) (hids : ∀ x, x ∈ s.map Prod.fst ↔ x ∈ s'.map Prod.fst) :
    rankedIds s = rankedIds s' ↔ ComparesAlike s s' := by
  constructor
  · intro heq p hp q hq p' hp' q' hq'
    exact comparesAlike_of_sorted (pairwise_mergeSort_scoreLe s) (pairwise_mergeSort_scoreLe s')
      (nodup_orderCandidates hd) heq p (List.mem_mergeSort.mpr hp) q (List.mem_mergeSort.mpr hq)
      p' (List.mem_mergeSort.mpr hp') q' (List.mem_mergeSort.mpr hq')
  · intro halike
    have hperm : (rankedIds s).Perm (rankedIds s') := by
      rw [List.perm_ext_iff_of_nodup (nodup_rankedIds hd) (nodup_rankedIds hd')]
      intro x
      rw [mem_rankedIds, mem_rankedIds]
      exact hids x
    -- both lists of ids are sorted by the scores of the first
    have hsorted : (rankedIds s).Pairwise fun x y =>
        ∀ p ∈ s, ∀ q ∈ s, p.1 = x → q.1 = y → scoreLe p q = true := by
      refine List.pairwise_map.mpr ((pairwise_mergeSort_scoreLe s).imp_of_mem ?_)
      intro a b ha hb hab p hp q hq hpa hqb
      rwa [List.inj_on_of_nodup_map hd hp (List.mem_mergeSort.mp ha) hpa,
        List.inj_on_of_nodup_map hd hq (List.mem_mergeSort.mp hb) hqb]
    have hsorted' : (rankedIds s').Pairwise fun x y =>
        ∀ p ∈ s, ∀ q ∈ s, p.1 = x → q.1 = y → scoreLe p q = true := by
      refine List.pairwise_map.mpr ((pairwise_mergeSort_scoreLe s').imp_of_mem ?_)
      intro a b ha hb hab p hp q hq hpa hqb
      rw [halike p hp q hq a (List.mem_mergeSort.mp ha) b (List.mem_mergeSort.mp hb) hpa hqb]
      exact hab
    refine hperm.eq_of_pairwise ?_ hsorted hsorted'
    intro x y hx hy hxy hyx
    obtain ⟨p, hp, rfl⟩ := List.mem_map.mp (mem_rankedIds.mp hx)
    obtain ⟨q, hq, rfl⟩ := List.mem_map.mp (mem_rankedIds.mp (hperm.mem_iff.mpr hy))
    exact congrArg Prod.fst
      (scoreLe_antisymm (hxy p hp q hq rfl rfl) (hyx q hq p hp rfl rfl))

/-! ## Databases that agree for a principal -/

/-- The active records the scope permits, and what is indexed of them, are the
same in both databases. Everything else may differ. -/
structure Agree (scope : AuthorizedScope) (w w' : World) : Prop where
  records : ∀ r, authorizedObservationFilter scope r = true →
    (r ∈ w.store.active.rows ↔ r ∈ w'.store.active.rows)
  /-- The virtual tables exist in both or in neither. -/
  tables : w.store.fts.isSome = w'.store.fts.isSome
  indexRows : ∀ t t', w.store.fts = some t → w'.store.fts = some t' → ∀ r ∈ w.store.active.rows,
    authorizedObservationFilter scope r = true → ∀ field,
    (ftsRows t field).filter (fun row => decide (row.recordId = r.recordId))
      = (ftsRows t' field).filter fun row => decide (row.recordId = r.recordId)
  vectors : ∀ r ∈ w.store.active.rows, authorizedObservationFilter scope r = true →
    w.vectors.filter (fun v => decide (v.recordId = r.recordId))
      = w'.vectors.filter fun v => decide (v.recordId = r.recordId)

/-- Two answers show the same results, count and facets. -/
structure SameAnswer (resp resp' : SearchResponse) : Prop where
  ids : resp.results.map SearchResultItem.recordId = resp'.results.map SearchResultItem.recordId
  count : resp.candidateCount = resp'.candidateCount
  facets : resp.facets = resp'.facets

/-- The principal cannot tell the two databases apart by this request. -/
def Indistinguishable (eng : Engine) (cfg : SearchConfig) (env : RequestEnv)
    (scope : AuthorizedScope) (sessionId : Option String) (req : StartRequest) (w w' : World) :
    Prop :=
  match ((startSearch eng cfg env scope sessionId req).exec w).1,
    ((startSearch eng cfg env scope sessionId req).exec w').1 with
  | .ok resp, .ok resp' => SameAnswer resp resp'
  | .error e, .error e' => e = e'
  | _, _ => False

theorem sortKey_startTimeLe : SortKey startTimeLe fun r : ObservationRecord =>
    toLex (Iso.isoformat r.observedStartTime, r.recordId) := by
  constructor
  intro a b
  rw [Prod.Lex.toLex_le_toLex]
  simp [startTimeLe]

section Agree

variable {eng : Engine} {cfg : SearchConfig} {scope : AuthorizedScope} {req : StartRequest}
  {w w' : World}

/-- Both databases give the request the same pool. -/
theorem Agree.startPool_eq (h : Agree scope w w') :
    startPool eng cfg scope req w = startPool eng cfg scope req w' := by
  have hmatch : ∀ r,
      r ∈ (w.store.active.rows.filter fun r =>
        authorizedObservationFilter scope r && structuralFilter eng req r) ↔
      r ∈ (w'.store.active.rows.filter fun r =>
        authorizedObservationFilter scope r && structuralFilter eng req r) := by
    intro r
    rw [List.mem_filter, List.mem_filter, Bool.and_eq_true]
    constructor
    · rintro ⟨hr, hauth, hstruct⟩
      exact ⟨(h.records r hauth).mp hr, hauth, hstruct⟩
    · rintro ⟨hr, hauth, hstruct⟩
      exact ⟨(h.records r hauth).mpr hr, hauth, hstruct⟩
  have hperm := (List.perm_ext_iff_of_nodup
    (w.store.active.table.nodup.of_map.filter _)
    (w'.store.active.table.nodup.of_map.filter _)).mpr hmatch
  refine congrArg (sqlLimit cfg.maxCandidatesPerRevision)
    (sortKey_startTimeLe.mergeSort_congr hperm ?_)
  intro a ha b hb hkey
  exact w.store.active.table.eq_of_key_eq (List.mem_of_mem_filter ha) (List.mem_of_mem_filter hb)
    (congrArg (fun k => (ofLex k).2) hkey)

theorem Agree.poolIds_eq (h : Agree scope w w') :
    poolIds eng cfg scope req w = poolIds eng cfg scope req w' :=
  congrArg (List.map ObservationRecord.recordId) h.startPool_eq

/-- A record of the pool is an active record the scope permits. -/
theorem authorized_of_mem_startPool {x : String}
    (hx : x ∈ poolIds eng cfg scope req w) :
    ∃ r ∈ w.store.active.rows, authorizedObservationFilter scope r = true ∧ r.recordId = x := by
  obtain ⟨r, hr, rfl⟩ := List.mem_map.mp hx
  have hmem := List.mem_filter.mp (List.mem_mergeSort.mp (mem_sqlLimit hr))
  rw [Bool.and_eq_true] at hmem
  exact ⟨r, hmem.1, hmem.2.1, rfl⟩

end Agree

/-! ## The text channels -/

def searchTerms (eng : Engine) (query : String) : List String :=
  (queryTerms eng query).filter eng.isalnum

/-- The rows of a text table that match the query and belong to a candidate. -/
def matchingRows (eng : Engine) (query : String) (ids : List String) (rows : List FtsRow) :
    List FtsRow :=
  rows.filter fun row =>
    eng.ftsMatch (searchTerms eng query) row.text && decide (row.recordId ∈ ids)

/-- A row with its bm25 against the whole table `rows`. -/
def textScore (eng : Engine) (query : String) (rows : List FtsRow) (row : FtsRow) :
    String × ℚ :=
  (row.recordId, eng.bm25 rows (searchTerms eng query) row)

/-- Against `rows'` bm25 puts the matching candidates in the order it puts them
in against `rows` (ties by id). -/
def SameRowOrder (eng : Engine) (query : String) (ids : List String) (rows rows' : List FtsRow) :
    Prop :=
  ∀ row ∈ matchingRows eng query ids rows, ∀ other ∈ matchingRows eng query ids rows,
    scoreLe (textScore eng query rows row) (textScore eng query rows other)
      = scoreLe (textScore eng query rows' row) (textScore eng query rows' other)

def usesField (mode : SearchMode) : TextField → Bool
  | .static => usesStatic mode
  | .dynamic => usesDynamic mode
  | .tags => false

/-- In every text channel of the request, bm25 orders the matching rows of the
pool alike in both databases. -/
def SameTextOrder (eng : Engine) (cfg : SearchConfig) (scope : AuthorizedScope)
    (req : StartRequest) (w w' : World) : Prop :=
  ∀ query, req.queryText = some query → query ≠ "" → searchTerms eng query ≠ [] →
  ∀ t t', w.store.fts = some t → w'.store.fts = some t' →
  ∀ field, usesField req.searchMode field = true →
    SameRowOrder eng query (poolIds eng cfg scope req w)
      (ftsRows t field) (ftsRows t' field)

section TextChannel

variable {eng : Engine} {query : String} {ids : List String} {rows rows' : List FtsRow}

theorem filter_matchingRows {x : String} (hx : x ∈ ids) :
    (matchingRows eng query ids rows).filter (fun row => decide (row.recordId = x))
      = (rows.filter fun row => decide (row.recordId = x)).filter fun row =>
          eng.ftsMatch (searchTerms eng query) row.text := by
  unfold matchingRows
  rw [List.filter_filter, List.filter_filter]
  refine List.filter_congr fun row _ => ?_
  by_cases hrow : row.recordId = x
  · simp [hrow, hx]
  · simp [hrow]

theorem lookup_textScores (x : String) :
    (dictOf ((matchingRows eng query ids rows).map (textScore eng query rows))).lookup x
      = (((matchingRows eng query ids rows).filter fun row =>
          decide (row.recordId = x)).getLast?).map fun row =>
            eng.bm25 rows (searchTerms eng query) row := by
  rw [lookup_dictOf, List.filter_map, List.getLast?_map, Option.map_map]
  rfl

/-- The item of `x` is the score of its last matching row. -/
theorem mem_textScores {p : String × ℚ}
    (hp : p ∈ dictOf ((matchingRows eng query ids rows).map (textScore eng query rows))) :
    ∃ row, ((matchingRows eng query ids rows).filter fun row =>
      decide (row.recordId = p.1)).getLast? = some row ∧
      row ∈ matchingRows eng query ids rows ∧ p = textScore eng query rows row := by
  have hlookup := (lookup_eq_some_iff (nodup_keys_dictOf _)).mpr hp
  rw [lookup_textScores, Option.map_eq_some_iff] at hlookup
  obtain ⟨row, hrow, hscore⟩ := hlookup
  obtain ⟨hmem, hid⟩ := List.mem_filter.mp (List.mem_of_getLast? hrow)
  exact ⟨row, hrow, hmem, Prod.ext (of_decide_eq_true hid).symm hscore.symm⟩

/-- Rows that agree on every candidate match the same candidates. -/
theorem filter_matchingRows_eq
    (h : ∀ x ∈ ids, (rows.filter fun row => decide (row.recordId = x))
      = rows'.filter fun row => decide (row.recordId = x)) {x : String} :
    (matchingRows eng query ids rows).filter (fun row => decide (row.recordId = x))
      = (matchingRows eng query ids rows').filter fun row => decide (row.recordId = x) := by
  by_cases hx : x ∈ ids
  · rw [filter_matchingRows hx, filter_matchingRows hx, h x hx]
  · have hnone : ∀ l : List FtsRow, (matchingRows eng query ids l).filter
        (fun row => decide (row.recordId = x)) = [] := by
      intro l
      rw [List.filter_eq_nil_iff]
      intro row hrow heq
      have hids := (List.mem_filter.mp hrow).2
      rw [Bool.and_eq_true, decide_eq_true_eq] at hids
      exact hx (of_decide_eq_true heq ▸ hids.2)
    rw [hnone, hnone]

theorem mem_matchingRows_iff
    (h : ∀ x ∈ ids, (rows.filter fun row => decide (row.recordId = x))
      = rows'.filter fun row => decide (row.recordId = x)) {row : FtsRow} :
    row ∈ matchingRows eng query ids rows ↔ row ∈ matchingRows eng query ids rows' := by
  have hself : ∀ l : List FtsRow, row ∈ matchingRows eng query ids l ↔
      row ∈ (matchingRows eng query ids l).filter
        fun other => decide (other.recordId = row.recordId) := by
    intro l
    simp [List.mem_filter]
  rw [hself rows, hself rows', filter_matchingRows_eq h]

theorem mem_keys_textScores {x : String} :
    x ∈ (dictOf ((matchingRows eng query ids rows).map (textScore eng query rows))).map Prod.fst ↔
      ∃ row ∈ matchingRows eng query ids rows, row.recordId = x := by
  constructor
  · intro hx
    obtain ⟨p, hp, rfl⟩ := List.mem_map.mp hx
    obtain ⟨row, -, hrow, rfl⟩ := mem_textScores hp
    exact ⟨row, hrow, rfl⟩
  · rintro ⟨row, hrow, rfl⟩
    have hmem : row ∈ (matchingRows eng query ids rows).filter
        fun other => decide (other.recordId = row.recordId) :=
      List.mem_filter.mpr ⟨hrow, by simp⟩
    obtain ⟨last, hlast⟩ := List.getLast?_isSome.mpr (List.ne_nil_of_mem hmem) |>
      Option.isSome_iff_exists.mp
    refine List.mem_map.mpr ⟨(row.recordId, eng.bm25 rows (searchTerms eng query) last),
      (lookup_eq_some_iff (nodup_keys_dictOf _)).mp ?_, rfl⟩
    rw [lookup_textScores, hlast]
    rfl

/-- The same order of rows ranks the candidates alike. -/
theorem rankedIds_eq_of_sameRowOrder
    (h : ∀ x ∈ ids, (rows.filter fun row => decide (row.recordId = x))
      = rows'.filter fun row => decide (row.recordId = x))
    (horder : SameRowOrder eng query ids rows rows') :
    rankedIds (dictOf ((matchingRows eng query ids rows).map (textScore eng query rows)))
      = rankedIds (dictOf ((matchingRows eng query ids rows').map (textScore eng query rows'))) := by
  rw [rankedIds_eq_iff (nodup_keys_dictOf _) (nodup_keys_dictOf _)]
  · intro p hp q hq p' hp' q' hq' hpp hqq
    obtain ⟨row, hlast, hrow, rfl⟩ := mem_textScores hp
    obtain ⟨other, hlast', hother, rfl⟩ := mem_textScores hq
    obtain ⟨row', hlastp, -, rfl⟩ := mem_textScores hp'
    obtain ⟨other', hlastq, -, rfl⟩ := mem_textScores hq'
    rw [← hpp, ← filter_matchingRows_eq h, hlast] at hlastp
    rw [← hqq, ← filter_matchingRows_eq h, hlast'] at hlastq
    cases hlastp
    cases hlastq
    exact horder row hrow other hother
  · intro x
    rw [mem_keys_textScores, mem_keys_textScores]
    simp only [mem_matchingRows_iff h]

/-- With one row a candidate, only the same order ranks them alike. -/
theorem sameRowOrder_of_rankedIds_eq
    (h : ∀ x ∈ ids, (rows.filter fun row => decide (row.recordId = x))
      = rows'.filter fun row => decide (row.recordId = x))
    (hone : ((matchingRows eng query ids rows).map FtsRow.recordId).Nodup)
    (hone' : ((matchingRows eng query ids rows').map FtsRow.recordId).Nodup)
    (heq : rankedIds (dictOf ((matchingRows eng query ids rows).map (textScore eng query rows)))
      = rankedIds
          (dictOf ((matchingRows eng query ids rows').map (textScore eng query rows')))) :
    SameRowOrder eng query ids rows rows' := by
  have hself : ∀ l : List FtsRow, ((matchingRows eng query ids l).map FtsRow.recordId).Nodup →
      dictOf ((matchingRows eng query ids l).map (textScore eng query l))
        = (matchingRows eng query ids l).map (textScore eng query l) := by
    intro l hl
    apply dictOf_eq_self
    rwa [List.map_map]
  rw [rankedIds_eq_iff (nodup_keys_dictOf _) (nodup_keys_dictOf _), hself rows hone,
    hself rows' hone'] at heq
  · intro row hrow other hother
    exact heq _ (List.mem_map_of_mem hrow) _ (List.mem_map_of_mem hother)
      _ (List.mem_map_of_mem ((mem_matchingRows_iff h).mp hrow))
      _ (List.mem_map_of_mem ((mem_matchingRows_iff h).mp hother)) rfl rfl
  · intro x
    rw [mem_keys_textScores, mem_keys_textScores]
    simp only [mem_matchingRows_iff h]

end TextChannel

theorem ftsRank_eq {eng : Engine} {query : String} {ids : List String} {t : FtsTables}
    {field : TextField} (hterms : searchTerms eng query ≠ []) :
    ftsRank eng (some t) query ids field
      = dictOf ((matchingRows eng query ids (ftsRows t field)).map
          (textScore eng query (ftsRows t field))) := by
  show (if searchTerms eng query = [] then [] else _) = _
  rw [if_neg hterms]
  rfl

theorem ftsRank_of_no_terms {eng : Engine} {query : String} {ids : List String}
    {fts : Option FtsTables} {field : TextField} (hterms : searchTerms eng query = []) :
    ftsRank eng fts query ids field = [] := by
  cases fts with
  | none => rfl
  | some t =>
      show (if searchTerms eng query = [] then [] else _) = _
      rw [if_pos hterms]

/-! ## The vector channel -/

theorem filter_filterMap_of_key {α β : Type} {f : α → Option β} {p : β → Bool} {q : α → Bool}
    (h : ∀ a b, f a = some b → p b = q a) (l : List α) :
    (l.filterMap f).filter p = (l.filter q).filterMap f := by
  rw [List.filter_filterMap, List.filterMap_filter]
  refine List.filterMap_congr fun a _ => ?_
  cases hf : f a with
  | none => simp
  | some b => simp [Option.filter, h a b hf]

theorem lookup_vectorChannel {eng : Engine} {vectors vectors' : List StoredVector}
    {ids : List String} {query : String} {vectorType : TextField}
    (h : ∀ x ∈ ids, (vectors.filter fun v => decide (v.recordId = x))
      = vectors'.filter fun v => decide (v.recordId = x)) {x : String} (hx : x ∈ ids) :
    (vectorChannel eng vectors ids query vectorType).lookup x
      = (vectorChannel eng vectors' ids query vectorType).lookup x := by
  have hread : ∀ l : List StoredVector, (vectorChannel eng l ids query vectorType).lookup x
      = (eng.embedQuery query).bind fun queryVec =>
          ((((l.filter fun v => decide (v.recordId = x)).filter fun v =>
            decide (v.vectorType = vectorType)).filterMap fun v =>
              if 0 < eng.cosineSimilarity queryVec v.embedding
              then some (v.recordId, eng.cosineSimilarity queryVec v.embedding)
              else none).getLast?).map Prod.snd := by
    intro l
    have hstored : (l.filter fun v => decide (v.recordId ∈ ids) &&
          decide (v.vectorType = vectorType)).filter (fun v => decide (v.recordId = x))
        = (l.filter fun v => decide (v.recordId = x)).filter fun v =>
            decide (v.vectorType = vectorType) := by
      rw [List.filter_filter, List.filter_filter]
      refine List.filter_congr fun v _ => ?_
      by_cases hv : v.recordId = x
      · simp [hv, hx]
      · simp [hv]
    unfold vectorChannel
    dsimp only
    split
    · rename_i hnone
      rw [hnone] at hstored
      rw [← hstored]
      cases eng.embedQuery query <;> rfl
    · cases eng.embedQuery query with
      | none => rfl
      | some queryVec =>
          rw [lookup_dictOf, filter_filterMap_of_key (q := fun v => decide (v.recordId = x)),
            hstored]
          · rfl
          · intro v b hb
            split at hb
            · cases hb
              rfl
            · cases hb
  rw [hread, hread, h x hx]

theorem combineVectors_congr {ids : List String} {s s' d d' : Scores}
    (hs : ∀ x ∈ ids, s.lookup x = s'.lookup x) (hd : ∀ x ∈ ids, d.lookup x = d'.lookup x) :
    combineVectors ids s d = combineVectors ids s' d' := by
  unfold combineVectors
  refine congrArg dictOf (List.filterMap_congr fun x hx => ?_)
  rw [hs x hx, hd x hx]

/-! ## The answers -/

section Answers

variable {eng : Engine} {cfg : SearchConfig} {env : RequestEnv} {scope : AuthorizedScope}
  {sessionId : Option String} {req : StartRequest} {w w' : World}

theorem Agree.indexRows_of_mem_pool (eng : Engine) (cfg : SearchConfig) (req : StartRequest)
    (h : Agree scope w w') {t t' : FtsTables} (ht : w.store.fts = some t)
    (ht' : w'.store.fts = some t') (field : TextField) :
    ∀ x ∈ poolIds eng cfg scope req w,
      ((ftsRows t field).filter fun row => decide (row.recordId = x))
        = (ftsRows t' field).filter fun row => decide (row.recordId = x) := by
  intro x hx
  obtain ⟨r, hr, hauth, rfl⟩ := authorized_of_mem_startPool hx
  exact h.indexRows t t' ht ht' r hr hauth field

theorem Agree.vectors_of_mem_pool (h : Agree scope w w') :
    ∀ x ∈ poolIds eng cfg scope req w,
      (w.vectors.filter fun v => decide (v.recordId = x))
        = w'.vectors.filter fun v => decide (v.recordId = x) := by
  intro x hx
  obtain ⟨r, hr, hauth, rfl⟩ := authorized_of_mem_startPool hx
  exact h.vectors r hr hauth

/-- A text channel ranks the pool alike: by bm25 where a row matches, and by
the keywords of the pool where none does. -/
theorem Agree.toRankMap_channelScores (h : Agree scope w w')
    (horder : SameTextOrder eng cfg scope req w w') {query : String}
    (hquery : req.queryText = some query) (hne : query ≠ "") {field : TextField}
    (hfield : usesField req.searchMode field = true) :
    toRankMap (channelScores eng w.store.fts (startPool eng cfg scope req w) query field)
      = toRankMap (channelScores eng w'.store.fts (startPool eng cfg scope req w) query field) := by
  by_cases hterms : searchTerms eng query = []
  · unfold channelScores
    rw [ftsRank_of_no_terms hterms, ftsRank_of_no_terms hterms]
  cases ht : w.store.fts with
  | none =>
      have ht' : w'.store.fts = none := by
        have htables := h.tables
        rw [ht] at htables
        exact Option.isSome_eq_false_iff.mp htables.symm |> Option.isNone_iff_eq_none.mp
      rw [ht']
  | some t =>
      obtain ⟨t', ht'⟩ : ∃ t', w'.store.fts = some t' := by
        have htables := h.tables
        rw [ht] at htables
        exact Option.isSome_iff_exists.mp htables.symm
      rw [ht']
      have hrows := h.indexRows_of_mem_pool eng cfg req ht ht' field
      have hranked := rankedIds_eq_of_sameRowOrder hrows
        (horder query hquery hne hterms t t' ht ht' field hfield)
      rw [← ftsRank_eq hterms, ← ftsRank_eq hterms] at hranked
      unfold channelScores
      dsimp only
      -- both tables match the same candidates, so both or neither are empty
      have hempty : ftsRank eng (some t) query (poolIds eng cfg scope req w) field = [] ↔
          ftsRank eng (some t') query (poolIds eng cfg scope req w) field = [] := by
        have hlength := congrArg List.length hranked
        rw [rankedIds, rankedIds, List.length_map, List.length_map, List.length_mergeSort,
          List.length_mergeSort] at hlength
        rw [← List.length_eq_zero_iff, ← List.length_eq_zero_iff, hlength]
      by_cases hnil : ftsRank eng (some t) query (poolIds eng cfg scope req w) field = []
      · rw [if_pos hnil, if_pos (hempty.mp hnil)]
      · rw [if_neg hnil, if_neg (mt hempty.mpr hnil), toRankMap_eq_rankedIds, hranked,
          ← toRankMap_eq_rankedIds]

/-- The signals of the query are the same. -/
theorem Agree.channelInputs_eq (h : Agree scope w w')
    (horder : SameTextOrder eng cfg scope req w w') {query : String}
    (hquery : req.queryText = some query) (hne : query ≠ "") {q : RankQuery}
    (hmode : q.searchMode = req.searchMode) :
    channelInputs eng cfg w.store.fts w.vectors (startPool eng cfg scope req w) query q
      = channelInputs eng cfg w'.store.fts w'.vectors (startPool eng cfg scope req w) query q := by
  have htext : ∀ (field : TextField) (b : Bool), b = usesField req.searchMode field →
      toRankMap (if b = true then
          channelScores eng w.store.fts (startPool eng cfg scope req w) query field else [])
        = toRankMap (if b = true then
          channelScores eng w'.store.fts (startPool eng cfg scope req w) query field else []) := by
    intro field b hb
    cases b with
    | true =>
        rw [if_pos rfl, if_pos rfl]
        exact h.toRankMap_channelScores horder hquery hne hb.symm
    | false => rfl
  have hvec : ∀ (b : Bool) (vectorType : TextField),
      ∀ x ∈ poolIds eng cfg scope req w,
        (if b = true then vectorChannel eng w.vectors
            (poolIds eng cfg scope req w) query vectorType
          else []).lookup x
        = (if b = true then vectorChannel eng w'.vectors
            (poolIds eng cfg scope req w) query vectorType
          else []).lookup x := by
    intro b vectorType x hx
    cases b with
    | true => exact lookup_vectorChannel h.vectors_of_mem_pool hx
    | false => rfl
  unfold channelInputs
  dsimp only
  rw [htext .static _ (congrArg usesStatic hmode), htext .dynamic _ (congrArg usesDynamic hmode),
    combineVectors_congr (hvec _ .static) (hvec _ .dynamic)]

theorem Agree.startAnswer_eq (h : Agree scope w w')
    (horder : SameTextOrder eng cfg scope req w w') :
    startAnswer eng cfg env req w (startPool eng cfg scope req w)
      = startAnswer eng cfg env req w' (startPool eng cfg scope req w') := by
  have hrank : startRanking eng cfg w req (startPool eng cfg scope req w)
      = startRanking eng cfg w' req (startPool eng cfg scope req w) := by
    unfold startRanking
    refine congrArg (sliceTo _) ?_
    unfold rank
    dsimp only
    split
    · rfl
    · cases hquery : req.queryText with
      | none => rfl
      | some query =>
          dsimp only
          split
          · rfl
          · rename_i hne
            unfold rankByQuery
            rw [h.channelInputs_eq horder hquery hne rfl]
  rw [← h.startPool_eq]
  unfold startAnswer
  rw [hrank]

/-- Where bm25 keeps the order of the pool, the databases look the same. -/
theorem Agree.indistinguishable (h : Agree scope w w') (hf : FreshIds env w)
    (hf' : FreshIds env w') (horder : SameTextOrder eng cfg scope req w w') :
    Indistinguishable eng cfg env scope sessionId req w w' := by
  unfold Indistinguishable
  by_cases hcap : Capability.observationSearch ∈ scope.capabilities
  · by_cases htop : cfg.maxTopK < req.topK
    · rw [startSearch_over hcap htop, startSearch_over hcap htop]
    · rw [not_lt] at htop
      rw [startSearch_fresh hcap htop hf, startSearch_fresh hcap htop hf',
        h.startAnswer_eq horder]
      exact ⟨rfl, rfl, rfl⟩
  · rw [startSearch_denied hcap, startSearch_denied hcap]

end Answers

/-! ## A request that shows one text channel -/

theorem map_fst_toRankMap (scores : Scores) :
    (toRankMap scores).map Prod.fst = rankedIds scores := by
  rw [toRankMap_eq_rankedIds, List.map_map]
  conv_rhs => rw [← List.zipIdx_map_fst 0 (rankedIds scores)]
  rfl

/-- The id in place `i` has rank `i + 1`. -/
theorem lookup_toRankMap {scores : Scores} (hd : (scores.map Prod.fst).Nodup) {i : ℕ}
    (hi : i < (rankedIds scores).length) :
    (toRankMap scores).lookup (rankedIds scores)[i] = some (i + 1) := by
  rw [lookup_eq_some_iff (by rw [map_fst_toRankMap]; exact nodup_rankedIds hd),
    toRankMap_eq_rankedIds, List.mem_map]
  exact ⟨((rankedIds scores)[i], i), by simp [List.mem_zipIdx_iff_getElem?], rfl⟩

theorem component_lt {weight : ℚ} {k : ℤ} (hw : 0 < weight) (hk : 0 ≤ k) {i j : ℕ} (h : i < j) :
    component weight k (some (j + 1)) < component weight k (some (i + 1)) := by
  have hkq : (0 : ℚ) ≤ k := by exact_mod_cast hk
  have hij : (i : ℚ) < j := by exact_mod_cast h
  have hi : (0 : ℚ) < (i : ℚ) + 1 + k := by positivity
  unfold component
  dsimp only
  rw [if_neg (Nat.succ_ne_zero j), if_neg (Nat.succ_ne_zero i), Nat.cast_succ, Nat.cast_succ]
  apply mul_lt_mul_of_pos_left _ hw
  exact one_div_lt_one_div_of_lt hi (by linarith)

/-- Fusing one channel keeps its order. -/
theorem map_fst_orderCandidates_of_single {scores : Scores} (hd : (scores.map Prod.fst).Nodup)
    {inputs : ChannelInputs} {weights : RrfWeights} {weight c : ℚ} (hw : 0 < weight)
    (hk : 0 ≤ weights.k)
    (hscore : ∀ rid, rrfScore inputs weights rid
      = component weight weights.k ((toRankMap scores).lookup rid) + c) :
    (orderCandidates (rrfFuse (rankedIds scores) inputs weights)).map Prod.fst
      = rankedIds scores := by
  have hkeys : ((rankedIds scores).map fun rid => (rid, rrfScore inputs weights rid)).map Prod.fst
      = rankedIds scores := by
    rw [List.map_map]
    exact List.map_id _
  have hfuse : rrfFuse (rankedIds scores) inputs weights
      = (rankedIds scores).map fun rid => (rid, rrfScore inputs weights rid) :=
    dictOf_eq_self (by rw [hkeys]; exact nodup_rankedIds hd)
  have hsorted : ((rankedIds scores).map fun rid => (rid, rrfScore inputs weights rid)).Pairwise
      fun a b => scoreLe a b = true := by
    rw [List.pairwise_map, List.pairwise_iff_getElem]
    intro i j hi hj hij
    rw [scoreLe_iff]
    left
    rw [hscore, hscore, lookup_toRankMap hd hi, lookup_toRankMap hd hj]
    exact add_lt_add_left (component_lt hw hk hij) c
  rw [hfuse, orderCandidates, List.mergeSort_of_pairwise hsorted, hkeys]

/-- The one text channel of a request that uses one. -/
def SingleField (mode : SearchMode) (field : TextField) : Prop :=
  (mode = .staticAttribute ∧ field = .static) ∨ (mode = .dynamicEvent ∧ field = .dynamic)

def fieldWeight (weights : RrfWeights) : TextField → ℚ
  | .static => weights.staticWeight
  | .dynamic => weights.dynamicWeight
  | .tags => 0

/-- The request ranks by one text channel and shows all of it: no vectors, no
boosts, every candidate has one row in the index, and `top_k` has room for
every matching row. -/
structure Revealing (eng : Engine) (cfg : SearchConfig) (scope : AuthorizedScope)
    (req : StartRequest) (field : TextField) (w : World) : Prop where
  capability : Capability.observationSearch ∈ scope.capabilities
  topK : req.topK ≤ cfg.maxTopK
  single : SingleField req.searchMode field
  noVectors : cfg.vectorEnabled = false
  noTags : req.tagFilters = []
  noScales : req.preferredAnalysisScales = []
  weight : 0 < fieldWeight cfg.weights field
  rrfK : 0 ≤ cfg.weights.k
  oneRow : ∀ query t, req.queryText = some query → w.store.fts = some t →
    ((matchingRows eng query (poolIds eng cfg scope req w) (ftsRows t field)).map
      FtsRow.recordId).Nodup
  room : ∀ query t, req.queryText = some query → w.store.fts = some t →
    ((matchingRows eng query (poolIds eng cfg scope req w) (ftsRows t field)).length : ℤ)
      ≤ req.topK

theorem toRankMap_nil : toRankMap [] = [] := by
  simp [toRankMap]

theorem combineVectors_nil (ids : List String) : combineVectors ids [] [] = [] := by
  simp [combineVectors, dictOf]

theorem tagBoosts_nil (eng : Engine) (records : List ObservationRecord) :
    tagBoosts eng records [] = [] := by
  simp [tagBoosts, dictOf]

theorem scaleBoosts_nil (records : List ObservationRecord) : scaleBoosts records [] = [] := by
  simp [scaleBoosts, dictOf]

theorem nodup_channelScores (eng : Engine) (fts : Option FtsTables)
    (records : List ObservationRecord) (query : String) (field : TextField) :
    ((channelScores eng fts records query field).map Prod.fst).Nodup := by
  unfold channelScores
  dsimp only
  split
  · exact nodup_keys_dictOf _
  · unfold ftsRank
    split
    · exact List.nodup_nil
    · dsimp only
      split
      · exact List.nodup_nil
      · exact nodup_keys_dictOf _

/-- A request of one text channel orders the records as that channel does. -/
theorem map_fst_rankByQuery_of_single {eng : Engine} {cfg : SearchConfig}
    {fts : Option FtsTables} {vectors : List StoredVector} {records : List ObservationRecord}
    {query : String} {q : RankQuery} {field : TextField} (hsingle : SingleField q.searchMode field)
    (hvec : cfg.vectorEnabled = false) (huse : q.useVector = none) (htags : q.tagFilters = [])
    (hscales : q.preferredScales = []) (hw : 0 < fieldWeight cfg.weights field)
    (hk : 0 ≤ cfg.weights.k) (hne : channelScores eng fts records query field ≠ []) :
    (rankByQuery eng cfg fts vectors records query q).map Prod.fst
      = rankedIds (channelScores eng fts records query field) := by
  have hd := nodup_channelScores eng fts records query field
  have hids : rankedIds (channelScores eng fts records query field) ≠ [] := by
    intro hnil
    have hlength := congrArg List.length hnil
    rw [rankedIds, List.length_map, List.length_mergeSort] at hlength
    exact hne (List.length_eq_zero_iff.mp hlength)
  have hmatched : (channelInputs eng cfg fts vectors records query q).matchedIds
      = rankedIds (channelScores eng fts records query field) := by
    rcases hsingle with ⟨hmode, rfl⟩ | ⟨hmode, rfl⟩
    · simp [ChannelInputs.matchedIds, channelInputs, hmode, usesStatic, usesDynamic, hvec, huse,
        toRankMap_nil, combineVectors_nil, map_fst_toRankMap, (nodup_rankedIds hd).dedup]
    · simp [ChannelInputs.matchedIds, channelInputs, hmode, usesStatic, usesDynamic, hvec, huse,
        toRankMap_nil, combineVectors_nil, map_fst_toRankMap, (nodup_rankedIds hd).dedup]
  have hscore : ∀ rid, rrfScore (channelInputs eng cfg fts vectors records query q) cfg.weights rid
      = component (fieldWeight cfg.weights field) cfg.weights.k
          ((toRankMap (channelScores eng fts records query field)).lookup rid)
        + (min cfg.weights.maxTagBoost 0 + min cfg.weights.maxAnalysisScaleBoost 0) := by
    intro rid
    rcases hsingle with ⟨hmode, rfl⟩ | ⟨hmode, rfl⟩
    · simp [rrfScore, channelInputs, hmode, usesStatic, usesDynamic, hvec, huse, htags, hscales,
        toRankMap_nil, combineVectors_nil, tagBoosts_nil, scaleBoosts_nil, component, fieldWeight,
        add_assoc]
    · simp [rrfScore, channelInputs, hmode, usesStatic, usesDynamic, hvec, huse, htags, hscales,
        toRankMap_nil, combineVectors_nil, tagBoosts_nil, scaleBoosts_nil, component, fieldWeight,
        add_assoc]
  unfold rankByQuery
  dsimp only
  rw [hmatched, if_neg hids]
  exact map_fst_orderCandidates_of_single hd hw hk hscore

/-- Every ranked record is in the results, at its place. -/
theorem map_toResults {β : Type} (g : SearchResultItem → β) (g' : (String × ℚ) × ℕ → β)
    {ordered : Scores} {pool : List ObservationRecord}
    (h : ∀ x ∈ ordered.map Prod.fst, x ∈ pool.map ObservationRecord.recordId)
    (hg : ∀ (p : (String × ℚ) × ℕ) (item : SearchResultItem), item.recordId = p.1.1 →
      item.rank = p.2 + 1 → item.score = p.1.2 → g item = g' p) :
    (toResults ordered pool).map g = ordered.zipIdx.map g' := by
  unfold toResults
  rw [List.map_filterMap, ← List.filterMap_eq_map]
  refine List.filterMap_congr fun p hp => ?_
  have hkey : p.1.1 ∈ ordered.map Prod.fst :=
    List.mem_map_of_mem (List.fst_mem_of_mem_zipIdx hp)
  obtain ⟨r, hr, hid⟩ := List.mem_map.mp (h _ hkey)
  cases hby : byId pool p.1.1 with
  | none =>
      have hnone := List.find?_eq_none.mp hby r hr
      simp [hid] at hnone
  | some r' => exact congrArg some (hg p _ rfl rfl rfl)

/-- Every ranked record is shown, in the order of the ranking. -/
theorem map_recordId_toResults {ordered : Scores} {pool : List ObservationRecord}
    (h : ∀ x ∈ ordered.map Prod.fst, x ∈ pool.map ObservationRecord.recordId) :
    (toResults ordered pool).map SearchResultItem.recordId = ordered.map Prod.fst := by
  rw [map_toResults _ (fun p => p.1.1) h fun _ _ hid _ _ => hid]
  exact (List.map_map ..).symm.trans (congrArg _ (List.zipIdx_map_fst 0 ordered))

theorem sliceTo_eq_self {α : Type} {n : ℤ} {l : List α} (h : (l.length : ℤ) ≤ n) :
    sliceTo n l = l := by
  unfold sliceTo
  rw [if_pos (by omega)]
  exact List.take_of_length_le (by omega)

section Revealing

variable {eng : Engine} {cfg : SearchConfig} {env : RequestEnv} {scope : AuthorizedScope}
  {sessionId : Option String} {req : StartRequest} {field : TextField} {w w' : World}

/-- The answer lists the matching candidates in bm25 order. -/
theorem Revealing.ids_startAnswer (hr : Revealing eng cfg scope req field w) {query : String}
    (hquery : req.queryText = some query) (hne : query ≠ "")
    (hterms : searchTerms eng query ≠ []) {t : FtsTables} (ht : w.store.fts = some t)
    (hmatch : matchingRows eng query (poolIds eng cfg scope req w) (ftsRows t field) ≠ []) :
    (startAnswer eng cfg env req w (startPool eng cfg scope req w)).results.map
        SearchResultItem.recordId
      = rankedIds (dictOf ((matchingRows eng query (poolIds eng cfg scope req w)
          (ftsRows t field)).map (textScore eng query (ftsRows t field)))) := by
  have hscores : ftsRank eng w.store.fts query (poolIds eng cfg scope req w) field
      = (matchingRows eng query (poolIds eng cfg scope req w)
          (ftsRows t field)).map (textScore eng query (ftsRows t field)) := by
    rw [ht, ftsRank_eq hterms]
    apply dictOf_eq_self
    rw [List.map_map]
    exact hr.oneRow query t hquery ht
  have hchannel : channelScores eng w.store.fts (startPool eng cfg scope req w) query field
      = (matchingRows eng query (poolIds eng cfg scope req w)
          (ftsRows t field)).map (textScore eng query (ftsRows t field)) := by
    unfold channelScores
    dsimp only
    rw [hscores, if_neg (by simpa using hmatch)]
  have hpool : startPool eng cfg scope req w ≠ [] := by
    intro hnil
    apply hmatch
    simp [matchingRows, poolIds, hnil]
  have hranked : (rank eng cfg w.store.fts w.vectors (startPool eng cfg scope req w)
        (startQuery req)).map Prod.fst
      = rankedIds (channelScores eng w.store.fts (startPool eng cfg scope req w) query field) := by
    unfold rank
    rw [if_neg hpool]
    dsimp only
    rw [hquery]
    dsimp only
    rw [if_neg hne]
    exact map_fst_rankByQuery_of_single hr.single hr.noVectors rfl hr.noTags hr.noScales hr.weight
      hr.rrfK (by rw [hchannel]; simpa using hmatch)
  have hslice : startRanking eng cfg w req (startPool eng cfg scope req w)
      = rank eng cfg w.store.fts w.vectors (startPool eng cfg scope req w) (startQuery req) := by
    unfold startRanking
    apply sliceTo_eq_self
    rw [min_eq_left hr.topK, ← List.length_map Prod.fst, hranked, hchannel, rankedIds,
      List.length_map, List.length_mergeSort, List.length_map]
    exact hr.room query t hquery ht
  show (toResults (startRanking eng cfg w req (startPool eng cfg scope req w))
    (startPool eng cfg scope req w)).map SearchResultItem.recordId = _
  rw [ht, ftsRank_eq hterms] at hscores
  rw [hslice, map_recordId_toResults fun x hx => mem_rank hx, hranked, hchannel, hscores]

theorem Agree.sameTextOrder_of_indistinguishable (h : Agree scope w w') (hf : FreshIds env w)
    (hf' : FreshIds env w') (hr : Revealing eng cfg scope req field w)
    (hr' : Revealing eng cfg scope req field w')
    (hsame : Indistinguishable eng cfg env scope sessionId req w w') :
    SameTextOrder eng cfg scope req w w' := by
  intro query hquery hne hterms t t' ht ht' other hother
  have hfield : other = field := by
    rcases hr.single with ⟨hmode, rfl⟩ | ⟨hmode, rfl⟩
    · cases other <;> simp_all [usesField, usesDynamic]
    · cases other <;> simp_all [usesField, usesStatic]
  subst hfield
  have hrows := h.indexRows_of_mem_pool eng cfg req ht ht' other
  have hone' := hr'.oneRow query t' hquery ht'
  rw [← h.poolIds_eq] at hone'
  by_cases hmatch : matchingRows eng query (poolIds eng cfg scope req w) (ftsRows t other) = []
  · intro row hrow
    rw [hmatch] at hrow
    cases hrow
  · have hmatch' :
        matchingRows eng query (poolIds eng cfg scope req w') (ftsRows t' other) ≠ [] := by
      obtain ⟨row, hrow⟩ := List.exists_mem_of_ne_nil _ hmatch
      rw [← h.poolIds_eq]
      exact List.ne_nil_of_mem ((mem_matchingRows_iff hrows).mp hrow)
    unfold Indistinguishable at hsame
    rw [startSearch_fresh hr.capability hr.topK hf, startSearch_fresh hr.capability hr.topK hf']
      at hsame
    have hids := hsame.ids
    rw [hr.ids_startAnswer hquery hne hterms ht hmatch,
      hr'.ids_startAnswer hquery hne hterms ht' hmatch', ← h.poolIds_eq] at hids
    exact sameRowOrder_of_rankedIds_eq hrows (hr.oneRow query t hquery ht) hone' hids

end Revealing

/-! ## Main result -/

/-- For databases that agree on what the principal may see, a start request is
answered alike whenever bm25 orders the matching rows of the pool alike against
both FTS tables; and where the request shows the order of a text channel, only
then. -/
theorem answers_agree (eng : Engine) (cfg : SearchConfig) (env : RequestEnv)
    (scope : AuthorizedScope) (sessionId : Option String) (req : StartRequest) (w w' : World)
    (h : Agree scope w w') (hf : FreshIds env w) (hf' : FreshIds env w') :
    (SameTextOrder eng cfg scope req w w' →
      Indistinguishable eng cfg env scope sessionId req w w') ∧
    (∀ field, Revealing eng cfg scope req field w → Revealing eng cfg scope req field w' →
      (Indistinguishable eng cfg env scope sessionId req w w' ↔
        SameTextOrder eng cfg scope req w w')) := by
  refine ⟨h.indistinguishable hf hf', ?_⟩
  intro field hr hr'
  exact ⟨h.sameTextOrder_of_indistinguishable hf hf' hr hr', h.indistinguishable hf hf'⟩

/-- Two records of a camera the guard may see, and `hidden` of one it may not. -/
def yard (hidden : String) : World :=
  World.holding [seen "rec_a" "cam_1" 0 "red", seen "rec_b" "cam_1" 1 "coat",
    seen "rec_c" "cam_2" 2 hidden] (by simp [seen])
    (by simp [seen, ObservationRecord.naturalKey])

theorem mem_yard {hidden : String} {r : ObservationRecord}
    (hauth : authorizedObservationFilter gateScope r = true) :
    r ∈ (yard hidden).store.active.rows ↔
      r = seen "rec_a" "cam_1" 0 "red" ∨ r = seen "rec_b" "cam_1" 1 "coat" := by
  show r ∈ [seen "rec_a" "cam_1" 0 "red", seen "rec_b" "cam_1" 1 "coat",
    seen "rec_c" "cam_2" 2 hidden] ↔ _
  simp only [List.mem_cons, List.not_mem_nil, or_false]
  constructor
  · rintro (rfl | rfl | rfl)
    · exact Or.inl rfl
    · exact Or.inr rfl
    · simp [authorizedObservationFilter, gateScope, seen] at hauth
  · rintro (rfl | rfl)
    · exact Or.inl rfl
    · exact Or.inr (Or.inl rfl)

/-- What the other camera saw is all that differs. -/
theorem agree_yard (hidden hidden' : String) : Agree gateScope (yard hidden) (yard hidden') := by
  refine ⟨fun r hauth => by rw [mem_yard hauth, mem_yard hauth], rfl, ?_, fun _ _ _ => rfl⟩
  intro t t' ht ht' r hr hauth field
  cases ht
  cases ht'
  rcases (mem_yard hauth).mp hr with rfl | rfl <;> cases field <;> rfl

/-- `red` and `coat` are as frequent in both tables. -/
theorem answers_agree_yard : Indistinguishable wordEngine defaultSearchConfig firstRequest gateScope
    none (staticSearch "red coat") (yard "red") (yard "red hat") := by
  refine (answers_agree wordEngine defaultSearchConfig firstRequest gateScope none
    (staticSearch "red coat") (yard "red") (yard "red hat") (agree_yard _ _)
    (freshIds_holding _ _ _ _) (freshIds_holding _ _ _ _)).1 ?_
  intro query hquery _ _ t t' ht ht' field hfield row _ other _
  cases hquery
  cases ht
  cases ht'
  cases field with
  | static =>
      have hcount : ∀ term ∈ searchTerms wordEngine "red coat",
          (FtsTables.ofRecords (yard "red").store.active.rows).staticRows.countP
              (fun other => !isSubstring term other.text)
            = (FtsTables.ofRecords (yard "red hat").store.active.rows).staticRows.countP
              (fun other => !isSubstring term other.text) := by
        decide +kernel
      have hscore : ∀ row, textScore wordEngine "red coat"
            (FtsTables.ofRecords (yard "red").store.active.rows).staticRows row
          = textScore wordEngine "red coat"
            (FtsTables.ofRecords (yard "red hat").store.active.rows).staticRows row := by
        intro row
        refine Prod.ext rfl (congrArg List.sum (List.map_congr_left fun term hterm => ?_))
        rw [hcount term (List.mem_of_mem_filter hterm)]
      exact congrArg₂ scoreLe (hscore row) (hscore other)
  | dynamic => cases hfield
  | tags => cases hfield

theorem startPool_yard (hidden : String) :
    startPool wordEngine defaultSearchConfig gateScope (staticSearch "red coat") (yard hidden)
      = [seen "rec_a" "cam_1" 0 "red", seen "rec_b" "cam_1" 1 "coat"] := by
  have hrows : ((yard "red").store.active.rows.filter fun r =>
        authorizedObservationFilter gateScope r &&
          structuralFilter wordEngine (staticSearch "red coat") r)
      = [seen "rec_a" "cam_1" 0 "red", seen "rec_b" "cam_1" 1 "coat"] := by
    decide +kernel
  rw [(agree_yard hidden "red").startPool_eq]
  unfold startPool authorizedCandidatePool
  rw [hrows, List.mergeSort_of_pairwise (by decide +kernel)]
  rfl

/-- A second `red` that the guard may not see makes the word common, and a
second `coat` the other one: the two results change places. -/
theorem answers_differ : ¬ ∀ hidden hidden', Agree gateScope (yard hidden) (yard hidden') →
    Indistinguishable wordEngine defaultSearchConfig firstRequest gateScope none
      (staticSearch "red coat") (yard hidden) (yard hidden') := by
  intro h
  have hsame := h "red" "coat" (agree_yard _ _)
  have hfresh : ∀ hidden, FreshIds firstRequest (yard hidden) :=
    fun hidden => freshIds_holding _ _ _ _
  unfold Indistinguishable at hsame
  rw [startSearch_fresh (by decide) (by decide) (hfresh _),
    startSearch_fresh (by decide) (by decide) (hfresh _)] at hsame
  have hids := hsame.ids
  simp only [startAnswer, respond, startRanking, startPool_yard, rank, rankByQuery, channelInputs,
    toRankMap, orderCandidates, mergeSort_scoreLe] at hids
  revert hids
  decide +kernel

end CctvMemory.Search
