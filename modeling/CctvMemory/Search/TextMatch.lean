import CctvMemory.Search.Noninterference

/-!
# Text matches and the rest of the pool

A text channel scores the pool by FTS, and by keywords where FTS is not
available or the query has no terms for it. The channel cannot tell these from a
pool that FTS finds nothing in, and counts keywords there too: a record that
matches by keyword alone loses its match to any other record FTS finds.
-/

namespace CctvMemory.Search

open CctvMemory.Publication (ObservationRecord FtsRow FtsTables)

section

variable (eng : Engine) (fts : Option FtsTables) (query : String) (field : TextField)

/-- The record has a score of the channel when `pool` is ranked. -/
def TextMatches (pool : List ObservationRecord) (r : ObservationRecord) : Prop :=
  r.recordId ∈ (channelScores eng fts pool query field).map Prod.fst

instance (pool : List ObservationRecord) (r : ObservationRecord) :
    Decidable (TextMatches eng fts query field pool r) := by
  unfold TextMatches
  infer_instance

/-- `MATCH` finds an indexed row of the record. -/
def FtsHit (r : ObservationRecord) : Prop :=
  ∃ t, fts = some t ∧ searchTerms eng query ≠ [] ∧
    ∃ row ∈ ftsRows t field, row.recordId = r.recordId ∧
      eng.ftsMatch (searchTerms eng query) row.text = true

/-- A term of the query occurs in the text of the record. -/
def KeywordHit (r : ObservationRecord) : Prop :=
  ∃ term ∈ queryTerms eng query,
    isSubstring term (eng.lower (ObservationRecord.fieldText r field)) = true

end

/-! ## What matches -/

theorem mem_keys_dictOf_iff {ν : Type} {x : String} {pairs : List (String × ν)} :
    x ∈ (dictOf pairs).map Prod.fst ↔ x ∈ pairs.map Prod.fst := by
  refine ⟨mem_keys_dictOf, fun h => ?_⟩
  obtain ⟨p, hp, rfl⟩ := List.mem_map.mp h
  have hmem : p ∈ pairs.filter fun q => decide (q.1 = p.1) :=
    List.mem_filter.mpr ⟨hp, decide_eq_true rfl⟩
  have hfound : (dictOf pairs).lookup p.1
      = some ((pairs.filter fun q => decide (q.1 = p.1)).getLast (List.ne_nil_of_mem hmem)).2 := by
    rw [lookup_dictOf, List.getLast?_eq_some_getLast (List.ne_nil_of_mem hmem)]
    rfl
  exact List.mem_map.mpr ⟨_, (lookup_eq_some_iff (nodup_keys_dictOf pairs)).mp hfound, rfl⟩

section

variable {eng : Engine} {fts : Option FtsTables} {query : String} {field : TextField}
  {pool : List ObservationRecord} {r : ObservationRecord}

theorem mem_ftsRank_iff (hr : r ∈ pool) :
    r.recordId ∈ (ftsRank eng fts query (pool.map ObservationRecord.recordId) field).map Prod.fst
      ↔ FtsHit eng fts query field r := by
  cases fts with
  | none =>
      constructor
      · intro h
        cases h
      · rintro ⟨t, ht, -⟩
        cases ht
  | some t =>
      by_cases hterms : searchTerms eng query = []
      · rw [ftsRank_of_no_terms hterms]
        constructor
        · intro h
          cases h
        · rintro ⟨_, -, hsome, -⟩
          exact absurd hterms hsome
      · rw [ftsRank_eq hterms, mem_keys_textScores]
        have hid : r.recordId ∈ pool.map ObservationRecord.recordId := List.mem_map_of_mem hr
        constructor
        · rintro ⟨row, hrow, hrid⟩
          obtain ⟨hmem, hmatch⟩ := List.mem_filter.mp hrow
          rw [Bool.and_eq_true] at hmatch
          exact ⟨t, rfl, hterms, row, hmem, hrid, hmatch.1⟩
        · rintro ⟨t', ht, -, row, hrow, hrid, hmatch⟩
          obtain rfl := Option.some.inj ht
          refine ⟨row, List.mem_filter.mpr ⟨hrow, ?_⟩, hrid⟩
          rw [hmatch, hrid]
          exact decide_eq_true hid

theorem mem_keywordRelevance_iff {x : String} :
    x ∈ (keywordRelevance eng pool query field).map Prod.fst
      ↔ ∃ r ∈ pool, r.recordId = x ∧ KeywordHit eng query field r := by
  unfold keywordRelevance
  rw [mem_keys_dictOf_iff]
  constructor
  · intro h
    obtain ⟨p, hp, rfl⟩ := List.mem_map.mp h
    obtain ⟨r, hr, hsome⟩ := List.mem_filterMap.mp hp
    dsimp only at hsome
    split at hsome
    · cases hsome
    · rename_i hcount
      cases hsome
      exact ⟨r, hr, rfl, List.countP_pos_iff.mp (Nat.pos_of_ne_zero hcount)⟩
  · rintro ⟨r, hr, rfl, hkeyword⟩
    have hcount := (List.countP_pos_iff.mpr hkeyword).ne'
    exact List.mem_map.mpr ⟨_, List.mem_filterMap.mpr ⟨r, hr, if_neg hcount⟩, rfl⟩

theorem ftsRank_ne_nil_iff :
    ftsRank eng fts query (pool.map ObservationRecord.recordId) field ≠ []
      ↔ ∃ r ∈ pool, FtsHit eng fts query field r := by
  constructor
  · intro hne
    obtain ⟨p, hp⟩ := List.exists_mem_of_ne_nil _ hne
    have hkey := List.mem_map_of_mem (f := Prod.fst) hp
    obtain ⟨r, hr, hid⟩ := List.mem_map.mp (mem_ftsRank hkey)
    exact ⟨r, hr, (mem_ftsRank_iff hr).mp (hid ▸ hkey)⟩
  · rintro ⟨r, hr, hhit⟩ hnil
    have hkey := (mem_ftsRank_iff hr).mpr hhit
    rw [hnil] at hkey
    cases hkey

/-- Where FTS finds something in the pool, what it finds is all that matches. -/
theorem textMatches_iff_of_hit (h : ∃ s ∈ pool, FtsHit eng fts query field s) (hr : r ∈ pool) :
    TextMatches eng fts query field pool r ↔ FtsHit eng fts query field r := by
  unfold TextMatches channelScores
  dsimp only
  rw [if_neg (ftsRank_ne_nil_iff.mpr h)]
  exact mem_ftsRank_iff hr

/-- Where FTS finds nothing in the pool, keywords count. -/
theorem textMatches_iff_of_no_hit (h : ∀ s ∈ pool, ¬ FtsHit eng fts query field s) :
    TextMatches eng fts query field pool r
      ↔ ∃ s ∈ pool, s.recordId = r.recordId ∧ KeywordHit eng query field s := by
  have hnil : ftsRank eng fts query (pool.map ObservationRecord.recordId) field = [] := by
    by_contra hne
    obtain ⟨s, hs, hhit⟩ := ftsRank_ne_nil_iff.mp hne
    exact h s hs hhit
  unfold TextMatches channelScores
  dsimp only
  rw [if_pos hnil]
  exact mem_keywordRelevance_iff

end

/-- Of two pools, one in the other, the matches of the smaller one are matches in the
larger one just when FTS finds a record of the smaller one or none of the larger one,
or no keyword is found in the smaller one. -/
theorem matches_kept_iff {eng : Engine} {fts : Option FtsTables} {query : String}
    {field : TextField} {pool pool' : List ObservationRecord} (hsub : pool ⊆ pool') :
    (∀ r ∈ pool, TextMatches eng fts query field pool r → TextMatches eng fts query field pool' r)
      ↔ (∃ r ∈ pool, FtsHit eng fts query field r) ∨
        (∀ r ∈ pool', ¬ FtsHit eng fts query field r) ∨
        ∀ r ∈ pool, ¬ KeywordHit eng query field r := by
  constructor
  · intro hkept
    by_contra hnot
    rw [not_or, not_or] at hnot
    obtain ⟨hnone, hfound, hkeyword⟩ := hnot
    have hmiss : ∀ r ∈ pool, ¬ FtsHit eng fts query field r := fun r hr hhit =>
      hnone ⟨r, hr, hhit⟩
    obtain ⟨r, hr⟩ := not_forall.mp hkeyword
    obtain ⟨hmem, hhit⟩ := Classical.not_imp.mp hr
    have hmatch : TextMatches eng fts query field pool r :=
      (textMatches_iff_of_no_hit hmiss).mpr ⟨r, hmem, rfl, not_not.mp hhit⟩
    -- FTS finds another record of the larger pool, and keywords are not counted
    obtain ⟨s, hs⟩ := not_forall.mp hfound
    obtain ⟨hsmem, hshit⟩ := Classical.not_imp.mp hs
    have hlost := (textMatches_iff_of_hit ⟨s, hsmem, not_not.mp hshit⟩ (hsub hmem)).mp
      (hkept r hmem hmatch)
    exact hmiss r hmem hlost
  · rintro (hfound | hnone | hkeyword) r hr hmatch
    · have hfound' : ∃ s ∈ pool', FtsHit eng fts query field s := by
        obtain ⟨s, hs, hhit⟩ := hfound
        exact ⟨s, hsub hs, hhit⟩
      exact (textMatches_iff_of_hit hfound' (hsub hr)).mpr
        ((textMatches_iff_of_hit hfound hr).mp hmatch)
    · obtain ⟨s, hs, hid, hhit⟩ :=
        (textMatches_iff_of_no_hit fun s hs => hnone s (hsub hs)).mp hmatch
      exact (textMatches_iff_of_no_hit hnone).mpr ⟨s, hsub hs, hid, hhit⟩
    · by_cases hfound : ∃ s ∈ pool, FtsHit eng fts query field s
      · have hfound' : ∃ s ∈ pool', FtsHit eng fts query field s := by
          obtain ⟨s, hs, hhit⟩ := hfound
          exact ⟨s, hsub hs, hhit⟩
        exact (textMatches_iff_of_hit hfound' (hsub hr)).mpr
          ((textMatches_iff_of_hit hfound hr).mp hmatch)
      · obtain ⟨s, hs, -, hhit⟩ :=
          (textMatches_iff_of_no_hit fun s hs hhit => hfound ⟨s, hs, hhit⟩).mp hmatch
        exact absurd hhit (hkeyword s hs)

/-! ## A record that loses its match -/

/-- Whole words match. -/
def wholeWordEngine : Engine :=
  { wordEngine with
    ftsMatch := fun terms text =>
      ((text.toList.splitOnP fun c => decide (c = ' ')).map String.ofList).any fun word =>
        decide (word ∈ terms) }

def redcoat : ObservationRecord := seen "rec_a" "cam_1" 0 "redcoat"

def redHat : ObservationRecord := seen "rec_b" "cam_1" 1 "red hat"

def redTables : FtsTables := FtsTables.ofRecords [redcoat, redHat]

/-- What FTS finds stays found in a larger pool. -/
theorem matches_kept_redHat :
    TextMatches wholeWordEngine (some redTables) "red" .static [redHat] redHat ∧
      TextMatches wholeWordEngine (some redTables) "red" .static [redcoat, redHat] redHat := by
  have hmatch : TextMatches wholeWordEngine (some redTables) "red" .static [redHat] redHat := by
    decide +kernel
  have hhit : FtsHit wholeWordEngine (some redTables) "red" .static redHat :=
    ⟨redTables, rfl, by decide +kernel, ⟨"rec_b", "red hat"⟩, by decide +kernel, rfl,
      by decide +kernel⟩
  exact ⟨hmatch, (matches_kept_iff (by decide +kernel)).mpr
    (Or.inl ⟨redHat, List.mem_singleton.mpr rfl, hhit⟩) redHat (List.mem_singleton.mpr rfl) hmatch⟩

/-- The red hat takes the match of the redcoat away. -/
theorem redHat_hides_redcoat :
    ¬ ∀ r ∈ [redcoat], TextMatches wholeWordEngine (some redTables) "red" .static [redcoat] r →
      TextMatches wholeWordEngine (some redTables) "red" .static [redcoat, redHat] r := by
  decide +kernel

end CctvMemory.Search
