import Mathlib.Data.List.Nodup
import Mathlib.Data.List.Perm.Basic

/-!
# Keyed tables

A table is a list of rows whose primary keys are distinct; the distinctness
is a field, so a table with two rows of one key cannot be built. Insertion
fails on a taken key (`insert?`, a unique violation), an update touches the
row it names and keeps its key (`modify`), and deletion removes that row
(`erase`). Every operation keeps the order of the rows it does not touch.
-/

namespace Keyed

/-- Rows with distinct keys. -/
structure Table (ρ : Type*) {κ : Type*} (key : ρ → κ) where
  rows : List ρ
  nodup : (rows.map key).Nodup

namespace Table

variable {ρ κ : Type*} {key : ρ → κ}

@[ext] theorem ext {t u : Table ρ key} (h : t.rows = u.rows) : t = u := by
  cases t; cases u; cases h; rfl

/-- The table without rows. -/
def empty : Table ρ key := ⟨[], by simp⟩

@[simp] theorem rows_empty : (empty : Table ρ key).rows = [] := rfl

instance [DecidableEq ρ] : DecidableEq (Table ρ key) := fun t u =>
  decidable_of_iff (t.rows = u.rows) ⟨ext, fun h => h ▸ rfl⟩

/-- Two rows of one table with one key are the same row. -/
theorem eq_of_key_eq {t : Table ρ key} {r r' : ρ} (h : r ∈ t.rows)
    (h' : r' ∈ t.rows) (hk : key r = key r') : r = r' :=
  List.inj_on_of_nodup_map t.nodup h h' hk

variable [DecidableEq κ]

/-- The row with key `k`, if there is one. -/
def get? (t : Table ρ key) (k : κ) : Option ρ :=
  t.rows.find? fun r => decide (key r = k)

/-- Insert a row; `none` when its key is taken. -/
def insert? (t : Table ρ key) (r : ρ) : Option (Table ρ key) :=
  if h : key r ∈ t.rows.map key then none
  else some ⟨t.rows ++ [r], by
    rw [List.map_append, List.map_singleton]
    refine List.nodup_append.mpr ⟨t.nodup, List.nodup_singleton _, ?_⟩
    rintro a ha b hb rfl
    rw [List.mem_singleton] at hb
    exact h (hb ▸ ha)⟩

/-- Apply `f` to the row with key `k`; `f` keeps the key. -/
def modify (t : Table ρ key) (k : κ) (f : ρ → ρ) (hf : ∀ r, key (f r) = key r) :
    Table ρ key where
  rows := t.rows.map fun r => if key r = k then f r else r
  nodup := by
    have hkeys : (t.rows.map fun r => if key r = k then f r else r).map key
        = t.rows.map key := by
      rw [List.map_map]
      refine List.map_congr_left fun r _ => ?_
      by_cases h : key r = k <;> simp [h, hf]
    rw [hkeys]
    exact t.nodup

/-- Replace every row. -/
def mapRows (t : Table ρ key) (f : ρ → ρ) (hf : ∀ r, key (f r) = key r) : Table ρ key where
  rows := t.rows.map f
  nodup := by
    rw [List.map_map]
    have hkeys : key ∘ f = key := funext hf
    rw [hkeys]
    exact t.nodup

/-- Delete the row with key `k`. -/
def erase (t : Table ρ key) (k : κ) : Table ρ key where
  rows := t.rows.filter fun r => decide (key r ≠ k)
  nodup := t.nodup.sublist ((List.filter_sublist (l := t.rows)).map key)

/-- Write a row, in place of the one with its key. -/
def put (t : Table ρ key) (r : ρ) : Table ρ key where
  rows := (t.erase (key r)).rows ++ [r]
  nodup := by
    rw [List.map_append, List.map_singleton]
    refine List.nodup_append.mpr ⟨(t.erase (key r)).nodup, List.nodup_singleton _, ?_⟩
    rintro a ha b hb rfl
    obtain ⟨r', hr', hk⟩ := List.mem_map.mp ha
    rw [List.mem_singleton] at hb
    simpa [hk, hb] using (List.mem_filter.mp hr').2

/-! ## Lookup -/

theorem get?_eq_some_iff {t : Table ρ key} {k : κ} {r : ρ} :
    t.get? k = some r ↔ r ∈ t.rows ∧ key r = k := by
  constructor
  · intro h
    exact ⟨List.mem_of_find?_eq_some h, by simpa using List.find?_some h⟩
  · rintro ⟨hr, rfl⟩
    cases hf : t.get? (key r) with
    | none =>
        have := List.find?_eq_none.mp hf r hr
        simp at this
    | some r' =>
        have hk : key r' = key r := by simpa using List.find?_some hf
        rw [eq_of_key_eq (List.mem_of_find?_eq_some hf) hr hk]

theorem get?_eq_none_iff {t : Table ρ key} {k : κ} :
    t.get? k = none ↔ ∀ r ∈ t.rows, key r ≠ k := by
  simp [get?, List.find?_eq_none]

theorem mem_of_get? {t : Table ρ key} {k : κ} {r : ρ} (h : t.get? k = some r) :
    r ∈ t.rows :=
  (get?_eq_some_iff.mp h).1

theorem key_of_get? {t : Table ρ key} {k : κ} {r : ρ} (h : t.get? k = some r) :
    key r = k :=
  (get?_eq_some_iff.mp h).2

theorem get?_of_mem {t : Table ρ key} {r : ρ} (h : r ∈ t.rows) :
    t.get? (key r) = some r :=
  get?_eq_some_iff.mpr ⟨h, rfl⟩

@[simp] theorem get?_empty (k : κ) : (empty : Table ρ key).get? k = none := rfl

theorem filter_key (t : Table ρ key) (k : κ) :
    t.rows.filter (fun r => decide (key r = k)) = (t.get? k).toList := by
  cases hg : t.get? k with
  | none =>
      refine List.filter_eq_nil_iff.mpr fun r hr => ?_
      simpa using get?_eq_none_iff.mp hg r hr
  | some r =>
      obtain ⟨hr, rfl⟩ := get?_eq_some_iff.mp hg
      obtain ⟨front, back, hsplit⟩ := List.append_of_mem hr
      have hnd := t.nodup
      rw [hsplit, List.map_append, List.map_cons, List.nodup_append] at hnd
      have hfront : front.filter (fun x => decide (key x = key r)) = [] := by
        refine List.filter_eq_nil_iff.mpr fun x hx => ?_
        simpa using hnd.2.2 (key x) (List.mem_map_of_mem hx) (key r) List.mem_cons_self
      have hback : back.filter (fun x => decide (key x = key r)) = [] := by
        refine List.filter_eq_nil_iff.mpr fun x hx => ?_
        have hne := (List.nodup_cons.mp hnd.2.1).1
        simpa using fun he : key x = key r => hne (he ▸ List.mem_map_of_mem hx)
      rw [hsplit, List.filter_append, List.filter_cons, hfront, hback]
      simp

/-- The rows under a set of keys, when `ks` lists every key of it that is taken. -/
theorem filter_perm_filterMap {t : Table ρ key} {p : κ → Bool} {ks : List κ} (hnd : ks.Nodup)
    (hp : ∀ k ∈ ks, p k = true) (hmem : ∀ r ∈ t.rows, p (key r) = true → key r ∈ ks) :
    (t.rows.filter fun r => p (key r)).Perm (ks.filterMap t.get?) := by
  have hrows : t.rows.Nodup := List.Nodup.of_map key t.nodup
  have hlookup : (ks.filterMap t.get?).Nodup := by
    refine hnd.filterMap fun k k' r hk hk' => ?_
    rw [← key_of_get? hk, ← key_of_get? hk']
  refine (List.perm_ext_iff_of_nodup (hrows.filter _) hlookup).mpr fun r => ?_
  rw [List.mem_filter, List.mem_filterMap]
  constructor
  · rintro ⟨hr, hkey⟩
    exact ⟨key r, hmem r hr hkey, get?_of_mem hr⟩
  · rintro ⟨k, hk, hget⟩
    rw [← key_of_get? hget] at hk
    exact ⟨mem_of_get? hget, hp _ hk⟩

/-! ## Insertion -/

theorem insert?_eq_some_iff {t u : Table ρ key} {r : ρ} :
    t.insert? r = some u ↔ t.get? (key r) = none ∧ u.rows = t.rows ++ [r] := by
  unfold insert?
  rw [get?_eq_none_iff]
  by_cases h : key r ∈ t.rows.map key
  · obtain ⟨r', hr', hk⟩ := List.mem_map.mp h
    simp only [dif_pos h, reduceCtorEq, false_iff, not_and]
    exact fun hnone => absurd hk (hnone r' hr')
  · rw [dif_neg h, Option.some.injEq]
    constructor
    · rintro rfl
      exact ⟨fun r' hr' hk => h (List.mem_map.mpr ⟨r', hr', hk⟩), rfl⟩
    · rintro ⟨-, hu⟩
      exact ext hu.symm

theorem get?_insert? {t u : Table ρ key} {r : ρ} (h : t.insert? r = some u) (k : κ) :
    u.get? k = if key r = k then some r else t.get? k := by
  obtain ⟨hnone, hrows⟩ := insert?_eq_some_iff.mp h
  unfold get? at hnone ⊢
  rw [hrows, List.find?_append]
  by_cases hk : key r = k
  · subst hk
    simp [hnone]
  · simp [hk]

/-! ## Update -/

@[simp] theorem rows_modify (t : Table ρ key) (k : κ) (f : ρ → ρ)
    (hf : ∀ r, key (f r) = key r) :
    (t.modify k f hf).rows = t.rows.map fun r => if key r = k then f r else r := rfl

theorem get?_modify (t : Table ρ key) (k : κ) (f : ρ → ρ)
    (hf : ∀ r, key (f r) = key r) (k' : κ) :
    (t.modify k f hf).get? k' = if k = k' then (t.get? k').map f else t.get? k' := by
  cases hg : t.get? k' with
  | none =>
      have hnone : (t.modify k f hf).get? k' = none := by
        rw [get?_eq_none_iff] at hg ⊢
        intro r' hr'
        obtain ⟨r, hr, rfl⟩ := List.mem_map.mp hr'
        by_cases h : key r = k <;> simpa [h, hf] using hg r hr
      simp [hnone]
  | some r =>
      obtain ⟨hr, rfl⟩ := get?_eq_some_iff.mp hg
      by_cases hk : k = key r
      · subst hk
        rw [if_pos rfl, Option.map_some]
        exact get?_eq_some_iff.mpr ⟨List.mem_map.mpr ⟨r, hr, by simp⟩, hf r⟩
      · rw [if_neg hk]
        exact get?_eq_some_iff.mpr
          ⟨List.mem_map.mpr ⟨r, hr, by simp [Ne.symm hk]⟩, rfl⟩

@[simp] theorem get?_modify_self (t : Table ρ key) (k : κ) (f : ρ → ρ)
    (hf : ∀ r, key (f r) = key r) :
    (t.modify k f hf).get? k = (t.get? k).map f := by
  rw [get?_modify, if_pos rfl]

theorem get?_modify_of_ne (t : Table ρ key) {k k' : κ} (f : ρ → ρ)
    (hf : ∀ r, key (f r) = key r) (h : k ≠ k') :
    (t.modify k f hf).get? k' = t.get? k' := by
  rw [get?_modify, if_neg h]

theorem get?_mapRows (t : Table ρ key) (f : ρ → ρ) (hf : ∀ r, key (f r) = key r) (k : κ) :
    (t.mapRows f hf).get? k = (t.get? k).map f := by
  show (t.rows.map f).find? (fun r => decide (key r = k)) = _
  rw [List.find?_map]
  refine congrArg _ (congrArg (fun p => List.find? p t.rows) (funext fun r => ?_))
  exact congrArg (fun k' => decide (k' = k)) (hf r)

/-! ## Deletion -/

theorem get?_erase (t : Table ρ key) (k k' : κ) :
    (t.erase k).get? k' = if k = k' then none else t.get? k' := by
  by_cases hk : k = k'
  · subst hk
    rw [if_pos rfl, get?_eq_none_iff]
    intro r hr
    simpa using (List.mem_filter.mp hr).2
  · rw [if_neg hk]
    cases hg : t.get? k' with
    | none =>
        rw [get?_eq_none_iff] at hg ⊢
        exact fun r hr => hg r (List.mem_filter.mp hr).1
    | some r =>
        obtain ⟨hr, rfl⟩ := get?_eq_some_iff.mp hg
        exact get?_eq_some_iff.mpr
          ⟨List.mem_filter.mpr ⟨hr, by simpa using Ne.symm hk⟩, rfl⟩

theorem get?_put (t : Table ρ key) (r : ρ) (k : κ) :
    (t.put r).get? k = if key r = k then some r else t.get? k := by
  show (((t.erase (key r)).rows ++ [r]).find? fun r' => decide (key r' = k)) = _
  rw [List.find?_append]
  show ((t.erase (key r)).get? k).or _ = _
  rw [get?_erase]
  by_cases hk : key r = k
  · rw [if_pos hk, if_pos hk]
    simp [hk]
  · rw [if_neg hk, if_neg hk]
    simp [hk]

/-- Writes under other keys leave a row alone. -/
theorem get?_puts_of_not_mem {rs : List ρ} {k : κ} (t : Table ρ key) (h : k ∉ rs.map key) :
    (rs.foldl put t).get? k = t.get? k := by
  induction rs generalizing t with
  | nil => rfl
  | cons r rs ih =>
      rw [List.map_cons, List.mem_cons, not_or] at h
      rw [List.foldl_cons, ih _ h.2, get?_put, if_neg (Ne.symm h.1)]

/-- Of several writes that agree under a key, the table has the one they agree on. -/
theorem get?_puts_of_mem {rs : List ρ} {r : ρ} (t : Table ρ key) (hr : r ∈ rs)
    (hagree : ∀ r' ∈ rs, key r' = key r → r' = r) :
    (rs.foldl put t).get? (key r) = some r := by
  induction rs generalizing t with
  | nil => cases hr
  | cons r' rs ih =>
      rw [List.foldl_cons]
      by_cases hlater : r ∈ rs
      · exact ih _ hlater fun r'' hr'' => hagree r'' (List.mem_cons_of_mem _ hr'')
      · obtain rfl : r = r' := (List.mem_cons.mp hr).resolve_right hlater
        rw [get?_puts_of_not_mem, get?_put, if_pos rfl]
        intro hmem
        obtain ⟨r'', hr'', hkey⟩ := List.mem_map.mp hmem
        exact hlater (hagree r'' (List.mem_cons_of_mem _ hr'') hkey ▸ hr'')

end Table

end Keyed
