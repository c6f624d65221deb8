import CctvMemory.Library.Table

/-!
# Tables with a second unique key

A table (`Keyed.Table`) whose rows are also distinct under an index, as with a
unique constraint beside the primary key. It is a table by its key and one by
its index (`byIndex`); an insert fails on either of them.
-/

namespace Keyed

/-- Rows with distinct keys and distinct indices. -/
structure Indexed (ρ : Type*) {κ ι : Type*} (key : ρ → κ) (index : ρ → ι) extends
    Table ρ key where
  unique : (rows.map index).Nodup

namespace Indexed

variable {ρ κ ι : Type*} {key : ρ → κ} {index : ρ → ι}

theorem ext_rows {t u : Indexed ρ key index} (h : t.rows = u.rows) : t = u := by
  cases t with
  | mk t _ =>
      cases u with
      | mk u _ =>
          cases Table.ext h
          rfl

def empty : Indexed ρ key index := ⟨Table.empty, List.nodup_nil⟩

def byIndex (t : Indexed ρ key index) : Table ρ index := ⟨t.rows, t.unique⟩

variable [DecidableEq ι]

/-- The row with index `i`, if there is one. -/
def find? (t : Indexed ρ key index) (i : ι) : Option ρ := t.byIndex.get? i

theorem find?_eq_some_iff {t : Indexed ρ key index} {i : ι} {r : ρ} :
    t.find? i = some r ↔ r ∈ t.rows ∧ index r = i := Table.get?_eq_some_iff

/-- The row with an index is the only one with it. -/
theorem filter_eq_of_find? {t : Indexed ρ key index} {i : ι} {r : ρ} (h : t.find? i = some r) :
    (t.rows.filter fun r' => decide (index r' = i)) = [r] := by
  obtain ⟨hmem, rfl⟩ := find?_eq_some_iff.mp h
  apply List.perm_singleton.mp
  apply (List.perm_ext_iff_of_nodup _ (List.nodup_singleton r)).mpr
  · intro r'
    rw [List.mem_filter, List.mem_singleton, decide_eq_true_eq]
    constructor
    · rintro ⟨hmem', heq⟩
      exact t.byIndex.eq_of_key_eq hmem' hmem heq
    · rintro rfl
      exact ⟨hmem, rfl⟩
  · exact (List.Nodup.of_map _ t.unique).filter _

variable [DecidableEq κ]

/-- Insert a row; `none` when its key or its index is taken. -/
def insert? (t : Indexed ρ key index) (r : ρ) : Option (Indexed ρ key index) :=
  if h : key r ∈ t.rows.map key ∨ index r ∈ t.rows.map index then none
  else some {
    rows := t.rows ++ [r]
    nodup := by
      rw [List.map_append, List.map_singleton]
      exact List.nodup_append_comm.mp (List.nodup_cons.mpr ⟨fun hr => h (Or.inl hr), t.nodup⟩)
    unique := by
      rw [List.map_append, List.map_singleton]
      exact List.nodup_append_comm.mp (List.nodup_cons.mpr ⟨fun hr => h (Or.inr hr), t.unique⟩) }

theorem insert?_eq_some_iff {t u : Indexed ρ key index} {r : ρ} :
    t.insert? r = some u ↔
      t.get? (key r) = none ∧ t.find? (index r) = none ∧ u.rows = t.rows ++ [r] := by
  unfold insert? find?
  rw [Table.get?_eq_none_iff, Table.get?_eq_none_iff]
  show _ ↔ (∀ r' ∈ t.rows, _) ∧ (∀ r' ∈ t.rows, _) ∧ _
  by_cases h : key r ∈ t.rows.map key ∨ index r ∈ t.rows.map index
  · rw [dif_pos h]
    constructor
    · intro hnone
      cases hnone
    · rintro ⟨hkey, hindex, -⟩
      rcases h with h | h
      · obtain ⟨r', hr', heq⟩ := List.mem_map.mp h
        exact absurd heq (hkey r' hr')
      · obtain ⟨r', hr', heq⟩ := List.mem_map.mp h
        exact absurd heq (hindex r' hr')
  · rw [dif_neg h, Option.some.injEq]
    constructor
    · rintro rfl
      refine ⟨?_, ?_, rfl⟩
      · exact fun r' hr' heq => h (Or.inl (List.mem_map.mpr ⟨r', hr', heq⟩))
      · exact fun r' hr' heq => h (Or.inr (List.mem_map.mpr ⟨r', hr', heq⟩))
    · rintro ⟨-, -, hrows⟩
      exact ext_rows hrows.symm

theorem find?_insert? {t u : Indexed ρ key index} {r : ρ} (h : t.insert? r = some u) (i : ι) :
    u.find? i = if index r = i then some r else t.find? i := by
  obtain ⟨-, hfree, hrows⟩ := insert?_eq_some_iff.mp h
  exact Table.get?_insert? (Table.insert?_eq_some_iff.mpr ⟨hfree, hrows⟩) i

theorem get?_insert? {t u : Indexed ρ key index} {r : ρ} (h : t.insert? r = some u) (k : κ) :
    u.get? k = if key r = k then some r else t.get? k := by
  obtain ⟨hfree, -, hrows⟩ := insert?_eq_some_iff.mp h
  exact Table.get?_insert? (Table.insert?_eq_some_iff.mpr ⟨hfree, hrows⟩) k

/-- A row whose key and index are free can be inserted. -/
theorem exists_insert? {t : Indexed ρ key index} {r : ρ} (hkey : t.get? (key r) = none)
    (hindex : t.find? (index r) = none) : ∃ u, t.insert? r = some u := by
  cases h : t.insert? r with
  | some u => exact ⟨u, rfl⟩
  | none =>
      exfalso
      unfold insert? at h
      split at h
      · rename_i htaken
        rcases htaken with hmem | hmem
        · obtain ⟨r', hr', heq⟩ := List.mem_map.mp hmem
          exact Table.get?_eq_none_iff.mp hkey r' hr' heq
        · obtain ⟨r', hr', heq⟩ := List.mem_map.mp hmem
          exact Table.get?_eq_none_iff.mp hindex r' hr' heq
      · cases h

end Indexed

end Keyed
