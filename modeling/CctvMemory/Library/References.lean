import CctvMemory.Library.Table

/-!
# Rows that point at rows of another table

`Refers ref children parents`: every row of `children` names, by `ref`, the key
of a row of `parents`. A child may be written when its parent is there; parents
may go when no child names them.
-/

namespace Keyed

variable {ρ π κ ι : Type*} {key : ρ → κ} {pkey : π → ι}

def Refers (ref : ρ → ι) (children : Table ρ key) (parents : Table π pkey) : Prop :=
  ∀ c ∈ children.rows, ∃ p ∈ parents.rows, pkey p = ref c

namespace Refers

variable {ref : ρ → ι} {children : Table ρ key} {parents parents' : Table π pkey}

theorem empty (ref : ρ → ι) (parents : Table π pkey) :
    Refers ref (Table.empty : Table ρ key) parents := by
  intro c hc
  cases hc

theorem put [DecidableEq κ] {r : ρ} (h : Refers ref children parents)
    (hr : ∃ p ∈ parents.rows, pkey p = ref r) : Refers ref (children.put r) parents := by
  intro c hc
  rcases List.mem_append.mp hc with hold | hnew
  · exact h c (List.mem_of_mem_filter hold)
  · rw [List.mem_singleton.mp hnew]
    exact hr

theorem puts [DecidableEq κ] {rs : List ρ} (h : Refers ref children parents)
    (hrs : ∀ r ∈ rs, ∃ p ∈ parents.rows, pkey p = ref r) :
    Refers ref (rs.foldl Table.put children) parents := by
  induction rs generalizing children with
  | nil => exact h
  | cons r rs ih =>
      apply ih (h.put (hrs r List.mem_cons_self))
      exact fun r' hr' => hrs r' (List.mem_cons_of_mem _ hr')

/-- The parents that children name are still there. -/
theorem mono (h : Refers ref children parents)
    (hkept : ∀ p ∈ parents.rows, (∃ c ∈ children.rows, ref c = pkey p) → p ∈ parents'.rows) :
    Refers ref children parents' := by
  intro c hc
  obtain ⟨p, hp, href⟩ := h c hc
  exact ⟨p, hkept p hp ⟨c, hc, href.symm⟩, href⟩

end Refers

end Keyed
