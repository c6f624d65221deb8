import Mathlib.Data.List.Chain
import Mathlib.Order.Lattice

/-!
# Lists of intervals without a gap

A list of half-open intervals in which each starts no later than the one before
it ends covers everything between its first start and its last end.
-/

namespace Cover

variable {ι α : Type*} [LinearOrder α] (lo hi : ι → α)

/-- `x` lies in one of the intervals. -/
def Covered (l : List ι) (x : α) : Prop := ∃ i ∈ l, lo i ≤ x ∧ x < hi i

variable {lo hi} {l : List ι} {x : α}

theorem covered_cons {i : ι} :
    Covered lo hi (i :: l) x ↔ (lo i ≤ x ∧ x < hi i) ∨ Covered lo hi l x := by
  simp only [Covered, List.mem_cons, exists_eq_or_imp]

theorem covered_of_chain {i : ι} (hchain : (i :: l).IsChain fun j k => lo k ≤ hi j)
    (hfirst : lo i ≤ x) (hlast : x < hi ((i :: l).getLast (List.cons_ne_nil i l))) :
    Covered lo hi (i :: l) x := by
  induction l generalizing i with
  | nil => exact covered_cons.mpr (Or.inl ⟨hfirst, hlast⟩)
  | cons j l ih =>
      rw [List.isChain_cons_cons] at hchain
      rw [List.getLast_cons (List.cons_ne_nil j l)] at hlast
      rcases lt_or_ge x (hi i) with hx | hx
      · exact covered_cons.mpr (Or.inl ⟨hfirst, hx⟩)
      · have hj : lo j ≤ x := le_trans hchain.1 hx
        exact covered_cons.mpr (Or.inr (ih hchain.2 hj hlast))

/-- What an interval does not reach down to is covered without it. -/
theorem covered_of_concat {i : ι} (hcovered : Covered lo hi (l ++ [i]) x) (hx : x < lo i) :
    Covered lo hi l x := by
  obtain ⟨j, hj, hlo, hhi⟩ := hcovered
  rcases List.mem_append.mp hj with hj | hj
  · exact ⟨j, hj, hlo, hhi⟩
  · rw [List.mem_singleton.mp hj] at hlo
    exact absurd hlo (not_le.mpr hx)

end Cover
