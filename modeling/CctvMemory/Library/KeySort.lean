import Mathlib.Data.List.Sort
import Mathlib.Data.Prod.Lex

/-!
# Sorting by a key

A comparison that is the one of the keys in a linear order (`SortKey`). Rows
sorted with it have ascending keys, and where no two rows share a key it does
not matter in which order they came.

* `pairwise_mergeSort`, `mergeSort_congr`: what a sort by a key gives.
-/

variable {α κ : Type*} [LinearOrder κ]

/-- `le` compares two rows as `key` does. -/
structure SortKey (le : α → α → Bool) (key : α → κ) : Prop where
  le_iff : ∀ a b, le a b = true ↔ key a ≤ key b

namespace SortKey

theorem of_decide (key : α → κ) : SortKey (fun a b => decide (key a ≤ key b)) key :=
  ⟨fun _ _ => decide_eq_true_iff⟩

variable {le : α → α → Bool} {key : α → κ} {a b c : α} {l l' : List α}

theorem total (h : SortKey le key) (a b : α) : le a b = true ∨ le b a = true := by
  rw [h.le_iff, h.le_iff]
  exact le_total (key a) (key b)

theorem or_eq_true (h : SortKey le key) (a b : α) : (le a b || le b a) = true := by
  rw [Bool.or_eq_true]
  exact h.total a b

theorem trans (h : SortKey le key) (hab : le a b = true) (hbc : le b c = true) :
    le a c = true := by
  rw [h.le_iff] at hab hbc ⊢
  exact hab.trans hbc

theorem key_eq (h : SortKey le key) (hab : le a b = true) (hba : le b a = true) :
    key a = key b :=
  le_antisymm ((h.le_iff a b).mp hab) ((h.le_iff b a).mp hba)

theorem pairwise_mergeSort (h : SortKey le key) (l : List α) :
    (l.mergeSort le).Pairwise fun a b => le a b = true :=
  @List.pairwise_mergeSort α le (fun _ _ _ => h.trans) h.or_eq_true l

theorem pairwise_key_mergeSort (h : SortKey le key) (l : List α) :
    (l.mergeSort le).Pairwise fun a b => key a ≤ key b :=
  (h.pairwise_mergeSort l).imp fun {a b} => (h.le_iff a b).mp

/-- The same rows in any order give the same list, if the key tells them apart. -/
theorem mergeSort_congr (h : SortKey le key) (hl : l.Perm l')
    (hinj : ∀ a ∈ l, ∀ b ∈ l, key a = key b → a = b) : l.mergeSort le = l'.mergeSort le := by
  have hperm := ((l.mergeSort_perm le).trans hl).trans (l'.mergeSort_perm le).symm
  refine hperm.eq_of_pairwise ?_ (h.pairwise_mergeSort l) (h.pairwise_mergeSort l')
  intro a b ha hb hab hba
  exact hinj a (List.mem_mergeSort.mp ha) b (hl.mem_iff.mpr (List.mem_mergeSort.mp hb))
    (h.key_eq hab hba)

end SortKey
