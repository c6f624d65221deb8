import Mathlib.Data.List.MinMax
import Mathlib.Data.List.Sort
import Mathlib.Data.List.Nodup
import Mathlib.Data.List.Perm.Basic

/-!
# Picking some of a list

A pick of `k` elements of a list takes each at most once and as many as there
are. Two ways to pick by a key are the first `k` of the ranked list, and the best
of each class with the rest filled up from the others.
-/

namespace Picking

variable {α κ ι : Type*}

/-- `picked` is `k` elements of the list, or all when there are fewer. -/
structure Picks (k : ℕ) (l picked : List α) : Prop where
  nodup : picked.Nodup
  subset : picked ⊆ l
  length : picked.length = min k l.length

theorem Picks.take {k : ℕ} {l picked : List α} (h : Picks k l picked) :
    picked.take k = picked :=
  List.take_of_length_le (h.length ▸ Nat.min_le_left _ _)

theorem Picks.perm {k : ℕ} {l picked picked' : List α} (h : Picks k l picked)
    (hperm : picked'.Perm picked) : Picks k l picked' where
  nodup := hperm.nodup_iff.mpr h.nodup
  subset := fun _ ha => h.subset (hperm.mem_iff.mp ha)
  length := hperm.length_eq.trans h.length

/-- A pick of a rearranged list. -/
theorem Picks.of_perm {k : ℕ} {l l' picked : List α} (h : Picks k l picked)
    (hperm : l.Perm l') : Picks k l' picked where
  nodup := h.nodup
  subset := fun _ ha => hperm.mem_iff.mp (h.subset ha)
  length := hperm.length_eq ▸ h.length

theorem picks_take {l ordered : List α} (k : ℕ) (hl : l.Nodup) (hperm : ordered.Perm l) :
    Picks k l (ordered.take k) where
  nodup := (hperm.nodup_iff.mpr hl).sublist (List.take_sublist k ordered)
  subset := fun _ ha => hperm.mem_iff.mp (List.mem_of_mem_take ha)
  length := by rw [List.length_take, hperm.length_eq]

/-- At positions that differ. -/
theorem picks_filterMap_getElem? {l : List α} {k : ℕ} {position : ℕ → ℕ} (hl : l.Nodup)
    (hk : k ≤ l.length) (hlt : ∀ i < k, position i < l.length)
    (hinj : ∀ i < k, ∀ j < k, position i = position j → i = j) :
    Picks k l ((List.range k).filterMap fun i => l[position i]?) where
  nodup := by
    refine List.pairwise_filterMap.mpr (List.nodup_range.imp_of_mem ?_)
    intro i j hi hj hne a ha b hb hab
    subst hab
    have hlt_i := hlt i (List.mem_range.mp hi)
    have hpos : position i = position j :=
      (List.getElem?_inj hlt_i hl).mp (ha.trans hb.symm)
    exact hne (hinj i (List.mem_range.mp hi) j (List.mem_range.mp hj) hpos)
  subset := by
    intro a ha
    obtain ⟨i, -, hi⟩ := List.mem_filterMap.mp ha
    exact List.mem_of_getElem? hi
  length := by
    have hall : ∀ i ∈ List.range k, (l[position i]?).isSome = true := by
      intro i hi
      simp [hlt i (List.mem_range.mp hi)]
    rw [Nat.min_eq_left hk, List.length_filterMap_eq_countP, List.countP_eq_length.mpr hall,
      List.length_range]

section Ranked

variable [LinearOrder κ] (key : α → κ)

/-- By decreasing key; elements with one key stay in order. -/
def ranked (l : List α) : List α := l.insertionSort fun s t => key t ≤ key s

theorem perm_ranked (l : List α) : (ranked key l).Perm l := List.perm_insertionSort _ l

/-- The best of each of the classes `0`, …, `n - 1`; the first one of several. -/
def bests (classOf : α → ℕ) (n : ℕ) (l : List α) : List α :=
  (List.range n).filterMap fun j => (l.filter fun a => classOf a = j).argmax key

variable {key} {classOf : α → ℕ} {n : ℕ} {l : List α}

theorem mem_bests {b : α} :
    b ∈ bests key classOf n l ↔
      classOf b < n ∧ b ∈ (l.filter fun a => classOf a = classOf b).argmax key := by
  unfold bests
  rw [List.mem_filterMap]
  constructor
  · rintro ⟨j, hj, hb⟩
    have hclass : classOf b = j := by
      simpa using (List.mem_filter.mp (List.argmax_mem hb)).2
    subst hclass
    exact ⟨List.mem_range.mp hj, hb⟩
  · rintro ⟨hlt, hb⟩
    exact ⟨classOf b, List.mem_range.mpr hlt, hb⟩

theorem bests_subset : bests key classOf n l ⊆ l := fun _ hb =>
  (List.mem_filter.mp (List.argmax_mem (mem_bests.mp hb).2)).1

theorem length_bests_le : (bests key classOf n l).length ≤ n :=
  (List.length_filterMap_le _ _).trans (List.length_range).le

theorem nodup_bests : (bests key classOf n l).Nodup := by
  refine List.Nodup.filterMap ?_ List.nodup_range
  intro i j b hi hj
  have hbi := (List.mem_filter.mp (List.argmax_mem hi)).2
  have hbj := (List.mem_filter.mp (List.argmax_mem hj)).2
  exact (of_decide_eq_true hbi).symm.trans (of_decide_eq_true hbj)

/-- Every class with an element has its best among them. -/
theorem exists_best {a : α} (ha : a ∈ l) (hlt : classOf a < n) :
    ∃ b ∈ bests key classOf n l, classOf b = classOf a ∧
      ∀ t ∈ l, classOf t = classOf a → key t ≤ key b := by
  have hmem : ∀ t ∈ l, classOf t = classOf a → t ∈ l.filter fun c => classOf c = classOf a :=
    fun t ht hclass => List.mem_filter.mpr ⟨ht, decide_eq_true hclass⟩
  cases hbest : (l.filter fun c => classOf c = classOf a).argmax key with
  | none =>
      have hnil := List.argmax_eq_none.mp hbest
      have := hmem a ha rfl
      rw [hnil] at this
      cases this
  | some b =>
      have hclass : classOf b = classOf a :=
        of_decide_eq_true (List.mem_filter.mp (List.argmax_mem hbest)).2
      refine ⟨b, mem_bests.mpr ⟨hclass ▸ hlt, ?_⟩, hclass, fun t ht htclass => ?_⟩
      · rw [hclass]
        exact hbest
      · exact List.le_of_mem_argmax (hmem t ht htclass) hbest

end Ranked

section Fill

variable [DecidableEq ι] (name : α → ι)

/-- The elements whose names are not among those of `picked`. -/
def others (picked l : List α) : List α := l.filter fun a => name a ∉ picked.map name

variable {name} {picked l : List α}

theorem perm_append_others (hl : (l.map name).Nodup) (hpicked : picked.Nodup)
    (hsub : picked ⊆ l) : (picked ++ others name picked l).Perm l := by
  have hname : ∀ a ∈ l, a ∉ picked → name a ∉ picked.map name := by
    intro a ha hnot hmem
    obtain ⟨b, hb, hab⟩ := List.mem_map.mp hmem
    exact hnot (List.inj_on_of_nodup_map hl (hsub hb) ha hab ▸ hb)
  have hdisjoint : picked.Disjoint (others name picked l) := by
    intro a ha hother
    have hnot := of_decide_eq_true (List.mem_filter.mp hother).2
    exact hnot (List.mem_map_of_mem ha)
  have hnodup : (picked ++ others name picked l).Nodup :=
    List.Nodup.append hpicked (hl.of_map.filter _) hdisjoint
  refine (List.perm_ext_iff_of_nodup hnodup hl.of_map).mpr fun a => ?_
  rw [List.mem_append]
  constructor
  · rintro (ha | ha)
    · exact hsub ha
    · exact (List.mem_filter.mp ha).1
  · intro ha
    by_cases hin : a ∈ picked
    · exact .inl hin
    · exact .inr (List.mem_filter.mpr ⟨ha, decide_eq_true (hname a ha hin)⟩)

/-- Some elements and as many of the others as fit. -/
theorem picks_fill {k : ℕ} {rest : List α} (hl : (l.map name).Nodup) (hpicked : picked.Nodup)
    (hsub : picked ⊆ l) (hk : picked.length ≤ k)
    (hrest : rest.Perm (others name picked l)) :
    Picks k l (picked ++ rest.take (k - picked.length)) := by
  have hperm : (picked ++ rest).Perm l :=
    (hrest.append_left picked).trans (perm_append_others hl hpicked hsub)
  have htake : (picked ++ rest).take k = picked ++ rest.take (k - picked.length) := by
    rw [List.take_append, List.take_of_length_le hk]
  rw [← htake]
  exact picks_take k hl.of_map hperm

end Fill

end Picking
