import CctvMemory.Library.KeySort
import Mathlib.Data.List.Basic
import Mathlib.Data.List.Induction
import Mathlib.Data.List.Nodup
import Mathlib.Data.List.Perm.Basic

/-!
# Ranking by frequency

The elements of a list, the most frequent first and equally frequent ones in the
order in which they occur first: what counts of a loop over the list give when
they are sorted by count. For a list that is put together from rows, the first `n`
of them are the same for every order of the rows exactly when the equally frequent
ones that can be among them occur in one order in every row
(`ranked_take_eq_iff`).
-/

namespace Tally

variable {α ρ : Type*} [DecidableEq α]

/-- `a` stands above `b` for the counts of `l` and the order of `row`. -/
def Above (l row : List α) (a b : α) : Prop :=
  l.count b < l.count a ∨ l.count a = l.count b ∧ row.idxOf a < row.idxOf b

instance (l row : List α) (a b : α) : Decidable (Above l row a b) := by
  unfold Above
  infer_instance

/-- By decreasing count, and in order of first occurrence. -/
def ranked (l : List α) : List α :=
  l.eraseDups.mergeSort fun a b => decide (l.count b ≤ l.count a)

section Ranked

variable {l l' : List α} {a b : α}

/-! ## One list -/

theorem pairwise_idxOf (h : l.Nodup) : l.Pairwise fun a b => l.idxOf a < l.idxOf b := by
  refine List.pairwise_iff_getElem.mpr fun i j hi hj hij => ?_
  rw [h.idxOf_getElem, h.idxOf_getElem]
  exact hij

omit [DecidableEq α] in
/-- In a list that `R` orders strictly, a smaller element comes first. -/
theorem pair_sublist {R : α → α → Prop} (hasymm : ∀ {x y}, R x y → ¬ R y x)
    (hl : l.Pairwise R) (ha : a ∈ l) (hb : b ∈ l) (hab : R a b) : [a, b].Sublist l := by
  obtain ⟨s, t, rfl⟩ := List.mem_iff_append.mp ha
  obtain ⟨-, hat, hs⟩ := List.pairwise_append.mp hl
  rcases List.mem_append.mp hb with hbs | hbt
  · exact absurd hab (hasymm (hs b hbs a List.mem_cons_self))
  · rcases List.mem_cons.mp hbt with rfl | hbt
    · exact absurd hab (hasymm hab)
    · exact (List.Sublist.cons_cons a (List.singleton_sublist.mpr hbt)).trans
        (List.sublist_append_right s _)

/-- In such a list an element's place is the number of the smaller ones. -/
theorem idxOf_eq_countP {R : α → α → Prop} [DecidableRel R] (hasymm : ∀ {x y}, R x y → ¬ R y x)
    (hl : l.Pairwise R) (ha : a ∈ l) : l.idxOf a = l.countP fun x => decide (R x a) := by
  induction l with
  | nil => cases ha
  | cons c t ih =>
      obtain ⟨hc, ht⟩ := List.pairwise_cons.mp hl
      by_cases hca : c = a
      · subst hca
        have hself : ¬ R c c := fun h => hasymm h h
        have hnone : t.countP (fun x => decide (R x c)) = 0 :=
          List.countP_eq_zero.mpr fun x hx h => hasymm (hc x hx) (of_decide_eq_true h)
        rw [List.idxOf_cons_self, List.countP_cons_of_neg (by simpa using hself), hnone]
      · have hat : a ∈ t := (List.mem_cons.mp ha).resolve_left fun h => hca h.symm
        rw [List.idxOf_cons_ne t hca, List.countP_cons_of_pos (by simpa using hc a hat),
          ih ht hat]

theorem pairwise_eraseDups (l : List α) :
    l.eraseDups.Pairwise fun a b => l.idxOf a < l.idxOf b := by
  induction l using List.reverseRecOn with
  | nil => exact List.Pairwise.nil
  | append_singleton l a ih =>
      have hold : ∀ x ∈ l, (l ++ [a]).idxOf x = l.idxOf x := by
        intro x hx
        rw [List.idxOf_append, if_pos hx]
      have hfront : l.eraseDups.Pairwise fun x y => (l ++ [a]).idxOf x < (l ++ [a]).idxOf y := by
        refine ih.imp_of_mem fun hx hy hlt => ?_
        rw [hold _ (List.mem_eraseDups.mp hx), hold _ (List.mem_eraseDups.mp hy)]
        exact hlt
      rw [List.eraseDups_append]
      by_cases ha : a ∈ l
      · have hnone : ([a].removeAll l).eraseDups = [] := by simp [List.removeAll, ha]
        rw [hnone, List.append_nil]
        exact hfront
      · have hone : ([a].removeAll l).eraseDups = [a] := by
          simp [List.removeAll, ha, List.eraseDups_cons]
        rw [hone]
        refine List.pairwise_append.mpr ⟨hfront, List.pairwise_singleton _ _, fun x hx y hy => ?_⟩
        obtain rfl := List.mem_singleton.mp hy
        have hx' := List.mem_eraseDups.mp hx
        rw [hold x hx', List.idxOf_append, if_neg ha]
        have hlt := List.idxOf_lt_length_of_mem hx'
        omega

theorem nodup_eraseDups (l : List α) : l.eraseDups.Nodup :=
  (pairwise_eraseDups l).imp fun {a b} (hlt : l.idxOf a < l.idxOf b) (heq : a = b) =>
    Nat.ne_of_lt hlt (congrArg (fun c => l.idxOf c) heq)

theorem perm_eraseDups (h : l.Perm l') : l.eraseDups.Perm l'.eraseDups :=
  (List.perm_ext_iff_of_nodup (nodup_eraseDups l) (nodup_eraseDups l')).mpr fun a => by
    rw [List.mem_eraseDups, List.mem_eraseDups, h.mem_iff]

theorem perm_ranked (l : List α) : (ranked l).Perm l.eraseDups := List.mergeSort_perm _ _

theorem nodup_ranked (l : List α) : (ranked l).Nodup :=
  (perm_ranked l).nodup_iff.mpr (nodup_eraseDups l)

theorem mem_ranked : a ∈ ranked l ↔ a ∈ l := by
  rw [(perm_ranked l).mem_iff, List.mem_eraseDups]

theorem ranked_perm (h : l.Perm l') : (ranked l).Perm (ranked l') :=
  ((perm_ranked l).trans (perm_eraseDups h)).trans (perm_ranked l').symm

theorem length_ranked_le (l : List α) : (ranked l).length ≤ l.length :=
  (List.subperm_of_subset (nodup_ranked l) fun _ ha => mem_ranked.mp ha).length_le

theorem not_above_self (row : List α) (a : α) : ¬ Above l row a a := by
  rintro (hlt | ⟨-, hlt⟩)
  · exact Nat.lt_irrefl _ hlt
  · exact Nat.lt_irrefl _ hlt

theorem not_above_of_above {row : List α} (h : Above l row a b) : ¬ Above l row b a := by
  unfold Above at h ⊢
  omega

theorem sortKey_count (l : List α) : SortKey (fun a b : α => decide (l.count b ≤ l.count a))
    fun a => OrderDual.toDual (l.count a) :=
  ⟨fun _ _ => decide_eq_true_iff⟩

/-- One element stands above the next, in all of the ranking. -/
theorem pairwise_ranked (l : List α) : (ranked l).Pairwise (Above l l) := by
  have hcounts : (ranked l).Pairwise fun a b => l.count b ≤ l.count a :=
    (sortKey_count l).pairwise_key_mergeSort l.eraseDups
  rw [List.pairwise_iff_forall_sublist]
  intro a b hab
  have hle : l.count b ≤ l.count a := List.pairwise_iff_forall_sublist.mp hcounts hab
  rcases Nat.lt_or_eq_of_le hle with hlt | heq
  · exact Or.inl hlt
  · refine Or.inr ⟨heq.symm, ?_⟩
    have hne : a ≠ b := List.pairwise_iff_forall_sublist.mp (nodup_ranked l) hab
    have hmem : ∀ c ∈ [a, b], c ∈ l.eraseDups := fun c hc =>
      (perm_ranked l).mem_iff.mp (hab.subset hc)
    have ha := hmem a (by simp)
    have hb := hmem b (by simp)
    by_contra hlt
    have hba : l.idxOf b < l.idxOf a := by
      have hne' : l.idxOf a ≠ l.idxOf b := fun h =>
        hne ((List.idxOf_inj (List.mem_eraseDups.mp ha)).mp h)
      omega
    -- were `b` the first of them, the sort would have kept it in front of `a`
    have hkept : [b, a].Sublist (ranked l) :=
      List.pair_sublist_mergeSort (fun _ _ _ => (sortKey_count l).trans)
        (sortKey_count l).or_eq_true
        (decide_eq_true (Nat.le_of_eq heq.symm))
        (pair_sublist Nat.lt_asymm (pairwise_eraseDups l) hb ha hba)
    have hplaces : ∀ {c d : α}, [c, d].Sublist (ranked l) →
        (ranked l).idxOf c < (ranked l).idxOf d :=
      List.pairwise_iff_forall_sublist.mp (pairwise_idxOf (nodup_ranked l))
    exact Nat.lt_asymm (hplaces hab) (hplaces hkept)

theorem idxOf_ranked_lt (ha : a ∈ l) (hb : b ∈ l) (h : Above l l a b) :
    (ranked l).idxOf a < (ranked l).idxOf b :=
  List.pairwise_iff_forall_sublist.mp (pairwise_idxOf (nodup_ranked l))
    (pair_sublist not_above_of_above (pairwise_ranked l) (mem_ranked.mpr ha) (mem_ranked.mpr hb) h)

/-- An element's place in the ranking is the number of those above it. -/
theorem idxOf_ranked (ha : a ∈ l) :
    (ranked l).idxOf a = l.eraseDups.countP fun x => decide (Above l l x a) := by
  rw [idxOf_eq_countP not_above_of_above (pairwise_ranked l) (mem_ranked.mpr ha)]
  exact (perm_ranked l).countP_eq _

end Ranked

/-! ## A list of rows -/

section Rows

variable {rows rows' : List ρ} {tags : ρ → List α} {x y : α} {n : ℕ}

/-- In every row in which `y` occurs, `x` occurs before it. -/
def Leads (tags : ρ → List α) (rows : List ρ) (x y : α) : Prop :=
  ∀ r ∈ rows, y ∈ tags r → (tags r).idxOf x < (tags r).idxOf y

/-- Were one of the rows with `x` the first one, `x` would be among the first `n`. -/
def CanShow (tags : ρ → List α) (n : ℕ) (rows : List ρ) (x : α) : Prop :=
  ∃ r ∈ rows, x ∈ tags r ∧
    (rows.flatMap tags).eraseDups.countP
      (fun a => decide (Above (rows.flatMap tags) (tags r) a x)) < n

/-- Equally frequent elements, one of which can be among the first `n`, come in one order
in every row. -/
def Decided (tags : ρ → List α) (n : ℕ) (rows : List ρ) : Prop :=
  ∀ x ∈ rows.flatMap tags, ∀ y ∈ rows.flatMap tags, x ≠ y →
    (rows.flatMap tags).count x = (rows.flatMap tags).count y → CanShow tags n rows x →
      Leads tags rows x y ∨ Leads tags rows y x

/-- No two elements are equally frequent. -/
def Untied (l : List α) : Prop :=
  ∀ x ∈ l, ∀ y ∈ l, l.count x = l.count y → x = y

instance : Decidable (Leads tags rows x y) :=
  inferInstanceAs (Decidable (∀ r ∈ rows, y ∈ tags r → (tags r).idxOf x < (tags r).idxOf y))

instance : Decidable (CanShow tags n rows x) :=
  inferInstanceAs (Decidable (∃ r ∈ rows, x ∈ tags r ∧
    (rows.flatMap tags).eraseDups.countP
      (fun a => decide (Above (rows.flatMap tags) (tags r) a x)) < n))

instance : Decidable (Decided tags n rows) :=
  inferInstanceAs (Decidable (∀ x ∈ rows.flatMap tags, ∀ y ∈ rows.flatMap tags, x ≠ y →
    (rows.flatMap tags).count x = (rows.flatMap tags).count y → CanShow tags n rows x →
      Leads tags rows x y ∨ Leads tags rows y x))

instance (l : List α) : Decidable (Untied l) :=
  inferInstanceAs (Decidable (∀ x ∈ l, ∀ y ∈ l, l.count x = l.count y → x = y))

theorem idxOf_append_lt_iff {s t : List α} (hx : x ∈ s) :
    (s ++ t).idxOf y < (s ++ t).idxOf x ↔ s.idxOf y < s.idxOf x := by
  rw [List.idxOf_append_of_mem hx]
  by_cases hy : y ∈ s
  · rw [List.idxOf_append_of_mem hy]
  · have hlt := List.idxOf_lt_length_of_mem hx
    rw [List.idxOf_append_of_notMem hy, List.idxOf_eq_length hy]
    omega

theorem Leads.idxOf_lt (h : Leads tags rows x y) (hy : y ∈ rows.flatMap tags) :
    (rows.flatMap tags).idxOf x < (rows.flatMap tags).idxOf y := by
  induction rows with
  | nil => cases hy
  | cons r rows ih =>
      rw [List.flatMap_cons] at hy ⊢
      by_cases hr : y ∈ tags r
      · exact (idxOf_append_lt_iff hr).mpr (h r List.mem_cons_self hr)
      · have hrest := ih (fun r' hr' => h r' (List.mem_cons_of_mem r hr'))
          ((List.mem_append.mp hy).resolve_left hr)
        rw [List.idxOf_append_of_notMem hr]
        by_cases hx : x ∈ tags r
        · have hlt := List.idxOf_lt_length_of_mem hx
          rw [List.idxOf_append_of_mem hx]
          omega
        · rw [List.idxOf_append_of_notMem hx]
          omega

/-- What precedes `x` in the first row that has it precedes `x` in the whole list. -/
theorem exists_row_idxOf (hx : x ∈ rows.flatMap tags) :
    ∃ r ∈ rows, x ∈ tags r ∧ ∀ a, (tags r).idxOf a < (tags r).idxOf x →
      (rows.flatMap tags).idxOf a < (rows.flatMap tags).idxOf x := by
  induction rows with
  | nil => cases hx
  | cons r rows ih =>
      rw [List.flatMap_cons] at hx ⊢
      by_cases hr : x ∈ tags r
      · exact ⟨r, List.mem_cons_self, hr, fun a ha => (idxOf_append_lt_iff hr).mpr ha⟩
      · obtain ⟨r', hr', hxr', hfirst⟩ := ih ((List.mem_append.mp hx).resolve_left hr)
        refine ⟨r', List.mem_cons_of_mem r hr', hxr', fun a ha => ?_⟩
        have hrest := hfirst a ha
        rw [List.idxOf_append_of_notMem hr]
        by_cases har : a ∈ tags r
        · have hlt := List.idxOf_lt_length_of_mem har
          rw [List.idxOf_append_of_mem har]
          omega
        · rw [List.idxOf_append_of_notMem har]
          omega

theorem canShow_of_mem_take (hx : x ∈ (ranked (rows.flatMap tags)).take n) :
    CanShow tags n rows x := by
  have hmem := mem_ranked.mp (List.mem_of_mem_take hx)
  have hplace := (List.mem_take_iff_idxOf_lt (mem_ranked.mpr hmem)).mp hx
  rw [idxOf_ranked hmem] at hplace
  obtain ⟨r, hr, hxr, hfirst⟩ := exists_row_idxOf hmem
  refine ⟨r, hr, hxr, Nat.lt_of_le_of_lt (List.countP_mono_left fun a _ ha => ?_) hplace⟩
  refine decide_eq_true ((of_decide_eq_true ha).imp id fun h => ⟨h.1, hfirst a h.2⟩)

/-- What can be among the first `n` keeps its place in every order of the rows. -/
theorem idxOf_ranked_perm (hp : rows.Perm rows') (hx : CanShow tags n rows x)
    (h : ∀ y ∈ rows.flatMap tags, x ≠ y →
      (rows.flatMap tags).count x = (rows.flatMap tags).count y →
        Leads tags rows x y ∨ Leads tags rows y x) :
    (ranked (rows'.flatMap tags)).idxOf x = (ranked (rows.flatMap tags)).idxOf x := by
  have hflat : (rows.flatMap tags).Perm (rows'.flatMap tags) := hp.flatMap_right tags
  obtain ⟨r, hr, hxr, -⟩ := hx
  have hmem : x ∈ rows.flatMap tags := List.mem_flatMap.mpr ⟨r, hr, hxr⟩
  rw [idxOf_ranked hmem, idxOf_ranked (hflat.mem_iff.mp hmem),
    (perm_eraseDups hflat).countP_eq]
  refine List.countP_congr fun a ha => ?_
  have ha' := hflat.mem_iff.mpr (List.mem_eraseDups.mp ha)
  rw [decide_eq_true_iff, decide_eq_true_iff]
  by_cases hax : a = x
  · subst hax
    exact iff_of_false (not_above_self _ _) (not_above_self _ _)
  by_cases hcount : (rows.flatMap tags).count x = (rows.flatMap tags).count a
  · have hcount' : (rows'.flatMap tags).count x = (rows'.flatMap tags).count a := by
      rw [← hflat.count_eq, ← hflat.count_eq]
      exact hcount
    have hleads' : ∀ {b c : α}, Leads tags rows b c → Leads tags rows' b c :=
      fun hbc r hr => hbc r (hp.mem_iff.mpr hr)
    rcases h a ha' (Ne.symm hax) hcount with hlead | hlead
    · refine iff_of_false (fun hab => ?_) fun hab => ?_
      · have := (hleads' hlead).idxOf_lt (hflat.mem_iff.mp ha')
        unfold Above at hab
        omega
      · have := hlead.idxOf_lt ha'
        unfold Above at hab
        omega
    · exact iff_of_true
        (Or.inr ⟨hcount'.symm, (hleads' hlead).idxOf_lt (hflat.mem_iff.mp hmem)⟩)
        (Or.inr ⟨hcount.symm, hlead.idxOf_lt hmem⟩)
  · have hcounts := fun c => hflat.count_eq c
    unfold Above
    rw [← hcounts, ← hcounts]
    omega

/-- With a row that can show `x` put first, `x` is among the first `n`. -/
theorem exists_perm_mem_take (hx : CanShow tags n rows x) :
    ∃ rows', rows.Perm rows' ∧ x ∈ (ranked (rows'.flatMap tags)).take n := by
  obtain ⟨r, hr, hxr, hcount⟩ := hx
  obtain ⟨s, t, rfl⟩ := List.mem_iff_append.mp hr
  have hp : (s ++ r :: t).Perm (r :: (s ++ t)) := List.perm_middle
  have hflat := hp.flatMap_right tags
  refine ⟨r :: (s ++ t), hp, ?_⟩
  have hmem : x ∈ (r :: (s ++ t)).flatMap tags :=
    List.mem_flatMap.mpr ⟨r, List.mem_cons_self, hxr⟩
  rw [List.mem_take_iff_idxOf_lt (mem_ranked.mpr hmem), idxOf_ranked hmem,
    ← (perm_eraseDups hflat).countP_eq]
  refine Nat.lt_of_le_of_lt (Nat.le_of_eq (List.countP_congr fun a _ => ?_)) hcount
  rw [decide_eq_true_iff, decide_eq_true_iff]
  unfold Above
  rw [hflat.count_eq, hflat.count_eq, List.flatMap_cons, idxOf_append_lt_iff hxr]

/-- When `x` is not before `y` in every row, some order of the rows puts `y` first. -/
theorem exists_perm_idxOf_lt (hx : x ∈ rows.flatMap tags) (hxy : x ≠ y)
    (hcount : (rows.flatMap tags).count x = (rows.flatMap tags).count y)
    (h : ¬ Leads tags rows x y) :
    ∃ rows', rows.Perm rows' ∧
      (ranked (rows'.flatMap tags)).idxOf y < (ranked (rows'.flatMap tags)).idxOf x := by
  obtain ⟨r, hr, hyr, hle⟩ :
      ∃ r ∈ rows, y ∈ tags r ∧ ¬ (tags r).idxOf x < (tags r).idxOf y := by
    by_contra hnone
    exact h fun r hr hyr => by_contra fun hle => hnone ⟨r, hr, hyr, hle⟩
  have hlt : (tags r).idxOf y < (tags r).idxOf x :=
    Nat.lt_of_le_of_ne (Nat.not_lt.mp hle) fun h => hxy ((List.idxOf_inj hyr).mp h).symm
  obtain ⟨s, t, rfl⟩ := List.mem_iff_append.mp hr
  have hp : (s ++ r :: t).Perm (r :: (s ++ t)) := List.perm_middle
  have hflat := hp.flatMap_right tags
  refine ⟨r :: (s ++ t), hp, idxOf_ranked_lt
    (List.mem_flatMap.mpr ⟨r, List.mem_cons_self, hyr⟩) (hflat.mem_iff.mp hx) (Or.inr ⟨?_, ?_⟩)⟩
  · rw [← hflat.count_eq, ← hflat.count_eq]
    exact hcount.symm
  · rw [List.flatMap_cons, List.idxOf_append_of_mem hyr]
    by_cases hxr : x ∈ tags r
    · rw [List.idxOf_append_of_mem hxr]
      exact hlt
    · have := List.idxOf_lt_length_of_mem hyr
      rw [List.idxOf_append_of_notMem hxr]
      omega

/-- The first `n` do not depend on the order of the rows exactly when the
rows decide them. -/
theorem ranked_take_eq_iff :
    (∀ rows', rows.Perm rows' →
      (ranked (rows'.flatMap tags)).take n = (ranked (rows.flatMap tags)).take n) ↔
      Decided tags n rows := by
  constructor
  · intro h x hx y hy hxy hcount hshow
    by_contra hnone
    obtain ⟨hnxy, hnyx⟩ := not_or.mp hnone
    -- each of the two is first in some order of the rows, and `x` is shown
    obtain ⟨rows₀, hp₀, hshown⟩ := exists_perm_mem_take hshow
    rw [h rows₀ hp₀] at hshown
    obtain ⟨rows₁, hp₁, hyx⟩ := exists_perm_idxOf_lt hx hxy hcount hnxy
    obtain ⟨rows₂, hp₂, hlt⟩ := exists_perm_idxOf_lt hy (Ne.symm hxy) hcount.symm hnyx
    have hplace : ∀ {a : α}, a ∈ (ranked (rows.flatMap tags)).take n → ∀ rows', rows.Perm rows' →
        ((ranked (rows.flatMap tags)).take n).idxOf a =
          (ranked (rows'.flatMap tags)).idxOf a := by
      intro a ha rows' hp
      rw [← h rows' hp] at ha ⊢
      exact (List.take_prefix n _).idxOf_eq_of_mem ha
    have hy : y ∈ (ranked (rows.flatMap tags)).take n := by
      have hflat := hp₁.flatMap_right tags
      rw [← h rows₁ hp₁] at hshown ⊢
      have hxn := (List.mem_take_iff_idxOf_lt (mem_ranked.mpr (hflat.mem_iff.mp hx))).mp hshown
      exact (List.mem_take_iff_idxOf_lt (mem_ranked.mpr (hflat.mem_iff.mp hy))).mpr
        (Nat.lt_trans hyx hxn)
    rw [← hplace hshown rows₁ hp₁, ← hplace hy rows₁ hp₁] at hyx
    rw [← hplace hshown rows₂ hp₂, ← hplace hy rows₂ hp₂] at hlt
    exact Nat.lt_asymm hlt hyx
  · intro h rows' hp
    have hflat := hp.flatMap_right tags
    have hlength := (ranked_perm hflat).length_eq
    refine List.ext_getElem (by rw [List.length_take, List.length_take, hlength]) fun i hi hi' => ?_
    rw [List.getElem_take, List.getElem_take]
    have hi₀ : i < (ranked (rows.flatMap tags)).length := by
      rw [List.length_take] at hi'
      omega
    obtain ⟨x, hx⟩ : ∃ x, x = (ranked (rows.flatMap tags))[i] := ⟨_, rfl⟩
    have hmem : x ∈ (ranked (rows.flatMap tags)).take n := by
      rw [hx, ← List.getElem_take]
      exact List.getElem_mem hi'
    have hmem' := mem_ranked.mp (List.mem_of_mem_take hmem)
    -- what is shown at place `i` keeps that place
    have hkept := idxOf_ranked_perm hp (canShow_of_mem_take hmem) fun y hy hxy hcount =>
      h x hmem' y hy hxy hcount (canShow_of_mem_take hmem)
    have hplace : (ranked (rows.flatMap tags)).idxOf x = i := by
      rw [hx]
      exact (nodup_ranked _).idxOf_getElem i _
    have hget := List.getElem_idxOf
      (List.idxOf_lt_length_of_mem (mem_ranked.mpr (hflat.mem_iff.mp hmem')))
    rw [← hx, ← hget]
    congr 1
    rw [hkept, hplace]

/-- Where every row has one element and all are shown, none may be tied. -/
theorem ranked_map_eq_iff {f : ρ → α} :
    (∀ rows', rows.Perm rows' → ranked (rows'.map f) = ranked (rows.map f)) ↔
      Untied (rows.map f) := by
  have hall : ∀ rows', rows.Perm rows' →
      (ranked (rows'.map f)).take (rows.length + 1) = ranked (rows'.map f) := by
    intro rows' hp
    have hle := length_ranked_le (rows'.map f)
    rw [List.length_map, ← hp.length_eq] at hle
    exact List.take_of_length_le (by omega)
  have hmap : ∀ rows' : List ρ, rows'.map f = rows'.flatMap fun r => [f r] := fun _ =>
    List.map_eq_flatMap
  have hnot : ∀ x y, y ∈ rows.map f → x ≠ y → ¬ Leads (fun r => [f r]) rows x y := by
    intro x y hy hxy hlead
    obtain ⟨r, hr, rfl⟩ := List.mem_map.mp hy
    have hlt := hlead r hr (List.mem_singleton.mpr rfl)
    rw [List.idxOf_cons_self] at hlt
    exact Nat.not_lt_zero _ hlt
  have hshow : ∀ x ∈ rows.map f, CanShow (fun r => [f r]) (rows.length + 1) rows x := by
    intro x hx
    obtain ⟨r, hr, rfl⟩ := List.mem_map.mp hx
    refine ⟨r, hr, List.mem_singleton.mpr rfl, Nat.lt_succ_of_le (Nat.le_trans
      List.countP_le_length ?_)⟩
    rw [← hmap, ← (perm_ranked (rows.map f)).length_eq, ← List.length_map f]
    exact length_ranked_le _
  -- a row with one element puts neither of two before the other
  have hgeneral := @ranked_take_eq_iff α ρ _ rows (fun r => [f r]) (rows.length + 1)
  simp only [Decided, ← hmap] at hgeneral
  constructor
  · intro h x hx y hy hcount
    by_contra hxy
    rcases hgeneral.mp (fun rows' hp => by rw [h rows' hp]) x hx y hy hxy hcount (hshow x hx)
      with hlead | hlead
    · exact hnot x y hy hxy hlead
    · exact hnot y x hx (Ne.symm hxy) hlead
  · intro h rows' hp
    have htake := hgeneral.mpr
      (fun x hx y hy hxy hcount _ => absurd (h x hx y hy hcount) hxy) rows' hp
    rw [hall rows' hp, hall rows (List.Perm.refl rows)] at htake
    exact htake

end Rows

end Tally
