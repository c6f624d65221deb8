import Mathlib.Data.Finset.Card
import Mathlib.Data.List.Infix

/-!
# Keys that are opened and closed

A log of marks opens keys and closes them; a mark may also leave them as they are.
Opening an open key and closing a closed one change nothing. `curve` is how many keys
are open after each mark, `peak` the most there ever are.

* `mem_openKeys_iff`: a key is open when the last mark of it opened it.
* `peak_le_iff`: the peak over the prefixes of the log.
* `peak_le_of_infix`, `peak_ofKeys_le`: a part of a log, or the marks of some keys only,
  peak no higher.
-/

namespace OpenKeys

inductive Mark (κ : Type) where
  | opens (k : κ)
  | closes (k : κ)
  | other
deriving DecidableEq, Repr

variable {κ : Type}

def Mark.key? : Mark κ → Option κ
  | .opens k | .closes k => some k
  | .other => none

variable [DecidableEq κ]

def mark (s : Finset κ) : Mark κ → Finset κ
  | .opens k => insert k s
  | .closes k => s.erase k
  | .other => s

def openKeys (ms : List (Mark κ)) : Finset κ := ms.foldl mark ∅

/-- How many keys are open after each mark. -/
def curveFrom (s : Finset κ) : List (Mark κ) → List ℕ
  | [] => []
  | m :: ms => (mark s m).card :: curveFrom (mark s m) ms

def curve (ms : List (Mark κ)) : List ℕ := curveFrom ∅ ms

def peak (ms : List (Mark κ)) : ℕ := (curve ms).foldl max 0

/-! ## From the right end -/

variable {ms pre post : List (Mark κ)} {m : Mark κ} {k : κ}

@[simp] theorem openKeys_nil : openKeys ([] : List (Mark κ)) = ∅ := rfl

theorem openKeys_concat (ms : List (Mark κ)) (m : Mark κ) :
    openKeys (ms ++ [m]) = mark (openKeys ms) m := by
  rw [openKeys, List.foldl_append]
  rfl

@[simp] theorem curve_nil : curve ([] : List (Mark κ)) = [] := rfl

theorem curveFrom_concat (s : Finset κ) (ms : List (Mark κ)) (m : Mark κ) :
    curveFrom s (ms ++ [m]) = curveFrom s ms ++ [(mark (ms.foldl mark s) m).card] := by
  induction ms generalizing s with
  | nil => rfl
  | cons n ms ih =>
      rw [List.cons_append, curveFrom, curveFrom, ih, List.cons_append]
      rfl

theorem curve_concat (ms : List (Mark κ)) (m : Mark κ) :
    curve (ms ++ [m]) = curve ms ++ [(openKeys (ms ++ [m])).card] := by
  rw [openKeys_concat]
  exact curveFrom_concat ∅ ms m

@[simp] theorem peak_nil : peak ([] : List (Mark κ)) = 0 := rfl

theorem peak_concat (ms : List (Mark κ)) (m : Mark κ) :
    peak (ms ++ [m]) = max (peak ms) (openKeys (ms ++ [m])).card := by
  rw [peak, curve_concat, List.foldl_append]
  rfl

/-! ## What is open -/

theorem mem_mark : k ∈ mark (openKeys ms) m ↔
    m = .opens k ∨ k ∈ openKeys ms ∧ m ≠ .closes k := by
  cases m with
  | opens j => simp only [mark, Finset.mem_insert, Mark.opens.injEq, ne_eq, reduceCtorEq,
      not_false_eq_true, and_true, eq_comm]
  | closes j => simp only [mark, Finset.mem_erase, reduceCtorEq, false_or, ne_eq,
      Mark.closes.injEq, and_comm, eq_comm]
  | other => simp only [mark, reduceCtorEq, ne_eq, not_false_eq_true, and_true, false_or]

/-- A key is open when the last mark of it opened it. -/
theorem mem_openKeys_iff : k ∈ openKeys ms ↔
    (ms.filter fun m => decide (m.key? = some k)).getLast? = some (.opens k) := by
  induction ms using List.reverseRecOn with
  | nil => simp
  | append_singleton ms m ih =>
      rw [openKeys_concat, mem_mark, ih, List.filter_append, List.filter_singleton]
      by_cases hkey : m.key? = some k
      · rw [decide_eq_true hkey, cond_true, List.getLast?_concat, Option.some.injEq]
        cases m with
        | opens j => simp [Mark.key?] at hkey; simp [hkey]
        | closes j => simp [Mark.key?] at hkey; simp [hkey]
        | other => cases hkey
      · rw [decide_eq_false hkey, cond_false, List.append_nil]
        have hopens : m ≠ .opens k := fun h => hkey (by rw [h]; rfl)
        have hcloses : m ≠ .closes k := fun h => hkey (by rw [h]; rfl)
        simp [hopens, hcloses]

/-! ## The peak -/

theorem card_le_peak (h : pre <+: ms) : (openKeys pre).card ≤ peak ms := by
  induction ms using List.reverseRecOn with
  | nil =>
      rw [List.prefix_nil.mp h]
      exact le_refl _
  | append_singleton ms m ih =>
      rw [peak_concat]
      rcases List.prefix_concat_iff.mp h with rfl | h
      · exact le_max_right _ _
      · exact (ih h).trans (le_max_left _ _)

theorem peak_le_iff {n : ℕ} : peak ms ≤ n ↔ ∀ pre, pre <+: ms → (openKeys pre).card ≤ n := by
  constructor
  · exact fun h pre hpre => (card_le_peak hpre).trans h
  · induction ms using List.reverseRecOn with
    | nil => exact fun _ => Nat.zero_le n
    | append_singleton ms m ih =>
        intro h
        rw [peak_concat]
        exact max_le (ih fun pre hpre => h pre (hpre.trans (List.prefix_append ms [m])))
          (h _ (List.prefix_refl _))

/-- What came before a part of the log can only leave more keys open. -/
theorem openKeys_subset_append (pre post : List (Mark κ)) :
    openKeys post ⊆ openKeys (pre ++ post) := by
  induction post using List.reverseRecOn with
  | nil => exact Finset.empty_subset _
  | append_singleton post m ih =>
      rw [← List.append_assoc, openKeys_concat, openKeys_concat]
      intro k hk
      exact mem_mark.mpr ((mem_mark.mp hk).imp_right (And.imp_left fun hpost => ih hpost))

theorem peak_le_of_infix {part : List (Mark κ)} (h : part <:+: ms) : peak part ≤ peak ms := by
  obtain ⟨before, after, rfl⟩ := h
  refine peak_le_iff.mpr fun pre hpre => ?_
  have hprefix : before ++ pre <+: before ++ part ++ after :=
    ((List.prefix_append_right_inj before).mpr hpre).trans (List.prefix_append _ _)
  exact (Finset.card_le_card (openKeys_subset_append before pre)).trans (card_le_peak hprefix)

/-- Marks that leave the keys as they are do not count. -/
theorem openKeys_filter_other (ms : List (Mark κ)) :
    openKeys (ms.filter fun m => decide (m ≠ .other)) = openKeys ms := by
  induction ms using List.reverseRecOn with
  | nil => rfl
  | append_singleton ms m ih =>
      rw [List.filter_append, List.filter_singleton, openKeys_concat]
      cases m with
      | opens k => exact (openKeys_concat _ _).trans (by rw [ih])
      | closes k => exact (openKeys_concat _ _).trans (by rw [ih])
      | other => simpa [mark] using ih

theorem peak_filter_other (ms : List (Mark κ)) :
    peak (ms.filter fun m => decide (m ≠ .other)) = peak ms := by
  induction ms using List.reverseRecOn with
  | nil => rfl
  | append_singleton ms m ih =>
      rw [List.filter_append, List.filter_singleton, peak_concat]
      by_cases hother : m = .other
      · subst hother
        have hsame : openKeys (ms ++ [.other]) = openKeys ms := openKeys_concat ms .other
        rw [hsame, max_eq_left (card_le_peak (List.prefix_refl ms))]
        simpa using ih
      · have hwhole : ms.filter (fun m => decide (m ≠ .other)) ++ [m]
            = (ms ++ [m]).filter fun m => decide (m ≠ .other) := by
          simp [hother]
        rw [decide_eq_true hother, cond_true, peak_concat, hwhole, openKeys_filter_other, ih]

/-! ## Some of the keys -/

/-- The marks of the keys that `p` picks. -/
def ofKeys (p : κ → Bool) (ms : List (Mark κ)) : List (Mark κ) :=
  ms.filter fun m => m.key?.any p

theorem openKeys_ofKeys (p : κ → Bool) (ms : List (Mark κ)) :
    openKeys (ofKeys p ms) = (openKeys ms).filter fun k => p k := by
  ext k
  rw [Finset.mem_filter, mem_openKeys_iff, mem_openKeys_iff, ofKeys, List.filter_filter]
  cases hp : p k with
  | true =>
      have hsame : (fun m : Mark κ => decide (m.key? = some k) && m.key?.any p)
          = fun m => decide (m.key? = some k) := by
        funext m
        by_cases hkey : m.key? = some k
        · simp [hkey, hp]
        · simp [hkey]
      rw [hsame]
      exact (and_iff_left rfl).symm
  | false =>
      have hnone : (fun m : Mark κ => decide (m.key? = some k) && m.key?.any p)
          = fun _ => false := by
        funext m
        by_cases hkey : m.key? = some k
        · simp [hkey, hp]
        · simp [hkey]
      simp [hnone]

omit [DecidableEq κ] in
theorem ofKeys_concat (p : κ → Bool) (ms : List (Mark κ)) (m : Mark κ) :
    ofKeys p (ms ++ [m]) = if m.key?.any p then ofKeys p ms ++ [m] else ofKeys p ms := by
  rw [ofKeys, List.filter_append, List.filter_singleton]
  cases m.key?.any p
  · exact List.append_nil _
  · rfl

theorem peak_ofKeys_le (p : κ → Bool) (ms : List (Mark κ)) : peak (ofKeys p ms) ≤ peak ms := by
  induction ms using List.reverseRecOn with
  | nil => exact le_refl _
  | append_singleton ms m ih =>
      rw [ofKeys_concat, peak_concat]
      split
      · rename_i hkey
        have hwhole : ofKeys p ms ++ [m] = ofKeys p (ms ++ [m]) := by
          rw [ofKeys_concat, if_pos hkey]
        rw [peak_concat, hwhole, openKeys_ofKeys]
        exact max_le_max ih (Finset.card_le_card (Finset.filter_subset _ _))
      · exact ih.trans (le_max_left _ _)

end OpenKeys
