import Mathlib.Data.List.Basic

/-!
# First come, first kept

A sequence of requests, each with a key: the first request with a key is kept,
a later one finds it, or is refused where the two do not agree. What happens
depends on how keys are compared.

* `verdicts_eq_iff`: a finer and a coarser key give the same verdicts exactly on
  the sequences that they do not tell apart.
-/

namespace FirstCome

variable {α κ ι : Type*}

inductive Verdict where
  | created
  | found
  | refused
deriving DecidableEq, Repr

section Run

variable [DecidableEq κ] (key : α → κ) (agrees : α → α → Bool)

/-- The verdict on a request, after the ones that were kept. -/
def verdict (kept : List α) (x : α) : Verdict :=
  match kept.find? fun y => decide (key y = key x) with
  | none => .created
  | some y => if agrees y x then .found else .refused

def keep (kept : List α) (x : α) : List α :=
  match verdict key agrees kept x with
  | .created => kept ++ [x]
  | _ => kept

def verdicts : List α → List α → List Verdict
  | _, [] => []
  | kept, x :: xs => verdict key agrees kept x :: verdicts (keep key agrees kept x) xs

variable {key agrees}

theorem verdict_eq_created_iff {kept : List α} {x : α} :
    verdict key agrees kept x = .created ↔ ∀ y ∈ kept, key y ≠ key x := by
  unfold verdict
  cases h : kept.find? fun y => decide (key y = key x) with
  | none =>
      rw [List.find?_eq_none] at h
      refine iff_of_true rfl fun y hy => ?_
      simpa using h y hy
  | some y =>
      have hkey := List.find?_some h
      rw [decide_eq_true_eq] at hkey
      refine iff_of_false ?_ fun hall => hall y (List.mem_of_find?_eq_some h) hkey
      dsimp only
      split <;> exact fun heq => by cases heq

theorem length_verdicts (kept xs : List α) :
    (verdicts key agrees kept xs).length = xs.length := by
  induction xs generalizing kept with
  | nil => rfl
  | cons x xs ih => rw [verdicts, List.length_cons, List.length_cons, ih]

theorem keep_of_created {kept : List α} {x : α} (h : verdict key agrees kept x = .created) :
    keep key agrees kept x = kept ++ [x] := by
  rw [keep, h]

theorem keep_of_not_created {kept : List α} {x : α}
    (h : verdict key agrees kept x ≠ .created) : keep key agrees kept x = kept := by
  unfold keep
  split
  · exact absurd ‹_› h
  · rfl

end Run

/-! ## Two keys -/

section Compare

variable {fine : α → κ} {coarse : α → ι} {agrees : α → α → Bool}

/-- Two keys that tell apart the same elements of a list. -/
def Coincide (fine : α → κ) (coarse : α → ι) (xs : List α) : Prop :=
  ∀ x ∈ xs, ∀ y ∈ xs, coarse x = coarse y → fine x = fine y

theorem Coincide.mono {xs ys : List α} (h : Coincide fine coarse ys) (hsub : xs ⊆ ys) :
    Coincide fine coarse xs :=
  fun x hx y hy => h x (hsub hx) y (hsub hy)

/-- An element that one of `kept` stands for under both keys adds nothing. -/
theorem coincide_cons_iff (hfine : ∀ x y, fine x = fine y → coarse x = coarse y)
    {kept xs : List α} {x y : α} (hy : y ∈ kept) (hxy : fine y = fine x) :
    Coincide fine coarse (kept ++ x :: xs) ↔ Coincide fine coarse (kept ++ xs) := by
  constructor
  · intro h
    refine h.mono fun z hz => ?_
    rcases List.mem_append.mp hz with hz | hz
    · exact List.mem_append_left _ hz
    · exact List.mem_append_right _ (List.mem_cons_of_mem _ hz)
  · intro h
    -- `x` is replaced by `y`, which both keys take for `x`
    have hrep : ∀ z ∈ kept ++ x :: xs, ∃ z' ∈ kept ++ xs, fine z' = fine z := by
      intro z hz
      rcases List.mem_append.mp hz with hz | hz
      · exact ⟨z, List.mem_append_left _ hz, rfl⟩
      · rcases List.mem_cons.mp hz with rfl | hz
        · exact ⟨y, List.mem_append_left _ hy, hxy⟩
        · exact ⟨z, List.mem_append_right _ hz, rfl⟩
    intro a ha b hb hab
    obtain ⟨a', ha', haa'⟩ := hrep a ha
    obtain ⟨b', hb', hbb'⟩ := hrep b hb
    calc fine a = fine a' := haa'.symm
      _ = fine b' := h a' ha' b' hb' ((hfine _ _ haa').trans (hab.trans (hfine _ _ hbb').symm))
      _ = fine b := hbb'

variable [DecidableEq κ] [DecidableEq ι]

theorem verdict_eq_of_coincide (hfine : ∀ x y, fine x = fine y → coarse x = coarse y)
    {kept : List α} {x : α} (h : Coincide fine coarse (kept ++ [x])) :
    verdict fine agrees kept x = verdict coarse agrees kept x := by
  have hsame : ∀ y ∈ kept, decide (fine y = fine x) = decide (coarse y = coarse x) :=
    fun y hy => decide_eq_decide.mpr
      ⟨hfine y x, h y (List.mem_append_left _ hy) x (List.mem_append_right _ List.mem_cons_self)⟩
  unfold verdict
  rw [← List.head?_filter, ← List.head?_filter, List.filter_congr hsame]

theorem verdicts_eq_iff_of_coincide (hfine : ∀ x y, fine x = fine y → coarse x = coarse y) :
    ∀ (xs kept : List α), Coincide fine coarse kept →
      (verdicts fine agrees kept xs = verdicts coarse agrees kept xs ↔
        Coincide fine coarse (kept ++ xs)) := by
  intro xs
  induction xs with
  | nil =>
      intro kept hkept
      rw [List.append_nil]
      exact iff_of_true rfl hkept
  | cons x xs ih =>
      intro kept hkept
      rw [verdicts, verdicts, List.cons.injEq]
      by_cases hcoarse : ∀ y ∈ kept, coarse y ≠ coarse x
      · -- new under both keys
        have hcreated : verdict coarse agrees kept x = .created :=
          verdict_eq_created_iff.mpr hcoarse
        have hcreated' : verdict fine agrees kept x = .created :=
          verdict_eq_created_iff.mpr fun y hy heq => hcoarse y hy (hfine _ _ heq)
        have hnext : Coincide fine coarse (kept ++ [x]) := by
          intro a ha b hb hab
          rcases List.mem_append.mp ha with ha | ha <;> rcases List.mem_append.mp hb with hb | hb
          · exact hkept a ha b hb hab
          · rw [List.mem_singleton] at hb
            exact absurd (hb ▸ hab) (hcoarse a ha)
          · rw [List.mem_singleton] at ha
            exact absurd (ha ▸ hab).symm (hcoarse b hb)
          · rw [List.mem_singleton] at ha hb
            rw [ha, hb]
        rw [hcreated, hcreated', keep_of_created hcreated, keep_of_created hcreated', ih _ hnext,
          List.append_assoc, List.singleton_append]
        exact and_iff_right rfl
      · push Not at hcoarse
        obtain ⟨y, hy, hxy⟩ := hcoarse
        have hfound : verdict coarse agrees kept x ≠ .created :=
          fun h => verdict_eq_created_iff.mp h y hy hxy
        by_cases hsame : fine y = fine x
        · -- found under both keys
          have hboth : Coincide fine coarse (kept ++ [x]) :=
            (coincide_cons_iff hfine hy hsame).mpr (by rwa [List.append_nil])
          have heq : verdict fine agrees kept x = verdict coarse agrees kept x :=
            verdict_eq_of_coincide hfine hboth
          rw [heq, keep_of_not_created hfound, keep_of_not_created (heq ▸ hfound), ih _ hkept,
            coincide_cons_iff hfine hy hsame]
          exact and_iff_right rfl
        · -- new under the finer key only
          have hcreated : verdict fine agrees kept x = .created := by
            refine verdict_eq_created_iff.mpr fun z hz hzx => hsame ?_
            rw [hkept y hy z hz (hxy.trans (hfine _ _ hzx).symm), hzx]
          refine iff_of_false (fun h => hfound (h.1 ▸ hcreated)) fun h => hsame ?_
          exact h y (List.mem_append_left _ hy) x (List.mem_append_right _ List.mem_cons_self) hxy

/-- Two keys, one finer than the other, give the same verdicts exactly on the
sequences they do not tell apart. -/
theorem verdicts_eq_iff (hfine : ∀ x y, fine x = fine y → coarse x = coarse y) (xs : List α) :
    verdicts fine agrees [] xs = verdicts coarse agrees [] xs ↔ Coincide fine coarse xs :=
  verdicts_eq_iff_of_coincide hfine xs [] fun _ h => absurd h List.not_mem_nil

end Compare

end FirstCome
