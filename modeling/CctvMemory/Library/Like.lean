import Mathlib.Data.List.Infix

/-!
# Patterns with wildcards

A pattern is a list of pieces: any run of characters, any one character, or a
given one. `Like` says which texts it describes. A pattern between two runs
describes the texts in which it occurs (`like_between_iff`).
-/

namespace Patterns

variable {α : Type*}

inductive Piece (α : Type*) where
  | run
  | one
  | lit (a : α)
deriving DecidableEq, Repr

/-- The texts a pattern describes; `same` compares a given character. -/
inductive Like (same : α → α → Prop) : List (Piece α) → List α → Prop
  | nil : Like same [] []
  | run {ps : List (Piece α)} {text : List α} (skipped : List α) :
      Like same ps text → Like same (.run :: ps) (skipped ++ text)
  | one {ps : List (Piece α)} {text : List α} (c : α) :
      Like same ps text → Like same (.one :: ps) (c :: text)
  | lit {ps : List (Piece α)} {text : List α} {a c : α} :
      same a c → Like same ps text → Like same (.lit a :: ps) (c :: text)

/-- Somewhere in the text is a part that the pattern describes. -/
def Occurs (same : α → α → Prop) (ps : List (Piece α)) (text : List α) : Prop :=
  ∃ front part back, text = front ++ part ++ back ∧ Like same ps part

variable {same : α → α → Prop} {ps qs : List (Piece α)} {text : List α}

theorem like_nil_iff : Like same [] text ↔ text = [] := by
  constructor
  · intro h
    cases h
    rfl
  · rintro rfl
    exact .nil

theorem like_run_iff : Like same (.run :: ps) text ↔ ∃ rest, rest <:+ text ∧ Like same ps rest := by
  constructor
  · intro h
    cases h with
    | run skipped h => exact ⟨_, List.suffix_append skipped _, h⟩
  · rintro ⟨rest, ⟨skipped, rfl⟩, h⟩
    exact .run skipped h

theorem like_one_iff : Like same (.one :: ps) text ↔ ∃ c rest, text = c :: rest ∧ Like same ps rest := by
  constructor
  · intro h
    cases h with
    | one c h => exact ⟨c, _, rfl, h⟩
  · rintro ⟨c, rest, rfl, h⟩
    exact .one c h

theorem like_lit_iff {a : α} :
    Like same (.lit a :: ps) text ↔ ∃ c rest, text = c :: rest ∧ same a c ∧ Like same ps rest := by
  constructor
  · intro h
    cases h with
    | lit hsame h => exact ⟨_, _, rfl, hsame, h⟩
  · rintro ⟨c, rest, rfl, hsame, h⟩
    exact .lit hsame h

theorem like_append_iff :
    Like same (ps ++ qs) text ↔
      ∃ front back, text = front ++ back ∧ Like same ps front ∧ Like same qs back := by
  constructor
  · intro h
    induction ps generalizing text with
    | nil => exact ⟨[], text, rfl, .nil, h⟩
    | cons p ps ih =>
        rw [List.cons_append] at h
        cases h with
        | run skipped h =>
            obtain ⟨front, back, rfl, hfront, hback⟩ := ih h
            exact ⟨skipped ++ front, back, by rw [List.append_assoc], .run skipped hfront, hback⟩
        | one c h =>
            obtain ⟨front, back, rfl, hfront, hback⟩ := ih h
            exact ⟨c :: front, back, rfl, .one c hfront, hback⟩
        | lit hsame h =>
            obtain ⟨front, back, rfl, hfront, hback⟩ := ih h
            exact ⟨_ :: front, back, rfl, .lit hsame hfront, hback⟩
  · rintro ⟨front, back, rfl, hfront, hback⟩
    induction hfront with
    | nil => exact hback
    | run skipped _ ih =>
        rw [List.append_assoc]
        exact .run skipped ih
    | one c _ ih => exact .one c ih
    | lit hsame _ ih => exact .lit hsame ih

/-- Between two runs a pattern describes the texts it occurs in. -/
theorem like_between_iff : Like same (.run :: (ps ++ [.run])) text ↔ Occurs same ps text := by
  rw [like_run_iff]
  constructor
  · rintro ⟨rest, ⟨front, rfl⟩, h⟩
    obtain ⟨part, back, rfl, hpart, -⟩ := like_append_iff.mp h
    exact ⟨front, part, back, by rw [List.append_assoc], hpart⟩
  · rintro ⟨front, part, back, rfl, hpart⟩
    refine ⟨part ++ back, ⟨front, by rw [List.append_assoc]⟩, ?_⟩
    have hrest : Like same [.run] back := by simpa using Like.run back Like.nil
    exact like_append_iff.mpr ⟨part, back, rfl, hpart, hrest⟩

/-- A given character of the pattern stands in the text. -/
theorem Like.exists_same {a : α} (h : Like same ps text) (ha : .lit a ∈ ps) :
    ∃ c ∈ text, same a c := by
  induction h with
  | nil => cases ha
  | run skipped _ ih =>
      rcases List.mem_cons.mp ha with heq | ha
      · cases heq
      · obtain ⟨c, hc, hsame⟩ := ih ha
        exact ⟨c, List.mem_append_right skipped hc, hsame⟩
  | one d _ ih =>
      rcases List.mem_cons.mp ha with heq | ha
      · cases heq
      · obtain ⟨c, hc, hsame⟩ := ih ha
        exact ⟨c, List.mem_cons_of_mem d hc, hsame⟩
  | @lit _ _ _ c hsame _ ih =>
      rcases List.mem_cons.mp ha with heq | ha
      · cases heq
        exact ⟨c, List.mem_cons_self, hsame⟩
      · obtain ⟨d, hd, hsame⟩ := ih ha
        exact ⟨d, List.mem_cons_of_mem c hd, hsame⟩

end Patterns
