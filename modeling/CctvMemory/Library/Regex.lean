import Mathlib.Data.List.Basic

/-!
# Regular expressions with backtracking

Patterns of character classes, sequences, greedy repetitions and one look behind. `run`
lists the ends of all matches at a place, in the order in which a backtracking matcher
tries them; its first is the match. `sub` replaces the matches from left to right.

* `mem_run_iff`: what is tried is what the pattern matches.
* `subbed_sub`: the pieces of a text that are kept, and those that are replaced.
-/

namespace Regex

variable {α : Type}

/-! ## Patterns -/

/-- A place in a text: the character before it, and what is behind. -/
structure Place (α : Type) where
  prev : Option α
  rest : List α

inductive Pattern (α : Type) where
  /-- One character of a class. -/
  | cls (p : α → Bool)
  | seq (a b : Pattern α)
  /-- As often as possible, `least` times or more and `most` times at most. -/
  | greedy (a : Pattern α) (least : ℕ) (most : Option ℕ)
  /-- No character of the class stands before. -/
  | notBehind (p : α → Bool)

namespace Pattern

def plus (a : Pattern α) : Pattern α := .greedy a 1 none

/-- These characters, one behind the other. -/
def literal [DecidableEq α] : α → List α → Pattern α
  | c, [] => .cls fun d => decide (d = c)
  | c, d :: w => .seq (.cls fun d => decide (d = c)) (literal d w)

end Pattern

/-! ## Matching -/

/-- The ends of repeated steps, those with more steps first. -/
def rep (step : Place α → List (Place α)) : ℕ → ℕ → Option ℕ → Place α → List (Place α)
  | 0, least, _, s => if least = 0 then [s] else []
  | fuel + 1, least, most, s =>
      (if most = some 0 then []
        else (step s).flatMap (rep step fuel (least - 1) (most.map (· - 1))))
      ++ if least = 0 then [s] else []

/-- The ends of the matches that begin at a place. -/
def run : Pattern α → Place α → List (Place α)
  | .cls p, s =>
      match s.rest with
      | [] => []
      | c :: t => if p c then [⟨some c, t⟩] else []
  | .seq a b, s => (run a s).flatMap (run b)
  | .greedy a least most, s => rep (run a) s.rest.length least most s
  | .notBehind p, s => if s.prev.any p then [] else [s]

/-- There is a match at or behind a place. -/
def search (a : Pattern α) : Option α → List α → Bool
  | prev, [] => !(run a ⟨prev, []⟩).isEmpty
  | prev, c :: t => !(run a ⟨prev, c :: t⟩).isEmpty || search a (some c) t

/-- The text behind a place with its matches replaced, for a pattern that does not match
the empty text. -/
def subFrom (a : Pattern α) (f : List α → List α) : ℕ → Option α → List α → List α
  | 0, _, text => text
  | _ + 1, _, [] => []
  | fuel + 1, prev, c :: t =>
      match (run a ⟨prev, c :: t⟩).head? with
      | none => c :: subFrom a f fuel (some c) t
      | some s => f ((c :: t).take ((c :: t).length - s.rest.length))
          ++ subFrom a f fuel s.prev s.rest

def sub (a : Pattern α) (f : List α → List α) (text : List α) : List α :=
  subFrom a f text.length none text

/-! ## What a pattern matches -/

/-- The character before the place that is reached behind `m`. -/
def after (prev : Option α) (m : List α) : Option α := m.getLast?.or prev

@[simp] theorem after_nil (prev : Option α) : after prev [] = prev := rfl

theorem after_append (prev : Option α) (m n : List α) :
    after prev (m ++ n) = after (after prev m) n := by
  unfold after
  rw [List.getLast?_append, Option.or_assoc]

theorem after_cons (prev : Option α) (c : α) (m : List α) :
    after prev (c :: m) = after (some c) m := after_append prev [c] m

/-- Matches one behind the other, `least` of them or more and `most` at most. -/
inductive Repeats (M : Option α → List α → Prop) :
    ℕ → Option ℕ → Option α → List α → Prop where
  | stop {most : Option ℕ} {prev : Option α} : Repeats M 0 most prev []
  | again {least : ℕ} {most : Option ℕ} {prev : Option α} {m n : List α} : most ≠ some 0 →
      M prev m → Repeats M (least - 1) (most.map (· - 1)) (after prev m) n →
      Repeats M least most prev (m ++ n)

/-- A pattern matches a text behind a character. -/
def Matches : Pattern α → Option α → List α → Prop
  | .cls p, _, m => ∃ c, p c = true ∧ m = [c]
  | .seq a b, prev, m => ∃ u v, m = u ++ v ∧ Matches a prev u ∧ Matches b (after prev u) v
  | .greedy a least most, prev, m => Repeats (Matches a) least most prev m
  | .notBehind p, prev, m => (∀ c ∈ prev, p c = false) ∧ m = []

/-- Nothing empty is repeated. -/
def Proper : Pattern α → Prop
  | .cls _ => True
  | .seq a b => Proper a ∧ Proper b
  | .greedy a _ _ => Proper a ∧ ∀ prev, ¬ Matches a prev []
  | .notBehind _ => True

section Enumeration

variable {step : Place α → List (Place α)} {M : Option α → List α → Prop}

/-- Every end that is tried is that of a match. -/
theorem repeats_of_mem_rep
    (hstep : ∀ s s', s' ∈ step s → ∃ m, s.rest = m ++ s'.rest ∧ s'.prev = after s.prev m ∧
      M s.prev m) :
    ∀ (fuel least : ℕ) (most : Option ℕ) (s s' : Place α), s' ∈ rep step fuel least most s →
      ∃ m, s.rest = m ++ s'.rest ∧ s'.prev = after s.prev m ∧ Repeats M least most s.prev m := by
  have hstop : ∀ (least : ℕ) (most : Option ℕ) (s s' : Place α),
      s' ∈ (if least = 0 then [s] else []) → ∃ m, s.rest = m ++ s'.rest ∧
        s'.prev = after s.prev m ∧ Repeats M least most s.prev m := by
    intro least most s s' h
    split at h
    · rename_i hleast
      rw [List.mem_singleton.mp h, hleast]
      exact ⟨[], rfl, rfl, .stop⟩
    · cases h
  intro fuel
  induction fuel with
  | zero => exact fun least most s s' h => hstop least most s s' h
  | succ fuel ih =>
      intro least most s s' h
      rw [rep, List.mem_append] at h
      rcases h with h | h
      · split at h
        · cases h
        · rename_i hmost
          obtain ⟨s₁, hs₁, h⟩ := List.mem_flatMap.mp h
          obtain ⟨m, hm, hprev, hM⟩ := hstep s s₁ hs₁
          obtain ⟨n, hn, hprev', hrest⟩ := ih _ _ s₁ s' h
          refine ⟨m ++ n, ?_, ?_, .again hmost hM ?_⟩
          · rw [hm, hn, List.append_assoc]
          · rw [after_append, ← hprev, hprev']
          · rw [← hprev]
            exact hrest
      · exact hstop least most s s' h

/-- Every match is tried: each step reads a character, so the fuel lasts. -/
theorem mem_rep_of_repeats (hempty : ∀ prev, ¬ M prev [])
    (hstep : ∀ prev m t, M prev m → ⟨after prev m, t⟩ ∈ step ⟨prev, m ++ t⟩)
    {least : ℕ} {most : Option ℕ} {prev : Option α} {m : List α}
    (h : Repeats M least most prev m) (t : List α) :
    ∀ fuel, m.length ≤ fuel →
      ⟨after prev m, t⟩ ∈ rep step fuel least most ⟨prev, m ++ t⟩ := by
  induction h with
  | stop =>
      intro fuel _
      cases fuel with
      | zero => exact List.mem_singleton_self _
      | succ fuel => exact List.mem_append_right _ (List.mem_singleton_self _)
  | again hmost hM hrest ih =>
      rename_i least most prev m n
      intro fuel hfuel
      have hm : 0 < m.length := by
        refine List.length_pos_iff.mpr ?_
        rintro rfl
        exact hempty _ hM
      rw [List.length_append] at hfuel
      obtain ⟨fuel, rfl⟩ : ∃ k, fuel = k + 1 := ⟨fuel - 1, by omega⟩
      rw [rep, if_neg hmost, after_append, List.append_assoc]
      refine List.mem_append_left _ (List.mem_flatMap.mpr ⟨_, hstep prev m (n ++ t) hM, ?_⟩)
      exact ih fuel (by omega)

end Enumeration

theorem run_cls_cons (p : α → Bool) (prev : Option α) (c : α) (t : List α) :
    run (.cls p) ⟨prev, c :: t⟩ = if p c then [⟨some c, t⟩] else [] := by rw [run]

/-- What is tried at a place. -/
theorem mem_run_iff : ∀ {a : Pattern α}, Proper a → ∀ (s s' : Place α),
    s' ∈ run a s ↔ ∃ m, s.rest = m ++ s'.rest ∧ s'.prev = after s.prev m ∧ Matches a s.prev m
  | .cls p, _, ⟨prev, text⟩, ⟨prev', t⟩ => by
      constructor
      · intro h
        cases text with
        | nil =>
            rw [run] at h
            cases h
        | cons c text =>
            rw [run_cls_cons] at h
            by_cases hc : p c = true
            · rw [if_pos hc] at h
              cases List.mem_singleton.mp h
              exact ⟨[c], rfl, rfl, c, hc, rfl⟩
            · rw [if_neg hc] at h
              cases h
      · rintro ⟨m, htext, hprev, c, hc, rfl⟩
        obtain rfl : text = c :: t := htext
        obtain rfl : prev' = some c := hprev
        rw [run_cls_cons, if_pos hc]
        exact List.mem_singleton_self _
  | .seq a b, ⟨ha, hb⟩, s, s' => by
      rw [run, List.mem_flatMap]
      constructor
      · rintro ⟨s₁, hs₁, hs'⟩
        obtain ⟨u, hu, hprev, hmatch⟩ := (mem_run_iff ha s s₁).mp hs₁
        obtain ⟨v, hv, hprev', hmatch'⟩ := (mem_run_iff hb s₁ s').mp hs'
        refine ⟨u ++ v, ?_, ?_, u, v, rfl, hmatch, ?_⟩
        · rw [hu, hv, List.append_assoc]
        · rw [after_append, ← hprev, hprev']
        · rw [← hprev]
          exact hmatch'
      · rintro ⟨m, hm, hprev, u, v, rfl, hu, hv⟩
        refine ⟨⟨after s.prev u, v ++ s'.rest⟩, ?_, ?_⟩
        · refine (mem_run_iff ha _ _).mpr ⟨u, ?_, rfl, hu⟩
          rw [hm, List.append_assoc]
        · refine (mem_run_iff hb _ _).mpr ⟨v, rfl, ?_, hv⟩
          rw [hprev, after_append]
  | .greedy a least most, ⟨ha, hempty⟩, ⟨prev, text⟩, ⟨prev', t⟩ => by
      rw [run]
      constructor
      · exact repeats_of_mem_rep (fun s s' h => (mem_run_iff ha s s').mp h) _ _ _ _ _
      · rintro ⟨m, htext, hprev, h⟩
        obtain rfl : text = m ++ t := htext
        obtain rfl : prev' = after prev m := hprev
        refine mem_rep_of_repeats hempty (fun prev m t hm => ?_) h t _ ?_
        · exact (mem_run_iff ha _ _).mpr ⟨m, rfl, rfl, hm⟩
        · exact (List.length_append ..).symm ▸ Nat.le_add_right _ _
  | .notBehind p, _, ⟨prev, text⟩, ⟨prev', t⟩ => by
      rw [run]
      constructor
      · intro h
        split at h
        · cases h
        · rename_i hp
          cases List.mem_singleton.mp h
          refine ⟨[], rfl, rfl, fun c hc => ?_, rfl⟩
          cases hc
          exact Bool.eq_false_iff.mpr hp
      · rintro ⟨m, htext, hprev, hp, rfl⟩
        have hany : prev.any p = false := by
          cases prev with
          | none => rfl
          | some c => exact hp c rfl
        obtain rfl : t = text := htext.symm
        obtain rfl : prev' = prev := hprev
        rw [if_neg (Bool.eq_false_iff.mp hany)]
        exact List.mem_singleton_self _

/-- Nothing is tried where nothing matches. -/
theorem run_ne_nil_iff {a : Pattern α} (ha : Proper a) {prev : Option α} {text : List α} :
    run a ⟨prev, text⟩ ≠ [] ↔ ∃ m t, text = m ++ t ∧ Matches a prev m := by
  constructor
  · intro hne
    obtain ⟨s, hs⟩ := List.exists_mem_of_ne_nil _ hne
    obtain ⟨m, hm, -, hmatch⟩ := (mem_run_iff ha _ _).mp hs
    exact ⟨m, s.rest, hm, hmatch⟩
  · rintro ⟨m, t, rfl, hmatch⟩
    exact List.ne_nil_of_mem
      ((mem_run_iff ha _ ⟨after prev m, t⟩).mpr ⟨m, rfl, rfl, hmatch⟩)

/-- A search finds what begins somewhere. -/
theorem search_iff {a : Pattern α} : ∀ {text : List α} {prev : Option α},
    search a prev text = true ↔ ∃ u t, text = u ++ t ∧ run a ⟨after prev u, t⟩ ≠ []
  | [], prev => by
      rw [search, Bool.not_eq_true', List.isEmpty_eq_false_iff]
      constructor
      · exact fun h => ⟨[], [], rfl, h⟩
      · rintro ⟨u, t, htext, h⟩
        obtain ⟨rfl, rfl⟩ := List.append_eq_nil_iff.mp htext.symm
        exact h
  | c :: text, prev => by
      rw [search, Bool.or_eq_true, Bool.not_eq_true', List.isEmpty_eq_false_iff, search_iff]
      constructor
      · rintro (h | ⟨u, t, rfl, h⟩)
        · exact ⟨[], c :: text, rfl, h⟩
        · exact ⟨c :: u, t, rfl, by rw [after_cons]; exact h⟩
      · rintro ⟨u, t, htext, h⟩
        cases u with
        | nil =>
            obtain rfl : c :: text = t := htext
            exact Or.inl h
        | cons d u =>
            obtain ⟨rfl, rfl⟩ := List.cons.inj htext
            rw [after_cons] at h
            exact Or.inr ⟨u, t, rfl, h⟩

/-! ## Classes, their repetitions, and literals -/

section Classes

variable {p : α → Bool} {prev : Option α} {m : List α}

theorem matches_greedy_cls {least : ℕ} {most : Option ℕ} :
    Matches (.greedy (.cls p) least most) prev m ↔
      least ≤ m.length ∧ (∀ k ∈ most, m.length ≤ k) ∧ ∀ c ∈ m, p c = true := by
  constructor
  · intro h
    induction h with
    | stop => exact ⟨Nat.le_refl 0, fun _ _ => Nat.zero_le _, List.forall_mem_nil _⟩
    | again hmost hc _ ih =>
        rename_i least most prev m n
        obtain ⟨c, hc, rfl⟩ := hc
        obtain ⟨hleast, hbound, hall⟩ := ih
        refine ⟨?_, ?_, ?_⟩
        · rw [List.length_append, List.length_singleton]
          omega
        · rintro k rfl
          have hk : k ≠ 0 := fun hzero => hmost (congrArg some hzero)
          have := hbound (k - 1) rfl
          rw [List.length_append, List.length_singleton]
          omega
        · intro d hd
          rcases List.mem_cons.mp hd with rfl | hd
          · exact hc
          · exact hall d hd
  · rintro ⟨hleast, hbound, hall⟩
    show Repeats (Matches (.cls p)) least most prev m
    induction m generalizing least most prev with
    | nil =>
        obtain rfl : least = 0 := Nat.le_zero.mp hleast
        exact .stop
    | cons c m ih =>
        have hmost : most ≠ some 0 := by
          rintro rfl
          exact absurd (hbound 0 rfl) (Nat.not_succ_le_zero _)
        refine .again (m := [c]) hmost ⟨c, hall c List.mem_cons_self, rfl⟩ (ih ?_ ?_ ?_)
        · rw [List.length_cons] at hleast
          omega
        · intro k hk
          obtain ⟨j, hj, rfl⟩ := Option.map_eq_some_iff.mp hk
          have := hbound j hj
          rw [List.length_cons] at this
          omega
        · exact fun d hd => hall d (List.mem_cons_of_mem _ hd)

theorem matches_plus_cls : Matches (.plus (.cls p)) prev m ↔ m ≠ [] ∧ ∀ c ∈ m, p c = true := by
  unfold Pattern.plus
  rw [matches_greedy_cls, ← List.length_pos_iff]
  exact ⟨fun h => ⟨h.1, h.2.2⟩, fun h => ⟨h.1, nofun, h.2⟩⟩

theorem matches_literal [DecidableEq α] {w : List α} {c : α} :
    Matches (.literal c w) prev m ↔ m = c :: w := by
  induction w generalizing c prev m with
  | nil =>
      constructor
      · rintro ⟨d, hd, rfl⟩
        rw [of_decide_eq_true hd]
      · rintro rfl
        exact ⟨c, decide_eq_true rfl, rfl⟩
  | cons d w ih =>
      constructor
      · rintro ⟨u, v, rfl, ⟨e, he, rfl⟩, hv⟩
        rw [ih.mp hv, of_decide_eq_true he]
        rfl
      · rintro rfl
        exact ⟨[c], d :: w, rfl, ⟨c, decide_eq_true rfl, rfl⟩, ih.mpr rfl⟩

theorem proper_greedy_cls {least : ℕ} {most : Option ℕ} : Proper (.greedy (.cls p) least most) :=
  ⟨trivial, fun _ ⟨_, _, h⟩ => by cases h⟩

theorem proper_literal [DecidableEq α] : ∀ {c : α} {w : List α}, Proper (.literal c w)
  | _, [] => trivial
  | _, _ :: _ => ⟨trivial, proper_literal⟩

/-- The first end that is tried is that of the longest match. -/
theorem head?_rep_cls {fuel least : ℕ} {text : List α} (hfuel : text.length ≤ fuel)
    (hleast : least ≤ (text.takeWhile p).length) :
    (rep (run (.cls p)) fuel least none ⟨prev, text⟩).head?
      = some ⟨after prev (text.takeWhile p), text.dropWhile p⟩ := by
  induction text generalizing fuel least prev with
  | nil =>
      obtain rfl : least = 0 := Nat.le_zero.mp hleast
      cases fuel with
      | zero => rfl
      | succ fuel =>
          rw [rep, run]
          rfl
  | cons c text ih =>
      obtain ⟨fuel, rfl⟩ : ∃ k, fuel = k + 1 :=
        ⟨fuel - 1, by rw [List.length_cons] at hfuel; omega⟩
      rw [rep, run_cls_cons, if_neg (by simp)]
      by_cases hc : p c = true
      · rw [List.takeWhile_cons_of_pos hc] at hleast ⊢
        rw [List.dropWhile_cons_of_pos hc, if_pos hc, List.flatMap_singleton, after_cons]
        rw [List.length_cons] at hfuel hleast
        rw [List.head?_append, Option.map_none, ih (by omega) (by omega), Option.some_or]
      · rw [List.takeWhile_cons_of_neg hc] at hleast ⊢
        obtain rfl : least = 0 := Nat.le_zero.mp hleast
        rw [List.dropWhile_cons_of_neg hc, if_neg hc]
        rfl

end Classes

/-! ## Kept and replaced pieces -/

/-- The pieces of a text: a character is kept where nothing matches, and a match is
replaced. -/
inductive Subbed (a : Pattern α) (f : List α → List α) :
    Option α → List α → List α → Prop where
  | done {prev : Option α} : Subbed a f prev [] []
  | keep {prev : Option α} {c : α} {t out : List α} : run a ⟨prev, c :: t⟩ = [] →
      Subbed a f (some c) t out → Subbed a f prev (c :: t) (c :: out)
  | replace {prev : Option α} {m t out : List α} : m ≠ [] → Matches a prev m →
      (run a ⟨prev, m ++ t⟩).head? = some ⟨after prev m, t⟩ →
      Subbed a f (after prev m) t out → Subbed a f prev (m ++ t) (f m ++ out)

theorem subbed_subFrom {a : Pattern α} (ha : Proper a) (hempty : ∀ prev, ¬ Matches a prev [])
    (f : List α → List α) : ∀ (fuel : ℕ) (prev : Option α) (text : List α),
      text.length ≤ fuel → Subbed a f prev text (subFrom a f fuel prev text)
  | 0, _, text, h => by
      obtain rfl : text = [] := List.length_eq_zero_iff.mp (Nat.le_zero.mp h)
      exact .done
  | _ + 1, _, [], _ => .done
  | fuel + 1, prev, c :: t, h => by
      rw [List.length_cons] at h
      rw [subFrom]
      cases hrun : (run a ⟨prev, c :: t⟩).head? with
      | none =>
          exact .keep (List.head?_eq_none_iff.mp hrun)
            (subbed_subFrom ha hempty f fuel (some c) t (by omega))
      | some s =>
          obtain ⟨m, hm, hprev, hmatch⟩ := (mem_run_iff ha _ _).mp (List.mem_of_head? hrun)
          obtain ⟨prev', rest⟩ := s
          obtain rfl : prev' = after prev m := hprev
          have htext : c :: t = m ++ rest := hm
          have hne : m ≠ [] := by
            rintro rfl
            exact hempty prev hmatch
          have htake : (c :: t).take ((c :: t).length - rest.length) = m := by
            rw [htext, List.length_append, Nat.add_sub_cancel, List.take_left]
          have hlength : (c :: t).length = m.length + rest.length := by
            rw [htext, List.length_append]
          have hpos := List.length_pos_iff.mpr hne
          rw [List.length_cons] at hlength
          have hrest := subbed_subFrom ha hempty f fuel (after prev m) rest (by omega)
          show Subbed a f prev (c :: t) (f ((c :: t).take ((c :: t).length - rest.length)) ++ _)
          rw [htake]
          rw [htext] at hrun ⊢
          exact .replace hne hmatch hrun hrest

theorem subbed_sub {a : Pattern α} (ha : Proper a) (hempty : ∀ prev, ¬ Matches a prev [])
    (f : List α → List α) (text : List α) : Subbed a f none text (sub a f text) :=
  subbed_subFrom ha hempty f _ none text (Nat.le_refl _)

end Regex
