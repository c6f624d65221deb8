import CctvMemory.Library.Regex
import CctvMemory.Worker.ModelOutput

/-!
# Redacted texts

`_sanitize_string` of the timeline recorder: data URLs, long base64 runs and file paths
are replaced one after the other, then the text is cut at 500 characters. Each kind of
replacement is in angle brackets, which none of the three patterns runs across, so what
is left of a kind stays away. Only the cut can complete a path again.

* `clean_redact`: what the three replacements leave.
* `leaks_sanitizeString_iff`: when the text that is recorded matches a pattern.
-/

namespace CctvMemory.Worker.Timeline

open CctvMemory.Worker.ModelOutput (isspace)
open Regex

/-! ## Patterns -/

/-- Neither white space nor a quote. -/
def urlChar (c : Char) : Bool := !isspace c && decide (c.toNat ∉ [39, 34])

def base64Char (c : Char) : Bool := c.isAlphanum || decide (c = '+' ∨ c = '/')

def base64Tail (c : Char) : Bool := base64Char c || decide (c = '=')

/-- Neither white space nor a quote, an angle bracket or a colon. -/
def pathChar (c : Char) : Bool := !isspace c && decide (c.toNat ∉ [39, 34, 60, 62, 58])

def isSlash (c : Char) : Bool := decide (c = '/')

/-- `_DATA_URL_RE`. -/
def dataUrl : Pattern Char :=
  .seq (.literal 'd' ['a', 't', 'a', ':']) (.seq (.plus (.cls urlChar))
    (.seq (.literal ';' ['b', 'a', 's', 'e', '6', '4', ',']) (.plus (.cls base64Tail))))

/-- `_LONG_BASE64_RE`. -/
def longBase64 : Pattern Char :=
  .seq (.notBehind base64Char) (.seq (.greedy (.cls base64Char) 120 none)
    (.greedy (.cls fun c => decide (c = '=')) 0 (some 2)))

/-- `_UNIX_PATH_RE`. -/
def unixPath : Pattern Char :=
  .seq (.cls isSlash) (.seq (.plus (.seq (.plus (.cls pathChar)) (.cls isSlash)))
    (.plus (.cls pathChar)))

/-- One of the patterns is found. -/
def Leaks (text : List Char) : Prop :=
  search dataUrl none text = true ∨ search longBase64 none text = true ∨
    search unixPath none text = true

instance (text : List Char) : Decidable (Leaks text) :=
  inferInstanceAs (Decidable (_ ∨ _ ∨ _))

/-! ## Replacements -/

/-- The name at the end of a path, without the marks that may follow it in a sentence. -/
def pathName (path : List Char) : List Char :=
  (path.rdropWhile fun c => decide (c ∈ [')', '.', ',', ';', ']'])).rtakeWhile fun c => !isSlash c

/-- `_path_repl`. -/
def pathRepl (path : List Char) : List Char :=
  "<path:".toList
    ++ (if pathName path = [] then "redacted".toList else pathName path) ++ ['>']

def redact (value : List Char) : List Char :=
  sub unixPath pathRepl
    (sub longBase64 (fun _ => "<redacted-base64>".toList)
      (sub dataUrl (fun _ => "<redacted-data-url>".toList) value))

/-- `_sanitize_string`. -/
def sanitizeString (value : List Char) : List Char :=
  if 500 < (redact value).length then (redact value).take 500 ++ "...<truncated>".toList
  else redact value

/-! ## Places -/

section Places

variable {H : List Char → Prop} {u v w s : List Char} {z : Char}

/-- A place with `H`. -/
def Somewhere (H : List Char → Prop) (text : List Char) : Prop := ∃ u s, text = u ++ s ∧ H s

theorem Somewhere.append (h : Somewhere H s) (u : List Char) : Somewhere H (u ++ s) := by
  obtain ⟨v, w, rfl, hw⟩ := h
  exact ⟨u ++ v, w, (List.append_assoc ..).symm, hw⟩

theorem somewhere_cons : Somewhere H (z :: s) ↔ H (z :: s) ∨ Somewhere H s := by
  constructor
  · rintro ⟨u, v, hs, hv⟩
    cases u with
    | nil =>
        obtain rfl : z :: s = v := hs
        exact Or.inl hv
    | cons c u =>
        obtain ⟨-, rfl⟩ := List.cons.inj hs
        exact Or.inr ⟨u, v, rfl, hv⟩
  · rintro (h | h)
    · exact ⟨[], z :: s, rfl, h⟩
    · exact h.append [z]

/-- A place in the first part, or in the second. -/
theorem somewhere_append : Somewhere H (u ++ s) →
    (∃ v w, u = v ++ w ∧ w ≠ [] ∧ H (w ++ s)) ∨ Somewhere H s := by
  induction u with
  | nil => exact Or.inr
  | cons c u ih =>
      intro h
      rcases somewhere_cons.mp h with h | h
      · exact Or.inl ⟨[], c :: u, rfl, List.cons_ne_nil _ _, h⟩
      · rcases ih h with ⟨v, w, rfl, hw, hH⟩ | h
        · exact Or.inl ⟨c :: v, w, rfl, hw, hH⟩
        · exact Or.inr h

/-- A word without `z` stands before it or behind it. -/
theorem apart_of_not_mem {a b : List Char} (hz : z ∉ w) (h : u ++ z :: v = a ++ w ++ b) :
    (∃ c, u = a ++ w ++ c ∧ b = c ++ z :: v) ∨ ∃ c, a = u ++ z :: c ∧ v = c ++ w ++ b := by
  rcases List.append_eq_append_iff.mp h with ⟨c, hc, hv⟩ | ⟨c, hc, hb⟩
  · cases c with
    | nil =>
        rw [List.append_nil] at hc
        exact Or.inl ⟨[], by rw [List.append_nil, hc], hv.symm⟩
    | cons d c =>
        obtain ⟨rfl, hv⟩ := List.cons.inj hv
        rcases List.append_eq_append_iff.mp hc with ⟨e, he, hw⟩ | ⟨e, he, hw⟩
        · refine absurd ?_ hz
          rw [hw]
          exact List.mem_append_right _ List.mem_cons_self
        · cases e with
          | nil =>
              refine absurd ?_ hz
              rw [← List.nil_append w, ← hw]
              exact List.mem_cons_self
          | cons f e =>
              obtain ⟨rfl, rfl⟩ := List.cons.inj hw
              exact Or.inr ⟨e, he, (List.cons.inj hv).2⟩
  · exact Or.inl ⟨c, hc, hb⟩

end Places

/-! ## Characters -/

section Characters

variable {c : Char}

theorem not_isspace_of_graphic (h : 33 ≤ c.toNat ∧ c.toNat ≤ 126) : isspace c = false := by
  unfold isspace
  rw [Bool.or_eq_false_iff, decide_eq_false_iff_not, decide_eq_false_iff_not]
  simp only [List.mem_cons, List.not_mem_nil, or_false]
  omega

theorem graphic_of_base64Tail (h : base64Tail c = true) :
    33 ≤ c.toNat ∧ c.toNat ≤ 126 ∧ c.toNat ∉ [34, 39, 44, 46, 58, 59, 60, 62] := by
  simp only [base64Tail, base64Char, Bool.or_eq_true, JsonText.isAlphanum_iff,
    decide_eq_true_eq] at h
  simp only [List.mem_cons, List.not_mem_nil, or_false]
  rcases h with (h | rfl | rfl) | rfl
  · omega
  · decide
  · decide
  · decide

theorem base64Tail_of_base64Char (h : base64Char c = true) : base64Tail c = true := by
  unfold base64Tail
  rw [h]
  rfl

theorem urlChar_of_base64Tail (h : base64Tail c = true) : urlChar c = true := by
  obtain ⟨hlow, hhigh, hother⟩ := graphic_of_base64Tail h
  unfold urlChar
  rw [not_isspace_of_graphic ⟨hlow, hhigh⟩]
  simp only [List.mem_cons, List.not_mem_nil, or_false] at hother ⊢
  exact decide_eq_true (by omega)

theorem urlChar_of_pathChar (h : pathChar c = true) : urlChar c = true := by
  unfold pathChar at h
  unfold urlChar
  rw [Bool.and_eq_true, decide_eq_true_eq] at h ⊢
  refine ⟨h.1, fun hmem => h.2 ?_⟩
  simp only [List.mem_cons, List.not_mem_nil, or_false] at hmem ⊢
  omega

end Characters

/-! ## Data URLs -/

def scheme : List Char := ['d', 'a', 't', 'a', ':']

def marker : List Char := [';', 'b', 'a', 's', 'e', '6', '4', ',']

/-- Data begin in the run of characters at the front. -/
def Armed (text : List Char) : Prop :=
  ∃ u x v, text = u ++ marker ++ x :: v ∧ (∀ c ∈ u, urlChar c = true) ∧ base64Tail x = true

/-- A data URL begins here. -/
def DataHere (text : List Char) : Prop :=
  ∃ q rest, text = scheme ++ q :: rest ∧ urlChar q = true ∧ Armed rest

section Data

variable {text u v m : List Char} {z : Char} {prev : Option Char}

theorem matches_dataUrl : Matches dataUrl prev m ↔ ∃ mid tail,
    m = scheme ++ (mid ++ (marker ++ tail)) ∧ (mid ≠ [] ∧ ∀ c ∈ mid, urlChar c = true) ∧
      tail ≠ [] ∧ ∀ c ∈ tail, base64Tail c = true := by
  constructor
  · rintro ⟨a, b, rfl, ha, mid, d, rfl, hmid, w, tail, rfl, hw, htail⟩
    rw [matches_literal.mp ha, matches_literal.mp hw]
    exact ⟨mid, tail, rfl, matches_plus_cls.mp hmid, matches_plus_cls.mp htail⟩
  · rintro ⟨mid, tail, rfl, hmid, htail⟩
    exact ⟨scheme, _, rfl, matches_literal.mpr rfl, mid, _, rfl, matches_plus_cls.mpr hmid,
      marker, tail, rfl, matches_literal.mpr rfl, matches_plus_cls.mpr htail⟩

theorem proper_dataUrl : Proper dataUrl :=
  ⟨proper_literal, proper_greedy_cls, proper_literal, proper_greedy_cls⟩

theorem dataHere_iff : run dataUrl ⟨prev, text⟩ ≠ [] ↔ DataHere text := by
  rw [run_ne_nil_iff proper_dataUrl]
  constructor
  · rintro ⟨m, t, rfl, h⟩
    obtain ⟨mid, tail, rfl, ⟨hmid, hmid'⟩, htail, htail'⟩ := matches_dataUrl.mp h
    obtain ⟨q, mid, rfl⟩ := List.exists_cons_of_ne_nil hmid
    obtain ⟨x, tail, rfl⟩ := List.exists_cons_of_ne_nil htail
    refine ⟨q, mid ++ marker ++ x :: (tail ++ t), by simp, hmid' q List.mem_cons_self, ?_⟩
    exact ⟨mid, x, tail ++ t, rfl, fun c hc => hmid' c (List.mem_cons_of_mem _ hc),
      htail' x List.mem_cons_self⟩
  · rintro ⟨q, rest, rfl, hq, u, x, v, rfl, hu, hx⟩
    refine ⟨scheme ++ (q :: u ++ (marker ++ [x])), v, by simp, matches_dataUrl.mpr ?_⟩
    refine ⟨q :: u, [x], rfl, ⟨List.cons_ne_nil _ _, ?_⟩, List.cons_ne_nil _ _, ?_⟩
    · intro c hc
      rcases List.mem_cons.mp hc with rfl | hc
      · exact hq
      · exact hu c hc
    · intro c hc
      rw [List.mem_singleton.mp hc]
      exact hx

/-- No data begin across a character that is not part of any. -/
theorem Armed.split (h : Armed (u ++ z :: v)) (hmarker : z ∉ marker)
    (hz : base64Tail z = false) : Armed u ∨ Armed v := by
  obtain ⟨a, x, b, htext, ha, hx⟩ := h
  have hword : z ∉ marker ++ [x] := by
    rw [List.mem_append, List.mem_singleton, not_or]
    refine ⟨hmarker, ?_⟩
    rintro rfl
    rw [hx] at hz
    cases hz
  have hsplit : u ++ z :: v = a ++ (marker ++ [x]) ++ b := by
    rw [htext]
    simp
  rcases apart_of_not_mem hword hsplit with ⟨c, rfl, -⟩ | ⟨c, rfl, rfl⟩
  · exact Or.inl ⟨a, x, c, by simp, ha, hx⟩
  · refine Or.inr ⟨c, x, b, by simp, fun d hd => ha d ?_, hx⟩
    exact List.mem_append_right _ (List.mem_cons_of_mem _ hd)

theorem Armed.append_left (h : Armed v) (hu : ∀ c ∈ u, urlChar c = true) : Armed (u ++ v) := by
  obtain ⟨a, x, b, rfl, ha, hx⟩ := h
  refine ⟨u ++ a, x, b, by simp, fun c hc => ?_, hx⟩
  exact (List.mem_append.mp hc).elim (hu c) (ha c)

theorem Armed.append_right (h : Armed u) (v : List Char) : Armed (u ++ v) := by
  obtain ⟨a, x, b, rfl, ha, hx⟩ := h
  exact ⟨a, x, b ++ v, by simp, ha, hx⟩

/-- A part without a semicolon can be left out in front. -/
theorem Armed.of_append (h : Armed (u ++ v)) (hu : ';' ∉ u) : Armed v := by
  obtain ⟨a, x, b, htext, ha, hx⟩ := h
  rw [List.append_assoc] at htext
  rcases List.append_eq_append_iff.mp htext with ⟨c, hc, hv⟩ | ⟨c, hc, hb⟩
  · refine ⟨c, x, b, by rw [hv, List.append_assoc], fun d hd => ha d ?_, hx⟩
    rw [hc]
    exact List.mem_append_right _ hd
  · cases c with
    | nil => exact ⟨[], x, b, hb.symm, nofun, hx⟩
    | cons d c =>
        obtain ⟨rfl, -⟩ := List.cons.inj hb
        refine absurd ?_ hu
        rw [hc]
        exact List.mem_append_right _ List.mem_cons_self

/-- Brackets keep what is in them apart. -/
theorem Armed.bracket (h : Armed ('<' :: (u ++ ['>']) ++ v)) : Armed u ∨ Armed v := by
  have hbehind : Armed (u ++ '>' :: v) := by
    have hsplit : '<' :: (u ++ ['>']) ++ v = [] ++ '<' :: (u ++ '>' :: v) := by simp
    rw [hsplit] at h
    rcases h.split (by decide) (by decide) with hnil | h
    · obtain ⟨a, x, b, hnil, -, -⟩ := hnil
      simp at hnil
    · exact h
  exact hbehind.split (by decide) (by decide)

theorem not_armed (h : ';' ∉ u) : ¬ Armed u := by
  rintro ⟨a, x, b, rfl, -, -⟩
  exact h (by simp [marker])

end Data

/-! ## Long runs -/

/-- A long run of base64 characters begins here. -/
def RunHere (text : List Char) : Prop := 120 ≤ (text.takeWhile base64Char).length

section Run

variable {text u v : List Char} {z : Char}

/-- A run ends before a character that is not part of any. -/
theorem length_takeWhile_append_cons (hz : base64Char z = false) :
    ((u ++ z :: v).takeWhile base64Char) = u.takeWhile base64Char := by
  rw [List.takeWhile_append]
  split
  · rename_i hall
    rw [List.takeWhile_cons_of_neg (by rw [hz]; decide), List.append_nil]
    exact (List.takeWhile_prefix base64Char).eq_of_length hall |>.symm
  · rfl

theorem somewhere_run_split (h : Somewhere RunHere (u ++ z :: v)) (hz : base64Char z = false) :
    Somewhere RunHere u ∨ Somewhere RunHere v := by
  rcases somewhere_append h with ⟨a, w, rfl, -, hrun⟩ | hrun
  · refine Or.inl ⟨a, w, rfl, ?_⟩
    unfold RunHere at hrun ⊢
    rw [length_takeWhile_append_cons hz] at hrun
    exact hrun
  · rcases somewhere_cons.mp hrun with hrun | hrun
    · unfold RunHere at hrun
      rw [List.takeWhile_cons_of_neg (by rw [hz]; decide)] at hrun
      exact absurd hrun (by decide)
    · exact Or.inr hrun

theorem RunHere.append (h : RunHere u) (v : List Char) : RunHere (u ++ v) := by
  unfold RunHere at h ⊢
  refine le_trans h ?_
  rw [List.takeWhile_append]
  split
  · rename_i hall
    rw [List.length_append, hall]
    exact Nat.le_add_right _ _
  · exact le_refl _

theorem somewhere_run_append (h : Somewhere RunHere u) (v : List Char) :
    Somewhere RunHere (u ++ v) := by
  obtain ⟨a, w, rfl, hw⟩ := h
  exact ⟨a, w ++ v, List.append_assoc .., hw.append v⟩

theorem not_somewhere_run_of_length (h : text.length < 120) : ¬ Somewhere RunHere text := by
  rintro ⟨a, w, rfl, hw⟩
  have hle : (w.takeWhile base64Char).length ≤ w.length :=
    (List.takeWhile_sublist base64Char).length_le
  rw [List.length_append] at h
  unfold RunHere at hw
  omega

end Run

/-! ## Replacements -/

/-- What stands for `m` between the brackets. -/
structure Hides (m inner : List Char) : Prop where
  url : ∀ c ∈ m, urlChar c = true
  scheme : ∀ a b, '<' :: inner ≠ a ++ Timeline.scheme ++ b
  armed : Armed inner → Armed m.tail
  run : Somewhere RunHere inner → Somewhere RunHere m
  slash : '/' ∉ inner

section Transfer

variable {a : Pattern Char} {f : List Char → List Char} {prev : Option Char}
  {s out : List Char}

/-- A bracket begins with every replacement. -/
def Bracketed (a : Pattern Char) (f : List Char → List Char) : Prop :=
  ∀ prev m, m ≠ [] → Matches a prev m →
    ∃ inner, f m = '<' :: (inner ++ ['>']) ∧ Hides m inner

theorem prefix_of_subbed (hf : Bracketed a f) :
    ∀ {w : List Char} {prev : Option Char} {s rest : List Char}, '<' ∉ w →
      Subbed a f prev s (w ++ rest) → ∃ t prev', s = w ++ t ∧ Subbed a f prev' t rest := by
  intro w
  induction w with
  | nil => exact fun {prev s rest} _ h => ⟨s, prev, rfl, h⟩
  | cons c w ih =>
      intro prev s rest hw h
      rw [List.mem_cons, not_or] at hw
      generalize hout : c :: w ++ rest = out at h
      cases h with
      | done => cases hout
      | keep hrun hrest =>
          obtain ⟨rfl, rfl⟩ := List.cons.inj hout
          obtain ⟨t, prev', rfl, ht⟩ := ih hw.2 hrest
          exact ⟨t, prev', rfl, ht⟩
      | replace hne hmatch hrun hrest =>
          obtain ⟨inner, hinner, -⟩ := hf _ _ hne hmatch
          rw [hinner] at hout
          obtain ⟨hc, -⟩ := List.cons.inj hout
          exact absurd hc.symm hw.1

theorem armed_replaced {m inner : List Char} (hne : m ≠ []) (h : Hides m inner)
    (harmed : Armed ('<' :: (inner ++ ['>']) ++ out)) : Armed m ∨ Armed out := by
  rcases harmed.bracket with hinner | hout
  · obtain ⟨c, m, rfl⟩ := List.exists_cons_of_ne_nil hne
    refine Or.inl ((h.armed hinner).append_left (u := [c]) fun d hd => ?_)
    rw [List.mem_singleton.mp hd]
    exact h.url c List.mem_cons_self
  · exact Or.inr hout

theorem armed_of_subbed (hf : Bracketed a f) (h : Subbed a f prev s out) :
    Armed out → Armed s := by
  induction h with
  | done => exact id
  | keep hrun hrest ih =>
      rename_i prev c t out
      rintro ⟨u, x, v, hout, hu, hx⟩
      cases u with
      | nil =>
          have hword : '<' ∉ marker ++ [x] := by
            rw [List.mem_append, List.mem_singleton, not_or]
            refine ⟨by decide, ?_⟩
            rintro rfl
            exact absurd hx (by decide)
          have hsplit : c :: out = (marker ++ [x]) ++ v := by
            rw [hout]
            simp
          obtain ⟨t', prev', ht', -⟩ := prefix_of_subbed hf hword
            (hsplit ▸ Subbed.keep hrun hrest)
          exact ⟨[], x, t', by rw [ht']; simp, nofun, hx⟩
      | cons d u =>
          obtain ⟨rfl, hout'⟩ := List.cons.inj hout
          have harmed := ih ⟨u, x, v, hout', fun e he => hu e (List.mem_cons_of_mem _ he), hx⟩
          refine harmed.append_left (u := [c]) ?_
          intro e he
          rw [List.mem_singleton.mp he]
          exact hu c List.mem_cons_self
  | replace hne hmatch hrun hrest ih =>
      rename_i prev m t out
      intro harmed
      obtain ⟨inner, hinner, hhides⟩ := hf _ _ hne hmatch
      rw [hinner] at harmed
      exact (armed_replaced hne hhides harmed).elim (fun h => h.append_right t)
        fun h => (ih h).append_left hhides.url

/-- A data URL that begins with a character that was kept began there before. -/
theorem dataHere_of_subbed (hf : Bracketed a f) (h : Subbed a f prev s out)
    (hdata : DataHere out) : DataHere s := by
  obtain ⟨q, rest, rfl, hq, harmed⟩ := hdata
  obtain ⟨t, prev', rfl, ht⟩ := prefix_of_subbed hf (by decide) h
  generalize hout : q :: rest = out at ht
  cases ht with
  | done => cases hout
  | keep hrun hrest =>
      rename_i c t out
      obtain ⟨rfl, rfl⟩ := List.cons.inj hout
      exact ⟨q, t, rfl, hq, armed_of_subbed hf hrest harmed⟩
  | replace hne hmatch hrun hrest =>
      rename_i m t out
      obtain ⟨inner, hinner, hhides⟩ := hf _ _ hne hmatch
      rw [hinner] at hout
      obtain ⟨-, rfl⟩ := List.cons.inj hout
      obtain ⟨c, m, rfl⟩ := List.exists_cons_of_ne_nil hne
      have htail : ∀ d ∈ m, urlChar d = true := fun d hd =>
        hhides.url d (List.mem_cons_of_mem _ hd)
      refine ⟨c, m ++ t, rfl, hhides.url c List.mem_cons_self, ?_⟩
      have hbracket : (inner ++ ['>']).append out = inner ++ '>' :: out :=
        List.append_assoc ..
      rw [hbracket] at harmed
      rcases harmed.split (by decide) (by decide) with harmed | harmed
      · exact (hhides.armed harmed).append_right t
      · exact (armed_of_subbed hf hrest harmed).append_left htail

/-- None begins in a bracket. -/
theorem not_dataHere_bracket {m inner v w : List Char} (h : Hides m inner)
    (hsplit : '<' :: (inner ++ ['>']) = v ++ w) (hw : w ≠ []) : ¬ DataHere (w ++ out) := by
  rintro ⟨q, rest, htext, -, -⟩
  obtain ⟨init, last, rfl⟩ : ∃ init last, w = init ++ [last] :=
    ⟨w.dropLast, w.getLast hw, (List.dropLast_append_getLast hw).symm⟩
  have hends : ('<' :: inner) ++ ['>'] = (v ++ init) ++ [last] := by
    rw [List.append_assoc]
    exact hsplit
  obtain ⟨hinit, hlast⟩ := List.append_inj' hends rfl
  obtain rfl := List.singleton_injective hlast
  have hword : init ++ '>' :: out = [] ++ scheme ++ q :: rest := by
    rw [List.nil_append, ← htext, List.append_assoc]
    rfl
  rcases apart_of_not_mem (by decide) hword with ⟨c, rfl, -⟩ | ⟨c, hnil, -⟩
  · exact h.scheme v c (by rw [hinit, List.nil_append, List.append_assoc])
  · cases init <;> cases hnil

/-- What is found of data URLs was there, where a character was kept. -/
theorem kept_of_somewhere_data (hf : Bracketed a f) (h : Subbed a f prev s out) :
    Somewhere DataHere out → ∃ prev' c u t, s = u ++ c :: t ∧ run a ⟨prev', c :: t⟩ = [] ∧
      DataHere (c :: t) := by
  induction h with
  | done =>
      rintro ⟨u, w, hnil, q, rest, rfl, -, -⟩
      cases u <;> cases hnil
  | keep hrun hrest ih =>
      rename_i prev c t out
      intro hdata
      rcases somewhere_cons.mp hdata with hdata | hdata
      · exact ⟨prev, c, [], t, rfl, hrun, dataHere_of_subbed hf (.keep hrun hrest) hdata⟩
      · obtain ⟨prev', d, u, t', rfl, hrun', hdata'⟩ := ih hdata
        exact ⟨prev', d, c :: u, t', rfl, hrun', hdata'⟩
  | replace hne hmatch hrun hrest ih =>
      rename_i prev m t out
      intro hdata
      obtain ⟨inner, hinner, hhides⟩ := hf _ _ hne hmatch
      rw [hinner] at hdata
      rcases somewhere_append hdata with ⟨v, w, hsplit, hw, hdata⟩ | hdata
      · exact absurd hdata (not_dataHere_bracket hhides hsplit hw)
      · obtain ⟨prev', d, u, t', rfl, hrun', hdata'⟩ := ih hdata
        exact ⟨prev', d, m ++ u, t', (List.append_assoc ..).symm, hrun', hdata'⟩

/-- The replacements of data URLs leave none. -/
theorem not_somewhere_data (hf : Bracketed dataUrl f) (h : Subbed dataUrl f prev s out) :
    ¬ Somewhere DataHere out := by
  intro hdata
  obtain ⟨prev', c, u, t, -, hrun, hdata⟩ := kept_of_somewhere_data hf h hdata
  exact dataHere_iff.mpr hdata hrun

/-- And no other replacement makes one. -/
theorem somewhere_data_of_subbed (hf : Bracketed a f) (h : Subbed a f prev s out)
    (hdata : Somewhere DataHere out) : Somewhere DataHere s := by
  obtain ⟨prev', c, u, t, rfl, -, hdata⟩ := kept_of_somewhere_data hf h hdata
  exact ⟨u, c :: t, rfl, hdata⟩

theorem runHere_of_subbed (hf : Bracketed a f) (h : Subbed a f prev s out) :
    (out.takeWhile base64Char).length ≤ (s.takeWhile base64Char).length := by
  induction h with
  | done => exact le_refl _
  | keep hrun hrest ih =>
      rename_i prev c t out
      by_cases hc : base64Char c = true
      · rw [List.takeWhile_cons_of_pos hc, List.takeWhile_cons_of_pos hc]
        exact Nat.succ_le_succ ih
      · rw [List.takeWhile_cons_of_neg hc]
        exact Nat.zero_le _
  | replace hne hmatch hrun hrest ih =>
      obtain ⟨inner, hinner, -⟩ := hf _ _ hne hmatch
      rw [hinner, List.cons_append, List.takeWhile_cons_of_neg (by decide)]
      exact Nat.zero_le _

theorem somewhere_run_bracket {inner : List Char}
    (h : Somewhere RunHere ('<' :: (inner ++ ['>']) ++ out)) :
    Somewhere RunHere inner ∨ Somewhere RunHere out := by
  have hsplit : '<' :: (inner ++ ['>']) ++ out = [] ++ '<' :: (inner ++ '>' :: out) := by simp
  rw [hsplit] at h
  rcases somewhere_run_split h (by decide) with h | h
  · exact absurd h (not_somewhere_run_of_length (by decide))
  · exact somewhere_run_split h (by decide)

/-- No replacement makes a long run. -/
theorem somewhere_run_of_subbed (hf : Bracketed a f) (h : Subbed a f prev s out) :
    Somewhere RunHere out → Somewhere RunHere s := by
  induction h with
  | done => exact id
  | keep hrun hrest ih =>
      intro hlong
      rcases somewhere_cons.mp hlong with hlong | hlong
      · exact ⟨[], _, rfl, le_trans hlong (runHere_of_subbed hf (.keep hrun hrest))⟩
      · exact (ih hlong).append [_]
  | replace hne hmatch hrun hrest ih =>
      rename_i prev m t out
      obtain ⟨inner, hinner, hhides⟩ := hf _ _ hne hmatch
      rw [hinner]
      intro hlong
      rcases somewhere_run_bracket hlong with hlong | hlong
      · exact somewhere_run_append (hhides.run hlong) t
      · exact (ih hlong).append m

end Transfer

/-! ## Long runs are replaced -/

section Base64

variable {prev prev' : Option Char} {text t m s out : List Char}
  {f : List Char → List Char}

theorem matches_longBase64 : Matches longBase64 prev m ↔ ∃ r e, m = r ++ e ∧
    (∀ c ∈ prev, base64Char c = false) ∧ (120 ≤ r.length ∧ ∀ c ∈ r, base64Char c = true) ∧
      e.length ≤ 2 ∧ ∀ c ∈ e, c = '=' := by
  constructor
  · rintro ⟨n, b, rfl, ⟨hprev, rfl⟩, r, e, rfl, hr, he⟩
    obtain ⟨hlong, -, hall⟩ := matches_greedy_cls.mp hr
    obtain ⟨-, hmost, hpad⟩ := matches_greedy_cls.mp he
    exact ⟨r, e, rfl, hprev, ⟨hlong, hall⟩, hmost 2 rfl, fun c hc =>
      of_decide_eq_true (hpad c hc)⟩
  · rintro ⟨r, e, rfl, hprev, ⟨hlong, hall⟩, hmost, hpad⟩
    refine ⟨[], r ++ e, rfl, ⟨hprev, rfl⟩, r, e, rfl, ?_, ?_⟩
    · exact matches_greedy_cls.mpr ⟨hlong, nofun, hall⟩
    · refine matches_greedy_cls.mpr ⟨Nat.zero_le _, ?_, fun c hc => decide_eq_true (hpad c hc)⟩
      rintro k ⟨⟩
      exact hmost

theorem proper_longBase64 : Proper longBase64 := ⟨trivial, proper_greedy_cls, proper_greedy_cls⟩

theorem runHere_of_all {r : List Char} (hlong : 120 ≤ r.length)
    (hall : ∀ c ∈ r, base64Char c = true) : RunHere r := by
  unfold RunHere
  rw [List.takeWhile_eq_self_iff.mpr hall]
  exact hlong

theorem runStart_iff : run longBase64 ⟨prev, text⟩ ≠ [] ↔
    (∀ c ∈ prev, base64Char c = false) ∧ RunHere text := by
  rw [run_ne_nil_iff proper_longBase64]
  constructor
  · rintro ⟨m, t, rfl, h⟩
    obtain ⟨r, e, rfl, hprev, ⟨hlong, hall⟩, -⟩ := matches_longBase64.mp h
    rw [List.append_assoc]
    exact ⟨hprev, (runHere_of_all hlong hall).append _⟩
  · rintro ⟨hprev, hrun⟩
    refine ⟨text.takeWhile base64Char, text.dropWhile base64Char,
      (List.takeWhile_append_dropWhile ..).symm, matches_longBase64.mpr ?_⟩
    exact ⟨_, [], (List.append_nil _).symm, hprev,
      ⟨hrun, fun c hc => List.mem_takeWhile_imp hc⟩, Nat.zero_le 2,
      List.forall_mem_nil _⟩

/-- A match goes to the end of its run, or ends with a sign that is in none. -/
theorem run_ended (h : (run longBase64 ⟨prev, text⟩).head? = some ⟨prev', t⟩) :
    (∀ c ∈ prev', base64Char c = false) ∨ ∀ c ∈ t.head?, base64Char c = false := by
  have hne : run longBase64 ⟨prev, text⟩ ≠ [] := by
    intro hnil
    rw [hnil] at h
    cases h
  obtain ⟨hprev, hrun⟩ := runStart_iff.mp hne
  have hbehind : run (.notBehind base64Char) ⟨prev, text⟩ = [⟨prev, text⟩] := by
    rw [run, if_neg]
    intro hany
    obtain ⟨c, hc, hbase⟩ := (Option.any_eq_true _ _).mp hany
    rw [hprev c hc] at hbase
    cases hbase
  have hfirst : (run (.greedy (.cls base64Char) 120 none) ⟨prev, text⟩).head?
      = some ⟨after prev (text.takeWhile base64Char), text.dropWhile base64Char⟩ := by
    rw [run]
    exact head?_rep_cls (le_refl _) hrun
  obtain ⟨others, hothers⟩ := List.head?_eq_some_iff.mp hfirst
  rw [longBase64, run, hbehind, List.flatMap_singleton, run, hothers, List.flatMap_cons,
    List.head?_append] at h
  have hsigns : run (.greedy (.cls fun c => decide (c = '=')) 0 (some 2))
      ⟨after prev (text.takeWhile base64Char), text.dropWhile base64Char⟩ ≠ [] := by
    refine (run_ne_nil_iff proper_greedy_cls).mpr ⟨[], _, rfl, ?_⟩
    exact matches_greedy_cls.mpr
      ⟨Nat.zero_le _, fun _ _ => Nat.zero_le _, List.forall_mem_nil _⟩
  obtain ⟨place, places, hplaces⟩ := List.exists_cons_of_ne_nil hsigns
  rw [hplaces] at h
  obtain rfl : place = ⟨prev', t⟩ := Option.some.inj h
  have hmem := hplaces ▸ List.mem_cons_self (a := (⟨prev', t⟩ : Place Char)) (l := places)
  obtain ⟨e, hrest, hafter, hmatch⟩ := (mem_run_iff proper_greedy_cls _ _).mp hmem
  obtain ⟨-, -, hall⟩ := matches_greedy_cls.mp hmatch
  cases hlast : e.getLast? with
  | none =>
      refine Or.inr fun c hc => ?_
      obtain rfl := List.getLast?_eq_none_iff.mp hlast
      have hhead := List.head?_dropWhile_not base64Char text
      have htext : text.dropWhile base64Char = t := hrest
      rw [htext, Option.mem_def.mp hc] at hhead
      exact hhead
  | some d =>
      refine Or.inl fun c hc => ?_
      have hafter' : prev' = some d := by
        rw [show prev' = after _ e from hafter, after, hlast]
        rfl
      rw [hafter'] at hc
      obtain rfl : d = c := Option.some.inj hc
      rw [of_decide_eq_true (hall d (List.mem_of_getLast? hlast))]
      decide

/-- A long run is at the front, or behind the run at the front. -/
theorem somewhere_run_dropWhile (h : Somewhere RunHere text) :
    RunHere text ∨ Somewhere RunHere (text.dropWhile base64Char) := by
  induction text with
  | nil => exact absurd h (not_somewhere_run_of_length (by decide))
  | cons c text ih =>
      by_cases hc : base64Char c = true
      · rcases somewhere_cons.mp h with h | h
        · exact Or.inl h
        · rw [List.dropWhile_cons_of_pos hc]
          refine (ih h).imp (fun hrun => ?_) id
          unfold RunHere at hrun ⊢
          rw [List.takeWhile_cons_of_pos hc]
          exact le_trans hrun (Nat.le_succ _)
      · rw [List.dropWhile_cons_of_neg hc]
        exact Or.inr h

theorem not_runHere_cons {c : Char} (hc : ¬ base64Char c = true) : ¬ RunHere (c :: text) := by
  unfold RunHere
  rw [List.takeWhile_cons_of_neg hc]
  decide

/-- The replacements of long runs leave none. -/
theorem not_run_of_subbed (hf : Bracketed longBase64 f)
    (hshort : ∀ m, ¬ Somewhere RunHere (f m)) (h : Subbed longBase64 f prev s out) :
    ¬ Somewhere RunHere (out.dropWhile base64Char) ∧
      ((∀ c ∈ prev, base64Char c = false) → ¬ RunHere out) := by
  induction h with
  | done =>
      refine ⟨not_somewhere_run_of_length (by decide), fun _ => ?_⟩
      unfold RunHere
      decide
  | keep hrun hrest ih =>
      rename_i prev c t out
      by_cases hc : base64Char c = true
      · rw [List.dropWhile_cons_of_pos hc]
        refine ⟨ih.1, fun hprev hlong => ?_⟩
        have hlong' := le_trans hlong (runHere_of_subbed hf (.keep hrun hrest))
        exact runStart_iff.mpr ⟨hprev, hlong'⟩ hrun
      · rw [List.dropWhile_cons_of_neg hc]
        refine ⟨fun hlong => ?_, fun _ => not_runHere_cons hc⟩
        have hnext : ¬ RunHere out := ih.2 fun d hd => by
          cases hd
          exact Bool.eq_false_iff.mpr hc
        rcases somewhere_cons.mp hlong with hlong | hlong
        · exact not_runHere_cons hc hlong
        · exact (somewhere_run_dropWhile hlong).elim hnext ih.1
  | replace hne hmatch hrun hrest ih =>
      rename_i prev m t out
      obtain ⟨inner, hinner, -⟩ := hf _ _ hne hmatch
      have hinnerShort : ¬ Somewhere RunHere inner := by
        intro hlong
        refine hshort m ?_
        rw [hinner]
        exact (somewhere_run_append hlong ['>']).append ['<']
      have hnext : ¬ RunHere out := by
        intro hlong
        rcases run_ended hrun with hended | hended
        · exact ih.2 hended hlong
        · have hlong' := le_trans hlong (runHere_of_subbed hf hrest)
          cases t with
          | nil => exact absurd hlong' (by decide)
          | cons c t =>
              refine not_runHere_cons ?_ hlong'
              rw [hended c rfl]
              decide
      rw [hinner]
      refine ⟨fun hlong => ?_, fun _ => not_runHere_cons (by decide)⟩
      rw [List.cons_append, List.dropWhile_cons_of_neg (by decide), ← List.cons_append] at hlong
      rcases somewhere_run_bracket hlong with hlong | hlong
      · exact hinnerShort hlong
      · exact (somewhere_run_dropWhile hlong).elim hnext ih.1

end Base64

/-! ## Paths -/

/-- A slash with something behind it stands in the run of characters at the front. -/
def Deep (text : List Char) : Prop :=
  ∃ u c v, text = u ++ '/' :: c :: v ∧ (∀ d ∈ u, pathChar d = true) ∧ pathChar c = true

/-- A path begins here. -/
def PathHere (text : List Char) : Prop :=
  ∃ d rest, text = '/' :: d :: rest ∧ pathChar d = true ∧ Deep rest

section Paths

variable {prev : Option Char} {text m s out : List Char} {f : List Char → List Char}

theorem pathChar_slash : pathChar '/' = true := by decide

/-- Segments, each with its slash. -/
theorem pathChar_of_segments {least : ℕ} {most : Option ℕ}
    (h : Matches (.greedy (.seq (.plus (.cls pathChar)) (.cls isSlash)) least most) prev m) :
    ∀ c ∈ m, pathChar c = true := by
  induction h with
  | stop => exact nofun
  | again _ hsegment _ ih =>
      obtain ⟨e, _, rfl, he, c, hc, rfl⟩ := hsegment
      intro d hd
      rcases List.mem_append.mp hd with hd | hd
      · rcases List.mem_append.mp hd with hd | hd
        · exact (matches_plus_cls.mp he).2 d hd
        · rw [List.mem_singleton.mp hd, of_decide_eq_true hc]
          exact pathChar_slash
      · exact ih d hd

theorem proper_unixPath : Proper unixPath := by
  refine ⟨trivial, ⟨⟨proper_greedy_cls, trivial⟩, ?_⟩, proper_greedy_cls⟩
  rintro prev ⟨u, v, huv, -, c, -, rfl⟩
  cases u <;> cases huv

/-- A path is a slash, a segment with its slash, and more. -/
theorem matches_unixPath (h : Matches unixPath prev m) : ∃ e rest,
    m = '/' :: (e ++ '/' :: rest) ∧ (e ≠ [] ∧ ∀ c ∈ e, pathChar c = true) ∧
      rest ≠ [] ∧ ∀ c ∈ rest, pathChar c = true := by
  obtain ⟨_, b, rfl, ⟨c, hc, rfl⟩, n, k, rfl, hn, hk⟩ := h
  obtain ⟨hkne, hkall⟩ := matches_plus_cls.mp hk
  obtain rfl := of_decide_eq_true hc
  cases hn with
  | again hmost hsegment hrest =>
      rename_i _ n
      obtain ⟨e, _, rfl, he, c', hc', rfl⟩ := hsegment
      obtain rfl := of_decide_eq_true hc'
      refine ⟨e, n ++ k, by simp, matches_plus_cls.mp he, ?_, ?_⟩
      · exact fun hnil => hkne (List.append_eq_nil_iff.mp hnil).2
      · intro d hd
        exact (List.mem_append.mp hd).elim (pathChar_of_segments hrest d) (hkall d)

theorem pathHere_iff : run unixPath ⟨prev, text⟩ ≠ [] ↔ PathHere text := by
  rw [run_ne_nil_iff proper_unixPath]
  constructor
  · rintro ⟨m, t, rfl, h⟩
    obtain ⟨e, rest, rfl, ⟨he, heall⟩, hrest, hrestall⟩ := matches_unixPath h
    obtain ⟨d, e, rfl⟩ := List.exists_cons_of_ne_nil he
    obtain ⟨c, rest, rfl⟩ := List.exists_cons_of_ne_nil hrest
    refine ⟨d, e ++ '/' :: c :: (rest ++ t), by simp, heall d List.mem_cons_self, ?_⟩
    exact ⟨e, c, rest ++ t, rfl, fun x hx => heall x (List.mem_cons_of_mem _ hx),
      hrestall c List.mem_cons_self⟩
  · rintro ⟨d, rest, rfl, hd, u, c, v, rfl, hu, hc⟩
    refine ⟨['/'] ++ (((d :: u) ++ ['/'] ++ []) ++ [c]), v, by simp, ?_⟩
    refine ⟨['/'], _, rfl, ⟨'/', rfl, rfl⟩, _, [c], rfl, ?_, ?_⟩
    · refine .again nofun ⟨d :: u, ['/'], rfl, ?_, '/', rfl, rfl⟩ .stop
      refine matches_plus_cls.mpr ⟨List.cons_ne_nil _ _, fun x hx => ?_⟩
      rcases List.mem_cons.mp hx with rfl | hx
      · exact hd
      · exact hu x hx
    · refine matches_plus_cls.mpr ⟨List.cons_ne_nil _ _, fun x hx => ?_⟩
      rw [List.mem_singleton.mp hx]
      exact hc

/-- A path's character at the front was kept. -/
theorem head_of_subbed {a : Pattern Char} (hf : Bracketed a f) {d : Char} {rest : List Char}
    (hd : pathChar d = true) (h : Subbed a f prev s (d :: rest)) :
    ∃ t, s = d :: t ∧ Subbed a f (some d) t rest := by
  generalize hout : d :: rest = out at h
  cases h with
  | done => cases hout
  | keep hrun hrest =>
      obtain ⟨rfl, rfl⟩ := List.cons.inj hout
      exact ⟨_, rfl, hrest⟩
  | replace hne hmatch hrun hrest =>
      obtain ⟨inner, hinner, -⟩ := hf _ _ hne hmatch
      rw [hinner] at hout
      obtain ⟨rfl, -⟩ := List.cons.inj hout
      exact absurd hd (by decide)

theorem deep_of_subbed {a : Pattern Char} (hf : Bracketed a f) {u v : List Char} {c : Char}
    (hu : ∀ d ∈ u, pathChar d = true) (hc : pathChar c = true)
    (h : Subbed a f prev s (u ++ '/' :: c :: v)) : Deep s := by
  induction u generalizing prev s with
  | nil =>
      obtain ⟨t, rfl, ht⟩ := head_of_subbed hf pathChar_slash h
      obtain ⟨t, rfl, -⟩ := head_of_subbed hf hc ht
      exact ⟨[], c, t, rfl, nofun, hc⟩
  | cons d u ih =>
      have hd := hu d List.mem_cons_self
      obtain ⟨t, rfl, ht⟩ := head_of_subbed hf hd h
      obtain ⟨u', c', v', rfl, hu', hc'⟩ := ih (fun e he => hu e (List.mem_cons_of_mem _ he)) ht
      refine ⟨d :: u', c', v', rfl, fun e he => ?_, hc'⟩
      rcases List.mem_cons.mp he with rfl | he
      · exact hd
      · exact hu' e he

theorem pathHere_of_subbed {a : Pattern Char} (hf : Bracketed a f) (h : Subbed a f prev s out)
    (hpath : PathHere out) : PathHere s := by
  obtain ⟨d, rest, rfl, hd, u, c, v, rfl, hu, hc⟩ := hpath
  obtain ⟨_, rfl, hslash⟩ := head_of_subbed hf pathChar_slash h
  obtain ⟨t, rfl, ht⟩ := head_of_subbed hf hd hslash
  exact ⟨d, t, rfl, hd, deep_of_subbed hf hu hc ht⟩

/-- The replacements of paths leave none. -/
theorem not_somewhere_path (hf : Bracketed unixPath f) (h : Subbed unixPath f prev s out) :
    ¬ Somewhere PathHere out := by
  induction h with
  | done =>
      rintro ⟨u, w, hnil, d, rest, rfl, -, -⟩
      cases u <;> cases hnil
  | keep hrun hrest ih =>
      intro hpath
      rcases somewhere_cons.mp hpath with hpath | hpath
      · exact pathHere_iff.mpr (pathHere_of_subbed hf (.keep hrun hrest) hpath) hrun
      · exact ih hpath
  | replace hne hmatch hrun hrest ih =>
      obtain ⟨inner, hinner, hhides⟩ := hf _ _ hne hmatch
      rw [hinner]
      intro hpath
      rcases somewhere_append hpath with ⟨v, w, hsplit, hw, d, rest, hw', -, -⟩ | hpath
      · -- there is no slash in a bracket
        obtain ⟨c, w, rfl⟩ := List.exists_cons_of_ne_nil hw
        obtain ⟨rfl, -⟩ := List.cons.inj hw'
        have hmem : '/' ∈ '<' :: (inner ++ ['>']) := by
          rw [hsplit]
          exact List.mem_append_right _ List.mem_cons_self
        simp only [List.mem_cons, List.mem_append, List.not_mem_nil, or_false] at hmem
        rcases hmem with hmem | hmem | hmem
        · exact absurd hmem (by decide)
        · exact hhides.slash hmem
        · exact absurd hmem (by decide)
      · exact ih hpath

end Paths

/-! ## The three replacements -/

section Replacements

variable {m inner : List Char}

/-- A word that is part of no pattern. -/
theorem hides_word (hurl : ∀ c ∈ m, urlChar c = true) (hcolon : ':' ∉ '<' :: inner)
    (hsemicolon : ';' ∉ inner) (hslash : '/' ∉ inner) (hshort : inner.length < 120) :
    Hides m inner where
  url := hurl
  scheme a b h := by
    rw [h] at hcolon
    exact hcolon (by simp [scheme])
  armed h := absurd h (not_armed hsemicolon)
  run h := absurd h (not_somewhere_run_of_length hshort)
  slash := hslash

theorem bracketed_dataUrl : Bracketed dataUrl fun _ => "<redacted-data-url>".toList := by
  intro prev m _ hmatch
  obtain ⟨mid, tail, rfl, ⟨-, hmid⟩, -, htail⟩ := matches_dataUrl.mp hmatch
  refine ⟨"redacted-data-url".toList, rfl, hides_word ?_ (by decide) (by decide) (by decide)
    (by decide)⟩
  have hscheme : scheme.all urlChar = true := by decide
  have hmarker : marker.all urlChar = true := by decide
  intro c hc
  rcases List.mem_append.mp hc with hc | hc
  · exact List.all_eq_true.mp hscheme c hc
  rcases List.mem_append.mp hc with hc | hc
  · exact hmid c hc
  rcases List.mem_append.mp hc with hc | hc
  · exact List.all_eq_true.mp hmarker c hc
  · exact urlChar_of_base64Tail (htail c hc)

theorem bracketed_longBase64 : Bracketed longBase64 fun _ => "<redacted-base64>".toList := by
  intro prev m _ hmatch
  obtain ⟨r, e, rfl, -, ⟨-, hr⟩, -, he⟩ := matches_longBase64.mp hmatch
  refine ⟨"redacted-base64".toList, rfl, hides_word ?_ (by decide) (by decide) (by decide)
    (by decide)⟩
  intro c hc
  rcases List.mem_append.mp hc with hc | hc
  · exact urlChar_of_base64Tail (base64Tail_of_base64Char (hr c hc))
  · rw [he c hc]
    decide

/-- The name of a path is the last part of it without a slash. -/
theorem exists_pathName (path : List Char) : ∃ p q, path = p ++ pathName path ++ q := by
  obtain ⟨q, hq⟩ := List.rdropWhile_prefix (fun c => decide (c ∈ [')', '.', ',', ';', ']'])) path
  obtain ⟨p, hp⟩ := List.rtakeWhile_suffix (fun c => !isSlash c)
    (path.rdropWhile fun c => decide (c ∈ [')', '.', ',', ';', ']']))
  exact ⟨p, q, by rw [pathName, hp, hq]⟩

theorem slash_not_mem_pathName (path : List Char) : '/' ∉ pathName path := by
  intro h
  have hslash := List.mem_rtakeWhile_imp h
  exact absurd hslash (by decide)

/-- A name behind the word that says what it is. -/
theorem hides_path {name : List Char} (hurl : ∀ c ∈ m, urlChar c = true) (hcolon : ':' ∉ name)
    (hslash : '/' ∉ name) (harmed : Armed name → Armed m.tail)
    (hrun : Somewhere RunHere name → Somewhere RunHere m) :
    Hides m ("path:".toList ++ name) where
  url := hurl
  scheme a b h := by
    have hcolons : ['<', 'p', 'a', 't', 'h'] ++ ':' :: name
        = (a ++ ['d', 'a', 't', 'a']) ++ ':' :: b := by
      rw [List.append_assoc]
      rw [List.append_assoc] at h
      exact h
    obtain ⟨hword, -, -⟩ :=
      (List.append_cons_inj_of_notMem (show ':' ∉ ['<', 'p', 'a', 't', 'h'] by decide)
        hcolon).mp hcolons
    have hlast := congrArg List.getLast? hword
    rw [List.getLast?_append] at hlast
    exact absurd (Option.some.inj hlast) (by decide)
  armed h := harmed (h.of_append (by decide))
  run h := by
    have hsplit : "path:".toList ++ name = ['p', 'a', 't', 'h'] ++ ':' :: name := rfl
    rw [hsplit] at h
    rcases somewhere_run_split h (by decide) with h | h
    · exact absurd h (not_somewhere_run_of_length (by decide))
    · exact hrun h
  slash := by
    rw [List.mem_append, not_or]
    exact ⟨by decide, hslash⟩

/-- What is found in the name of a path is found in the path, behind its first slash. -/
theorem hides_part {p name q : List Char} (hpath : ∀ c ∈ p ++ name ++ q, pathChar c = true)
    (hhead : (p ++ name ++ q).head? = some '/') (hslash : '/' ∉ name) :
    Hides (p ++ name ++ q) ("path:".toList ++ name) := by
  have hname : ∀ c ∈ name, c ∈ p ++ name ++ q := fun c hc =>
    List.mem_append_left _ (List.mem_append_right _ hc)
  have hurl : ∀ c ∈ p ++ name ++ q, urlChar c = true := fun c hc =>
    urlChar_of_pathChar (hpath c hc)
  refine hides_path hurl (fun h => absurd (hpath ':' (hname ':' h)) (by decide)) hslash
    (fun h => ?_) fun h => somewhere_run_append (h.append p) q
  cases p with
  | nil =>
      -- a name at the front would begin with the slash
      cases name with
      | nil => exact absurd h (not_armed (by decide))
      | cons c name =>
          obtain rfl : c = '/' := Option.some.inj hhead
          exact absurd List.mem_cons_self hslash
  | cons c p =>
      refine (h.append_left fun d hd => hurl d ?_).append_right q
      exact List.mem_append_left _ (List.mem_append_left _ (List.mem_cons_of_mem _ hd))

theorem hides_pathName (hpath : ∀ c ∈ m, pathChar c = true) (hhead : m.head? = some '/') :
    Hides m ("path:".toList ++ pathName m) := by
  have hslash := slash_not_mem_pathName m
  obtain ⟨p, q, hm⟩ := exists_pathName m
  generalize pathName m = name at hm hslash ⊢
  subst hm
  exact hides_part hpath hhead hslash

theorem bracketed_unixPath : Bracketed unixPath pathRepl := by
  intro prev m _ hmatch
  obtain ⟨e, rest, hm, ⟨-, he⟩, -, hrest⟩ := matches_unixPath hmatch
  have hpath : ∀ c ∈ m, pathChar c = true := by
    intro c hc
    rw [hm, List.mem_cons, List.mem_append, List.mem_cons] at hc
    rcases hc with rfl | hc | rfl | hc
    · exact pathChar_slash
    · exact he c hc
    · exact pathChar_slash
    · exact hrest c hc
  have hhead : m.head? = some '/' := by
    rw [hm]
    rfl
  unfold pathRepl
  split
  · refine ⟨"path:".toList ++ "redacted".toList, rfl, hides_path ?_ ?_ ?_ ?_ ?_⟩
    · exact fun c hc => urlChar_of_pathChar (hpath c hc)
    · decide
    · decide
    · exact fun h => absurd h (not_armed (by decide))
    · exact fun h => absurd h (not_somewhere_run_of_length (by decide))
  · exact ⟨"path:".toList ++ pathName m, by simp, hides_pathName hpath hhead⟩

/-- None of the patterns is found. -/
structure Clean (text : List Char) : Prop where
  data : ¬ Somewhere DataHere text
  run : ¬ Somewhere RunHere text
  path : ¬ Somewhere PathHere text

theorem not_matches_dataUrl_nil (prev : Option Char) : ¬ Matches dataUrl prev [] := by
  intro h
  obtain ⟨mid, tail, hnil, -⟩ := matches_dataUrl.mp h
  cases hnil

theorem not_matches_longBase64_nil (prev : Option Char) : ¬ Matches longBase64 prev [] := by
  intro h
  obtain ⟨r, e, hnil, -, ⟨hlong, -⟩, -⟩ := matches_longBase64.mp h
  obtain ⟨rfl, rfl⟩ := List.append_eq_nil_iff.mp hnil.symm
  exact absurd hlong (by decide)

theorem not_matches_unixPath_nil (prev : Option Char) : ¬ Matches unixPath prev [] := by
  intro h
  obtain ⟨e, rest, hnil, -⟩ := matches_unixPath h
  cases hnil

/-- Each replacement takes its kind away, and none brings another back. -/
theorem clean_redact (value : List Char) : Clean (redact value) := by
  have hurls := subbed_sub proper_dataUrl not_matches_dataUrl_nil
    (fun _ => "<redacted-data-url>".toList) value
  have hruns := subbed_sub proper_longBase64 not_matches_longBase64_nil
    (fun _ => "<redacted-base64>".toList)
    (sub dataUrl (fun _ => "<redacted-data-url>".toList) value)
  have hpaths := subbed_sub proper_unixPath not_matches_unixPath_nil pathRepl
    (sub longBase64 (fun _ => "<redacted-base64>".toList)
      (sub dataUrl (fun _ => "<redacted-data-url>".toList) value))
  have hshort : ¬ Somewhere RunHere "<redacted-base64>".toList :=
    not_somewhere_run_of_length (by decide)
  have hnorun := not_run_of_subbed bracketed_longBase64 (fun _ => hshort) hruns
  refine ⟨fun h => ?_, fun h => ?_, not_somewhere_path bracketed_unixPath hpaths⟩
  · have hbefore := somewhere_data_of_subbed bracketed_unixPath hpaths h
    exact not_somewhere_data bracketed_dataUrl hurls
      (somewhere_data_of_subbed bracketed_longBase64 hruns hbefore)
  · have hbefore := somewhere_run_of_subbed bracketed_unixPath hpaths h
    exact (somewhere_run_dropWhile hbefore).elim (hnorun.2 nofun) hnorun.1

end Replacements

/-! ## What is found -/

section Found

variable {text u v w : List Char} {prev : Option Char}

theorem search_dataUrl : search dataUrl prev text = true ↔ Somewhere DataHere text := by
  rw [search_iff]
  exact exists_congr fun _ => exists_congr fun _ => and_congr_right fun _ => dataHere_iff

theorem search_unixPath : search unixPath prev text = true ↔ Somewhere PathHere text := by
  rw [search_iff]
  exact exists_congr fun _ => exists_congr fun _ => and_congr_right fun _ => pathHere_iff

/-- A long run is found where it begins. -/
theorem search_longBase64 : search longBase64 none text = true ↔ Somewhere RunHere text := by
  rw [search_iff]
  constructor
  · rintro ⟨u, t, rfl, h⟩
    exact ⟨u, t, rfl, (runStart_iff.mp h).2⟩
  · rintro ⟨u, t, rfl, h⟩
    refine ⟨u.rdropWhile base64Char, u.rtakeWhile base64Char ++ t, ?_, runStart_iff.mpr ⟨?_, ?_⟩⟩
    · rw [← List.append_assoc, List.rdropWhile_append_rtakeWhile]
    · intro c hc
      have hlast : (u.rdropWhile base64Char).getLast? = some c := by
        rw [after, Option.or_none] at hc
        exact hc
      have hne : u.rdropWhile base64Char ≠ [] := by
        intro hnil
        rw [hnil] at hlast
        cases hlast
      have hnot := List.rdropWhile_last_not base64Char u hne
      rw [List.getLast?_eq_some_getLast hne] at hlast
      rw [Option.some.inj hlast] at hnot
      exact Bool.eq_false_iff.mpr hnot
    · unfold RunHere at h ⊢
      rw [List.takeWhile_append_of_pos fun c hc => List.mem_rtakeWhile_imp hc,
        List.length_append]
      exact le_trans h (Nat.le_add_left _ _)

theorem leaks_iff : Leaks text ↔
    Somewhere DataHere text ∨ Somewhere RunHere text ∨ Somewhere PathHere text := by
  unfold Leaks
  rw [search_dataUrl, search_longBase64, search_unixPath]

theorem not_leaks_iff : ¬ Leaks text ↔ Clean text := by
  rw [leaks_iff, not_or, not_or]
  exact ⟨fun ⟨hdata, hrun, hpath⟩ => ⟨hdata, hrun, hpath⟩,
    fun h => ⟨h.data, h.run, h.path⟩⟩

theorem DataHere.append (h : DataHere u) (v : List Char) : DataHere (u ++ v) := by
  obtain ⟨q, rest, rfl, hq, harmed⟩ := h
  exact ⟨q, rest ++ v, by simp, hq, harmed.append_right v⟩

theorem PathHere.append (h : PathHere u) (v : List Char) : PathHere (u ++ v) := by
  obtain ⟨d, rest, rfl, hd, x, c, y, rfl, hx, hc⟩ := h
  exact ⟨d, _, rfl, hd, x, c, y ++ v, by simp, hx, hc⟩

theorem Somewhere.imp_append {H : List Char → Prop} (hH : ∀ {u}, H u → ∀ v, H (u ++ v))
    (h : Somewhere H u) (v : List Char) : Somewhere H (u ++ v) := by
  obtain ⟨x, y, rfl, hy⟩ := h
  exact ⟨x, y ++ v, List.append_assoc .., hH hy v⟩

theorem Clean.of_append (h : Clean (u ++ v)) : Clean u :=
  ⟨fun hdata => h.data (hdata.imp_append DataHere.append v),
    fun hrun => h.run (hrun.imp_append RunHere.append v),
    fun hpath => h.path (hpath.imp_append PathHere.append v)⟩

end Found

/-! ## The cut -/

/-- The text ends with the slash of a directory. -/
def OpenDirectory (text : List Char) : Prop :=
  ∃ u d v, text = u ++ '/' :: d :: (v ++ ['/']) ∧ pathChar d = true ∧
    ∀ c ∈ v, pathChar c = true

section Cut

variable {cut : List Char}

theorem not_data_truncated (h : ¬ Somewhere DataHere cut) :
    ¬ Somewhere DataHere (cut ++ "...<truncated>".toList) := by
  have hdots : ∀ u w : List Char, "...<truncated>".toList = u ++ w → ¬ DataHere w := by
    rintro u w hsplit ⟨q, rest, rfl, -, -⟩
    have hcolon : ':' ∈ "...<truncated>".toList := by
      rw [hsplit]
      simp [scheme]
    exact absurd hcolon (by decide)
  intro hdata
  rcases somewhere_append hdata with ⟨u, w, rfl, -, q, rest, hw, hq, harmed⟩ | ⟨u, w, hw, hdata⟩
  · have hword : w ++ '.' :: "..<truncated>".toList = [] ++ scheme ++ q :: rest := hw
    rcases apart_of_not_mem (by decide) hword with ⟨c, rfl, hrest⟩ | ⟨c, hnil, -⟩
    · cases c with
      | nil =>
          obtain ⟨-, rfl⟩ := List.cons.inj hrest
          exact not_armed (by decide) harmed
      | cons d c =>
          obtain ⟨rfl, rfl⟩ := List.cons.inj hrest
          rcases harmed.split (by decide) (by decide) with harmed | harmed
          · exact h ⟨u, _, rfl, q, c, rfl, hq, harmed⟩
          · exact not_armed (by decide) harmed
    · cases w <;> cases hnil
  · exact hdots u w hw hdata

theorem not_run_truncated (h : ¬ Somewhere RunHere cut) :
    ¬ Somewhere RunHere (cut ++ "...<truncated>".toList) := by
  intro hrun
  rcases somewhere_run_split hrun (by decide) with hrun | hrun
  · exact h hrun
  · exact not_somewhere_run_of_length (by decide) hrun

theorem path_truncated_iff (h : ¬ Somewhere PathHere cut) :
    Somewhere PathHere (cut ++ "...<truncated>".toList) ↔ OpenDirectory cut := by
  have hdots : '/' ∉ "...<truncated>".toList := by decide
  constructor
  · intro hpath
    rcases somewhere_append hpath with ⟨u, w, rfl, -, d, rest, hw, hd, x, c, y, rfl, hx, hc⟩ |
      ⟨u, w, hw, d, rest, rfl, -, -⟩
    · -- the second slash is before the cut, with what is behind it or as the last character
      have hsplit : w ++ "...<truncated>".toList = ('/' :: d :: x) ++ '/' :: c :: y := hw
      rcases List.append_eq_append_iff.mp hsplit with ⟨e, he, hrest⟩ | ⟨e, he, hrest⟩
      · refine absurd ?_ hdots
        rw [hrest]
        exact List.mem_append_right _ List.mem_cons_self
      · cases e with
        | nil => exact absurd (List.cons.inj hrest).1 (by decide)
        | cons slash e =>
            obtain ⟨rfl, hrest'⟩ := List.cons.inj hrest
            cases e with
            | nil => exact ⟨u, d, x, by rw [he]; simp, hd, hx⟩
            | cons c' e =>
                obtain ⟨rfl, -⟩ := List.cons.inj hrest'
                exact absurd ⟨u, w, rfl, d, x ++ '/' :: c :: e, he, hd, x, c, e, rfl, hx, hc⟩ h
    · refine absurd ?_ hdots
      rw [hw]
      exact List.mem_append_right _ List.mem_cons_self
  · rintro ⟨u, d, v, rfl, hd, hv⟩
    refine ⟨u, '/' :: d :: (v ++ '/' :: "...<truncated>".toList), by simp, d, _, rfl, hd, ?_⟩
    exact ⟨v, '.', "..<truncated>".toList, rfl, hv, by decide⟩

/-- What is recorded of a string matches no pattern, unless it was cut at the end of a
directory. -/
theorem leaks_sanitizeString_iff (value : List Char) : Leaks (sanitizeString value) ↔
    500 < (redact value).length ∧ OpenDirectory ((redact value).take 500) := by
  have hclean := clean_redact value
  unfold sanitizeString
  split
  · rename_i hlong
    have hcut : Clean ((redact value).take 500) := by
      refine Clean.of_append (v := (redact value).drop 500) ?_
      rw [List.take_append_drop]
      exact hclean
    rw [leaks_iff, ← path_truncated_iff hcut.path, and_iff_right hlong]
    constructor
    · rintro (h | h | h)
      · exact absurd h (not_data_truncated hcut.data)
      · exact absurd h (not_run_truncated hcut.run)
      · exact h
    · exact fun h => Or.inr (Or.inr h)
  · rename_i hshort
    exact iff_of_false (not_leaks_iff.mpr hclean) fun h => hshort h.1

end Cut

end CctvMemory.Worker.Timeline
