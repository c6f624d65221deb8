import CctvMemory.Library.Json
import Mathlib.Data.List.TakeWhile

/-!
# The braces of a JSON text

A scan of a text that tells braces outside strings from those inside, and counts how
deep they stand. What a value is read from leaves the depth as it was, and an object is
at depth zero at its end only.

* `eq_nil_of_suffix`: an object's text does not end in the text of another object.
-/

namespace JsonText

/-! ## The scan -/

inductive Scan where
  | outside (depth : ℕ)
  | inside (depth : ℕ)
  /-- Behind a backslash. -/
  | escaped (depth : ℕ)

/-- A brace closes what is open. -/
def Scan.close : ℕ → Option Scan
  | 0 => none
  | depth + 1 => some (.outside depth)

def scanChar : Scan → Char → Option Scan
  | .outside depth, c =>
      if c = quote then some (.inside depth)
      else if c = openBrace then some (.outside (depth + 1))
      else if c = closeBrace then Scan.close depth
      else if c = backslash then none
      else some (.outside depth)
  | .inside depth, c =>
      if c = quote then some (.outside depth)
      else if c = backslash then some (.escaped depth)
      else some (.inside depth)
  | .escaped depth, _ => some (.inside depth)

def scan : Scan → List Char → Option Scan
  | q, [] => some q
  | q, c :: text => (scanChar q c).bind fun q => scan q text

theorem scan_append (q : Scan) (u s : List Char) :
    scan q (u ++ s) = (scan q u).bind fun q => scan q s := by
  induction u generalizing q with
  | nil => rfl
  | cons c u ih =>
      show (scanChar q c).bind (fun q => scan q (u ++ s)) = _
      rw [scan, Option.bind_assoc]
      exact congrArg (scanChar q c).bind (funext ih)

/-- Leaves a scan where it was, outside a string. -/
def Balanced (w : List Char) : Prop := ∀ depth, scan (.outside depth) w = some (.outside depth)

/-- The same inside a string. -/
def InString (w : List Char) : Prop := ∀ depth, scan (.inside depth) w = some (.inside depth)

theorem balanced_nil : Balanced [] := fun _ => rfl

theorem Balanced.append {u w : List Char} (hu : Balanced u) (hw : Balanced w) :
    Balanced (u ++ w) := by
  intro depth
  rw [scan_append, hu depth]
  exact hw depth

theorem inString_nil : InString [] := fun _ => rfl

theorem InString.append {u w : List Char} (hu : InString u) (hw : InString w) :
    InString (u ++ w) := by
  intro depth
  rw [scan_append, hu depth]
  exact hw depth

/-- Of no meaning to a scan. -/
def Plain (c : Char) : Prop := c ≠ quote ∧ c ≠ openBrace ∧ c ≠ closeBrace ∧ c ≠ backslash

instance (c : Char) : Decidable (Plain c) :=
  inferInstanceAs (Decidable (_ ∧ _ ∧ _ ∧ _))

theorem balanced_of_plain {w : List Char} (h : ∀ c ∈ w, Plain c) : Balanced w := by
  intro depth
  induction w with
  | nil => rfl
  | cons c w ih =>
      obtain ⟨hquote, hopen, hclose, hbackslash⟩ := h c List.mem_cons_self
      have hc : scanChar (.outside depth) c = some (.outside depth) := by
        rw [scanChar, if_neg hquote, if_neg hopen, if_neg hclose, if_neg hbackslash]
      rw [scan, hc]
      exact ih fun d hd => h d (List.mem_cons_of_mem _ hd)

theorem inString_of_plain {w : List Char} (h : ∀ c ∈ w, c ≠ quote ∧ c ≠ backslash) :
    InString w := by
  intro depth
  induction w with
  | nil => rfl
  | cons c w ih =>
      obtain ⟨hquote, hbackslash⟩ := h c List.mem_cons_self
      have hc : scanChar (.inside depth) c = some (.inside depth) := by
        rw [scanChar, if_neg hquote, if_neg hbackslash]
      rw [scan, hc]
      exact ih fun d hd => h d (List.mem_cons_of_mem _ hd)

/-- Whatever the escaped character is. -/
theorem inString_escape (c : Char) : InString [backslash, c] := fun _ => rfl

theorem balanced_quoted {w : List Char} (h : InString w) : Balanced (quote :: (w ++ [quote])) := by
  intro depth
  show scan (.inside depth) (w ++ [quote]) = _
  rw [scan_append, h depth]
  rfl

theorem balanced_braced {m : List Char} (h : Balanced m) :
    Balanced (openBrace :: (m ++ [closeBrace])) := by
  intro depth
  show scan (.outside (depth + 1)) (m ++ [closeBrace]) = _
  rw [scan_append, h (depth + 1)]
  rfl

/-! ## What is read -/

/-- `rest` is what `text` has behind a part with `P`. -/
def Behind (P : List Char → Prop) (text rest : List Char) : Prop := ∃ w, text = w ++ rest ∧ P w

theorem behind_trans {P : List Char → Prop} (hP : ∀ {u w}, P u → P w → P (u ++ w))
    {a b c : List Char} (hab : Behind P a b) (hbc : Behind P b c) : Behind P a c := by
  obtain ⟨u, rfl, hu⟩ := hab
  obtain ⟨w, rfl, hw⟩ := hbc
  exact ⟨u ++ w, (List.append_assoc ..).symm, hP hu hw⟩

theorem behind_tail {text : List Char} {c : Char} (h : text.head? = some c) (hc : Plain c) :
    Behind Balanced text text.tail := by
  refine ⟨[c], ?_, balanced_of_plain ?_⟩
  · exact List.eq_cons_of_mem_head? h
  · intro d hd
    rw [List.mem_singleton.mp hd]
    exact hc

theorem plain_of_isSpace {c : Char} (h : isSpace c = true) : Plain c := by
  have hc : c.toNat ∈ [32, 9, 10, 13] := of_decide_eq_true h
  refine ⟨?_, ?_, ?_, ?_⟩ <;> (rintro rfl; revert hc; decide)

theorem plain_of_isNumberChar {c : Char} (h : isNumberChar c = true) : Plain c := by
  refine ⟨?_, ?_, ?_, ?_⟩ <;> (rintro rfl; revert h; decide)

theorem behind_skipSpace (text : List Char) : Behind Balanced text (skipSpace text) :=
  ⟨text.takeWhile isSpace, (List.takeWhile_append_dropWhile ..).symm,
    balanced_of_plain fun _ hc => plain_of_isSpace (List.mem_takeWhile_imp hc)⟩

section Strings

variable {text rest : List Char}

theorem ne_of_hexValue {c : Char} {n : ℕ} (h : hexValue c = some n) :
    c ≠ quote ∧ c ≠ backslash := by
  have hquote : hexValue quote = none := by decide
  have hbackslash : hexValue backslash = none := by decide
  constructor
  · rintro rfl
    rw [hquote] at h
    cases h
  · rintro rfl
    rw [hbackslash] at h
    cases h

theorem readHex_behind {n : ℕ} (h : readHex text = some (n, rest)) :
    Behind InString text rest := by
  unfold readHex at h
  split at h
  · rename_i a b c d rest'
    split at h
    · rename_i ha hb hc hd
      cases h
      refine ⟨[a, b, c, d], rfl, inString_of_plain ?_⟩
      simp only [List.mem_cons, List.not_mem_nil, or_false, forall_eq_or_imp, forall_eq]
      exact ⟨ne_of_hexValue ha, ne_of_hexValue hb, ne_of_hexValue hc, ne_of_hexValue hd⟩
    · cases h
  · cases h

theorem readLowSurrogate_behind {high : ℕ} {c : Char}
    (h : readLowSurrogate high text = some (c, rest)) : Behind InString text rest := by
  unfold readLowSurrogate at h
  split at h
  · rename_i a b rest'
    split at h
    · rename_i hab
      split at h
      · rename_i low rest'' hhex
        split at h
        · obtain ⟨-, rfl⟩ := Prod.mk.inj (Option.some.inj h)
          refine behind_trans InString.append ⟨[a, b], rfl, ?_⟩ (readHex_behind hhex)
          rw [hab.1]
          exact inString_escape b
        · cases h
      · cases h
    · cases h
  · cases h

theorem readUnicode_behind {c : Char} (h : readUnicode text = some (c, rest)) :
    Behind InString text rest := by
  unfold readUnicode at h
  split at h
  · cases h
  · rename_i n rest' hhex
    split at h
    · exact behind_trans InString.append (readHex_behind hhex) (readLowSurrogate_behind h)
    · split at h
      · cases h
      · cases h
        exact readHex_behind hhex

theorem readChar_behind {c : Char} (hquote : text.head? ≠ some quote)
    (h : readChar text = some (c, rest)) : Behind InString text rest := by
  unfold readChar at h
  split at h
  · cases h
  · rename_i a rest'
    split at h
    · rename_i ha
      split at h
      · cases h
      · rename_i b rest''
        have hescape : Behind InString (a :: b :: rest'') rest'' :=
          ⟨[a, b], rfl, by rw [ha]; exact inString_escape b⟩
        split at h
        · exact behind_trans InString.append hescape (readUnicode_behind h)
        · obtain ⟨e, -, he⟩ := Option.map_eq_some_iff.mp h
          cases he
          exact hescape
    · rename_i ha
      split at h
      · cases h
      · cases h
        refine ⟨[c], rfl, inString_of_plain ?_⟩
        intro d hd
        rw [List.mem_singleton.mp hd]
        exact ⟨fun hc => hquote (congrArg some hc), ha⟩

theorem readString_behind {fuel : ℕ} {cs : List Char}
    (h : readString fuel text = some (cs, rest)) : Behind InString text (quote :: rest) := by
  induction fuel generalizing text cs with
  | zero => cases h
  | succ fuel ih =>
      rw [readString] at h
      split at h
      · rename_i hquote
        cases h
        exact ⟨[], List.eq_cons_of_mem_head? hquote, inString_nil⟩
      · rename_i hquote
        obtain ⟨⟨c, rest'⟩, hchar, h⟩ := Option.bind_eq_some_iff.mp h
        obtain ⟨⟨cs', rest''⟩, hmore, h⟩ := Option.map_eq_some_iff.mp h
        cases h
        exact behind_trans InString.append (readChar_behind hquote hchar) (ih hmore)

/-- A string with its quotes. -/
theorem readString_balanced {fuel : ℕ} {cs : List Char}
    (h : readString fuel text = some (cs, rest)) : Behind Balanced (quote :: text) rest := by
  obtain ⟨w, rfl, hw⟩ := readString_behind h
  exact ⟨quote :: (w ++ [quote]), by simp, balanced_quoted hw⟩

end Strings

section Values

variable {ν : Type} {F : NumberFormat ν} {text rest : List Char}

theorem readLiteral_behind {word : List Char} {u v : Value ν}
    (hword : word.all isNumberChar = true) (h : readLiteral word u text = some (v, rest)) :
    Behind Balanced text rest := by
  unfold readLiteral at h
  split at h
  · rename_i hprefix
    cases h
    obtain ⟨w, rfl⟩ := List.isPrefixOf_iff_prefix.mp hprefix
    exact ⟨word, by rw [List.drop_left], balanced_of_plain fun c hc =>
      plain_of_isNumberChar (List.all_eq_true.mp hword c hc)⟩
  · cases h

theorem readNumber_behind {v : Value ν} (h : readNumber F text = some (v, rest)) :
    Behind Balanced text rest := by
  obtain ⟨n, -, h⟩ := Option.map_eq_some_iff.mp h
  cases h
  exact ⟨text.takeWhile isNumberChar, (List.takeWhile_append_dropWhile ..).symm,
    balanced_of_plain fun _ hc => plain_of_isNumberChar (List.mem_takeWhile_imp hc)⟩

/-- The depth is what it was behind a value and behind the items of a list, and behind
the members of an object when its brace is closed. -/
structure Scans (F : NumberFormat ν) (fuel : ℕ) : Prop where
  value : ∀ {text v rest}, readValue F fuel text = some (v, rest) → Behind Balanced text rest
  item : ∀ {text vs rest}, readItem F fuel text = some (vs, rest) → Behind Balanced text rest
  items : ∀ {text vs rest}, readItems F fuel text = some (vs, rest) → Behind Balanced text rest
  member : ∀ {text ms rest}, readMember F fuel text = some (ms, rest) →
    Behind Balanced text (closeBrace :: rest)
  members : ∀ {text ms rest}, readMembers F fuel text = some (ms, rest) →
    Behind Balanced text (closeBrace :: rest)

/-- An object is read from its brace to the one that closes it. -/
theorem readValue_openBrace {fuel : ℕ} (hscans : Scans F fuel) {after : List Char}
    (htext : skipSpace text = openBrace :: after) {v : Value ν}
    (h : readValue F (fuel + 1) text = some (v, rest)) :
    Behind Balanced after (closeBrace :: rest) ∧ ∃ ms, v = .obj ms := by
  rw [readValue, htext] at h
  simp only [show openBrace ≠ quote by decide, show openBrace ≠ '[' by decide, if_false,
    if_true] at h
  split at h
  · rename_i hclose
    cases h
    refine ⟨?_, [], rfl⟩
    rw [← List.eq_cons_of_mem_head? hclose]
    exact behind_skipSpace after
  · obtain ⟨⟨ms, rest'⟩, hmember, h⟩ := Option.map_eq_some_iff.mp h
    cases h
    exact ⟨hscans.member hmember, ms, rfl⟩

theorem behind_braced {after : List Char} (h : Behind Balanced after (closeBrace :: rest)) :
    Behind Balanced (openBrace :: after) rest := by
  obtain ⟨m, rfl, hm⟩ := h
  exact ⟨openBrace :: (m ++ [closeBrace]), by simp, balanced_braced hm⟩

theorem readValue_behind {fuel : ℕ} (hscans : Scans F fuel) {v : Value ν}
    (h : readValue F (fuel + 1) text = some (v, rest)) : Behind Balanced text rest := by
  refine behind_trans Balanced.append (behind_skipSpace text) ?_
  cases htext : skipSpace text with
  | nil =>
      rw [readValue, htext] at h
      cases h
  | cons c after =>
      by_cases hbrace : c = openBrace
      · rw [hbrace] at htext ⊢
        exact behind_braced (readValue_openBrace hscans htext h).1
      rw [readValue, htext] at h
      simp only [if_neg hbrace] at h
      split at h
      · rename_i hquote
        obtain ⟨⟨cs, rest'⟩, hstring, h⟩ := Option.map_eq_some_iff.mp h
        cases h
        rw [hquote]
        exact readString_balanced hstring
      split at h
      · rename_i hbracket
        have hopen : Behind Balanced (c :: after) after :=
          behind_tail rfl (by rw [hbracket]; decide)
        refine behind_trans Balanced.append hopen ?_
        split at h
        · rename_i hclose
          cases h
          exact behind_trans Balanced.append (behind_skipSpace after)
            (behind_tail hclose (by decide))
        · obtain ⟨⟨vs, rest'⟩, hitem, h⟩ := Option.map_eq_some_iff.mp h
          cases h
          exact hscans.item hitem
      split at h
      · exact readLiteral_behind rfl h
      split at h
      · exact readLiteral_behind rfl h
      split at h
      · exact readLiteral_behind rfl h
      split at h
      · exact readNumber_behind h
      · cases h

theorem readItem_behind {fuel : ℕ} (hscans : Scans F fuel) {vs : List (Value ν)}
    (h : readItem F (fuel + 1) text = some (vs, rest)) : Behind Balanced text rest := by
  rw [readItem] at h
  obtain ⟨⟨v, rest'⟩, hvalue, h⟩ := Option.bind_eq_some_iff.mp h
  obtain ⟨⟨vs', rest''⟩, hmore, h⟩ := Option.map_eq_some_iff.mp h
  cases h
  exact behind_trans Balanced.append (hscans.value hvalue)
    (behind_trans Balanced.append (behind_skipSpace rest') (hscans.items hmore))

theorem readItems_behind {fuel : ℕ} (hscans : Scans F fuel) {vs : List (Value ν)}
    (h : readItems F (fuel + 1) text = some (vs, rest)) : Behind Balanced text rest := by
  rw [readItems] at h
  split at h
  · rename_i hclose
    cases h
    exact behind_tail hclose (by decide)
  split at h
  · rename_i hcomma
    exact behind_trans Balanced.append (behind_tail hcomma (by decide)) (hscans.item h)
  · cases h

theorem readMember_behind {fuel : ℕ} (hscans : Scans F fuel) {ms : List (String × Value ν)}
    (h : readMember F (fuel + 1) text = some (ms, rest)) :
    Behind Balanced text (closeBrace :: rest) := by
  rw [readMember] at h
  split at h
  · rename_i hquote
    obtain ⟨⟨name, afterName⟩, hname, h⟩ := Option.bind_eq_some_iff.mp h
    split at h
    · rename_i hcolon
      obtain ⟨⟨v, afterValue⟩, hvalue, h⟩ := Option.bind_eq_some_iff.mp h
      obtain ⟨⟨ms', rest'⟩, hmore, h⟩ := Option.map_eq_some_iff.mp h
      cases h
      have hkey : Behind Balanced text afterName := by
        refine behind_trans Balanced.append (behind_skipSpace text) ?_
        rw [List.eq_cons_of_mem_head? hquote]
        exact readString_balanced hname
      have hmember : Behind Balanced afterName afterValue :=
        behind_trans Balanced.append (behind_skipSpace afterName)
          (behind_trans Balanced.append (behind_tail hcolon (by decide)) (hscans.value hvalue))
      exact behind_trans Balanced.append (behind_trans Balanced.append hkey hmember)
        (behind_trans Balanced.append (behind_skipSpace afterValue) (hscans.members hmore))
    · cases h
  · cases h

theorem readMembers_behind {fuel : ℕ} (hscans : Scans F fuel) {ms : List (String × Value ν)}
    (h : readMembers F (fuel + 1) text = some (ms, rest)) :
    Behind Balanced text (closeBrace :: rest) := by
  rw [readMembers] at h
  split at h
  · rename_i hclose
    cases h
    exact ⟨[], List.eq_cons_of_mem_head? hclose, balanced_nil⟩
  split at h
  · rename_i hcomma
    exact behind_trans Balanced.append (behind_tail hcomma (by decide)) (hscans.member h)
  · cases h

theorem scans (F : NumberFormat ν) : ∀ fuel, Scans F fuel
  | 0 => ⟨nofun, nofun, nofun, nofun, nofun⟩
  | fuel + 1 =>
      have hscans := scans F fuel
      ⟨readValue_behind hscans, readItem_behind hscans, readItems_behind hscans,
        readMember_behind hscans, readMembers_behind hscans⟩

end Values

/-! ## Objects -/

/-- One scan is inside a string where the other is outside. -/
def Apart : Scan → Scan → Prop
  | .outside _, .inside _ => True
  | .inside _, .outside _ => True
  | _, _ => False

theorem Apart.symm {p q : Scan} (h : Apart p q) : Apart q p := by
  cases p <;> cases q <;> exact h

/-- Outside a string there is no backslash, so neither scan is ever behind one. -/
theorem apart_scanChar {depth depth' : ℕ} {c : Char} {p q : Scan}
    (hp : scanChar (.outside depth) c = some p) (hq : scanChar (.inside depth') c = some q) :
    Apart p q := by
  unfold scanChar at hp hq
  dsimp only at hp hq
  by_cases hquote : c = quote
  · rw [if_pos hquote] at hp hq
    cases hp
    cases hq
    trivial
  rw [if_neg hquote] at hp hq
  by_cases hbackslash : c = backslash
  · subst hbackslash
    cases hp
  rw [if_neg hbackslash] at hp hq
  cases hq
  split at hp
  · cases hp
    trivial
  split at hp
  · cases depth with
    | zero => cases hp
    | succ depth =>
        cases hp
        trivial
  · cases hp
    trivial

theorem apart_scan {w : List Char} : ∀ {p q p' q' : Scan}, Apart p q → scan p w = some p' →
    scan q w = some q' → Apart p' q' := by
  induction w with
  | nil =>
      intro p q p' q' h hp hq
      cases hp
      cases hq
      exact h
  | cons c w ih =>
      intro p q p' q' h hp hq
      obtain ⟨p₁, hp₁, hp⟩ := Option.bind_eq_some_iff.mp hp
      obtain ⟨q₁, hq₁, hq⟩ := Option.bind_eq_some_iff.mp hq
      refine ih ?_ hp hq
      match p, q, h with
      | .outside _, .inside _, _ => exact apart_scanChar hp₁ hq₁
      | .inside _, .outside _, _ => exact (apart_scanChar hq₁ hp₁).symm

/-- The text of no object ends in the text of another: where the other begins the scan
is in a string, and then stays on the other side of the quotes, or it is deeper than at
the end. -/
theorem eq_nil_of_braced {u m n : List Char} (hm : Balanced m) (hn : Balanced n)
    (h : openBrace :: (m ++ [closeBrace]) = u ++ openBrace :: (n ++ [closeBrace])) : u = [] := by
  cases u with
  | nil => rfl
  | cons c u =>
      obtain ⟨-, h⟩ := List.cons.inj h
      have hsplit : m = u ++ openBrace :: n := by
        have hcut : m ++ [closeBrace] = (u ++ openBrace :: n) ++ [closeBrace] := by
          rw [List.append_assoc]
          exact h
        exact List.append_cancel_right hcut
      have hscan := hm 0
      rw [hsplit, scan_append] at hscan
      obtain ⟨q, -, hq⟩ := Option.bind_eq_some_iff.mp hscan
      have hinside : ∀ depth, scan (.inside depth) n ≠ some (.outside 0) :=
        fun depth hdepth => apart_scan (p := .outside 0) (q := .inside depth) trivial (hn 0) hdepth
      cases q with
      | outside depth =>
          have hdeeper : scan (.outside (depth + 1)) n = some (.outside 0) := hq
          rw [hn (depth + 1)] at hdeeper
          cases hdeeper
      | inside depth => exact absurd hq (hinside depth)
      | escaped depth => exact absurd hq (hinside depth)

section Objects

variable {ν : Type} {F : NumberFormat ν}

/-- Only an object begins with a brace, and it ends with one. -/
theorem braced_of_loads {text : List Char} {v : Value ν} (h : loads F text = some v)
    (hopen : text.head? = some openBrace) :
    ∃ m spaces, text = openBrace :: (m ++ closeBrace :: spaces) ∧ Balanced m ∧
      skipSpace spaces = [] ∧ ∃ ms, v = .obj ms := by
  unfold loads at h
  split at h
  · rename_i v' rest hvalue
    split at h
    · rename_i hrest
      cases h
      have htext : text = openBrace :: text.tail := List.eq_cons_of_mem_head? hopen
      have hskip : skipSpace text = openBrace :: text.tail := by
        rw [htext]
        exact skipSpace_cons (by decide) text.tail
      obtain ⟨⟨m, hm, hbalanced⟩, hobj⟩ := readValue_openBrace (scans F _) hskip hvalue
      refine ⟨m, rest, ?_, hbalanced, hrest, hobj⟩
      rw [← hm]
      exact htext
    · cases h
  · cases h

/-- Nothing else is read as an object. -/
theorem head_of_readValue {fuel : ℕ} {text rest : List Char} {ms : List (String × Value ν)}
    (h : readValue F (fuel + 1) text = some (.obj ms, rest)) :
    (skipSpace text).head? = some openBrace := by
  rw [readValue] at h
  split at h
  · cases h
  rename_i c after htext
  rw [htext]
  split at h
  · obtain ⟨r, -, h⟩ := Option.map_eq_some_iff.mp h
    cases h
  split at h
  · split at h
    · cases h
    · obtain ⟨r, -, h⟩ := Option.map_eq_some_iff.mp h
      cases h
  split at h
  · rename_i hbrace
    exact congrArg some hbrace
  simp only [readLiteral, readNumber] at h
  split at h
  · split at h <;> cases h
  split at h
  · split at h <;> cases h
  split at h
  · split at h <;> cases h
  split at h
  · obtain ⟨n, -, h⟩ := Option.map_eq_some_iff.mp h
    cases h
  · cases h

theorem openBrace_mem_of_loads {text : List Char} {ms : List (String × Value ν)}
    (h : loads F text = some (.obj ms)) : openBrace ∈ text := by
  unfold loads at h
  split at h
  · rename_i v rest hvalue
    split at h
    · cases h
      exact (List.dropWhile_sublist isSpace).subset
        (List.mem_of_mem_head? (head_of_readValue hvalue))
    · cases h
  · cases h

/-- The text of an object from its first brace to its last. -/
structure ObjectText (F : NumberFormat ν) (text : List Char) (ms : List (String × Value ν)) :
    Prop where
  loads_eq : loads F text = some (.obj ms)
  head : text.head? = some openBrace
  last : text.getLast? = some closeBrace

theorem ObjectText.braced {text : List Char} {ms : List (String × Value ν)}
    (h : ObjectText F text ms) :
    ∃ m, text = openBrace :: (m ++ [closeBrace]) ∧ Balanced m := by
  obtain ⟨m, spaces, htext, hm, hspaces, -⟩ := braced_of_loads h.loads_eq h.head
  cases hlast : spaces.getLast? with
  | none =>
      rw [List.getLast?_eq_none_iff.mp hlast] at htext
      exact ⟨m, htext, hm⟩
  | some c =>
      have hspace : isSpace c = true :=
        List.dropWhile_eq_nil_iff.mp hspaces c (List.mem_of_getLast? hlast)
      have hc : text.getLast? = some c := by
        rw [htext, ← List.cons_append, List.getLast?_append, List.getLast?_cons, hlast]
        rfl
      rw [h.last] at hc
      cases hc
      exact absurd hspace (by decide)

/-- An object's text behind more text, from a brace on, is none. -/
theorem loads_append_eq_none {u text : List Char} {ms : List (String × Value ν)}
    (h : ObjectText F text ms) (hu : u.head? = some openBrace) : loads F (u ++ text) = none := by
  cases hloads : loads F (u ++ text) with
  | none => rfl
  | some v =>
      have hhead : (u ++ text).head? = some openBrace := by
        rw [List.head?_append, hu]
        rfl
      have hlast : (u ++ text).getLast? = some closeBrace := by
        rw [List.getLast?_append, h.last]
        rfl
      obtain ⟨-, -, -, -, -, ms', rfl⟩ := braced_of_loads hloads hhead
      have hwhole : ObjectText F (u ++ text) ms' := ⟨hloads, hhead, hlast⟩
      obtain ⟨m, htext, hbalanced⟩ := hwhole.braced
      obtain ⟨n, hn, hbalanced'⟩ := h.braced
      rw [hn] at htext
      rw [eq_nil_of_braced hbalanced hbalanced' htext.symm] at hu
      cases hu

/-- What an object's text ends in is none either. -/
theorem loads_suffix_eq_none {u text : List Char} {ms : List (String × Value ν)}
    (h : ObjectText F (u ++ text) ms) (hu : u ≠ []) (htext : text.head? = some openBrace) :
    loads F text = none := by
  cases hloads : loads F text with
  | none => rfl
  | some v =>
      have hlast : text.getLast? = some closeBrace := by
        have hne : text ≠ [] := by
          rintro rfl
          cases htext
        rw [← h.last, List.getLast?_append_of_ne_nil _ hne]
      obtain ⟨-, -, -, -, -, ms', rfl⟩ := braced_of_loads hloads htext
      obtain ⟨m, hwhole, hbalanced⟩ := h.braced
      obtain ⟨n, hn, hbalanced'⟩ := ObjectText.braced ⟨hloads, htext, hlast⟩
      rw [hn] at hwhole
      exact absurd (eq_nil_of_braced hbalanced hbalanced' hwhole.symm) hu

end Objects

end JsonText
