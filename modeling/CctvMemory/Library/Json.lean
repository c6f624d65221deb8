import Mathlib.Data.List.Sort
import Mathlib.Data.String.Basic

/-!
# JSON texts

JSON values, their compact text in ASCII (`dumps`) and a reader of JSON texts
(`loads`) that takes white space and every escape. A value is read back from its
text, so a text stands for one value. Numbers are a parameter: a type with its
way to be written and read.

* `loads_dumps`: a value is read back.
* `dumps_injective`: no two values have one text.
* `canonicalJson_inj`: texts with sorted names agree when the values do, whatever the
  order of the members.
-/

namespace JsonText

/-! ## Characters -/

abbrev quote : Char := Char.ofNat 34

abbrev backslash : Char := Char.ofNat 92

abbrev openBrace : Char := Char.ofNat 123

abbrev closeBrace : Char := Char.ofNat 125

def isNumberChar (c : Char) : Bool := c.isAlphanum || decide (c ∈ ['+', '-', '.'])

/-- What a number can start with: a digit, a sign, or a name of its own. -/
def startsNumber (c : Char) : Bool := c.isDigit || decide (c ∈ ['-', 'I', 'N'])

def hexDigit (n : ℕ) : Char :=
  if n < 10 then Char.ofNat (48 + n) else Char.ofNat (87 + n)

def hexValue (c : Char) : Option ℕ :=
  if c.isDigit then some (c.toNat - 48)
  else if 'a'.toNat ≤ c.toNat ∧ c.toNat ≤ 'f'.toNat then some (c.toNat - 87)
  else if 'A'.toNat ≤ c.toNat ∧ c.toNat ≤ 'F'.toNat then some (c.toNat - 55)
  else none

def isSpace (c : Char) : Bool := decide (c.toNat ∈ [32, 9, 10, 13])

/-! ## Values -/

inductive Value (ν : Type) where
  | null
  | bool (b : Bool)
  | num (n : ν)
  | str (s : String)
  | arr (items : List (Value ν))
  | obj (members : List (String × Value ν))

/-- Numbers as they are written and read. -/
structure NumberFormat (ν : Type) where
  ofInt : ℤ → ν
  write : ν → List Char
  read : List Char → Option ν
  read_write : ∀ n, read (write n) = some n
  write_chars : ∀ n, ∀ c ∈ write n, isNumberChar c = true
  write_head : ∀ n, ∃ c ∈ (write n).head?, startsNumber c = true
  ofInt_injective : Function.Injective ofInt

/-- The last member of a name. -/
def Value.get? {ν : Type} (v : Value ν) (name : String) : Option (Value ν) :=
  match v with
  | .obj members => members.reverse.lookup name
  | _ => none

/-! ## Writing -/

def unicodeEscape (n : ℕ) : List Char :=
  [backslash, 'u', hexDigit (n / 4096 % 16), hexDigit (n / 256 % 16), hexDigit (n / 16 % 16),
    hexDigit (n % 16)]

def escapeChar (c : Char) : List Char :=
  let n := c.toNat
  if n = 34 then [backslash, quote]
  else if n = 92 then [backslash, backslash]
  else if n = 10 then [backslash, 'n']
  else if n = 13 then [backslash, 'r']
  else if n = 9 then [backslash, 't']
  else if n = 12 then [backslash, 'f']
  else if n = 8 then [backslash, 'b']
  else if 32 ≤ n ∧ n ≤ 126 then [c]
  else if n < 65536 then unicodeEscape n
  else unicodeEscape (55296 + (n - 65536) / 1024) ++ unicodeEscape (56320 + (n - 65536) % 1024)

def writeString (s : String) : List Char := quote :: (s.toList.flatMap escapeChar ++ [quote])

section Write

variable {ν : Type} (F : NumberFormat ν)

mutual

/-- `json.dumps` with the separators `,` and `:`. -/
def dumps : Value ν → List Char
  | .null => ['n', 'u', 'l', 'l']
  | .bool true => ['t', 'r', 'u', 'e']
  | .bool false => ['f', 'a', 'l', 's', 'e']
  | .num n => F.write n
  | .str s => writeString s
  | .arr [] => ['[', ']']
  | .arr (v :: vs) => '[' :: (dumps v ++ dumpsItems vs)
  | .obj [] => [openBrace, closeBrace]
  | .obj ((k, v) :: ms) => openBrace :: (writeString k ++ ':' :: (dumps v ++ dumpsMembers ms))

/-- The items behind the first, with the bracket that closes them. -/
def dumpsItems : List (Value ν) → List Char
  | [] => [']']
  | v :: vs => ',' :: (dumps v ++ dumpsItems vs)

def dumpsMembers : List (String × Value ν) → List Char
  | [] => [closeBrace]
  | (k, v) :: ms => ',' :: (writeString k ++ ':' :: (dumps v ++ dumpsMembers ms))

end

end Write

/-! ## Reading -/

def skipSpace (text : List Char) : List Char := text.dropWhile isSpace

def readHex : List Char → Option (ℕ × List Char)
  | a :: b :: c :: d :: rest =>
      match hexValue a, hexValue b, hexValue c, hexValue d with
      | some a, some b, some c, some d => some (((a * 16 + b) * 16 + c) * 16 + d, rest)
      | _, _, _, _ => none
  | _ => none

/-- The second half of a surrogate pair. -/
def readLowSurrogate (high : ℕ) : List Char → Option (Char × List Char)
  | c :: d :: rest =>
      if c = backslash ∧ d = 'u' then
        match readHex rest with
        | some (low, rest) =>
            if 56320 ≤ low ∧ low < 57344 then
              some (Char.ofNat (65536 + (high - 55296) * 1024 + (low - 56320)), rest)
            else none
        | none => none
      else none
  | _ => none

/-- A character by its number; a lone surrogate is no character. -/
def readUnicode (text : List Char) : Option (Char × List Char) :=
  match readHex text with
  | none => none
  | some (n, rest) =>
      if 55296 ≤ n ∧ n < 56320 then readLowSurrogate n rest
      else if 56320 ≤ n ∧ n < 57344 then none
      else some (Char.ofNat n, rest)

def simpleEscape (c : Char) : Option Char :=
  if c = quote then some quote
  else if c = backslash then some backslash
  else if c = '/' then some '/'
  else if c = 'n' then some (Char.ofNat 10)
  else if c = 'r' then some (Char.ofNat 13)
  else if c = 't' then some (Char.ofNat 9)
  else if c = 'f' then some (Char.ofNat 12)
  else if c = 'b' then some (Char.ofNat 8)
  else none

/-- One character inside a string. -/
def readChar : List Char → Option (Char × List Char)
  | [] => none
  | c :: rest =>
      if c = backslash then
        match rest with
        | [] => none
        | d :: rest =>
            if d = 'u' then readUnicode rest else (simpleEscape d).map fun e => (e, rest)
      else if c.toNat < 32 then none
      else some (c, rest)

/-- The rest of a string, behind its first quote. -/
def readString : ℕ → List Char → Option (List Char × List Char)
  | 0, _ => none
  | fuel + 1, text =>
      if text.head? = some quote then some ([], text.tail)
      else (readChar text).bind fun r =>
        (readString fuel r.2).map fun more => (r.1 :: more.1, more.2)

section Read

variable {ν : Type} (F : NumberFormat ν)

def readLiteral (word : List Char) (v : Value ν) (text : List Char) :
    Option (Value ν × List Char) :=
  if word.isPrefixOf text then some (v, text.drop word.length) else none

def readNumber (text : List Char) : Option (Value ν × List Char) :=
  (F.read (text.takeWhile isNumberChar)).map fun n => (.num n, text.dropWhile isNumberChar)

mutual

def readValue : ℕ → List Char → Option (Value ν × List Char)
  | 0, _ => none
  | fuel + 1, text =>
      match skipSpace text with
      | [] => none
      | c :: rest =>
          if c = quote then
            (readString fuel rest).map fun r => (.str (String.ofList r.1), r.2)
          else if c = '[' then
            if (skipSpace rest).head? = some ']' then some (.arr [], (skipSpace rest).tail)
            else (readItem fuel rest).map fun r => (.arr r.1, r.2)
          else if c = openBrace then
            if (skipSpace rest).head? = some closeBrace then some (.obj [], (skipSpace rest).tail)
            else (readMember fuel rest).map fun r => (.obj r.1, r.2)
          else if c = 'n' then readLiteral ['n', 'u', 'l', 'l'] .null (c :: rest)
          else if c = 't' then readLiteral ['t', 'r', 'u', 'e'] (.bool true) (c :: rest)
          else if c = 'f' then readLiteral ['f', 'a', 'l', 's', 'e'] (.bool false) (c :: rest)
          else if startsNumber c = true then readNumber F (c :: rest)
          else none

/-- An item and those behind it. -/
def readItem : ℕ → List Char → Option (List (Value ν) × List Char)
  | 0, _ => none
  | fuel + 1, text =>
      (readValue fuel text).bind fun r =>
        (readItems fuel (skipSpace r.2)).map fun more => (r.1 :: more.1, more.2)

def readItems : ℕ → List Char → Option (List (Value ν) × List Char)
  | 0, _ => none
  | fuel + 1, text =>
      if text.head? = some ']' then some ([], text.tail)
      else if text.head? = some ',' then readItem fuel text.tail
      else none

def readMember : ℕ → List Char → Option (List (String × Value ν) × List Char)
  | 0, _ => none
  | fuel + 1, text =>
      if (skipSpace text).head? = some quote then
        (readString fuel (skipSpace text).tail).bind fun name =>
          if (skipSpace name.2).head? = some ':' then
            (readValue fuel (skipSpace name.2).tail).bind fun r =>
              (readMembers fuel (skipSpace r.2)).map fun more =>
                ((String.ofList name.1, r.1) :: more.1, more.2)
          else none
      else none

def readMembers : ℕ → List Char → Option (List (String × Value ν) × List Char)
  | 0, _ => none
  | fuel + 1, text =>
      if text.head? = some closeBrace then some ([], text.tail)
      else if text.head? = some ',' then readMember fuel text.tail
      else none

end

/-- `json.loads`. -/
def loads (text : List Char) : Option (Value ν) :=
  match readValue F (text.length + 1) text with
  | some (v, rest) => if skipSpace rest = [] then some v else none
  | none => none

end Read

/-! ## Strings are read back -/

theorem hexValue_hexDigit (n : ℕ) : hexValue (hexDigit (n % 16)) = some (n % 16) := by
  have hall : ∀ d < 16, hexValue (hexDigit d) = some d := by decide
  exact hall _ (Nat.mod_lt _ (by decide))

theorem readHex_unicodeEscape {n : ℕ} (h : n < 65536) (rest : List Char) :
    readHex ((unicodeEscape n).tail.tail ++ rest) = some (n, rest) := by
  unfold unicodeEscape
  simp only [List.tail_cons, List.cons_append, List.nil_append, readHex, hexValue_hexDigit]
  have hsum : ((n / 4096 % 16 * 16 + n / 256 % 16) * 16 + n / 16 % 16) * 16 + n % 16 = n := by
    omega
  rw [hsum]

/-- How a character is written: by a letter, as it is, by its number, or as a
surrogate pair. -/
inductive Escape (c : Char) : List Char → Prop
  | letter (d : Char) (hu : d ≠ 'u') (h : simpleEscape d = some c) : Escape c [backslash, d]
  | plain (hquote : c ≠ quote) (hbackslash : c ≠ backslash) (h : 32 ≤ c.toNat) : Escape c [c]
  | unicode (h : c.toNat < 65536) : Escape c (unicodeEscape c.toNat)
  | pair (h : 65536 ≤ c.toNat) : Escape c
      (unicodeEscape (55296 + (c.toNat - 65536) / 1024) ++
        unicodeEscape (56320 + (c.toNat - 65536) % 1024))

theorem escape_escapeChar (c : Char) : Escape c (escapeChar c) := by
  have hof : ∀ n, c.toNat = n → c = Char.ofNat n := by
    intro n h
    rw [← h, Char.ofNat_toNat]
  unfold escapeChar
  dsimp only
  split
  · rename_i h
    exact .letter quote (by decide) (by rw [hof _ h]; decide)
  rename_i hquote
  split
  · rename_i h
    exact .letter backslash (by decide) (by rw [hof _ h]; decide)
  rename_i hbackslash
  split
  · rename_i h
    exact .letter 'n' (by decide) (by rw [hof _ h]; decide)
  split
  · rename_i h
    exact .letter 'r' (by decide) (by rw [hof _ h]; decide)
  split
  · rename_i h
    exact .letter 't' (by decide) (by rw [hof _ h]; decide)
  split
  · rename_i h
    exact .letter 'f' (by decide) (by rw [hof _ h]; decide)
  split
  · rename_i h
    exact .letter 'b' (by decide) (by rw [hof _ h]; decide)
  split
  · rename_i h
    exact .plain (fun he => hquote (by rw [he]; rfl)) (fun he => hbackslash (by rw [he]; rfl)) h.1
  split
  · rename_i h
    exact .unicode h
  · rename_i h
    exact .pair (Nat.le_of_not_lt h)

theorem Escape.head_ne {c : Char} {text : List Char} (h : Escape c text) (rest : List Char) :
    (text ++ rest).head? ≠ some quote := by
  cases h with
  | letter d hu h => exact fun he => absurd (Option.some.inj he) (by decide)
  | plain hquote _ _ => exact fun he => hquote (Option.some.inj he)
  | unicode _ => exact fun he => absurd (Option.some.inj he) (by decide)
  | pair _ => exact fun he => absurd (Option.some.inj he) (by decide)

theorem unicodeEscape_eq (n : ℕ) :
    unicodeEscape n = backslash :: 'u' :: (unicodeEscape n).tail.tail := rfl

theorem readUnicode_low {n : ℕ} (h : n < 65536) (hsurrogate : ¬ (55296 ≤ n ∧ n < 57344))
    (rest : List Char) :
    readUnicode ((unicodeEscape n).tail.tail ++ rest) = some (Char.ofNat n, rest) := by
  unfold readUnicode
  rw [readHex_unicodeEscape h]
  have hhigh : ¬ (55296 ≤ n ∧ n < 56320) := by omega
  have hlow : ¬ (56320 ≤ n ∧ n < 57344) := by omega
  simp only [hhigh, hlow, if_false]

theorem readUnicode_pair {high low : ℕ} (hhigh : 55296 ≤ high ∧ high < 56320)
    (hlow : 56320 ≤ low ∧ low < 57344) (rest : List Char) :
    readUnicode ((unicodeEscape high).tail.tail ++ (unicodeEscape low ++ rest))
      = some (Char.ofNat (65536 + (high - 55296) * 1024 + (low - 56320)), rest) := by
  unfold readUnicode
  rw [readHex_unicodeEscape (by omega)]
  simp only [hhigh, and_self, if_true]
  rw [unicodeEscape_eq low]
  simp only [readLowSurrogate, List.cons_append, and_self, if_true]
  rw [readHex_unicodeEscape (by omega)]
  simp only [hlow, and_self, if_true]

theorem toNat_valid (c : Char) : c.toNat < 1114112 ∧ ¬ (55296 ≤ c.toNat ∧ c.toNat < 57344) := by
  have hvalid := c.valid
  unfold Char.toNat
  rcases hvalid with h | ⟨h, h'⟩
  · omega
  · omega

theorem readChar_escapeChar (c : Char) (rest : List Char) :
    readChar (escapeChar c ++ rest) = some (c, rest) := by
  obtain ⟨hmax, hsurrogate⟩ := toNat_valid c
  have hescape := escape_escapeChar c
  generalize escapeChar c = text at hescape
  cases hescape with
  | letter d hu h => simp [readChar, hu, h]
  | plain hquote hbackslash h =>
      have hprintable : ¬ c.toNat < 32 := Nat.not_lt_of_le h
      simp [readChar, hbackslash, hprintable]
  | unicode h =>
      rw [unicodeEscape_eq]
      simp only [readChar, List.cons_append, if_true]
      rw [readUnicode_low h hsurrogate, Char.ofNat_toNat]
  | pair h =>
      generalize hhigh : (c.toNat - 65536) / 1024 = high
      generalize hlow : (c.toNat - 65536) % 1024 = low
      rw [unicodeEscape_eq (55296 + high), List.append_assoc]
      simp only [readChar, List.cons_append, if_true]
      rw [readUnicode_pair (by omega) (by omega)]
      have hsum : 65536 + (55296 + high - 55296) * 1024 + (56320 + low - 56320) = c.toNat := by
        omega
      rw [hsum, Char.ofNat_toNat]

/-- A written string is read back, up to its closing quote. -/
theorem readString_flatMap (cs rest : List Char) :
    ∀ fuel, cs.length < fuel →
      readString fuel (cs.flatMap escapeChar ++ quote :: rest) = some (cs, rest) := by
  induction cs with
  | nil =>
      intro fuel hfuel
      obtain ⟨fuel, rfl⟩ := Nat.exists_eq_succ_of_ne_zero (Nat.ne_of_gt hfuel)
      simp [readString]
  | cons c cs ih =>
      intro fuel hfuel
      obtain ⟨fuel, rfl⟩ := Nat.exists_eq_succ_of_ne_zero (Nat.ne_of_gt (Nat.zero_lt_of_lt hfuel))
      rw [List.flatMap_cons, List.append_assoc]
      unfold readString
      rw [if_neg ((escape_escapeChar c).head_ne _), readChar_escapeChar, Option.bind_some,
        ih fuel (Nat.lt_of_succ_lt_succ hfuel)]
      rfl

theorem readString_writeString (s : String) (rest : List Char) {fuel : ℕ}
    (h : (writeString s).length ≤ fuel + 1) :
    readString fuel ((writeString s).tail ++ rest) = some (s.toList, rest) := by
  have hlength : ∀ cs : List Char, cs.length ≤ (cs.flatMap escapeChar).length := by
    intro cs
    induction cs with
    | nil => exact Nat.le_refl _
    | cons c cs ih =>
        have hne : (escapeChar c).length ≠ 0 := by
          intro hzero
          have hnil := List.eq_nil_of_length_eq_zero hzero
          have hescape := escape_escapeChar c
          rw [hnil] at hescape
          cases hescape
        rw [List.flatMap_cons, List.length_append, List.length_cons]
        omega
  unfold writeString at h ⊢
  rw [List.length_cons, List.length_append, List.length_singleton] at h
  have hcs := hlength s.toList
  rw [List.tail_cons, List.append_assoc]
  exact readString_flatMap s.toList rest fuel (by omega)

/-! ## Values are read back -/

theorem skipSpace_cons {c : Char} (h : isSpace c = false) (rest : List Char) :
    skipSpace (c :: rest) = c :: rest := List.dropWhile_cons_of_neg (by rw [h]; decide)

/-- A number ends here. -/
def Follows (rest : List Char) : Prop := ∀ c ∈ rest.head?, isNumberChar c = false

theorem follows_cons {c : Char} (h : isNumberChar c = false) (rest : List Char) :
    Follows (c :: rest) := fun _ hd => Option.some.inj hd ▸ h

section Roundtrip

variable {ν : Type} {F : NumberFormat ν}

theorem span_number {text rest : List Char} (h : ∀ c ∈ text, isNumberChar c = true)
    (hrest : Follows rest) :
    (text ++ rest).takeWhile isNumberChar = text
      ∧ (text ++ rest).dropWhile isNumberChar = rest := by
  induction text with
  | nil =>
      cases rest with
      | nil => exact ⟨rfl, rfl⟩
      | cons c rest =>
          have hc : isNumberChar c = false := hrest c rfl
          simp [hc]
  | cons c text ih =>
      have hc : isNumberChar c = true := h c List.mem_cons_self
      obtain ⟨htake, hdrop⟩ := ih fun d hd => h d (List.mem_cons_of_mem c hd)
      simp [hc, htake, hdrop]

theorem readNumber_write (n : ν) {rest : List Char} (hrest : Follows rest) :
    readNumber F (F.write n ++ rest) = some (.num n, rest) := by
  obtain ⟨htake, hdrop⟩ := span_number (F.write_chars n) hrest
  unfold readNumber
  rw [htake, hdrop, F.read_write]
  rfl

theorem not_space_of_startsNumber {c : Char} (h : startsNumber c = true) : isSpace c = false := by
  have hchar : ∀ n, c.toNat = n → startsNumber (Char.ofNat n) = true := by
    intro n hn
    rwa [← hn, Char.ofNat_toNat]
  unfold isSpace
  rw [decide_eq_false_iff_not]
  intro hspace
  simp only [List.mem_cons, List.not_mem_nil, or_false] at hspace
  rcases hspace with hn | hn | hn | hn
  · exact absurd (hchar _ hn) (by decide)
  · exact absurd (hchar _ hn) (by decide)
  · exact absurd (hchar _ hn) (by decide)
  · exact absurd (hchar _ hn) (by decide)

/-- What a number starts with starts nothing else. -/
theorem ne_of_startsNumber {c d : Char} (h : startsNumber c = true)
    (hd : startsNumber d = false) : c ≠ d := by
  rintro rfl
  rw [h] at hd
  cases hd

/-- A text starts with neither a space nor a closing bracket. -/
theorem head_dumps (v : Value ν) :
    ∃ c text, dumps F v = c :: text ∧ isSpace c = false ∧ c ≠ ']' := by
  cases v with
  | null => exact ⟨_, _, rfl, by decide, by decide⟩
  | bool b => cases b <;> exact ⟨_, _, rfl, by decide, by decide⟩
  | num n =>
      obtain ⟨c, hc, hstart⟩ := F.write_head n
      obtain ⟨text, htext⟩ : ∃ text, F.write n = c :: text := by
        cases hw : F.write n with
        | nil =>
            rw [hw] at hc
            cases hc
        | cons d text =>
            rw [hw] at hc
            obtain rfl := Option.some.inj hc
            exact ⟨text, rfl⟩
      exact ⟨c, text, htext, not_space_of_startsNumber hstart,
        ne_of_startsNumber hstart (by decide)⟩
  | str s => exact ⟨_, _, rfl, by decide, by decide⟩
  | arr items => cases items <;> exact ⟨_, _, rfl, by decide, by decide⟩
  | obj members => cases members <;> exact ⟨_, _, rfl, by decide, by decide⟩

theorem skipSpace_dumps (v : Value ν) (rest : List Char) :
    skipSpace (dumps F v ++ rest) = dumps F v ++ rest := by
  obtain ⟨c, text, htext, hspace, -⟩ := head_dumps (F := F) v
  rw [htext]
  exact skipSpace_cons hspace _

theorem length_dumps_pos (v : Value ν) : 0 < (dumps F v).length := by
  obtain ⟨c, text, htext, -⟩ := head_dumps (F := F) v
  rw [htext]
  exact Nat.succ_pos _

/-- What follows an item or a member: a comma, or the end. -/
theorem head_dumpsItems (vs : List (Value ν)) :
    ∃ c text, dumpsItems F vs = c :: text ∧ isSpace c = false ∧ isNumberChar c = false := by
  cases vs <;> exact ⟨_, _, rfl, by decide, by decide⟩

theorem head_dumpsMembers (ms : List (String × Value ν)) :
    ∃ c text, dumpsMembers F ms = c :: text ∧ isSpace c = false ∧ isNumberChar c = false := by
  cases ms <;> exact ⟨_, _, rfl, by decide, by decide⟩

/-- With `fuel` to go, texts of at most that length are read back. -/
structure Reads (F : NumberFormat ν) (fuel : ℕ) : Prop where
  value : ∀ v rest, (dumps F v).length ≤ fuel → Follows rest →
    readValue F fuel (dumps F v ++ rest) = some (v, rest)
  item : ∀ v vs rest, (dumps F v).length + (dumpsItems F vs).length ≤ fuel →
    readItem F fuel (dumps F v ++ (dumpsItems F vs ++ rest)) = some (v :: vs, rest)
  items : ∀ vs rest, (dumpsItems F vs).length ≤ fuel →
    readItems F fuel (dumpsItems F vs ++ rest) = some (vs, rest)
  member : ∀ k v ms rest,
    (writeString k).length + 1 + (dumps F v).length + (dumpsMembers F ms).length ≤ fuel →
    readMember F fuel (writeString k ++ ':' :: (dumps F v ++ (dumpsMembers F ms ++ rest)))
      = some ((k, v) :: ms, rest)
  members : ∀ ms rest, (dumpsMembers F ms).length ≤ fuel →
    readMembers F fuel (dumpsMembers F ms ++ rest) = some (ms, rest)

theorem reads_zero : Reads F 0 where
  value v rest h _ := absurd (length_dumps_pos (F := F) v) (by omega)
  item v vs rest h := absurd (length_dumps_pos (F := F) v) (by omega)
  items vs rest h := by
    obtain ⟨c, text, htext, -⟩ := head_dumpsItems (F := F) vs
    rw [htext] at h
    cases h
  member k v ms rest h := absurd (length_dumps_pos (F := F) v) (by omega)
  members ms rest h := by
    obtain ⟨c, text, htext, -⟩ := head_dumpsMembers (F := F) ms
    rw [htext] at h
    cases h

theorem readValue_num {fuel : ℕ} (n : ν) {rest : List Char} (hrest : Follows rest) :
    readValue F (fuel + 1) (dumps F (.num n) ++ rest) = some (.num n, rest) := by
  have hread := readNumber_write (F := F) n hrest
  obtain ⟨c, hc, hstart⟩ := F.write_head n
  unfold readValue
  rw [skipSpace_dumps, dumps]
  cases hw : F.write n with
  | nil =>
      rw [hw] at hc
      cases hc
  | cons d text =>
      rw [hw] at hc hread
      obtain rfl : c = d := (Option.some.inj hc).symm
      rw [List.cons_append] at hread ⊢
      simp only
      rw [if_neg (ne_of_startsNumber hstart (by decide)),
        if_neg (ne_of_startsNumber hstart (by decide)),
        if_neg (ne_of_startsNumber hstart (by decide)),
        if_neg (ne_of_startsNumber hstart (by decide)),
        if_neg (ne_of_startsNumber hstart (by decide)),
        if_neg (ne_of_startsNumber hstart (by decide)), if_pos hstart, hread]

/-- An item starts where it was written; the list is not empty. -/
theorem head_item (v : Value ν) (rest : List Char) :
    (skipSpace (dumps F v ++ rest)).head? ≠ some ']' := by
  obtain ⟨c, text, htext, -, hclose⟩ := head_dumps (F := F) v
  rw [skipSpace_dumps, htext]
  exact fun h => hclose (Option.some.inj h)

theorem skipSpace_writeString (s : String) (rest : List Char) :
    skipSpace (writeString s ++ rest) = quote :: ((writeString s).tail ++ rest) :=
  skipSpace_cons (by decide) _

theorem readValue_succ {fuel : ℕ} (h : Reads F fuel) (v : Value ν) (rest : List Char)
    (hlength : (dumps F v).length ≤ fuel + 1) (hrest : Follows rest) :
    readValue F (fuel + 1) (dumps F v ++ rest) = some (v, rest) := by
  cases v with
  | null =>
      unfold readValue
      rw [skipSpace_dumps]
      simp only [dumps, List.cons_append]
      rw [if_neg (by decide), if_neg (by decide), if_neg (by decide), if_pos trivial]
      simp [readLiteral]
  | bool b =>
      unfold readValue
      rw [skipSpace_dumps]
      cases b with
      | true =>
          simp only [dumps, List.cons_append]
          rw [if_neg (by decide), if_neg (by decide), if_neg (by decide), if_neg (by decide),
            if_pos trivial]
          simp [readLiteral]
      | false =>
          simp only [dumps, List.cons_append]
          rw [if_neg (by decide), if_neg (by decide), if_neg (by decide), if_neg (by decide),
            if_neg (by decide), if_pos trivial]
          simp [readLiteral]
  | num n => exact readValue_num n hrest
  | str s =>
      unfold readValue
      rw [dumps] at hlength ⊢
      rw [skipSpace_writeString]
      simp only [if_true]
      rw [readString_writeString s rest hlength, Option.map_some, String.ofList_toList]
  | arr items =>
      cases items with
      | nil =>
          unfold readValue
          rw [skipSpace_dumps]
          simp only [dumps, List.cons_append]
          rw [if_neg (by decide), if_pos trivial, skipSpace_cons (by decide), List.head?_cons,
            if_pos rfl]
          rfl
      | cons v vs =>
          rw [dumps, List.length_cons, List.length_append] at hlength
          unfold readValue
          rw [skipSpace_dumps]
          simp only [dumps, List.cons_append, List.append_assoc]
          rw [if_neg (by decide), if_pos trivial, if_neg (head_item v _),
            h.item v vs rest (by omega)]
          rfl
  | obj members =>
      cases members with
      | nil =>
          unfold readValue
          rw [skipSpace_dumps]
          simp only [dumps, List.cons_append]
          rw [if_neg (by decide), if_neg (by decide), if_pos trivial, skipSpace_cons (by decide),
            List.head?_cons, if_pos rfl]
          rfl
      | cons m ms =>
          obtain ⟨k, v⟩ := m
          rw [dumps, List.length_cons, List.length_append, List.length_cons,
            List.length_append] at hlength
          unfold readValue
          rw [skipSpace_dumps]
          simp only [dumps, List.cons_append, List.append_assoc]
          rw [if_neg (by decide), if_neg (by decide), if_pos trivial, if_neg (by
            rw [skipSpace_writeString]
            exact fun he => absurd (Option.some.inj he) (by decide)),
            h.member k v ms rest (by omega)]
          rfl

theorem follows_dumpsItems (vs : List (Value ν)) (rest : List Char) :
    Follows (dumpsItems F vs ++ rest) := by
  obtain ⟨c, text, htext, -, hchar⟩ := head_dumpsItems (F := F) vs
  rw [htext]
  exact follows_cons hchar _

theorem follows_dumpsMembers (ms : List (String × Value ν)) (rest : List Char) :
    Follows (dumpsMembers F ms ++ rest) := by
  obtain ⟨c, text, htext, -, hchar⟩ := head_dumpsMembers (F := F) ms
  rw [htext]
  exact follows_cons hchar _

theorem skipSpace_dumpsItems (vs : List (Value ν)) (rest : List Char) :
    skipSpace (dumpsItems F vs ++ rest) = dumpsItems F vs ++ rest := by
  obtain ⟨c, text, htext, hspace, -⟩ := head_dumpsItems (F := F) vs
  rw [htext]
  exact skipSpace_cons hspace _

theorem skipSpace_dumpsMembers (ms : List (String × Value ν)) (rest : List Char) :
    skipSpace (dumpsMembers F ms ++ rest) = dumpsMembers F ms ++ rest := by
  obtain ⟨c, text, htext, hspace, -⟩ := head_dumpsMembers (F := F) ms
  rw [htext]
  exact skipSpace_cons hspace _

theorem length_dumpsItems_pos (vs : List (Value ν)) : 0 < (dumpsItems F vs).length := by
  obtain ⟨c, text, htext, -⟩ := head_dumpsItems (F := F) vs
  rw [htext]
  exact Nat.succ_pos _

theorem readItem_succ {fuel : ℕ} (h : Reads F fuel) (v : Value ν) (vs : List (Value ν))
    (rest : List Char)
    (hlength : (dumps F v).length + (dumpsItems F vs).length ≤ fuel + 1) :
    readItem F (fuel + 1) (dumps F v ++ (dumpsItems F vs ++ rest)) = some (v :: vs, rest) := by
  have hv := length_dumps_pos (F := F) v
  have hvs := length_dumpsItems_pos (F := F) vs
  unfold readItem
  rw [h.value v _ (by omega) (follows_dumpsItems vs rest), Option.bind_some,
    skipSpace_dumpsItems, h.items vs rest (by omega)]
  rfl

theorem readItems_succ {fuel : ℕ} (h : Reads F fuel) (vs : List (Value ν)) (rest : List Char)
    (hlength : (dumpsItems F vs).length ≤ fuel + 1) :
    readItems F (fuel + 1) (dumpsItems F vs ++ rest) = some (vs, rest) := by
  unfold readItems
  cases vs with
  | nil => simp [dumpsItems]
  | cons v vs =>
      rw [dumpsItems, List.length_cons, List.length_append] at hlength
      simp only [dumpsItems, List.cons_append, List.append_assoc]
      rw [List.head?_cons, if_neg (fun he => absurd (Option.some.inj he) (by decide)), if_pos rfl,
        List.tail_cons, h.item v vs rest (by omega)]

theorem readMember_succ {fuel : ℕ} (h : Reads F fuel) (k : String) (v : Value ν)
    (ms : List (String × Value ν)) (rest : List Char)
    (hlength : (writeString k).length + 1 + (dumps F v).length + (dumpsMembers F ms).length
      ≤ fuel + 1) :
    readMember F (fuel + 1) (writeString k ++ ':' :: (dumps F v ++ (dumpsMembers F ms ++ rest)))
      = some ((k, v) :: ms, rest) := by
  have hv := length_dumps_pos (F := F) v
  unfold readMember
  rw [skipSpace_writeString, List.head?_cons, if_pos rfl, List.tail_cons,
    readString_writeString k _ (by omega), Option.bind_some,
    skipSpace_cons (by decide), List.head?_cons, if_pos rfl, List.tail_cons,
    h.value v _ (by omega) (follows_dumpsMembers ms rest), Option.bind_some,
    skipSpace_dumpsMembers, h.members ms rest (by omega), Option.map_some, String.ofList_toList]

theorem readMembers_succ {fuel : ℕ} (h : Reads F fuel) (ms : List (String × Value ν))
    (rest : List Char) (hlength : (dumpsMembers F ms).length ≤ fuel + 1) :
    readMembers F (fuel + 1) (dumpsMembers F ms ++ rest) = some (ms, rest) := by
  unfold readMembers
  cases ms with
  | nil => simp [dumpsMembers]
  | cons m ms =>
      obtain ⟨k, v⟩ := m
      rw [dumpsMembers, List.length_cons, List.length_append, List.length_cons,
        List.length_append] at hlength
      simp only [dumpsMembers, List.cons_append, List.append_assoc]
      rw [List.head?_cons, if_neg (fun he => absurd (Option.some.inj he) (by decide)), if_pos rfl,
        List.tail_cons, h.member k v ms rest (by omega)]

theorem reads : ∀ fuel, Reads F fuel := by
  intro fuel
  induction fuel with
  | zero => exact reads_zero
  | succ fuel ih =>
      exact {
        value := readValue_succ ih
        item := readItem_succ ih
        items := readItems_succ ih
        member := readMember_succ ih
        members := readMembers_succ ih }

/-- A value is read back from its text. -/
theorem loads_dumps (v : Value ν) : loads F (dumps F v) = some v := by
  have hread := (reads (F := F) ((dumps F v).length + 1)).value v [] (Nat.le_succ _)
    fun c hc => by cases hc
  rw [List.append_nil] at hread
  unfold loads
  rw [hread]
  rfl

theorem dumps_injective : Function.Injective (dumps F) := by
  intro v w h
  have hv := loads_dumps (F := F) v
  rw [h, loads_dumps] at hv
  exact (Option.some.inj hv).symm

end Roundtrip

/-! ## Texts are printable ASCII -/

def Printable (c : Char) : Prop := 32 ≤ c.toNat ∧ c.toNat < 127

instance (c : Char) : Decidable (Printable c) :=
  inferInstanceAs (Decidable (32 ≤ c.toNat ∧ c.toNat < 127))

section Ascii

variable {ν : Type} {F : NumberFormat ν}

theorem printable_hexDigit (n : ℕ) : Printable (hexDigit (n % 16)) := by
  have hall : ∀ d < 16, Printable (hexDigit d) := by decide
  exact hall _ (Nat.mod_lt _ (by decide))

theorem printable_unicodeEscape (n : ℕ) : ∀ c ∈ unicodeEscape n, Printable c := by
  unfold unicodeEscape
  simp only [List.mem_cons, List.not_mem_nil, or_false]
  rintro c (rfl | rfl | rfl | rfl | rfl | rfl)
  · decide
  · decide
  · exact printable_hexDigit _
  · exact printable_hexDigit _
  · exact printable_hexDigit _
  · exact printable_hexDigit _

theorem printable_escapeChar (c : Char) : ∀ d ∈ escapeChar c, Printable d := by
  have hletter : ∀ d, Printable d → ∀ e ∈ [backslash, d], Printable e := by
    intro d hd e he
    simp only [List.mem_cons, List.not_mem_nil, or_false] at he
    rcases he with rfl | rfl
    · decide
    · exact hd
  unfold escapeChar
  dsimp only
  split
  · exact hletter _ (by decide)
  split
  · exact hletter _ (by decide)
  split
  · exact hletter _ (by decide)
  split
  · exact hletter _ (by decide)
  split
  · exact hletter _ (by decide)
  split
  · exact hletter _ (by decide)
  split
  · exact hletter _ (by decide)
  split
  · rename_i h
    intro d hd
    rw [List.mem_singleton.mp hd]
    exact ⟨h.1, Nat.lt_succ_of_le h.2⟩
  split
  · exact printable_unicodeEscape _
  · intro d hd
    rcases List.mem_append.mp hd with hd | hd
    · exact printable_unicodeEscape _ d hd
    · exact printable_unicodeEscape _ d hd

theorem printable_writeString (s : String) : ∀ c ∈ writeString s, Printable c := by
  intro c hc
  simp only [writeString, List.mem_cons, List.mem_append, List.mem_flatMap, List.not_mem_nil,
    or_false] at hc
  rcases hc with rfl | ⟨d, -, hd⟩ | rfl
  · decide
  · exact printable_escapeChar d c hd
  · decide

theorem isUpper_iff {c : Char} : c.isUpper = true ↔ 65 ≤ c.toNat ∧ c.toNat ≤ 90 :=
  decide_eq_true_iff

theorem isLower_iff {c : Char} : c.isLower = true ↔ 97 ≤ c.toNat ∧ c.toNat ≤ 122 := by
  show (decide _ && decide _) = true ↔ _
  rw [Bool.and_eq_true, decide_eq_true_iff, decide_eq_true_iff]
  exact Iff.rfl

theorem isAlphanum_iff {c : Char} : c.isAlphanum = true ↔
    ((65 ≤ c.toNat ∧ c.toNat ≤ 90) ∨ (97 ≤ c.toNat ∧ c.toNat ≤ 122)) ∨
      48 ≤ c.toNat ∧ c.toNat ≤ 57 := by
  rw [← isUpper_iff, ← isLower_iff, ← Bool.or_eq_true]
  show (_ || c.isDigit) = true ↔ _
  rw [Bool.or_eq_true, Char.isDigit_iff_toNat]
  exact Iff.rfl

theorem printable_of_isNumberChar {c : Char} (h : isNumberChar c = true) : Printable c := by
  rw [isNumberChar, Bool.or_eq_true, isAlphanum_iff, decide_eq_true_eq] at h
  simp only [List.mem_cons, List.not_mem_nil, or_false] at h
  unfold Printable
  rcases h with h | rfl | rfl | rfl
  · omega
  · decide
  · decide
  · decide

theorem printable_of_all {text : List Char}
    (h : (text.all fun c => decide (Printable c)) = true) : ∀ c ∈ text, Printable c :=
  fun c hc => of_decide_eq_true (List.all_eq_true.mp h c hc)

theorem printable_member {k : String} {value rest : List Char}
    (hvalue : ∀ c ∈ value, Printable c) (hrest : ∀ c ∈ rest, Printable c) :
    ∀ c ∈ writeString k ++ ':' :: (value ++ rest), Printable c := by
  intro c hc
  rw [List.mem_append, List.mem_cons, List.mem_append] at hc
  rcases hc with hc | rfl | hc | hc
  · exact printable_writeString k c hc
  · decide
  · exact hvalue c hc
  · exact hrest c hc

mutual

theorem printable_dumps : ∀ v : Value ν, ∀ c ∈ dumps F v, Printable c
  | .null, c, hc => @printable_of_all ['n', 'u', 'l', 'l'] rfl c hc
  | .bool true, c, hc => @printable_of_all ['t', 'r', 'u', 'e'] rfl c hc
  | .bool false, c, hc => @printable_of_all ['f', 'a', 'l', 's', 'e'] rfl c hc
  | .num n, c, hc => printable_of_isNumberChar (F.write_chars n c hc)
  | .str s, c, hc => printable_writeString s c hc
  | .arr [], c, hc => @printable_of_all ['[', ']'] rfl c hc
  | .arr (v :: vs), c, hc => by
      rw [dumps, List.mem_cons, List.mem_append] at hc
      rcases hc with rfl | hc | hc
      · decide
      · exact printable_dumps v c hc
      · exact printable_dumpsItems vs c hc
  | .obj [], c, hc => @printable_of_all [openBrace, closeBrace] rfl c hc
  | .obj ((k, v) :: ms), c, hc => by
      rw [dumps, List.mem_cons] at hc
      rcases hc with rfl | hc
      · decide
      · exact printable_member (printable_dumps v) (printable_dumpsMembers ms) c hc

theorem printable_dumpsItems : ∀ vs : List (Value ν), ∀ c ∈ dumpsItems F vs, Printable c
  | [], c, hc => @printable_of_all [']'] rfl c hc
  | v :: vs, c, hc => by
      rw [dumpsItems, List.mem_cons, List.mem_append] at hc
      rcases hc with rfl | hc | hc
      · decide
      · exact printable_dumps v c hc
      · exact printable_dumpsItems vs c hc

theorem printable_dumpsMembers : ∀ ms : List (String × Value ν), ∀ c ∈ dumpsMembers F ms,
    Printable c
  | [], c, hc => @printable_of_all [closeBrace] rfl c hc
  | (k, v) :: ms, c, hc => by
      rw [dumpsMembers, List.mem_cons] at hc
      rcases hc with rfl | hc
      · decide
      · exact printable_member (printable_dumps v) (printable_dumpsMembers ms) c hc

end

end Ascii

/-! ## Sorted members -/

section Order

variable {ν : Type}

def keyLE (a b : String × Value ν) : Prop := a.1 ≤ b.1

instance : DecidableRel (@keyLE ν) := fun a b => inferInstanceAs (Decidable (a.1 ≤ b.1))

mutual

/-- The value with the members of every object sorted by name. -/
def sortKeys : Value ν → Value ν
  | .arr items => .arr (sortItems items)
  | .obj members => .obj ((sortMembers members).insertionSort keyLE)
  | v => v

def sortItems : List (Value ν) → List (Value ν)
  | [] => []
  | v :: vs => sortKeys v :: sortItems vs

def sortMembers : List (String × Value ν) → List (String × Value ν)
  | [] => []
  | (k, v) :: ms => (k, sortKeys v) :: sortMembers ms

end

/-- The same value, whatever the order of the members of its objects. -/
def Same (v w : Value ν) : Prop := sortKeys v = sortKeys w

@[simp] theorem sortItems_eq (vs : List (Value ν)) : sortItems vs = vs.map sortKeys := by
  induction vs with
  | nil => rfl
  | cons v vs ih => rw [sortItems, ih, List.map_cons]

@[simp] theorem sortMembers_eq (ms : List (String × Value ν)) :
    sortMembers ms = ms.map (fun m => (m.1, sortKeys m.2)) := by
  induction ms with
  | nil => rfl
  | cons m ms ih => rw [sortMembers, ih, List.map_cons]

@[simp] theorem same_str {s t : String} : Same (.str s : Value ν) (.str t) ↔ s = t := by
  simp [Same, sortKeys]

@[simp] theorem same_num {m n : ν} : Same (.num m) (.num n) ↔ m = n := by
  simp [Same, sortKeys]

theorem same_arr {vs ws : List (Value ν)} :
    Same (.arr vs) (.arr ws) ↔ vs.map sortKeys = ws.map sortKeys := by
  simp [Same, sortKeys]

/-- The members with sorted values, in the order they stand in. -/
abbrev sorted (ms : List (String × Value ν)) : List (String × Value ν) :=
  ms.map (fun m => (m.1, sortKeys m.2))

theorem keys_sorted (ms : List (String × Value ν)) :
    (sorted ms).map Prod.fst = ms.map Prod.fst := by
  rw [List.map_map]
  rfl

theorem perm_of_same {ms ns : List (String × Value ν)} (h : Same (.obj ms) (.obj ns)) :
    (sorted ms).Perm (sorted ns) := by
  unfold Same at h
  simp only [sortKeys, sortMembers_eq, Value.obj.injEq] at h
  have hms := List.perm_insertionSort keyLE (sorted ms)
  rw [h] at hms
  exact hms.symm.trans (List.perm_insertionSort keyLE (sorted ns))

theorem keyLE_total : Std.Total (@keyLE ν) := ⟨fun a b => le_total a.1 b.1⟩

theorem keyLE_trans : IsTrans (String × Value ν) keyLE := ⟨fun _ _ _ => le_trans⟩

/-- Members of different names sort in one way only. -/
theorem same_of_perm {ms ns : List (String × Value ν)} (hnodup : (ms.map Prod.fst).Nodup)
    (h : (sorted ms).Perm (sorted ns)) : Same (.obj ms) (.obj ns) := by
  have := @keyLE_total ν
  have := @keyLE_trans ν
  have hperm : ((sorted ms).insertionSort keyLE).Perm ((sorted ns).insertionSort keyLE) :=
    (List.perm_insertionSort keyLE _).trans (h.trans (List.perm_insertionSort keyLE _).symm)
  have hinj : Set.InjOn Prod.fst {m | m ∈ sorted ms} := by
    rw [← keys_sorted] at hnodup
    exact fun a ha b hb => List.inj_on_of_nodup_map hnodup ha hb
  have heq : (sorted ms).insertionSort keyLE = (sorted ns).insertionSort keyLE := by
    refine List.Perm.eq_of_pairwise ?_ (List.pairwise_insertionSort keyLE _)
      (List.pairwise_insertionSort keyLE _) hperm
    intro a b ha hb hab hba
    rw [List.mem_insertionSort] at ha hb
    exact hinj ha (h.mem_iff.mpr hb) (le_antisymm hab hba)
  unfold Same
  simp only [sortKeys, sortMembers_eq, heq]

theorem same_obj_iff {ms ns : List (String × Value ν)} (hnodup : (ms.map Prod.fst).Nodup) :
    Same (.obj ms) (.obj ns) ↔ (sorted ms).Perm (sorted ns) :=
  ⟨perm_of_same, same_of_perm hnodup⟩

theorem eq_of_perm_of_keys : ∀ {ms ns : List (String × Value ν)}, (ms.map Prod.fst).Nodup →
    ms.map Prod.fst = ns.map Prod.fst → ms.Perm ns → ms = ns
  | [], ns, _, _, h => (List.nil_perm.mp h).symm
  | a :: ms, [], _, _, h => absurd h.length_eq (by simp)
  | a :: ms, b :: ns, hnodup, hkeys, h => by
      simp only [List.map_cons, List.cons.injEq, List.nodup_cons] at hnodup hkeys
      -- the name of `a` stands once, so `a` cannot stand further back
      have hab : a = b := by
        have ha : a ∈ b :: ns := h.mem_iff.mp List.mem_cons_self
        cases ha with
        | head => rfl
        | tail _ ha =>
            have hmem : a.1 ∈ ns.map Prod.fst := List.mem_map_of_mem ha
            rw [← hkeys.2] at hmem
            exact absurd hmem hnodup.1
      subst hab
      rw [eq_of_perm_of_keys hnodup.2 hkeys.2 (List.perm_cons a |>.mp h)]

/-- Two records of one layout are the same when each field is. -/
theorem same_record_iff {ms ns : List (String × Value ν)} (hnodup : (ms.map Prod.fst).Nodup)
    (hkeys : ms.map Prod.fst = ns.map Prod.fst) :
    Same (.obj ms) (.obj ns) ↔
      ms.map (fun m => sortKeys m.2) = ns.map (fun m => sortKeys m.2) := by
  have hsnd : ∀ l : List (String × Value ν),
      (sorted l).map Prod.snd = l.map (fun m => sortKeys m.2) := by
    intro l
    rw [List.map_map]
    rfl
  have hzip : ∀ l : List (String × Value ν),
      sorted l = (l.map Prod.fst).zip (l.map (fun m => sortKeys m.2)) := by
    intro l
    rw [List.zip_map']
  rw [same_obj_iff hnodup]
  constructor
  · intro h
    have heq : sorted ms = sorted ns :=
      eq_of_perm_of_keys (by rwa [keys_sorted]) (by rwa [keys_sorted, keys_sorted]) h
    rw [← hsnd, heq, hsnd]
  · intro h
    rw [hzip ms, hzip ns, hkeys, h]

/-- Sorting members by name commutes with selecting them by name. -/
theorem same_filter (p : String → Bool) {ms ns : List (String × Value ν)}
    (hnodup : (ms.map Prod.fst).Nodup) (h : Same (.obj ms) (.obj ns)) :
    Same (.obj (ms.filter (p ·.1))) (.obj (ns.filter (p ·.1))) := by
  have hsorted : ∀ l : List (String × Value ν),
      sorted (l.filter (p ·.1)) = (sorted l).filter (p ·.1) := by
    intro l
    rw [List.filter_map]
    rfl
  refine same_of_perm (hnodup.sublist (List.filter_sublist.map _)) ?_
  rw [hsorted, hsorted]
  exact (perm_of_same h).filter _

/-! ## Canonical texts -/

/-- `json.dumps` with sorted names. -/
def canonicalJson (F : NumberFormat ν) (v : Value ν) : List Char := dumps F (sortKeys v)

theorem lookup_eq_some_of_mem {α : Type} : ∀ {ms : List (String × α)} {k : String} {v : α},
    (ms.map Prod.fst).Nodup → (k, v) ∈ ms → ms.lookup k = some v
  | m :: ms, k, v, hnodup, h => by
      rw [List.map_cons, List.nodup_cons] at hnodup
      cases h with
      | head => exact List.lookup_cons_self
      | tail _ h =>
          have hne : (k == m.1) = false := by
            rw [beq_eq_false_iff_ne]
            intro heq
            have hmem : k ∈ ms.map Prod.fst := List.mem_map_of_mem h
            exact hnodup.1 (heq ▸ hmem)
          rw [List.lookup_cons, hne]
          exact lookup_eq_some_of_mem hnodup.2 h

/-- A member is found by its name, sorted or not. -/
theorem get?_sortKeys {ms : List (String × Value ν)} {k : String} {v : Value ν}
    (hnodup : (ms.map Prod.fst).Nodup) (h : (k, v) ∈ ms) :
    (sortKeys (.obj ms)).get? k = some (sortKeys v) := by
  have hperm := List.perm_insertionSort keyLE (sorted ms)
  simp only [sortKeys, sortMembers_eq, Value.get?]
  refine lookup_eq_some_of_mem ?_ ?_
  · rw [List.map_reverse, List.nodup_reverse, (hperm.map Prod.fst).nodup_iff, keys_sorted]
    exact hnodup
  · rw [List.mem_reverse, hperm.mem_iff]
    exact List.mem_map_of_mem h

theorem canonicalJson_inj {F : NumberFormat ν} {v w : Value ν} :
    canonicalJson F v = canonicalJson F w ↔ Same v w := dumps_injective.eq_iff

end Order

/-! ## Whole numbers -/

def readDigits (text : List Char) : Option ℕ :=
  if text ≠ [] ∧ text.all Char.isDigit then some (Nat.ofDigitChars 10 text 0) else none

def writeInt : ℤ → List Char
  | .ofNat n => Nat.toDigits 10 n
  | .negSucc n => '-' :: Nat.toDigits 10 (n + 1)

def readInt (text : List Char) : Option ℤ :=
  if text.head? = some '-' then (readDigits text.tail).map fun n => -(n : ℤ)
  else (readDigits text).map fun n => (n : ℤ)

theorem readDigits_toDigits (n : ℕ) : readDigits (Nat.toDigits 10 n) = some n := by
  unfold readDigits
  rw [if_pos ⟨Nat.toDigits_ne_nil, List.all_eq_true.mpr fun c hc =>
    Nat.isDigit_of_mem_toDigits (by decide) (by decide) hc⟩, Nat.ofDigitChars_ten_toDigits]

theorem head_toDigits (n : ℕ) : ∃ c ∈ (Nat.toDigits 10 n).head?, c.isDigit = true := by
  cases hdigits : Nat.toDigits 10 n with
  | nil => exact absurd hdigits Nat.toDigits_ne_nil
  | cons c text =>
      refine ⟨c, rfl, ?_⟩
      have hc : c ∈ Nat.toDigits 10 n := by
        rw [hdigits]
        exact List.mem_cons_self
      exact Nat.isDigit_of_mem_toDigits (by decide) (by decide) hc

theorem isNumberChar_of_isDigit {c : Char} (h : c.isDigit = true) : isNumberChar c = true := by
  rw [isNumberChar, Bool.or_eq_true]
  exact .inl (by rw [show c.isAlphanum = (c.isAlpha || c.isDigit) from rfl, h, Bool.or_true])

theorem startsNumber_of_isDigit {c : Char} (h : c.isDigit = true) : startsNumber c = true := by
  simp [startsNumber, h]

theorem readInt_writeInt (n : ℤ) : readInt (writeInt n) = some n := by
  cases n with
  | ofNat n =>
      obtain ⟨c, hc, hdigit⟩ := head_toDigits n
      have hminus : (Nat.toDigits 10 n).head? ≠ some '-' := by
        intro h
        rw [h] at hc
        obtain rfl := Option.some.inj hc
        exact absurd hdigit (by decide)
      unfold readInt writeInt
      rw [if_neg hminus, readDigits_toDigits]
      rfl
  | negSucc n =>
      unfold readInt writeInt
      rw [List.head?_cons, if_pos rfl, List.tail_cons, readDigits_toDigits]
      rfl

theorem isNumberChar_of_mem_toDigits {n : ℕ} {c : Char} (h : c ∈ Nat.toDigits 10 n) :
    isNumberChar c = true :=
  isNumberChar_of_isDigit (Nat.isDigit_of_mem_toDigits (by decide) (by decide) h)

/-- Whole numbers in decimal notation. -/
def wholeNumbers : NumberFormat ℤ where
  ofInt n := n
  write := writeInt
  read := readInt
  read_write := readInt_writeInt
  write_chars n c hc := by
    cases n with
    | ofNat n => exact isNumberChar_of_mem_toDigits hc
    | negSucc n =>
        cases hc with
        | head => decide
        | tail _ hc => exact isNumberChar_of_mem_toDigits hc
  write_head n := by
    cases n with
    | ofNat n =>
        obtain ⟨c, hc, hdigit⟩ := head_toDigits n
        exact ⟨c, hc, startsNumber_of_isDigit hdigit⟩
    | negSucc n => exact ⟨'-', rfl, by decide⟩
  ofInt_injective _ _ h := h

end JsonText
