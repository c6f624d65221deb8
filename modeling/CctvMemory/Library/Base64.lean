import Mathlib.Data.List.DropRight

/-!
# Base64 texts

Bytes as letters, three bytes in four letters, and the lenient reader: it skips
what is no letter of either alphabet and stops at the end of a padded group.
The unpadded form drops the trailing `=`; they are put back before it is read.

* `decode_encode`: bytes are read back from their text.
* `decode_pad_strip`: and from the text without its padding.
-/

namespace Base64

/-! ## Letters -/

/-- The value of a letter of either alphabet. -/
def value (c : Char) : Option ℕ :=
  if 65 ≤ c.toNat ∧ c.toNat ≤ 90 then some (c.toNat - 65)
  else if 97 ≤ c.toNat ∧ c.toNat ≤ 122 then some (c.toNat - 71)
  else if 48 ≤ c.toNat ∧ c.toNat ≤ 57 then some (c.toNat + 4)
  else if c = '+' ∨ c = '-' then some 62
  else if c = '/' ∨ c = '_' then some 63
  else none

/-- The letters of the values 62 and 63. -/
structure Alphabet where
  plus : Char
  slash : Char
  value_plus : value plus = some 62
  value_slash : value slash = some 63

def standard : Alphabet := ⟨'+', '/', by decide, by decide⟩

def urlSafe : Alphabet := ⟨'-', '_', by decide, by decide⟩

/-- The letters and digits, by their value. -/
def alphanum (n : ℕ) : Char :=
  if n < 26 then Char.ofNat (65 + n)
  else if n < 52 then Char.ofNat (71 + n)
  else Char.ofNat (n - 4)

def letter (A : Alphabet) (n : ℕ) : Char :=
  if n < 62 then alphanum n else if n = 62 then A.plus else A.slash

theorem value_letter (A : Alphabet) {n : ℕ} (h : n < 64) : value (letter A n) = some n := by
  have halphanum : ∀ m < 62, value (alphanum m) = some m := by decide
  unfold letter
  split
  · rename_i hlt
    exact halphanum n hlt
  · rename_i hge
    split
    · rename_i heq
      rw [A.value_plus, heq]
    · rename_i hne
      have hlast : n = 63 := by omega
      rw [A.value_slash, hlast]

theorem value_pad : value '=' = none := by decide

theorem letter_ne_pad (A : Alphabet) {n : ℕ} (h : n < 64) : letter A n ≠ '=' := by
  intro he
  have hvalue := value_letter A h
  rw [he, value_pad] at hvalue
  cases hvalue

theorem ascii_of_value {c : Char} {v : ℕ} (h : value c = some v) : c.toNat < 128 := by
  unfold value at h
  split at h
  · omega
  split at h
  · omega
  split at h
  · omega
  split at h
  · rename_i hc
    rcases hc with rfl | rfl <;> decide
  split at h
  · rename_i hc
    rcases hc with rfl | rfl <;> decide
  · cases h

/-! ## Writing -/

section Encode

variable (A : Alphabet)

/-- The letters of the bytes, the bits of the last group filled up with zeros. -/
def unpadded : List UInt8 → List Char
  | [] => []
  | [a] => [letter A (a.toNat / 4), letter A (a.toNat % 4 * 16)]
  | [a, b] =>
      [letter A (a.toNat / 4), letter A (a.toNat % 4 * 16 + b.toNat / 16),
        letter A (b.toNat % 16 * 4)]
  | a :: b :: c :: rest =>
      letter A (a.toNat / 4) :: letter A (a.toNat % 4 * 16 + b.toNat / 16)
        :: letter A (b.toNat % 16 * 4 + c.toNat / 64) :: letter A (c.toNat % 64)
        :: unpadded rest

end Encode

/-- `text + "=" * (-len(text) % 4)`. -/
def pad (text : List Char) : List Char :=
  text ++ List.replicate ((4 - text.length % 4) % 4) '='

def encode (A : Alphabet) (bytes : List UInt8) : List Char := pad (unpadded A bytes)

/-- `rstrip("=")`. -/
def strip (text : List Char) : List Char := text.rdropWhile (· = '=')

/-! ## Reading -/

/-- The rest of a text, `quad` letters into a group: `left` are the bits not yet
put out, `pads` the `=` seen in the group. -/
def decodeFrom (quad left pads : ℕ) : List Char → Option (List UInt8)
  | [] => if quad = 0 then some [] else none
  | c :: rest =>
      if c = '=' then
        if 2 ≤ quad then
          if 4 ≤ quad + (pads + 1) then some [] else decodeFrom quad left (pads + 1) rest
        else decodeFrom quad left pads rest
      else match value c with
        | none => decodeFrom quad left pads rest
        | some v =>
            match quad with
            | 0 => decodeFrom 1 v 0 rest
            | 1 => (decodeFrom 2 (v % 16) 0 rest).map (UInt8.ofNat (left * 4 + v / 16) :: ·)
            | 2 => (decodeFrom 3 (v % 4) 0 rest).map (UInt8.ofNat (left * 16 + v / 4) :: ·)
            | _ => (decodeFrom 0 0 0 rest).map (UInt8.ofNat (left * 64 + v) :: ·)

/-- A text that is not ASCII is refused. -/
def decode (text : List Char) : Option (List UInt8) :=
  if text.all fun c => decide (c.toNat < 128) then decodeFrom 0 0 0 text else none

/-! ## Bytes are read back -/

section Roundtrip

variable {A : Alphabet}

theorem toNat_letters (a b : UInt8) :
    a.toNat / 4 < 64 ∧ a.toNat % 4 * 16 + b.toNat / 16 < 64 ∧ a.toNat % 4 * 16 < 64
      ∧ a.toNat % 16 * 4 + b.toNat / 64 < 64 ∧ a.toNat % 16 * 4 < 64 ∧ a.toNat % 64 < 64 := by
  have ha := a.toNat_lt
  have hb := b.toNat_lt
  omega

theorem mem_unpadded : ∀ (bytes : List UInt8), ∀ c ∈ unpadded A bytes,
    ∃ n < 64, c = letter A n
  | [], c, hc => absurd hc List.not_mem_nil
  | [a], c, hc => by
      obtain ⟨h1, -, h2, -⟩ := toNat_letters a a
      simp only [unpadded, List.mem_cons, List.not_mem_nil, or_false] at hc
      rcases hc with rfl | rfl
      · exact ⟨_, h1, rfl⟩
      · exact ⟨_, h2, rfl⟩
  | [a, b], c, hc => by
      obtain ⟨h1, h2, -⟩ := toNat_letters a b
      obtain ⟨-, -, -, -, h3, -⟩ := toNat_letters b b
      simp only [unpadded, List.mem_cons, List.not_mem_nil, or_false] at hc
      rcases hc with rfl | rfl | rfl
      · exact ⟨_, h1, rfl⟩
      · exact ⟨_, h2, rfl⟩
      · exact ⟨_, h3, rfl⟩
  | a :: b :: d :: rest, c, hc => by
      obtain ⟨h1, h2, -⟩ := toNat_letters a b
      obtain ⟨-, -, -, h3, -⟩ := toNat_letters b d
      obtain ⟨-, -, -, -, -, h4⟩ := toNat_letters d d
      simp only [unpadded, List.mem_cons] at hc
      rcases hc with rfl | rfl | rfl | rfl | hc
      · exact ⟨_, h1, rfl⟩
      · exact ⟨_, h2, rfl⟩
      · exact ⟨_, h3, rfl⟩
      · exact ⟨_, h4, rfl⟩
      · exact mem_unpadded rest c hc

/-- One letter, by its place in the group. -/
theorem decodeFrom_letter {n : ℕ} (h : n < 64) (left pads : ℕ) (rest : List Char) :
    decodeFrom 0 left pads (letter A n :: rest) = decodeFrom 1 n 0 rest
    ∧ decodeFrom 1 left pads (letter A n :: rest)
      = (decodeFrom 2 (n % 16) 0 rest).map (UInt8.ofNat (left * 4 + n / 16) :: ·)
    ∧ decodeFrom 2 left pads (letter A n :: rest)
      = (decodeFrom 3 (n % 4) 0 rest).map (UInt8.ofNat (left * 16 + n / 4) :: ·)
    ∧ decodeFrom 3 left pads (letter A n :: rest)
      = (decodeFrom 0 0 0 rest).map (UInt8.ofNat (left * 64 + n) :: ·) := by
  have hpad := letter_ne_pad A h
  have hvalue := value_letter A h
  simp only [decodeFrom.eq_2, if_neg hpad, hvalue, and_self]

theorem ofNat_of_eq {a : UInt8} {n : ℕ} (h : n = a.toNat) : UInt8.ofNat n = a := by
  rw [h, UInt8.ofNat_toNat]

theorem pad_group (a b c d : Char) (rest : List Char) :
    pad (a :: b :: c :: d :: rest) = a :: b :: c :: d :: pad rest := by
  unfold pad
  simp only [List.length_cons, List.cons_append, Nat.add_assoc, Nat.add_mod_right]

/-- What is left of a group of one or two bytes, with its padding. -/
theorem decodeFrom_pads (left : ℕ) :
    decodeFrom 2 left 0 ['=', '='] = some [] ∧ decodeFrom 3 left 0 ['='] = some [] := by
  constructor
  · simp [decodeFrom]
  · simp [decodeFrom]

theorem decodeFrom_pad_unpadded : ∀ bytes : List UInt8,
    decodeFrom 0 0 0 (pad (unpadded A bytes)) = some bytes
  | [] => by simp [unpadded, pad, decodeFrom]
  | [a] => by
      obtain ⟨h1, -, h2, -⟩ := toNat_letters a a
      have ha : a.toNat / 4 * 4 + a.toNat % 4 * 16 / 16 = a.toNat := by omega
      change decodeFrom 0 0 0 [letter A (a.toNat / 4), letter A (a.toNat % 4 * 16), '=', '='] = _
      rw [(decodeFrom_letter h1 _ _ _).1, (decodeFrom_letter h2 _ _ _).2.1, (decodeFrom_pads _).1,
        Option.map_some, ofNat_of_eq ha]
  | [a, b] => by
      obtain ⟨h1, h2, -⟩ := toNat_letters a b
      obtain ⟨-, -, -, -, h3, -⟩ := toNat_letters b b
      have hb := b.toNat_lt
      have ha : a.toNat / 4 * 4 + (a.toNat % 4 * 16 + b.toNat / 16) / 16 = a.toNat := by omega
      have hb' : (a.toNat % 4 * 16 + b.toNat / 16) % 16 * 16 + b.toNat % 16 * 4 / 4 = b.toNat := by
        omega
      change decodeFrom 0 0 0 [letter A (a.toNat / 4),
        letter A (a.toNat % 4 * 16 + b.toNat / 16), letter A (b.toNat % 16 * 4), '='] = _
      rw [(decodeFrom_letter h1 _ _ _).1, (decodeFrom_letter h2 _ _ _).2.1,
        (decodeFrom_letter h3 _ _ _).2.2.1, (decodeFrom_pads _).2, Option.map_some, Option.map_some,
        ofNat_of_eq ha, ofNat_of_eq hb']
  | a :: b :: d :: rest => by
      obtain ⟨h1, h2, -⟩ := toNat_letters a b
      obtain ⟨-, -, -, h3, -⟩ := toNat_letters b d
      obtain ⟨-, -, -, -, -, h4⟩ := toNat_letters d d
      have hb := b.toNat_lt
      have hd := d.toNat_lt
      have ha : a.toNat / 4 * 4 + (a.toNat % 4 * 16 + b.toNat / 16) / 16 = a.toNat := by omega
      have hb' : (a.toNat % 4 * 16 + b.toNat / 16) % 16 * 16
          + (b.toNat % 16 * 4 + d.toNat / 64) / 4 = b.toNat := by omega
      have hd' : (b.toNat % 16 * 4 + d.toNat / 64) % 4 * 64 + d.toNat % 64 = d.toNat := by omega
      rw [unpadded, pad_group, (decodeFrom_letter h1 _ _ _).1, (decodeFrom_letter h2 _ _ _).2.1,
        (decodeFrom_letter h3 _ _ _).2.2.1, (decodeFrom_letter h4 _ _ _).2.2.2,
        decodeFrom_pad_unpadded rest, Option.map_some, Option.map_some, Option.map_some,
        ofNat_of_eq ha, ofNat_of_eq hb', ofNat_of_eq hd']

/-- Bytes are read back from their text. -/
theorem decode_encode (bytes : List UInt8) : decode (encode A bytes) = some bytes := by
  have hascii : (encode A bytes).all fun c => decide (c.toNat < 128) := by
    rw [List.all_eq_true]
    intro c hc
    rw [decide_eq_true_eq]
    rcases List.mem_append.mp hc with hc | hc
    · obtain ⟨n, hn, rfl⟩ := mem_unpadded bytes c hc
      exact ascii_of_value (value_letter A hn)
    · rw [List.eq_of_mem_replicate hc]
      decide
  unfold decode
  rw [if_pos hascii]
  exact decodeFrom_pad_unpadded bytes

/-- The padding is all that is stripped. -/
theorem strip_encode (bytes : List UInt8) : strip (encode A bytes) = unpadded A bytes := by
  have hlast : (unpadded A bytes).rdropWhile (· = '=') = unpadded A bytes := by
    rw [List.rdropWhile_eq_self_iff]
    intro hne
    obtain ⟨n, hn, hlast⟩ := mem_unpadded bytes _ (List.getLast_mem hne)
    rw [hlast, decide_eq_true_eq]
    exact letter_ne_pad A hn
  unfold strip encode pad
  generalize (4 - (unpadded A bytes).length % 4) % 4 = n
  induction n with
  | zero => rw [List.replicate_zero, List.append_nil, hlast]
  | succ n ih => rw [List.replicate_succ', ← List.append_assoc,
      List.rdropWhile_concat_pos _ _ _ (by decide), ih]

/-- Bytes are read back from the text without its padding. -/
theorem decode_pad_strip (bytes : List UInt8) :
    decode (pad (strip (encode A bytes))) = some bytes := by
  rw [strip_encode]
  exact decode_encode bytes

end Roundtrip

end Base64
