import CctvMemory.Library.Json
import CctvMemory.Library.KeySort
import CctvMemory.Maintenance.Reindex
import CctvMemory.Worker.Retry
import Mathlib.Data.List.Perm.Subperm

/-!
# The response of the embedding provider

`OpenAICompatibleEmbeddingFormat.parse_response`: the vectors of a response, in
the order of the indexes the provider gives, or of their places where it gives
none. The response is any JSON document; the floats are a parameter.

* `parseSound_iff`: the vectors belong to the texts in their order exactly when
  no number overflows and the provider labels nothing at all or every text once.
* `repeated_label_misaligned`: two items with one label.
* `writes_labelled`: with aligned vectors a batch writes every text's own.
-/

namespace CctvMemory.Maintenance

open JsonText (Value)
open CctvMemory.Publication (ObservationRecord)
open CctvMemory.Search (TextField)
open CctvMemory.Worker (floatOverflow)

/-! ## Numbers -/

/-- Floats: the nearest one to an integer, and what `float(text)` reads. -/
structure Floats (φ : Type) where
  ofInt : ℤ → φ
  ofText : String → Option φ

/-- A number of a JSON document. -/
inductive Scalar (φ : Type) where
  | int (n : ℤ)
  | float (x : φ)
deriving DecidableEq

inductive Conversion where
  | typeOrValueError
  | overflowError
deriving DecidableEq

inductive EmbeddingRaised where
  | embeddingError (message : String)
  | overflowError (message : String)
deriving DecidableEq

section

variable {φ : Type} (F : Floats φ)

/-- `float(x)`. -/
def floatOf : Value (Scalar φ) → Except Conversion φ
  | .num (.int n) => if floatOverflow ≤ n.natAbs then .error .overflowError else .ok (F.ofInt n)
  | .num (.float x) => .ok x
  | .bool b => .ok (F.ofInt (if b then 1 else 0))
  | .str text =>
      match F.ofText text with
      | some x => .ok x
      | none => .error .typeOrValueError
  | _ => .error .typeOrValueError

/-- `[float(x) for x in raw]`. -/
def floatsOf : List (Value (Scalar φ)) → Except Conversion (List φ)
  | [] => .ok []
  | x :: xs => do
      let y ← floatOf F x
      let ys ← floatsOf xs
      pure (y :: ys)

/-! ## The items -/

/-- The index of an item, where it is an integer; `True` and `False` are. -/
def labelOf (item : Value (Scalar φ)) : Option ℤ :=
  match item.get? "index" with
  | some (.num (.int n)) => some n
  | some (.bool b) => some (if b then 1 else 0)
  | _ => none

def readItem (position : ℕ) (item : Value (Scalar φ)) : Except EmbeddingRaised (ℤ × List φ) :=
  match item.get? "embedding" with
  | none => .error (.embeddingError "unexpected embedding response: missing 'embedding'")
  | some (.arr raw) =>
      match floatsOf F raw with
      | .ok vector => .ok ((labelOf item).getD position, vector)
      | .error .typeOrValueError =>
          .error (.embeddingError "embedding contained non-numeric values")
      | .error .overflowError => .error (.overflowError "int too large to convert to float")
  | some _ => .error (.embeddingError "unexpected embedding response: embedding not a list")

/-- The loop over the items, from a position on. -/
def readItems : ℕ → List (Value (Scalar φ)) → Except EmbeddingRaised (List (ℤ × List φ))
  | _, [] => .ok []
  | position, item :: items => do
      let entry ← readItem F position item
      let rest ← readItems (position + 1) items
      pure (entry :: rest)

/-- `indexed.sort(key=lambda pair: pair[0])`, which is stable. -/
def sortByIndex (indexed : List (ℤ × List φ)) : List (ℤ × List φ) :=
  indexed.mergeSort fun a b => decide (a.1 ≤ b.1)

def parseResponse (body : Value (Scalar φ)) (expectedCount : ℕ) :
    Except EmbeddingRaised (List (List φ)) :=
  match body.get? "data" with
  | some (.arr data) =>
      if data.length ≠ expectedCount then
        .error (.embeddingError ("embedding count mismatch: expected " ++
          toString expectedCount ++ ", got " ++ toString data.length))
      else (readItems F 0 data).map fun indexed => (sortByIndex indexed).map Prod.snd
  | _ => .error (.embeddingError "unexpected embedding response: missing 'data' array")

/-! ## What the provider sent -/

/-- The item holds this vector. -/
def Holds (item : Value (Scalar φ)) (vector : List φ) : Prop :=
  ∃ raw, item.get? "embedding" = some (.arr raw) ∧
    List.Forall₂ (fun x y => floatOf F x = .ok y) raw vector

/-- One vector for each text: the one labelled with its place, or the one sent at
its place where no item has a label. -/
structure Aligned (data : List (Value (Scalar φ))) (count : ℕ) (vectors : List (List φ)) :
    Prop where
  length : vectors.length = count
  own : ∀ i < count, ∃ item vector, vectors[i]? = some vector ∧ Holds F item vector ∧
    (item ∈ data ∧ labelOf item = some (i : ℤ) ∨
      data[i]? = some item ∧ ∀ other ∈ data, labelOf other = none)

/-- The parse raises `EmbeddingError`, or its vectors belong to the texts. -/
def ParseSound (body : Value (Scalar φ)) (texts : List String) : Prop :=
  match parseResponse F body texts.length with
  | .ok vectors => ∃ data, body.get? "data" = some (.arr data) ∧
      Aligned F data texts.length vectors
  | .error (.embeddingError _) => True
  | .error (.overflowError _) => False

/-- An integer no float can hold, behind nothing but numbers. -/
def OutOfRange (raw : List (Value (Scalar φ))) : Prop :=
  ∃ front n back, raw = front ++ .num (.int n) :: back ∧ floatOverflow ≤ n.natAbs ∧
    ∀ x ∈ front, ∃ y, floatOf F x = .ok y

/-- An item whose embedding is out of range, behind nothing but vectors. -/
def OverflowsFirst (data : List (Value (Scalar φ))) : Prop :=
  ∃ front item back raw, data = front ++ item :: back ∧
    item.get? "embedding" = some (.arr raw) ∧ OutOfRange F raw ∧
    ∀ x ∈ front, ∃ vector, Holds F x vector

/-- No labels at all, or every place once. -/
def LabelledOnce (data : List (Value (Scalar φ))) : Prop :=
  (∀ item ∈ data, labelOf item = none) ∨
    (data.map labelOf).Perm ((List.range data.length).map fun i : ℕ => some (i : ℤ))

end

/-! ## Reading -/

section

variable {φ : Type} {F : Floats φ} {item : Value (Scalar φ)} {raw data : List (Value (Scalar φ))}
  {position : ℕ} {indexed : List (ℤ × List φ)} {vectors : List (List φ)}

theorem outOfRange_cons {x : Value (Scalar φ)} :
    OutOfRange F (x :: raw) ↔ floatOf F x = .error .overflowError ∨
      (∃ y, floatOf F x = .ok y) ∧ OutOfRange F raw := by
  constructor
  · rintro ⟨front, n, back, hsplit, hn, hfront⟩
    cases front with
    | nil =>
        cases hsplit
        left
        rw [floatOf, if_pos hn]
    | cons z front =>
        cases hsplit
        obtain ⟨hz, hfront⟩ := List.forall_mem_cons.mp hfront
        exact Or.inr ⟨hz, front, n, back, rfl, hn, hfront⟩
  · rintro (hover | ⟨hx, front, n, back, rfl, hn, hfront⟩)
    · unfold floatOf at hover
      split at hover
      · rename_i n
        split at hover
        · rename_i hn
          exact ⟨[], n, raw, rfl, hn, fun _ h => (by cases h)⟩
        · cases hover
      · cases hover
      · cases hover
      · split at hover <;> cases hover
      · cases hover
    · exact ⟨x :: front, n, back, rfl, hn, List.forall_mem_cons.mpr ⟨hx, hfront⟩⟩

/-- A list of values is read, or fails at its first value that is no number. -/
theorem floatsOf_cases (F : Floats φ) (raw : List (Value (Scalar φ))) :
    (∃ vector, floatsOf F raw = .ok vector ∧
      List.Forall₂ (fun x y => floatOf F x = .ok y) raw vector ∧ ¬ OutOfRange F raw) ∨
    (floatsOf F raw = .error .overflowError ∧ OutOfRange F raw) ∨
    (floatsOf F raw = .error .typeOrValueError ∧ ¬ OutOfRange F raw ∧
      ∃ x ∈ raw, ∀ y, floatOf F x ≠ .ok y) := by
  induction raw with
  | nil =>
      refine Or.inl ⟨[], rfl, List.Forall₂.nil, ?_⟩
      rintro ⟨front, n, back, hsplit, -⟩
      exact absurd hsplit (by simp)
  | cons x raw ih =>
      rw [outOfRange_cons]
      unfold floatsOf
      rcases hx : floatOf F x with e | y
      · cases e with
        | typeOrValueError =>
            right; right
            exact ⟨rfl, by simp, x, List.mem_cons_self, by simp [hx]⟩
        | overflowError => exact Or.inr (Or.inl ⟨rfl, Or.inl rfl⟩)
      · rcases ih with ⟨vector, hok, hall, hin⟩ | ⟨herr, hout⟩ | ⟨herr, hin, z, hz, hbad⟩
        · left
          rw [hok]
          exact ⟨y :: vector, rfl, hall.cons hx, by simp [hin]⟩
        · right; left
          rw [herr]
          exact ⟨rfl, Or.inr ⟨⟨y, rfl⟩, hout⟩⟩
        · right; right
          rw [herr]
          exact ⟨rfl, by simp [hin], z, List.mem_cons_of_mem x hz, hbad⟩

theorem forall₂_exists {raw : List (Value (Scalar φ))} {vector : List φ}
    (h : List.Forall₂ (fun x y => floatOf F x = .ok y) raw vector) :
    ∀ x ∈ raw, ∃ y, floatOf F x = .ok y := by
  induction h with
  | nil => exact fun _ hx => (by cases hx)
  | cons hxy _ ih => exact List.forall_mem_cons.mpr ⟨⟨_, hxy⟩, ih⟩

theorem not_outOfRange_of_holds {vector : List φ} (h : Holds F item vector) :
    ¬ ∃ raw, item.get? "embedding" = some (.arr raw) ∧ OutOfRange F raw := by
  rintro ⟨raw, hraw, front, n, back, rfl, hn, -⟩
  obtain ⟨raw', hraw', hall⟩ := h
  rw [hraw] at hraw'
  cases hraw'
  obtain ⟨y, hy⟩ := forall₂_exists hall (.num (.int n)) (by simp)
  rw [floatOf, if_pos hn] at hy
  cases hy

/-- An item is read, overflows, or is refused. -/
theorem readItem_cases (F : Floats φ) (position : ℕ) (item : Value (Scalar φ)) :
    (∃ vector, readItem F position item = .ok ((labelOf item).getD position, vector) ∧
      Holds F item vector) ∨
    ((∃ message, readItem F position item = .error (.overflowError message)) ∧
      (∃ raw, item.get? "embedding" = some (.arr raw) ∧ OutOfRange F raw) ∧
      ∀ vector, ¬ Holds F item vector) ∨
    ((∃ message, readItem F position item = .error (.embeddingError message)) ∧
      (∀ raw, item.get? "embedding" = some (.arr raw) → ¬ OutOfRange F raw) ∧
      ∀ vector, ¬ Holds F item vector) := by
  unfold readItem
  split
  · rename_i hnone
    right; right
    refine ⟨⟨_, rfl⟩, fun raw hraw => ?_, fun vector ⟨raw, hraw, _⟩ => ?_⟩
    · rw [hnone] at hraw
      cases hraw
    · rw [hnone] at hraw
      cases hraw
  · rename_i raw hraw
    have hunique : ∀ raw', item.get? "embedding" = some (.arr raw') → raw' = raw := by
      intro raw' hraw'
      rw [hraw] at hraw'
      cases hraw'
      rfl
    rcases floatsOf_cases F raw with
      ⟨vector, hok, hall, -⟩ | ⟨herr, hout⟩ | ⟨herr, hin, x, hx, hbad⟩
    · left
      rw [hok]
      exact ⟨vector, rfl, raw, hraw, hall⟩
    · right; left
      rw [herr]
      exact ⟨⟨_, rfl⟩, ⟨raw, hraw, hout⟩, fun _ hholds =>
        not_outOfRange_of_holds hholds ⟨raw, hraw, hout⟩⟩
    · right; right
      rw [herr]
      refine ⟨⟨_, rfl⟩, fun raw' hraw' => hunique raw' hraw' ▸ hin, ?_⟩
      rintro vector ⟨raw', hraw', hall⟩
      obtain rfl := hunique raw' hraw'
      obtain ⟨y, hy⟩ := forall₂_exists hall x hx
      exact hbad y hy
  · rename_i v hne hv
    right; right
    refine ⟨⟨_, rfl⟩, fun raw hraw => ?_, fun vector ⟨raw, hraw, _⟩ => ?_⟩
    · rw [hv] at hraw
      exact absurd (Option.some.inj hraw) (hne raw)
    · rw [hv] at hraw
      exact absurd (Option.some.inj hraw) (hne raw)

/-- What was read of the items, from a position on. -/
def ReadsAs (F : Floats φ) : ℕ → List (Value (Scalar φ)) → List (ℤ × List φ) → Prop
  | _, [], [] => True
  | position, item :: items, entry :: rest =>
      entry.1 = (labelOf item).getD position ∧ Holds F item entry.2 ∧
        ReadsAs F (position + 1) items rest
  | _, _, _ => False

theorem overflowsFirst_cons : OverflowsFirst F (item :: data) ↔
    (∃ raw, item.get? "embedding" = some (.arr raw) ∧ OutOfRange F raw) ∨
      (∃ vector, Holds F item vector) ∧ OverflowsFirst F data := by
  constructor
  · rintro ⟨front, bad, back, raw, hsplit, hraw, hout, hfront⟩
    cases front with
    | nil =>
        cases hsplit
        exact Or.inl ⟨raw, hraw, hout⟩
    | cons x front =>
        cases hsplit
        obtain ⟨hx, hfront⟩ := List.forall_mem_cons.mp hfront
        exact Or.inr ⟨hx, front, bad, back, raw, rfl, hraw, hout, hfront⟩
  · rintro (⟨raw, hraw, hout⟩ | ⟨hitem, front, bad, back, raw, rfl, hraw, hout, hfront⟩)
    · exact ⟨[], item, data, raw, rfl, hraw, hout, fun _ h => (by cases h)⟩
    · exact ⟨item :: front, bad, back, raw, rfl, hraw, hout,
        List.forall_mem_cons.mpr ⟨hitem, hfront⟩⟩

/-- The items are read, or the first that is not decides what is raised. -/
theorem readItems_cases (F : Floats φ) (position : ℕ) (data : List (Value (Scalar φ))) :
    (∃ indexed, readItems F position data = .ok indexed ∧ ReadsAs F position data indexed ∧
      ¬ OverflowsFirst F data) ∨
    ((∃ message, readItems F position data = .error (.overflowError message)) ∧
      OverflowsFirst F data) ∨
    ((∃ message, readItems F position data = .error (.embeddingError message)) ∧
      ¬ OverflowsFirst F data ∧ ∃ item ∈ data, ∀ vector, ¬ Holds F item vector) := by
  induction data generalizing position with
  | nil =>
      refine Or.inl ⟨[], rfl, trivial, ?_⟩
      rintro ⟨front, bad, back, raw, hsplit, -⟩
      exact absurd hsplit (by simp)
  | cons item data ih =>
      rw [overflowsFirst_cons]
      unfold readItems
      rcases readItem_cases F position item with
        ⟨vector, hitem, hholds⟩ | ⟨⟨message, hitem⟩, hout, -⟩ | ⟨⟨message, hitem⟩, hin, hbad⟩
      · have hrange := not_outOfRange_of_holds hholds
        rw [hitem]
        rcases ih (position + 1) with
          ⟨indexed, hok, hreads, hnot⟩ | ⟨⟨message, herr⟩, hover⟩ |
            ⟨⟨message, herr⟩, hnot, bad, hmem, hbad⟩
        · left
          rw [hok]
          exact ⟨_, rfl, ⟨rfl, hholds, hreads⟩, by simp [hrange, hnot]⟩
        · right; left
          rw [herr]
          exact ⟨⟨message, rfl⟩, Or.inr ⟨⟨vector, hholds⟩, hover⟩⟩
        · right; right
          rw [herr]
          exact ⟨⟨message, rfl⟩, by simp [hrange, hnot], bad, List.mem_cons_of_mem item hmem, hbad⟩
      · right; left
        rw [hitem]
        exact ⟨⟨message, rfl⟩, Or.inl hout⟩
      · right; right
        rw [hitem]
        refine ⟨⟨message, rfl⟩, ?_, item, List.mem_cons_self, hbad⟩
        rintro (⟨raw, hraw, hout⟩ | ⟨⟨vector, hholds⟩, -⟩)
        · exact hin raw hraw hout
        · exact hbad vector hholds

/-! ## Alignment -/

theorem ReadsAs.getElem? (h : ReadsAs F position data indexed) (i : ℕ) :
    (data[i]? = none ∧ indexed[i]? = none) ∨ ∃ item vector, data[i]? = some item ∧
      indexed[i]? = some ((labelOf item).getD (position + i : ℕ), vector) ∧
      Holds F item vector := by
  induction data generalizing position indexed i with
  | nil =>
      cases indexed with
      | nil => exact Or.inl ⟨rfl, rfl⟩
      | cons entry rest => cases h
  | cons item data ih =>
      cases indexed with
      | nil => cases h
      | cons entry rest =>
          obtain ⟨hkey, hholds, hrest⟩ := h
          cases i with
          | zero => exact Or.inr ⟨item, entry.2, rfl, congrArg some (Prod.ext hkey rfl), hholds⟩
          | succ i =>
              have hplace : position + 1 + i = position + (i + 1) := by omega
              rw [← hplace]
              exact ih hrest i

theorem ReadsAs.length (h : ReadsAs F position data indexed) : indexed.length = data.length := by
  induction data generalizing position indexed with
  | nil =>
      cases indexed with
      | nil => rfl
      | cons entry rest => cases h
  | cons item data ih =>
      cases indexed with
      | nil => cases h
      | cons entry rest => exact congrArg Nat.succ (ih h.2.2)

theorem ReadsAs.holds (h : ReadsAs F position data indexed) {entry : ℤ × List φ}
    (hentry : entry ∈ indexed) : ∃ i item, data[i]? = some item ∧
      entry.1 = (labelOf item).getD (position + i : ℕ) ∧ Holds F item entry.2 := by
  obtain ⟨i, hi⟩ := List.getElem?_of_mem hentry
  rcases h.getElem? i with ⟨-, hnone⟩ | ⟨item, vector, hitem, hsome, hholds⟩
  · rw [hnone] at hi
    cases hi
  · rw [hsome] at hi
    cases hi
    exact ⟨i, item, hitem, rfl, hholds⟩

/-- The keys are the positions where no item has a label. -/
theorem ReadsAs.keys_of_unlabelled (h : ReadsAs F position data indexed)
    (hnone : ∀ item ∈ data, labelOf item = none) :
    indexed.map Prod.fst = (List.range' position data.length).map fun i : ℕ => (i : ℤ) := by
  induction data generalizing position indexed with
  | nil =>
      cases indexed with
      | nil => rfl
      | cons entry rest => cases h
  | cons item data ih =>
      cases indexed with
      | nil => cases h
      | cons entry rest =>
          obtain ⟨hkey, -, hrest⟩ := h
          obtain ⟨hitem, htail⟩ := List.forall_mem_cons.mp hnone
          rw [List.map_cons, ih hrest htail, hkey, hitem, List.length_cons, List.range'_succ]
          rfl

/-- The keys are the labels where every item has one. -/
theorem ReadsAs.keys_of_labelled (h : ReadsAs F position data indexed)
    (hsome : ∀ item ∈ data, labelOf item ≠ none) :
    indexed.map (fun entry => some entry.1) = data.map labelOf := by
  induction data generalizing position indexed with
  | nil =>
      cases indexed with
      | nil => rfl
      | cons entry rest => cases h
  | cons item data ih =>
      cases indexed with
      | nil => cases h
      | cons entry rest =>
          obtain ⟨hkey, -, hrest⟩ := h
          obtain ⟨hitem, htail⟩ := List.forall_mem_cons.mp hsome
          obtain ⟨n, hn⟩ := Option.ne_none_iff_exists'.mp hitem
          rw [List.map_cons, List.map_cons, ih hrest htail, hkey, hn]
          rfl

/-- The places of `count` texts, as keys. -/
abbrev places (count : ℕ) : List ℤ := (List.range count).map fun i : ℕ => (i : ℤ)

theorem keys_of_labelledOnce (h : ReadsAs F 0 data indexed) (honce : LabelledOnce data) :
    (indexed.map Prod.fst).Perm (places data.length) := by
  rcases honce with hnone | hperm
  · rw [h.keys_of_unlabelled hnone, ← List.range_eq_range']
  · have hsome : ∀ item ∈ data, labelOf item ≠ none := by
      intro item hitem hnone
      have hmem := hperm.mem_iff.mp (List.mem_map_of_mem hitem)
      obtain ⟨i, -, hi⟩ := List.mem_map.mp hmem
      rw [hnone] at hi
      cases hi
    rw [← h.keys_of_labelled hsome] at hperm
    refine (List.map_perm_map_iff (Option.some_injective ℤ)).mp ?_
    rw [List.map_map, List.map_map]
    exact hperm

/-- Sorted by keys that are the places, the entry at a place has it for its key. -/
theorem sorted_keys {count : ℕ} (hkeys : (indexed.map Prod.fst).Perm (places count)) :
    (sortByIndex indexed).map Prod.fst = places count := by
  have hsort := (SortKey.of_decide (Prod.fst : ℤ × List φ → ℤ)).pairwise_key_mergeSort indexed
  have hperm := ((List.mergeSort_perm indexed fun a b => decide (a.1 ≤ b.1)).map Prod.fst).trans
    hkeys
  refine hperm.eq_of_pairwise (fun a b _ _ => le_antisymm) (List.pairwise_map.mpr hsort) ?_
  refine List.pairwise_map.mpr (List.pairwise_le_range.imp fun hle => ?_)
  exact Int.ofNat_le.mpr hle

theorem aligned_of_labelledOnce (h : ReadsAs F 0 data indexed) (honce : LabelledOnce data) :
    Aligned F data data.length ((sortByIndex indexed).map Prod.snd) := by
  have hkeys := sorted_keys (keys_of_labelledOnce h honce)
  have hlength : (sortByIndex indexed).length = data.length := by
    unfold sortByIndex
    rw [List.length_mergeSort, h.length]
  refine ⟨by rw [List.length_map, hlength], fun i hi => ?_⟩
  obtain ⟨entry, hentry⟩ : ∃ entry, (sortByIndex indexed)[i]? = some entry :=
    ⟨_, List.getElem?_eq_getElem (hlength.symm ▸ hi)⟩
  have hkey : entry.1 = i := by
    have hget : ((sortByIndex indexed).map Prod.fst)[i]? = (places data.length)[i]? := by
      rw [hkeys]
    rw [List.getElem?_map, hentry, List.getElem?_map, List.getElem?_range hi] at hget
    exact Option.some.inj hget
  obtain ⟨j, item, hitem, hlabel, hholds⟩ :=
    h.holds (List.mem_mergeSort.mp (List.mem_of_getElem? hentry))
  refine ⟨item, entry.2, by rw [List.getElem?_map, hentry]; rfl, hholds, ?_⟩
  rw [hkey, Nat.zero_add] at hlabel
  rcases honce with hnone | hperm
  · rw [hnone item (List.mem_of_getElem? hitem)] at hlabel
    have hplace : i = j := Int.ofNat_inj.mp hlabel
    exact Or.inr ⟨hplace ▸ hitem, hnone⟩
  · left
    refine ⟨List.mem_of_getElem? hitem, ?_⟩
    have hmem := hperm.mem_iff.mp (List.mem_map_of_mem (List.mem_of_getElem? hitem))
    obtain ⟨k, -, hk⟩ := List.mem_map.mp hmem
    rw [← hk] at hlabel ⊢
    exact congrArg some hlabel.symm

theorem labelledOnce_of_aligned (h : Aligned F data data.length vectors) :
    LabelledOnce data := by
  by_cases hnone : ∀ item ∈ data, labelOf item = none
  · exact Or.inl hnone
  · right
    have hsubset : (List.range data.length).map (fun i : ℕ => some (i : ℤ))
        ⊆ data.map labelOf := by
      intro label hlabel
      obtain ⟨i, hi, rfl⟩ := List.mem_map.mp hlabel
      obtain ⟨item, vector, -, -, hown⟩ := h.own i (List.mem_range.mp hi)
      rcases hown with ⟨hmem, hitem⟩ | ⟨-, hall⟩
      · rw [← hitem]
        exact List.mem_map_of_mem hmem
      · exact absurd hall hnone
    have hnodup : ((List.range data.length).map fun i : ℕ => some (i : ℤ)).Nodup :=
      List.nodup_range.map fun i j hij => Int.ofNat_inj.mp (Option.some.inj hij)
    have hperm := (List.subperm_of_subset hnodup hsubset).perm_of_length_le (by simp)
    exact hperm.symm

theorem parseResponse_of_data {body : Value (Scalar φ)} {count : ℕ}
    (hdata : body.get? "data" = some (.arr data)) (hlen : data.length = count) :
    parseResponse F body count
      = (readItems F 0 data).map fun indexed => (sortByIndex indexed).map Prod.snd := by
  unfold parseResponse
  rw [hdata]
  exact if_neg (not_not.mpr hlen)

theorem parseResponse_refused {body : Value (Scalar φ)} {count : ℕ}
    (h : ¬ ∃ data, body.get? "data" = some (.arr data) ∧ data.length = count) :
    ∃ message, parseResponse F body count = .error (.embeddingError message) := by
  unfold parseResponse
  split
  · rename_i data hdata
    have hlen : data.length ≠ count := fun hlen => h ⟨data, hdata, hlen⟩
    rw [if_pos hlen]
    exact ⟨_, rfl⟩
  · exact ⟨_, rfl⟩

end

/-- For every response and any texts. -/
theorem parseSound_iff {φ : Type} (F : Floats φ) (body : Value (Scalar φ))
    (texts : List String) :
    ParseSound F body texts ↔ ∀ data, body.get? "data" = some (.arr data) →
      data.length = texts.length → ¬ OverflowsFirst F data ∧
        ((∀ item ∈ data, ∃ vector, Holds F item vector) → LabelledOnce data) := by
  unfold ParseSound
  by_cases h : ∃ data, body.get? "data" = some (.arr data) ∧ data.length = texts.length
  · obtain ⟨data, hdata, hlen⟩ := h
    have hunique : ∀ data', body.get? "data" = some (.arr data') → data' = data := by
      intro data' hdata'
      rw [hdata] at hdata'
      cases hdata'
      rfl
    rw [parseResponse_of_data hdata hlen]
    rcases readItems_cases F 0 data with
      ⟨indexed, hok, hreads, hnot⟩ | ⟨⟨message, herr⟩, hover⟩ |
        ⟨⟨message, herr⟩, hnot, bad, hmem, hbad⟩
    · rw [hok]
      constructor
      · rintro ⟨data', hdata', haligned⟩ data'' hdata'' -
        obtain rfl := hunique data' hdata'
        obtain rfl := hunique data'' hdata''
        rw [← hlen] at haligned
        exact ⟨hnot, fun _ => labelledOnce_of_aligned haligned⟩
      · intro h
        refine ⟨data, hdata, ?_⟩
        rw [← hlen]
        refine aligned_of_labelledOnce hreads ((h data hdata hlen).2 fun item hitem => ?_)
        obtain ⟨i, hi⟩ := List.getElem?_of_mem hitem
        rcases hreads.getElem? i with ⟨hnone, -⟩ | ⟨item', vector, hitem', -, hholds⟩
        · rw [hnone] at hi
          cases hi
        · rw [hi] at hitem'
          cases hitem'
          exact ⟨vector, hholds⟩
    · rw [herr]
      exact ⟨fun hfalse => hfalse.elim, fun h => (h data hdata hlen).1 hover⟩
    · rw [herr]
      refine ⟨fun _ data' hdata' _ => ?_, fun _ => trivial⟩
      obtain rfl := hunique data' hdata'
      refine ⟨hnot, fun hall => ?_⟩
      obtain ⟨vector, hholds⟩ := hall bad hmem
      exact absurd hholds (hbad vector)
  · obtain ⟨message, herr⟩ := @parseResponse_refused _ F _ _ h
    rw [herr]
    exact ⟨fun _ data hdata hlen => absurd ⟨data, hdata, hlen⟩ h, fun _ => trivial⟩

/-- An item of a response. -/
def labelledItem (index : ℤ) (vector : List ℚ) : Value (Scalar ℚ) :=
  .obj [("embedding", .arr (vector.map fun x => .num (.float x))), ("index", .num (.int index))]

/-- Both vectors are labelled with the first text. -/
theorem repeated_label_misaligned :
    ¬ ParseSound ⟨fun n => (n : ℚ), fun _ => none⟩
      (.obj [("data", .arr [labelledItem 0 [1], labelledItem 0 [2]])]) ["coat", "hat"] := by
  rintro ⟨data, hdata, haligned⟩
  cases hdata
  obtain ⟨item, vector, -, -, ⟨hmem, hlabel⟩ | ⟨-, hnone⟩⟩ := haligned.own 1 (by decide)
  · rcases List.mem_pair.mp hmem with rfl | rfl
    · exact absurd hlabel (by decide)
    · exact absurd hlabel (by decide)
  · exact absurd (hnone (labelledItem 0 [1]) (by simp)) (by decide)

/-! ## What a batch writes -/

/-- A vector that a batch writes under a key was sent for the text of that key. -/
theorem writes_labelled {F : Floats ℚ} {data : List (Value (Scalar ℚ))}
    {pending : List (ObservationRecord × TextField)} {vectors : List (List ℚ)}
    (haligned : Aligned F data pending.length vectors) (emb : Embedder) {v : StoredVector}
    (hv : v ∈ List.zipWith (storedVector emb) pending vectors) :
    ∃ (i : ℕ) (c : _) (item : _), pending[i]? = some c ∧ v.key = (c.1.recordId, c.2) ∧
      Holds F item v.embedding ∧ (item ∈ data ∧ labelOf item = some (i : ℤ) ∨
        data[i]? = some item ∧ ∀ other ∈ data, labelOf other = none) := by
  obtain ⟨i, hi⟩ := List.getElem?_of_mem hv
  rw [List.getElem?_zipWith] at hi
  rcases hc : pending[i]? with _ | c
  · simp [hc] at hi
  · obtain ⟨hlt, -⟩ := List.getElem?_eq_some_iff.mp hc
    obtain ⟨item, vector, hvector, hholds, hown⟩ := haligned.own i hlt
    rw [hc, hvector] at hi
    obtain rfl := Option.some.inj hi
    exact ⟨i, c, item, hc, rfl, hholds, hown⟩

end CctvMemory.Maintenance
