import CctvMemory.Library.Json
import Mathlib.Data.List.DropRight
import Mathlib.Data.Set.Lattice
import Mathlib.Order.CompletePartialOrder

/-!
# Where frames are written

`_segment_dir` and `_segment_subdir`: a directory per segment under the frame root, by
the stem of the source and by the unit's key, both with every character that is not
plain replaced. The names of the frames in it, and of the temporary files beside them.

* `places_disjoint`: units whose keys stay different have no path in common.
* `inside_of_places`: none of their paths leads out of the frame root.
-/

namespace CctvMemory.Video

abbrev Text := List Char

/-- `str.isalnum` of one character. -/
structure Alnum where
  isalnum : Char → Bool
  ascii : ∀ c, c.toNat < 128 → isalnum c = c.isAlphanum

def asciiAlnum : Alnum := ⟨Char.isAlphanum, fun _ _ => rfl⟩

/-! ## Texts of paths -/

/-- `os.path.join`. -/
def join (a b : Text) : Text :=
  if b.head? = some '/' then b
  else if a = [] ∨ a.getLast? = some '/' then a ++ b
  else a ++ '/' :: b

def joinAll (root : Text) (parts : List Text) : Text := parts.foldl join root

/-- `os.path.basename`. -/
def basename (path : Text) : Text := path.rtakeWhile fun c => c ≠ '/'

/-- `os.path.splitext(name)[0]`, of a name without a slash: leading dots start no
extension. -/
def splitextRoot (name : Text) : Text :=
  let upToDot := name.rdropWhile fun c => c ≠ '.'
  if (upToDot.dropLast.any fun c => c ≠ '.') = true then upToDot.dropLast else name

section Names

variable (A : Alnum)

/-- `c if c.isalnum() or c in "-_" else "_"`. -/
def safeChar (c : Char) : Char := if A.isalnum c || c == '-' || c == '_' then c else '_'

def sanitize (n : ℕ) (text : Text) : Text := (text.map (safeChar A)).take n

/-- The part of the unit in a path. -/
def safeKey (unitKey : Text) : Text := sanitize A 80 unitKey

def window (startMs endMs : ℤ) : Text :=
  JsonText.writeInt startMs ++ '_' :: JsonText.writeInt endMs

/-- `os.path.splitext(os.path.basename(source_uri))[0] or "video"`, made safe. -/
def safeStem (sourceUri : Text) : Text :=
  let stem := splitextRoot (basename sourceUri)
  sanitize A 64 (if stem = [] then "video".toList else stem)

/-- `_segment_dir`. -/
def segmentDir (frameRoot sourceUri : Text) (startMs endMs : ℤ) (unitKey : Option Text) : Text :=
  joinAll frameRoot ([safeStem A sourceUri]
    ++ ((unitKey.filter fun key => key ≠ []).map (safeKey A)).toList ++ [window startMs endMs])

/-- `_segment_subdir`. -/
def segmentSubdir (unitKey : Option Text) (startMs endMs : ℤ) : Text :=
  match unitKey.filter fun key => key ≠ [] with
  | some key => join (safeKey A key) (window startMs endMs)
  | none => window startMs endMs

end Names

/-- `f"{n:0{width}d}"`. -/
def zeroPadded (width n : ℕ) : Text :=
  List.replicate (width - (Nat.toDigits 10 n).length) '0' ++ Nat.toDigits 10 n

/-- `f"f{frame_index:08d}_t{timestamp_ms}.jpg"`. -/
def selectedName (frameIndex : ℕ) (timestampMs : ℤ) : Text :=
  'f' :: zeroPadded 8 frameIndex ++ '_' :: 't' :: JsonText.writeInt timestampMs ++ ".jpg".toList

/-- `f"frame_{i:04d}.jpg"`. -/
def frameName (i : ℕ) : Text := "frame_".toList ++ zeroPadded 4 i ++ ".jpg".toList

def clipName : Text := "clip_noaudio.mp4".toList

/-- A name that `mkstemp` tries for the temporary file of `name`. -/
def tempName (name random : Text) : Text := name ++ '.' :: random ++ ".tmp".toList

/-! ## Components -/

/-- The components with slashes between them. -/
def slashed : List Text → Text
  | [] => []
  | [c] => c
  | c :: d :: rest => c ++ '/' :: slashed (d :: rest)

/-- The frame root with its slash. -/
def rootPrefix (root : Text) : Text :=
  if root = [] ∨ root.getLast? = some '/' then root else root ++ ['/']

def under (root : Text) (components : List Text) : Text := rootPrefix root ++ slashed components

def Slashless (text : Text) : Prop := '/' ∉ text

theorem slashed_eq_intercalate (components : List Text) :
    slashed components = ['/'].intercalate components := by
  induction components with
  | nil => rfl
  | cons c rest ih =>
      cases rest with
      | nil => simp [slashed]
      | cons d rest =>
          rw [slashed, ih, List.intercalate_cons_cons]
          simp

theorem slashed_inj {cs ds : List Text} (hcs : ∀ c ∈ cs, Slashless c)
    (hds : ∀ d ∈ ds, Slashless d) (hc : cs ≠ []) (hd : ds ≠ []) (h : slashed cs = slashed ds) :
    cs = ds := by
  rw [slashed_eq_intercalate, slashed_eq_intercalate] at h
  rw [← List.splitOn_intercalate '/' hcs hc, h, List.splitOn_intercalate '/' hds hd]

theorem under_inj {root : Text} {cs ds : List Text} (hcs : ∀ c ∈ cs, Slashless c)
    (hds : ∀ d ∈ ds, Slashless d) (hc : cs ≠ []) (hd : ds ≠ []) (h : under root cs = under root ds) :
    cs = ds :=
  slashed_inj hcs hds hc hd (List.append_cancel_left h)

/-- A component that `join` puts behind a slash. -/
def Component (c : Text) : Prop := c ≠ [] ∧ Slashless c

theorem Component.head {c : Text} (h : Component c) : c.head? ≠ some '/' := by
  intro hhead
  exact h.2 (List.mem_of_mem_head? (Option.mem_def.mpr hhead))

theorem Component.last {c : Text} (h : Component c) : c.getLast? ≠ some '/' := by
  intro hlast
  exact h.2 (List.mem_of_mem_getLast? (Option.mem_def.mpr hlast))

theorem join_component {a c : Text} (h : Component c) : join a c = rootPrefix a ++ c := by
  unfold join rootPrefix
  rw [if_neg h.head]
  split
  · rfl
  · rw [List.append_assoc]
    rfl

theorem rootPrefix_append {a c : Text} (h : Component c) : rootPrefix (a ++ c) = a ++ c ++ ['/'] := by
  unfold rootPrefix
  rw [if_neg]
  rintro (hnil | hlast)
  · exact h.1 (List.append_eq_nil_iff.mp hnil).2
  · rw [List.getLast?_append_of_ne_nil _ h.1] at hlast
    exact h.last hlast

theorem joinAll_eq_under {root : Text} {components : List Text} (hne : components ≠ [])
    (h : ∀ c ∈ components, Component c) : joinAll root components = under root components := by
  induction components generalizing root with
  | nil => exact absurd rfl hne
  | cons c rest ih =>
      have hc := h c List.mem_cons_self
      rw [joinAll, List.foldl_cons, join_component hc]
      cases rest with
      | nil => rfl
      | cons d rest =>
          have hrest := @ih (rootPrefix root ++ c) (List.cons_ne_nil d rest)
            fun e he => h e (List.mem_cons_of_mem c he)
          rw [joinAll] at hrest
          rw [hrest, under, under, rootPrefix_append hc, slashed]
          simp

theorem joinAll_concat (root : Text) (components : List Text) (name : Text) :
    joinAll root (components ++ [name]) = join (joinAll root components) name := by
  rw [joinAll, List.foldl_append]
  rfl

theorem join_under {root name : Text} {components : List Text} (hne : components ≠ [])
    (h : ∀ c ∈ components, Component c) (hname : Component name) :
    join (under root components) name = under root (components ++ [name]) := by
  rw [← joinAll_eq_under hne h, ← joinAll_concat]
  refine joinAll_eq_under (by simp) fun c hc => ?_
  rcases List.mem_append.mp hc with hc | hc
  · exact h c hc
  · exact (List.mem_singleton.mp hc) ▸ hname

/-- A path of components is no root, and has no slash at its end. -/
theorem under_last {root : Text} {components : List Text} (hne : components ≠ [])
    (h : ∀ c ∈ components, Component c) :
    under root components ≠ [] ∧ (under root components).getLast? ≠ some '/' := by
  obtain ⟨init, c, rfl⟩ := (List.eq_nil_or_concat components).resolve_left hne
  rw [List.concat_eq_append] at hne h ⊢
  have hc : Component c := h c (by simp)
  rw [← joinAll_eq_under hne h, joinAll_concat, join_component hc]
  refine ⟨fun hnil => hc.1 (List.append_eq_nil_iff.mp hnil).2, ?_⟩
  rw [List.getLast?_append_of_ne_nil _ hc.1]
  exact hc.last

/-! ## Plain names -/

section Plain

variable {A : Alnum}

/-- A name that is not `.` or `..`, and no path either. -/
def Plain (text : Text) : Prop := text ≠ [] ∧ ∀ c ∈ text, c ≠ '/' ∧ c ≠ '.'

theorem plain_singleton {c : Char} (h : c ≠ '/' ∧ c ≠ '.') : Plain [c] :=
  ⟨List.cons_ne_nil _ _, fun _ hd => (List.mem_singleton.mp hd) ▸ h⟩

theorem Plain.component {text : Text} (h : Plain text) : Component text :=
  ⟨h.1, fun hmem => (h.2 '/' hmem).1 rfl⟩

theorem safeChar_plain (c : Char) : safeChar A c ≠ '/' ∧ safeChar A c ≠ '.' := by
  unfold safeChar
  split
  · rename_i hsafe
    constructor
    · rintro rfl
      rw [A.ascii '/' (by decide)] at hsafe
      exact absurd hsafe (by decide)
    · rintro rfl
      rw [A.ascii '.' (by decide)] at hsafe
      exact absurd hsafe (by decide)
  · decide

theorem sanitize_plain {n : ℕ} (hn : 0 < n) {text : Text} (h : text ≠ []) :
    Plain (sanitize A n text) := by
  constructor
  · intro hnil
    rcases List.take_eq_nil_iff.mp hnil with hzero | hmap
    · omega
    · exact h (List.map_eq_nil_iff.mp hmap)
  · intro c hc
    obtain ⟨c', -, rfl⟩ := List.mem_map.mp (List.mem_of_mem_take hc)
    exact safeChar_plain c'

theorem safeStem_plain (sourceUri : Text) : Plain (safeStem A sourceUri) := by
  unfold safeStem
  refine sanitize_plain (by omega) ?_
  split
  · decide
  · assumption

theorem toDigits_plain (n : ℕ) : ∀ c ∈ Nat.toDigits 10 n, c ≠ '/' ∧ c ≠ '.' := by
  intro c hc
  have hdigit := Nat.isDigit_of_mem_toDigits (by decide) (by decide) hc
  constructor <;> (rintro rfl; exact absurd hdigit (by decide))

theorem writeInt_plain (n : ℤ) : Plain (JsonText.writeInt n) := by
  cases n with
  | ofNat n => exact ⟨Nat.toDigits_ne_nil, toDigits_plain n⟩
  | negSucc n =>
      refine ⟨List.cons_ne_nil _ _, fun c hc => ?_⟩
      rcases List.mem_cons.mp hc with rfl | hc
      · decide
      · exact toDigits_plain (n + 1) c hc

theorem window_plain (startMs endMs : ℤ) : Plain (window startMs endMs) := by
  refine ⟨by simp [window], fun c hc => ?_⟩
  rcases List.mem_append.mp hc with hc | hc
  · exact (writeInt_plain startMs).2 c hc
  · rcases List.mem_cons.mp hc with rfl | hc
    · decide
    · exact (writeInt_plain endMs).2 c hc

theorem segmentDir_eq (root sourceUri : Text) (startMs endMs : ℤ) {key : Text} (hkey : key ≠ []) :
    segmentDir A root sourceUri startMs endMs (some key)
      = under root [safeStem A sourceUri, safeKey A key, window startMs endMs] := by
  have hparts : ((Option.some key).filter fun key => key ≠ []) = some key := by simp [hkey]
  rw [segmentDir, hparts]
  refine joinAll_eq_under (List.cons_ne_nil _ _) fun c hc => ?_
  rcases List.mem_cons.mp hc with rfl | hc
  · exact (safeStem_plain sourceUri).component
  · rcases List.mem_cons.mp hc with rfl | hc
    · exact (sanitize_plain (by omega) hkey).component
    · rw [List.mem_singleton.mp hc]
      exact (window_plain startMs endMs).component

theorem segmentSubdir_eq (startMs endMs : ℤ) {key : Text} (hkey : key ≠ []) :
    segmentSubdir A (some key) startMs endMs = slashed [safeKey A key, window startMs endMs] := by
  have hparts : ((Option.some key).filter fun key => key ≠ []) = some key := by simp [hkey]
  have hsafe : Plain (safeKey A key) := sanitize_plain (by omega) hkey
  rw [segmentSubdir, hparts]
  dsimp only
  rw [join_component (window_plain startMs endMs).component]
  have hkeyPart := @rootPrefix_append [] _ hsafe.component
  rw [List.nil_append] at hkeyPart
  rw [hkeyPart]
  simp [slashed]

theorem join_segmentSubdir (root : Text) (startMs endMs : ℤ) {key : Text} (hkey : key ≠ []) :
    join root (segmentSubdir A (some key) startMs endMs)
      = under root [safeKey A key, window startMs endMs] := by
  have hsafe : Plain (safeKey A key) := sanitize_plain (by omega) hkey
  rw [segmentSubdir_eq startMs endMs hkey]
  unfold join under rootPrefix
  have hhead : (slashed [safeKey A key, window startMs endMs]).head? ≠ some '/' := by
    rw [slashed, List.head?_append_of_ne_nil _ hsafe.1]
    exact hsafe.component.head
  rw [if_neg hhead]
  split
  · rfl
  · rw [List.append_assoc]
    rfl

end Plain

/-! ## The paths of a unit -/

/-- A component that leads nowhere up. -/
def Inner (c : Text) : Prop := Slashless c ∧ c ≠ ['.'] ∧ c ≠ ['.', '.']

theorem Plain.inner {text : Text} (h : Plain text) : Inner text := by
  refine ⟨h.component.2, ?_, ?_⟩ <;>
    (rintro rfl; exact (h.2 '.' List.mem_cons_self).2 rfl)

theorem inner_of_length {c : Text} (hslash : Slashless c) (hlength : 2 < c.length) : Inner c := by
  refine ⟨hslash, ?_, ?_⟩ <;> (rintro rfl; simp at hlength)

theorem component_of_length {c : Text} (hslash : Slashless c) (hlength : 2 < c.length) :
    Component c := by
  refine ⟨?_, hslash⟩
  rintro rfl
  simp at hlength

theorem zeroPadded_slashless (width n : ℕ) : Slashless (zeroPadded width n) := by
  intro hmem
  rcases List.mem_append.mp hmem with hmem | hmem
  · exact absurd (List.eq_of_mem_replicate hmem) (by decide)
  · exact (toDigits_plain n '/' hmem).1 rfl

theorem selectedName_slashless (frameIndex : ℕ) (timestampMs : ℤ) :
    Slashless (selectedName frameIndex timestampMs) := by
  have hindex := zeroPadded_slashless 8 frameIndex
  have hstamp := (writeInt_plain timestampMs).component.2
  unfold Slashless at hindex hstamp ⊢
  simp [selectedName, hindex, hstamp]

theorem frameName_slashless (i : ℕ) : Slashless (frameName i) := by
  have hindex := zeroPadded_slashless 4 i
  unfold Slashless at hindex
  show '/' ∉ "frame_".toList ++ zeroPadded 4 i ++ ".jpg".toList
  simp [hindex]

theorem clipName_slashless : Slashless clipName := by
  unfold Slashless clipName
  decide

theorem selectedName_length (frameIndex : ℕ) (timestampMs : ℤ) :
    2 < (selectedName frameIndex timestampMs).length := by
  simp [selectedName]
  omega

theorem frameName_length (i : ℕ) : 2 < (frameName i).length := by
  show 2 < ("frame_".toList ++ zeroPadded 4 i ++ ".jpg".toList).length
  simp

theorem tempName_length (name random : Text) : 2 < (tempName name random).length := by
  simp [tempName]
  omega

theorem zeroPadded_inj {width m n : ℕ} (h : zeroPadded width m = zeroPadded width n) : m = n := by
  have hread : ∀ k : ℕ, Nat.ofDigitChars 10 (zeroPadded width k) 0 = k := by
    intro k
    rw [zeroPadded, Nat.ofDigitChars_append, Nat.ofDigitChars_replicate_zero, Nat.mul_zero,
      Nat.ofDigitChars_ten_toDigits]
  rw [← hread m, h, hread n]

theorem zeroPadded_digit (width n : ℕ) : '_' ∉ zeroPadded width n := by
  intro hmem
  rcases List.mem_append.mp hmem with hmem | hmem
  · exact absurd (List.eq_of_mem_replicate hmem) (by decide)
  · exact absurd (Nat.isDigit_of_mem_toDigits (by decide) (by decide) hmem) (by decide)

/-- The names of two frames differ where their indexes do. -/
theorem frameIndex_of_selectedName {i j : ℕ} {t u : ℤ} (h : selectedName i t = selectedName j u) :
    i = j := by
  simp only [selectedName, List.cons_append, List.append_assoc, List.cons.injEq, true_and] at h
  have hsplit := List.append_eq_append_iff.mp h
  refine @zeroPadded_inj 8 i j ?_
  rcases hsplit with ⟨mid, hj, hi⟩ | ⟨mid, hi, hj⟩
  · cases mid with
    | nil => rw [hj, List.append_nil]
    | cons c mid =>
        obtain ⟨rfl, -⟩ := List.cons_eq_cons.mp hi
        exact absurd (hj ▸ List.mem_append_right _ List.mem_cons_self) (zeroPadded_digit 8 j)
  · cases mid with
    | nil => rw [hi, List.append_nil]
    | cons c mid =>
        obtain ⟨rfl, -⟩ := List.cons_eq_cons.mp hj
        exact absurd (hi ▸ List.mem_append_right _ List.mem_cons_self) (zeroPadded_digit 8 i)

/-- The paths under the root that lead nowhere up. -/
def inside (root : Text) : Set Text :=
  {path | ∃ components, path = under root components ∧ ∀ c ∈ components, Inner c}

section Places

variable (A : Alnum) (root : Text)

/-- The paths that carry a unit's key where the processors put it. -/
def places (unitKey : Text) : Set Text :=
  {path | ∃ win name, Inner win ∧ Inner name ∧
    (path = under root [safeKey A unitKey, win, name] ∨
      ∃ stem, Inner stem ∧ path = under root [stem, safeKey A unitKey, win, name])}

variable {A root}

theorem safeKey_inner {key : Text} : Inner (safeKey A key) := by
  by_cases hkey : key = []
  · subst hkey
    refine ⟨List.not_mem_nil, ?_, ?_⟩ <;> simp [safeKey, sanitize]
  · exact (sanitize_plain (by omega) hkey).inner

theorem inside_of_places (key : Text) : places A root key ⊆ inside root := by
  rintro path ⟨win, name, hwin, hname, hpath | ⟨stem, hstem, hpath⟩⟩
  · refine ⟨_, hpath, fun c hc => ?_⟩
    simp only [List.mem_cons, List.not_mem_nil, or_false] at hc
    rcases hc with rfl | rfl | rfl
    · exact safeKey_inner
    · exact hwin
    · exact hname
  · refine ⟨_, hpath, fun c hc => ?_⟩
    simp only [List.mem_cons, List.not_mem_nil, or_false] at hc
    rcases hc with rfl | rfl | rfl | rfl
    · exact hstem
    · exact safeKey_inner
    · exact hwin
    · exact hname

theorem components_of_places {key path : Text} (h : path ∈ places A root key) :
    ∃ before win name, path = under root (before ++ [safeKey A key, win, name]) ∧
      ∀ c ∈ before ++ [safeKey A key, win, name], Slashless c := by
  obtain ⟨win, name, ⟨hwin, -⟩, ⟨hname, -⟩, hpath⟩ := h
  have hlast : ∀ c ∈ [safeKey A key, win, name], Slashless c := by
    intro c hc
    simp only [List.mem_cons, List.not_mem_nil, or_false] at hc
    rcases hc with rfl | rfl | rfl
    · exact safeKey_inner.1
    · exact hwin
    · exact hname
  rcases hpath with hpath | ⟨stem, ⟨hstem, -⟩, hpath⟩
  · exact ⟨[], win, name, hpath, hlast⟩
  · refine ⟨[stem], win, name, hpath, fun c hc => ?_⟩
    rcases List.mem_cons.mp hc with rfl | hc
    · exact hstem
    · exact hlast c hc

theorem places_disjoint {key key' : Text} (h : safeKey A key ≠ safeKey A key') :
    Disjoint (places A root key) (places A root key') := by
  rw [Set.disjoint_left]
  intro path hpath hpath'
  obtain ⟨before, win, name, heq, hslashless⟩ := components_of_places hpath
  obtain ⟨before', win', name', heq', hslashless'⟩ := components_of_places hpath'
  have hcomponents := under_inj hslashless hslashless' (by simp) (by simp) (heq.symm.trans heq')
  have hends := List.append_inj_right' hcomponents rfl
  exact h (List.cons_eq_cons.mp hends).1

end Places

end CctvMemory.Video
