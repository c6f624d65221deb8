import CctvMemory.Library.Picking
import Mathlib.Data.Rat.Floor
import Mathlib.Data.Prod.Lex
import Mathlib.Tactic.Ring
import Mathlib.Tactic.Linarith
import Mathlib.Tactic.FieldSimp

/-!
# Frames for the model

`select_frames`: the frames that pass the quality gate, of which one of three
strategies takes `k`, in order of time. The numbers are exact, the step between
evenly spaced frames included.
-/

namespace CctvMemory.Worker.Frames

open Picking

structure FrameScore where
  frameIndex : ℤ
  timestampMs : ℤ
  motion : ℚ
  scene : ℚ
  blur : ℚ
  brightness : ℚ
deriving DecidableEq, Repr

/-- The keyword arguments. -/
structure Selector where
  strategy : String := "bins_then_score"
  wMotion : ℚ := 1
  wScene : ℚ := 1 / 2
  wQuality : ℚ := 1 / 2
  minBlur : ℚ := 50
  bins : Option ℤ := none

/-- `(timestamp_ms, frame_index)`. -/
def whenTaken (s : FrameScore) : ℤ ×ₗ ℤ := toLex (s.timestampMs, s.frameIndex)

/-- `sorted(…, key=lambda s: (s.timestamp_ms, s.frame_index))`. -/
def inOrder (frames : List FrameScore) : List FrameScore :=
  frames.insertionSort fun s t => whenTaken s ≤ whenTaken t

section

variable (sel : Selector)

def qualityOk (s : FrameScore) : Prop :=
  sel.minBlur ≤ s.blur ∧ 16 ≤ s.brightness ∧ s.brightness ≤ 240

instance (s : FrameScore) : Decidable (qualityOk sel s) := by
  unfold qualityOk
  infer_instance

/-- The frames that pass the gate, or all when none does. -/
def eligible (frames : List FrameScore) : List FrameScore :=
  if frames.filter (fun s => qualityOk sel s) = [] then frames
  else frames.filter fun s => qualityOk sel s

/-- The score, and the earlier frame first among equals. -/
def composite (s : FrameScore) : ℚ ×ₗ ℤ :=
  let q := min s.blur 500 / 500
  toLex (sel.wMotion * s.motion + sel.wScene * s.scene + sel.wQuality * q, -s.frameIndex)

/-- The first frame of each index. -/
def dedup (picked : List FrameScore) : List FrameScore :=
  (picked.foldl (fun (seen : List ℤ × List FrameScore) s =>
    if s.frameIndex ∈ seen.1 then seen else (s.frameIndex :: seen.1, seen.2 ++ [s])) ([], [])).2

/-- `min(len(eligible) - 1, int(i * step))`. -/
def uniformPosition (n k i : ℕ) : ℕ :=
  let step : ℚ := (n : ℚ) / k
  min (n - 1) ⌊(i : ℚ) * step⌋₊

def pickUniform (frames : List FrameScore) (k : ℕ) : List FrameScore :=
  if frames.length ≤ k then frames
  else dedup ((List.range k).filterMap fun i => frames[uniformPosition frames.length k i]?)

/-- `max(1, min(nb, k))`. -/
def bucketCount (k : ℕ) : ℕ := (max 1 (min (sel.bins.getD k) k)).toNat

/-- The bucket of a frame among `nb` over the time of all the frames. -/
def bucketOf (ordered : List FrameScore) (nb : ℕ) (s : FrameScore) : ℕ :=
  let t0 := (ordered.head?.map FrameScore.timestampMs).getD 0
  let span := max 1 ((ordered.getLast?.map FrameScore.timestampMs).getD 0 - t0 + 1)
  (min ((nb : ℤ) - 1) ((s.timestampMs - t0) * nb / span)).toNat

def pickBinsThenScore (ordered frames : List FrameScore) (k : ℕ) : List FrameScore :=
  let nb := bucketCount sel k
  let picked := bests (composite sel) (bucketOf ordered nb) nb frames
  let rest := ranked (composite sel) (others FrameScore.frameIndex picked frames)
  picked ++ rest.take (k - picked.length)

/-- What the strategy picks; every other name is the default one's. -/
def pickFrames (ordered frames : List FrameScore) (k : ℕ) : List FrameScore :=
  if sel.strategy = "uniform" then pickUniform frames k
  else if sel.strategy = "score" then (ranked (composite sel) frames).take k
  else pickBinsThenScore sel ordered frames k

def selectFrames (scores : List FrameScore) (k : ℤ) : List FrameScore :=
  if k ≤ 0 ∨ scores = [] then []
  else
    let ordered := inOrder scores
    inOrder ((pickFrames sel ordered (eligible sel ordered) k.toNat).take k.toNat)

end

/-! ## Order -/

theorem perm_inOrder (frames : List FrameScore) : (inOrder frames).Perm frames :=
  List.perm_insertionSort _ frames

theorem pairwise_inOrder (frames : List FrameScore) :
    (inOrder frames).Pairwise fun s t => s.timestampMs ≤ t.timestampMs := by
  have htotal : Std.Total fun s t : FrameScore => whenTaken s ≤ whenTaken t :=
    ⟨fun s t => le_total (whenTaken s) (whenTaken t)⟩
  have htrans : IsTrans FrameScore fun s t => whenTaken s ≤ whenTaken t :=
    ⟨fun _ _ _ => le_trans⟩
  have hsorted := List.pairwise_insertionSort (fun s t : FrameScore => whenTaken s ≤ whenTaken t)
    frames
  refine hsorted.imp fun {s t} hle => ?_
  rcases Prod.Lex.le_iff.mp hle with hlt | ⟨heq, -⟩
  · exact hlt.le
  · exact heq.le

section

variable {sel : Selector} {frames : List FrameScore} {k : ℕ}

theorem eligible_sublist : (eligible sel frames).Sublist frames := by
  unfold eligible
  split
  · exact List.Sublist.refl _
  · exact List.filter_sublist

theorem perm_eligible {frames' : List FrameScore} (h : frames.Perm frames') :
    (eligible sel frames).Perm (eligible sel frames') := by
  have hfilter := h.filter fun s => decide (qualityOk sel s)
  unfold eligible
  by_cases hnone : frames.filter (fun s => decide (qualityOk sel s)) = []
  · have hnone' := (hnone ▸ hfilter).nil_eq
    rw [if_pos hnone, if_pos hnone'.symm]
    exact h
  · have hsome : frames'.filter (fun s => decide (qualityOk sel s)) ≠ [] := fun hnil =>
      hnone ((hnil ▸ hfilter).eq_nil)
    rw [if_neg hnone, if_neg hsome]
    exact hfilter

/-! ## Evenly spaced -/

theorem dedup_concat_of_nodup (h : (frames.map FrameScore.frameIndex).Nodup) :
    frames.foldl (fun (seen : List ℤ × List FrameScore) s =>
        if s.frameIndex ∈ seen.1 then seen else (s.frameIndex :: seen.1, seen.2 ++ [s])) ([], [])
      = ((frames.map FrameScore.frameIndex).reverse, frames) := by
  induction frames using List.reverseRecOn with
  | nil => rfl
  | append_singleton front s ih =>
      rw [List.map_append, List.nodup_append'] at h
      obtain ⟨hfront, -, hdisjoint⟩ := h
      have hnew : s.frameIndex ∉ (front.map FrameScore.frameIndex).reverse := fun hmem =>
        hdisjoint (List.mem_reverse.mp hmem) (List.mem_singleton.mpr rfl)
      rw [List.foldl_append, ih hfront, List.foldl_cons, List.foldl_nil, if_neg hnew,
        List.map_append, List.reverse_append]
      rfl

theorem dedup_of_nodup (h : (frames.map FrameScore.frameIndex).Nodup) : dedup frames = frames := by
  unfold dedup
  rw [dedup_concat_of_nodup h]

/-- Steps of at least one frame do not stay at a position. -/
theorem floor_step_lt {n i j : ℕ} (hk : 0 < k) (hn : k < n) (hij : i < j) :
    ⌊(i : ℚ) * ((n : ℚ) / k)⌋₊ < ⌊(j : ℚ) * ((n : ℚ) / k)⌋₊ := by
  have hkq : (0 : ℚ) < k := by exact_mod_cast hk
  have hstep : (1 : ℚ) ≤ (n : ℚ) / k := by
    rw [le_div_iff₀ hkq, one_mul]
    exact_mod_cast hn.le
  have hjq : (i : ℚ) + 1 ≤ j := by exact_mod_cast hij
  have hnext : (i : ℚ) * ((n : ℚ) / k) + 1 ≤ (j : ℚ) * ((n : ℚ) / k) := by nlinarith
  have hpos : (0 : ℚ) ≤ (i : ℚ) * ((n : ℚ) / k) := by positivity
  rw [← Nat.succ_le_iff, Nat.succ_eq_add_one, ← Nat.floor_add_one hpos]
  exact Nat.floor_le_floor hnext

theorem floor_step_lt_length {n i : ℕ} (hi : i < k) (hn : k < n) :
    ⌊(i : ℚ) * ((n : ℚ) / k)⌋₊ < n := by
  have hkq : (0 : ℚ) < k := by exact_mod_cast Nat.zero_lt_of_lt hi
  have hlt : (i : ℚ) * n < n * k := by
    have hiq : (i : ℚ) < k := by exact_mod_cast hi
    have hnq : (0 : ℚ) < n := by exact_mod_cast Nat.zero_lt_of_lt hn
    nlinarith
  refine (Nat.floor_lt (by positivity)).mpr ?_
  rw [← mul_div_assoc, div_lt_iff₀ hkq]
  exact hlt

theorem uniformPosition_eq {n i : ℕ} (hi : i < k) (hn : k < n) :
    uniformPosition n k i = ⌊(i : ℚ) * ((n : ℚ) / k)⌋₊ := by
  have hlt := floor_step_lt_length hi hn
  exact Nat.min_eq_right (by omega)

theorem picks_pickUniform (hk : 0 < k) (hframes : (frames.map FrameScore.frameIndex).Nodup) :
    Picks k frames (pickUniform frames k) := by
  unfold pickUniform
  by_cases hle : frames.length ≤ k
  · rw [if_pos hle]
    exact ⟨hframes.of_map, List.Subset.refl _, (Nat.min_eq_right hle).symm⟩
  · rw [if_neg hle]
    have hn : k < frames.length := Nat.lt_of_not_le hle
    have hpicks : Picks k frames
        ((List.range k).filterMap fun i => frames[uniformPosition frames.length k i]?) := by
      refine picks_filterMap_getElem? hframes.of_map hn.le ?_ ?_
      · intro i hi
        rw [uniformPosition_eq hi hn]
        exact floor_step_lt_length hi hn
      · intro i hi j hj heq
        rw [uniformPosition_eq hi hn, uniformPosition_eq hj hn] at heq
        -- the positions increase with the place, so no two places read one
        rcases Nat.lt_trichotomy i j with hij | rfl | hji
        · exact absurd heq (floor_step_lt hk hn hij).ne
        · rfl
        · exact absurd heq (floor_step_lt hk hn hji).ne'
    rw [dedup_of_nodup]
    · exact hpicks
    · exact hpicks.nodup.map_on fun s hs t ht => List.inj_on_of_nodup_map hframes
        (hpicks.subset hs) (hpicks.subset ht)

/-! ## By score -/

theorem picks_ranked (hframes : (frames.map FrameScore.frameIndex).Nodup) :
    Picks k frames ((ranked (composite sel) frames).take k) :=
  picks_take k hframes.of_map (perm_ranked _ frames)

/-! ## By bucket, then by score -/

theorem bucketCount_mem (hk : 0 < k) : 0 < bucketCount sel k ∧ bucketCount sel k ≤ k := by
  unfold bucketCount
  omega

theorem bucketOf_lt {ordered : List FrameScore} {nb : ℕ} (hnb : 0 < nb) (s : FrameScore) :
    bucketOf ordered nb s < nb := by
  unfold bucketOf
  dsimp only
  omega

theorem picks_pickBinsThenScore {ordered : List FrameScore} (hk : 0 < k)
    (hframes : (frames.map FrameScore.frameIndex).Nodup) :
    Picks k frames (pickBinsThenScore sel ordered frames k) :=
  picks_fill hframes nodup_bests bests_subset (length_bests_le.trans (bucketCount_mem hk).2)
    (perm_ranked _ _)

theorem exists_best_of_bucket {ordered : List FrameScore} {s : FrameScore} (hk : 0 < k)
    (hs : s ∈ frames) :
    ∃ b ∈ pickBinsThenScore sel ordered frames k,
      bucketOf ordered (bucketCount sel k) b = bucketOf ordered (bucketCount sel k) s ∧
      ∀ t ∈ frames, bucketOf ordered (bucketCount sel k) t
          = bucketOf ordered (bucketCount sel k) s → composite sel t ≤ composite sel b := by
  obtain ⟨b, hb, hbucket, hbest⟩ := @exists_best _ _ _ (composite sel)
    (bucketOf ordered (bucketCount sel k)) _ _ _ hs (bucketOf_lt (bucketCount_mem hk).1 s)
  exact ⟨b, List.mem_append_left _ hb, hbucket, hbest⟩

/-! ## All three -/

theorem picks_pickFrames {ordered : List FrameScore} (hk : 0 < k)
    (hframes : (frames.map FrameScore.frameIndex).Nodup) :
    Picks k frames (pickFrames sel ordered frames k) := by
  unfold pickFrames
  split
  · exact picks_pickUniform hk hframes
  · split
    · exact picks_ranked hframes
    · exact picks_pickBinsThenScore hk hframes

end

/-- What is selected of the frames for a budget of `k`. -/
structure Selects (sel : Selector) (scores : List FrameScore) (k : ℕ)
    (selected : List FrameScore) : Prop where
  chronological : selected.Pairwise fun s t => s.timestampMs ≤ t.timestampMs
  distinct : (selected.map FrameScore.frameIndex).Nodup
  subset : selected ⊆ eligible sel scores
  length : selected.length = min k (eligible sel scores).length
  represented : sel.strategy ≠ "uniform" → sel.strategy ≠ "score" →
    ∀ s ∈ eligible sel scores, ∃ b ∈ selected,
      bucketOf (inOrder scores) (bucketCount sel k) b
        = bucketOf (inOrder scores) (bucketCount sel k) s ∧
      ∀ t ∈ eligible sel scores,
        bucketOf (inOrder scores) (bucketCount sel k) t
          = bucketOf (inOrder scores) (bucketCount sel k) s →
        composite sel t ≤ composite sel b

/-- For every budget and every strategy, of frames whose indexes differ. -/
theorem selectFrames_selects (sel : Selector) {scores : List FrameScore} {k : ℤ} (hk : 0 < k)
    (hscores : (scores.map FrameScore.frameIndex).Nodup) :
    Selects sel scores k.toNat (selectFrames sel scores k) := by
  have hpos : 0 < k.toNat := by omega
  by_cases hnil : scores = []
  · subst hnil
    have hempty : selectFrames sel [] k = [] := if_pos (Or.inr rfl)
    rw [hempty]
    refine ⟨List.Pairwise.nil, List.nodup_nil, List.nil_subset _, ?_, ?_⟩
    · exact (Nat.min_zero _).symm
    · intro _ _ s hs
      cases hs
  · have hperm : (eligible sel (inOrder scores)).Perm (eligible sel scores) :=
      perm_eligible (perm_inOrder scores)
    have heligible : ((eligible sel (inOrder scores)).map FrameScore.frameIndex).Nodup :=
      (((perm_inOrder scores).map _).nodup_iff.mpr hscores).sublist (eligible_sublist.map _)
    have hpicks := @picks_pickFrames sel _ _ (inOrder scores) hpos heligible
    -- the pick is within the budget, so the last cut keeps all of it
    have hselected : selectFrames sel scores k
        = inOrder (pickFrames sel (inOrder scores) (eligible sel (inOrder scores)) k.toNat) := by
      have hgo : ¬ (k ≤ 0 ∨ scores = []) := fun h => h.elim (not_le.mpr hk) hnil
      unfold selectFrames
      rw [if_neg hgo]
      exact congrArg inOrder hpicks.take
    have hpicked := (hpicks.perm (perm_inOrder _)).of_perm hperm
    rw [hselected]
    refine ⟨pairwise_inOrder _, ?_, hpicked.subset, hpicked.length, ?_⟩
    · exact hpicked.nodup.map_on fun s hs t ht => List.inj_on_of_nodup_map heligible
        (hperm.mem_iff.mpr (hpicked.subset hs)) (hperm.mem_iff.mpr (hpicked.subset ht))
    · intro huniform hscore s hs
      obtain ⟨b, hb, hbucket, hbest⟩ := @exists_best_of_bucket sel _ _ (inOrder scores) _ hpos
        (hperm.mem_iff.mpr hs)
      refine ⟨b, (perm_inOrder _).mem_iff.mpr ?_, hbucket, fun t ht => hbest t ?_⟩
      · unfold pickFrames
        rw [if_neg huniform, if_neg hscore]
        exact hb
      · exact hperm.mem_iff.mpr ht

/-- Four frames, of which the third is too blurred; the budget is two. -/
theorem selectFrames_selects_two :
    Selects {} [⟨0, 0, 0, 0, 90, 100⟩, ⟨1, 250, 1, 0, 90, 100⟩, ⟨2, 500, 1, 1, 10, 100⟩,
        ⟨3, 750, 0, 0, 90, 100⟩] 2
      (selectFrames {} [⟨0, 0, 0, 0, 90, 100⟩, ⟨1, 250, 1, 0, 90, 100⟩,
        ⟨2, 500, 1, 1, 10, 100⟩, ⟨3, 750, 0, 0, 90, 100⟩] 2) :=
  @selectFrames_selects {} [⟨0, 0, 0, 0, 90, 100⟩, ⟨1, 250, 1, 0, 90, 100⟩,
    ⟨2, 500, 1, 1, 10, 100⟩, ⟨3, 750, 0, 0, 90, 100⟩] 2 (by decide) (by decide +kernel)

end CctvMemory.Worker.Frames
