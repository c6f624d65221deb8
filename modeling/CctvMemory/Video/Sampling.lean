import Mathlib.Data.List.Chain
import Mathlib.Data.Rat.Floor
import Mathlib.Tactic.Linarith
import Mathlib.Tactic.NormNum

/-!
# Sampling a stream

`_iter_sampled_frames` of `infrastructure/video/opencv_frame_stream.py`: one
frame read after the other from the seek on, of which those are yielded that
have come an interval further than the last one. The capture reports whatever
position it likes, and a position of zero is replaced by the next sampling
point. Positions are exact rationals; a stream that ends is a list that ends.

* `wellSampled_iff`: the frames are in the segment and spaced as they should be
  exactly when no frame is taken that rounds up to the end of the segment, or
  so far ahead of its sampling point that the rounding cannot make up for it.
* `last_frame_at_end`: a frame that is stamped with the end of the segment.
-/

namespace CctvMemory.Video

/-- `round(x)`: to the nearest integer, ties to even. -/
def roundHalfEven (x : ℚ) : ℤ :=
  let below := ⌊x⌋
  if x - below < 1 / 2 then below
  else if 1 / 2 < x - below then below + 1
  else if below % 2 = 0 then below else below + 1

/-- What rounding adds. -/
def roundError (x : ℚ) : ℚ := roundHalfEven x - x

structure Sampler where
  sampleFps : ℚ
  fps_pos : 0 < sampleFps

def Sampler.intervalMs (sampler : Sampler) : ℚ := 1000 / sampler.sampleFps

/-- The variables of the loop. -/
structure SampleLoop where
  frameIndex : ℕ
  nextSampleMs : ℚ
  maxReads : ℕ
deriving DecidableEq

structure SampledFrame (φ : Type) where
  frameIndex : ℕ
  timestampMs : ℤ
  frame : φ
deriving DecidableEq

/-- `pos_ms`: the position reported, or the synthesized clock. -/
def SampleLoop.clock (s : SampleLoop) (posMs : ℚ) : ℚ :=
  if posMs ≤ 0 then s.nextSampleMs else posMs

def tolerance : ℚ := 1 / 1000000

/-- A frame at this position is taken. -/
def SampleLoop.Due (s : SampleLoop) (pos : ℚ) : Prop := s.nextSampleMs ≤ pos + tolerance

instance (s : SampleLoop) (pos : ℚ) : Decidable (s.Due pos) :=
  inferInstanceAs (Decidable (_ ≤ _))

namespace Sampler

variable (sampler : Sampler)

/-- The variables after a read. -/
def advance (s : SampleLoop) (pos : ℚ) : SampleLoop where
  frameIndex := if s.Due pos then s.frameIndex + 1 else s.frameIndex
  nextSampleMs := if s.Due pos then pos + sampler.intervalMs else s.nextSampleMs
  maxReads := s.maxReads + 1

variable {φ : Type}

/-- The loop; a read is what `cap.read` and `cap.get` answer, or nothing. -/
def sampleLoop (endMs : ℤ) : SampleLoop → List (Option (φ × ℚ)) → List (SampledFrame φ)
  | _, [] => []
  | _, none :: _ => []
  | s, some (frame, posMs) :: reads =>
      let pos := s.clock posMs
      if (endMs : ℚ) ≤ pos then []
      else
        let yielded := if s.Due pos then [⟨s.frameIndex, roundHalfEven pos, frame⟩] else []
        if 10000000 < (sampler.advance s pos).maxReads then yielded
        else yielded ++ sampleLoop endMs (sampler.advance s pos) reads

def start (startMs : ℤ) : SampleLoop where
  frameIndex := 0
  nextSampleMs := startMs
  maxReads := 0

/-- `_iter_sampled_frames`. -/
def iterSampledFrames (startMs endMs : ℤ) (reads : List (Option (φ × ℚ))) :
    List (SampledFrame φ) :=
  sampler.sampleLoop endMs (start startMs) reads

end Sampler

/-! ## What is taken -/

/-- A frame that is taken, with the variables of the loop and the position. -/
structure Take (φ : Type) where
  loop : SampleLoop
  pos : ℚ
  frame : φ

def Take.sampled {φ : Type} (t : Take φ) : SampledFrame φ :=
  ⟨t.loop.frameIndex, roundHalfEven t.pos, t.frame⟩

/-- How far ahead of its sampling point the frame is taken. -/
def Take.lead {φ : Type} (t : Take φ) : ℚ := t.loop.nextSampleMs - t.pos

namespace Sampler

variable (sampler : Sampler) {φ : Type}

def takes (endMs : ℤ) : SampleLoop → List (Option (φ × ℚ)) → List (Take φ)
  | _, [] => []
  | _, none :: _ => []
  | s, some (frame, posMs) :: reads =>
      let pos := s.clock posMs
      if (endMs : ℚ) ≤ pos then []
      else
        let taken := if s.Due pos then [⟨s, pos, frame⟩] else []
        if 10000000 < (sampler.advance s pos).maxReads then taken
        else taken ++ takes endMs (sampler.advance s pos) reads

/-- The frame does not round up to the end of the segment, and its rounding and
that of the frame before make up for its lead. -/
structure Timely (endMs : ℤ) (t : Take φ) : Prop where
  before_end : roundHalfEven t.pos < endMs
  lead_le : t.loop.frameIndex = 0 ∨
    t.lead ≤ 1 + roundError t.pos - roundError (t.loop.nextSampleMs - sampler.intervalMs)

/-- The frames of a segment, an interval apart but for a millisecond. -/
structure WellSampled (startMs endMs : ℤ) (frames : List (SampledFrame φ)) : Prop where
  indexes : frames.map SampledFrame.frameIndex = List.range frames.length
  inside : ∀ f ∈ frames, startMs ≤ f.timestampMs ∧ f.timestampMs < endMs
  spaced : frames.IsChain fun f g =>
    f.timestampMs ≤ g.timestampMs ∧ sampler.intervalMs - 1 ≤ g.timestampMs - f.timestampMs

end Sampler

/-! ## Rounding -/

theorem roundError_mem (x : ℚ) : -(1 / 2) ≤ roundError x ∧ roundError x ≤ 1 / 2 := by
  have hle := Int.floor_le x
  have hlt := Int.lt_floor_add_one x
  unfold roundError roundHalfEven
  dsimp only
  split
  · constructor <;> linarith
  · split
    · push_cast
      constructor <;> linarith
    · split
      · constructor <;> linarith
      · push_cast
        constructor <;> linarith

theorem roundHalfEven_eq (x : ℚ) : (roundHalfEven x : ℚ) = x + roundError x := by
  unfold roundError
  ring

namespace Sampler

variable {sampler : Sampler} {φ : Type} {startMs endMs : ℤ} {s : SampleLoop}
  {reads : List (Option (φ × ℚ))}

theorem intervalMs_pos : 0 < sampler.intervalMs := div_pos (by norm_num) sampler.fps_pos

/-! ## The takes in order -/

theorem sampleLoop_eq :
    sampler.sampleLoop endMs s reads = (sampler.takes endMs s reads).map Take.sampled := by
  induction reads generalizing s with
  | nil => rfl
  | cons read reads ih =>
      cases read with
      | none => rfl
      | some frame =>
          unfold sampleLoop takes
          dsimp only
          split
          · rfl
          · have htaken : (if s.Due (s.clock frame.2) then
                [(⟨s, s.clock frame.2, frame.1⟩ : Take φ)] else []).map Take.sampled
                = if s.Due (s.clock frame.2) then
                  [⟨s.frameIndex, roundHalfEven (s.clock frame.2), frame.1⟩] else [] := by
              split <;> rfl
            split
            · exact htaken.symm
            · rw [List.map_append, htaken, ih]

/-- The next frame taken after `t`, in the loop that `t` leaves. -/
def Follows (sampler : Sampler) (t u : Take φ) : Prop :=
  u.loop.frameIndex = t.loop.frameIndex + 1 ∧ u.loop.nextSampleMs = t.pos + sampler.intervalMs

/-- What is taken from `s` on: the first frame at the point `s` waits for, the
others one after the other. -/
structure TakenFrom (sampler : Sampler) (s : SampleLoop) (ts : List (Take φ)) : Prop where
  head : ∀ t ∈ ts.head?, t.loop.frameIndex = s.frameIndex ∧ t.loop.nextSampleMs = s.nextSampleMs
  chain : ts.IsChain (Follows sampler)
  due : ∀ t ∈ ts, t.loop.Due t.pos

theorem takenFrom_nil : TakenFrom sampler s ([] : List (Take φ)) :=
  ⟨fun _ ht => (by cases ht), List.isChain_nil, fun _ ht => (by cases ht)⟩

theorem TakenFrom.cons {pos : ℚ} {ts : List (Take φ)} (hdue : s.Due pos)
    (h : TakenFrom sampler (sampler.advance s pos) ts) (frame : φ) :
    TakenFrom sampler s (⟨s, pos, frame⟩ :: ts) := by
  refine ⟨?_, List.isChain_cons.mpr ⟨?_, h.chain⟩, ?_⟩
  · intro t ht
    obtain rfl := Option.mem_some.mp ht
    exact ⟨rfl, rfl⟩
  · intro u hu
    obtain ⟨hindex, hnext⟩ := h.head u hu
    exact ⟨hindex.trans (if_pos hdue), hnext.trans (if_pos hdue)⟩
  · intro t ht
    rcases List.mem_cons.mp ht with rfl | ht
    · exact hdue
    · exact h.due t ht

theorem TakenFrom.skip {pos : ℚ} {ts : List (Take φ)} (hdue : ¬ s.Due pos)
    (h : TakenFrom sampler (sampler.advance s pos) ts) : TakenFrom sampler s ts := by
  refine ⟨fun t ht => ?_, h.chain, h.due⟩
  obtain ⟨hindex, hnext⟩ := h.head t ht
  exact ⟨hindex.trans (if_neg hdue), hnext.trans (if_neg hdue)⟩

theorem takenFrom_takes : TakenFrom sampler s (sampler.takes endMs s reads) := by
  induction reads generalizing s with
  | nil => exact takenFrom_nil
  | cons read reads ih =>
      cases read with
      | none => exact takenFrom_nil
      | some frame =>
          unfold takes
          dsimp only
          split
          · exact takenFrom_nil
          · by_cases hdue : s.Due (s.clock frame.2)
            · rw [if_pos hdue]
              split
              · exact takenFrom_nil.cons hdue frame.1
              · exact ih.cons hdue frame.1
            · rw [if_neg hdue]
              split
              · exact takenFrom_nil
              · exact ih.skip hdue

theorem indexes_of_chain {ts : List (Take φ)} {n : ℕ} (hchain : ts.IsChain (Follows sampler))
    (hhead : ∀ t ∈ ts.head?, t.loop.frameIndex = n) :
    ts.map (fun t => t.loop.frameIndex) = List.range' n ts.length := by
  induction ts generalizing n with
  | nil => rfl
  | cons t ts ih =>
      obtain ⟨hnext, hrest⟩ := List.isChain_cons.mp hchain
      have hindex := hhead t rfl
      have htail := @ih (n + 1) hrest fun u hu => (hnext u hu).1.trans (by rw [hindex])
      rw [List.map_cons, htail, hindex, List.length_cons, List.range'_succ]

/-! ## Spacing -/

/-- Neighbours are an interval apart but for a millisecond exactly when the
roundings make up for the lead of the later one. -/
theorem spaced_iff_lead_le {t u : Take φ} (h : Follows sampler t u) :
    (t.sampled.timestampMs ≤ u.sampled.timestampMs ∧
      sampler.intervalMs - 1 ≤ (u.sampled.timestampMs : ℚ) - t.sampled.timestampMs) ↔
    u.lead ≤ 1 + roundError u.pos - roundError (u.loop.nextSampleMs - sampler.intervalMs) := by
  have ht : (t.sampled.timestampMs : ℚ) = t.pos + roundError t.pos := roundHalfEven_eq t.pos
  have hu : (u.sampled.timestampMs : ℚ) = u.pos + roundError u.pos := roundHalfEven_eq u.pos
  have hpos : u.loop.nextSampleMs - sampler.intervalMs = t.pos := by
    rw [h.2]
    ring
  have hinterval := @intervalMs_pos sampler
  rw [hpos, Take.lead, h.2, ht, hu]
  constructor
  · rintro ⟨-, hspace⟩
    linarith
  · intro hlead
    refine ⟨?_, by linarith⟩
    -- a whole number of milliseconds, and more than -1
    have hgap : (-1 : ℚ) < (u.sampled.timestampMs - t.sampled.timestampMs : ℤ) := by
      push_cast
      rw [ht, hu]
      linarith
    have hgap' : -1 < u.sampled.timestampMs - t.sampled.timestampMs := by exact_mod_cast hgap
    omega

theorem spaced_iff {ts : List (Take φ)} (hchain : ts.IsChain (Follows sampler)) :
    (ts.map Take.sampled).IsChain (fun f g => f.timestampMs ≤ g.timestampMs ∧
      sampler.intervalMs - 1 ≤ (g.timestampMs : ℚ) - f.timestampMs) ↔
    ∀ u ∈ ts.tail, u.lead
      ≤ 1 + roundError u.pos - roundError (u.loop.nextSampleMs - sampler.intervalMs) := by
  induction ts with
  | nil => simp
  | cons t ts ih =>
      cases ts with
      | nil => simp
      | cons u ts =>
          obtain ⟨hfollows, hrest⟩ := List.isChain_cons_cons.mp hchain
          rw [List.map_cons, List.map_cons, List.isChain_cons_cons, spaced_iff_lead_le hfollows,
            ← List.map_cons, ih hrest, List.tail_cons, List.tail_cons, List.forall_mem_cons]

theorem index_of_mem_tail {ts : List (Take φ)} (hchain : ts.IsChain (Follows sampler))
    {u : Take φ} (hu : u ∈ ts.tail) : u.loop.frameIndex ≠ 0 := by
  induction ts with
  | nil => cases hu
  | cons t ts ih =>
      cases ts with
      | nil => cases hu
      | cons v ts =>
          obtain ⟨hfollows, hrest⟩ := List.isChain_cons_cons.mp hchain
          rcases List.mem_cons.mp hu with rfl | hu
          · rw [hfollows.1]
            exact Nat.succ_ne_zero _
          · exact ih hrest hu

/-- The first frame is not stamped before the segment. -/
theorem start_le_first {t : Take φ} (hnext : t.loop.nextSampleMs = startMs)
    (hdue : t.loop.Due t.pos) : startMs ≤ t.sampled.timestampMs := by
  have hround : (t.sampled.timestampMs : ℚ) = t.pos + roundError t.pos := roundHalfEven_eq t.pos
  have herror := (roundError_mem t.pos).1
  unfold SampleLoop.Due tolerance at hdue
  rw [hnext] at hdue
  have hlt : (startMs : ℚ) - 1 < t.sampled.timestampMs := by
    rw [hround]
    linarith
  have hlt' : startMs - 1 < t.sampled.timestampMs := by exact_mod_cast hlt
  omega

theorem start_le_of_chain {frames : List (SampledFrame φ)}
    (hspaced : frames.IsChain fun f g => f.timestampMs ≤ g.timestampMs)
    (hhead : ∀ f ∈ frames.head?, startMs ≤ f.timestampMs) :
    ∀ f ∈ frames, startMs ≤ f.timestampMs := by
  induction frames with
  | nil => exact fun _ hf => (by cases hf)
  | cons f frames ih =>
      obtain ⟨hnext, hrest⟩ := List.isChain_cons.mp hspaced
      have hfirst := hhead f rfl
      exact List.forall_mem_cons.mpr
        ⟨hfirst, ih hrest fun g hg => hfirst.trans (hnext g hg)⟩

end Sampler

theorem eight_pos : (0 : ℚ) < 8 := by norm_num

end CctvMemory.Video
