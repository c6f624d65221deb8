import CctvMemory.Library.Spans
import Mathlib.Data.List.Sort
import Mathlib.Data.Rat.Defs
import Mathlib.Algebra.Order.Ring.Rat

/-!
# Triggers from motion samples

`plan_motion_triggers`: the samples in order of time, their runs above the
threshold, the runs joined across small gaps, and each clamped to the duration.
What it finds is said without its loops: a sample above the threshold stands for
the time up to the next one, and a burst is a maximal run of such spans.

* `mem_planMotionTriggers`: the windows are the bursts, clamped.
* `exists_burst`: a sample above the threshold lies in a burst.
-/

namespace CctvMemory.Worker.Motion

open Spans

/-! ## The planner -/

/-- `timestamp_ms` counts from the start of the video. -/
structure MotionSample where
  timestampMs : ℕ
  score : ℚ
deriving DecidableEq, Repr

structure TriggerWindow where
  startMs : ℕ
  endMs : ℕ
  peakScore : ℚ
  reason : String := "motion_spike"
deriving DecidableEq, Repr

/-- What the planner is called with, beside the samples. -/
structure TriggerParams where
  threshold : ℚ
  minDurationMs : ℕ
  mergeGapMs : ℕ
  minDurationMs_pos : 0 < minDurationMs

/-- `pipeline.motion_scan`. -/
structure MotionScanSection extends TriggerParams where
  threshold_mem : 0 ≤ threshold ∧ threshold ≤ 1

instance : Coe MotionScanSection TriggerParams := ⟨MotionScanSection.toTriggerParams⟩

/-- `sorted(samples, key=timestamp_ms)`. -/
def inOrder (samples : List MotionSample) : List MotionSample :=
  samples.insertionSort fun s t => s.timestampMs ≤ t.timestampMs

/-- `_median_step`, on sorted timestamps. -/
def medianStep (timestamps : List ℕ) : ℕ :=
  if timestamps.length < 2 then 1
  else
    let diffs := (List.zipWith (fun t next => next - t) timestamps timestamps.tail).insertionSort
      (· ≤ ·)
    max 1 (diffs.getD (diffs.length / 2) 0)

section Runs

variable (cfg : TriggerParams) (ordered : List MotionSample)

/-- `sample_end`: the next sample, or one step behind the last. -/
def sampleEnd (index : ℕ) : ℕ :=
  match ordered[index + 1]? with
  | some next => next.timestampMs
  | none => ((ordered[index]?).map MotionSample.timestampMs).getD 0
      + medianStep (ordered.map MotionSample.timestampMs)

/-- The runs found so far and the open one, by its start and peak. -/
structure RunScan where
  raw : List (Span ℚ) := []
  run : Option (ℕ × ℚ) := none

def scanSample (sampleEnd : ℕ → ℕ) (st : RunScan) (si : MotionSample × ℕ) : RunScan :=
  if cfg.threshold ≤ si.1.score then
    match st.run with
    | none => { st with run := some (si.1.timestampMs, si.1.score) }
    | some (start, peak) => { st with run := some (start, max peak si.1.score) }
  else
    match st.run with
    | none => st
    | some (start, peak) =>
        { raw := st.raw ++ [⟨start, sampleEnd (si.2 - 1), peak⟩], run := none }

/-- The open run ends with the last of `n` samples. -/
def closeRun (sampleEnd : ℕ → ℕ) (n : ℕ) (st : RunScan) : List (Span ℚ) :=
  match st.run with
  | none => st.raw
  | some (start, peak) => st.raw ++ [⟨start, sampleEnd (n - 1), peak⟩]

/-- The runs of consecutive samples that reach the threshold. -/
def rawRuns : List (Span ℚ) :=
  closeRun (sampleEnd ordered) ordered.length
    (ordered.zipIdx.foldl (scanSample cfg (sampleEnd ordered)) {})

end Runs

section Windows

variable (cfg : TriggerParams)

/-- A joined run as a window. The bounds pass through `float` in the source,
which keeps milliseconds as they are. -/
def finishWindow (durationMs : Option ℕ) (m : Span ℚ) : Option TriggerWindow :=
  let endMs := if m.stop - m.start < cfg.minDurationMs then m.start + cfg.minDurationMs else m.stop
  match durationMs with
  | none => some { startMs := m.start, endMs := endMs, peakScore := m.peak }
  | some duration =>
      if duration ≤ m.start then none
      else if min endMs duration ≤ m.start then none
      else some { startMs := m.start, endMs := min endMs duration, peakScore := m.peak }

/-- `plan_motion_triggers`, for the one reason it is called with. -/
def planMotionTriggers (samples : List MotionSample) (durationMs : Option ℕ) :
    List TriggerWindow :=
  if samples = [] then []
  else (coalesce cfg.mergeGapMs (rawRuns cfg (inOrder samples))).filterMap
    (finishWindow cfg durationMs)

/-! ## Bursts of motion -/

/-- The time each sample at or above the threshold stands for. -/
def hotSpans (sampleEnd : ℕ → ℕ) (ordered : List MotionSample) : List (Span ℚ) :=
  ordered.zipIdx.filterMap fun si =>
    if cfg.threshold ≤ si.1.score then
      some ⟨si.1.timestampMs, sampleEnd si.2, si.1.score⟩
    else none

/-- The maximal runs of such spans with gaps of at most `merge_gap_ms`. -/
def bursts (samples : List MotionSample) : List (Span ℚ) :=
  hulls cfg.mergeGapMs (hotSpans cfg (sampleEnd (inOrder samples)) (inOrder samples))

/-- Where the trigger of a burst ends in a video that is long enough. -/
def reach (b : Span ℚ) : ℕ := max b.stop (b.start + cfg.minDurationMs)

/-- The trigger of a burst in a video of this duration. -/
def clamped (duration : ℕ) (b : Span ℚ) : TriggerWindow where
  startMs := b.start
  endMs := min (reach cfg b) duration
  peakScore := b.peak

end Windows

/-! ## Samples in order -/

theorem mem_inOrder {samples : List MotionSample} {s : MotionSample} :
    s ∈ inOrder samples ↔ s ∈ samples := List.mem_insertionSort _

theorem pairwise_inOrder (samples : List MotionSample) :
    (inOrder samples).Pairwise fun s t => s.timestampMs ≤ t.timestampMs := by
  have htotal : Std.Total fun s t : MotionSample => s.timestampMs ≤ t.timestampMs :=
    ⟨fun s t => Nat.le_total s.timestampMs t.timestampMs⟩
  have htrans : IsTrans MotionSample fun s t => s.timestampMs ≤ t.timestampMs :=
    ⟨fun _ _ _ => Nat.le_trans⟩
  exact List.pairwise_insertionSort _ samples

/-- What the planner needs of the ends: a sample ends where the next one is, and
not before it starts. -/
structure Ends (sampleEnd : ℕ → ℕ) (ordered : List MotionSample) : Prop where
  next : ∀ i s, ordered[i + 1]? = some s → sampleEnd i = s.timestampMs
  le : ∀ i s, ordered[i]? = some s → s.timestampMs ≤ sampleEnd i

theorem Ends.of_append {E : ℕ → ℕ} {front back : List MotionSample}
    (h : Ends E (front ++ back)) : Ends E front where
  next i s hs := h.next i s (by
    rw [List.getElem?_append_left (List.getElem?_eq_some_iff.mp hs).1]
    exact hs)
  le i s hs := h.le i s (by
    rw [List.getElem?_append_left (List.getElem?_eq_some_iff.mp hs).1]
    exact hs)

theorem ends_sampleEnd {ordered : List MotionSample}
    (h : ordered.Pairwise fun s t => s.timestampMs ≤ t.timestampMs) :
    Ends (sampleEnd ordered) ordered where
  next i s hs := by
    unfold sampleEnd
    rw [hs]
  le i s hs := by
    unfold sampleEnd
    cases hnext : ordered[i + 1]? with
    | none =>
        rw [hs]
        exact Nat.le_add_right _ _
    | some next =>
        obtain ⟨hi, rfl⟩ := List.getElem?_eq_some_iff.mp hs
        obtain ⟨hj, rfl⟩ := List.getElem?_eq_some_iff.mp hnext
        exact List.pairwise_iff_getElem.mp h i (i + 1) hi hj (Nat.lt_succ_self i)

section Loop

variable {cfg : TriggerParams} {E : ℕ → ℕ}

theorem hotSpans_concat (front : List MotionSample) (s : MotionSample) :
    hotSpans cfg E (front ++ [s])
      = hotSpans cfg E front ++
        if cfg.threshold ≤ s.score then [⟨s.timestampMs, E front.length, s.score⟩] else [] := by
  unfold hotSpans
  rw [List.zipIdx_append, List.filterMap_append]
  by_cases h : cfg.threshold ≤ s.score <;> simp [h]

theorem mem_hotSpans {ordered : List MotionSample} {b : Span ℚ} :
    b ∈ hotSpans cfg E ordered ↔
      ∃ i s, ordered[i]? = some s ∧ cfg.threshold ≤ s.score ∧
        b = ⟨s.timestampMs, E i, s.score⟩ := by
  unfold hotSpans
  rw [List.mem_filterMap]
  constructor
  · rintro ⟨⟨s, i⟩, hmem, hb⟩
    split at hb
    · rename_i hhot
      exact ⟨i, s, List.mem_zipIdx_iff_getElem?.mp hmem, hhot, (Option.some.inj hb).symm⟩
    · cases hb
  · rintro ⟨i, s, hs, hhot, rfl⟩
    exact ⟨(s, i), List.mem_zipIdx_iff_getElem?.mpr hs, if_pos hhot⟩

/-! ## The loop over the samples -/

/-- The loop after the samples of `front`: what is found, joined, is the joined
spans of the samples, and the open run is one of the last sample's. -/
structure Scanned (cfg : TriggerParams) (E : ℕ → ℕ) (front : List MotionSample)
    (st : RunScan) : Prop where
  joined : (closeRun E front.length st).foldl (joinLast cfg.mergeGapMs) []
    = (hotSpans cfg E front).foldl (joinLast cfg.mergeGapMs) []
  opened : ∀ run ∈ st.run, front ≠ []

theorem scanned_concat {front : List MotionSample} {s : MotionSample} {st : RunScan}
    (hE : Ends E (front ++ [s])) (h : Scanned cfg E front st) :
    Scanned cfg E (front ++ [s]) (scanSample cfg E st (s, front.length)) := by
  have hlen : (front ++ [s]).length - 1 = front.length := by simp
  have hs : (front ++ [s])[front.length]? = some s := by simp
  unfold scanSample
  by_cases hhot : cfg.threshold ≤ s.score
  · rw [if_pos hhot]
    cases hrun : st.run with
    | none =>
        refine ⟨?_, fun run _ => by simp⟩
        have hraw := h.joined
        unfold closeRun at hraw ⊢
        rw [hrun] at hraw
        simp only at hraw ⊢
        rw [hotSpans_concat, if_pos hhot, List.foldl_append, List.foldl_append, hraw, hlen]
    | some run =>
        obtain ⟨start, peak⟩ := run
        refine ⟨?_, fun run _ => by simp⟩
        have hraw := h.joined
        unfold closeRun at hraw ⊢
        rw [hrun] at hraw
        simp only at hraw ⊢
        -- the run and the new sample touch
        have hpos : front.length - 1 + 1 = front.length :=
          Nat.sub_add_cancel (List.length_pos_of_ne_nil (h.opened _ hrun))
        have hstart : E (front.length - 1) = s.timestampMs :=
          hE.next _ _ (by rw [hpos]; exact hs)
        have hstop : s.timestampMs ≤ E front.length := hE.le _ _ hs
        have htouch := @joinLast_touching ℚ _ cfg.mergeGapMs
          ⟨start, E (front.length - 1), peak⟩
          ⟨s.timestampMs, E front.length, s.score⟩ hstart.symm (hstart ▸ hstop)
          (st.raw.foldl (joinLast cfg.mergeGapMs) [])
        rw [hotSpans_concat, if_pos hhot, List.foldl_append, List.foldl_append, ← hraw,
          List.foldl_append, hlen]
        exact htouch.symm
  · rw [if_neg hhot]
    cases hrun : st.run with
    | none =>
        refine ⟨?_, fun run hmem => by rw [hrun] at hmem; cases hmem⟩
        have hraw := h.joined
        unfold closeRun at hraw ⊢
        rw [hrun] at hraw ⊢
        simp only at hraw ⊢
        rw [hotSpans_concat, if_neg hhot, List.append_nil, hraw]
    | some run =>
        obtain ⟨start, peak⟩ := run
        refine ⟨?_, fun run hmem => by cases hmem⟩
        have hraw := h.joined
        unfold closeRun at hraw ⊢
        rw [hrun] at hraw
        simp only at hraw ⊢
        rw [hotSpans_concat, if_neg hhot, List.append_nil, hraw]

theorem scanned_foldl (ordered : List MotionSample) (hE : Ends E ordered) :
    Scanned cfg E ordered (ordered.zipIdx.foldl (scanSample cfg E) {}) := by
  induction ordered using List.reverseRecOn with
  | nil => exact ⟨rfl, fun run hmem => by cases hmem⟩
  | append_singleton front s ih =>
      have hstep := scanned_concat hE (ih hE.of_append)
      rw [List.zipIdx_append, List.foldl_append]
      simpa using hstep

end Loop

/-! ## What the planner finds -/

section Bursts

variable {cfg : TriggerParams} {samples : List MotionSample}

theorem ends_inOrder : Ends (sampleEnd (inOrder samples)) (inOrder samples) :=
  ends_sampleEnd (pairwise_inOrder samples)

theorem pairwise_zipIdx {E : ℕ → ℕ} {ordered : List MotionSample}
    (h : ordered.Pairwise fun s t => s.timestampMs ≤ t.timestampMs) (hE : Ends E ordered) :
    ordered.zipIdx.Pairwise fun a b => a.1.timestampMs ≤ b.1.timestampMs ∧ E a.2 ≤ E b.2 := by
  rw [List.pairwise_iff_getElem]
  intro i j hi hj hij
  rw [List.length_zipIdx] at hi hj
  simp only [List.getElem_zipIdx, Nat.zero_add]
  refine ⟨List.pairwise_iff_getElem.mp h i j hi hj hij, ?_⟩
  have hnext : E i = ordered[i + 1].timestampMs :=
    hE.next i _ (List.getElem?_eq_getElem (Nat.lt_of_le_of_lt hij hj))
  have hend : ordered[j].timestampMs ≤ E j := hE.le j _ (List.getElem?_eq_getElem hj)
  rcases Nat.lt_or_eq_of_le (show i + 1 ≤ j from hij) with hlt | rfl
  · exact hnext ▸ (List.pairwise_iff_getElem.mp h (i + 1) j _ hj hlt).trans hend
  · exact hnext ▸ hend

theorem ordered_hotSpans {E : ℕ → ℕ} {ordered : List MotionSample}
    (h : ordered.Pairwise fun s t => s.timestampMs ≤ t.timestampMs) (hE : Ends E ordered) :
    Ordered (hotSpans cfg E ordered) := by
  have hspans : (hotSpans cfg E ordered).Pairwise fun r s =>
      r.start ≤ s.start ∧ r.stop ≤ s.stop := by
    unfold hotSpans
    rw [List.pairwise_filterMap]
    refine (pairwise_zipIdx h hE).imp ?_
    intro a b hab r hr s hs
    split at hr
    · split at hs
      · cases hr
        cases hs
        exact hab
      · cases hs
    · cases hr
  refine ⟨?_, hspans.imp And.left, hspans.imp And.right⟩
  intro b hb
  obtain ⟨i, s, hs, -, rfl⟩ := mem_hotSpans.mp hb
  exact hE.le i s hs

theorem coalesce_rawRuns :
    coalesce cfg.mergeGapMs (rawRuns cfg (inOrder samples)) = bursts cfg samples := by
  have hscan := (@scanned_foldl cfg _ (inOrder samples) ends_inOrder).joined
  have hjoined : coalesce cfg.mergeGapMs (rawRuns cfg (inOrder samples))
      = coalesce cfg.mergeGapMs (hotSpans cfg (sampleEnd (inOrder samples)) (inOrder samples)) :=
    congrArg List.reverse hscan
  rw [hjoined, coalesce_eq_hulls (ordered_hotSpans (pairwise_inOrder samples) ends_inOrder)]
  rfl

/-- The windows are the bursts, clamped. -/
theorem mem_planMotionTriggers {durationMs : Option ℕ} {w : TriggerWindow} :
    w ∈ planMotionTriggers cfg samples durationMs ↔
      ∃ b ∈ bursts cfg samples, finishWindow cfg durationMs b = some w := by
  unfold planMotionTriggers
  by_cases h : samples = []
  · subst h
    rw [if_pos rfl]
    constructor
    · intro hw
      cases hw
    · rintro ⟨b, hb, -⟩
      cases hb
  · rw [if_neg h, coalesce_rawRuns, List.mem_filterMap]

/-- A sample at or above the threshold lies in a burst. -/
theorem exists_burst {s : MotionSample} (hs : s ∈ samples) (hhot : cfg.threshold ≤ s.score) :
    ∃ b ∈ bursts cfg samples, b.start ≤ s.timestampMs ∧ s.timestampMs ≤ b.stop := by
  obtain ⟨i, hi⟩ := List.getElem?_of_mem (mem_inOrder.mpr hs)
  have hmem := (mem_hotSpans (E := sampleEnd (inOrder samples))).mpr ⟨i, s, hi, hhot, rfl⟩
  obtain ⟨b, hb, hstart, hstop⟩ := @exists_hull ℚ _ cfg.mergeGapMs _
    (ordered_hotSpans (pairwise_inOrder samples) ends_inOrder) _ hmem
  exact ⟨b, hb, hstart, (ends_inOrder.le i s hi).trans hstop⟩

/-- A burst starts with a sample at or above the threshold. -/
theorem exists_hot_of_burst {b : Span ℚ} (hb : b ∈ bursts cfg samples) :
    ∃ s ∈ samples, cfg.threshold ≤ s.score ∧ s.timestampMs = b.start := by
  obtain ⟨r, hr, hstart⟩ := exists_start
    (ordered_hotSpans (pairwise_inOrder samples) ends_inOrder) hb
  obtain ⟨i, s, hs, hhot, rfl⟩ := mem_hotSpans.mp hr
  exact ⟨s, mem_inOrder.mp (List.mem_of_getElem? hs), hhot, hstart⟩

/-- No two bursts start at one time. -/
theorem burst_eq_of_start {b b' : Span ℚ} (hb : b ∈ bursts cfg samples)
    (hb' : b' ∈ bursts cfg samples) (h : b.start = b'.start) : b = b' := by
  have hordered := @ordered_hotSpans cfg _ _ (pairwise_inOrder samples) ends_inOrder
  have hpair : (bursts cfg samples).Pairwise fun r s => r.start ≠ s.start := by
    refine (pairwise_hulls hordered).imp_of_mem fun hr _ hlt => ?_
    have hproper := proper_hulls hordered hr
    omega
  exact List.inj_on_of_nodup_map (List.pairwise_map.mpr hpair) hb hb' h

/-! ## Clamping -/

theorem start_lt_reach (config : TriggerParams) (b : Span ℚ) : b.start < reach config b :=
  Nat.lt_of_lt_of_le (Nat.lt_add_of_pos_right config.minDurationMs_pos) (Nat.le_max_right _ _)

/-- A span shorter than the least duration is extended to it. -/
theorem reach_eq_ite (b : Span ℚ) :
    reach cfg b = if b.stop - b.start < cfg.minDurationMs then b.start + cfg.minDurationMs
      else b.stop := by
  have hpos := cfg.minDurationMs_pos
  unfold reach
  split
  · omega
  · omega

theorem finishWindow_some_eq_some_iff {duration : ℕ} {b : Span ℚ} {w : TriggerWindow} :
    finishWindow cfg (some duration) b = some w ↔
      b.start < duration ∧ w = clamped cfg duration b := by
  have hreach := start_lt_reach cfg b
  unfold finishWindow
  rw [← reach_eq_ite]
  simp only
  by_cases hstart : duration ≤ b.start
  · rw [if_pos hstart]
    constructor
    · intro h
      cases h
    · rintro ⟨hlt, -⟩
      omega
  · have hend : ¬ min (reach cfg b) duration ≤ b.start := by omega
    rw [if_neg hstart, if_neg hend, Option.some.injEq]
    constructor
    · rintro rfl
      exact ⟨Nat.lt_of_not_le hstart, rfl⟩
    · rintro ⟨-, rfl⟩
      rfl

/-- The windows of a video of known duration. -/
theorem mem_planMotionTriggers_some {duration : ℕ} {w : TriggerWindow} :
    w ∈ planMotionTriggers cfg samples (some duration) ↔
      ∃ b ∈ bursts cfg samples, b.start < duration ∧ w = clamped cfg duration b := by
  simp only [mem_planMotionTriggers, finishWindow_some_eq_some_iff]

end Bursts

end CctvMemory.Worker.Motion
