import CctvMemory.Worker.MotionPlan

/-!
# Where the trigger windows lie

`plan_motion_triggers` joins runs across small gaps first and stretches short
windows to the least duration afterwards, so a stretched window may reach into
the gap in front of the next one, or into the next one itself. The other parts of
what a plan promises hold of every one.
-/

namespace CctvMemory.Worker.Motion

open Spans

section

variable (cfg : TriggerParams) (samples : List MotionSample) (durationMs : Option ℕ)

/-- What the windows of a video are for: one after the other with more than the
gap between them, inside the video, long enough, and over all the motion. -/
structure WellPlaced (windows : List TriggerWindow) : Prop where
  separated : windows.Pairwise fun v w => v.endMs + cfg.mergeGapMs < w.startMs
  inside : ∀ w ∈ windows, w.startMs ≤ w.endMs ∧ ∀ duration ∈ durationMs, w.endMs ≤ duration
  long : ∀ w ∈ windows,
    w.startMs + cfg.minDurationMs ≤ w.endMs ∨ durationMs = some w.endMs
  covers : ∀ s ∈ samples, cfg.threshold ≤ s.score →
    (∀ duration ∈ durationMs, s.timestampMs < duration) →
      ∃ w ∈ windows, w.startMs ≤ s.timestampMs ∧ s.timestampMs ≤ w.endMs

/-- A sample at or above the threshold that opens a trigger: no motion before it
lasts until `merge_gap_ms` before it or longer. -/
def OpensTrigger (s : Span ℚ) : Prop :=
  Opens cfg.mergeGapMs (hotSpans cfg (sampleEnd (inOrder samples)) (inOrder samples)) s

/-- The triggers open so far apart that the least duration fits between them. -/
def Roomy : Prop :=
  ∀ s t, OpensTrigger cfg samples s → OpensTrigger cfg samples t → s.start < t.start →
    (∀ duration ∈ durationMs, t.start < duration) →
      s.start + cfg.minDurationMs + cfg.mergeGapMs < t.start

/-- The end of a window, cut to the video. -/
def cutTo (endMs : ℕ) : ℕ := durationMs.elim endMs (min endMs)

end

section

variable {cfg : TriggerParams} {samples : List MotionSample} {durationMs : Option ℕ}

theorem le_cutTo_iff {endMs n : ℕ} :
    n ≤ cutTo durationMs endMs ↔ n ≤ endMs ∧ ∀ duration ∈ durationMs, n ≤ duration := by
  cases durationMs with
  | none => simp [cutTo]
  | some duration => simp [cutTo]

theorem cutTo_le_of_mem {endMs duration : ℕ} (h : duration ∈ durationMs) :
    cutTo durationMs endMs ≤ duration := by
  obtain rfl := Option.mem_def.mp h
  exact Nat.min_le_right _ _

theorem cutTo_eq_or (durationMs : Option ℕ) (endMs : ℕ) :
    cutTo durationMs endMs = endMs ∨ durationMs = some (cutTo durationMs endMs) := by
  cases durationMs with
  | none => exact .inl rfl
  | some duration =>
      rcases Nat.le_total endMs duration with hle | hle
      · exact .inl (Nat.min_eq_left hle)
      · exact .inr (congrArg some (Nat.min_eq_right hle).symm)

/-- A time inside the video lies behind the cut end as it lies behind the end. -/
theorem cutTo_add_lt_iff {endMs gap n : ℕ} (hn : ∀ duration ∈ durationMs, n < duration) :
    cutTo durationMs endMs + gap < n ↔ endMs + gap < n := by
  cases durationMs with
  | none => exact Iff.rfl
  | some duration =>
      have hlt := hn duration rfl
      change min endMs duration + gap < n ↔ _
      omega

theorem finishWindow_eq_some_iff {b : Span ℚ} {w : TriggerWindow} :
    finishWindow cfg durationMs b = some w ↔
      (∀ duration ∈ durationMs, b.start < duration) ∧
        w = { startMs := b.start, endMs := cutTo durationMs (reach cfg b), peakScore := b.peak } := by
  cases durationMs with
  | none =>
      unfold finishWindow
      rw [← reach_eq_ite, Option.some.injEq]
      constructor
      · rintro rfl
        exact ⟨fun _ h => (Option.not_mem_none _ h).elim, rfl⟩
      · rintro ⟨-, rfl⟩
        rfl
  | some duration =>
      rw [finishWindow_some_eq_some_iff]
      constructor
      · rintro ⟨hlt, hw⟩
        exact ⟨fun d hd => Option.some.inj hd ▸ hlt, hw⟩
      · rintro ⟨hlt, hw⟩
        exact ⟨hlt duration rfl, hw⟩

/-- The windows are the bursts, clamped, in their order. -/
theorem planMotionTriggers_eq :
    planMotionTriggers cfg samples durationMs
      = (bursts cfg samples).filterMap (finishWindow cfg durationMs) := by
  unfold planMotionTriggers
  by_cases h : samples = []
  · subst h
    rfl
  · rw [if_neg h, coalesce_rawRuns]

theorem opensTrigger_iff {n : ℕ} :
    (∃ b ∈ bursts cfg samples, b.start = n) ↔ ∃ s, OpensTrigger cfg samples s ∧ s.start = n :=
  exists_hull_start_iff (ordered_hotSpans (pairwise_inOrder samples) ends_inOrder)

theorem pairwise_bursts :
    (bursts cfg samples).Pairwise fun b b' => b.stop + cfg.mergeGapMs < b'.start :=
  pairwise_hulls (ordered_hotSpans (pairwise_inOrder samples) ends_inOrder)

theorem start_le_stop {b : Span ℚ} (hb : b ∈ bursts cfg samples) : b.start ≤ b.stop :=
  proper_hulls (ordered_hotSpans (pairwise_inOrder samples) ends_inOrder) hb

/-- Bursts whose ends lie apart have windows apart when the earlier one, stretched
to the least duration, does not reach the later one. -/
theorem reach_add_lt_iff {b : Span ℚ} {n : ℕ} (h : b.stop + cfg.mergeGapMs < n) :
    reach cfg b + cfg.mergeGapMs < n ↔
      b.start + cfg.minDurationMs + cfg.mergeGapMs < n := by
  unfold reach
  omega

/-- The windows lie apart just when every two bursts in the video leave room. -/
theorem separated_iff :
    ((planMotionTriggers cfg samples durationMs).Pairwise fun v w =>
        v.endMs + cfg.mergeGapMs < w.startMs) ↔
      (bursts cfg samples).Pairwise fun b b' =>
        (∀ duration ∈ durationMs, b'.start < duration) →
          b.start + cfg.minDurationMs + cfg.mergeGapMs < b'.start := by
  rw [planMotionTriggers_eq, List.pairwise_filterMap]
  constructor
  · intro h
    refine (h.and pairwise_bursts).imp_of_mem ?_
    rintro b b' hb - ⟨hwindows, hstops⟩ hb'
    -- a burst before one in the video is in the video, so both have windows
    have hlt : ∀ duration ∈ durationMs, b.start < duration := by
      intro duration hd
      have hproper := start_le_stop hb
      have hin := hb' duration hd
      omega
    have hsep := hwindows _ (finishWindow_eq_some_iff.mpr ⟨hlt, rfl⟩) _
      (finishWindow_eq_some_iff.mpr ⟨hb', rfl⟩)
    exact (reach_add_lt_iff hstops).mp ((cutTo_add_lt_iff hb').mp hsep)
  · intro h
    refine (h.and pairwise_bursts).imp ?_
    rintro b b' ⟨hroom, hstops⟩ v hv w hw
    obtain ⟨-, rfl⟩ := finishWindow_eq_some_iff.mp hv
    obtain ⟨hb', rfl⟩ := finishWindow_eq_some_iff.mp hw
    exact (cutTo_add_lt_iff hb').mpr ((reach_add_lt_iff hstops).mpr (hroom hb'))

/-- Room between the bursts is room between the samples that open them. -/
theorem roomy_iff :
    Roomy cfg samples durationMs ↔
      (bursts cfg samples).Pairwise fun b b' =>
        (∀ duration ∈ durationMs, b'.start < duration) →
          b.start + cfg.minDurationMs + cfg.mergeGapMs < b'.start := by
  have hordered := @ordered_hotSpans cfg _ _ (pairwise_inOrder samples) ends_inOrder
  constructor
  · intro h
    refine pairwise_bursts.imp_of_mem ?_
    intro b b' hb hb' hstops hin
    obtain ⟨s, hs, hsb⟩ := opensTrigger_iff.mp ⟨b, hb, rfl⟩
    obtain ⟨t, ht, htb⟩ := opensTrigger_iff.mp ⟨b', hb', rfl⟩
    have hproper := start_le_stop hb
    rw [← hsb, ← htb]
    exact h s t hs ht (by omega) (fun d hd => htb ▸ hin d hd)
  · intro h s t hs ht hlt hin
    obtain ⟨b, hb, hsb⟩ := opensTrigger_iff.mpr ⟨s, hs, rfl⟩
    obtain ⟨b', hb', htb⟩ := opensTrigger_iff.mpr ⟨t, ht, rfl⟩
    rw [← hsb, ← htb] at hlt ⊢
    obtain ⟨i, hi, rfl⟩ := List.getElem_of_mem hb
    obtain ⟨j, hj, rfl⟩ := List.getElem_of_mem hb'
    -- the bursts are in order, so the one that starts first comes first
    rcases Nat.lt_trichotomy i j with hij | rfl | hji
    · exact List.pairwise_iff_getElem.mp h i j hi hj hij (fun d hd => htb ▸ hin d hd)
    · exact absurd hlt (Nat.lt_irrefl _)
    · have hback := List.pairwise_iff_getElem.mp (@pairwise_bursts cfg _) j i hj hi hji
      have hproper := start_le_stop hb'
      omega

theorem planMotionTriggers_covers {s : MotionSample} (hs : s ∈ samples)
    (hhot : cfg.threshold ≤ s.score) (hin : ∀ duration ∈ durationMs, s.timestampMs < duration) :
    ∃ w ∈ planMotionTriggers cfg samples durationMs,
      w.startMs ≤ s.timestampMs ∧ s.timestampMs ≤ w.endMs := by
  obtain ⟨b, hb, hstart, hstop⟩ := exists_burst hs hhot
  refine ⟨_, mem_planMotionTriggers.mpr ⟨b, hb, finishWindow_eq_some_iff.mpr
    ⟨fun d hd => Nat.lt_of_le_of_lt hstart (hin d hd), rfl⟩⟩, hstart, ?_⟩
  have hreach : b.stop ≤ reach cfg b := Nat.le_max_left _ _
  exact le_cutTo_iff.mpr ⟨hstop.trans hreach, fun d hd => (hin d hd).le⟩

theorem planMotionTriggers_inside {w : TriggerWindow}
    (hw : w ∈ planMotionTriggers cfg samples durationMs) :
    w.startMs ≤ w.endMs ∧ ∀ duration ∈ durationMs, w.endMs ≤ duration := by
  obtain ⟨b, -, hfinish⟩ := mem_planMotionTriggers.mp hw
  obtain ⟨hin, rfl⟩ := finishWindow_eq_some_iff.mp hfinish
  exact ⟨le_cutTo_iff.mpr ⟨(start_lt_reach cfg b).le, fun d hd => (hin d hd).le⟩,
    fun d hd => cutTo_le_of_mem hd⟩

theorem planMotionTriggers_long {w : TriggerWindow}
    (hw : w ∈ planMotionTriggers cfg samples durationMs) :
    w.startMs + cfg.minDurationMs ≤ w.endMs ∨ durationMs = some w.endMs := by
  obtain ⟨b, -, hfinish⟩ := mem_planMotionTriggers.mp hw
  obtain ⟨-, rfl⟩ := finishWindow_eq_some_iff.mp hfinish
  have hreach : b.start + cfg.minDurationMs ≤ reach cfg b := Nat.le_max_right _ _
  rcases cutTo_eq_or durationMs (reach cfg b) with heq | hcut
  · left
    change _ ≤ cutTo durationMs (reach cfg b)
    rw [heq]
    exact hreach
  · exact .inr hcut

end

/-- Every plan of windows is well placed but for the room between them, and that
is there just when the samples leave it. -/
theorem wellPlaced_iff_roomy (cfg : TriggerParams) (samples : List MotionSample)
    (durationMs : Option ℕ) :
    WellPlaced cfg samples durationMs (planMotionTriggers cfg samples durationMs) ↔
      Roomy cfg samples durationMs := by
  rw [roomy_iff, ← separated_iff]
  constructor
  · intro h
    exact h.separated
  · intro h
    exact ⟨h, fun w hw => planMotionTriggers_inside hw, fun w hw => planMotionTriggers_long hw,
      fun s hs hhot hin => planMotionTriggers_covers hs hhot hin⟩

/-- Two blips 200 ms apart, of which each is stretched to a second. -/
theorem planMotionTriggers_blips_overlap :
    ¬ WellPlaced ⟨1 / 2, 1000, 0, by decide⟩ [⟨0, 1⟩, ⟨100, 0⟩, ⟨200, 1⟩, ⟨300, 0⟩] (some 5000)
      (planMotionTriggers ⟨1 / 2, 1000, 0, by decide⟩
        [⟨0, 1⟩, ⟨100, 0⟩, ⟨200, 1⟩, ⟨300, 0⟩] (some 5000)) := by
  intro h
  have hsep := h.separated
  revert hsep
  decide +kernel

end CctvMemory.Worker.Motion
