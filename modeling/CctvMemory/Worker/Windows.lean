import CctvMemory.Library.Cover
import CctvMemory.Worker.Plan
import Mathlib.Algebra.Order.Floor.Ring
import Mathlib.Data.Rat.Floor

/-!
# What the window planners cover

`plan_default_segments` and `plan_high_freq_windows` step through a span with
one loop. `WindowLoop` is that loop as it is written, without a bound on its
rounds, so that a derivation of it is a run that ends.

* `planDefaultSegments_tiles`: the default windows tile the video.
* `HighFreq.planHighFreqWindows_coversSpan`: the high-frequency windows cover the clamped
  trigger but for a last piece too short for a window.
-/

namespace CctvMemory.Worker

open Cover

/-! ## The loop -/

/-- `while start < stop`: what the loop appends from `start` on. -/
inductive WindowLoop (stop windowMs stepMs : ℤ) (keep : SegmentWindow → Bool) :
    ℤ → List SegmentWindow → Prop where
  | over {start : ℤ} (hover : stop ≤ start) : WindowLoop stop windowMs stepMs keep start []
  | last {start : ℤ} (hmore : start < stop) (hend : stop ≤ min (start + windowMs) stop) :
      WindowLoop stop windowMs stepMs keep start
        ([⟨start, min (start + windowMs) stop⟩].filter keep)
  | next {start : ℤ} {rest : List SegmentWindow} (hmore : start < stop)
      (hend : ¬ stop ≤ min (start + windowMs) stop)
      (hrest : WindowLoop stop windowMs stepMs keep (start + stepMs) rest) :
      WindowLoop stop windowMs stepMs keep start
        ([⟨start, min (start + windowMs) stop⟩].filter keep ++ rest)

/-- The loop of `plan_high_freq_windows`; `fuel` bounds the number of rounds. -/
def highFreqLoop (stop windowMs stepMs minWindowMs : ℤ) : ℕ → ℤ → List SegmentWindow
  | 0, _ => []
  | fuel + 1, start =>
      if start < stop then
        let stopAt := min (start + windowMs) stop
        let kept : List SegmentWindow :=
          if minWindowMs ≤ stopAt - start then [⟨start, stopAt⟩] else []
        if stop ≤ stopAt then kept
        else kept ++ highFreqLoop stop windowMs stepMs minWindowMs fuel (start + stepMs)
      else []

/-- `end - start >= min_window_ms`. -/
def longEnough (minWindowMs : ℤ) (w : SegmentWindow) : Bool :=
  decide (minWindowMs ≤ w.endMs - w.startMs)

section Loop

variable {stop windowMs stepMs minWindowMs : ℤ}

theorem highFreqLoop_eq_filter (fuel : ℕ) (start : ℤ) :
    highFreqLoop stop windowMs stepMs minWindowMs fuel start
      = (segmentLoop stop windowMs stepMs fuel start).filter (longEnough minWindowMs) := by
  induction fuel generalizing start with
  | zero => rfl
  | succ fuel ih =>
      unfold highFreqLoop segmentLoop
      by_cases hmore : start < stop
      · rw [if_pos hmore, if_pos hmore]
        by_cases hend : stop ≤ min (start + windowMs) stop
        · rw [if_pos hend, if_pos hend, List.filter_singleton]
          by_cases hlong : minWindowMs ≤ min (start + windowMs) stop - start
          · simp [longEnough, hlong]
          · simp [longEnough, hlong]
        · rw [if_neg hend, if_neg hend, ih, List.filter_cons]
          by_cases hlong : minWindowMs ≤ min (start + windowMs) stop - start
          · simp [longEnough, hlong]
          · simp [longEnough, hlong]
      · rw [if_neg hmore, if_neg hmore]
        rfl

/-- The fuel of the planners is enough: the loop ends with what they plan. -/
theorem segmentLoop_loops (keep : SegmentWindow → Bool) (hstep : 0 < stepMs) {fuel : ℕ}
    {start : ℤ} (hfuel : (stop - start).toNat ≤ fuel) :
    WindowLoop stop windowMs stepMs keep start
      ((segmentLoop stop windowMs stepMs fuel start).filter keep) := by
  induction fuel generalizing start with
  | zero => exact .over (by omega)
  | succ fuel ih =>
      unfold segmentLoop
      by_cases hmore : start < stop
      · rw [if_pos hmore]
        by_cases hend : stop ≤ min (start + windowMs) stop
        · rw [if_pos hend]
          exact .last hmore hend
        · rw [if_neg hend]
          have hrest := @ih (start + stepMs) (by omega)
          have hnext := WindowLoop.next hmore hend hrest
          rwa [← List.filter_append, List.singleton_append] at hnext
      · rw [if_neg hmore]
        exact .over (not_lt.mp hmore)

/-- What a loop that keeps every window appends from `start` on. -/
structure Stepped (stop windowMs stepMs start : ℤ) (ws : List SegmentWindow) : Prop where
  head : ∀ w ∈ ws.head?, w.startMs = start
  last : ∀ w ∈ ws.getLast?, w.endMs = stop
  cut : ∀ w ∈ ws, start ≤ w.startMs ∧ w.startMs < w.endMs ∧
    w.endMs = min (w.startMs + windowMs) stop
  next : ws.IsChain fun v w => w.startMs = v.startMs + stepMs ∧ v.endMs = v.startMs + windowMs ∧
    v.endMs < stop

theorem stepped_segmentLoop (hwindow : 0 < windowMs) (hstep : 0 < stepMs)
    (hle : stepMs ≤ windowMs) {fuel : ℕ} {start : ℤ} (hmore : start < stop)
    (hfuel : (stop - start).toNat ≤ fuel) :
    segmentLoop stop windowMs stepMs fuel start ≠ [] ∧
      Stepped stop windowMs stepMs start (segmentLoop stop windowMs stepMs fuel start) := by
  induction fuel generalizing start with
  | zero => omega
  | succ fuel ih =>
      unfold segmentLoop
      rw [if_pos hmore]
      by_cases hend : stop ≤ min (start + windowMs) stop
      · rw [if_pos hend]
        refine ⟨List.cons_ne_nil _ _, ?_, ?_, ?_, List.isChain_singleton _⟩
        · rintro w ⟨⟩
          rfl
        · rintro w ⟨⟩
          exact le_antisymm (min_le_right _ _) hend
        · intro w hw
          rw [List.mem_singleton.mp hw]
          exact ⟨le_refl _, by dsimp only; omega, rfl⟩
      · rw [if_neg hend]
        obtain ⟨hne, hrest⟩ := @ih (start + stepMs) (by omega) (by omega)
        refine ⟨List.cons_ne_nil _ _, ?_, ?_, ?_, ?_⟩
        · rintro w ⟨⟩
          rfl
        · intro w hw
          rw [List.getLast?_cons_of_ne_nil hne] at hw
          exact hrest.last w hw
        · intro w hw
          rcases List.mem_cons.mp hw with rfl | hw
          · exact ⟨le_refl _, by dsimp only; omega, rfl⟩
          · obtain ⟨hstart, hlt, heq⟩ := hrest.cut w hw
            exact ⟨by omega, hlt, heq⟩
        · rw [List.isChain_cons]
          refine ⟨fun w hw => ⟨hrest.head w hw, ?_, ?_⟩, hrest.next⟩
          · dsimp only
            omega
          · dsimp only
            omega

namespace Stepped

variable {start : ℤ} {ws : List SegmentWindow}

theorem increasing (h : Stepped stop windowMs stepMs start ws) (hstep : 0 < stepMs) :
    ws.Pairwise fun v w => v.startMs < w.startMs ∧ v.endMs < w.endMs := by
  have htrans : IsTrans SegmentWindow fun v w => v.startMs < w.startMs ∧ v.endMs < w.endMs :=
    ⟨fun _ _ _ huv hvw => ⟨huv.1.trans hvw.1, huv.2.trans hvw.2⟩⟩
  refine List.isChain_iff_pairwise.mp (h.next.imp_of_mem_imp fun v w _ hw hvw => ?_)
  have hcut := (h.cut w hw).2.2
  omega

theorem linked (h : Stepped stop windowMs stepMs start ws) (hle : stepMs ≤ windowMs) :
    ws.IsChain fun v w => w.startMs ≤ v.endMs := by
  refine h.next.imp fun v w hvw => ?_
  omega

theorem covered (h : Stepped stop windowMs stepMs start ws) (hne : ws ≠ [])
    (hle : stepMs ≤ windowMs) {t : ℤ} (hstart : start ≤ t) (hstop : t < stop) :
    Covered SegmentWindow.startMs SegmentWindow.endMs ws t := by
  obtain ⟨w, rest, rfl⟩ := List.exists_cons_of_ne_nil hne
  apply covered_of_chain (h.linked hle)
  · exact (h.head w rfl).trans_le hstart
  · rwa [h.last _ (List.getLast?_eq_some_getLast hne)]

/-- All but the last window are of full length. -/
theorem full (h : Stepped stop windowMs stepMs start ws) {front : List SegmentWindow}
    {w : SegmentWindow} (hws : ws = front ++ [w]) :
    ∀ v ∈ front, v.endMs - v.startMs = windowMs := by
  subst hws
  intro v hv
  obtain ⟨before, after, rfl⟩ := List.append_of_mem hv
  have hnext := h.next
  rw [List.append_assoc] at hnext
  have hchain := hnext.right_of_append
  cases after with
  | nil =>
      have := (List.isChain_cons_cons.mp hchain).1
      omega
  | cons u after =>
      have := (List.isChain_cons_cons.mp hchain).1
      omega

end Stepped

end Loop

/-! ## The default windows -/

/-- The windows tile `[0, duration)`, each starting the overlap before the last
one's end. -/
structure TilesVideo (durationMs windowMs overlapMs : ℤ) (ws : List SegmentWindow) : Prop where
  covered : ∀ t, 0 ≤ t → t < durationMs →
    Covered SegmentWindow.startMs SegmentWindow.endMs ws t
  inside : ∀ w ∈ ws, 0 ≤ w.startMs ∧ w.endMs ≤ durationMs
  length : ∀ w ∈ ws, w.startMs < w.endMs ∧ w.endMs ≤ w.startMs + windowMs
  overlap : ws.IsChain fun v w => v.endMs - w.startMs = overlapMs
  increasing : ws.Pairwise fun v w => v.startMs < w.startMs ∧ v.endMs < w.endMs
  last : ws.getLast?.map SegmentWindow.endMs = some durationMs
  notContained : ∀ v ∈ ws, ∀ w ∈ ws, v.startMs ≤ w.startMs → w.endMs ≤ v.endMs → v = w

theorem tilesVideo_of_stepped {durationMs windowMs stepMs : ℤ} {ws : List SegmentWindow}
    (h : Stepped durationMs windowMs stepMs 0 ws) (hne : ws ≠ []) (hstep : 0 < stepMs)
    (hle : stepMs ≤ windowMs) : TilesVideo durationMs windowMs (windowMs - stepMs) ws where
  covered t := h.covered hne hle
  inside w hw := by
    obtain ⟨hstart, -, hend⟩ := h.cut w hw
    omega
  length w hw := by
    obtain ⟨-, hlt, hend⟩ := h.cut w hw
    omega
  overlap := h.next.imp fun v w hvw => by omega
  increasing := h.increasing hstep
  last := by
    have hlast := List.getLast?_eq_some_getLast hne
    rw [hlast, Option.map_some, h.last _ hlast]
  notContained v hv w hw hstart hend := by
    have hcutv := (h.cut v hv).2.2
    have hcutw := (h.cut w hw).2.2
    -- the later of two windows ends later
    rcases lt_trichotomy v.startMs w.startMs with hlt | heq | hgt
    · have hpair := h.increasing hstep
      obtain ⟨i, hi, rfl⟩ := List.mem_iff_getElem.mp hv
      obtain ⟨j, hj, rfl⟩ := List.mem_iff_getElem.mp hw
      rw [List.pairwise_iff_getElem] at hpair
      rcases lt_trichotomy i j with hij | rfl | hji
      · have := hpair i j hi hj hij
        omega
      · rfl
      · have := hpair j i hj hi hji
        omega
    · have hends : v.endMs = w.endMs := by rw [hcutv, hcutw, heq]
      cases v
      cases w
      simp only [SegmentWindow.mk.injEq]
      exact ⟨heq, hends⟩
    · omega

/-- For every video, window and overlap: the loop ends, and its windows tile the
video. -/
theorem planDefaultSegments_tiles {durationMs windowSeconds overlapSeconds : ℤ}
    (hduration : 0 < durationMs) (hwindow : 0 < windowSeconds) (hoverlap : 0 ≤ overlapSeconds)
    (hlt : overlapSeconds < windowSeconds) :
    ∃ ws, planDefaultSegments durationMs windowSeconds overlapSeconds = .ok ws ∧
      WindowLoop durationMs (windowSeconds * 1000)
        (windowSeconds * 1000 - overlapSeconds * 1000) (fun _ => true) 0 ws ∧
      TilesVideo durationMs (windowSeconds * 1000) (overlapSeconds * 1000) ws := by
  have hwindowMs : 0 < windowSeconds * 1000 := by omega
  have hstep : 0 < windowSeconds * 1000 - overlapSeconds * 1000 := by omega
  have hle : windowSeconds * 1000 - overlapSeconds * 1000 ≤ windowSeconds * 1000 := by omega
  have hfuel : (durationMs - 0).toNat ≤ durationMs.toNat := by omega
  refine ⟨segmentLoop durationMs (windowSeconds * 1000)
    (windowSeconds * 1000 - overlapSeconds * 1000) durationMs.toNat 0, ?_, ?_, ?_⟩
  · unfold planDefaultSegments
    rw [if_neg (not_le.mpr hduration)]
    dsimp only
    rw [if_neg (not_le.mpr hwindowMs), if_neg (not_le.mpr hstep)]
  · have hloop := @segmentLoop_loops durationMs (windowSeconds * 1000) _ (fun _ => true) hstep
      _ _ hfuel
    rwa [List.filter_true] at hloop
  · obtain ⟨hne, hstepped⟩ := stepped_segmentLoop hwindowMs hstep hle hduration hfuel
    have htiles := tilesVideo_of_stepped hstepped hne hstep hle
    rwa [sub_sub_cancel] at htiles

/-- 25 s in windows of 12 s that overlap by 3 s. -/
theorem planDefaultSegments_tiles_clip : ∃ ws, planDefaultSegments 25000 12 3 = .ok ws ∧
    WindowLoop 25000 (12 * 1000) (12 * 1000 - 3 * 1000) (fun _ => true) 0 ws ∧
    TilesVideo 25000 (12 * 1000) (3 * 1000) ws :=
  planDefaultSegments_tiles (by decide) (by decide) (by decide) (by decide)

/-! ## The high-frequency windows -/

namespace HighFreq

/-- `max(1, int(window_ms * (1.0 - overlap_ratio)))`, of an exact ratio; the
product is not negative. -/
def stepMs (windowMs : ℤ) (overlapRatio : ℚ) : ℤ := max 1 ⌊(windowMs : ℚ) * (1 - overlapRatio)⌋

/-- The end of the trigger in a video of this duration. -/
def clampedEnd (triggerEndMs : ℤ) : Option ℤ → ℤ
  | none => triggerEndMs
  | some d => min triggerEndMs d

/-- `plan_high_freq_windows`, with all of its arguments. -/
def planHighFreqWindows (triggerStartMs triggerEndMs windowSeconds : ℤ) (overlapRatio : ℚ)
    (durationMs : Option ℤ) (minWindowMs : ℤ) : Except Exn (List SegmentWindow) :=
  let endBound := clampedEnd triggerEndMs durationMs
  if (durationMs.any fun d => decide (d ≤ triggerStartMs)) = true then .ok []
  else if endBound ≤ triggerStartMs then .ok []
  else
    let windowMs := windowSeconds * 1000
    if windowMs ≤ 0 then .error (valueError "window_seconds must be positive")
    else if ¬ (0 ≤ overlapRatio ∧ overlapRatio < 1) then
      .error (valueError "overlap_ratio must be in [0, 1)")
    else
      let span := endBound - triggerStartMs
      if span ≤ windowMs then
        if span < minWindowMs then .ok [] else .ok [⟨triggerStartMs, endBound⟩]
      else .ok (highFreqLoop endBound windowMs (stepMs windowMs overlapRatio) minWindowMs
        span.toNat triggerStartMs)

theorem stepMs_pos (windowMs : ℤ) (overlapRatio : ℚ) : 0 < stepMs windowMs overlapRatio :=
  lt_of_lt_of_le Int.one_pos (le_max_left _ _)

theorem stepMs_le {windowMs : ℤ} (hwindow : 0 < windowMs) {overlapRatio : ℚ}
    (hratio : 0 ≤ overlapRatio) : stepMs windowMs overlapRatio ≤ windowMs := by
  refine max_le hwindow (Int.floor_le_iff.mpr ?_)
  have hpos : (0 : ℚ) ≤ (windowMs : ℚ) * overlapRatio :=
    mul_nonneg (by exact_mod_cast hwindow.le) hratio
  rw [mul_sub, mul_one]
  linarith

theorem longEnough_segmentLoop {stop windowMs step start : ℤ} (hwindow : 0 < windowMs)
    {fuel : ℕ} {w : SegmentWindow} (h : w ∈ segmentLoop stop windowMs step fuel start) :
    longEnough 1 w = true := by
  induction fuel generalizing start with
  | zero => cases h
  | succ fuel ih =>
      unfold segmentLoop at h
      split at h
      · dsimp only at h
        split at h
        · rw [List.mem_singleton.mp h]
          exact decide_eq_true (by dsimp only; omega)
        · rcases List.mem_cons.mp h with rfl | h
          · exact decide_eq_true (by dsimp only; omega)
          · exact ih h
      · cases h

/-- The planner as `plan_units` calls it, with the least `min_window_ms`. -/
theorem planHighFreqWindows_one (triggerStartMs triggerEndMs windowSeconds : ℤ)
    (overlapRatio : ℚ) (durationMs : Option ℤ) :
    planHighFreqWindows triggerStartMs triggerEndMs windowSeconds overlapRatio durationMs 1
      = Worker.planHighFreqWindows triggerStartMs triggerEndMs windowSeconds
          (if 0 ≤ overlapRatio ∧ overlapRatio < 1 then
            some ⌊((windowSeconds * 1000 : ℤ) : ℚ) * (1 - overlapRatio)⌋ else none)
          durationMs := by
  have hplanner : Worker.planHighFreqWindows triggerStartMs triggerEndMs windowSeconds
      (if 0 ≤ overlapRatio ∧ overlapRatio < 1 then
        some ⌊((windowSeconds * 1000 : ℤ) : ℚ) * (1 - overlapRatio)⌋ else none) durationMs
      = if (durationMs.any fun d => decide (d ≤ triggerStartMs)) = true then .ok []
        else if clampedEnd triggerEndMs durationMs ≤ triggerStartMs then .ok []
        else if windowSeconds * 1000 ≤ 0 then
          .error (valueError "window_seconds must be positive")
        else match (if 0 ≤ overlapRatio ∧ overlapRatio < 1 then
            some ⌊((windowSeconds * 1000 : ℤ) : ℚ) * (1 - overlapRatio)⌋ else none) with
          | none => .error (valueError "overlap_ratio must be in [0, 1)")
          | some step =>
              if clampedEnd triggerEndMs durationMs - triggerStartMs ≤ windowSeconds * 1000 then
                .ok [⟨triggerStartMs, clampedEnd triggerEndMs durationMs⟩]
              else .ok (segmentLoop (clampedEnd triggerEndMs durationMs) (windowSeconds * 1000)
                (max 1 step) (clampedEnd triggerEndMs durationMs - triggerStartMs).toNat
                triggerStartMs) := rfl
  rw [hplanner]
  unfold planHighFreqWindows
  dsimp only
  generalize clampedEnd triggerEndMs durationMs = endBound
  refine ite_congr rfl (fun _ => rfl) fun _ => ite_congr rfl (fun _ => rfl) fun hspan =>
    ite_congr rfl (fun _ => rfl) fun hwindow => ?_
  by_cases hratio : 0 ≤ overlapRatio ∧ overlapRatio < 1
  · rw [if_neg (not_not.mpr hratio), if_pos hratio]
    refine ite_congr rfl (fun _ => if_neg (by omega)) fun _ => ?_
    rw [highFreqLoop_eq_filter, List.filter_eq_self.mpr fun w hw =>
      longEnough_segmentLoop (not_le.mp hwindow) hw]
    rfl
  · rw [if_pos hratio, if_neg hratio]

/-- The windows cover `[lo, hi)` but for a last piece shorter than the least
window. -/
structure CoversSpan (lo hi windowMs minWindowMs : ℤ) (ws : List SegmentWindow) : Prop where
  inside : ∀ w ∈ ws, lo ≤ w.startMs ∧ w.endMs ≤ hi
  length : ∀ w ∈ ws, minWindowMs ≤ w.endMs - w.startMs ∧ w.endMs - w.startMs ≤ windowMs
  increasing : ws.Pairwise fun v w => v.startMs < w.startMs
  linked : ws.IsChain fun v w => w.startMs ≤ v.endMs
  covered : ∃ c ≤ hi, hi - c < minWindowMs ∧
    ∀ t, lo ≤ t → t < c → Covered SegmentWindow.startMs SegmentWindow.endMs ws t

theorem coversSpan_nil {lo hi windowMs minWindowMs : ℤ} (hmin : 0 < minWindowMs)
    (hspan : hi - lo < minWindowMs) : CoversSpan lo hi windowMs minWindowMs [] where
  inside w hw := by cases hw
  length w hw := by cases hw
  increasing := List.Pairwise.nil
  linked := List.isChain_nil
  covered := ⟨min lo hi, min_le_right _ _, by omega, fun t ht hlt => by omega⟩

theorem coversSpan_singleton {lo hi windowMs minWindowMs : ℤ} (hmin : 0 < minWindowMs)
    (hlong : minWindowMs ≤ hi - lo) (hshort : hi - lo ≤ windowMs) :
    CoversSpan lo hi windowMs minWindowMs [⟨lo, hi⟩] where
  inside w hw := by
    rw [List.mem_singleton.mp hw]
    exact ⟨le_refl _, le_refl _⟩
  length w hw := by
    rw [List.mem_singleton.mp hw]
    exact ⟨hlong, hshort⟩
  increasing := List.pairwise_singleton _ _
  linked := List.isChain_singleton _
  covered := ⟨hi, le_refl _, by omega, fun t hlo hhi =>
    ⟨⟨lo, hi⟩, List.mem_singleton_self _, hlo, hhi⟩⟩

/-- Of the windows of a loop that keeps all, at most the last is too short. -/
theorem coversSpan_filter {lo hi windowMs minWindowMs step : ℤ} {ws : List SegmentWindow}
    (h : Stepped hi windowMs step lo ws) (hne : ws ≠ []) (hstep : 0 < step)
    (hle : step ≤ windowMs) (hmin : 0 < minWindowMs) (hminle : minWindowMs ≤ windowMs) :
    CoversSpan lo hi windowMs minWindowMs (ws.filter (longEnough minWindowMs)) := by
  obtain ⟨front, w, hws⟩ : ∃ front w, ws = front ++ [w] :=
    ⟨ws.dropLast, ws.getLast hne, (List.dropLast_append_getLast hne).symm⟩
  have hlast : w.endMs = hi := h.last w (by rw [hws, List.getLast?_concat]; rfl)
  have hfront : front.filter (longEnough minWindowMs) = front := by
    rw [List.filter_eq_self]
    intro v hv
    exact decide_eq_true (by rw [h.full hws v hv]; exact hminle)
  have hfilter : ws.filter (longEnough minWindowMs)
      = front ++ [w].filter (longEnough minWindowMs) := by
    rw [hws, List.filter_append, hfront]
  have hsub : (ws.filter (longEnough minWindowMs)).Sublist ws := List.filter_sublist
  refine ⟨fun v hv => ?_, fun v hv => ?_, ?_, ?_, ?_⟩
  · obtain ⟨hstart, -, hend⟩ := h.cut v (hsub.subset hv)
    omega
  · have hlong := of_decide_eq_true (List.mem_filter.mp hv).2
    have hend := (h.cut v (hsub.subset hv)).2.2
    omega
  · exact ((h.increasing hstep).sublist hsub).imp And.left
  · have hlinked := h.linked hle
    rw [hws] at hlinked
    rw [hfilter]
    by_cases hlong : longEnough minWindowMs w = true
    · rwa [List.filter_singleton, hlong]
    · rw [List.filter_singleton, eq_false_of_ne_true hlong]
      simpa using hlinked.left_of_append
  · by_cases hlong : longEnough minWindowMs w = true
    · refine ⟨hi, le_refl _, by omega, fun t hlo hhi => ?_⟩
      rw [hfilter, List.filter_singleton, hlong]
      have hcovered := h.covered hne hle hlo hhi
      rwa [hws] at hcovered
    · -- the last window is dropped: it reaches from its start to the end
      have hshort : ¬ minWindowMs ≤ w.endMs - w.startMs := fun hge => hlong (decide_eq_true hge)
      have hcut := h.cut w (by rw [hws]; exact List.mem_append_right _ List.mem_cons_self)
      refine ⟨w.startMs, by omega, by omega, fun t hlo hlt => ?_⟩
      have hcovered := h.covered hne hle hlo (by omega)
      rw [hws] at hcovered
      have hdropped := covered_of_concat hcovered hlt
      rw [hfilter]
      obtain ⟨v, hv, hin⟩ := hdropped
      exact ⟨v, List.mem_append_left _ hv, hin⟩

/-- For every trigger, duration, window, ratio and least window: the loop ends, and
its windows cover the clamped trigger. A trigger no longer than a window needs no
loop. -/
theorem planHighFreqWindows_coversSpan (triggerStartMs triggerEndMs : ℤ)
    (durationMs : Option ℤ) {windowSeconds minWindowMs : ℤ} {overlapRatio : ℚ}
    (hwindow : 0 < windowSeconds) (hratio : 0 ≤ overlapRatio ∧ overlapRatio < 1)
    (hmin : 1 ≤ minWindowMs) (hminle : minWindowMs ≤ windowSeconds * 1000) :
    ∃ ws, planHighFreqWindows triggerStartMs triggerEndMs windowSeconds overlapRatio durationMs
        minWindowMs = .ok ws ∧
      (windowSeconds * 1000 < clampedEnd triggerEndMs durationMs - triggerStartMs →
        WindowLoop (clampedEnd triggerEndMs durationMs) (windowSeconds * 1000)
          (stepMs (windowSeconds * 1000) overlapRatio) (longEnough minWindowMs)
          triggerStartMs ws) ∧
      CoversSpan triggerStartMs (clampedEnd triggerEndMs durationMs) (windowSeconds * 1000)
        minWindowMs ws := by
  have hwindowMs : 0 < windowSeconds * 1000 := by omega
  have hpast : (durationMs.any fun d => decide (d ≤ triggerStartMs)) = true →
      clampedEnd triggerEndMs durationMs ≤ triggerStartMs := by
    cases durationMs with
    | none =>
        intro h
        cases h
    | some d =>
        intro h
        have hle : d ≤ triggerStartMs := of_decide_eq_true h
        exact (min_le_right _ _).trans hle
  unfold planHighFreqWindows
  dsimp only
  generalize clampedEnd triggerEndMs durationMs = endBound at hpast ⊢
  by_cases hspan : endBound ≤ triggerStartMs
  -- nothing of the trigger is left after the clamp
  · refine ⟨[], ?_, fun hlong => by omega, coversSpan_nil (by omega) (by omega)⟩
    rw [if_pos hspan, ite_self]
  · rw [if_neg fun h => hspan (hpast h), if_neg hspan, if_neg (not_le.mpr hwindowMs),
      if_neg (not_not.mpr hratio)]
    by_cases hsingle : endBound - triggerStartMs ≤ windowSeconds * 1000
    -- one window, unless it is shorter than the least one
    · rw [if_pos hsingle]
      by_cases hshort : endBound - triggerStartMs < minWindowMs
      · rw [if_pos hshort]
        exact ⟨[], rfl, fun hlong => by omega, coversSpan_nil (by omega) hshort⟩
      · rw [if_neg hshort]
        exact ⟨_, rfl, fun hlong => by omega,
          coversSpan_singleton (by omega) (by omega) hsingle⟩
    · rw [if_neg hsingle]
      -- the loop: its windows are those of the segment planner, without the short ones
      have hstep := stepMs_pos (windowSeconds * 1000) overlapRatio
      have hle := stepMs_le hwindowMs hratio.1
      obtain ⟨hne, hstepped⟩ := stepped_segmentLoop hwindowMs hstep hle (not_le.mp hspan)
        (le_refl (endBound - triggerStartMs).toNat)
      refine ⟨_, rfl, fun _ => ?_, ?_⟩
      · rw [highFreqLoop_eq_filter]
        exact segmentLoop_loops (longEnough minWindowMs) hstep (le_refl _)
      · rw [highFreqLoop_eq_filter]
        exact coversSpan_filter hstepped hne hstep hle (by omega) hminle

/-- A trigger of 9 s, cut to 8 s, in windows of 3 s that overlap by half. -/
theorem planHighFreqWindows_coversSpan_clip :
    ∃ ws, planHighFreqWindows 0 9000 3 (1 / 2) (some 8000) 1000 = .ok ws ∧
      (3 * 1000 < clampedEnd 9000 (some 8000) - 0 →
        WindowLoop (clampedEnd 9000 (some 8000)) (3 * 1000) (stepMs (3 * 1000) (1 / 2))
          (longEnough 1000) 0 ws) ∧
      CoversSpan 0 (clampedEnd 9000 (some 8000)) (3 * 1000) 1000 ws :=
  planHighFreqWindows_coversSpan 0 9000 (some 8000) (by decide) (by norm_num) (by decide)
    (by decide)

end HighFreq

end CctvMemory.Worker
