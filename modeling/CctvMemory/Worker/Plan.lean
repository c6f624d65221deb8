import CctvMemory.Domain.Enums
import CctvMemory.Worker.Retry
import Mathlib.Data.List.Perm.Basic
import Mathlib.Data.List.Nodup
import Mathlib.Algebra.Order.Ring.Int

/-!
# Planning the windows of a job

`plan_default_segments` and `plan_high_freq_windows` of `domain/policies`, the
planned units of each scale, and the dispatch order of the cross-scale
scheduler. A unit is named by its idempotency key.

* `planDefaultUnits_nodup`, `planHighFreqUnits_nodup`: no unit is planned twice.
* `dispatchOrder_perm`: the scheduler runs every planned unit once.
-/

namespace CctvMemory.Worker

structure SegmentWindow where
  startMs : ℤ
  endMs : ℤ
deriving DecidableEq, Repr

/-- The idempotency key of a unit of one job; a scale task is named by its
scale, and `none` is the empty id. -/
structure UnitKey where
  scaleTask : Option AnalysisScale
  analysisScale : AnalysisScale
  window : SegmentWindow
deriving DecidableEq, Repr

structure TriggerRow where
  triggerId : String
  videoId : String
  triggerStartMs : ℤ
  triggerEndMs : ℤ
  triggerReason : String
deriving DecidableEq, Repr

/-! ## Windows -/

/-- The window loop, from `start`; `fuel` bounds the number of windows. -/
def segmentLoop (stop windowMs stepMs : ℤ) : ℕ → ℤ → List SegmentWindow
  | 0, _ => []
  | fuel + 1, start =>
      if start < stop then
        let stopAt := min (start + windowMs) stop
        if stop ≤ stopAt then [⟨start, stopAt⟩]
        else ⟨start, stopAt⟩ :: segmentLoop stop windowMs stepMs fuel (start + stepMs)
      else []

def valueError (message : String) : Exn := ⟨.value, message, false⟩

def planDefaultSegments (durationMs windowSeconds overlapSeconds : ℤ) :
    Except Exn (List SegmentWindow) :=
  if durationMs ≤ 0 then .ok []
  else
    let windowMs := windowSeconds * 1000
    let step := windowMs - overlapSeconds * 1000
    if windowMs ≤ 0 then .error (valueError "window_seconds must be positive")
    else if step ≤ 0 then
      .error (valueError "overlap_seconds must be smaller than window_seconds")
    else .ok (segmentLoop durationMs windowMs step durationMs.toNat 0)

/-- `stepMs` is `int(window_ms * (1.0 - overlap_ratio))`, in floating point;
`none` for a ratio outside `[0, 1)`. Every window the loop meets has at least
`min_window_ms = 1`. -/
def planHighFreqWindows (triggerStartMs triggerEndMs windowSeconds : ℤ) (stepMs : Option ℤ)
    (durationMs : Option ℤ) : Except Exn (List SegmentWindow) :=
  let endBound := match durationMs with
    | none => triggerEndMs
    | some d => min triggerEndMs d
  if (durationMs.any fun d => decide (d ≤ triggerStartMs)) = true then .ok []
  else if endBound ≤ triggerStartMs then .ok []
  else
    let windowMs := windowSeconds * 1000
    if windowMs ≤ 0 then .error (valueError "window_seconds must be positive")
    else match stepMs with
      | none => .error (valueError "overlap_ratio must be in [0, 1)")
      | some step =>
          let span := endBound - triggerStartMs
          if span ≤ windowMs then .ok [⟨triggerStartMs, endBound⟩]
          else .ok (segmentLoop endBound windowMs (max 1 step) span.toNat triggerStartMs)

theorem startMs_segmentLoop {stop windowMs stepMs : ℤ} (hstep : 0 < stepMs) {fuel : ℕ}
    {start : ℤ} {w : SegmentWindow} (h : w ∈ segmentLoop stop windowMs stepMs fuel start) :
    start ≤ w.startMs := by
  induction fuel generalizing start with
  | zero => cases h
  | succ fuel ih =>
      unfold segmentLoop at h
      split at h
      · dsimp only at h
        split at h
        · rw [List.mem_singleton.mp h]
        · rcases List.mem_cons.mp h with rfl | h
          · exact le_refl _
          · have := ih h
            omega
      · cases h

theorem segmentLoop_nodup {stop windowMs stepMs : ℤ} (hstep : 0 < stepMs) (fuel : ℕ)
    (start : ℤ) : (segmentLoop stop windowMs stepMs fuel start).Nodup := by
  induction fuel generalizing start with
  | zero => exact List.nodup_nil
  | succ fuel ih =>
      unfold segmentLoop
      split
      · dsimp only
        split
        · exact List.nodup_singleton _
        · refine List.nodup_cons.mpr ⟨fun hmem => ?_, ih _⟩
          have := startMs_segmentLoop hstep hmem
          dsimp only at this
          omega
      · exact List.nodup_nil

/-- The fuel of the planners is enough: one more step plans nothing more. -/
theorem segmentLoop_succ {stop windowMs stepMs : ℤ} (hstep : 0 < stepMs) {fuel : ℕ}
    {start : ℤ} (hfuel : (stop - start).toNat ≤ fuel) :
    segmentLoop stop windowMs stepMs (fuel + 1) start
      = segmentLoop stop windowMs stepMs fuel start := by
  induction fuel generalizing start with
  | zero =>
      have hge : ¬ start < stop := by omega
      simp [segmentLoop, hge]
  | succ fuel ih =>
      rw [segmentLoop]
      conv_rhs => rw [segmentLoop]
      rw [ih (by omega)]

theorem planDefaultSegments_nodup {durationMs windowSeconds overlapSeconds : ℤ}
    {windows : List SegmentWindow}
    (h : planDefaultSegments durationMs windowSeconds overlapSeconds = .ok windows) :
    windows.Nodup := by
  unfold planDefaultSegments at h
  dsimp only at h
  split at h
  · cases h
    exact List.nodup_nil
  · split at h
    · cases h
    · split at h
      · cases h
      · cases h
        exact segmentLoop_nodup (by omega) _ _

/-! ## Units -/

/-- A unit of the plan, not yet created. -/
structure PlannedUnit where
  key : UnitKey
  windowIndex : ℕ
  triggerId : Option String

def planDefaultUnits (windows : List SegmentWindow) : List PlannedUnit :=
  windows.zipIdx.map fun wi =>
    ⟨⟨some .defaultSegment, .defaultSegment, wi.1⟩, wi.2, none⟩

/-- The windows of each trigger, with the trigger's number. -/
def highFreqWindowsOf (plan : TriggerRow → Except Exn (List SegmentWindow)) :
    List TriggerRow → ℕ → Except Exn (List (PlannedUnit))
  | [], _ => .ok []
  | t :: ts, n => do
      let windows ← plan t
      let rest ← highFreqWindowsOf plan ts (n + 1)
      .ok (windows.zipIdx.map (fun wi =>
        ⟨⟨none, .highFreqEvent, wi.1⟩, n * 1000 + wi.2, some t.triggerId⟩) ++ rest)

/-- Keep the first unit of each window (`seen`). -/
def dropSeen : List PlannedUnit → List SegmentWindow → List PlannedUnit
  | [], _ => []
  | u :: us, seen =>
      if u.key.window ∈ seen then dropSeen us seen
      else u :: dropSeen us (u.key.window :: seen)

theorem not_mem_dropSeen {us : List PlannedUnit} {seen : List SegmentWindow} {u : PlannedUnit}
    (h : u ∈ dropSeen us seen) : u.key.window ∉ seen := by
  induction us generalizing seen with
  | nil => cases h
  | cons v us ih =>
      unfold dropSeen at h
      split at h
      · exact ih h
      · rename_i hv
        rcases List.mem_cons.mp h with rfl | h
        · exact hv
        · exact fun hmem => ih h (List.mem_cons_of_mem _ hmem)

theorem dropSeen_nodup (us : List PlannedUnit) (seen : List SegmentWindow) :
    ((dropSeen us seen).map fun u => u.key.window).Nodup := by
  induction us generalizing seen with
  | nil => exact List.nodup_nil
  | cons v us ih =>
      unfold dropSeen
      split
      · exact ih seen
      · rw [List.map_cons, List.nodup_cons]
        refine ⟨fun hmem => ?_, ih _⟩
        obtain ⟨u, hu, heq⟩ := List.mem_map.mp hmem
        exact not_mem_dropSeen hu (heq ▸ List.mem_cons_self)

/-- `plan_units` of `high_freq_event`, for the scale task it was built with. -/
def planHighFreqUnits (scaleTask : Option AnalysisScale)
    (plan : TriggerRow → Except Exn (List SegmentWindow)) (triggers : List TriggerRow) :
    Except Exn (List PlannedUnit) := do
  let all ← highFreqWindowsOf plan triggers 0
  .ok ((dropSeen all []).map fun u => { u with key := { u.key with scaleTask } })

theorem mem_of_mem_dropSeen {us : List PlannedUnit} {seen : List SegmentWindow}
    {u : PlannedUnit} (h : u ∈ dropSeen us seen) : u ∈ us := by
  induction us generalizing seen with
  | nil => cases h
  | cons v us ih =>
      unfold dropSeen at h
      split at h
      · exact List.mem_cons_of_mem _ (ih h)
      · rcases List.mem_cons.mp h with rfl | h
        · exact List.mem_cons_self
        · exact List.mem_cons_of_mem _ (ih h)

theorem planDefaultUnits_nodup {windows : List SegmentWindow} (h : windows.Nodup) :
    ((planDefaultUnits windows).map PlannedUnit.key).Nodup := by
  have hkeys : (planDefaultUnits windows).map PlannedUnit.key
      = windows.map fun w => ⟨some .defaultSegment, .defaultSegment, w⟩ := by
    rw [planDefaultUnits, List.map_map]
    conv_rhs => rw [← List.zipIdx_map_fst 0 windows, List.map_map]
    rfl
  rw [hkeys]
  exact h.map fun w w' hw => by cases hw; rfl

theorem keys_planDefaultUnits {windows : List SegmentWindow} :
    ∀ u ∈ planDefaultUnits windows, u.key.scaleTask = some .defaultSegment ∧
      u.key.analysisScale = .defaultSegment := by
  intro u hu
  obtain ⟨wi, -, rfl⟩ := List.mem_map.mp hu
  exact ⟨rfl, rfl⟩

theorem analysisScale_highFreqWindowsOf {plan : TriggerRow → Except Exn (List SegmentWindow)}
    {ts : List TriggerRow} {n : ℕ} {us : List PlannedUnit}
    (h : highFreqWindowsOf plan ts n = .ok us) :
    ∀ u ∈ us, u.key.analysisScale = .highFreqEvent := by
  induction ts generalizing n us with
  | nil =>
      cases h
      exact fun u hu => by cases hu
  | cons t ts ih =>
      unfold highFreqWindowsOf at h
      cases hw : plan t with
      | error e =>
          rw [hw] at h
          cases h
      | ok windows =>
          rw [hw] at h
          cases hrest : highFreqWindowsOf plan ts (n + 1) with
          | error e =>
              rw [hrest] at h
              cases h
          | ok rest =>
              rw [hrest] at h
              cases h
              intro u hu
              rcases List.mem_append.mp hu with hu | hu
              · obtain ⟨wi, -, rfl⟩ := List.mem_map.mp hu
                rfl
              · exact ih hrest u hu

theorem planHighFreqUnits_nodup {scaleTask : Option AnalysisScale}
    {plan : TriggerRow → Except Exn (List SegmentWindow)} {ts : List TriggerRow}
    {us : List PlannedUnit} (h : planHighFreqUnits scaleTask plan ts = .ok us) :
    (us.map PlannedUnit.key).Nodup := by
  unfold planHighFreqUnits at h
  cases hall : highFreqWindowsOf plan ts 0 with
  | error e =>
      rw [hall] at h
      cases h
  | ok all =>
      rw [hall] at h
      cases h
      refine List.Nodup.of_map UnitKey.window ?_
      rw [List.map_map, List.map_map]
      exact dropSeen_nodup all []

theorem keys_planHighFreqUnits {scaleTask : Option AnalysisScale}
    {plan : TriggerRow → Except Exn (List SegmentWindow)} {ts : List TriggerRow}
    {us : List PlannedUnit} (h : planHighFreqUnits scaleTask plan ts = .ok us) :
    ∀ u ∈ us, u.key.scaleTask = scaleTask ∧ u.key.analysisScale = .highFreqEvent := by
  unfold planHighFreqUnits at h
  cases hall : highFreqWindowsOf plan ts 0 with
  | error e =>
      rw [hall] at h
      cases h
  | ok all =>
      rw [hall] at h
      cases h
      intro u hu
      obtain ⟨v, hv, rfl⟩ := List.mem_map.mp hu
      exact ⟨rfl, analysisScale_highFreqWindowsOf hall v (mem_of_mem_dropSeen hv)⟩

/-! ## Dispatch -/

/-- Up to `quota` high-frequency units, then one default unit, and so on. -/
def dispatchOrder {α : Type} (quota : ℕ) : List α → List α → List α
  | highFreq, [] => highFreq
  | highFreq, d :: default =>
      highFreq.take quota ++ d :: dispatchOrder quota (highFreq.drop quota) default

theorem dispatchOrder_perm {α : Type} (quota : ℕ) (highFreq default : List α) :
    (dispatchOrder quota highFreq default).Perm (highFreq ++ default) := by
  induction default generalizing highFreq with
  | nil => simp [dispatchOrder]
  | cons d default ih =>
      rw [dispatchOrder]
      have hrest := ih (highFreq.drop quota)
      have hmiddle : List.Perm (d :: (highFreq.drop quota ++ default))
          (highFreq.drop quota ++ d :: default) := List.perm_middle.symm
      refine (((hrest.cons d).trans hmiddle).append_left _).trans ?_
      rw [← List.append_assoc, List.take_append_drop]

end CctvMemory.Worker
