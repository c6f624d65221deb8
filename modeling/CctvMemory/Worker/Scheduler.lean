import CctvMemory.Library.Executor
import CctvMemory.Worker.Process
import Mathlib.Data.PNat.Defs

/-!
# The cross-scale scheduler

`workers/cross_scale_scheduler.py`: the order in which the units of both scales
are dispatched, and the run that executes them one at a time or in a pool and
counts their outcomes by scale.

* `dispatched`: the order is that of the lists, and no default unit waits for more
  than the quota of high-frequency units.
* `scheduler_correct`: that, and what every run of the scheduler returns.
-/

namespace CctvMemory.Worker.Scheduler

open Executor Trace

/-- A unit of one scale; `run` stands for its closure. -/
structure PlannedUnit (κ : Type) where
  scale : AnalysisScale
  run : κ

variable {κ : Type}

/-! ## Dispatch order -/

/-- `max(1, int(high_freq_quota))`. -/
def quotaOf (highFreqQuota : ℤ) : ℕ+ := ⟨(max 1 highFreqQuota).toNat, by omega⟩

/-- The rounds of the dispatch loop: up to `quota` high-frequency units, then one
default unit. -/
def dispatchRounds (quota : ℕ+) (highFreq default : List (PlannedUnit κ)) :
    List (PlannedUnit κ) :=
  if highFreq.isEmpty && default.isEmpty then []
  else
    match default with
    | d :: rest =>
        highFreq.take quota ++ d :: dispatchRounds quota (highFreq.drop quota) rest
    | [] =>
        if (highFreq.drop quota).isEmpty then highFreq.take quota
        else highFreq.take quota ++ dispatchRounds quota (highFreq.drop quota) []
termination_by highFreq.length + default.length
decreasing_by
  · simp only [List.length_drop, List.length_cons]
    omega
  · rename_i hmore
    have hpos := quota.pos
    rw [List.isEmpty_iff, List.drop_eq_nil_iff, not_le] at hmore
    simp only [List.length_drop, List.length_nil]
    omega

def dispatchOrder (highFreqQuota : ℤ) (highFreq default : List (PlannedUnit κ)) :
    List (PlannedUnit κ) :=
  dispatchRounds (quotaOf highFreqQuota) highFreq default

/-- Once no default unit is left, the rounds drain the other list. -/
theorem dispatchRounds_eq (quota : ℕ+) (highFreq default : List (PlannedUnit κ)) :
    dispatchRounds quota highFreq default = Worker.dispatchOrder quota highFreq default := by
  fun_induction dispatchRounds quota highFreq default with
  | case1 highFreq default hempty =>
      rw [Bool.and_eq_true, List.isEmpty_iff, List.isEmpty_iff] at hempty
      rw [hempty.1, hempty.2]
      rfl
  | case2 highFreq d rest _ ih => rw [ih, Worker.dispatchOrder]
  | case3 highFreq hlast _ =>
      rw [List.isEmpty_iff, List.drop_eq_nil_iff] at hlast
      rw [Worker.dispatchOrder, List.take_of_length_le hlast]
  | case4 highFreq _ _ ih =>
      rw [ih, Worker.dispatchOrder, Worker.dispatchOrder, List.take_append_drop]

/-- Each scale keeps its order, and no more high-frequency units than the quota are
dispatched in a row while a default unit is left. -/
structure Dispatched (highFreqQuota : ℤ) (highFreq default order : List (PlannedUnit κ)) :
    Prop where
  perm : order.Perm (highFreq ++ default)
  highFreq : order.filter (fun u => decide (u.scale = .highFreqEvent)) = highFreq
  default : order.filter (fun u => decide (u.scale = .defaultSegment)) = default
  fair : ∀ before burst after, order = before ++ burst ++ after →
    (∀ u ∈ burst, u.scale = .highFreqEvent) → (∃ u ∈ after, u.scale = .defaultSegment) →
    (burst.length : ℤ) ≤ max 1 highFreqQuota

section Dispatch

variable {highFreq default : List (PlannedUnit κ)}

theorem filter_eq_self_of_scale {scale : AnalysisScale} {us : List (PlannedUnit κ)}
    (h : ∀ u ∈ us, u.scale = scale) : us.filter (fun u => decide (u.scale = scale)) = us := by
  rw [List.filter_eq_self]
  exact fun u hu => decide_eq_true (h u hu)

theorem filter_eq_nil_of_scale {scale scale' : AnalysisScale} (hne : scale ≠ scale')
    {us : List (PlannedUnit κ)} (h : ∀ u ∈ us, u.scale = scale) :
    us.filter (fun u => decide (u.scale = scale')) = [] := by
  rw [List.filter_eq_nil_iff]
  intro u hu heq
  exact hne ((h u hu).symm.trans (of_decide_eq_true heq))

variable (hhighFreq : ∀ u ∈ highFreq, u.scale = .highFreqEvent)
  (hdefault : ∀ u ∈ default, u.scale = .defaultSegment)

include hhighFreq hdefault

theorem filter_highFreq_dispatchOrder (quota : ℕ) :
    (Worker.dispatchOrder quota highFreq default).filter
      (fun u => decide (u.scale = .highFreqEvent)) = highFreq := by
  induction default generalizing highFreq with
  | nil => exact filter_eq_self_of_scale hhighFreq
  | cons d rest ih =>
      have htake : ∀ u ∈ highFreq.take quota, u.scale = .highFreqEvent :=
        fun u hu => hhighFreq u (List.mem_of_mem_take hu)
      have hdrop : ∀ u ∈ highFreq.drop quota, u.scale = .highFreqEvent :=
        fun u hu => hhighFreq u (List.mem_of_mem_drop hu)
      have hd : ¬ decide (d.scale = .highFreqEvent) = true := by
        rw [hdefault d List.mem_cons_self]
        decide
      rw [Worker.dispatchOrder, List.filter_append, filter_eq_self_of_scale htake,
        List.filter_cons, if_neg hd,
        ih hdrop fun u hu => hdefault u (List.mem_cons_of_mem _ hu), List.take_append_drop]

theorem filter_default_dispatchOrder (quota : ℕ) :
    (Worker.dispatchOrder quota highFreq default).filter
      (fun u => decide (u.scale = .defaultSegment)) = default := by
  induction default generalizing highFreq with
  | nil => exact filter_eq_nil_of_scale (by decide) hhighFreq
  | cons d rest ih =>
      have htake : ∀ u ∈ highFreq.take quota, u.scale = .highFreqEvent :=
        fun u hu => hhighFreq u (List.mem_of_mem_take hu)
      have hdrop : ∀ u ∈ highFreq.drop quota, u.scale = .highFreqEvent :=
        fun u hu => hhighFreq u (List.mem_of_mem_drop hu)
      have hd : decide (d.scale = .defaultSegment) = true :=
        decide_eq_true (hdefault d List.mem_cons_self)
      rw [Worker.dispatchOrder, List.filter_append, filter_eq_nil_of_scale (by decide) htake,
        List.filter_cons, if_pos hd,
        ih hdrop fun u hu => hdefault u (List.mem_cons_of_mem _ hu), List.nil_append]

/-- A run of high-frequency units before a default one lies within one round. -/
theorem length_burst_le {quota : ℕ} {before burst after : List (PlannedUnit κ)}
    (horder : Worker.dispatchOrder quota highFreq default = before ++ burst ++ after)
    (hburst : ∀ u ∈ burst, u.scale = .highFreqEvent)
    (hafter : ∃ u ∈ after, u.scale = .defaultSegment) : burst.length ≤ quota := by
  induction default generalizing highFreq before with
  | nil =>
      obtain ⟨u, hu, hscale⟩ := hafter
      have hmem : u ∈ highFreq := by
        have h : u ∈ before ++ burst ++ after := List.mem_append_right _ hu
        rwa [← horder] at h
      rw [hhighFreq u hmem] at hscale
      cases hscale
  | cons d rest ih =>
      rw [Worker.dispatchOrder] at horder
      have hdrop : ∀ u ∈ highFreq.drop quota, u.scale = .highFreqEvent :=
        fun u hu => hhighFreq u (List.mem_of_mem_drop hu)
      have hrest : ∀ u ∈ rest, u.scale = .defaultSegment :=
        fun u hu => hdefault u (List.mem_cons_of_mem _ hu)
      rw [List.append_assoc, List.append_eq_append_iff] at horder
      rcases horder with ⟨front, hbefore, hsplit⟩ | ⟨front, htake, hsplit⟩
      · cases front with
        | nil =>
            -- the burst would start with the default unit of the round
            cases burst with
            | nil => exact Nat.zero_le _
            | cons u burst =>
                obtain ⟨rfl, -⟩ := List.cons.inj hsplit
                have hd := hburst d List.mem_cons_self
                rw [hdefault d List.mem_cons_self] at hd
                cases hd
        | cons u front =>
            -- the burst lies in a later round
            rw [List.cons_append, ← List.append_assoc] at hsplit
            obtain ⟨-, htail⟩ := List.cons.inj hsplit
            exact ih hdrop hrest htail
      · rw [List.append_eq_append_iff] at hsplit
        rcases hsplit with ⟨more, hfront, -⟩ | ⟨more, hburst', hmore⟩
        -- it starts and ends among the units of this round's quota
        · have hlength := congrArg List.length htake
          rw [List.length_take, hfront, List.length_append, List.length_append] at hlength
          omega
        · cases more with
          | nil =>
              have hlength := congrArg List.length htake
              rw [List.length_take, List.length_append] at hlength
              rw [hburst', List.append_nil]
              omega
          | cons u more =>
              -- or it would go past the default unit of the round
              obtain ⟨rfl, -⟩ := List.cons.inj hmore
              have hd := hburst d (by rw [hburst']; exact List.mem_append_right _ List.mem_cons_self)
              rw [hdefault d List.mem_cons_self] at hd
              cases hd

theorem dispatched (highFreqQuota : ℤ) :
    Dispatched highFreqQuota highFreq default (dispatchOrder highFreqQuota highFreq default) := by
  unfold dispatchOrder
  rw [dispatchRounds_eq]
  refine ⟨Worker.dispatchOrder_perm _ _ _, filter_highFreq_dispatchOrder hhighFreq hdefault _,
    filter_default_dispatchOrder hhighFreq hdefault _, ?_⟩
  intro before burst after horder hburst hafter
  have hle := length_burst_le hhighFreq hdefault horder hburst hafter
  have hquota : ((quotaOf highFreqQuota : ℕ) : ℤ) = max 1 highFreqQuota :=
    Int.toNat_of_nonneg (by omega)
  omega

end Dispatch

/-! ## Counting outcomes -/

/-- `_tally`, for one outcome; the total is set beforehand. -/
def tally (r : ScaleProcessResult) : UnitOutcome → ScaleProcessResult
  | .succeeded => { r with succeeded := r.succeeded + 1 }
  | .skipped => { r with skipped := r.skipped + 1 }
  | .failed => { r with failed := r.failed + 1 }

/-- The dictionary of counters. -/
abbrev Totals := List (AnalysisScale × ScaleProcessResult)

def initialTotals (highFreq default : List (PlannedUnit κ)) : Totals :=
  [(.defaultSegment, ⟨default.length, 0, 0, 0⟩), (.highFreqEvent, ⟨highFreq.length, 0, 0, 0⟩)]

/-- `_tally(totals[scale], outcome)`; `none` is a `KeyError`. -/
def Totals.count (totals : Totals) (scale : AnalysisScale) (o : UnitOutcome) : Option Totals :=
  if scale ∈ totals.map Prod.fst then
    some (totals.map fun t => if t.1 = scale then (t.1, tally t.2 o) else t)
  else none

/-- A unit that ended, with what its closure returned or raised. -/
abbrev Ran (κ : Type) := PlannedUnit κ × Except Exn UnitOutcome

/-- What the scheduler returns once the results of `ran` are in. -/
def returned (highFreq default : List (PlannedUnit κ)) (ran : List (Ran κ)) : Option Totals :=
  ran.foldlM (fun t c => t.count c.1.scale (safeRun c.2)) (initialTotals highFreq default)

/-- The outcomes of the units of one scale. -/
def outcomesOf (scale : AnalysisScale) (ran : List (Ran κ)) : List UnitOutcome :=
  (ran.filter fun c => decide (c.1.scale = scale)).map fun c => safeRun c.2

theorem foldl_tally (os : List UnitOutcome) (r : ScaleProcessResult) :
    os.foldl tally r = ⟨r.total, r.succeeded + os.count .succeeded,
      r.failed + os.count .failed, r.skipped + os.count .skipped⟩ := by
  induction os generalizing r with
  | nil => rfl
  | cons o os ih =>
      rw [List.foldl_cons, ih]
      cases o <;> simp [tally] <;> omega

theorem count_outcomes (os : List UnitOutcome) :
    os.length = os.count .succeeded + os.count .failed + os.count .skipped := by
  induction os with
  | nil => rfl
  | cons o os ih => cases o <;> simp [ih] <;> omega

theorem foldlM_count {ran : List (Ran κ)}
    (h : ∀ c ∈ ran, c.1.scale = .defaultSegment ∨ c.1.scale = .highFreqEvent)
    (d f : ScaleProcessResult) :
    ran.foldlM (fun t c => Totals.count t c.1.scale (safeRun c.2))
        [(.defaultSegment, d), (.highFreqEvent, f)]
      = some [(.defaultSegment, (outcomesOf .defaultSegment ran).foldl tally d),
          (.highFreqEvent, (outcomesOf .highFreqEvent ran).foldl tally f)] := by
  induction ran generalizing d f with
  | nil => rfl
  | cons c ran ih =>
      have hrest := ih fun c' hc' => h c' (List.mem_cons_of_mem _ hc')
      rw [List.foldlM_cons]
      rcases h c List.mem_cons_self with hscale | hscale
      · have hcount : Totals.count [(.defaultSegment, d), (.highFreqEvent, f)] c.1.scale
            (safeRun c.2) = some [(.defaultSegment, tally d (safeRun c.2)), (.highFreqEvent, f)] := by
          rw [hscale]
          rfl
        rw [hcount]
        refine (hrest _ _).trans ?_
        simp [outcomesOf, hscale]
      · have hcount : Totals.count [(.defaultSegment, d), (.highFreqEvent, f)] c.1.scale
            (safeRun c.2) = some [(.defaultSegment, d), (.highFreqEvent, tally f (safeRun c.2))] := by
          rw [hscale]
          rfl
        rw [hcount]
        refine (hrest _ _).trans ?_
        simp [outcomesOf, hscale]

/-! ## Runs of the scheduler -/

/-- One thread runs the units in turn, more of them are a pool. -/
def SchedulerStep (maxWorkers : ℤ) :
    State (PlannedUnit κ) (Except Exn UnitOutcome) →
      Event (PlannedUnit κ) (Except Exn UnitOutcome) →
      State (PlannedUnit κ) (Except Exn UnitOutcome) → Prop :=
  if max 1 maxWorkers = 1 then InTurn else Step (max 1 maxWorkers).toNat

abbrev SchedulerRun (maxWorkers : ℤ) (order : List (PlannedUnit κ)) :=
  Run (· = State.initial order) (SchedulerStep (κ := κ) maxWorkers)

/-- The scheduler returned: each unit ran once, and the counts of a scale are those
of its units' outcomes. -/
structure Returned (highFreq default order : List (PlannedUnit κ))
    (s : State (PlannedUnit κ) (Except Exn UnitOutcome)) : Prop where
  ended : s.Ended
  ran : s.started = order
  counts : returned highFreq default s.collected
    = some [(.defaultSegment, .tally (outcomesOf .defaultSegment s.collected)),
        (.highFreqEvent, .tally (outcomesOf .highFreqEvent s.collected))]
  default : (outcomesOf .defaultSegment s.collected).length = default.length
  highFreq : (outcomesOf .highFreqEvent s.collected).length = highFreq.length

section Main

variable {highFreq default order : List (PlannedUnit κ)}
  {s : State (PlannedUnit κ) (Except Exn UnitOutcome)}

theorem length_outcomesOf (scale : AnalysisScale) (ran : List (Ran κ)) :
    (outcomesOf scale ran).length
      = ((ran.map Prod.fst).filter fun u => decide (u.scale = scale)).length := by
  unfold outcomesOf
  rw [List.length_map, List.filter_map, List.length_map]
  rfl

theorem returned_of_ranAll {highFreqQuota : ℤ}
    (hhighFreq : ∀ u ∈ highFreq, u.scale = .highFreqEvent)
    (hdefault : ∀ u ∈ default, u.scale = .defaultSegment)
    (horder : Dispatched highFreqQuota highFreq default order) (hended : s.Ended)
    (hran : RanAll order s) : Returned highFreq default order s := by
  have hscale : ∀ c ∈ s.collected,
      c.1.scale = .defaultSegment ∨ c.1.scale = .highFreqEvent := by
    intro c hc
    have hmem := (hran.collected.trans horder.perm).mem_iff.mp (List.mem_map_of_mem hc)
    rcases List.mem_append.mp hmem with h | h
    · exact Or.inr (hhighFreq _ h)
    · exact Or.inl (hdefault _ h)
  have hlength : ∀ scale, (outcomesOf scale s.collected).length
      = (order.filter fun u => decide (u.scale = scale)).length := by
    intro scale
    rw [length_outcomesOf]
    exact (hran.collected.filter _).length_eq
  have hlengthDefault : (outcomesOf .defaultSegment s.collected).length = default.length := by
    rw [hlength, horder.default]
  have hlengthHighFreq : (outcomesOf .highFreqEvent s.collected).length = highFreq.length := by
    rw [hlength, horder.highFreq]
  refine ⟨hended, hran.started, ?_, hlengthDefault, hlengthHighFreq⟩
  unfold returned initialTotals
  rw [foldlM_count hscale, foldl_tally, foldl_tally]
  simp only [Nat.zero_add, ScaleProcessResult.tally, hlengthDefault, hlengthHighFreq]

/-- The events of a run are bounded, and one that cannot go on has returned. -/
theorem returns_of_run {highFreqQuota maxWorkers : ℤ}
    (hhighFreq : ∀ u ∈ highFreq, u.scale = .highFreqEvent)
    (hdefault : ∀ u ∈ default, u.scale = .defaultSegment)
    (horder : Dispatched highFreqQuota highFreq default order)
    {es : List (Event (PlannedUnit κ) (Except Exn UnitOutcome))}
    (h : SchedulerRun maxWorkers order es s) :
    es.length ≤ 4 * order.length ∧
      (Stuck (SchedulerStep maxWorkers) s → Returned highFreq default order s) := by
  have hone : Nonempty (Except Exn UnitOutcome) := ⟨.ok .failed⟩
  unfold SchedulerRun SchedulerStep at h
  unfold SchedulerStep
  by_cases hworkers : max 1 maxWorkers = 1
  · rw [if_pos hworkers] at h ⊢
    obtain ⟨hkept, -, hlength⟩ := inTurn_of_run h
    refine ⟨by omega, fun hstuck => ?_⟩
    have hended := ended_of_stuck_inTurn h hstuck
    exact returned_of_ranAll hhighFreq hdefault horder hended (hkept.ranAll hended)
  · rw [if_neg hworkers] at h ⊢
    have hlength := length_of_run h
    refine ⟨by omega, fun hstuck => ?_⟩
    have hended := ended_of_stuck (by omega) hstuck
    exact returned_of_ranAll hhighFreq hdefault horder hended ((kept_of_run h).ranAll hended)

end Main

/-- The counts a scale is returned with add up to its units. -/
structure CountsUnits (us : List (PlannedUnit κ)) (r : ScaleProcessResult) : Prop where
  total : r.total = us.length
  parts : r.total = r.succeeded + r.failed + r.skipped

/-- For every two lists of units, quota and pool size, in every run: the dispatch
order is fair, the run ends, and then each unit ran once and is counted once. -/
theorem scheduler_correct {highFreq default : List (PlannedUnit κ)}
    (hhighFreq : ∀ u ∈ highFreq, u.scale = .highFreqEvent)
    (hdefault : ∀ u ∈ default, u.scale = .defaultSegment) (highFreqQuota maxWorkers : ℤ) :
    Dispatched highFreqQuota highFreq default (dispatchOrder highFreqQuota highFreq default) ∧
      ∀ es s, SchedulerRun maxWorkers (dispatchOrder highFreqQuota highFreq default) es s →
        es.length ≤ 4 * (highFreq ++ default).length ∧
        (Stuck (SchedulerStep maxWorkers) s →
          s.Ended ∧ s.started = dispatchOrder highFreqQuota highFreq default ∧
          ∃ d f, returned highFreq default s.collected
              = some [(.defaultSegment, d), (.highFreqEvent, f)] ∧
            CountsUnits default d ∧ CountsUnits highFreq f) := by
  have horder := dispatched hhighFreq hdefault highFreqQuota
  refine ⟨horder, fun es s hrun => ?_⟩
  obtain ⟨hlength, hreturns⟩ := returns_of_run hhighFreq hdefault horder hrun
  rw [horder.perm.length_eq] at hlength
  refine ⟨hlength, fun hstuck => ?_⟩
  have hreturned := hreturns hstuck
  refine ⟨hreturned.ended, hreturned.ran, _, _, hreturned.counts, ?_, ?_⟩
  · exact ⟨hreturned.default, count_outcomes _⟩
  · exact ⟨hreturned.highFreq, count_outcomes _⟩

/-- Five high-frequency units and two default ones, with a quota of two. -/
theorem scheduler_correct_mixed :
    let highFreq : List (PlannedUnit ℕ) := (List.range 5).map (⟨.highFreqEvent, ·⟩)
    let default : List (PlannedUnit ℕ) := (List.range 2).map (⟨.defaultSegment, ·⟩)
    Dispatched 2 highFreq default (dispatchOrder 2 highFreq default) ∧
      ∀ es s, SchedulerRun 4 (dispatchOrder 2 highFreq default) es s →
        es.length ≤ 4 * (highFreq ++ default).length ∧
        (Stuck (SchedulerStep 4) s →
          s.Ended ∧ s.started = dispatchOrder 2 highFreq default ∧
          ∃ d f, returned highFreq default s.collected
              = some [(.defaultSegment, d), (.highFreqEvent, f)] ∧
            CountsUnits default d ∧ CountsUnits highFreq f) :=
  scheduler_correct (by decide) (by decide) 2 4

end CctvMemory.Worker.Scheduler
