import CctvMemory.Library.OpenKeys
import CctvMemory.Ops.TimelineRows
import Mathlib.Data.Set.Card

/-!
# Concurrency curves of the dashboard

`_series_for_active_keys` and `_stage_series`: one pass over the events of a timeline
with the set of keys that are active, and the curve and the peak of its size. Both
passes put marks on keys (`OpenKeys`), each by its own rules.

* `curves_exact`: the curves and peaks, by the events alone.
* `groupSummary_le`: no peak of a group is above the whole's.
-/

namespace CctvMemory.Ops

open Iso (DateTime)
open OpenKeys (Mark mark openKeys curve)
open Worker.Timeline (TimelineEventPhase firstOf)

variable {ν : Type}

/-- `(times, counts, peak)`. -/
structure Series where
  times : List DateTime
  counts : List ℕ
  peak : ℕ
deriving DecidableEq

/-- The locals of a pass. -/
structure Pass where
  active : Finset String
  times : List DateTime
  counts : List ℕ
  peak : ℕ

def Pass.start : Pass := ⟨∅, [], [], 0⟩

def Pass.series (c : Pass) : Series := ⟨c.times, c.counts, c.peak⟩

/-- `getattr(event, key_attr) or event.span_id or event.timeline_event_id`. -/
def activeKey (keyAttr : Event ν → Option String) (event : Event ν) : String :=
  firstOf [keyAttr event, event.spanId] event.timelineEventId

/-- The keyword arguments of `_series_for_active_keys`. -/
structure ActiveKeys (ν : Type) where
  startNames : List String
  finishNames : List String
  keyAttr : Event ν → Option String

section Passes

variable (a : ActiveKeys ν)

/-- One turn of `_series_for_active_keys`. -/
def activeStep (c : Pass) (event : Event ν) : Pass :=
  let key := activeKey a.keyAttr event
  let active :=
    if event.eventName ∈ a.startNames ∧ event.eventPhase ∈ [.instant, .start] then
      insert key c.active
    else if event.eventName ∈ a.finishNames
        ∧ event.eventPhase ∈ [.instant, .finish, .fail] then
      c.active.erase key
    else c.active
  if event.eventName ∈ a.startNames ∨ event.eventName ∈ a.finishNames then
    { active := active
      times := c.times ++ [event.occurredAt]
      counts := c.counts ++ [active.card]
      peak := max c.peak active.card }
  else { c with active := active }

def seriesForActiveKeys (events : List (Event ν)) : Series :=
  (events.foldl (activeStep a) .start).series

/-- `event.span_id or event.unit_id or event.model_call_id or event.timeline_event_id`. -/
def stageKey (event : Event ν) : String :=
  firstOf [event.spanId, event.unitId, event.modelCallId] event.timelineEventId

/-- One turn of `_stage_series`. -/
def stageStep (eventNames : List String) (c : Pass) (event : Event ν) : Pass :=
  let record (active : Finset String) : Pass :=
    { active := active
      times := c.times ++ [event.occurredAt]
      counts := c.counts ++ [active.card]
      peak := max c.peak active.card }
  if event.eventName ∉ eventNames then c
  else match event.eventPhase with
    | .start => record (insert (stageKey event) c.active)
    | .finish | .fail => record (c.active.erase (stageKey event))
    | .instant => c

def stageSeries (eventNames : List String) (events : List (Event ν)) : Series :=
  (events.foldl (stageStep eventNames) .start).series

end Passes

/-! ## The curves that are drawn -/

def activeUnits : ActiveKeys ν := ⟨["unit_running"], ["unit_finished"], fun e => e.unitId⟩

def schedulerWaiters : ActiveKeys ν :=
  ⟨["vlm_scheduler_wait"], ["vlm_scheduler_wait"], fun e => e.modelCallId⟩

def outboundVlmCalls : ActiveKeys ν :=
  ⟨["vlm_provider_call"], ["vlm_provider_call"], fun e => e.modelCallId⟩

def preVlmEvents : List String := ["frame_select", "media_refs_built", "detector_gate"]

/-- `occurred_at.replace(microsecond=0)`. -/
def secondOf (d : DateTime) : DateTime := ⟨d.wall - d.wall % Iso.second, d.utcoffset⟩

/-- `buckets[bucket] = buckets.get(bucket, 0) + 1`; aware times are equal when their
instants are. -/
def countUp (buckets : List (DateTime × ℕ)) (bucket : DateTime) : List (DateTime × ℕ) :=
  if bucket.instant ∈ buckets.map fun b => b.1.instant then
    buckets.map fun b => if b.1.instant = bucket.instant then (b.1, b.2 + 1) else b
  else buckets ++ [(bucket, 1)]

def rateBuckets (eventName : String) (phase : TimelineEventPhase) (events : List (Event ν)) :
    List (DateTime × ℕ) :=
  events.foldl (fun buckets e =>
    if e.eventName ≠ eventName ∨ e.eventPhase ≠ phase then buckets
    else countUp buckets (secondOf e.occurredAt)) []

def eventRateSeries (eventName : String) (phase : TimelineEventPhase)
    (events : List (Event ν)) : Series :=
  let buckets := (rateBuckets eventName phase events).mergeSort fun b c =>
    decide (b.1.instant ≤ c.1.instant)
  { times := buckets.map Prod.fst
    counts := buckets.map Prod.snd
    peak := (buckets.map Prod.snd).foldl max 0 }

/-- `_active_series`, by the names of the curves. -/
def activeSeries (events : List (Event ν)) : List (String × Series) :=
  [("Active units", seriesForActiveKeys activeUnits events),
    ("Pre-VLM active", stageSeries preVlmEvents events),
    ("Active frame_select", stageSeries ["frame_select"] events),
    ("Active media_refs_built", stageSeries ["media_refs_built"] events),
    ("Active detector_gate", stageSeries ["detector_gate"] events),
    ("Scheduler waiters", seriesForActiveKeys schedulerWaiters events),
    ("Outbound VLM calls", seriesForActiveKeys outboundVlmCalls events),
    ("VLM-ready rate per sec", eventRateSeries "vlm_scheduler_wait" .start events),
    ("Provider start rate per sec", eventRateSeries "vlm_provider_call" .start events)]

/-! ## Groups -/

/-- `event.analysis_scale.value`, or `"unknown"`. -/
def eventScale (e : Event ν) : String := (e.analysisScale.map AnalysisScale.value).getD "unknown"

/-- `event.unit_kind or "unknown"`. -/
def eventUnitKind (e : Event ν) : String := firstOf [e.unitKind] "unknown"

/-- A row of the group table. -/
structure GroupRow where
  eventCount : ℕ
  unitCount : ℕ
  modelCallCount : ℕ
  peakActiveUnits : ℕ
  peakPreVlmActive : ℕ
  peakOutboundVlmCalls : ℕ
  countsByEvent : List (String × ℕ)
deriving DecidableEq

/-- How many different ids, not counting empty ones. -/
def idCount (id : Event ν → Option String) (events : List (Event ν)) : ℕ :=
  ((events.filterMap id).filter fun s => decide (s ≠ "")).dedup.length

/-- `dict(Counter(…))`. -/
def counter (names : List String) : List (String × ℕ) :=
  names.eraseDups.map fun name => (name, names.count name)

def groupRow (events : List (Event ν)) : GroupRow where
  eventCount := events.length
  unitCount := idCount (fun e => e.unitId) events
  modelCallCount := idCount (fun e => e.modelCallId) events
  peakActiveUnits := (seriesForActiveKeys activeUnits events).peak
  peakPreVlmActive := (stageSeries preVlmEvents events).peak
  peakOutboundVlmCalls := (seriesForActiveKeys outboundVlmCalls events).peak
  countsByEvent := counter (events.map fun e => e.eventName)

/-- `_group_summary`, for one of its key functions. -/
def groupSummary (keyFn : Event ν → String) (events : List (Event ν)) :
    List (String × GroupRow) :=
  ((events.map keyFn).dedup.mergeSort fun a b => decide (a ≤ b)).map fun key =>
    (key, groupRow (events.filter fun e => decide (keyFn e = key)))

/-! ## Marks -/

/-- What a pass does to its keys at an event; `none` where it takes no count. -/
abbrev Marking (ν : Type) := Event ν → Option (Mark String)

def activeMark (a : ActiveKeys ν) : Marking ν := fun event =>
  if event.eventName ∈ a.startNames ∧ event.eventPhase ∈ [.instant, .start] then
    some (.opens (activeKey a.keyAttr event))
  else if event.eventName ∈ a.finishNames ∧ event.eventPhase ∈ [.instant, .finish, .fail] then
    some (.closes (activeKey a.keyAttr event))
  else if event.eventName ∈ a.startNames ∨ event.eventName ∈ a.finishNames then some .other
  else none

def stageMark (eventNames : List String) : Marking ν := fun event =>
  if event.eventName ∉ eventNames then none
  else match event.eventPhase with
    | .start => some (.opens (stageKey event))
    | .finish | .fail => some (.closes (stageKey event))
    | .instant => none

/-- The pass that a marking describes. -/
def Pass.of (f : Marking ν) (events : List (Event ν)) : Pass where
  active := openKeys (events.filterMap f)
  times := (events.filter fun e => (f e).isSome).map fun e => e.occurredAt
  counts := curve (events.filterMap f)
  peak := OpenKeys.peak (events.filterMap f)

/-- The turns of a pass follow a marking. -/
structure Follows (step : Pass → Event ν → Pass) (f : Marking ν) : Prop where
  skips : ∀ c e, f e = none → step c e = c
  records : ∀ c e m, f e = some m → step c e =
    { active := mark c.active m
      times := c.times ++ [e.occurredAt]
      counts := c.counts ++ [(mark c.active m).card]
      peak := max c.peak (mark c.active m).card }

theorem Follows.foldl_eq {step : Pass → Event ν → Pass} {f : Marking ν} (h : Follows step f)
    (events : List (Event ν)) : events.foldl step .start = .of f events := by
  induction events using List.reverseRecOn with
  | nil => rfl
  | append_singleton events e ih =>
      rw [List.foldl_append, List.foldl_cons, List.foldl_nil, ih]
      unfold Pass.of
      rw [List.filterMap_append, List.filter_append, List.map_append]
      cases hmark : f e with
      | none =>
          rw [h.skips _ e hmark]
          simp [hmark]
      | some m =>
          rw [h.records _ e m hmark]
          simp [hmark, OpenKeys.curve_concat, OpenKeys.peak_concat, OpenKeys.openKeys_concat]

theorem follows_activeStep (a : ActiveKeys ν) : Follows (activeStep a) (activeMark a) where
  skips c e hnone := by
    unfold activeMark at hnone
    split at hnone
    · cases hnone
    · rename_i hstart
      split at hnone
      · cases hnone
      · rename_i hfinish
        split at hnone
        · cases hnone
        · rename_i hname
          simp only [activeStep, if_neg hstart, if_neg hfinish, if_neg hname]
  records c e m hsome := by
    unfold activeMark at hsome
    split at hsome
    · rename_i hstart
      cases hsome
      simp only [activeStep, if_pos hstart, if_pos (Or.inl hstart.1), mark]
    · rename_i hstart
      split at hsome
      · rename_i hfinish
        cases hsome
        simp only [activeStep, if_neg hstart, if_pos hfinish, if_pos (Or.inr hfinish.1), mark]
      · rename_i hfinish
        split at hsome
        · rename_i hname
          cases hsome
          simp only [activeStep, if_neg hstart, if_neg hfinish, if_pos hname, mark]
        · cases hsome

theorem follows_stageStep (eventNames : List String) :
    Follows (@stageStep ν eventNames) (stageMark eventNames) where
  skips c e hnone := by
    unfold stageMark at hnone
    unfold stageStep
    split at hnone
    · rename_i hname
      rw [if_pos hname]
    · rename_i hname
      rw [if_neg hname]
      cases hphase : e.eventPhase with
      | instant => rfl
      | start | finish | fail => simp [hphase] at hnone
  records c e m hsome := by
    unfold stageMark at hsome
    unfold stageStep
    split at hsome
    · cases hsome
    · rename_i hname
      rw [if_neg hname]
      cases hphase : e.eventPhase with
      | instant => simp [hphase] at hsome
      | start | finish | fail =>
          simp only [hphase, Option.some.injEq] at hsome
          subst hsome
          rfl

theorem seriesForActiveKeys_eq (a : ActiveKeys ν) (events : List (Event ν)) :
    seriesForActiveKeys a events = (Pass.of (activeMark a) events).series := by
  rw [seriesForActiveKeys, (follows_activeStep a).foldl_eq]

theorem stageSeries_eq (eventNames : List String) (events : List (Event ν)) :
    stageSeries eventNames events = (Pass.of (stageMark eventNames) events).series := by
  rw [stageSeries, (follows_stageStep eventNames).foldl_eq]

/-! ## By the events alone -/

/-- Some event opened the key, and none closed it since. -/
def OpenAfter (f : Marking ν) (events : List (Event ν)) (k : String) : Prop :=
  ∃ before e after, events = before ++ e :: after ∧ f e = some (.opens k) ∧
    ∀ e' ∈ after, f e' ≠ some (.closes k)

/-- At every event that is counted, how many keys are open. -/
noncomputable def exactSeries (f : Marking ν) (events : List (Event ν)) : Series where
  times := (events.filter fun e => (f e).isSome).map fun e => e.occurredAt
  counts := (events.inits.filter fun seen => seen.getLast?.any fun e => (f e).isSome).map
    fun seen => Set.ncard {k | OpenAfter f seen k}
  peak := ((events.inits.filter fun seen => seen.getLast?.any fun e => (f e).isSome).map
    fun seen => Set.ncard {k | OpenAfter f seen k}).foldl max 0

section Exact

variable {f : Marking ν} {events : List (Event ν)} {e : Event ν} {k : String}

theorem openAfter_concat : OpenAfter f (events ++ [e]) k ↔
    f e = some (.opens k) ∨ OpenAfter f events k ∧ f e ≠ some (.closes k) := by
  constructor
  · rintro ⟨before, e', after, heq, hopens, hafter⟩
    rcases List.eq_nil_or_concat after with rfl | ⟨after, last, rfl⟩
    · obtain ⟨-, hlast⟩ := List.append_inj' heq rfl
      cases hlast
      exact .inl hopens
    · rw [List.concat_eq_append] at heq hafter
      rw [← List.cons_append, ← List.append_assoc] at heq
      obtain ⟨hinit, hlast⟩ := List.append_inj' heq rfl
      cases hlast
      rw [List.forall_mem_append, List.forall_mem_singleton] at hafter
      exact .inr ⟨⟨before, e', after, hinit, hopens, hafter.1⟩, hafter.2⟩
  · rintro (hopens | ⟨⟨before, e', after, rfl, hopens, hafter⟩, hlast⟩)
    · exact ⟨events, e, [], rfl, hopens, fun e' he' => absurd he' List.not_mem_nil⟩
    · refine ⟨before, e', after ++ [e], by simp, hopens, ?_⟩
      rw [List.forall_mem_append, List.forall_mem_singleton]
      exact ⟨hafter, hlast⟩

theorem mem_openKeys_iff_openAfter : k ∈ openKeys (events.filterMap f) ↔ OpenAfter f events k := by
  induction events using List.reverseRecOn with
  | nil =>
      refine iff_of_false (Finset.notMem_empty k) ?_
      rintro ⟨before, e, after, heq, -⟩
      simp at heq
  | append_singleton events e ih =>
      rw [openAfter_concat, ← ih, List.filterMap_append]
      cases hmark : f e with
      | none => simp [hmark]
      | some m =>
          simp only [List.filterMap_cons, hmark, List.filterMap_nil,
            OpenKeys.openKeys_concat, OpenKeys.mem_mark, Option.some.injEq, ne_eq]

theorem ncard_openAfter (f : Marking ν) (events : List (Event ν)) :
    Set.ncard {k | OpenAfter f events k} = (openKeys (events.filterMap f)).card := by
  rw [← Set.ncard_coe_finset]
  congr 1
  ext k
  exact mem_openKeys_iff_openAfter.symm

theorem inits_concat {α : Type} (l : List α) (a : α) :
    (l ++ [a]).inits = l.inits ++ [l ++ [a]] := by
  rw [List.inits_append]
  rfl

theorem curve_filterMap (f : Marking ν) (events : List (Event ν)) :
    curve (events.filterMap f)
      = (events.inits.filter fun seen => seen.getLast?.any fun e => (f e).isSome).map
          fun seen => Set.ncard {k | OpenAfter f seen k} := by
  induction events using List.reverseRecOn with
  | nil => rfl
  | append_singleton events e ih =>
      rw [inits_concat, List.filter_append, List.map_append, ← ih]
      cases hmark : f e with
      | none => simp [hmark]
      | some m =>
          have hkept : (events ++ [e]).filterMap f = events.filterMap f ++ [m] := by
            simp [hmark]
          rw [hkept, OpenKeys.curve_concat, ← hkept, ← ncard_openAfter]
          simp [hmark]

theorem series_of_eq (f : Marking ν) (events : List (Event ν)) :
    (Pass.of f events).series = exactSeries f events := by
  rw [Pass.of, Pass.series, exactSeries, OpenKeys.peak, curve_filterMap]

/-- Both passes show, at every event they count, how many keys are open. -/
theorem curves_exact (a : ActiveKeys ν) (eventNames : List String) (events : List (Event ν)) :
    seriesForActiveKeys a events = exactSeries (activeMark a) events ∧
      stageSeries eventNames events = exactSeries (stageMark eventNames) events := by
  rw [seriesForActiveKeys_eq, stageSeries_eq]
  exact ⟨series_of_eq _ events, series_of_eq _ events⟩

end Exact

/-! ## Rates -/

section Rates

/-- The buckets count the seconds, each second in one bucket. -/
structure Counted (seconds : List DateTime) (buckets : List (DateTime × ℕ)) : Prop where
  counts : ∀ b ∈ buckets, b.2 = seconds.countP fun s => decide (s.instant = b.1.instant)
  keys : ∀ i, i ∈ buckets.map (fun b => b.1.instant) ↔ i ∈ seconds.map DateTime.instant
  nodup : (buckets.map fun b => b.1.instant).Nodup

variable {seconds : List DateTime} {buckets : List (DateTime × ℕ)}

theorem Counted.countUp (h : Counted seconds buckets) (s : DateTime) :
    Counted (seconds ++ [s]) (countUp buckets s) := by
  have hcount : ∀ b : DateTime, (seconds ++ [s]).countP (fun t => decide (t.instant = b.instant))
      = seconds.countP (fun t => decide (t.instant = b.instant))
        + if s.instant = b.instant then 1 else 0 := by
    intro b
    rw [List.countP_append, List.countP_singleton]
    simp only [decide_eq_true_eq]
  unfold Ops.countUp
  split
  · rename_i hmem
    have hkeys : (buckets.map fun b => if b.1.instant = s.instant then (b.1, b.2 + 1) else b).map
        (fun b => b.1.instant) = buckets.map fun b => b.1.instant := by
      rw [List.map_map]
      refine List.map_congr_left fun b _ => ?_
      dsimp only [Function.comp_apply]
      split <;> rfl
    refine ⟨?_, fun i => ?_, hkeys ▸ h.nodup⟩
    · rw [List.forall_mem_map]
      intro b hb
      have hb := h.counts b hb
      split
      · rename_i heq
        rw [hcount, if_pos heq.symm, ← hb]
      · rename_i hne
        rw [hcount, if_neg fun heq => hne heq.symm, ← hb]
        rfl
    · rw [hkeys, h.keys, List.map_append, List.mem_append]
      refine (or_iff_left_of_imp fun hi => ?_).symm
      rw [List.map_singleton, List.mem_singleton] at hi
      rw [hi]
      exact (h.keys _).mp hmem
  · rename_i hmem
    have hnew : s.instant ∉ seconds.map DateTime.instant := fun hs => hmem ((h.keys _).mpr hs)
    refine ⟨?_, fun i => ?_, ?_⟩
    · rw [List.forall_mem_append, List.forall_mem_singleton]
      refine ⟨fun b hb => ?_, ?_⟩
      · have hne : s.instant ≠ b.1.instant := by
          intro heq
          exact hmem (List.mem_map.mpr ⟨b, hb, heq.symm⟩)
        rw [hcount, if_neg hne]
        exact h.counts b hb
      · rw [hcount, if_pos rfl]
        have hzero : seconds.countP (fun t => decide (t.instant = s.instant)) = 0 := by
          refine List.countP_eq_zero.mpr fun t ht heq => hnew ?_
          exact List.mem_map.mpr ⟨t, ht, of_decide_eq_true heq⟩
        rw [hzero]
    · rw [List.map_append, List.map_append, List.mem_append, List.mem_append, h.keys]
      rfl
    · rw [List.map_append]
      refine List.nodup_append.mpr ⟨h.nodup, List.nodup_singleton _, ?_⟩
      rintro i hi j hj rfl
      rw [List.map_singleton, List.mem_singleton] at hj
      exact hmem (hj ▸ hi)

theorem counted_countUp (seconds : List DateTime) :
    Counted seconds (seconds.foldl countUp []) := by
  induction seconds using List.reverseRecOn with
  | nil => exact ⟨fun b hb => absurd hb List.not_mem_nil, fun i => Iff.rfl, List.nodup_nil⟩
  | append_singleton seconds s ih =>
      rw [List.foldl_append]
      exact ih.countUp s

/-- The seconds in which the events that are counted occurred. -/
def secondsOf (eventName : String) (phase : TimelineEventPhase) (events : List (Event ν)) :
    List DateTime :=
  (events.filter fun e => decide (e.eventName = eventName ∧ e.eventPhase = phase)).map
    fun e => secondOf e.occurredAt

theorem rateBuckets_eq (eventName : String) (phase : TimelineEventPhase)
    (events : List (Event ν)) :
    rateBuckets eventName phase events = (secondsOf eventName phase events).foldl countUp [] := by
  induction events using List.reverseRecOn with
  | nil => rfl
  | append_singleton events e ih =>
      rw [rateBuckets] at ih ⊢
      rw [List.foldl_append, ih, List.foldl_cons, List.foldl_nil, secondsOf, secondsOf,
        List.filter_append, List.map_append, List.foldl_append, List.filter_singleton]
      by_cases hmatch : e.eventName = eventName ∧ e.eventPhase = phase
      · rw [if_neg (by simp [hmatch]), decide_eq_true hmatch]
        rfl
      · rw [if_pos (by rw [not_and_or] at hmatch; exact hmatch), decide_eq_false hmatch]
        rfl

/-- A rate curve has every second once, in order, with the number of its events. -/
theorem eventRateSeries_exact (eventName : String) (phase : TimelineEventPhase)
    (events : List (Event ν)) :
    let series := eventRateSeries eventName phase events
    let seconds := secondsOf eventName phase events
    series.counts = series.times.map (fun t =>
        seconds.countP fun s => decide (s.instant = t.instant)) ∧
      series.times.Pairwise (fun t u => t.instant < u.instant) ∧
      series.counts.sum = seconds.length ∧ series.peak = series.counts.foldl max 0 := by
  intro series seconds
  have hbuckets := counted_countUp (secondsOf eventName phase events)
  rw [← rateBuckets_eq] at hbuckets
  have hperm := (rateBuckets eventName phase events).mergeSort_perm fun b c =>
    decide (b.1.instant ≤ c.1.instant)
  have hcounts : series.counts = series.times.map fun t =>
      seconds.countP fun s => decide (s.instant = t.instant) := by
    simp only [series, eventRateSeries, List.map_map]
    refine List.map_congr_left fun b hb => ?_
    exact hbuckets.counts b (hperm.mem_iff.mp hb)
  refine ⟨hcounts, ?_, ?_, rfl⟩
  · have hsorted := (SortKey.of_decide fun b : DateTime × ℕ => b.1.instant).pairwise_key_mergeSort
      (rateBuckets eventName phase events)
    have hnodup : (((rateBuckets eventName phase events).mergeSort fun b c =>
        decide (b.1.instant ≤ c.1.instant)).map fun b => b.1.instant).Nodup :=
      (hperm.map _).nodup_iff.mpr hbuckets.nodup
    refine List.pairwise_map.mpr ((hsorted.and (List.pairwise_map.mp hnodup)).imp ?_)
    intro b c hbc
    exact lt_of_le_of_ne hbc.1 hbc.2
  · have hkeys : ((rateBuckets eventName phase events).map fun b => b.1.instant).Perm
        (seconds.map DateTime.instant).dedup := by
      refine (List.perm_ext_iff_of_nodup hbuckets.nodup (List.nodup_dedup _)).mpr fun i => ?_
      rw [List.mem_dedup]
      exact hbuckets.keys i
    have hcount : ∀ b : DateTime, (seconds.countP fun s => decide (s.instant = b.instant))
        = (seconds.map DateTime.instant).count b.instant := by
      intro b
      rw [List.count_eq_countP, List.countP_map]
      rfl
    calc series.counts.sum
        = (((rateBuckets eventName phase events).map fun b => b.1.instant).map fun i =>
            (seconds.map DateTime.instant).count i).sum := by
          have hsum := ((hperm.map Prod.fst).map fun t : DateTime =>
            seconds.countP fun s => decide (s.instant = t.instant)).sum_eq
          rw [hcounts]
          refine hsum.trans ?_
          rw [List.map_map, List.map_map]
          congr 1
          exact List.map_congr_left fun b _ => hcount b.1
      _ = ((seconds.map DateTime.instant).dedup.map fun i =>
            (seconds.map DateTime.instant).count i).sum := (hkeys.map _).sum_eq
      _ = seconds.length := by
          rw [List.sum_map_count_dedup_eq_length, List.length_map]

end Rates

/-! ## Parts of the whole -/

section Groups

variable {f : Marking ν} {keyFn : Event ν → String} {events : List (Event ν)}

/-- No key has events in two groups. -/
def KeepsGroups (f : Marking ν) (keyFn : Event ν → String) (events : List (Event ν)) : Prop :=
  ∀ e ∈ events, ∀ e' ∈ events, ∀ k, (f e).bind Mark.key? = some k →
    (f e').bind Mark.key? = some k → keyFn e = keyFn e'

instance : Decidable (KeepsGroups f keyFn events) :=
  decidable_of_iff (∀ e ∈ events, ∀ e' ∈ events, ∀ k ∈ (f e).bind Mark.key?,
      (f e').bind Mark.key? = some k → keyFn e = keyFn e')
    ⟨fun h e he e' he' k hk => h e he e' he' k hk, fun h e he e' he' k hk => h e he e' he' k hk⟩

theorem filterMap_group (h : KeepsGroups f keyFn events) (g : String) {part : List (Event ν)}
    (hpart : part ⊆ events) :
    ((part.filter fun e => decide (keyFn e = g)).filterMap f).filter
        (fun m => decide (m ≠ .other))
      = OpenKeys.ofKeys (fun k => events.any fun e =>
          decide ((f e).bind Mark.key? = some k ∧ keyFn e = g)) (part.filterMap f) := by
  induction part with
  | nil => rfl
  | cons e part ih =>
      obtain ⟨he, hrest⟩ := List.cons_subset.mp hpart
      have ih := ih hrest
      unfold OpenKeys.ofKeys at ih ⊢
      rw [List.filter_cons, List.filterMap_cons]
      cases hmark : f e with
      | none =>
          dsimp only
          rw [← ih]
          split
          · rw [List.filterMap_cons, hmark]
          · rfl
      | some m =>
          dsimp only
          have hgroup : ∀ k, m.key? = some k →
              ((events.any fun e' => decide ((f e').bind Mark.key? = some k ∧ keyFn e' = g))
                = true ↔ keyFn e = g) := by
            intro k hk
            have hek : (f e).bind Mark.key? = some k := by rw [hmark]; exact hk
            rw [List.any_eq_true]
            constructor
            · rintro ⟨e', he', hmatch⟩
              obtain ⟨hk', hg⟩ := of_decide_eq_true hmatch
              exact (h e he e' he' k hek hk').trans hg
            · exact fun hg => ⟨e, he, decide_eq_true ⟨hek, hg⟩⟩
          by_cases hg : keyFn e = g
          · rw [if_pos (decide_eq_true hg), List.filterMap_cons, hmark]
            dsimp only
            rw [List.filter_cons, List.filter_cons, ih]
            cases m with
            | opens k =>
                rw [if_pos (by simp), if_pos]
                exact (hgroup k rfl).mpr hg
            | closes k =>
                rw [if_pos (by simp), if_pos]
                exact (hgroup k rfl).mpr hg
            | other => rfl
          · rw [if_neg (fun hd => hg (of_decide_eq_true hd)), List.filter_cons, ih, if_neg]
            intro hany
            cases m with
            | opens k => exact hg ((hgroup k rfl).mp hany)
            | closes k => exact hg ((hgroup k rfl).mp hany)
            | other => cases hany

theorem peak_group_le (h : KeepsGroups f keyFn events) (g : String) :
    OpenKeys.peak ((events.filter fun e => decide (keyFn e = g)).filterMap f)
      ≤ OpenKeys.peak (events.filterMap f) := by
  rw [← OpenKeys.peak_filter_other, filterMap_group h g (List.Subset.refl events)]
  exact OpenKeys.peak_ofKeys_le _ _

/-- The events of a unit, of a span and of a call are in one group each. -/
structure Grouped (keyFn : Event ν → String) (events : List (Event ν)) : Prop where
  units : KeepsGroups (activeMark activeUnits) keyFn events
  stages : KeepsGroups (stageMark preVlmEvents) keyFn events
  calls : KeepsGroups (activeMark outboundVlmCalls) keyFn events

/-- The group table shares the events out, and no peak in it is above the whole's. -/
theorem groupSummary_le (h : Grouped keyFn events) :
    ((groupSummary keyFn events).map fun row => row.2.eventCount).sum = events.length ∧
    ∀ row ∈ groupSummary keyFn events,
      row.2.peakActiveUnits ≤ (groupRow events).peakActiveUnits ∧
      row.2.peakPreVlmActive ≤ (groupRow events).peakPreVlmActive ∧
      row.2.peakOutboundVlmCalls ≤ (groupRow events).peakOutboundVlmCalls := by
  constructor
  · have hcount : ∀ key, (events.filter fun e => decide (keyFn e = key)).length
        = (events.map keyFn).count key := by
      intro key
      rw [List.count_eq_countP, List.countP_map, List.countP_eq_length_filter]
      rfl
    have hperm := (List.mergeSort_perm (events.map keyFn).dedup fun a b => decide (a ≤ b)).map
      fun key => (events.map keyFn).count key
    rw [groupSummary, List.map_map]
    calc ((events.map keyFn).dedup.mergeSort (fun a b => decide (a ≤ b)) |>.map
          ((fun row => row.2.eventCount) ∘ fun key =>
            (key, groupRow (events.filter fun e => decide (keyFn e = key))))).sum
        = (((events.map keyFn).dedup.mergeSort fun a b => decide (a ≤ b)).map
            fun key => (events.map keyFn).count key).sum := by
          congr 1
          exact List.map_congr_left fun key _ => hcount key
      _ = ((events.map keyFn).dedup.map fun key => (events.map keyFn).count key).sum :=
          hperm.sum_eq
      _ = events.length := by
          rw [List.sum_map_count_dedup_eq_length, List.length_map]
  · intro row hrow
    obtain ⟨key, -, rfl⟩ := List.mem_map.mp hrow
    simp only [groupRow, seriesForActiveKeys_eq, stageSeries_eq, Pass.series, Pass.of]
    exact ⟨peak_group_le h.units key, peak_group_le h.stages key, peak_group_le h.calls key⟩

end Groups

def unitEvent (eventId eventName : String) (eventPhase : TimelineEventPhase)
    (unitId unitKind : String) (at_ : ℤ) : Event ℤ where
  timelineEventId := eventId
  traceId := "job_1"
  spanId := none
  parentSpanId := none
  analysisJobId := some "job_1"
  taskId := none
  scaleTaskId := none
  unitId := some unitId
  modelCallId := none
  videoId := some "video_1"
  analysisScale := some .defaultSegment
  unitKind := some unitKind
  segmentStartMs := none
  segmentEndMs := none
  eventName := eventName
  eventPhase := eventPhase
  status := none
  attemptCount := none
  occurredAt := .utc at_
  durationMs := none
  errorCode := none
  errorMessage := none
  correlation := .obj []
  metadata := .obj []
  createdAt := .utc at_

/-- A unit of each kind, at the same time. -/
def twoUnits : List (Event ℤ) :=
  [unitEvent "e1" "unit_running" .instant "u1" "segment" 1,
    unitEvent "e2" "unit_running" .instant "u2" "window" 2,
    unitEvent "e3" "detector_gate" .start "u2" "window" 3,
    unitEvent "e4" "unit_finished" .instant "u1" "segment" 4]

theorem groupSummary_le_twoUnits :
    ((groupSummary eventUnitKind twoUnits).map fun row => row.2.eventCount).sum = 4 ∧
    ∀ row ∈ groupSummary eventUnitKind twoUnits,
      row.2.peakActiveUnits ≤ (groupRow twoUnits).peakActiveUnits ∧
      row.2.peakPreVlmActive ≤ (groupRow twoUnits).peakPreVlmActive ∧
      row.2.peakOutboundVlmCalls ≤ (groupRow twoUnits).peakOutboundVlmCalls :=
  groupSummary_le ⟨by decide +kernel, by decide +kernel, by decide +kernel⟩

end CctvMemory.Ops
