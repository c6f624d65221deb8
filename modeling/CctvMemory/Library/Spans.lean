import Mathlib.Data.List.SplitBy
import Mathlib.Order.MinMax

/-!
# Spans that are joined across small gaps

A list of spans in order of time, each with a peak. `coalesce` joins a span to
the latest one when the gap between them is small, the way a loop over the list
does. On spans whose ends are in order it is the list of the hulls of the
maximal runs of near spans (`coalesce_eq_hulls`), which lie more than the gap
apart and start where a span opens (`exists_hull_start_iff`).
-/

namespace Spans

variable {π : Type*}

structure Span (π : Type*) where
  start : ℕ
  stop : ℕ
  peak : π
deriving DecidableEq, Repr

/-- `s` starts at most `gap` behind the end of `r`. -/
def near (gap : ℕ) (r s : Span π) : Bool := decide (s.start ≤ r.stop + gap)

/-- In order: no span ends before it starts, or starts or ends before an earlier
one does. -/
structure Ordered (spans : List (Span π)) : Prop where
  proper : ∀ s ∈ spans, s.start ≤ s.stop
  starts : spans.Pairwise fun r s => r.start ≤ s.start
  stops : spans.Pairwise fun r s => r.stop ≤ s.stop

/-- A span that no earlier one comes near to. -/
def Opens (gap : ℕ) (spans : List (Span π)) (t : Span π) : Prop :=
  t ∈ spans ∧ ∀ s ∈ spans, s.start < t.start → s.stop + gap < t.start

theorem Ordered.tail {a : Span π} {l : List (Span π)} (h : Ordered (a :: l)) : Ordered l :=
  ⟨fun s hs => h.proper s (List.mem_cons_of_mem a hs), h.starts.of_cons, h.stops.of_cons⟩

section Join

variable [LinearOrder π]

def Span.join (r s : Span π) : Span π := ⟨r.start, max r.stop s.stop, max r.peak s.peak⟩

/-- Join a span to the latest one, or put it behind; the latest comes first. -/
def joinLast (gap : ℕ) : List (Span π) → Span π → List (Span π)
  | [], s => [s]
  | last :: older, s =>
      if s.start ≤ last.stop + gap then last.join s :: older else s :: last :: older

def coalesce (gap : ℕ) (spans : List (Span π)) : List (Span π) :=
  (spans.foldl (joinLast gap) []).reverse

/-- One span over all of them. -/
def hull (spans : List (Span π)) : Option (Span π) :=
  spans.foldl (fun h s => some ((h.map fun r => r.join s).getD s)) none

/-- The hulls of the maximal runs of near spans. -/
def hulls (gap : ℕ) (spans : List (Span π)) : List (Span π) :=
  (spans.splitBy (near gap)).filterMap hull

variable {gap : ℕ}

/-! ## Joining as a loop -/

/-- A span and one that starts at its end are joined as one. -/
theorem joinLast_touching {r s : Span π} (hstart : s.start = r.stop) (hstop : r.stop ≤ s.stop)
    (acc : List (Span π)) :
    joinLast gap (joinLast gap acc r) s
      = joinLast gap acc ⟨r.start, s.stop, max r.peak s.peak⟩ := by
  cases acc with
  | nil =>
      have hnear : s.start ≤ r.stop + gap := by omega
      simp [joinLast, hnear, Span.join, hstop]
  | cons last older =>
      by_cases h : r.start ≤ last.stop + gap
      · have hnear : s.start ≤ (last.join r).stop + gap := by
          simp only [Span.join]
          omega
        have hstops : max (max last.stop r.stop) s.stop = max last.stop s.stop := by omega
        have hfirst : joinLast gap (last :: older) r = last.join r :: older := if_pos h
        have hsecond : joinLast gap (last.join r :: older) s = (last.join r).join s :: older :=
          if_pos hnear
        have hboth : joinLast gap (last :: older) ⟨r.start, s.stop, max r.peak s.peak⟩
            = last.join ⟨r.start, s.stop, max r.peak s.peak⟩ :: older := if_pos h
        rw [hfirst, hsecond, hboth]
        simp only [Span.join, hstops, max_assoc]
      · have hnear : s.start ≤ r.stop + gap := by omega
        simp [joinLast, h, hnear, Span.join, hstop]

theorem hull_concat (spans : List (Span π)) (s : Span π) :
    hull (spans ++ [s]) = some (((hull spans).map fun r => r.join s).getD s) := by
  unfold hull
  rw [List.foldl_append]
  rfl

theorem exists_hull_of_mem {spans : List (Span π)} {s : Span π} (hs : s ∈ spans) :
    ∃ b, hull spans = some b := by
  cases spans using List.reverseRecOn with
  | nil => cases hs
  | append_singleton spans r => exact ⟨_, hull_concat spans r⟩

/-- The hulls of the runs that are closed and of the open one. -/
theorem filterMap_hull_run {a : Span π} {g : List (Span π)} {gs : List (List (Span π))}
    {h : Span π} {acc : List (Span π)} (hhull : hull (a :: g).reverse = some h)
    (hacc : gs.reverse.filterMap hull = acc.reverse) :
    ((a :: g).reverse :: gs).reverse.filterMap hull = (h :: acc).reverse := by
  have hrun : [(a :: g).reverse].filterMap hull = [h] := by
    rw [List.filterMap_cons_some hhull, List.filterMap_nil]
  rw [List.reverse_cons , List.filterMap_append, hacc, hrun, List.reverse_cons]

/-- The loop is that of `splitBy`; `h` is the hull of the run that is open. -/
theorem foldl_joinLast_eq {l : List (Span π)} :
    ∀ {a : Span π} {g : List (Span π)} {gs : List (List (Span π))} {h : Span π}
      {acc : List (Span π)},
      (a :: l).Pairwise (fun r s => r.stop ≤ s.stop) → hull (a :: g).reverse = some h →
      h.stop = a.stop → gs.reverse.filterMap hull = acc.reverse →
      (l.foldl (joinLast gap) (h :: acc)).reverse
        = (List.splitBy.loop (near gap) l a g gs).filterMap hull := by
  induction l with
  | nil =>
      intro a g gs h acc _ hhull _ hacc
      rw [List.foldl_nil, List.splitBy.loop, filterMap_hull_run hhull hacc]
  | cons b l ih =>
      intro a g gs h acc hstops hhull hstop hacc
      have hle : a.stop ≤ b.stop := (List.pairwise_cons.mp hstops).1 b List.mem_cons_self
      have hrest := (List.pairwise_cons.mp hstops).2
      rw [List.foldl_cons, List.splitBy.loop]
      by_cases hnear : b.start ≤ a.stop + gap
      · have hb : near gap a b = true := decide_eq_true hnear
        rw [hb]
        have hjoin : joinLast gap (h :: acc) b = h.join b :: acc := by
          simp [joinLast, hstop, hnear]
        rw [hjoin]
        apply ih hrest _ _ hacc
        · rw [List.reverse_cons, hull_concat, hhull]
          rfl
        · simp only [Span.join]
          omega
      · have hb : near gap a b = false := decide_eq_false hnear
        rw [hb]
        have hjoin : joinLast gap (h :: acc) b = b :: h :: acc := by
          simp [joinLast, hstop, hnear]
        rw [hjoin]
        exact ih hrest rfl rfl (filterMap_hull_run hhull hacc)

theorem coalesce_eq_hulls {spans : List (Span π)} (h : Ordered spans) :
    coalesce gap spans = hulls gap spans := by
  unfold coalesce hulls
  cases spans with
  | nil => rfl
  | cons a l => exact foldl_joinLast_eq h.stops rfl rfl rfl

/-- Joined spans lie more than the gap apart. -/
theorem pairwise_foldl_joinLast {l : List (Span π)} (hl : ∀ s ∈ l, s.start ≤ s.stop)
    {acc : List (Span π)} (hacc : ∀ b ∈ acc, b.start ≤ b.stop)
    (hpair : acc.Pairwise fun b b' => b'.stop + gap < b.start) :
    (∀ b ∈ l.foldl (joinLast gap) acc, b.start ≤ b.stop) ∧
      (l.foldl (joinLast gap) acc).Pairwise fun b b' => b'.stop + gap < b.start := by
  induction l generalizing acc with
  | nil => exact ⟨hacc, hpair⟩
  | cons s l ih =>
      have hs : s.start ≤ s.stop := hl s List.mem_cons_self
      have hrest : ∀ r ∈ l, r.start ≤ r.stop := fun r hr => hl r (List.mem_cons_of_mem s hr)
      rw [List.foldl_cons]
      cases acc with
      | nil => exact ih hrest (by simpa [joinLast] using hs) (List.pairwise_singleton _ _)
      | cons last older =>
          have hlast : last.start ≤ last.stop := hacc last List.mem_cons_self
          obtain ⟨holder, hpair'⟩ := List.pairwise_cons.mp hpair
          by_cases hnear : s.start ≤ last.stop + gap
          · have hjoin : joinLast gap (last :: older) s = last.join s :: older := if_pos hnear
            rw [hjoin]
            apply ih hrest
            · intro b hb
              rcases List.mem_cons.mp hb with rfl | hb
              · exact le_max_of_le_left hlast
              · exact hacc b (List.mem_cons_of_mem last hb)
            · exact List.pairwise_cons.mpr ⟨holder, hpair'⟩
          · have hjoin : joinLast gap (last :: older) s = s :: last :: older := if_neg hnear
            rw [hjoin]
            apply ih hrest
            · intro b hb
              rcases List.mem_cons.mp hb with rfl | hb
              · exact hs
              · exact hacc b hb
            · refine List.pairwise_cons.mpr ⟨fun b hb => ?_, hpair⟩
              rcases List.mem_cons.mp hb with rfl | hb
              · omega
              · have := holder b hb
                omega

theorem pairwise_coalesce {spans : List (Span π)} (h : ∀ s ∈ spans, s.start ≤ s.stop) :
    (coalesce gap spans).Pairwise fun b b' => b.stop + gap < b'.start := by
  unfold coalesce
  rw [List.pairwise_reverse]
  exact (pairwise_foldl_joinLast h (fun b hb => absurd hb List.not_mem_nil)
    List.Pairwise.nil).2

theorem proper_coalesce {spans : List (Span π)} (h : ∀ s ∈ spans, s.start ≤ s.stop) :
    ∀ b ∈ coalesce gap spans, b.start ≤ b.stop := by
  intro b hb
  exact (pairwise_foldl_joinLast h (fun b hb => absurd hb List.not_mem_nil)
    List.Pairwise.nil).1 b (List.mem_reverse.mp hb)

/-! ## What the hulls are -/

/-- The hull starts where the first span does, and no span sticks out. -/
theorem hull_spec {spans : List (Span π)} (hspans : Ordered spans) {b : Span π}
    (h : hull spans = some b) :
    (∃ s ∈ spans, s.start = b.start) ∧ ∀ s ∈ spans, b.start ≤ s.start ∧ s.stop ≤ b.stop := by
  induction spans using List.reverseRecOn generalizing b with
  | nil => cases h
  | append_singleton spans s ih =>
      rw [hull_concat] at h
      have hspans' : Ordered spans :=
        ⟨fun r hr => hspans.proper r (List.mem_append_left _ hr),
          (List.pairwise_append.mp hspans.starts).1, (List.pairwise_append.mp hspans.stops).1⟩
      have hlater := (List.pairwise_append.mp hspans.starts).2.2
      cases hh : hull spans with
      | none =>
          rw [hh] at h
          obtain rfl := Option.some.inj h
          have hnil : spans = [] := by
            refine List.eq_nil_iff_forall_not_mem.mpr fun r hr => ?_
            obtain ⟨b, hb⟩ := exists_hull_of_mem hr
            rw [hh] at hb
            cases hb
          subst hnil
          simp
      | some r =>
          rw [hh] at h
          obtain rfl := Option.some.inj h
          obtain ⟨⟨x, hx, hstart⟩, hcover⟩ := ih hspans' hh
          refine ⟨⟨x, List.mem_append_left _ hx, hstart⟩, fun y hy => ?_⟩
          rcases List.mem_append.mp hy with hy | hy
          · exact ⟨(hcover y hy).1, le_max_of_le_left (hcover y hy).2⟩
          · obtain rfl := List.mem_singleton.mp hy
            have hle : x.start ≤ y.start := hlater x hx y (List.mem_singleton.mpr rfl)
            exact ⟨hstart ▸ hle, le_max_right _ _⟩

omit [LinearOrder π] in
theorem ordered_of_mem_splitBy {spans c : List (Span π)} (h : Ordered spans)
    (hc : c ∈ spans.splitBy (near gap)) : Ordered c := by
  have hsub : c.Sublist spans := by
    have hflat := List.sublist_flatten_of_mem hc
    rwa [List.flatten_splitBy] at hflat
  exact ⟨fun s hs => h.proper s (hsub.subset hs), h.starts.sublist hsub, h.stops.sublist hsub⟩

/-- Every span lies in a hull. -/
theorem exists_hull {spans : List (Span π)} (h : Ordered spans) {s : Span π} (hs : s ∈ spans) :
    ∃ b ∈ hulls gap spans, b.start ≤ s.start ∧ s.stop ≤ b.stop := by
  rw [← List.flatten_splitBy (near gap) spans] at hs
  obtain ⟨c, hc, hsc⟩ := List.mem_flatten.mp hs
  obtain ⟨b, hb⟩ := exists_hull_of_mem hsc
  exact ⟨b, List.mem_filterMap.mpr ⟨c, hc, hb⟩,
    (hull_spec (ordered_of_mem_splitBy h hc) hb).2 s hsc⟩

omit [LinearOrder π] in
/-- In a chain of near spans, one that starts before a time at which another
starts comes near to it. -/
theorem exists_near_of_isChain {a t : Span π} {l : List (Span π)}
    (hchain : (a :: l).IsChain fun r s => near gap r s) (h : Ordered (a :: l)) (ht : t ∈ l)
    (hlt : a.start < t.start) :
    ∃ r ∈ a :: l, r.start < t.start ∧ t.start ≤ r.stop + gap := by
  induction l generalizing a with
  | nil => cases ht
  | cons b l ih =>
      obtain ⟨hab, hrest⟩ := List.isChain_cons_cons.mp hchain
      have hnear : b.start ≤ a.stop + gap := of_decide_eq_true hab
      rcases List.mem_cons.mp ht with rfl | ht'
      · exact ⟨a, List.mem_cons_self, hlt, hnear⟩
      · have hle : b.start ≤ t.start :=
          List.rel_of_pairwise_cons (List.pairwise_cons.mp h.starts).2 ht'
        rcases Nat.lt_or_eq_of_le hle with hbt | hbt
        · obtain ⟨r, hr, hspan⟩ := ih hrest h.tail ht' hbt
          exact ⟨r, List.mem_cons_of_mem a hr, hspan⟩
        · exact ⟨a, List.mem_cons_self, hlt, hbt ▸ hnear⟩

/-- A hull starts where a span does. -/
theorem exists_start {spans : List (Span π)} (h : Ordered spans) {b : Span π}
    (hb : b ∈ hulls gap spans) : ∃ s ∈ spans, s.start = b.start := by
  obtain ⟨c, hc, hhull⟩ := List.mem_filterMap.mp hb
  obtain ⟨s, hs, hstart⟩ := (hull_spec (ordered_of_mem_splitBy h hc) hhull).1
  refine ⟨s, ?_, hstart⟩
  rw [← List.flatten_splitBy (near gap) spans]
  exact List.mem_flatten.mpr ⟨c, hc, hs⟩

theorem pairwise_hulls {spans : List (Span π)} (h : Ordered spans) :
    (hulls gap spans).Pairwise fun b b' => b.stop + gap < b'.start := by
  rw [← coalesce_eq_hulls h]
  exact pairwise_coalesce h.proper

theorem proper_hulls {spans : List (Span π)} (h : Ordered spans) {b : Span π}
    (hb : b ∈ hulls gap spans) : b.start ≤ b.stop := by
  rw [← coalesce_eq_hulls h] at hb
  exact proper_coalesce h.proper b hb

/-- A hull that starts before another one ends more than the gap before it. -/
theorem stop_lt_of_start_lt {spans : List (Span π)} (h : Ordered spans) {b b' : Span π}
    (hb : b ∈ hulls gap spans) (hb' : b' ∈ hulls gap spans) (hlt : b.start < b'.start) :
    b.stop + gap < b'.start := by
  have hne : b ≠ b' := fun heq => absurd hlt (heq ▸ Nat.lt_irrefl _)
  obtain ⟨i, hi, rfl⟩ := List.getElem_of_mem hb
  obtain ⟨j, hj, rfl⟩ := List.getElem_of_mem hb'
  rcases Nat.lt_trichotomy i j with hij | rfl | hji
  · exact List.pairwise_iff_getElem.mp (pairwise_hulls h) i j hi hj hij
  · exact absurd rfl hne
  · have hback := List.pairwise_iff_getElem.mp (pairwise_hulls h) j i hj hi hji
    have hproper := proper_hulls h hb'
    omega

/-- The hulls start where the spans open. -/
theorem exists_hull_start_iff {spans : List (Span π)} (h : Ordered spans) {n : ℕ} :
    (∃ b ∈ hulls gap spans, b.start = n) ↔ ∃ t, Opens gap spans t ∧ t.start = n := by
  constructor
  · rintro ⟨b, hb, rfl⟩
    obtain ⟨t, ht, hstart⟩ := exists_start h hb
    refine ⟨t, ⟨ht, fun s hs hlt => ?_⟩, hstart⟩
    obtain ⟨b', hb', hle, hstop⟩ : ∃ b' ∈ hulls gap spans, b'.start ≤ s.start ∧ s.stop ≤ b'.stop :=
      exists_hull h hs
    have hsep := stop_lt_of_start_lt h hb' hb (by omega)
    omega
  · rintro ⟨t, ⟨ht, hopens⟩, rfl⟩
    rw [← List.flatten_splitBy (near gap) spans] at ht
    obtain ⟨c, hc, htc⟩ := List.mem_flatten.mp ht
    have hsub : c ⊆ spans := by
      have hflat := List.sublist_flatten_of_mem hc
      rw [List.flatten_splitBy] at hflat
      exact hflat.subset
    have hordered := ordered_of_mem_splitBy h hc
    cases c with
    | nil => cases htc
    | cons a l =>
        obtain ⟨b, hb⟩ := exists_hull_of_mem htc
        refine ⟨b, List.mem_filterMap.mpr ⟨_, hc, hb⟩, ?_⟩
        obtain ⟨⟨x, hx, hstart⟩, hcover⟩ := hull_spec hordered hb
        have hax : a.start ≤ x.start := by
          rcases List.mem_cons.mp hx with rfl | hx
          · exact Nat.le_refl _
          · exact List.rel_of_pairwise_cons hordered.starts hx
        by_contra hne
        have hlt : a.start < t.start := by
          have := (hcover t htc).1
          omega
        rcases List.mem_cons.mp htc with rfl | htl
        · exact Nat.lt_irrefl _ hlt
        · obtain ⟨r, hr, hrt, hnear⟩ := exists_near_of_isChain
            (List.isChain_of_mem_splitBy hc) hordered htl hlt
          have := hopens r (hsub hr) hrt
          omega

end Join

end Spans
