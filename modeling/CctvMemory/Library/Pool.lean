import CctvMemory.Library.Act
import Mathlib.Data.List.Nodup

/-!
# Threads that each act on a part of their own

`Parts` splits a state into parts named by keys; a program on one part is
lifted to the whole state by `zoom`. `pool` runs a list of programs under a
schedule of thread numbers, one step at a time, and then lets the rest finish.

* `run_pool_zoom`: threads on different parts end as if each had run alone on
  its part, whatever the schedule.
-/

namespace Act

open Prog

/-! ## Parts of a state -/

/-- Independent parts of a state, and the effect of outputs on the rest. -/
structure Parts (κ σ τ ω : Type) where
  get : κ → σ → τ
  put : κ → τ → σ → σ
  emit : ω → σ → σ
  get_put_self : ∀ k v s, get k (put k v s) = v
  get_put_of_ne : ∀ {k k'} v s, k ≠ k' → get k' (put k v s) = get k' s
  get_emit : ∀ k o s, get k (emit o s) = get k s

namespace Parts

variable {κ σ τ ω ρ α : Type} (P : Parts κ σ τ ω)

def emitAll (out : List ω) (s : σ) : σ := out.foldl (fun s o => P.emit o s) s

@[simp] theorem get_emitAll (k : κ) (out : List ω) (s : σ) :
    P.get k (P.emitAll out s) = P.get k s := by
  induction out generalizing s with
  | nil => rfl
  | cons o out ih => exact (ih (P.emit o s)).trans (P.get_emit k o s)

/-- Replace the part `k` and carry out the outputs. -/
def update (k : κ) (r : τ × List ω) (s : σ) : σ := P.emitAll r.2 (P.put k r.1 s)

@[simp] theorem get_update_self (k : κ) (r : τ × List ω) (s : σ) :
    P.get k (P.update k r s) = r.1 := by
  rw [update, get_emitAll, P.get_put_self]

theorem get_update_of_ne {k k' : κ} (r : τ × List ω) (s : σ) (h : k ≠ k') :
    P.get k' (P.update k r s) = P.get k' s := by
  rw [update, get_emitAll, P.get_put_of_ne _ _ h]

/-- A program on the part `k`, on the whole state. -/
def zoom (k : κ) : Prog τ ω α → Prog σ ρ α
  | .ret a => .ret a
  | .atomic next c =>
      .atomic (fun s => (P.update k (next (P.get k s)) s, [])) fun s => zoom k (c (P.get k s))

theorem run_zoom (k : κ) (p : Prog τ ω α) (s : σ) :
    ((P.zoom k p : Prog σ ρ α).run s).1 = (p.run (P.get k s)).1 ∧
    P.get k ((P.zoom k p : Prog σ ρ α).run s).2 = (p.run (P.get k s)).2 := by
  induction p generalizing s with
  | ret a => exact ⟨rfl, rfl⟩
  | atomic next c ih =>
      have hnext := ih (P.get k s) (P.update k (next (P.get k s)) s)
      rw [get_update_self] at hnext
      exact hnext

/-- A program that keeps `J` on its part keeps `I` on the whole, where `I` gives
`J` and writing a part with `J` keeps `I`. -/
theorem always_zoom_of {I : σ → Prop} {J : τ → Prop} {k : κ} (hget : ∀ s, I s → J (P.get k s))
    (hput : ∀ v s, J v → I s → I (P.put k v s)) (hemit : ∀ o s, I s → I (P.emit o s))
    {p : Prog τ ω α} (hp : p.Always J) : (P.zoom k p : Prog σ ρ α).Always I := by
  have hall : ∀ out s, I s → I (P.emitAll out s) := by
    intro out
    induction out with
    | nil => exact fun s hs => hs
    | cons o out ih => exact fun s hs => ih _ (hemit o s hs)
  induction p with
  | ret a => exact trivial
  | atomic next c ih =>
      intro s hs
      obtain ⟨hnext, hrest⟩ := hp (P.get k s) (hget s hs)
      exact ⟨hall _ _ (hput _ _ hnext hs), ih (P.get k s) hrest⟩

theorem always_zoom {I : σ → Prop} {k : κ} (hput : ∀ v s, I s → I (P.put k v s))
    (hemit : ∀ o s, I s → I (P.emit o s)) (p : Prog τ ω α) :
    (P.zoom k p : Prog σ ρ α).Always I :=
  P.always_zoom_of (J := fun _ => True) (fun _ _ => trivial) (fun v s _ => hput v s) hemit
    (Prog.always_true p)

end Parts

/-! ## Pools -/

variable {κ σ τ ω ρ α : Type}

/-- Run the programs one after the other. -/
def inTurn : List (Prog σ ω α) → Prog σ ω (List α)
  | [] => .ret []
  | p :: ps => p.bind fun a => (inTurn ps).bind fun as => .ret (a :: as)

/-- Run the programs under a schedule: each entry is one step of the thread of
that number, and what is left at its end runs in turn. -/
def pool : List ℕ → List (Prog σ ω α) → Prog σ ω (List α)
  | [], ps => inTurn ps
  | i :: sched, ps =>
      match ps[i]? with
      | some (.atomic next k) => .atomic next fun s => pool sched (ps.set i (k s))
      | _ => pool sched ps

theorem always_inTurn {I : σ → Prop} {ps : List (Prog σ ω α)}
    (h : ∀ p ∈ ps, p.Always I) : (inTurn ps).Always I := by
  induction ps with
  | nil => exact trivial
  | cons p ps ih =>
      refine Prog.Always.bind (h p List.mem_cons_self) fun a => ?_
      exact Prog.Always.bind (ih fun q hq => h q (List.mem_cons_of_mem _ hq)) fun as => trivial

theorem always_pool {I : σ → Prop} {ps : List (Prog σ ω α)} (sched : List ℕ)
    (h : ∀ p ∈ ps, p.Always I) : (pool sched ps).Always I := by
  induction sched generalizing ps with
  | nil => exact always_inTurn h
  | cons i sched ih =>
      unfold pool
      split
      · rename_i next k hi
        intro s hs
        have hp := h _ (List.mem_of_getElem? hi) s hs
        refine ⟨hp.1, ih fun q hq => ?_⟩
        rcases List.mem_or_eq_of_mem_set hq with hq | rfl
        · exact h q hq
        · exact hp.2
      · exact ih h

/-- One thread of a pool: the part it acts on and its program. -/
abbrev Thread (κ τ ω α : Type) := κ × Prog τ ω α

section Run

variable (P : Parts κ σ τ ω)

/-- How a pool ended: thread by thread as if run alone, other parts untouched. -/
structure EndedAlone (threads : List (Thread κ τ ω α)) (s : σ) (results : List α) (s' : σ) :
    Prop where
  results : results = threads.map fun t => (t.2.run (P.get t.1 s)).1
  parts : ∀ t ∈ threads, P.get t.1 s' = (t.2.run (P.get t.1 s)).2
  others : ∀ k, k ∉ threads.map Prod.fst → P.get k s' = P.get k s

theorem run_inTurn_zoom {threads : List (Thread κ τ ω α)}
    (hnd : (threads.map Prod.fst).Nodup) (s : σ) :
    EndedAlone P threads s
      ((inTurn (threads.map fun t => (P.zoom t.1 t.2 : Prog σ ρ α))).run s).1
      ((inTurn (threads.map fun t => (P.zoom t.1 t.2 : Prog σ ρ α))).run s).2 := by
  induction threads generalizing s with
  | nil => exact ⟨rfl, fun t ht => (by cases ht), fun k _ => rfl⟩
  | cons t threads ih =>
      rw [List.map_cons, List.nodup_cons] at hnd
      obtain ⟨hres, hpart⟩ := P.run_zoom (ρ := ρ) t.1 t.2 s
      set s₁ := ((P.zoom t.1 t.2 : Prog σ ρ α).run s).2 with hs₁
      -- the first thread leaves the parts of the others as they were
      have hother : ∀ k, k ≠ t.1 → P.get k s₁ = P.get k s := by
        intro k hk
        refine Prog.run_frame (P.get k) (fun c => P.always_zoom ?_ ?_ t.2) s
        · intro v s hs
          rw [P.get_put_of_ne v s (Ne.symm hk), hs]
        · intro o s hs
          rw [P.get_emit, hs]
      have hkeep : ∀ t' ∈ threads, P.get t'.1 s₁ = P.get t'.1 s := by
        intro t' ht'
        exact hother t'.1 fun he => hnd.1 (he ▸ List.mem_map_of_mem ht')
      obtain ⟨hresults, hparts, hothers⟩ := ih hnd.2 s₁
      have hrun : ∀ qs : List (Prog σ ρ α),
          (inTurn ((P.zoom t.1 t.2 : Prog σ ρ α) :: qs)).run s
            = (((P.zoom t.1 t.2 : Prog σ ρ α).run s).1 :: ((inTurn qs).run s₁).1,
                ((inTurn qs).run s₁).2) := by
        intro qs
        show (Prog.bind _ _).run s = _
        rw [Prog.run_bind, Prog.run_bind]
        rfl
      rw [List.map_cons, hrun]
      refine ⟨?_, ?_, ?_⟩
      · rw [List.map_cons, hres, hresults]
        refine congrArg _ (List.map_congr_left fun t' ht' => ?_)
        rw [hkeep t' ht']
      · intro t' ht'
        rcases List.mem_cons.mp ht' with rfl | ht'
        · rw [← hpart]
          exact hothers _ hnd.1
        · rw [hparts t' ht', hkeep t' ht']
      · intro k hk
        rw [List.map_cons, List.mem_cons, not_or] at hk
        rw [hothers k hk.2, hother k hk.1]

theorem keys_set {threads : List (Thread κ τ ω α)} {i : ℕ} (hi : i < threads.length) {k : κ}
    {p q : Prog τ ω α} (ht : threads[i] = (k, p)) :
    (threads.set i (k, q)).map Prod.fst = threads.map Prod.fst := by
  rw [List.map_set]
  refine List.ext_getElem (by simp) fun j hj hj' => ?_
  rw [List.getElem_set]
  split
  · rename_i hij
    subst hij
    simp [ht]
  · rfl

/-- What a thread still does is the same before and after one step of thread `i`. -/
theorem run_set {threads : List (Thread κ τ ω α)} (hnd : (threads.map Prod.fst).Nodup) {i : ℕ}
    (hi : i < threads.length) {k : κ} {next : τ → τ × List ω} {c : τ → Prog τ ω α}
    (ht : threads[i] = (k, .atomic next c)) (s : σ) {j : ℕ} (hj : j < threads.length)
    (hj' : j < (threads.set i (k, c (P.get k s))).length) :
    (threads.set i (k, c (P.get k s)))[j].2.run (P.get (threads.set i (k, c (P.get k s)))[j].1
        (P.update k (next (P.get k s)) s))
      = threads[j].2.run (P.get threads[j].1 s) := by
  by_cases hji : i = j
  · subst hji
    rw [List.getElem_set_self, ht]
    show (c _).run (P.get k (P.update k (next (P.get k s)) s)) = (Prog.atomic next c).run (P.get k s)
    rw [P.get_update_self]
    rfl
  · rw [List.getElem_set_ne hji]
    have hne : k ≠ threads[j].1 := by
      intro he
      have hikeys : i < (threads.map Prod.fst).length := by simpa using hi
      have hjkeys : j < (threads.map Prod.fst).length := by simpa using hj
      have hsame : (threads.map Prod.fst)[i] = (threads.map Prod.fst)[j] := by
        simp [ht, he]
      exact hji ((List.Nodup.getElem_inj_iff hnd).mp hsame)
    rw [P.get_update_of_ne _ _ hne]

/-- A pool that ends well after a step of thread `i` ends well from before it. -/
theorem EndedAlone.of_step {threads : List (Thread κ τ ω α)}
    (hnd : (threads.map Prod.fst).Nodup) {i : ℕ} (hi : i < threads.length) {k : κ}
    {next : τ → τ × List ω} {c : τ → Prog τ ω α} (ht : threads[i] = (k, .atomic next c))
    {s s' : σ} {results : List α}
    (h : EndedAlone P (threads.set i (k, c (P.get k s))) (P.update k (next (P.get k s)) s)
      results s') : EndedAlone P threads s results s' := by
  have hkeys := @keys_set _ _ _ _ threads i hi k _ (c (P.get k s)) ht
  obtain ⟨hresults, hparts, hothers⟩ := h
  rw [hkeys] at hothers
  refine ⟨?_, ?_, ?_⟩
  · rw [hresults]
    refine List.ext_getElem (by simp) fun j hj hj' => ?_
    rw [List.getElem_map, List.getElem_map]
    rw [List.length_map] at hj hj'
    exact congrArg Prod.fst (run_set P hnd hi ht s hj' hj)
  · intro t htmem
    obtain ⟨j, hj, rfl⟩ := List.mem_iff_getElem.mp htmem
    have hj' : j < (threads.set i (k, c (P.get k s))).length := by rwa [List.length_set]
    have hkey : (threads.set i (k, c (P.get k s)))[j].1 = threads[j].1 := by
      rw [List.getElem_set]
      split
      · rename_i hij
        subst hij
        rw [ht]
      · rfl
    rw [← hkey, hparts _ (List.getElem_mem hj'), run_set P hnd hi ht s hj hj', hkey]
  · intro k' hk'
    rw [hothers k' hk']
    refine P.get_update_of_ne _ _ fun he => hk' ?_
    rw [← he]
    exact List.mem_map.mpr ⟨threads[i], List.getElem_mem hi, by rw [ht]⟩

/-- Whatever the schedule, threads on different parts end as if each had run
alone on its part. -/
theorem run_pool_zoom {threads : List (Thread κ τ ω α)}
    (hnd : (threads.map Prod.fst).Nodup) (sched : List ℕ) (s : σ) :
    EndedAlone P threads s
      ((pool sched (threads.map fun t => (P.zoom t.1 t.2 : Prog σ ρ α))).run s).1
      ((pool sched (threads.map fun t => (P.zoom t.1 t.2 : Prog σ ρ α))).run s).2 := by
  induction sched generalizing threads s with
  | nil => exact run_inTurn_zoom P hnd s
  | cons i sched ih =>
      by_cases hi : i < threads.length
      · have hget : (threads.map fun t => (P.zoom t.1 t.2 : Prog σ ρ α))[i]?
            = some (P.zoom threads[i].1 threads[i].2) := by
          simp [hi]
        rcases ht : threads[i] with ⟨k, p⟩
        rw [ht] at hget
        cases p with
        | ret a =>
            have hskip : pool (i :: sched) (threads.map fun t => (P.zoom t.1 t.2 : Prog σ ρ α))
                = pool sched (threads.map fun t => (P.zoom t.1 t.2 : Prog σ ρ α)) := by
              rw [pool, hget]
              rfl
            rw [hskip]
            exact ih hnd s
        | atomic next c =>
            -- thread `i` takes one step on its part, the others wait
            have hstep : (pool (i :: sched)
                  (threads.map fun t => (P.zoom t.1 t.2 : Prog σ ρ α))).run s
                = (pool sched ((threads.set i (k, c (P.get k s))).map
                    fun t => (P.zoom t.1 t.2 : Prog σ ρ α))).run
                      (P.update k (next (P.get k s)) s) := by
              rw [pool, hget, List.map_set]
              rfl
            rw [hstep]
            exact EndedAlone.of_step P hnd hi ht (ih (keys_set hi ht ▸ hnd) _)
      · have hget : (threads.map fun t => (P.zoom t.1 t.2 : Prog σ ρ α))[i]? = none := by
          simpa using hi
        have hskip : pool (i :: sched) (threads.map fun t => (P.zoom t.1 t.2 : Prog σ ρ α))
            = pool sched (threads.map fun t => (P.zoom t.1 t.2 : Prog σ ρ α)) := by
          rw [pool, hget]
        rw [hskip]
        exact ih hnd s

end Run

end Act
