import CctvMemory.Library.Trace
import Mathlib.Data.List.Perm.Basic
import Mathlib.Tactic.Linarith

/-!
# A pool of workers on a list of jobs

Jobs are submitted in order to a queue, at most `maxWorkers` of them run at a
time, and their results are collected in any order once all are submitted. A
job may end with any result.

* `length_of_run`: every event brings the end nearer by one.
* `kept_of_run`, `ended_of_stuck`, `Kept.ranAll`: a run that cannot go on has run
  every job once, in the order of the list, and collected each result once.
-/

namespace Executor

open Trace

variable {ι ρ : Type*}

structure State (ι ρ : Type*) where
  toSubmit : List ι
  queue : List ι
  running : List ι
  finished : List (ι × ρ)
  collected : List (ι × ρ)
  /-- Every job that was started, in order. -/
  started : List ι

def State.initial (jobs : List ι) : State ι ρ := ⟨jobs, [], [], [], [], []⟩

inductive Event (ι ρ : Type*) where
  | submit
  | start
  | finish (i : ι) (r : ρ)
  | collect (f : ι × ρ)
  /-- The caller runs the next job itself. -/
  | runNext (r : ρ)

inductive Step (maxWorkers : ℕ) (s : State ι ρ) : Event ι ρ → State ι ρ → Prop where
  | submit {i : ι} {rest : List ι} (h : s.toSubmit = i :: rest) :
      Step maxWorkers s .submit { s with toSubmit := rest, queue := s.queue ++ [i] }
  | start {i : ι} {rest : List ι} (h : s.queue = i :: rest)
      (hfree : s.running.length < maxWorkers) :
      Step maxWorkers s .start
        { s with queue := rest, running := i :: s.running, started := s.started ++ [i] }
  | finish {before after : List ι} {i : ι} (r : ρ) (h : s.running = before ++ i :: after) :
      Step maxWorkers s (.finish i r)
        { s with running := before ++ after, finished := (i, r) :: s.finished }
  | collect {before after : List (ι × ρ)} {f : ι × ρ} (hall : s.toSubmit = [])
      (h : s.finished = before ++ f :: after) :
      Step maxWorkers s (.collect f)
        { s with finished := before ++ after, collected := s.collected ++ [f] }

/-- Without a pool: the caller runs one job after the other. -/
inductive InTurn (s : State ι ρ) : Event ι ρ → State ι ρ → Prop where
  | runNext {i : ι} {rest : List ι} (r : ρ) (h : s.toSubmit = i :: rest) :
      InTurn s (.runNext r) { s with
        toSubmit := rest, started := s.started ++ [i], collected := s.collected ++ [(i, r)] }

/-- Nothing is left to do. -/
def State.Ended (s : State ι ρ) : Prop :=
  s.toSubmit = [] ∧ s.queue = [] ∧ s.running = [] ∧ s.finished = []

/-- No event can happen. -/
def Stuck (step : State ι ρ → Event ι ρ → State ι ρ → Prop) (s : State ι ρ) : Prop :=
  ∀ e t, ¬ step s e t

/-- Jobs are started in their order, and one that was started is running, finished
or collected. -/
structure Kept (jobs : List ι) (s : State ι ρ) : Prop where
  order : s.started ++ s.queue ++ s.toSubmit = jobs
  started : s.started.Perm (s.running ++ (s.finished ++ s.collected).map Prod.fst)

theorem kept_initial (jobs : List ι) : Kept jobs (State.initial jobs : State ι ρ) :=
  ⟨rfl, List.Perm.refl _⟩

theorem Kept.step {jobs : List ι} {maxWorkers : ℕ} {s t : State ι ρ} {e : Event ι ρ}
    (hs : Kept jobs s) (h : Step maxWorkers s e t) : Kept jobs t := by
  obtain ⟨horder, hstarted⟩ := hs
  cases h with
  | submit h =>
      refine ⟨?_, hstarted⟩
      rw [← horder, h]
      simp
  | start h _ =>
      refine ⟨?_, ?_⟩
      · rw [← horder, h]
        simp
      · exact (List.perm_append_singleton _ _).trans (hstarted.cons _)
  | finish r h =>
      refine ⟨horder, hstarted.trans ?_⟩
      rw [h, List.cons_append, List.map_cons, List.append_assoc, List.append_assoc]
      exact (List.perm_middle.symm.append_left _)
  | collect _ h =>
      refine ⟨horder, hstarted.trans ?_⟩
      rw [h]
      refine List.Perm.append_left _ (List.Perm.map _ ?_)
      rw [List.append_assoc, List.append_assoc]
      refine List.Perm.append_left _ ?_
      rw [← List.append_assoc]
      exact (List.perm_append_singleton _ _).symm

theorem Kept.inTurn {jobs : List ι} {s t : State ι ρ} {e : Event ι ρ}
    (hs : Kept jobs s) (hqueue : s.queue = []) (h : InTurn s e t) : Kept jobs t := by
  obtain ⟨horder, hstarted⟩ := hs
  cases h with
  | runNext r h =>
      refine ⟨?_, ?_⟩
      · rw [← horder, h, hqueue]
        simp
      · rw [← List.append_assoc, List.map_append, ← List.append_assoc]
        exact hstarted.append_right _

/-- How many events are left. -/
def State.left (s : State ι ρ) : ℕ :=
  4 * s.toSubmit.length + 3 * s.queue.length + 2 * s.running.length + s.finished.length

theorem left_of_step {maxWorkers : ℕ} {s t : State ι ρ} {e : Event ι ρ}
    (h : Step maxWorkers s e t) : t.left + 1 = s.left := by
  cases h with
  | submit h => simp only [State.left, h, List.length_append, List.length_cons, List.length_nil]; omega
  | start h _ => simp only [State.left, h, List.length_cons]; omega
  | finish r h => simp only [State.left, h, List.length_append, List.length_cons]; omega
  | collect _ h => simp only [State.left, h, List.length_append, List.length_cons]; omega

/-! ## Runs -/

/-- Every job was run once, in order, and its result collected once. -/
structure RanAll (jobs : List ι) (s : State ι ρ) : Prop where
  started : s.started = jobs
  collected : (s.collected.map Prod.fst).Perm jobs

theorem Kept.ranAll {jobs : List ι} {s : State ι ρ} (h : Kept jobs s) (hended : s.Ended) :
    RanAll jobs s := by
  obtain ⟨hsubmit, hqueue, hrunning, hfinished⟩ := hended
  have horder := h.order
  have hstarted := h.started
  rw [hsubmit, hqueue, List.append_nil, List.append_nil] at horder
  rw [hrunning, hfinished, List.nil_append, List.nil_append, horder] at hstarted
  exact ⟨horder, hstarted.symm⟩

section Pool

variable {maxWorkers : ℕ} {jobs : List ι} {es : List (Event ι ρ)} {s : State ι ρ}

theorem kept_of_run (h : Run (· = State.initial jobs) (Step maxWorkers) es s) : Kept jobs s := by
  apply Run.invariant_of_state (p := fun _ => True) _ _ h
  · exact fun _ _ => trivial
  · rintro s rfl
    exact kept_initial jobs
  · exact fun s e t hs _ hstep => hs.step hstep

theorem length_of_run (h : Run (· = State.initial jobs) (Step maxWorkers) es s) :
    es.length + s.left = 4 * jobs.length := by
  induction h with
  | start h0 =>
      subst h0
      simp [State.left, State.initial]
  | next _ hstep ih =>
      have hleft := left_of_step hstep
      rw [List.length_cons]
      omega

/-- While something is left to do, some event can happen. -/
theorem ended_of_stuck [Nonempty ρ] (hworkers : 0 < maxWorkers)
    (h : Stuck (Step maxWorkers) s) : s.Ended := by
  have hsubmit : s.toSubmit = [] := by
    cases hs : s.toSubmit with
    | nil => rfl
    | cons i rest => exact absurd (.submit hs) (h _ _)
  have hrunning : s.running = [] := by
    cases hs : s.running with
    | nil => rfl
    | cons i rest =>
        obtain ⟨r⟩ := ‹Nonempty ρ›
        exact absurd (.finish r (show s.running = [] ++ i :: rest from hs)) (h _ _)
  have hqueue : s.queue = [] := by
    cases hs : s.queue with
    | nil => rfl
    | cons i rest => exact absurd (.start hs (by rw [hrunning]; exact hworkers)) (h _ _)
  have hfinished : s.finished = [] := by
    cases hs : s.finished with
    | nil => rfl
    | cons f rest => exact absurd (.collect hsubmit (show s.finished = [] ++ f :: rest from hs)) (h _ _)
  exact ⟨hsubmit, hqueue, hrunning, hfinished⟩

end Pool

section InTurn

variable {jobs : List ι} {es : List (Event ι ρ)} {s : State ι ρ}

/-- In turn, nothing is ever queued, running or waiting to be collected. -/
theorem inTurn_of_run (h : Run (· = State.initial jobs) InTurn es s) :
    Kept jobs s ∧ (s.queue = [] ∧ s.running = [] ∧ s.finished = []) ∧
      es.length + s.toSubmit.length = jobs.length := by
  induction h with
  | start h0 =>
      subst h0
      exact ⟨kept_initial jobs, ⟨rfl, rfl, rfl⟩, Nat.zero_add _⟩
  | next _ hstep ih =>
      obtain ⟨hkept, hidle, hlength⟩ := ih
      refine ⟨hkept.inTurn hidle.1 hstep, ?_, ?_⟩
      · cases hstep
        exact hidle
      · cases hstep with
        | runNext r h =>
            rw [h, List.length_cons] at hlength
            rw [List.length_cons]
            dsimp only
            omega

theorem ended_of_stuck_inTurn [Nonempty ρ] (h : Run (· = State.initial jobs) InTurn es s)
    (hstuck : Stuck InTurn s) : s.Ended := by
  refine ⟨?_, (inTurn_of_run h).2.1⟩
  cases hs : s.toSubmit with
  | nil => rfl
  | cons i rest =>
      obtain ⟨r⟩ := ‹Nonempty ρ›
      exact absurd (.runNext r hs) (hstuck _ _)

end InTurn

end Executor
