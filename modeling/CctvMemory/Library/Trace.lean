import Mathlib.Data.List.Basic

/-!
# Runs of a labelled transition system

`Run init step es s` says that the events `es`, the newest first, lead from an
initial state to `s`. A condition on an event may look at the events before
it; `Meets ok es` says that every event of `es` met `ok` when it happened. One
induction serves every invariant: `Run.invariant` for one that speaks of the
events so far, `Run.invariant_of_state` for one on the state alone.

`Throughout step P es s` says that the events `es`, the oldest first, can happen
one after the other from `s`, each of them with `P`.
-/

namespace Trace

variable {σ ε : Type*}

/-- A run from a state of `init`: its events, the newest first, and its end. -/
inductive Run (init : σ → Prop) (step : σ → ε → σ → Prop) : List ε → σ → Prop where
  | start {s : σ} : init s → Run init step [] s
  | next {es : List ε} {s : σ} {e : ε} {t : σ} :
      Run init step es s → step s e t → Run init step (e :: es) t

/-- The events one after the other; `none` where one of them cannot happen. -/
def exec (step : σ → ε → Option σ) : List ε → σ → Option σ
  | [], s => some s
  | e :: es, s => (step s e).bind (exec step es)

/-- One event more. -/
theorem exec_concat {step : σ → ε → Option σ} {es : List ε} {s t : σ}
    (h : exec step es s = some t) (e : ε) : exec step (es ++ [e]) s = step t e := by
  induction es generalizing s with
  | nil =>
      cases h
      exact Option.bind_fun_some _
  | cons e' es ih =>
      obtain ⟨s', hstep, hrest⟩ := Option.bind_eq_some_iff.mp h
      rw [List.cons_append, exec, hstep]
      exact ih hrest

/-- The events can happen one after the other, and `P` holds of every step. -/
def Throughout (step : σ → ε → Option σ) (P : σ → ε → σ → Prop) : List ε → σ → Prop
  | [], _ => True
  | e :: es, s => ∃ s', step s e = some s' ∧ P s e s' ∧ Throughout step P es s'

/-- What every step of a run leaves holds at its end. -/
theorem Throughout.at_end {step : σ → ε → Option σ} {P : σ → ε → σ → Prop} {J : σ → Prop}
    (hJ : ∀ s e s', P s e s' → J s') {es : List ε} {s t : σ} (h : Throughout step P es s)
    (hs : J s) (ht : exec step es s = some t) : J t := by
  induction es generalizing s with
  | nil =>
      cases ht
      exact hs
  | cons e es ih =>
      obtain ⟨s', hstep, hP, hrest⟩ := h
      apply ih hrest (hJ s e s' hP)
      rw [exec, hstep] at ht
      exact ht

/-- Two conditions on steps that agree where an invariant holds, one of which
keeps it, hold throughout the same runs. -/
theorem throughout_congr {step : σ → ε → Option σ} {P Q : σ → ε → σ → Prop} {I : σ → Prop}
    (hiff : ∀ s e s', I s → step s e = some s' → (P s e s' ↔ Q s e s'))
    (hkeep : ∀ s e s', I s → step s e = some s' → Q s e s' → I s') {es : List ε} {s : σ}
    (hs : I s) : Throughout step P es s ↔ Throughout step Q es s := by
  induction es generalizing s with
  | nil => exact Iff.rfl
  | cons e es ih =>
      constructor
      · rintro ⟨s', hstep, hP, hrest⟩
        have hQ : Q s e s' := (hiff s e s' hs hstep).mp hP
        exact ⟨s', hstep, hQ, (ih (hkeep s e s' hs hstep hQ)).mp hrest⟩
      · rintro ⟨s', hstep, hQ, hrest⟩
        have hI : I s' := hkeep s e s' hs hstep hQ
        exact ⟨s', hstep, (hiff s e s' hs hstep).mpr hQ, (ih hI).mpr hrest⟩

/-- Every event met `ok` after the events before it. -/
def Meets (ok : List ε → ε → Prop) : List ε → Prop
  | [] => True
  | e :: es => Meets ok es ∧ ok es e

@[simp] theorem meets_nil (ok : List ε → ε → Prop) : Meets ok [] := trivial

@[simp] theorem meets_cons {ok : List ε → ε → Prop} {e : ε} {es : List ε} :
    Meets ok (e :: es) ↔ Meets ok es ∧ ok es e := Iff.rfl

namespace Run

variable {init : σ → Prop} {step : σ → ε → σ → Prop}

/-- What holds at the start and is kept by every event that meets `ok` holds
after every run of such events. -/
theorem invariant {I : List ε → σ → Prop} {ok : List ε → ε → Prop}
    (hinit : ∀ s, init s → I [] s)
    (hstep : ∀ es s e t, I es s → ok es e → step s e t → I (e :: es) t)
    {es : List ε} {s : σ} (h : Run init step es s) (hok : Meets ok es) : I es s := by
  induction h with
  | start h0 => exact hinit _ h0
  | next _ hs ih => exact hstep _ _ _ _ (ih hok.1) hok.2 hs

theorem invariant_of_state {I : σ → Prop} {p : ε → Prop} (hinit : ∀ s, init s → I s)
    (hstep : ∀ s e t, I s → p e → step s e t → I t) {es : List ε} {s : σ}
    (h : Run init step es s) (hok : ∀ e ∈ es, p e) : I s := by
  induction h with
  | start h0 => exact hinit _ h0
  | next _ hs ih =>
      exact hstep _ _ _ (ih fun e he => hok e (List.mem_cons_of_mem _ he))
        (hok _ List.mem_cons_self) hs

theorem imp {step' : σ → ε → σ → Prop} {es : List ε} {s : σ} (h : Run init step es s)
    (hstep : ∀ s e t, step s e t → step' s e t) : Run init step' es s := by
  induction h with
  | start h0 => exact .start h0
  | next _ hs ih => exact ih.next (hstep _ _ _ hs)

/-- A run continued by events that can happen one after the other is a run. -/
theorem of_exec {step : σ → ε → Option σ} {P : σ → ε → Prop} {es fs : List ε} {s t : σ}
    (h : Run init (fun s e s' => step s e = some s' ∧ P s e) es s)
    (hexec : exec step fs s = some t) (hok : ∀ e ∈ fs, ∀ s, P s e) :
    Run init (fun s e s' => step s e = some s' ∧ P s e) (fs.reverse ++ es) t := by
  induction fs generalizing es s with
  | nil =>
      cases hexec
      exact h
  | cons e fs ih =>
      obtain ⟨s₁, hstep, hrest⟩ := Option.bind_eq_some_iff.mp hexec
      rw [List.reverse_cons, List.append_assoc]
      exact ih (h.next ⟨hstep, hok e List.mem_cons_self s⟩) hrest
        fun f hf => hok f (List.mem_cons_of_mem _ hf)

end Run

end Trace
