import CctvMemory.Library.Pool
import Mathlib.Data.Set.Function
import Mathlib.Data.Set.Lattice
import Mathlib.Order.CompletePartialOrder

/-!
# Programs that keep to a set of places

The shared state maps places to values. `Within S p Q` says that every step of `p`, from
whatever state it is taken, reads the places of `S` alone and writes no others, and that
the result is one of `Q`.

* `run_pool_of_apart`: programs that keep to sets without a common place end as if each
  had run alone, whatever the schedule.
* `standing_pool`: a change that is not taken back was made if and only if the result of
  some program says so.
-/

namespace Act

namespace Prog

variable {L V ω α β : Type} {S T : Set L}

/-- A step that reads only `S` and writes only `S`. -/
structure StepWithin (S : Set L) (next : (L → V) → (L → V) × List ω) : Prop where
  writes : ∀ s, ∀ l, l ∉ S → (next s).1 l = s l
  reads : ∀ s s', Set.EqOn s s' S →
    Set.EqOn (next s).1 (next s').1 S ∧ (next s).2 = (next s').2

def Within (S : Set L) : Prog (L → V) ω α → (α → Prop) → Prop
  | ret a, Q => Q a
  | atomic next k, Q => StepWithin S next ∧ (∀ s s', Set.EqOn s s' S → k s = k s') ∧
      ∀ s, (k s).Within S Q

variable {Q : α → Prop}

theorem Within.bind {p : Prog (L → V) ω α} {f : α → Prog (L → V) ω β} {R : β → Prop}
    (hp : p.Within S Q) (hf : ∀ a, Q a → (f a).Within S R) : (p.bind f).Within S R := by
  induction p with
  | ret a => exact hf a hp
  | atomic next k ih =>
      obtain ⟨hstep, hcont, hrest⟩ := hp
      exact ⟨hstep, fun s s' hagree => congrArg (Prog.bind · f) (hcont s s' hagree),
        fun s => ih s (hrest s)⟩

theorem Within.imp {p : Prog (L → V) ω α} {R : α → Prop} (hp : p.Within S Q)
    (h : ∀ a, Q a → R a) : p.Within S R := by
  induction p with
  | ret a => exact h a hp
  | atomic next k ih =>
      obtain ⟨hstep, hcont, hrest⟩ := hp
      exact ⟨hstep, hcont, fun s => ih s (hrest s)⟩

theorem Within.value {p : Prog (L → V) ω α} (h : p.Within S Q) (s : L → V) : Q (p.run s).1 := by
  induction p generalizing s with
  | ret a => exact h
  | atomic next k ih => exact ih s (h.2.2 s) (next s).1

/-- A program outside its places leaves everything as it was. -/
theorem Within.run_outside {p : Prog (L → V) ω α} (h : p.Within S Q) (s : L → V) {l : L}
    (hl : l ∉ S) : (p.run s).2 l = s l := by
  induction p generalizing s with
  | ret a => rfl
  | atomic next k ih =>
      obtain ⟨hstep, -, hrest⟩ := h
      exact (ih s (hrest s) (next s).1).trans (hstep.writes s l hl)

/-- Runs from states that agree on the places agree on them and on the result. -/
theorem Within.run_congr {p : Prog (L → V) ω α} (h : p.Within S Q) {s s' : L → V}
    (hagree : Set.EqOn s s' S) :
    (p.run s).1 = (p.run s').1 ∧ Set.EqOn (p.run s).2 (p.run s').2 S := by
  induction p generalizing s s' with
  | ret a => exact ⟨rfl, hagree⟩
  | atomic next k ih =>
      obtain ⟨hstep, hcont, hrest⟩ := h
      have hrun := ih s (hrest s) (hstep.reads s s' hagree).1
      rw [hcont s s' hagree] at hrun
      show ((k s).run (next s).1).1 = _ ∧ Set.EqOn ((k s).run (next s).1).2 _ S
      rw [hcont s s' hagree]
      exact hrun

/-- A program that changes nothing, and looks at `S` alone. -/
def Looks (S : Set L) : Prog (L → V) ω α → (α → Prop) → Prop
  | ret a, Q => Q a
  | atomic next k, Q => (∀ s, next s = (s, [])) ∧ (∀ s s', Set.EqOn s s' S → k s = k s') ∧
      ∀ s, (k s).Looks S Q

theorem Looks.within {p : Prog (L → V) ω α} (h : p.Looks S Q) : p.Within S Q := by
  induction p with
  | ret a => exact h
  | atomic next k ih =>
      obtain ⟨hstep, hcont, hrest⟩ := h
      refine ⟨⟨fun s l _ => by rw [hstep], fun s s' hagree => ?_⟩, hcont, fun s => ih s (hrest s)⟩
      rw [hstep, hstep]
      exact ⟨hagree, rfl⟩

theorem Looks.bind {p : Prog (L → V) ω α} {f : α → Prog (L → V) ω β} {R : β → Prop}
    (hp : p.Looks S Q) (hf : ∀ a, Q a → (f a).Looks S R) : (p.bind f).Looks S R := by
  induction p with
  | ret a => exact hf a hp
  | atomic next k ih =>
      obtain ⟨hstep, hcont, hrest⟩ := hp
      exact ⟨hstep, fun s s' hagree => congrArg (Prog.bind · f) (hcont s s' hagree),
        fun s => ih s (hrest s)⟩

end Prog

open Prog

/-! ## Actions -/

section Actions

variable {ε ε' L V ω α β : Type} {S : Set L}

/-- An action that keeps to a set of places, with a fact about its value. -/
def Inside (S : Set L) (x : Act ε (L → V) ω α) (Q : α → Prop) : Prop :=
  Prog.Within S (ExceptT.run x) fun r => ∀ a, r = .ok a → Q a

namespace Inside

variable {Q : α → Prop} {R : β → Prop}

theorem pure {a : α} (h : Q a) : Inside S (Pure.pure a : Act ε (L → V) ω α) Q := by
  rintro b ⟨⟩
  exact h

theorem throw (e : ε) : Inside S (MonadExcept.throw e : Act ε (L → V) ω α) Q := by
  rintro b ⟨⟩

theorem bind {x : Act ε (L → V) ω α} {f : α → Act ε (L → V) ω β} (hx : Inside S x Q)
    (hf : ∀ a, Q a → Inside S (f a) R) : Inside S (x >>= f) R := by
  refine Within.bind (f := ExceptT.bindCont f) hx fun r hr => ?_
  cases r with
  | ok a => exact hf a (hr a rfl)
  | error e =>
      rintro b ⟨⟩

theorem catching {x : Act ε' (L → V) ω α} {h : ε' → Act ε (L → V) ω α} (hx : Inside S x Q)
    (hh : ∀ e, Inside S (h e) Q) : Inside S (Act.catching x h) Q := by
  refine Within.bind hx fun r hr => ?_
  cases r with
  | ok a =>
      rintro b ⟨⟩
      exact hr a rfl
  | error e => exact hh e

theorem imp {x : Act ε (L → V) ω α} {Q' : α → Prop} (hx : Inside S x Q)
    (h : ∀ a, Q a → Q' a) : Inside S x Q' :=
  Within.imp hx fun _ hr a ha => h a (hr a ha)

theorem value {x : Act ε (L → V) ω α} (hx : Inside S x Q) {s s' : L → V} {a : α}
    (h : Act.exec x s = (.ok a, s')) : Q a :=
  Within.value hx s a (congrArg Prod.fst h)

/-- What a transaction finds on the places decides what it does to them. -/
theorem txn {f : (L → V) → Except ε (α × (L → V) × List ω)}
    (hwrites : ∀ s a s' out, f s = .ok (a, s', out) → Q a ∧ ∀ l, l ∉ S → s' l = s l)
    (hreads : ∀ s t, Set.EqOn s t S → match f s, f t with
      | .ok (a, s', out), .ok (b, t', out') => a = b ∧ Set.EqOn s' t' S ∧ out = out'
      | .error e, .error e' => e = e'
      | _, _ => False) : Inside S (Act.txn f) Q := by
  refine ⟨⟨fun s l hl => ?_, fun s t hagree => ?_⟩, fun s t hagree => ?_, fun s a ha => ?_⟩
  · cases hf : f s with
    | ok r => exact (hwrites s r.1 r.2.1 r.2.2 hf).2 l hl
    | error e => rfl
  · have hst := hreads s t hagree
    revert hst
    cases f s <;> cases f t <;> intro hst
    · exact ⟨hagree, rfl⟩
    · exact hst.elim
    · exact hst.elim
    · exact hst.2
  · have hst := hreads s t hagree
    dsimp only
    revert hst
    cases f s <;> cases f t <;> intro hst
    · exact congrArg (fun e => ret (Except.error e)) hst
    · exact hst.elim
    · exact hst.elim
    · exact congrArg (fun a => ret (Except.ok a)) hst.1
  · cases hf : f s with
    | ok r =>
        rw [hf] at ha
        cases ha
        exact (hwrites s r.1 r.2.1 r.2.2 hf).1
    | error e =>
        rw [hf] at ha
        cases ha

end Inside

/-- An action that changes nothing, and looks at a set of places alone. -/
def Looking (S : Set L) (x : Act ε (L → V) ω α) (Q : α → Prop) : Prop :=
  Prog.Looks S (ExceptT.run x) fun r => ∀ a, r = .ok a → Q a

namespace Looking

variable {Q : α → Prop} {R : β → Prop}

theorem inside {x : Act ε (L → V) ω α} (hx : Looking S x Q) : Inside S x Q := Looks.within hx

theorem pure {a : α} (h : Q a) : Looking S (Pure.pure a : Act ε (L → V) ω α) Q := by
  rintro b ⟨⟩
  exact h

theorem throw (e : ε) : Looking S (MonadExcept.throw e : Act ε (L → V) ω α) Q := by
  rintro b ⟨⟩

theorem bind {x : Act ε (L → V) ω α} {f : α → Act ε (L → V) ω β} (hx : Looking S x Q)
    (hf : ∀ a, Q a → Looking S (f a) R) : Looking S (x >>= f) R := by
  refine Looks.bind (f := ExceptT.bindCont f) hx fun r hr => ?_
  cases r with
  | ok a => exact hf a (hr a rfl)
  | error e =>
      rintro b ⟨⟩

end Looking

end Actions

theorem update_outside {V : Type} [DecidableEq L] {S : Set L} {l l' : L} (hl' : l' ∈ S) (hl : l ∉ S)
    (s : L → V) (v : V) : Function.update s l' v l = s l := by
  have hne : l ≠ l' := fun heq => hl (heq ▸ hl')
  exact Function.update_of_ne hne _ _

theorem eqOn_update {V : Type} [DecidableEq L] {S : Set L} {s t : L → V} (h : Set.EqOn s t S) (l : L)
    (v : V) : Set.EqOn (Function.update s l v) (Function.update t l v) S := by
  intro l' hl'
  by_cases heq : l' = l
  · subst heq
    rw [Function.update_self, Function.update_self]
  · rw [Function.update_of_ne heq, Function.update_of_ne heq]
    exact h hl'

/-! ## Several programs -/

variable {L V ω α : Type}

/-- A program with the places it keeps to. -/
structure Tenant (L V ω α : Type) where
  places : Set L
  program : Prog (L → V) ω α
  within : program.Within places fun _ => True

/-- No place belongs to two programs. -/
def Apart (tenants : List (Tenant L V ω α)) : Prop :=
  tenants.Pairwise fun t u => Disjoint t.places u.places

/-- How programs ended: each as if run alone, and nothing else touched. -/
structure EndedApart (tenants : List (Tenant L V ω α)) (s : L → V) (results : List α)
    (s' : L → V) : Prop where
  results : results = tenants.map fun t => (t.program.run s).1
  places : ∀ t ∈ tenants, Set.EqOn s' (t.program.run s).2 t.places
  elsewhere : ∀ l, (∀ t ∈ tenants, l ∉ t.places) → s' l = s l

theorem eqOn_run_of_disjoint {t u : Tenant L V ω α} (h : Disjoint t.places u.places) (s : L → V) :
    Set.EqOn (t.program.run s).2 s u.places := fun _ hl =>
  t.within.run_outside s fun hmem => Set.disjoint_left.mp h hmem hl

theorem run_inTurn_of_apart {tenants : List (Tenant L V ω α)} (hapart : Apart tenants)
    (s : L → V) :
    EndedApart tenants s ((inTurn (tenants.map Tenant.program)).run s).1
      ((inTurn (tenants.map Tenant.program)).run s).2 := by
  induction tenants generalizing s with
  | nil => exact ⟨rfl, fun t ht => absurd ht List.not_mem_nil, fun l _ => rfl⟩
  | cons t tenants ih =>
      obtain ⟨hfirst, hrest⟩ := List.pairwise_cons.mp hapart
      set s₁ := (t.program.run s).2 with hs₁
      obtain ⟨hresults, hplaces, helsewhere⟩ := ih hrest s₁
      have hkeep : ∀ u ∈ tenants, Set.EqOn s₁ s u.places := fun u hu =>
        eqOn_run_of_disjoint (hfirst u hu) s
      have hrun : (inTurn ((t :: tenants).map Tenant.program)).run s
          = ((t.program.run s).1 :: ((inTurn (tenants.map Tenant.program)).run s₁).1,
              ((inTurn (tenants.map Tenant.program)).run s₁).2) := by
        show (Prog.bind t.program _).run s = _
        rw [Prog.run_bind, Prog.run_bind]
        rfl
      rw [hrun]
      refine ⟨?_, ?_, ?_⟩
      · rw [List.map_cons, hresults]
        refine congrArg _ (List.map_congr_left fun u hu => ?_)
        exact (u.within.run_congr (hkeep u hu)).1
      · intro u hu
        rcases List.mem_cons.mp hu with rfl | hu
        · intro l hl
          exact helsewhere l fun v hv hmem => Set.disjoint_left.mp (hfirst v hv) hl hmem
        · exact (hplaces u hu).trans (u.within.run_congr (hkeep u hu)).2
      · intro l hl
        rw [helsewhere l fun u hu => hl u (List.mem_cons_of_mem t hu)]
        exact t.within.run_outside s (hl t List.mem_cons_self)

/-- The rest of a program after a step. -/
def Tenant.after (t : Tenant L V ω α) {next : (L → V) → (L → V) × List ω}
    {k : (L → V) → Prog (L → V) ω α} (h : t.program = .atomic next k) (s : L → V) :
    Tenant L V ω α where
  places := t.places
  program := k s
  within := by
    have hwithin := t.within
    rw [h] at hwithin
    exact hwithin.2.2 s

section Step

variable {tenants : List (Tenant L V ω α)} {i : ℕ} {next : (L → V) → (L → V) × List ω}
  {k : (L → V) → Prog (L → V) ω α}

theorem places_set (hi : i < tenants.length) (h : tenants[i].program = .atomic next k)
    (s : L → V) :
    (tenants.set i (tenants[i].after h s)).map Tenant.places = tenants.map Tenant.places := by
  rw [List.map_set]
  refine List.ext_getElem (by simp) fun j hj hj' => ?_
  rw [List.getElem_set]
  split
  · rename_i hij
    subst hij
    simp [Tenant.after]
  · rfl

theorem apart_iff (tenants : List (Tenant L V ω α)) :
    Apart tenants ↔ (tenants.map Tenant.places).Pairwise Disjoint := List.pairwise_map.symm

/-- What a program still does is the same before and after the step of another one, or
of its own. -/
theorem run_after (hapart : Apart tenants) (hi : i < tenants.length)
    (h : tenants[i].program = .atomic next k) (s : L → V) {j : ℕ} (hj : j < tenants.length)
    (hj' : j < (tenants.set i (tenants[i].after h s)).length) :
    ((tenants.set i (tenants[i].after h s))[j].program.run (next s).1).1
        = (tenants[j].program.run s).1 ∧
      Set.EqOn ((tenants.set i (tenants[i].after h s))[j].program.run (next s).1).2
        (tenants[j].program.run s).2 tenants[j].places := by
  by_cases hij : i = j
  · subst hij
    rw [List.getElem_set_self, h]
    exact ⟨rfl, Set.eqOn_refl _ _⟩
  · rw [List.getElem_set_ne hij]
    have hdisjoint : Disjoint tenants[i].places tenants[j].places := by
      rcases Nat.lt_or_gt_of_ne hij with hlt | hgt
      · exact List.pairwise_iff_getElem.mp hapart i j hi hj hlt
      · exact (List.pairwise_iff_getElem.mp hapart j i hj hi hgt).symm
    have hwithin := tenants[i].within
    rw [h] at hwithin
    have hkeep : Set.EqOn (next s).1 s tenants[j].places := fun l hl =>
      hwithin.1.writes s l fun hmem => Set.disjoint_left.mp hdisjoint hmem hl
    exact tenants[j].within.run_congr hkeep

/-- Programs that end well after a step of one of them end well from before it. -/
theorem EndedApart.of_step (hapart : Apart tenants) (hi : i < tenants.length)
    (h : tenants[i].program = .atomic next k) {s s' : L → V} {results : List α}
    (hended : EndedApart (tenants.set i (tenants[i].after h s)) (next s).1 results s') :
    EndedApart tenants s results s' := by
  obtain ⟨hresults, hplaces, helsewhere⟩ := hended
  have hmap := places_set hi h s
  refine ⟨?_, ?_, ?_⟩
  · rw [hresults]
    refine List.ext_getElem (by simp) fun j hj hj' => ?_
    rw [List.getElem_map, List.getElem_map]
    rw [List.length_map] at hj hj'
    exact (run_after hapart hi h s hj' hj).1
  · intro t ht
    obtain ⟨j, hj, rfl⟩ := List.mem_iff_getElem.mp ht
    have hj' : j < (tenants.set i (tenants[i].after h s)).length := by rwa [List.length_set]
    have hsame : (tenants.set i (tenants[i].after h s))[j].places = tenants[j].places := by
      have hget := List.getElem_of_eq hmap (by rwa [List.length_map])
      rwa [List.getElem_map, List.getElem_map] at hget
    have hended := hplaces _ (List.getElem_mem hj')
    rw [hsame] at hended
    exact hended.trans (run_after hapart hi h s hj hj').2
  · intro l hl
    have hnone : ∀ t ∈ tenants.set i (tenants[i].after h s), l ∉ t.places := by
      intro t ht hmem
      have hin : t.places ∈ tenants.map Tenant.places := by
        rw [← hmap]
        exact List.mem_map_of_mem ht
      obtain ⟨u, hu, heq⟩ := List.mem_map.mp hin
      exact hl u hu (heq ▸ hmem)
    rw [helsewhere l hnone]
    have hwithin := tenants[i].within
    rw [h] at hwithin
    exact hwithin.1.writes s l (hl _ (List.getElem_mem hi))

end Step

/-- Whatever the schedule, programs without a common place end as if each had run
alone. -/
theorem run_pool_of_apart {tenants : List (Tenant L V ω α)} (hapart : Apart tenants)
    (sched : List ℕ) (s : L → V) :
    EndedApart tenants s ((pool sched (tenants.map Tenant.program)).run s).1
      ((pool sched (tenants.map Tenant.program)).run s).2 := by
  induction sched generalizing tenants s with
  | nil => exact run_inTurn_of_apart hapart s
  | cons i sched ih =>
      by_cases hi : i < tenants.length
      · cases h : tenants[i].program with
        | ret a =>
            have hskip : pool (i :: sched) (tenants.map Tenant.program)
                = pool sched (tenants.map Tenant.program) := by
              rw [pool, List.getElem?_map, List.getElem?_eq_getElem hi, Option.map_some, h]
            rw [hskip]
            exact ih hapart s
        | atomic next k =>
            have hstep : (pool (i :: sched) (tenants.map Tenant.program)).run s
                = (pool sched ((tenants.set i (tenants[i].after h s)).map
                    Tenant.program)).run (next s).1 := by
              rw [pool, List.getElem?_map, List.getElem?_eq_getElem hi, Option.map_some, h,
                List.map_set]
              rfl
            rw [hstep]
            refine .of_step hapart hi h (ih ?_ (next s).1)
            rw [apart_iff, places_set hi h s, ← apart_iff]
            exact hapart
      · have hskip : pool (i :: sched) (tenants.map Tenant.program)
            = pool sched (tenants.map Tenant.program) := by
          rw [pool, List.getElem?_map, List.getElem?_eq_none (not_lt.mp hi), Option.map_none]
        rw [hskip]
        exact ih hapart s

/-! ## Who did it

`Same` is what holds of the state until some program makes `Done` true, for good. The
result of a program tells whether it did. -/

namespace Prog

variable {σ ω α β : Type} {Same Done : σ → Prop} {Q : α → Prop}

def Tells (Same Done : σ → Prop) : Bool → Prog σ ω α → (α → Prop) → Prop
  | b, ret a, Q => (Q a ↔ b = true)
  | b, atomic next k, Q => ∀ s,
      ((Same s → Same (next s).1) ∧ (Done s → Done (next s).1) ∧ (k s).Tells Same Done b Q) ∨
        (Done (next s).1 ∧ (k s).Tells Same Done true Q)

theorem Tells.of_within {L V : Type} {S : Set L} {l : L} (hl : l ∉ S) {v w : V}
    {p : Prog (L → V) ω α} {R : α → Prop} (h : p.Within S R) (hQ : ∀ a, R a → ¬ Q a) :
    p.Tells (fun s => s l = v) (fun s => s l = w) false Q := by
  induction p with
  | ret a => exact ⟨fun hq => absurd hq (hQ a h), fun hb => Bool.noConfusion hb⟩
  | atomic next k ih =>
      intro s
      have hkeep := h.1.writes s l hl
      exact .inl ⟨fun hs => hkeep.trans hs, fun hs => hkeep.trans hs, ih s (h.2.2 s)⟩

theorem Looks.tells_bind {L V : Type} {S : Set L} {Same Done : (L → V) → Prop} {b : Bool}
    {p : Prog (L → V) ω α} {f : α → Prog (L → V) ω β} {R : α → Prop} {Q : β → Prop}
    (hp : p.Looks S R) (hf : ∀ a, R a → (f a).Tells Same Done b Q) :
    (p.bind f).Tells Same Done b Q := by
  induction p with
  | ret a => exact hf a hp
  | atomic next k ih =>
      intro s
      left
      rw [hp.1 s]
      exact ⟨fun hs => hs, fun hs => hs, ih s (hp.2.2 s)⟩

theorem Tells.map {b : Bool} {p : Prog σ ω α} {f : α → β} {Q : β → Prop}
    (h : p.Tells Same Done b fun a => Q (f a)) :
    (p.bind fun a => ret (f a)).Tells Same Done b Q := by
  induction p generalizing b with
  | ret a => exact h
  | atomic next k ih =>
      intro s
      rcases h s with ⟨hsame, hdone, hrest⟩ | ⟨hdone, hrest⟩
      · exact .inl ⟨hsame, hdone, ih s hrest⟩
      · exact .inr ⟨hdone, ih s hrest⟩

/-- `Done` when `o` holds, `Same` when not. -/
def Standing (Same Done : σ → Prop) (o : Prop) (s : σ) : Prop := (o → Done s) ∧ (¬ o → Same s)

theorem Standing.step {o : Prop} {b : Bool} {next : σ → σ × List ω} {k : σ → Prog σ ω α}
    (h : (atomic next k).Tells Same Done b Q) {s : σ}
    (hs : Standing Same Done (o ∨ b = true) s) :
    ∃ b', (k s).Tells Same Done b' Q ∧ Standing Same Done (o ∨ b' = true) (next s).1 := by
  rcases h s with ⟨hsame, hdone, hrest⟩ | ⟨hdone, hrest⟩
  · exact ⟨b, hrest, fun ho => hdone (hs.1 ho), fun ho => hsame (hs.2 ho)⟩
  · exact ⟨true, hrest, fun _ => hdone, fun ho => absurd (.inr rfl) ho⟩

theorem Tells.run {o : Prop} {b : Bool} {p : Prog σ ω α} (h : p.Tells Same Done b Q) {s : σ}
    (hs : Standing Same Done (o ∨ b = true) s) :
    Standing Same Done (o ∨ Q (p.run s).1) (p.run s).2 := by
  induction p generalizing s b with
  | ret a =>
      have hiff : Q a ↔ b = true := h
      show Standing Same Done (o ∨ Q a) s
      rwa [hiff]
  | atomic next k ih =>
      obtain ⟨b', hrest, hnext⟩ := Standing.step h hs
      exact ih s hrest hnext

end Prog

section Pool

variable {σ : Type} {Same Done : σ → Prop}

/-- A program, whether it did it by now, and what its result then is. -/
structure Teller (σ ω α : Type) where
  done : Bool
  program : Prog σ ω α
  claims : α → Prop

def Teller.Honest (Same Done : σ → Prop) (t : Teller σ ω α) : Prop :=
  t.program.Tells Same Done t.done t.claims

/-- Some result says that its program did it. -/
def SomeClaims (claims : List (α → Prop)) (results : List α) : Prop :=
  ∃ r ∈ claims.zip results, r.1 r.2

def SomeDone (tellers : List (Teller σ ω α)) : Prop := ∃ t ∈ tellers, t.done = true

theorem someDone_set {tellers : List (Teller σ ω α)} {i : ℕ} (hi : i < tellers.length)
    (t : Teller σ ω α) :
    SomeDone (tellers.set i t) ↔
      (∃ j, ∃ hj : j < tellers.length, j ≠ i ∧ tellers[j].done = true) ∨ t.done = true := by
  constructor
  · rintro ⟨u, hu, hdone⟩
    obtain ⟨j, hj, rfl⟩ := List.mem_iff_getElem.mp hu
    rw [List.length_set] at hj
    rw [List.getElem_set] at hdone
    split at hdone
    · exact .inr hdone
    · rename_i hne
      exact .inl ⟨j, hj, Ne.symm hne, hdone⟩
  · rintro (⟨j, hj, hne, hdone⟩ | hdone)
    · refine ⟨tellers[j], ?_, hdone⟩
      rw [List.mem_iff_getElem]
      exact ⟨j, by rwa [List.length_set], List.getElem_set_ne (Ne.symm hne) _⟩
    · exact ⟨t, List.mem_set hi t, hdone⟩

theorem standing_inTurn {tellers : List (Teller σ ω α)}
    (h : ∀ t ∈ tellers, t.Honest Same Done) {o : Prop} {s : σ}
    (hs : Standing Same Done (o ∨ SomeDone tellers) s) :
    Standing Same Done
      (o ∨ SomeClaims (tellers.map Teller.claims)
        ((inTurn (tellers.map Teller.program)).run s).1)
      ((inTurn (tellers.map Teller.program)).run s).2 := by
  induction tellers generalizing o s with
  | nil =>
      have hnone : ∀ results : List α, ¬ SomeClaims [] results := by simp [SomeClaims]
      have hstart : o ∨ SomeDone ([] : List (Teller σ ω α)) ↔ o := by simp [SomeDone]
      rw [hstart] at hs
      exact ⟨fun ho => hs.1 (ho.resolve_right (hnone _)), fun ho => hs.2 fun h => ho (.inl h)⟩
  | cons t tellers ih =>
      have hrun : (inTurn ((t :: tellers).map Teller.program)).run s
          = ((t.program.run s).1 :: ((inTurn (tellers.map Teller.program)).run
              (t.program.run s).2).1,
              ((inTurn (tellers.map Teller.program)).run (t.program.run s).2).2) := by
        show (Prog.bind t.program _).run s = _
        rw [Prog.run_bind, Prog.run_bind]
        rfl
      have hsplit : (o ∨ SomeDone (t :: tellers)) ↔
          ((o ∨ SomeDone tellers) ∨ t.done = true) := by
        rw [SomeDone, List.exists_mem_cons_iff, ← SomeDone]
        tauto
      rw [hsplit] at hs
      have hfirst := (h t List.mem_cons_self).run hs
      rw [or_right_comm] at hfirst
      have hrest := ih (fun u hu => h u (List.mem_cons_of_mem t hu)) hfirst
      rw [hrun, List.map_cons]
      have hclaims : ∀ results, (o ∨ SomeClaims (t.claims :: tellers.map Teller.claims)
          ((t.program.run s).1 :: results)) ↔
          ((o ∨ t.claims (t.program.run s).1) ∨ SomeClaims (tellers.map Teller.claims) results) := by
        intro results
        rw [SomeClaims, List.zip_cons_cons, List.exists_mem_cons_iff, ← SomeClaims, or_assoc]
      rw [hclaims]
      exact hrest

/-- Whatever the schedule, `Done` holds at the end if and only if some result says that
its program did it. -/
theorem standing_pool {tellers : List (Teller σ ω α)} (h : ∀ t ∈ tellers, t.Honest Same Done)
    (sched : List ℕ) {s : σ} (hs : Standing Same Done (SomeDone tellers) s) :
    Standing Same Done
      (SomeClaims (tellers.map Teller.claims)
        ((pool sched (tellers.map Teller.program)).run s).1)
      ((pool sched (tellers.map Teller.program)).run s).2 := by
  induction sched generalizing tellers s with
  | nil =>
      have hrun := standing_inTurn h (o := False) (by rwa [false_or])
      rwa [false_or] at hrun
  | cons i sched ih =>
      by_cases hi : i < tellers.length
      · cases hprogram : tellers[i].program with
        | ret a =>
            have hskip : pool (i :: sched) (tellers.map Teller.program)
                = pool sched (tellers.map Teller.program) := by
              rw [pool, List.getElem?_map, List.getElem?_eq_getElem hi, Option.map_some, hprogram]
            rw [hskip]
            exact ih h hs
        | atomic next k =>
            have htells := h _ (List.getElem_mem hi)
            unfold Teller.Honest at htells
            rw [hprogram] at htells
            have hdone := someDone_set hi tellers[i]
            rw [List.set_getElem_self] at hdone
            rw [hdone] at hs
            obtain ⟨b, hrest, hnext⟩ := Standing.step htells hs
            set t : Teller σ ω α := ⟨b, k s, tellers[i].claims⟩
            have hclaims : (tellers.set i t).map Teller.claims = tellers.map Teller.claims := by
              have hlt : i < (tellers.map Teller.claims).length := by rwa [List.length_map]
              have hsame : (tellers.map Teller.claims)[i] = t.claims := List.getElem_map _
              rw [List.map_set, ← hsame, List.set_getElem_self]
            have hstep : (pool (i :: sched) (tellers.map Teller.program)).run s
                = (pool sched ((tellers.set i t).map Teller.program)).run (next s).1 := by
              rw [pool, List.getElem?_map, List.getElem?_eq_getElem hi, Option.map_some, hprogram,
                List.map_set]
              rfl
            rw [hstep, ← hclaims]
            refine ih (fun u hu => ?_) ?_
            · rcases List.mem_or_eq_of_mem_set hu with hu | rfl
              · exact h u hu
              · exact hrest
            · rw [someDone_set hi]
              exact hnext
      · have hskip : pool (i :: sched) (tellers.map Teller.program)
            = pool sched (tellers.map Teller.program) := by
          rw [pool, List.getElem?_map, List.getElem?_eq_none (not_lt.mp hi), Option.map_none]
        rw [hskip]
        exact ih h hs

end Pool

end Act
