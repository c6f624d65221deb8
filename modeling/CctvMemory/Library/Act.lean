import Mathlib.Data.List.Basic
import Mathlib.Tactic.TypeStar

/-!
# Programs of atomic steps that may raise

A program (`Prog`) is a tree of atomic steps on a shared state: a step sees
the state, replaces it, and may emit outputs; between two steps anything else
may happen. An action (`Act`) is a program that ends with a value or a raised
error; `txn` is a transaction, whose state change is kept only when it returns.

* `exec` runs an action alone; `Triple` is its Hoare rule, with a guarantee for
  each step, one postcondition for a value and one for an error.
* `trace` lists the states a run passes through, the ones a crash can leave.
* `Always` is an invariant of every step of a program, `Keeps` of every step of an
  action, with a fact about its value.
-/

namespace Act

/-- A tree of atomic steps. -/
inductive Prog (σ ω α : Type) where
  | ret (a : α)
  | atomic (next : σ → σ × List ω) (k : σ → Prog σ ω α)

namespace Prog

variable {σ ω α β : Type}

def bind : Prog σ ω α → (α → Prog σ ω β) → Prog σ ω β
  | ret a, f => f a
  | atomic next k, f => atomic next fun s => (k s).bind f

instance : Monad (Prog σ ω) where
  pure := ret
  bind := bind

/-- Run a program alone. -/
def run : Prog σ ω α → σ → α × σ
  | ret a, s => (a, s)
  | atomic next k, s => (k s).run (next s).1

/-- The states after each step of a run. -/
def trace : Prog σ ω α → σ → List σ
  | ret _, _ => []
  | atomic next k, s => (next s).1 :: (k s).trace (next s).1

theorem run_bind (p : Prog σ ω α) (f : α → Prog σ ω β) (s : σ) :
    (p.bind f).run s = (f (p.run s).1).run (p.run s).2 := by
  induction p generalizing s with
  | ret a => rfl
  | atomic next k ih => exact ih s (next s).1

/-- Every step keeps `I`. -/
def Always (I : σ → Prop) : Prog σ ω α → Prop
  | ret _ => True
  | atomic next k => ∀ s, I s → I (next s).1 ∧ (k s).Always I

theorem always_true (p : Prog σ ω α) : p.Always fun _ => True := by
  induction p with
  | ret a => exact trivial
  | atomic next k ih => exact fun s _ => ⟨trivial, ih s⟩

theorem Always.bind {I : σ → Prop} {p : Prog σ ω α} {f : α → Prog σ ω β}
    (hp : p.Always I) (hf : ∀ a, (f a).Always I) : (p.bind f).Always I := by
  induction p with
  | ret a => exact hf a
  | atomic next k ih => exact fun s hs => ⟨(hp s hs).1, ih s (hp s hs).2⟩

theorem Always.run {I : σ → Prop} {p : Prog σ ω α} (hp : p.Always I) {s : σ} (hs : I s) :
    I (p.run s).2 := by
  induction p generalizing s with
  | ret a => exact hs
  | atomic next k ih => exact ih s (hp s hs).2 (hp s hs).1

/-- Every step of a run from a given state is one of `G`: the state before it,
the state after it and its outputs. -/
def Along (G : σ → σ × List ω → Prop) : Prog σ ω α → σ → Prop
  | ret _, _ => True
  | atomic next k, s => G s (next s) ∧ (k s).Along G (next s).1

theorem Along.bind {G : σ → σ × List ω → Prop} {p : Prog σ ω α} {f : α → Prog σ ω β} {s : σ}
    (hp : p.Along G s) (hf : (f (p.run s).1).Along G (p.run s).2) :
    (p.bind f).Along G s := by
  induction p generalizing s with
  | ret a => exact hf
  | atomic next k ih => exact ⟨hp.1, ih s hp.2 hf⟩

theorem Along.imp {G G' : σ → σ × List ω → Prop} {p : Prog σ ω α} {s : σ}
    (h : p.Along G s) (hG : ∀ s n, G s n → G' s n) : p.Along G' s := by
  induction p generalizing s with
  | ret a => exact trivial
  | atomic next k ih => exact ⟨hG _ _ h.1, ih s h.2⟩

theorem Along.trace {I : σ → Prop} {p : Prog σ ω α} {s : σ}
    (h : p.Along (fun _ n => I n.1) s) {s' : σ} (hs' : s' ∈ p.trace s) : I s' := by
  induction p generalizing s with
  | ret a => cases hs'
  | atomic next k ih =>
      rcases List.mem_cons.mp hs' with rfl | hs'
      · exact h.1
      · exact ih s h.2 hs'

theorem Always.along {I : σ → Prop} {p : Prog σ ω α} (hp : p.Always I) {s : σ} (hs : I s) :
    p.Along (fun _ n => I n.1) s := by
  induction p generalizing s with
  | ret a => exact trivial
  | atomic next k ih => exact ⟨(hp s hs).1, ih s (hp s hs).2 (hp s hs).1⟩

/-- Every step, from whatever state it is taken, is one of `G`: what is left
when others change the state between two steps. -/
def Each (G : σ → σ × List ω → Prop) : Prog σ ω α → Prop
  | ret _ => True
  | atomic next k => ∀ s, G s (next s) ∧ (k s).Each G

theorem Each.bind {G : σ → σ × List ω → Prop} {p : Prog σ ω α} {f : α → Prog σ ω β}
    (hp : p.Each G) (hf : ∀ a, (f a).Each G) : (p.bind f).Each G := by
  induction p with
  | ret a => exact hf a
  | atomic next k ih => exact fun s => ⟨(hp s).1, ih s (hp s).2⟩

theorem Each.imp {G G' : σ → σ × List ω → Prop} {p : Prog σ ω α} (h : p.Each G)
    (hG : ∀ s n, G s n → G' s n) : p.Each G' := by
  induction p with
  | ret a => exact trivial
  | atomic next k ih => exact fun s => ⟨hG _ _ (h s).1, ih s (h s).2⟩

/-- An invariant that no step of `G` breaks is kept by a program of such steps. -/
theorem Each.always {G : σ → σ × List ω → Prop} {I : σ → Prop} {p : Prog σ ω α} (h : p.Each G)
    (hI : ∀ s n, G s n → I s → I n.1) : p.Always I := by
  induction p with
  | ret a => exact trivial
  | atomic next k ih => exact fun s hs => ⟨hI _ _ (h s).1 hs, ih s (h s).2⟩

/-- What no step changes is unchanged after a run. -/
theorem run_frame {γ : Type*} (f : σ → γ) {p : Prog σ ω α}
    (hp : ∀ c, p.Always fun s => f s = c) (s : σ) : f (p.run s).2 = f s :=
  (hp (f s)).run rfl

end Prog

end Act

/-- Programs that end with a value or a raised error. -/
abbrev Act (ε σ ω α : Type) := ExceptT ε (Act.Prog σ ω) α

namespace Act

open Prog

variable {ε σ ω α β : Type}

/-- Run an action alone. -/
def exec (x : Act ε σ ω α) (s : σ) : Except ε α × σ := Prog.run (ExceptT.run x) s

/-- One transaction: on an error the state is the one it started from. -/
def txn (f : σ → Except ε (α × σ × List ω)) : Act ε σ ω α :=
  ExceptT.mk (.atomic
    (fun s => match f s with
      | .ok (_, s', out) => (s', out)
      | .error _ => (s, []))
    (fun s => .ret (match f s with
      | .ok (a, _, _) => .ok a
      | .error e => .error e)))

/-- The action with every raised error mapped. -/
def mapError {ε' : Type} (f : ε → ε') (x : Act ε σ ω α) : Act ε' σ ω α :=
  ExceptT.mk (Prog.bind x.run fun r => .ret (match r with
    | .ok a => .ok a
    | .error e => .error (f e)))

/-- Handle every raised error, by an action that may raise others. -/
def catching {ε' : Type} (x : Act ε' σ ω α) (h : ε' → Act ε σ ω α) : Act ε σ ω α :=
  ExceptT.mk (Prog.bind x.run fun r => match r with
    | .ok a => .ret (.ok a)
    | .error e => (h e).run)

/-- Run an action and return its result, raised or not. -/
def attempt {ε' : Type} (x : Act ε σ ω α) : Act ε' σ ω (Except ε α) :=
  ExceptT.mk (Prog.bind x.run fun r => .ret (.ok r))

@[simp] theorem exec_pure (a : α) (s : σ) : exec (pure a : Act ε σ ω α) s = (.ok a, s) := rfl

@[simp] theorem exec_throw (e : ε) (s : σ) :
    exec (throw e : Act ε σ ω α) s = (.error e, s) := rfl

theorem exec_lift (p : Prog σ ω α) (s : σ) :
    exec (ExceptT.lift p : Act ε σ ω α) s = (.ok (p.run s).1, (p.run s).2) := by
  show (Prog.bind p fun a => Prog.ret (Except.ok a : Except ε α)).run s = _
  rw [Prog.run_bind]
  rfl

theorem exec_bind (x : Act ε σ ω α) (f : α → Act ε σ ω β) (s : σ) :
    exec (x >>= f) s = match exec x s with
      | (.ok a, s') => exec (f a) s'
      | (.error e, s') => (.error e, s') := by
  show (Prog.bind x.run (ExceptT.bindCont f)).run s = _
  rw [Prog.run_bind]
  show _ = match Prog.run x.run s with
      | (.ok a, s') => exec (f a) s'
      | (.error e, s') => (.error e, s')
  rcases Prog.run x.run s with ⟨_ | _, _⟩ <;> rfl

theorem exec_catching {ε' : Type} (x : Act ε' σ ω α) (h : ε' → Act ε σ ω α) (s : σ) :
    exec (catching x h) s = match exec x s with
      | (.ok a, s') => (.ok a, s')
      | (.error e, s') => exec (h e) s' := by
  show (Prog.bind x.run _).run s = _
  rw [Prog.run_bind]
  show _ = match Prog.run x.run s with
      | (Except.ok a, s') => (Except.ok a, s')
      | (Except.error e, s') => exec (h e) s'
  rcases Prog.run x.run s with ⟨_ | _, _⟩ <;> rfl

theorem exec_attempt {ε' : Type} (x : Act ε σ ω α) (s : σ) :
    exec (attempt x : Act ε' σ ω (Except ε α)) s = (.ok (exec x s).1, (exec x s).2) := by
  show (Prog.bind x.run _).run s = _
  rw [Prog.run_bind]
  rfl

theorem tryCatch_eq_catching (x : Act ε σ ω α) (h : ε → Act ε σ ω α) :
    tryCatch x h = catching x h := by
  refine congrArg (Prog.bind x.run) (funext fun r => ?_)
  cases r <;> rfl

theorem exec_tryCatch (x : Act ε σ ω α) (h : ε → Act ε σ ω α) (s : σ) :
    exec (tryCatch x h) s = match exec x s with
      | (.ok a, s') => (.ok a, s')
      | (.error e, s') => exec (h e) s' := by
  rw [tryCatch_eq_catching, exec_catching]
  rcases exec x s with ⟨_ | _, _⟩ <;> rfl

theorem exec_mapError {ε' : Type} (f : ε → ε') (x : Act ε σ ω α) (s : σ) :
    exec (mapError f x) s = match exec x s with
      | (.ok a, s') => (.ok a, s')
      | (.error e, s') => (.error (f e), s') := by
  show (Prog.bind x.run _).run s = _
  rw [Prog.run_bind]
  show _ = match Prog.run x.run s with
      | (Except.ok a, s') => (Except.ok a, s')
      | (Except.error e, s') => (Except.error (f e), s')
  rcases Prog.run x.run s with ⟨_ | _, _⟩ <;> rfl

theorem exec_txn (f : σ → Except ε (α × σ × List ω)) (s : σ) :
    exec (txn f) s = match f s with
      | .ok (a, s', _) => (.ok a, s')
      | .error e => (.error e, s) := by
  show (match f s with
    | .ok (a, _, _) => Except.ok a
    | .error e => .error e,
    (match f s with
    | .ok (_, s', out) => (s', out)
    | .error _ => (s, [])).1) = _
  cases f s <;> rfl

/-- A value of a sequence comes from a value of its first part. -/
theorem exec_bind_eq_ok {x : Act ε σ ω α} {f : α → Act ε σ ω β} {s s' : σ} {b : β} :
    exec (x >>= f) s = (.ok b, s') ↔
      ∃ a s₁, exec x s = (.ok a, s₁) ∧ exec (f a) s₁ = (.ok b, s') := by
  rw [exec_bind]
  rcases exec x s with ⟨_ | _, _⟩ <;> simp

theorem exec_bind_ok {x : Act ε σ ω α} {f : α → Act ε σ ω β} {s s' : σ} {a : α}
    (h : exec x s = (.ok a, s')) : exec (x >>= f) s = exec (f a) s' := by
  rw [exec_bind, h]

theorem exec_bind_error {x : Act ε σ ω α} {f : α → Act ε σ ω β} {s s' : σ} {e : ε}
    (h : exec x s = (.error e, s')) : exec (x >>= f) s = (.error e, s') := by
  rw [exec_bind, h]

/-- A value of a sequence of results comes from a value of the first. -/
theorem ok_of_bind {x : Except ε α} {f : α → Except ε β} {b : β} (h : x >>= f = .ok b) :
    ∃ a, x = .ok a ∧ f a = .ok b := by
  cases x with
  | error e => cases h
  | ok a => exact ⟨a, rfl, h⟩

/-! ## Triples -/

/-- From `P`, every step is one of `G`, a value leaves `Q` and a raised error `E`. -/
def Triple (G : σ → σ × List ω → Prop) (P : σ → Prop) (x : Act ε σ ω α) (Q : α → σ → Prop)
    (E : ε → σ → Prop) : Prop :=
  ∀ s, P s → Prog.Along G x.run s ∧ match exec x s with
    | (.ok a, s') => Q a s'
    | (.error e, s') => E e s'

namespace Triple

variable {G G' : σ → σ × List ω → Prop} {P P' : σ → Prop} {Q Q' : α → σ → Prop}
  {E E' : ε → σ → Prop}

theorem ok {x : Act ε σ ω α} (hx : Triple G P x Q E) {s s' : σ} {a : α} (hs : P s)
    (h : exec x s = (.ok a, s')) : Q a s' := by
  have hx := (hx s hs).2
  rwa [h] at hx

theorem error {x : Act ε σ ω α} (hx : Triple G P x Q E) {s s' : σ} {e : ε} (hs : P s)
    (h : exec x s = (.error e, s')) : E e s' := by
  have hx := (hx s hs).2
  rwa [h] at hx

theorem pure {a : α} (h : ∀ s, P s → Q a s) :
    Triple G P (Pure.pure a : Act ε σ ω α) Q E := fun s hs => ⟨trivial, h s hs⟩

theorem throw {e : ε} (h : ∀ s, P s → E e s) :
    Triple G P (MonadExcept.throw e : Act ε σ ω α) Q E := fun s hs => ⟨trivial, h s hs⟩

theorem bind {R : β → σ → Prop} {x : Act ε σ ω β} {f : β → Act ε σ ω α}
    (hx : Triple G P x R E) (hf : ∀ b, Triple G (R b) (f b) Q E) :
    Triple G P (x >>= f) Q E := by
  intro s hs
  obtain ⟨halong, hpost⟩ := hx s hs
  rw [exec_bind]
  rcases hrun : exec x s with ⟨e | b, s'⟩
  · rw [hrun] at hpost
    refine ⟨Prog.Along.bind (f := ExceptT.bindCont f) halong ?_, hpost⟩
    show Prog.Along G (ExceptT.bindCont f (exec x s).1) (exec x s).2
    rw [hrun]
    exact trivial
  · rw [hrun] at hpost
    refine ⟨Prog.Along.bind (f := ExceptT.bindCont f) halong ?_, (hf b s' hpost).2⟩
    show Prog.Along G (ExceptT.bindCont f (exec x s).1) (exec x s).2
    rw [hrun]
    exact (hf b s' hpost).1

theorem catching {ε' : Type} {R : ε' → σ → Prop} {x : Act ε' σ ω α}
    {h : ε' → Act ε σ ω α} (hx : Triple G P x Q R) (hh : ∀ e, Triple G (R e) (h e) Q E) :
    Triple G P (Act.catching x h) Q E := by
  intro s hs
  obtain ⟨halong, hpost⟩ := hx s hs
  rw [exec_catching]
  rcases hrun : exec x s with ⟨e | a, s'⟩
  · rw [hrun] at hpost
    refine ⟨Prog.Along.bind halong ?_, (hh e s' hpost).2⟩
    show Prog.Along G (match (exec x s).1 with
      | .ok a => .ret (.ok a)
      | .error e => (h e).run) (exec x s).2
    rw [hrun]
    exact (hh e s' hpost).1
  · rw [hrun] at hpost
    refine ⟨Prog.Along.bind halong ?_, hpost⟩
    show Prog.Along G (match (exec x s).1 with
      | .ok a => .ret (.ok a)
      | .error e => (h e).run) (exec x s).2
    rw [hrun]
    exact trivial

theorem tryCatch {R : ε → σ → Prop} {x : Act ε σ ω α} {h : ε → Act ε σ ω α}
    (hx : Triple G P x Q R) (hh : ∀ e, Triple G (R e) (h e) Q E) :
    Triple G P (MonadExcept.tryCatch x h) Q E := by
  rw [tryCatch_eq_catching]
  exact catching hx hh

/-- A run whose result, raised or not, is handed on. -/
theorem attempt {ε' : Type} {E' : ε' → σ → Prop} {x : Act ε σ ω α} (hx : Triple G P x Q E) :
    Triple G P (Act.attempt x : Act ε' σ ω (Except ε α)) (fun r s => match r with
      | .ok a => Q a s
      | .error e => E e s) E' := by
  intro s hs
  obtain ⟨halong, hpost⟩ := hx s hs
  refine ⟨Prog.Along.bind halong trivial, ?_⟩
  rw [exec_attempt]
  rcases hrun : exec x s with ⟨e | a, s'⟩ <;> rw [hrun] at hpost <;> exact hpost

theorem mapError {ε' : Type} {f : ε → ε'} {x : Act ε σ ω α} {E' : ε' → σ → Prop}
    (hx : Triple G P x Q fun e => E' (f e)) : Triple G P (Act.mapError f x) Q E' := by
  intro s hs
  obtain ⟨halong, hpost⟩ := hx s hs
  refine ⟨Prog.Along.bind halong trivial, ?_⟩
  rw [exec_mapError]
  rcases hrun : exec x s with ⟨e | a, s'⟩ <;> rw [hrun] at hpost <;> exact hpost

theorem txn {f : σ → Except ε (α × σ × List ω)}
    (hok : ∀ s a s' out, P s → f s = .ok (a, s', out) → G s (s', out) ∧ Q a s')
    (herr : ∀ s e, P s → f s = .error e → G s (s, []) ∧ E e s) :
    Triple G P (Act.txn f) Q E := by
  intro s hs
  rw [exec_txn]
  rcases hf : f s with e | ⟨a, s', out⟩
  · refine ⟨⟨?_, trivial⟩, (herr s e hs hf).2⟩
    dsimp only
    rw [hf]
    exact (herr s e hs hf).1
  · refine ⟨⟨?_, trivial⟩, (hok s a s' out hs hf).2⟩
    dsimp only
    rw [hf]
    exact (hok s a s' out hs hf).1

theorem weaken {x : Act ε σ ω α} (hx : Triple G P' x Q' E') (hP : ∀ s, P s → P' s)
    (hQ : ∀ a s, Q' a s → Q a s) (hE : ∀ e s, E' e s → E e s) : Triple G P x Q E := by
  intro s hs
  obtain ⟨halong, hpost⟩ := hx s (hP s hs)
  refine ⟨halong, ?_⟩
  rcases hrun : exec x s with ⟨e | a, s'⟩
  · rw [hrun] at hpost
    exact hE e s' hpost
  · rw [hrun] at hpost
    exact hQ a s' hpost

/-- A weaker guarantee. -/
theorem guarantee {x : Act ε σ ω α} (hx : Triple G P x Q E) (hG : ∀ s n, G s n → G' s n) :
    Triple G' P x Q E :=
  fun s hs => ⟨(hx s hs).1.imp hG, (hx s hs).2⟩

end Triple

/-! ## Invariants of every step -/

/-- Every step of the action keeps `I`. -/
def Always (I : σ → Prop) (x : Act ε σ ω α) : Prop := Prog.Always I x.run

namespace Always

variable {I : σ → Prop}

theorem lift {p : Prog σ ω α} (hp : p.Always I) : Always I (ExceptT.lift p : Act ε σ ω α) :=
  Prog.Always.bind hp fun _ => trivial

theorem exec {x : Act ε σ ω α} (hx : Always I x) {s : σ} (hs : I s) : I (Act.exec x s).2 :=
  Prog.Always.run hx hs

theorem triple {x : Act ε σ ω α} (hx : Always I x) :
    Triple (fun _ n => I n.1) I x (fun _ => I) fun _ => I := by
  intro s hs
  refine ⟨Prog.Always.along hx hs, ?_⟩
  have hend := hx.exec hs
  rcases hrun : Act.exec x s with ⟨e | a, s'⟩ <;> rw [hrun] at hend <;> exact hend

end Always

/-! ## Steps taken from any state -/

/-- Every step of the action, from whatever state it is taken, is one of `G`. -/
def Each (G : σ → σ × List ω → Prop) (x : Act ε σ ω α) : Prop := Prog.Each G x.run

namespace Each

variable {G : σ → σ × List ω → Prop}

theorem pure (a : α) : Each G (Pure.pure a : Act ε σ ω α) := trivial

theorem throw (e : ε) : Each G (MonadExcept.throw e : Act ε σ ω α) := trivial

theorem bind {x : Act ε σ ω α} {f : α → Act ε σ ω β} (hx : Each G x)
    (hf : ∀ a, Each G (f a)) : Each G (x >>= f) := by
  apply Prog.Each.bind (f := ExceptT.bindCont f) hx
  rintro (e | a)
  · exact trivial
  · exact hf a

theorem catching {ε' : Type} {x : Act ε' σ ω α} {h : ε' → Act ε σ ω α} (hx : Each G x)
    (hh : ∀ e, Each G (h e)) : Each G (Act.catching x h) := by
  apply Prog.Each.bind hx
  rintro (e | a)
  · exact hh e
  · exact trivial

theorem tryCatch {x : Act ε σ ω α} {h : ε → Act ε σ ω α} (hx : Each G x)
    (hh : ∀ e, Each G (h e)) : Each G (MonadExcept.tryCatch x h) := by
  rw [tryCatch_eq_catching]
  exact catching hx hh

theorem mapError {ε' : Type} {f : ε → ε'} {x : Act ε σ ω α} (hx : Each G x) :
    Each G (Act.mapError f x) :=
  Prog.Each.bind hx fun _ => trivial

theorem txn {f : σ → Except ε (α × σ × List ω)} (hsame : ∀ s, G s (s, []))
    (hf : ∀ s a s' out, f s = .ok (a, s', out) → G s (s', out)) : Each G (Act.txn f) := by
  intro s
  refine ⟨?_, trivial⟩
  dsimp only
  rcases h : f s with e | r
  · exact hsame s
  · exact hf s r.1 r.2.1 r.2.2 h

end Each

/-! ## Invariants, with a fact about the value -/

/-- Every step keeps `I`, and a value satisfies `Q`. -/
def Keeps (I : σ → Prop) (x : Act ε σ ω α) (Q : α → Prop) : Prop :=
  Triple (fun _ n => I n.1) I x (fun a s => I s ∧ Q a) fun _ => I

namespace Keeps

variable {I : σ → Prop} {Q : α → Prop}

theorem of_always {x : Act ε σ ω α} (hx : Always I x) : Keeps I x fun _ => True :=
  hx.triple.weaken (fun _ hs => hs) (fun _ _ hs => ⟨hs, trivial⟩) fun _ _ hs => hs

theorem pure {a : α} (h : Q a) : Keeps I (Pure.pure a : Act ε σ ω α) Q :=
  Triple.pure fun _ hs => ⟨hs, h⟩

theorem bind {R : β → Prop} {x : Act ε σ ω β} {f : β → Act ε σ ω α} (hx : Keeps I x R)
    (hf : ∀ b, R b → Keeps I (f b) Q) : Keeps I (x >>= f) Q :=
  Triple.bind hx fun b s hs => hf b hs.2 s hs.1

theorem attempt {ε' : Type} {x : Act ε σ ω α} (hx : Keeps I x Q) :
    Keeps I (Act.attempt x : Act ε' σ ω (Except ε α)) fun r => ∀ a, r = .ok a → Q a := by
  refine (Triple.attempt hx).weaken (fun _ hs => hs) (fun r s hs => ?_) fun _ _ hs => hs
  cases r with
  | ok a => exact ⟨hs.1, fun b hb => by cases hb; exact hs.2⟩
  | error e => exact ⟨hs, fun b hb => by cases hb⟩

theorem txn {f : σ → Except ε (α × σ × List ω)}
    (hf : ∀ s a s' out, I s → f s = .ok (a, s', out) → I s' ∧ Q a) : Keeps I (Act.txn f) Q :=
  Triple.txn (fun s a s' out hs h => ⟨(hf s a s' out hs h).1, hf s a s' out hs h⟩)
    fun _ _ hs _ => ⟨hs, hs⟩

end Keeps

/-- The states a run passes through, with the one it starts from. -/
def states (x : Act ε σ ω α) (s : σ) : List σ := s :: Prog.trace x.run s

theorem exec_mem_states (x : Act ε σ ω α) (s : σ) : (exec x s).2 ∈ states x s := by
  show (Prog.run x.run s).2 ∈ s :: Prog.trace x.run s
  generalize (x.run : Prog σ ω (Except ε α)) = p
  induction p generalizing s with
  | ret a => exact List.mem_cons_self
  | atomic next k ih => exact List.mem_cons_of_mem _ (ih s (next s).1)

theorem Triple.states {I P : σ → Prop} {x : Act ε σ ω α} {Q : α → σ → Prop} {E : ε → σ → Prop}
    (hx : Triple (fun _ n => I n.1) P x Q E) {s : σ} (hs : P s) (hI : I s) :
    ∀ s' ∈ Act.states x s, I s' := by
  intro s' hs'
  rcases List.mem_cons.mp hs' with rfl | hs'
  · exact hI
  · exact (hx s hs).1.trace hs'

end Act
