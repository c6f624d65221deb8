import CctvMemory.Library.Act

/-!
# What a run emits

The outputs of the steps of a run, in order (`record`), and a Hoare rule whose
assertions see the state and the outputs so far.

* `record_bind`, `record_catching`: the record of a sequence and of a handler.
* `Recorded`: one rule for each construct of an action.
-/

namespace Act

namespace Prog

variable {σ ω α β : Type}

/-- The outputs of a run, in the order of its steps. -/
def record : Prog σ ω α → σ → List ω
  | ret _, _ => []
  | atomic next k, s => (next s).2 ++ (k s).record (next s).1

theorem record_bind (p : Prog σ ω α) (f : α → Prog σ ω β) (s : σ) :
    (p.bind f).record s = p.record s ++ (f (p.run s).1).record (p.run s).2 := by
  induction p generalizing s with
  | ret a => rfl
  | atomic next k ih =>
      show (next s).2 ++ ((k s).bind f).record (next s).1 = _
      rw [ih s, ← List.append_assoc]
      rfl

end Prog

variable {ε ε' σ ω α β : Type}

def record (x : Act ε σ ω α) (s : σ) : List ω := Prog.record x.run s

@[simp] theorem record_pure (a : α) (s : σ) : record (pure a : Act ε σ ω α) s = [] := rfl

@[simp] theorem record_throw (e : ε) (s : σ) : record (throw e : Act ε σ ω α) s = [] := rfl

theorem record_bind (x : Act ε σ ω α) (f : α → Act ε σ ω β) (s : σ) :
    record (x >>= f) s = record x s ++ match exec x s with
      | (.ok a, s') => record (f a) s'
      | (.error _, _) => [] := by
  show (Prog.bind x.run (ExceptT.bindCont f)).record s = _
  rw [Prog.record_bind]
  show _ = Prog.record x.run s ++ match Prog.run x.run s with
      | (.ok a, s') => record (f a) s'
      | (.error _, _) => []
  rcases Prog.run x.run s with ⟨_ | _, _⟩ <;> rfl

theorem record_catching (x : Act ε' σ ω α) (h : ε' → Act ε σ ω α) (s : σ) :
    record (catching x h) s = record x s ++ match exec x s with
      | (.ok _, _) => []
      | (.error e, s') => record (h e) s' := by
  show (Prog.bind x.run _).record s = _
  rw [Prog.record_bind]
  show _ = Prog.record x.run s ++ match Prog.run x.run s with
      | (Except.ok _, _) => []
      | (Except.error e, s') => record (h e) s'
  rcases Prog.run x.run s with ⟨_ | _, _⟩ <;> rfl

theorem record_mapError (f : ε → ε') (x : Act ε σ ω α) (s : σ) :
    record (mapError f x) s = record x s := by
  show (Prog.bind x.run _).record s = _
  rw [Prog.record_bind]
  exact List.append_nil _

theorem record_txn (f : σ → Except ε (α × σ × List ω)) (s : σ) :
    record (txn f) s = match f s with
      | .ok (_, _, out) => out
      | .error _ => [] := by
  show (match f s with
    | .ok (_, s', out) => (s', out)
    | .error _ => (s, [])).2 ++ [] = _
  rw [List.append_nil]
  cases f s <;> rfl

/-! ## The rule -/

/-- From `P`, a value leaves `Q` and a raised error `E`, each of the state and
of everything emitted up to it. -/
def Recorded (P : σ → List ω → Prop) (x : Act ε σ ω α) (Q : α → σ → List ω → Prop)
    (E : ε → σ → List ω → Prop) : Prop :=
  ∀ s out, P s out → match exec x s with
    | (.ok a, s') => Q a s' (out ++ record x s)
    | (.error e, s') => E e s' (out ++ record x s)

namespace Recorded

variable {P P' : σ → List ω → Prop} {Q Q' : α → σ → List ω → Prop}
  {E E' R : ε → σ → List ω → Prop}

theorem pure {a : α} (h : ∀ s out, P s out → Q a s out) :
    Recorded P (Pure.pure a : Act ε σ ω α) Q E := by
  intro s out hs
  rw [record_pure, List.append_nil]
  exact h s out hs

theorem throw {e : ε} (h : ∀ s out, P s out → E e s out) :
    Recorded P (MonadExcept.throw e : Act ε σ ω α) Q E := by
  intro s out hs
  rw [show record (MonadExcept.throw e : Act ε σ ω α) s = [] from rfl, List.append_nil]
  exact h s out hs

theorem bind {R : β → σ → List ω → Prop} {x : Act ε σ ω β} {f : β → Act ε σ ω α}
    (hx : Recorded P x R E) (hf : ∀ b, Recorded (R b) (f b) Q E) :
    Recorded P (x >>= f) Q E := by
  intro s out hs
  have hpost := hx s out hs
  rw [exec_bind, record_bind]
  rcases hrun : exec x s with ⟨e | b, s'⟩ <;> rw [hrun] at hpost
  · rw [List.append_nil]
    exact hpost
  · rw [← List.append_assoc]
    exact hf b s' _ hpost

theorem catching {R : ε' → σ → List ω → Prop} {x : Act ε' σ ω α} {h : ε' → Act ε σ ω α}
    (hx : Recorded P x Q R) (hh : ∀ e, Recorded (R e) (h e) Q E) :
    Recorded P (Act.catching x h) Q E := by
  intro s out hs
  have hpost := hx s out hs
  rw [exec_catching, record_catching]
  rcases hrun : exec x s with ⟨e | a, s'⟩ <;> rw [hrun] at hpost
  · rw [← List.append_assoc]
    exact hh e s' _ hpost
  · rw [List.append_nil]
    exact hpost

theorem tryCatch {x : Act ε σ ω α} {h : ε → Act ε σ ω α} (hx : Recorded P x Q R)
    (hh : ∀ e, Recorded (R e) (h e) Q E) :
    Recorded P (MonadExcept.tryCatch x h) Q E := by
  rw [tryCatch_eq_catching]
  exact catching hx hh

theorem mapError {f : ε → ε'} {x : Act ε σ ω α} {F : ε' → σ → List ω → Prop}
    (hx : Recorded P x Q fun e => F (f e)) : Recorded P (Act.mapError f x) Q F := by
  intro s out hs
  have hpost := hx s out hs
  rw [exec_mapError, record_mapError]
  rcases hrun : exec x s with ⟨e | a, s'⟩ <;> rw [hrun] at hpost <;> exact hpost

theorem weaken {x : Act ε σ ω α} (hx : Recorded P' x Q' E') (hP : ∀ s out, P s out → P' s out)
    (hQ : ∀ a s out, Q' a s out → Q a s out) (hE : ∀ e s out, E' e s out → E e s out) :
    Recorded P x Q E := by
  intro s out hs
  have hpost := hx s out (hP s out hs)
  rcases hrun : exec x s with ⟨e | a, s'⟩ <;> rw [hrun] at hpost
  · exact hE e s' _ hpost
  · exact hQ a s' _ hpost

theorem anything {x : Act ε σ ω α} :
    Recorded P x (fun _ _ _ => True) fun _ _ _ => True := by
  intro s out _
  rcases exec x s with ⟨e | a, s'⟩ <;> exact trivial

/-- The value is one that the action returns. -/
theorem returned {x : Act ε σ ω α} (hx : Recorded P x Q E) :
    Recorded P x (fun a s out => (∃ s₀ s₁, exec x s₀ = (.ok a, s₁)) ∧ Q a s out) E := by
  intro s out hs
  have hpost := hx s out hs
  rcases hrun : exec x s with ⟨e | a, s'⟩ <;> rw [hrun] at hpost
  · exact hpost
  · exact ⟨⟨s, s', hrun⟩, hpost⟩

/-- From a state where the run is known to return. -/
theorem of_exec {x : Act ε σ ω α} (hx : Recorded P x Q E) {s s' : σ} {a : α}
    (h : exec x s = (.ok a, s')) :
    Recorded (fun t out => t = s ∧ P t out) x (fun b t out => b = a ∧ t = s' ∧ Q b t out) E' := by
  rintro t out ⟨rfl, ht⟩
  have hpost := hx t out ht
  rw [h] at hpost ⊢
  exact ⟨rfl, rfl, hpost⟩

end Recorded

end Act
