import CctvMemory.Library.Act

/-!
# Programs amid others

What a program does when anything may happen to the shared state between two
of its steps. A note `g`, kept up to date from the outputs of the steps
(`upd`), remembers what the program has seen; `Amid upd G p g Q` says that
every step, from whatever state it is taken, is one that `G` allows under the
note so far, and that the program ends with `Q`.

* `Amid.bind`, `Amid.catching`, `Amid.txn`: the rules of a sequence, of a handler and
  of a transaction.
-/

namespace Act

namespace Prog

variable {σ ω γ α β : Type}

def Amid (upd : γ → List ω → γ) (G : γ → σ → σ × List ω → Prop) :
    Prog σ ω α → γ → (α → γ → Prop) → Prop
  | ret a, g, Q => Q a g
  | atomic next k, g, Q => ∀ s, G g s (next s) ∧ (k s).Amid upd G (upd g (next s).2) Q

variable {upd : γ → List ω → γ} {G : γ → σ → σ × List ω → Prop}

theorem Amid.bind {p : Prog σ ω α} {f : α → Prog σ ω β} {g : γ} {Q : β → γ → Prop}
    (hp : p.Amid upd G g fun a g' => (f a).Amid upd G g' Q) : (p.bind f).Amid upd G g Q := by
  induction p generalizing g with
  | ret a => exact hp
  | atomic next k ih => exact fun s => ⟨(hp s).1, ih s (hp s).2⟩

theorem Amid.imp {p : Prog σ ω α} {g : γ} {Q Q' : α → γ → Prop} (hp : p.Amid upd G g Q)
    (hQ : ∀ a g, Q a g → Q' a g) : p.Amid upd G g Q' := by
  induction p generalizing g with
  | ret a => exact hQ a g hp
  | atomic next k ih => exact fun s => ⟨(hp s).1, ih s (hp s).2⟩

end Prog

variable {ε σ ω γ α β : Type}

/-- The rule of a program that may raise: one postcondition for a value, one
for an error. -/
def Amid (upd : γ → List ω → γ) (G : γ → σ → σ × List ω → Prop) (x : Act ε σ ω α) (g : γ)
    (Q : α → γ → Prop) (E : ε → γ → Prop) : Prop :=
  Prog.Amid upd G x.run g fun r g' => match r with
    | .ok a => Q a g'
    | .error e => E e g'

namespace Amid

variable {upd : γ → List ω → γ} {G : γ → σ → σ × List ω → Prop} {g : γ} {E : ε → γ → Prop}

theorem pure {a : α} {Q : α → γ → Prop} (h : Q a g) :
    Amid upd G (Pure.pure a : Act ε σ ω α) g Q E := h

theorem throw {e : ε} {Q : α → γ → Prop} (h : E e g) :
    Amid upd G (MonadExcept.throw e : Act ε σ ω α) g Q E := h

theorem bind {x : Act ε σ ω α} {f : α → Act ε σ ω β} {Q : β → γ → Prop}
    (hx : Amid upd G x g (fun a g' => Amid upd G (f a) g' Q E) E) :
    Amid upd G (x >>= f) g Q E := by
  apply Prog.Amid.bind (f := ExceptT.bindCont f)
  apply Prog.Amid.imp hx
  rintro (e | a) g' h
  · exact h
  · exact h

theorem imp {x : Act ε σ ω α} {Q Q' : α → γ → Prop} (hx : Amid upd G x g Q E)
    (hQ : ∀ a g, Q a g → Q' a g) : Amid upd G x g Q' E := by
  apply Prog.Amid.imp hx
  rintro (e | a) g' h
  · exact h
  · exact hQ a g' h

theorem imp_error {x : Act ε σ ω α} {Q : α → γ → Prop} {E' : ε → γ → Prop}
    (hx : Amid upd G x g Q E) (hE : ∀ e g, E e g → E' e g) : Amid upd G x g Q E' := by
  apply Prog.Amid.imp hx
  rintro (e | a) g' h
  · exact hE e g' h
  · exact h

theorem catching {ε' : Type} {R : ε' → γ → Prop} {x : Act ε' σ ω α} {h : ε' → Act ε σ ω α}
    {Q : α → γ → Prop} (hx : Amid upd G x g Q R) (hh : ∀ e g', R e g' → Amid upd G (h e) g' Q E) :
    Amid upd G (Act.catching x h) g Q E := by
  apply Prog.Amid.bind
  apply Prog.Amid.imp hx
  rintro (e | a) g' hpost
  · exact hh e g' hpost
  · exact hpost

/-- A transaction meets the state as others left it. -/
theorem txn {f : σ → Except ε (α × σ × List ω)} {Q : α → γ → Prop}
    (h : ∀ s, match f s with
      | .ok (a, s', out) => G g s (s', out) ∧ Q a (upd g out)
      | .error e => G g s (s, []) ∧ E e (upd g [])) :
    Amid upd G (Act.txn f) g Q E := by
  intro s
  have hs := h s
  dsimp only
  cases hf : f s with
  | ok r =>
      rw [hf] at hs
      exact hs
  | error e =>
      rw [hf] at hs
      exact hs

end Amid

end Act
