import CctvMemory.Library.Amid
import CctvMemory.Library.Trace
import Mathlib.Algebra.BigOperators.Group.Finset.Basic
import Mathlib.Data.Fintype.Basic

/-!
# Clients of one shared state

Any number of clients, each idle, amid a program or done with one. One step of
one client at a time, in any order (`Clients.call`). A note is kept on every
program under way, from the outputs of its steps.

* `Clients.Disciplined`: every program under way is what `Act.Prog.Amid` says of
  it, and every result what it promises; kept by `begin` and by `call`.
* `Clients.load`: the sum of what the programs under way weigh, by their notes.
-/

namespace Act

/-- A client: the rest of its program and the note on it, or its last result. -/
inductive Client (σ ω γ α : Type) where
  | idle
  | running (rest : Prog σ ω α) (note : γ)
  | done (result : α)

structure Clients (ι σ ω γ α : Type) where
  shared : σ
  stage : ι → Client σ ω γ α

variable {ι σ ω γ α : Type}

namespace Client

/-- The client after a step: a program without steps left is done. -/
def of : Prog σ ω α → γ → Client σ ω γ α
  | .ret a, _ => .done a
  | .atomic next k, g => .running (.atomic next k) g

/-- The result of a client that is done. -/
def result? : Client σ ω γ α → Option α
  | done a => some a
  | _ => none

theorem result?_eq_some {client : Client σ ω γ α} {a : α} (h : client.result? = some a) :
    client = .done a := by
  cases client with
  | idle => cases h
  | running rest g => cases h
  | done a' =>
      cases h
      rfl

/-- What a client weighs: nothing, unless it is amid a program. -/
def weigh (f : γ → ℕ) : Client σ ω γ α → ℕ
  | running _ g => f g
  | _ => 0

/-- What the rest of its program may do, or what its result is. -/
def Meets (upd : γ → List ω → γ) (G : γ → σ → σ × List ω → Prop) (Q : α → γ → Prop) :
    Client σ ω γ α → Prop
  | idle => True
  | running rest g => rest.Amid upd G g Q
  | done a => ∃ g, Q a g

variable {upd : γ → List ω → γ} {G : γ → σ → σ × List ω → Prop} {Q : α → γ → Prop}

theorem meets_of {p : Prog σ ω α} {g : γ} (h : p.Amid upd G g Q) : (of p g).Meets upd G Q := by
  cases p with
  | ret a => exact ⟨g, h⟩
  | atomic next k => exact h

theorem weigh_of_le (f : γ → ℕ) (p : Prog σ ω α) (g : γ) : (of p g).weigh f ≤ f g := by
  cases p with
  | ret a => exact Nat.zero_le _
  | atomic next k => exact le_refl _

end Client

namespace Clients

variable [DecidableEq ι]

/-- Start a program; a client amid another one cannot. -/
def begin (c : Clients ι σ ω γ α) (i : ι) (p : Prog σ ω α) (g : γ) : Option (Clients ι σ ω γ α) :=
  match c.stage i with
  | .running _ _ => none
  | _ => some { c with stage := Function.update c.stage i (Client.of p g) }

/-- The next step of a client amid a program. -/
def call (upd : γ → List ω → γ) (c : Clients ι σ ω γ α) (i : ι) : Option (Clients ι σ ω γ α) :=
  match c.stage i with
  | .running (.atomic next k) g => some {
      shared := (next c.shared).1
      stage := Function.update c.stage i (Client.of (k c.shared) (upd g (next c.shared).2)) }
  | _ => none

variable {upd : γ → List ω → γ} {G : γ → σ → σ × List ω → Prop} {Q : α → γ → Prop}
  {c c' : Clients ι σ ω γ α} {i : ι}

theorem begin_eq_some {p : Prog σ ω α} {g : γ} (h : c.begin i p g = some c') :
    (∀ rest note, c.stage i ≠ .running rest note) ∧ c'.shared = c.shared ∧
      c'.stage = Function.update c.stage i (Client.of p g) := by
  unfold begin at h
  cases hstage : c.stage i with
  | running rest note =>
      rw [hstage] at h
      cases h
  | idle =>
      rw [hstage] at h
      cases h
      exact ⟨fun _ _ => nofun, rfl, rfl⟩
  | done a =>
      rw [hstage] at h
      cases h
      exact ⟨fun _ _ => nofun, rfl, rfl⟩

theorem call_eq_some (h : c.call upd i = some c') : ∃ next k g,
    c.stage i = .running (.atomic next k) g ∧ c'.shared = (next c.shared).1 ∧
      c'.stage = Function.update c.stage i
        (Client.of (k c.shared) (upd g (next c.shared).2)) := by
  unfold call at h
  split at h
  · rename_i next k g hstage
    cases h
    exact ⟨next, k, g, hstage, rfl, rfl⟩
  · cases h

/-- What the next step of a client puts out. -/
def outputs (c : Clients ι σ ω γ α) (i : ι) : List ω :=
  match c.stage i with
  | .running (.atomic next _) _ => (next c.shared).2
  | _ => []

/-! ## Transactions -/

section Transactions

variable {ε α β : Type} {f : σ → Except ε (α × σ × List ω)} {a : α} {s' : σ} {out : List ω}
  {g : γ}

/-- The one step of a transaction that returns. -/
theorem txn_run_ok {s : σ} (hf : f s = .ok (a, s', out)) : ∃ next k,
    ExceptT.run (Act.txn f) = Prog.atomic next k ∧ next s = (s', out) ∧ k s = .ret (.ok a) := by
  refine ⟨_, _, rfl, ?_, ?_⟩
  · simp only [hf]
  · simp only [hf]

/-- A client whose program is one transaction is done after it. -/
theorem call_txn_done {c c' : Clients ι σ ω γ (Except ε α)} (hcall : c.call upd i = some c')
    (hstage : c.stage i = .running (ExceptT.run (Act.txn f)) g) :
    ∃ result, c'.stage = Function.update c.stage i (.done result) := by
  unfold call at hcall
  rw [hstage] at hcall
  cases hcall
  exact ⟨_, rfl⟩

theorem call_txn_ok {c c' : Clients ι σ ω γ (Except ε α)} (hcall : c.call upd i = some c')
    (hstage : c.stage i = .running (ExceptT.run (Act.txn f)) g)
    (hf : f c.shared = .ok (a, s', out)) :
    c'.shared = s' ∧ c'.stage = Function.update c.stage i (.done (.ok a)) ∧
      c.outputs i = out := by
  obtain ⟨next, k, hrun, hnext, hk⟩ := txn_run_ok hf
  rw [hrun] at hstage
  unfold call at hcall
  unfold outputs
  rw [hstage] at hcall ⊢
  dsimp only at hcall ⊢
  rw [hnext, hk] at hcall
  cases hcall
  exact ⟨rfl, rfl, congrArg Prod.snd hnext⟩

/-- A transaction that returns, and the program goes on. -/
theorem call_bind_ok {c c' : Clients ι σ ω γ (Except ε β)} {rest : α → Act ε σ ω β}
    (hcall : c.call upd i = some c')
    (hstage : c.stage i = .running (ExceptT.run (Act.txn f >>= rest)) g)
    (hf : f c.shared = .ok (a, s', out)) :
    c'.shared = s' ∧ c'.stage = Function.update c.stage i
      (Client.of (ExceptT.run (rest a)) (upd g out)) ∧ c.outputs i = out := by
  obtain ⟨next, k, hrun, hnext, hk⟩ := txn_run_ok hf
  have hbind : ExceptT.run (Act.txn f >>= rest)
      = Prog.atomic next fun s => (k s).bind (ExceptT.bindCont rest) := by
    show Prog.bind (ExceptT.run (Act.txn f)) (ExceptT.bindCont rest) = _
    rw [hrun]
    rfl
  rw [hbind] at hstage
  unfold call at hcall
  unfold outputs
  rw [hstage] at hcall ⊢
  dsimp only at hcall ⊢
  rw [hnext, hk] at hcall
  cases hcall
  exact ⟨rfl, rfl, congrArg Prod.snd hnext⟩

end Transactions

/-! ## Discipline -/

def Disciplined (upd : γ → List ω → γ) (G : γ → σ → σ × List ω → Prop) (Q : α → γ → Prop)
    (c : Clients ι σ ω γ α) : Prop := ∀ i, (c.stage i).Meets upd G Q

namespace Disciplined

omit [DecidableEq ι] in
theorem of_idle (h : ∀ i, c.stage i = .idle) : Disciplined upd G Q c := by
  intro i
  rw [h i]
  exact trivial

theorem update (h : Disciplined upd G Q c) {p : Prog σ ω α} {g : γ}
    (hp : p.Amid upd G g Q) (hstage : c'.stage = Function.update c.stage i (Client.of p g)) :
    Disciplined upd G Q c' := by
  intro j
  rw [hstage]
  by_cases hj : j = i
  · subst hj
    rw [Function.update_self]
    exact Client.meets_of hp
  · rw [Function.update_of_ne hj]
    exact h j

theorem begin (h : Disciplined upd G Q c) {p : Prog σ ω α} {g : γ} (hp : p.Amid upd G g Q)
    (hbegin : c.begin i p g = some c') : Disciplined upd G Q c' :=
  h.update hp (begin_eq_some hbegin).2.2

/-- A step is one that the note allows, and the discipline goes on. -/
theorem call (h : Disciplined upd G Q c) (hcall : c.call upd i = some c') :
    ∃ next k g, c.stage i = .running (.atomic next k) g ∧ c'.shared = (next c.shared).1 ∧
      c'.stage = Function.update c.stage i
        (Client.of (k c.shared) (upd g (next c.shared).2)) ∧
      G g c.shared (next c.shared) ∧ Disciplined upd G Q c' := by
  obtain ⟨next, k, g, hstage, hshared, hafter⟩ := call_eq_some hcall
  have hmeets := h i
  rw [hstage] at hmeets
  obtain ⟨hstep, hrest⟩ := hmeets c.shared
  exact ⟨next, k, g, hstage, hshared, hafter, hstep, h.update hrest hafter⟩

end Disciplined

/-! ## Load -/

variable [Fintype ι]

/-- What the programs under way weigh together. -/
def load (f : γ → ℕ) (c : Clients ι σ ω γ α) : ℕ := ∑ i, (c.stage i).weigh f

omit [DecidableEq ι] in
theorem load_idle {f : γ → ℕ} (h : ∀ i, c.stage i = .idle) : c.load f = 0 := by
  apply Finset.sum_eq_zero
  intro i _
  rw [h i]
  rfl

/-- One client changes: the load changes by what it weighs. -/
theorem load_update {f : γ → ℕ} {client : Client σ ω γ α}
    (h : c'.stage = Function.update c.stage i client) :
    c'.load f + (c.stage i).weigh f = c.load f + client.weigh f := by
  have hothers : ∑ j ∈ Finset.univ.erase i, (c'.stage j).weigh f
      = ∑ j ∈ Finset.univ.erase i, (c.stage j).weigh f := by
    apply Finset.sum_congr rfl
    intro j hj
    rw [h, Function.update_of_ne (Finset.ne_of_mem_erase hj)]
  unfold load
  rw [← Finset.add_sum_erase _ _ (Finset.mem_univ i), ← Finset.add_sum_erase Finset.univ
    (fun j => (c.stage j).weigh f) (Finset.mem_univ i), hothers, h, Function.update_self]
  omega

end Clients

end Act
