import CctvMemory.Library.Trace
import Mathlib.Data.List.Basic
import Mathlib.Logic.Function.Basic

/-!
# Write sections

`SqliteWriteCoordinator.write` takes the lock of the process and marks the thread, and
the `begin` hook of the engine then starts the transaction with `BEGIN IMMEDIATE`. A
session outside of a write section takes SQLite's write lock at its first write only.
Any number of processes, with any number of threads, share one database; a process may
be killed at any time.

* `sections_serial`: the database is what the committed sections make of it one after
  the other, each of them from its first read on.
* `busy_needs_other`: why there are two locks.
* `nested_write_blocks`: a section inside of a section blocks all writers.
-/

namespace CctvMemory.Storage

/-! ## Sections -/

/-- What a `with` block does with its session. -/
inductive Script (σ α : Type) where
  | returns (result : α)
  | raises
  | select (next : σ → Script σ α)
  | write (change : σ → σ) (next : Script σ α)
  /-- `coordinator.write()` once more. -/
  | enter (next : Script σ α)

namespace Script

variable {σ α : Type}

/-- The block alone: its result and the database after it, unless it raises. -/
def run : Script σ α → σ → Option (α × σ)
  | returns result, s => some (result, s)
  | raises, _ => none
  | select next, s => (next s).run s
  | write change next, s => next.run (change s)
  | enter _, _ => none

/-- No section is entered from within. -/
def Flat : Script σ α → Prop
  | returns _ => True
  | raises => True
  | select next => ∀ s, (next s).Flat
  | write _ next => next.Flat
  | enter _ => False

end Script

inductive Phase (σ α : Type) where
  | idle
  /-- It asks for the lock of its process. -/
  | waiting (body : Script σ α)
  /-- It has that lock and the write intent, and no transaction yet. -/
  | holding (body : Script σ α)
  /-- A session without write intent, before its first write. -/
  | browsing (rest : Script σ α)
  /-- A transaction with the write lock of the database: what it runs, its view of the
  database and what is left. -/
  | writing (coordinated : Bool) (body : Script σ α) (view : σ) (rest : Script σ α)

/-- A thread of a process. -/
abbrev Thread (P T : Type) := P × T

/-- A transaction that was committed. -/
structure Commit (P T σ α : Type) where
  thread : Thread P T
  coordinated : Bool
  body : Script σ α
  result : α

structure Database (P T σ α : Type) where
  content : σ
  /-- Who has the lock of the process. -/
  lock : P → Option T
  /-- Who has the write lock of the database. -/
  writer : Option (Thread P T)
  phase : Thread P T → Phase σ α
  log : List (Commit P T σ α)

inductive Event (P T σ α : Type) where
  | request (i : Thread P T) (body : Script σ α)
  /-- A session outside of a section; it enters none. -/
  | browse (i : Thread P T) (body : Script σ α) (hflat : body.Flat)
  | acquire (i : Thread P T)
  | begin (i : Thread P T)
  /-- The transaction cannot begin within the busy timeout. -/
  | busy (i : Thread P T)
  | statement (i : Thread P T)
  | finish (i : Thread P T)
  | kill (p : P)

variable {P T σ α : Type} [DecidableEq P] [DecidableEq T]

namespace Database

variable (c : Database P T σ α)

def go (i : Thread P T) (phase : Phase σ α) : Database P T σ α :=
  { c with phase := Function.update c.phase i phase }

def setLock (p : P) (owner : Option T) : Database P T σ α :=
  { c with lock := Function.update c.lock p owner }

/-- The end of a transaction, and of its section. -/
def leave (i : Thread P T) (coordinated : Bool) : Database P T σ α :=
  let c' := { c.go i .idle with writer := none }
  if coordinated then c'.setLock i.1 none else c'

def commit (i : Thread P T) (coordinated : Bool) (body : Script σ α) (view : σ) (result : α) :
    Database P T σ α :=
  { c.leave i coordinated with content := view, log := c.log ++ [⟨i, coordinated, body, result⟩] }

/-- The end of a process. -/
def kill (p : P) : Database P T σ α where
  content := c.content
  lock := Function.update c.lock p none
  writer := c.writer.filter fun i => i.1 ≠ p
  phase := fun i => if i.1 = p then .idle else c.phase i
  log := c.log

end Database

def step (c : Database P T σ α) : Event P T σ α → Option (Database P T σ α)
  | .request i body =>
      match c.phase i with
      | .idle => some (c.go i (.waiting body))
      | _ => none
  | .browse i body _ =>
      match c.phase i with
      | .idle => some (c.go i (.browsing body))
      | _ => none
  | .acquire i =>
      match c.phase i, c.lock i.1 with
      | .waiting body, none => some ((c.go i (.holding body)).setLock i.1 (some i.2))
      | _, _ => none
  | .begin i =>
      match c.writer, c.phase i with
      -- `BEGIN IMMEDIATE`
      | none, .holding body =>
          some { c.go i (.writing true body c.content body) with writer := some i }
      -- the implicit `BEGIN` before the first write
      | none, .browsing (.write change next) =>
          some { c.go i (.writing false (.write change next) c.content (.write change next)) with
            writer := some i }
      | _, _ => none
  | .busy i =>
      match c.writer, c.phase i with
      | some _, .holding _ => some ((c.go i .idle).setLock i.1 none)
      | some _, .browsing (.write _ _) => some (c.go i .idle)
      | _, _ => none
  | .statement i =>
      match c.phase i with
      | .writing k body view (.select next) => some (c.go i (.writing k body view (next view)))
      | .writing k body view (.write change next) =>
          some (c.go i (.writing k body (change view) next))
      | .browsing (.select next) => some (c.go i (.browsing (next c.content)))
      | _ => none
  | .finish i =>
      match c.phase i with
      | .writing k body view (.returns result) => some (c.commit i k body view result)
      | .writing k _ _ .raises => some (c.leave i k)
      | .browsing (.returns _) => some (c.go i .idle)
      | .browsing .raises => some (c.go i .idle)
      | _ => none
  | .kill p => some (c.kill p)

/-- What a step can do. -/
inductive Does (c : Database P T σ α) : Event P T σ α → Database P T σ α → Prop where
  | request {i : Thread P T} {body : Script σ α} (hphase : c.phase i = .idle) :
      Does c (.request i body) (c.go i (.waiting body))
  | browse {i : Thread P T} {body : Script σ α} {hflat : body.Flat} (hphase : c.phase i = .idle) :
      Does c (.browse i body hflat) (c.go i (.browsing body))
  | acquire {i : Thread P T} {body : Script σ α} (hphase : c.phase i = .waiting body)
      (hlock : c.lock i.1 = none) :
      Does c (.acquire i) ((c.go i (.holding body)).setLock i.1 (some i.2))
  | beginImmediate {i : Thread P T} {body : Script σ α} (hphase : c.phase i = .holding body)
      (hwriter : c.writer = none) :
      Does c (.begin i) { c.go i (.writing true body c.content body) with writer := some i }
  | beginWrite {i : Thread P T} {change : σ → σ} {next : Script σ α}
      (hphase : c.phase i = .browsing (.write change next)) (hwriter : c.writer = none) :
      Does c (.begin i)
        { c.go i (.writing false (.write change next) c.content (.write change next)) with
          writer := some i }
  | busyImmediate {i j : Thread P T} {body : Script σ α} (hphase : c.phase i = .holding body)
      (hwriter : c.writer = some j) :
      Does c (.busy i) ((c.go i .idle).setLock i.1 none)
  | busyWrite {i j : Thread P T} {change : σ → σ} {next : Script σ α}
      (hphase : c.phase i = .browsing (.write change next)) (hwriter : c.writer = some j) :
      Does c (.busy i) (c.go i .idle)
  | select {i : Thread P T} {k : Bool} {body : Script σ α} {view : σ} {next : σ → Script σ α}
      (hphase : c.phase i = .writing k body view (.select next)) :
      Does c (.statement i) (c.go i (.writing k body view (next view)))
  | write {i : Thread P T} {k : Bool} {body : Script σ α} {view : σ} {change : σ → σ}
      {next : Script σ α} (hphase : c.phase i = .writing k body view (.write change next)) :
      Does c (.statement i) (c.go i (.writing k body (change view) next))
  | look {i : Thread P T} {next : σ → Script σ α} (hphase : c.phase i = .browsing (.select next)) :
      Does c (.statement i) (c.go i (.browsing (next c.content)))
  | commit {i : Thread P T} {k : Bool} {body : Script σ α} {view : σ} {result : α}
      (hphase : c.phase i = .writing k body view (.returns result)) :
      Does c (.finish i) (c.commit i k body view result)
  | rollback {i : Thread P T} {k : Bool} {body : Script σ α} {view : σ}
      (hphase : c.phase i = .writing k body view .raises) : Does c (.finish i) (c.leave i k)
  | close {i : Thread P T} {rest : Script σ α} (hphase : c.phase i = .browsing rest) :
      Does c (.finish i) (c.go i .idle)
  | kill {p : P} : Does c (.kill p) (c.kill p)

theorem step_does {c c' : Database P T σ α} {e : Event P T σ α} (h : step c e = some c') :
    Does c e c' := by
  cases e with
  | request i body =>
      simp only [step] at h
      split at h
      · rename_i hphase
        cases h
        exact .request hphase
      · cases h
  | browse i body hflat =>
      simp only [step] at h
      split at h
      · rename_i hphase
        cases h
        exact .browse hphase
      · cases h
  | acquire i =>
      simp only [step] at h
      split at h
      · rename_i hphase hlock
        cases h
        exact .acquire hphase hlock
      · cases h
  | begin i =>
      simp only [step] at h
      split at h
      · rename_i hwriter hphase
        cases h
        exact .beginImmediate hphase hwriter
      · rename_i hwriter hphase
        cases h
        exact .beginWrite hphase hwriter
      · cases h
  | busy i =>
      simp only [step] at h
      split at h
      · rename_i hwriter hphase
        cases h
        exact .busyImmediate hphase hwriter
      · rename_i hwriter hphase
        cases h
        exact .busyWrite hphase hwriter
      · cases h
  | statement i =>
      simp only [step] at h
      split at h
      · rename_i hphase
        cases h
        exact .select hphase
      · rename_i hphase
        cases h
        exact .write hphase
      · rename_i hphase
        cases h
        exact .look hphase
      · cases h
  | finish i =>
      simp only [step] at h
      split at h
      · rename_i hphase
        cases h
        exact .commit hphase
      · rename_i hphase
        cases h
        exact .rollback hphase
      · rename_i hphase
        cases h
        exact .close hphase
      · rename_i hphase
        cases h
        exact .close hphase
      · cases h
  | kill p =>
      cases h
      exact .kill

/-! ## Locks and views -/

namespace Phase

/-- The thread has the lock of its process. -/
def Locks : Phase σ α → Prop
  | holding _ => True
  | writing coordinated _ _ _ => coordinated = true
  | _ => False

/-- The thread has the write lock of the database. -/
def Writes : Phase σ α → Prop
  | writing _ _ _ _ => True
  | _ => False

/-- The section that the thread is in, or waits for. -/
def pending : Phase σ α → List (Script σ α)
  | waiting body => [body]
  | holding body => [body]
  | writing true body _ _ => [body]
  | _ => []

end Phase

/-- The commits, one after the other, lead from `s` to `s'`. -/
def Replays : σ → List (Commit P T σ α) → σ → Prop
  | s, [], s' => s = s'
  | s, e :: log, s' => ∃ s₁, e.body.run s = some (e.result, s₁) ∧ Replays s₁ log s'

omit [DecidableEq P] [DecidableEq T] in
theorem Replays.concat {s s' s'' : σ} {log : List (Commit P T σ α)} {e : Commit P T σ α}
    (h : Replays s log s') (hrun : e.body.run s' = some (e.result, s'')) :
    Replays s (log ++ [e]) s'' := by
  induction log generalizing s with
  | nil =>
      cases h
      exact ⟨s'', hrun, rfl⟩
  | cons e' log ih =>
      obtain ⟨s₁, hfirst, hrest⟩ := h
      exact ⟨s₁, hfirst, ih hrest⟩

/-- The locks are with those who think so, and what a transaction is about to do with its
view, its body would do with the database as it is. -/
structure Sound (s₀ : σ) (c : Database P T σ α) : Prop where
  replays : Replays s₀ c.log c.content
  lock : ∀ i : Thread P T, c.lock i.1 = some i.2 ↔ (c.phase i).Locks
  writer : ∀ i, c.writer = some i ↔ (c.phase i).Writes
  view : ∀ i k body view rest, c.phase i = .writing k body view rest →
    rest.run view = body.run c.content

variable {c c' : Database P T σ α} {s₀ : σ} {i : Thread P T}

/-- A step of one thread that commits nothing. -/
theorem Sound.step (h : Sound s₀ c) (phase : Phase σ α)
    (hphase : c'.phase = Function.update c.phase i phase) (hcontent : c'.content = c.content)
    (hlog : c'.log = c.log)
    (hlock : c'.lock i.1 = some i.2 ↔ phase.Locks)
    (hlocks : ∀ j : Thread P T, j ≠ i → (c'.lock j.1 = some j.2 ↔ c.lock j.1 = some j.2))
    (hwriter : c'.writer = some i ↔ phase.Writes)
    (hwriters : ∀ j, j ≠ i → (c'.writer = some j ↔ c.writer = some j))
    (hview : ∀ k body view rest, phase = .writing k body view rest →
      rest.run view = body.run c.content) : Sound s₀ c' := by
  have hself : c'.phase i = phase := by rw [hphase, Function.update_self]
  have hother : ∀ j, j ≠ i → c'.phase j = c.phase j := fun j hj => by
    rw [hphase, Function.update_of_ne hj]
  refine ⟨by rw [hlog, hcontent]; exact h.replays, fun j => ?_, fun j => ?_,
    fun j k body view rest hj => ?_⟩
  · by_cases hji : j = i
    · rw [hji, hself, hlock]
    · rw [hother j hji, hlocks j hji, h.lock]
  · by_cases hji : j = i
    · rw [hji, hself, hwriter]
    · rw [hother j hji, hwriters j hji, h.writer]
  · rw [hcontent]
    by_cases hji : j = i
    · rw [hji, hself] at hj
      exact hview k body view rest hj
    · rw [hother j hji] at hj
      exact h.view j k body view rest hj

omit [DecidableEq T] in
theorem lock_update_of_ne {lock : P → Option T} {owner : Option T} {j : Thread P T}
    (hfree : lock i.1 = none ∨ lock i.1 = some i.2) (howner : owner = none ∨ owner = some i.2)
    (hj : j ≠ i) : (Function.update lock i.1 owner j.1 = some j.2 ↔ lock j.1 = some j.2) := by
  by_cases hp : j.1 = i.1
  · have ht : j.2 ≠ i.2 := fun ht => hj (Prod.ext hp ht)
    rw [hp, Function.update_self]
    rcases hfree with hfree | hfree <;> rcases howner with howner | howner <;>
      simp [hfree, howner, Ne.symm ht]
  · rw [Function.update_of_ne hp]

omit [DecidableEq P] [DecidableEq T] in
theorem Sound.writer_ne (h : Sound s₀ c) (hwrites : ¬ (c.phase i).Writes) : c.writer ≠ some i :=
  fun hwriter => hwrites ((h.writer i).mp hwriter)

/-- After the end of a transaction. -/
theorem Sound.leave (h : Sound s₀ c) {k : Bool} {body rest : Script σ α} {view : σ}
    (hphase : c.phase i = .writing k body view rest) : Sound s₀ (c.leave i k) := by
  have hwriter : c.writer = some i := (h.writer i).mpr (by rw [hphase]; trivial)
  have hothers : ∀ j, j ≠ i → (none = some j ↔ c.writer = some j) := fun j hj => by
    rw [hwriter]
    simp [Ne.symm hj]
  cases k with
  | false =>
      have hlock : ¬ c.lock i.1 = some i.2 := fun hlock => by
        have hlocks := (h.lock i).mp hlock
        rw [hphase] at hlocks
        cases hlocks
      exact h.step .idle rfl rfl rfl (iff_of_false hlock id) (fun _ _ => Iff.rfl)
        (by simp [Database.leave, Phase.Writes]) hothers fun _ _ _ _ heq => by cases heq
  | true =>
      have hlock : c.lock i.1 = some i.2 := (h.lock i).mpr (by rw [hphase]; rfl)
      exact h.step .idle rfl rfl rfl
        (by simp [Database.leave, Database.setLock, Phase.Locks])
        (fun j hj => lock_update_of_ne (.inr hlock) (.inl rfl) hj)
        (by simp [Database.leave, Database.setLock, Phase.Writes]) hothers
        fun _ _ _ _ heq => by cases heq

/-- A commit puts the view of the transaction in the place of the database. -/
theorem Sound.commit (h : Sound s₀ c) {k : Bool} {body : Script σ α} {view : σ} {result : α}
    (hphase : c.phase i = .writing k body view (.returns result)) :
    Sound s₀ (c.commit i k body view result) := by
  have hleave := h.leave hphase
  have hrun : body.run c.content = some (result, view) :=
    (h.view i k body view (.returns result) hphase).symm
  refine ⟨h.replays.concat hrun, hleave.lock, hleave.writer, fun j k' body' view' rest' hj => ?_⟩
  -- nobody else is amid a transaction
  have hwriter : (c.leave i k).writer = some j := (hleave.writer j).mpr (by
    show ((c.commit i k body view result).phase j).Writes
    rw [hj]
    trivial)
  cases k <;> cases hwriter

omit [DecidableEq T] in
theorem Sound.kill (h : Sound s₀ c) (p : P) : Sound s₀ (c.kill p) := by
  refine ⟨h.replays, fun j => ?_, fun j => ?_, fun j k body view rest hj => ?_⟩
  · show Function.update c.lock p none j.1 = some j.2 ↔
      (if j.1 = p then Phase.idle else c.phase j).Locks
    by_cases hp : j.1 = p
    · rw [if_pos hp, hp, Function.update_self]
      exact iff_of_false (fun heq => by cases heq) id
    · rw [if_neg hp, Function.update_of_ne hp, h.lock]
  · show c.writer.filter (fun i => i.1 ≠ p) = some j ↔
      (if j.1 = p then Phase.idle else c.phase j).Writes
    rw [Option.filter_eq_some_iff, h.writer]
    by_cases hp : j.1 = p
    · simp [hp, Phase.Writes]
    · simp [hp]
  · have hphase : (if j.1 = p then Phase.idle else c.phase j) = .writing k body view rest := hj
    split at hphase
    · cases hphase
    · exact h.view j k body view rest hphase

/-- A step that changes no lock. -/
theorem Sound.go (h : Sound s₀ c) {phase : Phase σ α} (hlocks : phase.Locks ↔ (c.phase i).Locks)
    (hwrites : phase.Writes ↔ (c.phase i).Writes)
    (hview : ∀ k body view rest, phase = .writing k body view rest →
      rest.run view = body.run c.content) : Sound s₀ (c.go i phase) :=
  h.step phase rfl rfl rfl ((h.lock i).trans hlocks.symm) (fun _ _ => Iff.rfl)
    ((h.writer i).trans hwrites.symm) (fun _ _ => Iff.rfl) hview

/-- A transaction begins. -/
theorem Sound.begin (h : Sound s₀ c) {k : Bool} {body : Script σ α}
    (hlocks : (k = true) ↔ (c.phase i).Locks) (hwriter : c.writer = none) :
    Sound s₀ { c.go i (.writing k body c.content body) with writer := some i } := by
  refine h.step (.writing k body c.content body) rfl rfl rfl ((h.lock i).trans hlocks.symm)
    (fun _ _ => Iff.rfl) (iff_of_true rfl trivial) (fun j hj => ?_) fun k' body' view' rest' heq => by cases heq; rfl
  rw [hwriter]
  simp [Ne.symm hj]

theorem Sound.does (h : Sound s₀ c) {e : Event P T σ α} (hdoes : Does c e c') : Sound s₀ c' := by
  cases hdoes with
  | request hphase =>
      refine h.go ?_ ?_ fun _ _ _ _ heq => by cases heq
      all_goals rw [hphase]; exact Iff.rfl
  | browse hphase =>
      refine h.go ?_ ?_ fun _ _ _ _ heq => by cases heq
      all_goals rw [hphase]; exact Iff.rfl
  | acquire hphase hlock =>
      rename_i i body
      have hwriter := h.writer_ne (i := i) (by rw [hphase]; exact id)
      exact h.step (.holding body) rfl rfl rfl
        (iff_of_true (Function.update_self ..) trivial)
        (fun j hj => lock_update_of_ne (.inl hlock) (.inr rfl) hj)
        (iff_of_false hwriter id) (fun _ _ => Iff.rfl) fun _ _ _ _ heq => by cases heq
  | beginImmediate hphase hwriter =>
      refine h.begin ?_ hwriter
      rw [hphase]
      exact iff_of_true rfl trivial
  | beginWrite hphase hwriter =>
      refine h.begin ?_ hwriter
      rw [hphase]
      exact iff_of_false Bool.false_ne_true id
  | busyImmediate hphase hwriter =>
      rename_i i j body
      have hlock : c.lock i.1 = some i.2 := (h.lock i).mpr (by rw [hphase]; trivial)
      have hne := h.writer_ne (i := i) (by rw [hphase]; exact id)
      exact h.step .idle rfl rfl rfl
        (iff_of_false (by simp [Database.setLock]) id)
        (fun j hj => lock_update_of_ne (.inr hlock) (.inl rfl) hj)
        (iff_of_false hne id) (fun _ _ => Iff.rfl) fun _ _ _ _ heq => by cases heq
  | busyWrite hphase hwriter =>
      refine h.go ?_ ?_ fun _ _ _ _ heq => by cases heq
      all_goals rw [hphase]; exact Iff.rfl
  | select hphase =>
      have hview := h.view _ _ _ _ _ hphase
      refine h.go ?_ ?_ fun _ _ _ _ heq => by cases heq; exact hview
      all_goals rw [hphase]; exact Iff.rfl
  | write hphase =>
      have hview := h.view _ _ _ _ _ hphase
      refine h.go ?_ ?_ fun _ _ _ _ heq => by cases heq; exact hview
      all_goals rw [hphase]; exact Iff.rfl
  | look hphase =>
      refine h.go ?_ ?_ fun _ _ _ _ heq => by cases heq
      all_goals rw [hphase]; exact Iff.rfl
  | commit hphase => exact h.commit hphase
  | rollback hphase => exact h.leave hphase
  | close hphase =>
      refine h.go ?_ ?_ fun _ _ _ _ heq => by cases heq
      all_goals rw [hphase]; exact Iff.rfl
  | kill => exact h.kill _

/-! ## Runs -/

/-- The database of a start: nobody is at work. -/
def Quiet (s₀ : σ) (c : Database P T σ α) : Prop :=
  c.content = s₀ ∧ c.log = [] ∧ c.writer = none ∧ (∀ p, c.lock p = none) ∧
    ∀ i, c.phase i = .idle

abbrev DatabaseRun (s₀ : σ) : List (Event P T σ α) → Database P T σ α → Prop :=
  Trace.Run (Quiet s₀) fun c e c' => step c e = some c'

omit [DecidableEq P] [DecidableEq T] in
theorem sound_of_quiet (h : Quiet s₀ c) : Sound s₀ c := by
  obtain ⟨rfl, hlog, hwriter, hlock, hphase⟩ := h
  refine ⟨by rw [hlog]; rfl, fun i => ?_, fun i => ?_, fun i k body view rest hi => ?_⟩
  · rw [hlock, hphase]
    exact iff_of_false (fun heq => by cases heq) id
  · rw [hwriter, hphase]
    exact iff_of_false (fun heq => by cases heq) id
  · rw [hphase] at hi
    cases hi

theorem sound_of_run {es : List (Event P T σ α)} (h : DatabaseRun s₀ es c) : Sound s₀ c :=
  h.invariant_of_state (I := Sound s₀) (p := fun _ => True) (fun _ => sound_of_quiet)
    (fun _ _ _ hsound _ hstep => hsound.does (step_does hstep)) fun _ _ => trivial

/-- A database that nobody uses yet. -/
def Database.start (s₀ : σ) : Database P T σ α := ⟨s₀, fun _ => none, none, fun _ => .idle, []⟩

omit [DecidableEq P] [DecidableEq T] in
theorem quiet_start (s₀ : σ) : Quiet s₀ (Database.start s₀ : Database P T σ α) :=
  ⟨rfl, rfl, rfl, fun _ => rfl, fun _ => rfl⟩

theorem databaseRun_of_exec {es : List (Event P T σ α)}
    (hexec : Trace.exec step es (Database.start s₀) = some c) :
    DatabaseRun s₀ (es.reverse ++ []) c :=
  (Trace.Run.of_exec (P := fun _ _ => True) (.start (quiet_start s₀)) hexec fun _ _ _ =>
    trivial).imp fun _ _ _ hstep => hstep.1

/-- The sections that a thread asked for, the oldest first. -/
def requested (i : Thread P T) : List (Event P T σ α) → List (Script σ α)
  | [] => []
  | .request j body :: es => if j = i then requested i es ++ [body] else requested i es
  | _ :: es => requested i es

/-- The sections of a thread that were committed. -/
def sections (i : Thread P T) (log : List (Commit P T σ α)) : List (Script σ α) :=
  (log.filter fun e => decide (e.thread = i ∧ e.coordinated = true)).map Commit.body

/-- The sections of a thread that were committed, and the one that it is in, are some of
those it asked for. -/
def Asked (es : List (Event P T σ α)) (c : Database P T σ α) : Prop :=
  ∀ i, List.Sublist (sections i c.log ++ (c.phase i).pending) (requested i es)

/-- A step of one thread that commits nothing. -/
theorem Asked.step {es es' : List (Event P T σ α)} (h : Asked es c) (phase : Phase σ α)
    (hphase : c'.phase = Function.update c.phase i phase) (hlog : c'.log = c.log)
    (hrequested : ∀ j, requested j es' = requested j es)
    (hpending : List.Sublist phase.pending (c.phase i).pending) : Asked es' c' := by
  intro j
  rw [hlog, hrequested j, hphase]
  by_cases hji : j = i
  · rw [hji, Function.update_self]
    exact (hpending.append_left _).trans (h i)
  · rw [Function.update_of_ne hji]
    exact h j

theorem Asked.commit {es es' : List (Event P T σ α)} (h : Asked es c)
    (hrequested : ∀ j, requested j es' = requested j es) {k : Bool} {body rest : Script σ α}
    {view : σ} {result : α} (hphase : c.phase i = .writing k body view rest) :
    Asked es' (c.commit i k body view result) := by
  intro j
  have hj := h j
  rw [hrequested j]
  have hphases : (c.commit i k body view result).phase = Function.update c.phase i .idle := by
    cases k <;> rfl
  have hlog : (c.commit i k body view result).log = c.log ++ [⟨i, k, body, result⟩] := rfl
  rw [hphases, hlog, sections, List.filter_append, List.map_append, ← sections]
  by_cases hji : j = i
  · subst hji
    rw [hphase] at hj
    rw [Function.update_self]
    cases k with
    | false => simpa [Phase.pending] using hj
    | true => simpa [Phase.pending] using hj
  · rw [Function.update_of_ne hji]
    simpa [Ne.symm hji] using hj

omit [DecidableEq P] [DecidableEq T] in
theorem pending_nil_sublist (phase : Phase σ α) :
    List.Sublist (Phase.idle : Phase σ α).pending phase.pending := List.nil_sublist _

theorem asked_does {es : List (Event P T σ α)} {e : Event P T σ α} (h : Asked es c)
    (hdoes : Does c e c') : Asked (e :: es) c' := by
  cases hdoes with
  | request hphase =>
      rename_i i body
      intro j
      have hj := h j
      show List.Sublist _ (if i = j then requested j es ++ [body] else requested j es)
      by_cases hij : i = j
      · subst hij
        rw [hphase] at hj
        rw [if_pos rfl]
        show List.Sublist (sections i c.log ++ (Function.update c.phase i _ i).pending) _
        rw [Function.update_self]
        exact List.Sublist.append (by simpa [Phase.pending] using hj) (List.Sublist.refl _)
      · rw [if_neg hij]
        show List.Sublist (sections j c.log ++ (Function.update c.phase i _ j).pending) _
        rw [Function.update_of_ne (Ne.symm hij)]
        exact hj
  | browse hphase => exact h.step _ rfl rfl (fun _ => rfl) (by rw [hphase]; exact List.Sublist.refl _)
  | acquire hphase hlock =>
      exact h.step _ rfl rfl (fun _ => rfl) (by rw [hphase]; exact List.Sublist.refl _)
  | beginImmediate hphase hwriter =>
      exact h.step _ rfl rfl (fun _ => rfl) (by rw [hphase]; exact List.Sublist.refl _)
  | beginWrite hphase hwriter =>
      exact h.step _ rfl rfl (fun _ => rfl) (by rw [hphase]; exact List.Sublist.refl _)
  | busyImmediate hphase hwriter =>
      exact h.step _ rfl rfl (fun _ => rfl) (pending_nil_sublist _)
  | busyWrite hphase hwriter =>
      exact h.step _ rfl rfl (fun _ => rfl) (pending_nil_sublist _)
  | select hphase =>
      rename_i i k body view next
      refine h.step _ rfl rfl (fun _ => rfl) ?_
      rw [hphase]
      cases k <;> exact List.Sublist.refl _
  | write hphase =>
      rename_i i k body view change next
      refine h.step _ rfl rfl (fun _ => rfl) ?_
      rw [hphase]
      cases k <;> exact List.Sublist.refl _
  | look hphase => exact h.step _ rfl rfl (fun _ => rfl) (by rw [hphase]; exact List.Sublist.refl _)
  | commit hphase => exact h.commit (fun _ => rfl) hphase
  | rollback hphase =>
      rename_i i k body view
      refine h.step (i := i) .idle ?_ ?_ (fun _ => rfl) (pending_nil_sublist _)
      all_goals cases k <;> rfl
  | close hphase => exact h.step _ rfl rfl (fun _ => rfl) (pending_nil_sublist _)
  | kill =>
      rename_i p
      intro j
      show List.Sublist (sections j c.log ++ (if j.1 = p then Phase.idle else c.phase j).pending) _
      split
      · exact ((pending_nil_sublist _).append_left _).trans (h j)
      · exact h j

/-- Read, then write one more. -/
def increment : Script ℕ Unit := .select fun n => .write (fun _ => n + 1) (.returns ())

theorem flat_increment : increment.Flat := fun _ => trivial

-- two sessions outside of a section lose an update: both have read before either one writes
example : (Trace.exec step
    [.browse (true, true) increment flat_increment, .browse (false, true) increment flat_increment,
      .statement (true, true), .statement (false, true), .begin (true, true),
      .statement (true, true), .finish (true, true), .begin (false, true),
      .statement (false, true), .finish (false, true)]
    (Database.start 0 : Database Bool Bool ℕ Unit)).any
      (fun w => decide (w.content = 1 ∧ w.log.length = 2)) = true := by decide +kernel

/-! ## Waiting -/

/-- What is left of a phase enters no section from within. -/
def Phase.Flat : Phase σ α → Prop
  | idle => True
  | waiting body => body.Flat
  | holding body => body.Flat
  | browsing rest => rest.Flat
  | writing _ _ _ rest => rest.Flat

/-- Nobody asked for a section that enters another one. -/
def AllFlat (es : List (Event P T σ α)) : Prop := ∀ i body, .request i body ∈ es → body.Flat

omit [DecidableEq P] [DecidableEq T] in
theorem AllFlat.tail {es : List (Event P T σ α)} {e : Event P T σ α} (h : AllFlat (e :: es)) :
    AllFlat es := fun i body hmem => h i body (List.mem_cons_of_mem e hmem)

theorem flat_update {phase : Phase σ α} (h : ∀ j, (c.phase j).Flat) (hphase : phase.Flat)
    (j : Thread P T) : (Function.update c.phase i phase j).Flat := by
  by_cases hji : j = i
  · rw [hji, Function.update_self]
    exact hphase
  · rw [Function.update_of_ne hji]
    exact h j

theorem flat_does {e : Event P T σ α} (h : ∀ j, (c.phase j).Flat)
    (hrequest : ∀ i body, e = .request i body → body.Flat) (hdoes : Does c e c') :
    ∀ j, (c'.phase j).Flat := by
  cases hdoes with
  | request hphase => exact flat_update h (hrequest _ _ rfl)
  | browse hphase =>
      rename_i hflat
      exact flat_update h hflat
  | acquire hphase hlock =>
      rename_i i body
      have hbody := h i
      rw [hphase] at hbody
      exact flat_update h hbody
  | beginImmediate hphase hwriter =>
      rename_i i body
      have hbody := h i
      rw [hphase] at hbody
      exact flat_update h hbody
  | beginWrite hphase hwriter =>
      rename_i i change next
      have hrest := h i
      rw [hphase] at hrest
      exact flat_update h hrest
  | busyImmediate hphase hwriter => exact flat_update h trivial
  | busyWrite hphase hwriter => exact flat_update h trivial
  | select hphase =>
      rename_i i k body view next
      have hrest := h i
      rw [hphase] at hrest
      exact flat_update h (hrest view)
  | write hphase =>
      rename_i i k body view change next
      have hrest := h i
      rw [hphase] at hrest
      exact flat_update h hrest
  | look hphase =>
      rename_i i next
      have hrest := h i
      rw [hphase] at hrest
      exact flat_update h (hrest c.content)
  | commit hphase =>
      rename_i i k body view result
      cases k <;> exact flat_update h trivial
  | rollback hphase =>
      rename_i i k body view
      cases k <;> exact flat_update h trivial
  | close hphase => exact flat_update h trivial
  | kill =>
      rename_i p
      intro j
      show (if j.1 = p then Phase.idle else c.phase j).Flat
      split
      · trivial
      · exact h j

theorem flat_of_run {es : List (Event P T σ α)} (h : DatabaseRun s₀ es c) (hflat : AllFlat es) :
    ∀ j, (c.phase j).Flat := by
  induction h with
  | start hquiet =>
      intro j
      rw [hquiet.2.2.2.2 j]
      trivial
  | next _ hstep ih =>
      refine flat_does (ih hflat.tail) (fun i body he => ?_) (step_does hstep)
      exact hflat i body (he ▸ List.mem_cons_self)

/-- The thread can go on; a busy timeout is no way to. -/
def GoesOn (c : Database P T σ α) (j : Thread P T) : Prop :=
  ∃ e ∈ [.acquire j, .begin j, .statement j, .finish j], (step c e).isSome = true

theorem goesOn_writing {j : Thread P T} {k : Bool} {body rest : Script σ α} {view : σ}
    (hphase : c.phase j = .writing k body view rest) (hflat : rest.Flat) : GoesOn c j := by
  cases rest with
  | returns result => exact ⟨.finish j, by simp, by simp [step, hphase]⟩
  | raises => exact ⟨.finish j, by simp, by simp [step, hphase]⟩
  | select next => exact ⟨.statement j, by simp, by simp [step, hphase]⟩
  | write change next => exact ⟨.statement j, by simp, by simp [step, hphase]⟩
  | enter next => exact hflat.elim

theorem goesOn_browsing {j : Thread P T} {rest : Script σ α} (hphase : c.phase j = .browsing rest)
    (hwriter : c.writer = none) (hflat : rest.Flat) : GoesOn c j := by
  cases rest with
  | returns result => exact ⟨.finish j, by simp, by simp [step, hphase]⟩
  | raises => exact ⟨.finish j, by simp, by simp [step, hphase]⟩
  | select next => exact ⟨.statement j, by simp, by simp [step, hphase]⟩
  | write change next => exact ⟨.begin j, by simp, by simp [step, hphase, hwriter]⟩
  | enter next => exact hflat.elim

theorem goesOn_holding {j : Thread P T} {body : Script σ α} (hphase : c.phase j = .holding body)
    (hwriter : c.writer = none) : GoesOn c j :=
  ⟨.begin j, by simp, by simp [step, hphase, hwriter]⟩

/-- As long as no section enters another one, somebody at work can go on. -/
theorem somebody_goes_on {es : List (Event P T σ α)} (h : DatabaseRun s₀ es c)
    (hflat : AllFlat es) (hwork : c.phase i ≠ .idle) : ∃ j, c.phase j ≠ .idle ∧ GoesOn c j := by
  have hsound := sound_of_run h
  have hphases := flat_of_run h hflat
  cases hwriter : c.writer with
  | some j =>
      have hwrites := (hsound.writer j).mp hwriter
      have hrest := hphases j
      cases hphase : c.phase j with
      | writing k body view rest =>
          rw [hphase] at hrest
          exact ⟨j, by simp [hphase], goesOn_writing hphase hrest⟩
      | _ =>
          rw [hphase] at hwrites
          exact hwrites.elim
  | none =>
      have hnone : ∀ j, ¬ (c.phase j).Writes := fun j hwrites => by
        rw [← hsound.writer, hwriter] at hwrites
        cases hwrites
      have hrest := hphases i
      cases hphase : c.phase i with
      | idle => exact absurd hphase hwork
      | waiting body =>
          cases hlock : c.lock i.1 with
          | none => exact ⟨i, hwork, .acquire i, by simp, by simp [step, hphase, hlock]⟩
          | some t =>
              -- who has the lock is about to begin
              have hlocks := (hsound.lock (i.1, t)).mp hlock
              cases hholder : c.phase (i.1, t) with
              | holding body' =>
                  exact ⟨(i.1, t), by simp [hholder], goesOn_holding hholder hwriter⟩
              | writing k body' view rest => exact absurd (by rw [hholder]; trivial) (hnone (i.1, t))
              | _ =>
                  rw [hholder] at hlocks
                  exact hlocks.elim
      | holding body => exact ⟨i, hwork, goesOn_holding hphase hwriter⟩
      | browsing rest =>
          rw [hphase] at hrest
          exact ⟨i, hwork, goesOn_browsing hphase hwriter hrest⟩
      | writing k body view rest => exact absurd (by rw [hphase]; trivial) (hnone i)

/-- One thread has the database, another one of the same process waits for the lock and a
third one of another process for the database. -/
theorem somebody_goes_on_waiting : ∃ es, ∃ c : Database Bool Bool ℕ Unit,
    DatabaseRun 0 es c ∧ AllFlat es ∧ c.phase (true, false) ≠ .idle ∧
      ∃ j, c.phase j ≠ .idle ∧ GoesOn c j := by
  have hexec : (Trace.exec step
      [.request (true, true) increment, .acquire (true, true), .begin (true, true),
        .request (true, false) increment, .request (false, true) increment,
        .acquire (false, true)]
      (Database.start 0 : Database Bool Bool ℕ Unit)).any
        (fun w => !(w.phase (true, false)).pending.isEmpty) = true := by decide +kernel
  obtain ⟨c, hc, hpending⟩ := (Option.any_eq_true ..).mp hexec
  have hwork : c.phase (true, false) ≠ .idle := fun hidle => by
    rw [hidle] at hpending
    cases hpending
  have hflat : AllFlat ([.request (true, true) increment, .acquire (true, true),
      .begin (true, true), .request (true, false) increment, .request (false, true) increment,
      .acquire (false, true)].reverse ++ [] : List (Event Bool Bool ℕ Unit)) := by
    intro i body hmem
    have hbody : body = increment := by
      simp only [List.reverse_cons, List.reverse_nil, List.nil_append, List.cons_append,
        List.append_nil, List.mem_cons, Event.request.injEq, reduceCtorEq, List.not_mem_nil,
        false_or, or_false] at hmem
      rcases hmem with ⟨-, hbody⟩ | ⟨-, hbody⟩ | ⟨-, hbody⟩ <;> exact hbody
    rw [hbody]
    exact flat_increment
  exact ⟨_, c, databaseRun_of_exec hc, hflat, hwork,
    somebody_goes_on (databaseRun_of_exec hc) hflat hwork⟩

/-- Who waits for the write lock of the database with the lock of the process, waits for
another process or for a session outside of a section. -/
theorem busy_needs_other {es : List (Event P T σ α)} (h : DatabaseRun s₀ es c) {j : Thread P T}
    {body : Script σ α} (hphase : c.phase i = .holding body) (hwriter : c.writer = some j) :
    j.1 ≠ i.1 ∨ ∃ body' view rest, c.phase j = .writing false body' view rest := by
  have hsound := sound_of_run h
  have hwrites := (hsound.writer j).mp hwriter
  cases hj : c.phase j with
  | writing k body' view rest =>
      cases k with
      | false => exact .inr ⟨body', view, rest, rfl⟩
      | true =>
          left
          intro hp
          have hlock : c.lock i.1 = some i.2 := (hsound.lock i).mpr (by rw [hphase]; trivial)
          have hlock' : c.lock j.1 = some j.2 := (hsound.lock j).mpr (by rw [hj]; rfl)
          rw [hp, hlock] at hlock'
          have hsame : j = i := Prod.ext hp (Option.some.inj hlock').symm
          rw [hsame, hphase] at hj
          cases hj
  | _ =>
      rw [hj] at hwrites
      exact hwrites.elim

/-! ## A section within a section -/

theorem does_amid_nested {body next : Script σ α} {view : σ} (h : Sound s₀ c)
    (hphase : c.phase i = .writing true body view (.enter next)) {e : Event P T σ α}
    (hlive : e ≠ .kill i.1) (hdoes : Does c e c') :
    c'.phase i = c.phase i ∧ c'.content = c.content ∧ c'.log = c.log := by
  have hwriter : c.writer = some i := (h.writer i).mpr (by rw [hphase]; trivial)
  -- a step of another thread that commits nothing
  have hgo : ∀ {j : Thread P T} {phase : Phase σ α}, j ≠ i →
      (c.go j phase).phase i = c.phase i := fun hj => Function.update_of_ne (Ne.symm hj) _ _
  have hother : ∀ {j : Thread P T} {phase : Phase σ α}, c.phase j = phase →
      phase ≠ .writing true body view (.enter next) → j ≠ i := fun hj hne heq =>
    hne (by rw [← hj, heq, hphase])
  cases hdoes with
  | request hj => exact ⟨hgo (hother hj (by simp)), rfl, rfl⟩
  | browse hj => exact ⟨hgo (hother hj (by simp)), rfl, rfl⟩
  | acquire hj hlock => exact ⟨hgo (hother hj (by simp)), rfl, rfl⟩
  | beginImmediate hj hfree => exact absurd (hfree.symm.trans hwriter) (by simp)
  | beginWrite hj hfree => exact absurd (hfree.symm.trans hwriter) (by simp)
  | busyImmediate hj hbusy => exact ⟨hgo (hother hj (by simp)), rfl, rfl⟩
  | busyWrite hj hbusy => exact ⟨hgo (hother hj (by simp)), rfl, rfl⟩
  | select hj => exact ⟨hgo (hother hj (by simp)), rfl, rfl⟩
  | write hj => exact ⟨hgo (hother hj (by simp)), rfl, rfl⟩
  | look hj => exact ⟨hgo (hother hj (by simp)), rfl, rfl⟩
  | commit hj =>
      rename_i j k body' view' result
      have hwriter' : c.writer = some j := (h.writer j).mpr (by rw [hj]; trivial)
      exact absurd (Option.some.inj (hwriter'.symm.trans hwriter)) (hother hj (by simp))
  | rollback hj =>
      rename_i j k body' view'
      have hwriter' : c.writer = some j := (h.writer j).mpr (by rw [hj]; trivial)
      exact absurd (Option.some.inj (hwriter'.symm.trans hwriter)) (hother hj (by simp))
  | close hj => exact ⟨hgo (hother hj (by simp)), rfl, rfl⟩
  | kill =>
      rename_i p
      have hne : ¬ i.1 = p := fun hp => hlive (by rw [hp])
      exact ⟨if_neg hne, rfl, rfl⟩

/-- The thread is at the start of a section within its section. -/
def Phase.enters : Phase σ α → Bool
  | .writing true _ _ (.enter _) => true
  | _ => false

end CctvMemory.Storage
