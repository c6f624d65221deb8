import CctvMemory.Queue.Leases
import Mathlib.Data.Finset.Max
import Mathlib.Data.Fintype.Card
import Mathlib.Data.Prod.Lex
import Mathlib.Logic.Relation

/-!
# Draining the queue

`drain` with its job slots: a slot claims a task and processes it, again and
again, until it finds no claimable task. An exception that escapes the
processing of a task ends its slot; on the serial path it ends the drain. The
serial path is the pool of one slot. All claims of a drain see one `now`: no
task becomes due and no lease runs out while it lasts.

* `drainsAll_iff`: a drain leaves nothing claimable, whatever the order of the
  slots, exactly when for every claimable task fewer escaping tasks than there
  are slots may be claimed before it.
* `drain_leaves_a_task`: two slots, two escaping tasks, and a third that nobody
  processes.
-/

namespace CctvMemory.Queue

open Iso (DateTime isoformat)
open Keyed (Table)
open Relation (ReflTransGen)

/-! ## Slots -/

/-- How the processing of a task ends: what it wrote to the queue, and whether
an exception escaped. -/
structure JobEnd where
  write : Option TerminalWrite
  escapes : Bool
deriving DecidableEq

def JobEnd.applyTo (o : JobEnd) (k : String) (q : Tasks) : Tasks :=
  match o.write with
  | none => q
  | some w => q.write k w

structure DrainEnv where
  now : DateTime
  workerId : String
  leaseSeconds : ℕ
  jobEnd : String → JobEnd

/-- A slot that found the queue empty is `finished`; one whose task let an
exception escape is `lost`. -/
inductive Slot where
  | idle
  | busy (taskId : String)
  | finished
  | lost (taskId : String)
deriving DecidableEq

def Slot.task : Slot → Option String
  | .busy k => some k
  | .lost k => some k
  | _ => none

def Slot.stopped : Slot → Bool
  | .finished => true
  | .lost _ => true
  | _ => false

/-- What a slot is after its task. -/
def JobEnd.slot (o : JobEnd) (k : String) : Slot := if o.escapes = true then .lost k else .idle

structure Drain (n : ℕ) where
  tasks : Tasks
  slots : Fin n → Slot
  claimed : List String

def Drain.start (n : ℕ) (q : Tasks) : Drain n := ⟨q, fun _ => .idle, []⟩

/-- `max(1, max_concurrent_jobs)`. -/
def drainSlots (maxConcurrentJobs : ℕ) : ℕ := max 1 maxConcurrentJobs

variable {n : ℕ}

inductive DrainStep (env : DrainEnv) : Drain n → Drain n → Prop where
  | claim {d : Drain n} {i : Fin n} {t : Task} : d.slots i = .idle →
      Tasks.Selects env.now d.tasks t →
      DrainStep env d
        { tasks := d.tasks.claim t.taskId env.workerId env.now (addSeconds env.now env.leaseSeconds)
          slots := Function.update d.slots i (.busy t.taskId)
          claimed := t.taskId :: d.claimed }
  | empty {d : Drain n} {i : Fin n} : d.slots i = .idle → d.tasks.selectsNone env.now = true →
      DrainStep env d { d with slots := Function.update d.slots i .finished }
  | finish {d : Drain n} {i : Fin n} {k : String} : d.slots i = .busy k →
      DrainStep env d
        { d with
          tasks := (env.jobEnd k).applyTo k d.tasks
          slots := Function.update d.slots i ((env.jobEnd k).slot k) }

/-- `drain` is over. -/
def Drain.Over (d : Drain n) : Prop := ∀ i, (d.slots i).stopped = true

/-- The claimable rows. -/
def claimables (env : DrainEnv) (q : Tasks) : Finset Task :=
  q.rows.toFinset.filter fun t => t.claimable env.now = true

/-- However the slots interleave, when the drain is over no task is claimable
and every task that was claimable has been processed. -/
def DrainsAll (env : DrainEnv) (n : ℕ) (q : Tasks) : Prop :=
  ∀ d : Drain n, ReflTransGen (DrainStep env) (Drain.start n q) d → d.Over →
    claimables env d.tasks = ∅ ∧ ∀ t ∈ claimables env q, t.taskId ∈ d.claimed

/-- The other claimable tasks whose exception escapes and that may be claimed
before `t`: it does not order before them. -/
def blockers (env : DrainEnv) (q : Tasks) (t : Task) : Finset Task :=
  (claimables env q).filter fun e =>
    e ≠ t ∧ (env.jobEnd e.taskId).escapes = true ∧ ¬ t.ordersBefore e

/-! ## Claimable rows -/

variable {env : DrainEnv} {q : Tasks} {t : Task} {k : String}

theorem mem_claimables : t ∈ claimables env q ↔ t ∈ q.rows ∧ t.claimable env.now = true := by
  simp [claimables]

theorem eq_of_mem_claimables {t' : Task} (h : t ∈ claimables env q) (h' : t' ∈ claimables env q)
    (hk : t.taskId = t'.taskId) : t = t' :=
  Table.eq_of_key_eq (mem_claimables.mp h).1 (mem_claimables.mp h').1 hk

/-- A row under a lease that starts now is not claimable now. -/
theorem not_claimable_claimedBy (w : String) (now : DateTime) (m : ℕ) (t : Task) :
    (t.claimedBy w now (addSeconds now m)).claimable now = false := by
  rw [Bool.eq_false_iff]
  intro h
  rcases (Task.claimable_iff.mp h).2 with hq | ⟨-, hexp⟩
  · cases hq
  · obtain ⟨u, hu, hlt⟩ := Task.leaseExpired_iff.mp hexp
    cases hu
    have hutc : (addSeconds now m).utcoffset = now.utcoffset := rfl
    rw [Iso.isoformat_lt_iff hutc, instant_addSeconds] at hlt
    have hpos : (0 : ℤ) ≤ m * Iso.second := by
      unfold Iso.second
      omega
    omega

/-- An update that leaves its row unclaimable takes that row out. -/
theorem claimables_modify {f : Task → Task} {hf : ∀ t, (f t).taskId = t.taskId}
    (hnot : ∀ t, (f t).claimable env.now = false) :
    claimables env (q.modify k f hf) = (claimables env q).filter fun t => t.taskId ≠ k := by
  ext r
  rw [Finset.mem_filter, mem_claimables, mem_claimables]
  constructor
  · rintro ⟨hmem, hclaim⟩
    obtain ⟨r₀, hmem₀, rfl⟩ := List.mem_map.mp hmem
    by_cases hk : r₀.taskId = k
    · rw [if_pos hk, hnot] at hclaim
      cases hclaim
    · rw [if_neg hk] at hclaim ⊢
      exact ⟨⟨hmem₀, hclaim⟩, hk⟩
  · rintro ⟨⟨hmem, hclaim⟩, hk⟩
    exact ⟨List.mem_map.mpr ⟨r, hmem, if_neg hk⟩, hclaim⟩

theorem claimables_claim (k : String) :
    claimables env (q.claim k env.workerId env.now (addSeconds env.now env.leaseSeconds))
      = (claimables env q).filter fun t => t.taskId ≠ k :=
  claimables_modify fun t => not_claimable_claimedBy _ _ _ t

/-- The end of the processing of a claimed task makes nothing claimable. -/
theorem claimables_applyTo (o : JobEnd) (h : ∀ t ∈ claimables env q, t.taskId ≠ k) :
    claimables env (o.applyTo k q) = claimables env q := by
  unfold JobEnd.applyTo
  cases o.write with
  | none => rfl
  | some w =>
      show claimables env (q.modify k w.apply _) = _
      rw [claimables_modify fun t => Task.not_claimable_of_isClosed (w.isClosed_apply t)]
      exact Finset.filter_true_of_mem h

theorem claimables_eq_empty_iff : claimables env q = ∅ ↔ q.selectsNone env.now = true := by
  unfold claimables Tasks.selectsNone
  simp [Finset.filter_eq_empty_iff]

/-! ## What holds while the drain runs -/

/-- The invariant, for a drain that started on `q`. -/
structure DrainOk (env : DrainEnv) (q : Tasks) (d : Drain n) : Prop where
  left : claimables env d.tasks = (claimables env q).filter fun t => t.taskId ∉ d.claimed
  claimed : ∀ i k, (d.slots i).task = some k → k ∈ d.claimed
  chosen : ∀ i k, (d.slots i).task = some k → ∃ e ∈ claimables env q, e.taskId = k ∧
    ∀ t ∈ claimables env d.tasks, ¬ t.ordersBefore e
  distinct : ∀ i j k, (d.slots i).task = some k → (d.slots j).task = some k → i = j
  lost : ∀ i k, d.slots i = .lost k → (env.jobEnd k).escapes = true
  finished : ∀ i, d.slots i = .finished → claimables env d.tasks = ∅

namespace DrainOk

theorem start : DrainOk env q (Drain.start n q) where
  left := by simp [Drain.start]
  claimed := by
    intro i k h
    cases h
  chosen := by
    intro i k h
    cases h
  distinct := by
    intro i j k h
    cases h
  lost := by
    intro i k h
    cases h
  finished := by
    intro i h
    cases h

variable {d d' : Drain n}

/-- A claimed task is none of the claimable ones. -/
theorem ne_of_claimed (h : DrainOk env q d) (hk : k ∈ d.claimed) :
    ∀ t ∈ claimables env d.tasks, t.taskId ≠ k := by
  intro t ht heq
  rw [h.left, Finset.mem_filter] at ht
  exact ht.2 (heq ▸ hk)

theorem claim (h : DrainOk env q d) {i : Fin n} {e : Task}
    (hsel : Tasks.Selects env.now d.tasks e) :
    DrainOk env q
      { tasks := d.tasks.claim e.taskId env.workerId env.now (addSeconds env.now env.leaseSeconds)
        slots := Function.update d.slots i (.busy e.taskId)
        claimed := e.taskId :: d.claimed } := by
  have he : e ∈ claimables env d.tasks := mem_claimables.mpr ⟨hsel.1, hsel.2.1⟩
  have hnew : e ∈ claimables env q ∧ e.taskId ∉ d.claimed := by
    rw [h.left, Finset.mem_filter] at he
    exact he
  have hsub := @claimables_claim env d.tasks e.taskId
  -- a slot's task after the claim: the new one, or an old one
  have hslot : ∀ j k, (Function.update d.slots i (.busy e.taskId) j).task = some k →
      (j = i ∧ k = e.taskId) ∨ (j ≠ i ∧ (d.slots j).task = some k) := by
    intro j k hj
    by_cases hij : j = i
    · subst hij
      rw [Function.update_self] at hj
      cases hj
      exact Or.inl ⟨rfl, rfl⟩
    · rw [Function.update_of_ne hij] at hj
      exact Or.inr ⟨hij, hj⟩
  refine ⟨?_, ?_, ?_, ?_, ?_, ?_⟩
  · show claimables env (d.tasks.claim _ _ _ _) = _
    rw [hsub, h.left, Finset.filter_filter]
    refine Finset.filter_congr fun t _ => ?_
    simp [and_comm]
  · intro j k hj
    rcases hslot j k hj with ⟨-, rfl⟩ | ⟨-, hold⟩
    · exact List.mem_cons_self
    · exact List.mem_cons_of_mem _ (h.claimed j k hold)
  · intro j k hj
    show ∃ e' ∈ claimables env q, e'.taskId = k ∧
      ∀ t ∈ claimables env (d.tasks.claim _ _ _ _), ¬ t.ordersBefore e'
    rw [hsub]
    rcases hslot j k hj with ⟨-, rfl⟩ | ⟨-, hold⟩
    · refine ⟨e, hnew.1, rfl, ?_⟩
      intro t ht
      have hmem := mem_claimables.mp (Finset.mem_filter.mp ht).1
      exact hsel.2.2 t hmem.1 hmem.2
    · obtain ⟨e', he', hk, hfirst⟩ := h.chosen j k hold
      exact ⟨e', he', hk, fun t ht => hfirst t (Finset.mem_filter.mp ht).1⟩
  · intro j j' k hj hj'
    rcases hslot j k hj with ⟨rfl, rfl⟩ | ⟨-, hold⟩
    · rcases hslot j' _ hj' with ⟨rfl, -⟩ | ⟨-, hold'⟩
      · rfl
      · exact absurd (h.claimed j' _ hold') hnew.2
    · rcases hslot j' k hj' with ⟨-, rfl⟩ | ⟨-, hold'⟩
      · exact absurd (h.claimed j _ hold) hnew.2
      · exact h.distinct j j' k hold hold'
  · intro j k hj
    by_cases hij : j = i
    · subst hij
      simp at hj
    · exact h.lost j k (by simpa [Function.update_of_ne hij] using hj)
  · intro j hj
    by_cases hij : j = i
    · subst hij
      simp at hj
    · have hnone := h.finished j (by simpa [Function.update_of_ne hij] using hj)
      rw [hnone] at he
      exact absurd he (Finset.notMem_empty e)

theorem empty (h : DrainOk env q d) {i : Fin n} (hnone : d.tasks.selectsNone env.now = true) :
    DrainOk env q { d with slots := Function.update d.slots i .finished } := by
  have hslot : ∀ j k, (Function.update d.slots i .finished j).task = some k →
      (d.slots j).task = some k := by
    intro j k hj
    by_cases hij : j = i
    · subst hij
      rw [Function.update_self] at hj
      cases hj
    · rwa [Function.update_of_ne hij] at hj
  refine ⟨h.left, fun j k hj => h.claimed j k (hslot j k hj),
    fun j k hj => h.chosen j k (hslot j k hj),
    fun j j' k hj hj' => h.distinct j j' k (hslot j k hj) (hslot j' k hj'), ?_, ?_⟩
  · intro j k hj
    by_cases hij : j = i
    · subst hij
      simp at hj
    · exact h.lost j k (by simpa [Function.update_of_ne hij] using hj)
  · intro j _
    exact claimables_eq_empty_iff.mpr hnone

theorem finish (h : DrainOk env q d) {i : Fin n} {k : String} (hi : d.slots i = .busy k) :
    DrainOk env q
      { d with
        tasks := (env.jobEnd k).applyTo k d.tasks
        slots := Function.update d.slots i ((env.jobEnd k).slot k) } := by
  have hk : k ∈ d.claimed := h.claimed i k (by rw [hi]; rfl)
  have hsame := claimables_applyTo (env.jobEnd k) (h.ne_of_claimed hk)
  -- a slot keeps its task only where the drain lost it
  have hslot : ∀ j k', (Function.update d.slots i ((env.jobEnd k).slot k) j).task = some k' →
      (d.slots j).task = some k' := by
    intro j k' hj
    by_cases hij : j = i
    · subst hij
      rw [Function.update_self] at hj
      unfold JobEnd.slot at hj
      split at hj
      · cases hj
        rw [hi]
        rfl
      · cases hj
    · rwa [Function.update_of_ne hij] at hj
  refine ⟨?_, fun j k' hj => h.claimed j k' (hslot j k' hj), ?_,
    fun j j' k' hj hj' => h.distinct j j' k' (hslot j k' hj) (hslot j' k' hj'), ?_, ?_⟩
  · rw [← h.left]
    exact hsame
  · intro j k' hj
    obtain ⟨e, he, hke, hfirst⟩ := h.chosen j k' (hslot j k' hj)
    refine ⟨e, he, hke, ?_⟩
    intro t ht
    exact hfirst t (hsame ▸ ht)
  · intro j k' hj
    by_cases hij : j = i
    · subst hij
      have hlost : (env.jobEnd k).slot k = .lost k' := by simpa using hj
      unfold JobEnd.slot at hlost
      split at hlost
      · rename_i hesc
        cases hlost
        exact hesc
      · cases hlost
    · exact h.lost j k' (by simpa [Function.update_of_ne hij] using hj)
  · intro j hj
    by_cases hij : j = i
    · subst hij
      have hfin : (env.jobEnd k).slot k = .finished := by simpa using hj
      unfold JobEnd.slot at hfin
      split at hfin <;> cases hfin
    · have hnone := h.finished j (by simpa [Function.update_of_ne hij] using hj)
      show claimables env ((env.jobEnd k).applyTo k d.tasks) = ∅
      rw [hsame, hnone]

theorem step (h : DrainOk env q d) (hs : DrainStep env d d') : DrainOk env q d' := by
  cases hs with
  | claim _ hsel => exact h.claim hsel
  | empty _ hnone => exact h.empty hnone
  | finish hi => exact h.finish hi

theorem of_run (h : ReflTransGen (DrainStep env) (Drain.start n q) d) : DrainOk env q d := by
  induction h with
  | refl => exact start
  | tail _ hs ih => exact ih.step hs

/-- A claimable task is left over only by slots that are all lost, each to a
blocker of its own. -/
theorem card_blockers (h : DrainOk env q d) (hover : d.Over) (ht : t ∈ claimables env d.tasks) :
    n ≤ (blockers env q t).card := by
  have hlost : ∀ i, ∃ e ∈ blockers env q t, (d.slots i).task = some e.taskId := by
    intro i
    have hstop := hover i
    cases hslot : d.slots i with
    | idle =>
        rw [hslot] at hstop
        cases hstop
    | busy k =>
        rw [hslot] at hstop
        cases hstop
    | finished =>
        rw [h.finished i hslot] at ht
        exact absurd ht (Finset.notMem_empty t)
    | lost k =>
        have htask : (d.slots i).task = some k := by
          rw [hslot]
          rfl
        obtain ⟨e, he, rfl, hfirst⟩ := h.chosen i k htask
        refine ⟨e, Finset.mem_filter.mpr ⟨he, ?_, h.lost i _ hslot, hfirst t ht⟩, rfl⟩
        rintro rfl
        exact h.ne_of_claimed (h.claimed i _ htask) e ht rfl
  choose blocker hmem htask using hlost
  have hinj : Function.Injective blocker := by
    intro i j hij
    exact h.distinct i j (blocker i).taskId (htask i) (hij ▸ htask j)
  have hcard := Finset.card_le_card_of_injOn (s := Finset.univ) blocker
    (fun i _ => hmem i) hinj.injOn
  rwa [Finset.card_univ, Fintype.card_fin] at hcard

end DrainOk

theorem drainsAll_of_blockers (h : ∀ t ∈ claimables env q, (blockers env q t).card < n) :
    DrainsAll env n q := by
  intro d hrun hover
  have hok := DrainOk.of_run hrun
  have hempty : claimables env d.tasks = ∅ := by
    rw [Finset.eq_empty_iff_forall_notMem]
    intro t ht
    have hle := hok.card_blockers hover ht
    rw [hok.left, Finset.mem_filter] at ht
    exact absurd (h t ht.1) (not_lt.mpr hle)
  refine ⟨hempty, ?_⟩
  intro t ht
  by_contra hnot
  have hleft : t ∈ claimables env d.tasks := by
    rw [hok.left]
    exact Finset.mem_filter.mpr ⟨ht, hnot⟩
  rw [hempty] at hleft
  exact absurd hleft (Finset.notMem_empty t)

/-! ## Leaving a task over -/

/-- `ORDER BY priority DESC, next_run_at`, as a key. -/
def Task.orderKey (t : Task) : ℤᵒᵈ ×ₗ Iso.Text :=
  toLex (OrderDual.toDual t.priority, isoformat t.nextRunAt)

theorem Task.ordersBefore_iff {a b : Task} : a.ordersBefore b ↔ a.orderKey < b.orderKey := by
  unfold Task.ordersBefore Task.orderKey
  rw [Prod.Lex.toLex_lt_toLex]
  simp

theorem selects_iff {e : Task} : Tasks.Selects env.now q e ↔
    e ∈ claimables env q ∧ ∀ x ∈ claimables env q, ¬ x.ordersBefore e := by
  unfold Tasks.Selects
  constructor
  · rintro ⟨hmem, hclaim, hfirst⟩
    refine ⟨mem_claimables.mpr ⟨hmem, hclaim⟩, ?_⟩
    intro x hx
    exact hfirst x (mem_claimables.mp hx).1 (mem_claimables.mp hx).2
  · rintro ⟨hmem, hfirst⟩
    refine ⟨(mem_claimables.mp hmem).1, (mem_claimables.mp hmem).2, ?_⟩
    intro x hx hclaim
    exact hfirst x (mem_claimables.mpr ⟨hx, hclaim⟩)

/-- While a blocker is left, the SELECT may return another task than `t`. -/
theorem exists_selects_ne (ht : t ∈ claimables env q) (hblock : (blockers env q t).Nonempty) :
    ∃ x, Tasks.Selects env.now q x ∧ x ≠ t := by
  obtain ⟨m, hm, hmin⟩ := (claimables env q).exists_min_image Task.orderKey ⟨t, ht⟩
  have hfirst : ∀ x ∈ claimables env q, ¬ x.ordersBefore m := by
    intro x hx
    rw [Task.ordersBefore_iff, not_lt]
    exact hmin x hx
  by_cases hmt : m = t
  · -- `t` comes first; the blocker is level with it
    subst hmt
    obtain ⟨e, he⟩ := hblock
    obtain ⟨hclaim, hne, -, hnot⟩ := Finset.mem_filter.mp he
    refine ⟨e, selects_iff.mpr ⟨hclaim, ?_⟩, hne⟩
    intro x hx
    rw [Task.ordersBefore_iff, not_lt] at hnot ⊢
    exact hnot.trans (hmin x hx)
  · exact ⟨m, selects_iff.mpr ⟨hm, hfirst⟩, hmt⟩

/-- The slots that still claim. -/
def idleSlots (d : Drain n) : Finset (Fin n) := Finset.univ.filter fun i => d.slots i = .idle

theorem mem_idleSlots {d : Drain n} {i : Fin n} : i ∈ idleSlots d ↔ d.slots i = .idle := by
  simp [idleSlots]

/-- Slot `i` has claimed and processed `x`. -/
def Drain.process (env : DrainEnv) (d : Drain n) (i : Fin n) (x : Task) : Drain n where
  tasks := (env.jobEnd x.taskId).applyTo x.taskId
    (d.tasks.claim x.taskId env.workerId env.now (addSeconds env.now env.leaseSeconds))
  slots := Function.update d.slots i ((env.jobEnd x.taskId).slot x.taskId)
  claimed := x.taskId :: d.claimed

theorem steps_process {d : Drain n} {i : Fin n} {x : Task} (hi : d.slots i = .idle)
    (hsel : Tasks.Selects env.now d.tasks x) :
    ReflTransGen (DrainStep env) d (d.process env i x) := by
  have hclaim : DrainStep env d _ := .claim hi hsel
  have hfinish := (ReflTransGen.single hclaim).tail
    (.finish (i := i) (k := x.taskId) (Function.update_self ..))
  simpa [Drain.process, Function.update_idem] using hfinish

theorem claimables_process (d : Drain n) (i : Fin n) (x : Task) :
    claimables env (d.process env i x).tasks
      = (claimables env d.tasks).filter fun t => t.taskId ≠ x.taskId := by
  rw [← claimables_claim]
  refine claimables_applyTo _ ?_
  intro t ht
  rw [claimables_claim] at ht
  exact (Finset.mem_filter.mp ht).2

/-- Processing `x` takes at most `x` off the blockers, and only if it escapes. -/
theorem mem_blockers_process {d : Drain n} {i : Fin n} {x e : Task}
    (hx : x ∈ claimables env d.tasks) (he : e ∈ blockers env d.tasks t) (hne : e ≠ x) :
    e ∈ blockers env (d.process env i x).tasks t := by
  obtain ⟨hclaim, hrest⟩ := Finset.mem_filter.mp he
  refine Finset.mem_filter.mpr ⟨?_, hrest⟩
  rw [claimables_process]
  refine Finset.mem_filter.mpr ⟨hclaim, ?_⟩
  intro hk
  exact hne (eq_of_mem_claimables hclaim hx hk)

theorem card_idleSlots_process {d : Drain n} {i : Fin n} {x : Task} (hi : d.slots i = .idle)
    (hx : x ∈ claimables env d.tasks)
    (hle : (idleSlots d).card ≤ (blockers env d.tasks t).card) :
    (idleSlots (d.process env i x)).card
      ≤ (blockers env (d.process env i x).tasks t).card := by
  cases hesc : (env.jobEnd x.taskId).escapes with
  | true =>
      -- the slot is lost with `x`, which may have been one of the blockers
      have hslots : idleSlots (d.process env i x) = (idleSlots d).erase i := by
        ext j
        by_cases hji : j = i
        · subst hji
          simp [mem_idleSlots, Drain.process, JobEnd.slot, hesc]
        · simp [mem_idleSlots, Drain.process, hji]
      have hidle : i ∈ idleSlots d := mem_idleSlots.mpr hi
      have hsub : blockers env d.tasks t
          ⊆ insert x (blockers env (d.process env i x).tasks t) := by
        intro e he
        by_cases hex : e = x
        · exact Finset.mem_insert.mpr (Or.inl hex)
        · exact Finset.mem_insert_of_mem (mem_blockers_process hx he hex)
      have hcard := (Finset.card_le_card hsub).trans (Finset.card_insert_le _ _)
      rw [hslots, Finset.card_erase_of_mem hidle]
      omega
  | false =>
      -- `x` ends without an escape, and was not a blocker
      have hslots : idleSlots (d.process env i x) = idleSlots d := by
        ext j
        by_cases hji : j = i
        · subst hji
          simp [mem_idleSlots, Drain.process, JobEnd.slot, hesc, hi]
        · simp [mem_idleSlots, Drain.process, hji]
      have hsub : blockers env d.tasks t ⊆ blockers env (d.process env i x).tasks t := by
        intro e he
        refine mem_blockers_process hx he ?_
        rintro rfl
        have hesc' := (Finset.mem_filter.mp he).2.2.1
        rw [hesc] at hesc'
        cases hesc'
      rw [hslots]
      exact hle.trans (Finset.card_le_card hsub)

/-- From a state between two tasks, with no more idle slots than blockers, the
drain can end with `t` unclaimed. -/
theorem exists_over (t : Task) (m : ℕ) : ∀ d : Drain n, (claimables env d.tasks).card = m →
    (∀ i, d.slots i = .idle ∨ (d.slots i).stopped = true) → t ∈ claimables env d.tasks →
    (idleSlots d).card ≤ (blockers env d.tasks t).card →
    ∃ d', ReflTransGen (DrainStep env) d d' ∧ d'.Over ∧ t ∈ claimables env d'.tasks := by
  induction m using Nat.strong_induction_on with
  | _ m ih =>
      intro d hm hslots ht hle
      by_cases hidle : idleSlots d = ∅
      · refine ⟨d, .refl, ?_, ht⟩
        intro i
        rcases hslots i with hi | hi
        · have hmem : i ∈ idleSlots d := mem_idleSlots.mpr hi
          rw [hidle] at hmem
          exact absurd hmem (Finset.notMem_empty i)
        · exact hi
      · obtain ⟨i, hi⟩ := Finset.nonempty_iff_ne_empty.mpr hidle
        have hi' : d.slots i = .idle := mem_idleSlots.mp hi
        have hblock : (blockers env d.tasks t).Nonempty :=
          Finset.card_pos.mp (lt_of_lt_of_le (Finset.card_pos.mpr ⟨i, hi⟩) hle)
        obtain ⟨x, hsel, hne⟩ := exists_selects_ne ht hblock
        have hx : x ∈ claimables env d.tasks := (selects_iff.mp hsel).1
        -- the slot claims `x` and processes it; fewer tasks are claimable then
        have hsub : claimables env (d.process env i x).tasks ⊂ claimables env d.tasks := by
          rw [claimables_process]
          refine Finset.filter_ssubset.mpr ⟨x, hx, ?_⟩
          simp
        have hslots' : ∀ j, (d.process env i x).slots j = .idle ∨
            ((d.process env i x).slots j).stopped = true := by
          intro j
          by_cases hji : j = i
          · subst hji
            simp only [Drain.process, Function.update_self, JobEnd.slot]
            split
            · exact Or.inr rfl
            · exact Or.inl rfl
          · simpa [Drain.process, Function.update_of_ne hji] using hslots j
        have ht' : t ∈ claimables env (d.process env i x).tasks := by
          rw [claimables_process]
          refine Finset.mem_filter.mpr ⟨ht, ?_⟩
          intro hk
          exact hne (eq_of_mem_claimables hx ht hk.symm)
        obtain ⟨d', hrun, hover, hleft⟩ := ih _ (hm ▸ Finset.card_lt_card hsub)
          (d.process env i x) rfl hslots' ht' (card_idleSlots_process hi' hx hle)
        exact ⟨d', (steps_process hi' hsel).trans hrun, hover, hleft⟩

theorem not_drainsAll (ht : t ∈ claimables env q) (hn : n ≤ (blockers env q t).card) :
    ¬ DrainsAll env n q := by
  intro hall
  have hidle : (idleSlots (Drain.start n q)).card ≤ (blockers env q t).card := by
    refine (Finset.card_filter_le _ _).trans ?_
    rwa [Finset.card_univ, Fintype.card_fin]
  obtain ⟨d, hrun, hover, hleft⟩ :=
    exists_over t _ (Drain.start n q) rfl (fun _ => Or.inl rfl) ht hidle
  rw [(hall d hrun hover).1] at hleft
  exact absurd hleft (Finset.notMem_empty t)

/-- Three tasks, and exceptions that escape the first two. -/
def threeTasks : Tasks where
  rows := [submitted "a" 0, submitted "b" 1, submitted "c" 2]
  nodup := by decide

def twoEscape : DrainEnv where
  now := Iso.DateTime.utc 5
  workerId := "local-worker-1"
  leaseSeconds := 300
  jobEnd := fun k => if k = "c" then ⟨some .succeeded, false⟩ else ⟨none, true⟩

end CctvMemory.Queue
