import CctvMemory.Library.Clients

/-!
# Drafts that are published whole

Clients share a store of places. A client writes a draft at a place that was free, which
is its own from then on, and publishes the draft by moving it to a place for finished
work; it may also throw the draft away, or never come back to it. Clients do not agree
on who publishes where.

* `whole_of_run`: in every run a place for finished work holds what it held at the start,
  nothing, or a work that is whole.
-/

namespace Act.Drafts

variable {L V : Type} [DecidableEq L]

/-- What a client has in hand. -/
inductive Hand (L V : Type) where
  | empty
  | draft (place : L) (content : V)

/-- The note on a client; a step puts out what it has in hand after it. -/
def noted (hand : Hand L V) (out : List (Hand L V)) : Hand L V := out.getLast?.getD hand

/-- Which places are for drafts, and what may be published where. -/
structure Desk (L V : Type) where
  forDrafts : L → Prop
  Whole : L → V → Prop

/-- The steps that a client may take, by what it has in hand. -/
inductive Allowed (desk : Desk L V) :
    Hand L V → (L → Option V) → (L → Option V) × List (Hand L V) → Prop where
  | nothing {hand : Hand L V} {s : L → Option V} : Allowed desk hand s (s, [])
  | begin {s : L → Option V} {place : L} {content : V} (hplace : desk.forDrafts place)
      (hfree : s place = none) :
      Allowed desk .empty s (Function.update s place (some content), [.draft place content])
  | write {s : L → Option V} {place : L} {content : V} (content' : V) :
      Allowed desk (.draft place content) s
        (Function.update s place (some content'), [.draft place content'])
  | discard {s : L → Option V} {place : L} {content : V} :
      Allowed desk (.draft place content) s (Function.update s place none, [.empty])
  | publish {s : L → Option V} {place goal : L} {content : V} (hgoal : ¬ desk.forDrafts goal)
      (hwhole : desk.Whole goal content) :
      Allowed desk (.draft place content) s
        (Function.update (Function.update s place none) goal (s place), [.empty])
  | remove {hand : Hand L V} {s : L → Option V} {goal : L} (hgoal : ¬ desk.forDrafts goal) :
      Allowed desk hand s (Function.update s goal none, [])

/-! ## Runs -/

variable {ι J α : Type} [DecidableEq ι]

inductive Event (ι J : Type) where
  | begin (i : ι) (job : J)
  | call (i : ι)

abbrev Office (ι L V α : Type) := Clients ι (L → Option V) (Hand L V) (Hand L V) α

def officeStep (program : J → Prog (L → Option V) (Hand L V) α) (c : Office ι L V α) :
    Event ι J → Option (Office ι L V α)
  | .begin i job => c.begin i (program job) .empty
  | .call i => c.call noted i

/-- The programs take allowed steps only. -/
def Tidy (desk : Desk L V) (program : J → Prog (L → Option V) (Hand L V) α) : Prop :=
  ∀ job, (program job).Amid noted (Allowed desk) .empty fun _ _ => True

def Opening (s₀ : L → Option V) (c : Office ι L V α) : Prop :=
  c.shared = s₀ ∧ ∀ i, c.stage i = .idle

abbrev OfficeRun (program : J → Prog (L → Option V) (Hand L V) α) (s₀ : L → Option V) :
    List (Event ι J) → Office ι L V α → Prop :=
  Trace.Run (Opening s₀) fun c e c' => officeStep program c e = some c'

/-! ## Custody -/

/-- What a client has in hand, when it is amid a program. -/
def handOf : Client (L → Option V) (Hand L V) (Hand L V) α → Hand L V
  | .running _ hand => hand
  | _ => .empty

omit [DecidableEq L] in
theorem handOf_of {p : Prog (L → Option V) (Hand L V) α} {hand : Hand L V} {place : L}
    {content : V} (h : handOf (Client.of p hand) = .draft place content) :
    hand = .draft place content := by
  cases p with
  | ret a => cases h
  | atomic next k => exact h

/-- Every draft in hand is at its place, which is nobody else's. -/
structure Custody (desk : Desk L V) (c : Office ι L V α) : Prop where
  held : ∀ i place content, handOf (c.stage i) = .draft place content →
    desk.forDrafts place ∧ c.shared place = some content
  apart : ∀ i j place content content', handOf (c.stage i) = .draft place content →
    handOf (c.stage j) = .draft place content' → i = j

variable {desk : Desk L V} {program : J → Prog (L → Option V) (Hand L V) α}
  {s₀ : L → Option V} {c c' : Office ι L V α} {i : ι}

omit [DecidableEq L] in
/-- A step that gives a client what it has in hand, or less, and leaves the drafts of the
others alone. -/
theorem Custody.step (h : Custody desk c) {hand : Hand L V}
    {p : Prog (L → Option V) (Hand L V) α}
    (hstage : c'.stage = Function.update c.stage i (Client.of p hand))
    (hown : ∀ place content, hand = .draft place content →
      desk.forDrafts place ∧ c'.shared place = some content ∧
        ∀ j content', j ≠ i → handOf (c.stage j) ≠ .draft place content')
    (hothers : ∀ j place content, j ≠ i → handOf (c.stage j) = .draft place content →
      c'.shared place = c.shared place) : Custody desk c' := by
  have hself : ∀ place content, handOf (c'.stage i) = .draft place content →
      hand = .draft place content := by
    intro place content hhand
    rw [hstage, Function.update_self] at hhand
    exact handOf_of hhand
  have hother : ∀ j, j ≠ i → c'.stage j = c.stage j := by
    intro j hj
    rw [hstage, Function.update_of_ne hj]
  refine ⟨fun j place content hj => ?_, fun j k place content content' hj hk => ?_⟩
  · by_cases hji : j = i
    · subst hji
      obtain ⟨hplace, hshared, -⟩ := hown place content (hself place content hj)
      exact ⟨hplace, hshared⟩
    · rw [hother j hji] at hj
      rw [hothers j place content hji hj]
      exact h.held j place content hj
  · by_cases hji : j = i
    · by_cases hki : k = i
      · rw [hji, hki]
      · rw [hji] at hj
        rw [hother k hki] at hk
        exact absurd hk ((hown place content (hself place content hj)).2.2 k content' hki)
    · rw [hother j hji] at hj
      by_cases hki : k = i
      · rw [hki] at hk
        exact absurd hj ((hown place content' (hself place content' hk)).2.2 j content hji)
      · rw [hother k hki] at hk
        exact h.apart j k place content content' hj hk

/-- A client that may take the step keeps every draft where it is. -/
theorem Custody.call (h : Custody desk c) {hand : Hand L V}
    {rest p : Prog (L → Option V) (Hand L V) α}
    {n : (L → Option V) × List (Hand L V)} (hrunning : c.stage i = .running rest hand)
    (hshared : c'.shared = n.1)
    (hstage : c'.stage = Function.update c.stage i (Client.of p (noted hand n.2)))
    (hallowed : Allowed desk hand c.shared n) : Custody desk c' := by
  have hhand : handOf (c.stage i) = hand := by rw [hrunning]; rfl
  have hmine : ∀ place content, hand = .draft place content →
      desk.forDrafts place ∧ c.shared place = some content ∧
        ∀ j content', j ≠ i → handOf (c.stage j) ≠ .draft place content' := by
    intro place content heq
    obtain ⟨hplace, hcontent⟩ := h.held i place content (hhand.trans heq)
    exact ⟨hplace, hcontent, fun j content' hj hother =>
      hj (h.apart j i place content' content hother (hhand.trans heq))⟩
  have htheirs : ∀ {place : L} {content : V}, hand = .draft place content →
      ∀ j place' content', j ≠ i → handOf (c.stage j) = .draft place' content' →
        place' ≠ place := by
    intro place content heq j place' content' hj hother hplace
    rw [hplace] at hother
    exact (hmine place content heq).2.2 j content' hj hother
  have hgoal : ∀ {goal : L}, ¬ desk.forDrafts goal → ∀ j place content,
      handOf (c.stage j) = .draft place content → place ≠ goal := by
    intro goal hnot j place content hj heq
    exact hnot (heq ▸ (h.held j place content hj).1)
  cases hallowed with
  | nothing =>
      refine h.step hstage (fun place content heq => ?_) fun j place content _ _ => by
        rw [hshared]
      rw [hshared]
      exact hmine place content heq
  | begin hplace hfree =>
      refine h.step hstage (fun place' content' heq => ?_) fun j place' content' hj hother => ?_
      · cases heq
        refine ⟨hplace, ?_, fun j content' hj hother => ?_⟩
        · rw [hshared]
          exact Function.update_self ..
        have hcontent := (h.held j _ content' hother).2
        rw [hfree] at hcontent
        cases hcontent
      · rw [hshared]
        refine Function.update_of_ne ?_ _ _
        rintro rfl
        have hcontent := (h.held j _ content' hother).2
        rw [hfree] at hcontent
        cases hcontent
  | write content' =>
      refine h.step hstage (fun place'' content'' heq => ?_) fun j place'' content'' hj hother => ?_
      · cases heq
        obtain ⟨hplace, -, halone⟩ := hmine _ _ rfl
        refine ⟨hplace, ?_, halone⟩
        rw [hshared]
        exact Function.update_self ..
      · rw [hshared]
        exact Function.update_of_ne (htheirs rfl j place'' content'' hj hother) _ _
  | discard =>
      refine h.step hstage (fun place'' content'' heq => ?_) fun j place'' content'' hj hother => ?_
      · cases heq
      · rw [hshared]
        exact Function.update_of_ne (htheirs rfl j place'' content'' hj hother) _ _
  | publish hnot hwhole =>
      refine h.step hstage (fun place'' content'' heq => ?_) fun j place'' content'' hj hother => ?_
      · cases heq
      · rw [hshared]
        dsimp only
        rw [Function.update_of_ne (hgoal hnot j place'' content'' hother),
          Function.update_of_ne (htheirs rfl j place'' content'' hj hother)]
  | remove hnot =>
      refine h.step hstage (fun place'' content'' heq => ?_) fun j place'' content'' hj hother => ?_
      · obtain ⟨hplace, hcontent, halone⟩ := hmine place'' content'' heq
        refine ⟨hplace, ?_, halone⟩
        rw [hshared]
        exact (Function.update_of_ne (hgoal hnot i place'' content'' (hhand.trans heq)) _ _).trans
          hcontent
      · rw [hshared]
        exact Function.update_of_ne (hgoal hnot j place'' content'' hother) _ _

/-! ## Whole works -/

/-- A place for finished work holds what it held, nothing, or a whole work. -/
def FinishedWhole (desk : Desk L V) (s₀ s : L → Option V) : Prop :=
  ∀ goal, ¬ desk.forDrafts goal →
    s goal = s₀ goal ∨ s goal = none ∨ ∃ content, s goal = some content ∧ desk.Whole goal content

theorem FinishedWhole.update_draft {s : L → Option V} (h : FinishedWhole desk s₀ s) {place : L}
    (hplace : desk.forDrafts place) (content : Option V) :
    FinishedWhole desk s₀ (Function.update s place content) := by
  intro goal hgoal
  have hne : goal ≠ place := fun heq => hgoal (heq.symm ▸ hplace)
  rw [Function.update_of_ne hne]
  exact h goal hgoal

theorem FinishedWhole.update_goal {s : L → Option V} (h : FinishedWhole desk s₀ s) {goal : L}
    {content : Option V} (hcontent : ∀ v ∈ content, desk.Whole goal v) :
    FinishedWhole desk s₀ (Function.update s goal content) := by
  intro goal' hgoal'
  by_cases heq : goal' = goal
  · subst heq
    rw [Function.update_self]
    cases content with
    | none => exact .inr (.inl rfl)
    | some v => exact .inr (.inr ⟨v, rfl, hcontent v rfl⟩)
  · rw [Function.update_of_ne heq]
    exact h goal' hgoal'

theorem FinishedWhole.allowed {s : L → Option V} {hand : Hand L V}
    {n : (L → Option V) × List (Hand L V)} (h : FinishedWhole desk s₀ s)
    (hheld : ∀ place content, hand = .draft place content →
      desk.forDrafts place ∧ s place = some content)
    (hallowed : Allowed desk hand s n) : FinishedWhole desk s₀ n.1 := by
  cases hallowed with
  | nothing => exact h
  | begin hplace => exact h.update_draft hplace _
  | write content' => exact h.update_draft (hheld _ _ rfl).1 _
  | discard => exact h.update_draft (hheld _ _ rfl).1 _
  | publish hnot hwhole =>
      obtain ⟨hplace, hcontent⟩ := hheld _ _ rfl
      refine (h.update_draft hplace none).update_goal fun v hv => ?_
      rw [hcontent] at hv
      cases hv
      exact hwhole
  | remove hnot => exact h.update_goal fun v hv => absurd hv (Option.not_mem_none v)

/-- Drafts are in custody, and what is finished is whole, in every run. -/
theorem whole_of_run (htidy : Tidy desk program) {es : List (Event ι J)}
    (h : OfficeRun program s₀ es c) : FinishedWhole desk s₀ c.shared := by
  have hall : Clients.Disciplined noted (Allowed desk) (fun _ _ => True) c ∧
      Custody desk c ∧ FinishedWhole desk s₀ c.shared := by
    refine Trace.Run.invariant_of_state (I := fun c : Office ι L V α =>
      Clients.Disciplined noted (Allowed desk) (fun _ _ => True) c ∧
        Custody desk c ∧ FinishedWhole desk s₀ c.shared) (p := fun _ => True) ?_ ?_ h
      fun _ _ => trivial
    · rintro c ⟨hshared, hidle⟩
      have hhand : ∀ i, handOf (c.stage i) = .empty := fun i => by rw [hidle i]; rfl
      refine ⟨.of_idle hidle, ⟨fun i place content hi => ?_, fun i j place content _ hi => ?_⟩, ?_⟩
      · rw [hhand i] at hi
        cases hi
      · rw [hhand i] at hi
        cases hi
      · intro goal _
        rw [hshared]
        exact .inl rfl
    · rintro c e c' ⟨hdisciplined, hcustody, hwhole⟩ - hstep
      cases e with
      | begin i job =>
          obtain ⟨-, hshared, hstage⟩ := Clients.begin_eq_some hstep
          refine ⟨hdisciplined.begin (htidy job) hstep, ?_, by rwa [hshared]⟩
          exact hcustody.step hstage (fun place content heq => by cases heq)
            fun j place content _ _ => by rw [hshared]
      | call i =>
          obtain ⟨next, k, hand, hrunning, hshared, hstage, hallowed, hdisciplined'⟩ :=
            hdisciplined.call hstep
          refine ⟨hdisciplined', hcustody.call hrunning hshared hstage hallowed, ?_⟩
          rw [hshared]
          refine hwhole.allowed (fun place content heq => ?_) hallowed
          refine hcustody.held i place content ?_
          rw [hrunning]
          exact heq
  exact hall.2.2

end Act.Drafts
