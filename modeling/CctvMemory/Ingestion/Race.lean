import CctvMemory.Ingestion.Store
import CctvMemory.Library.Clients

/-!
# Concurrent calls with one key

Any number of `create_or_get_by_idempotency` calls with one key and one payload,
each in its own transaction. A call is a select and, when it misses, an insert
that is seen by others once it commits. On SQLite a call under the write
coordinator begins its transaction with `BEGIN IMMEDIATE`, so no other writer
comes in between; PostgreSQL has no coordinator.

* `createOrGet_alone`: with nobody in between, a call is `createOrGet`.
* `createOrGet_linearizable`: one row, returned by every call, as long as no
  call misses the row while another one that missed it has still to insert.
* `coordinated_apart`: under the coordinator this is so in every run.
* `loser_conflicts`: two submissions of one video, one of them refused.
-/

namespace CctvMemory.Ingestion

open Act (Clients Client)
open Keyed (Indexed)
open CctvMemory.Provisioning (VideoSource)

/-! ## A call -/

inductive StoreMark where
  | missed
  | stored
deriving DecidableEq

section Call

variable {ρ κ : Type} [DecidableEq κ] (r : Repository ρ κ) (b : Backend)

abbrev StoreAct (α : Type) := Act StoreError r.Rows StoreMark α

def markMissed (marks : List StoreMark) : Option ρ → List StoreMark
  | none => marks
  | some _ => []

def selectByKey (key : κ) : StoreAct r (Option ρ) :=
  Act.txn fun t => .ok (t.find? key, t, markMissed [.missed] (t.find? key))

/-- The insert and the commit of its transaction. -/
def insertStatement (row : ρ) : StoreAct r ρ :=
  Act.txn fun t => match r.insert b t row with
    | .ok t' => .ok (row, t', [.stored])
    | .error e => .error e

/-- What is done with the row found, if one was. -/
def getOrInsert (row : ρ) : Option ρ → StoreAct r ρ
  | some existing => match r.conflict existing row with
      | some message => throw (.idempotencyConflict message)
      | none => pure existing
  | none => insertStatement r b row

def createOrGetStatements (row : ρ) : StoreAct r ρ := do
  let existing ← selectByKey r (r.key row)
  getOrInsert r b row existing

/-- The call in a transaction that holds the write lock from its beginning. -/
def createOrGetLocked (row : ρ) : StoreAct r ρ :=
  Act.txn fun t => match r.createOrGet b t row with
    | .ok (existing, t') =>
        .ok (existing, t', markMissed [.missed, .stored] (t.find? (r.key row)))
    | .error e => .error e

/-- A call, by a caller that goes through the write coordinator or not. -/
def createOrGetCall (coordinated : Bool) (row : ρ) : StoreAct r ρ :=
  if b = .sqlite ∧ coordinated = true then createOrGetLocked r b row
  else createOrGetStatements r b row

variable {r b}

/-- With nobody in between, a call is `createOrGet`. -/
theorem createOrGet_alone (coordinated : Bool) (row : ρ) (t : r.Rows) :
    Act.exec (createOrGetCall r b coordinated row) t = match r.createOrGet b t row with
      | .ok (existing, t') => (.ok existing, t')
      | .error e => (.error e, t) := by
  unfold createOrGetCall
  split
  · unfold createOrGetLocked
    rw [Act.exec_txn]
    rcases r.createOrGet b t row with e | ⟨existing, t'⟩
    · rfl
    · rfl
  · unfold createOrGetStatements selectByKey Repository.createOrGet
    rw [Act.exec_bind, Act.exec_txn]
    cases hfind : t.find? (r.key row) with
    | some existing =>
        show Act.exec (getOrInsert r b row (some existing)) t = _
        unfold getOrInsert
        dsimp only
        cases r.conflict existing row with
        | some message => rfl
        | none => rfl
    | none =>
        show Act.exec (insertStatement r b row) t = _
        unfold insertStatement
        rw [Act.exec_txn]
        dsimp only
        cases r.insert b t row with
        | ok t' => rfl
        | error e => rfl

end Call

/-! ## The race -/

/-- Missed the row and still has to insert one. -/
def notedMiss (missed : Bool) : List StoreMark → Bool
  | [] => missed
  | .missed :: out => notedMiss true out
  | .stored :: out => notedMiss false out

section System

variable {ρ κ : Type} [DecidableEq κ]

abbrev Race (ι : Type) (r : Repository ρ κ) := Clients ι r.Rows StoreMark Bool (Except StoreError ρ)

inductive RaceEvent (ι : Type) (r : Repository ρ κ) where
  | call (i : ι)
  | statement (i : ι)
  | other (t : r.Rows)

variable {ι : Type} (r : Repository ρ κ) (b : Backend) (payload : ρ) (draw : ι → String)
  (coordinated : ι → Bool)

/-- The program of the call of `i`, which draws an id of its own. -/
def callOf (i : ι) : Act.Prog r.Rows StoreMark (Except StoreError ρ) :=
  (createOrGetCall r b (coordinated i) (r.withId payload (draw i))).run

/-- The drawn ids are not those of rows with other keys. -/
def IdsNew (t : r.Rows) : Prop :=
  ∀ i row, t.get? (draw i) = some row → r.key row = r.key payload

/-- A call is made, a statement of one runs, or other transactions change the
table and leave the row with this key as it is. -/
inductive RaceStep [DecidableEq ι] (s : Race ι r) : RaceEvent ι r → Race ι r → Prop where
  | call (i : ι) (s' : Race ι r) :
      s.begin i (callOf r b payload draw coordinated i) false = some s' → RaceStep s (.call i) s'
  | statement (i : ι) (s' : Race ι r) : s.call notedMiss i = some s' →
      RaceStep s (.statement i) s'
  | other (t : r.Rows) : t.find? (r.key payload) = s.shared.find? (r.key payload) →
      IdsNew r payload draw t → RaceStep s (.other t) { s with shared := t }

/-- No call made; a row with this key, if there is one, has this payload. -/
def Unraced (s : Race ι r) : Prop :=
  (∀ i, s.stage i = .idle) ∧ IdsNew r payload draw s.shared ∧
    ∀ row, s.shared.find? (r.key payload) = some row →
      ∀ i, r.conflict row (r.withId payload (draw i)) = none

variable {r}

/-- The next statement of `i` looks for the row and misses it. -/
def findsNothing (s : Race ι r) (i : ι) : Bool := decide (StoreMark.missed ∈ s.outputs i)

def missedBy : Client r.Rows StoreMark Bool (Except StoreError ρ) → Bool
  | .running _ missed => missed
  | _ => false

def yetToInsert (s : Race ι r) (i : ι) : Bool := missedBy (s.stage i)

/-- Nobody misses the row while another call that missed it has still to insert. -/
def KeepsApart (s : Race ι r) : RaceEvent ι r → Prop
  | .statement i => findsNothing s i = true → ∀ j, yetToInsert s j = false
  | _ => True

instance [Fintype ι] (s : Race ι r) (e : RaceEvent ι r) : Decidable (KeepsApart s e) :=
  match e with
  | .call _ => .isTrue trivial
  | .statement i => inferInstanceAs
      (Decidable (findsNothing s i = true → ∀ j, yetToInsert s j = false))
  | .other _ => .isTrue trivial

variable (r)

abbrev ApartRun [DecidableEq ι] : List (RaceEvent ι r) → Race ι r → Prop :=
  Trace.Run (Unraced r payload draw) fun s e s' =>
    RaceStep r b payload draw coordinated s e s' ∧ KeepsApart s e

/-- Every call that is done returned the one row that is stored with the key. -/
def Linearized (s : Race ι r) : Prop :=
  ∀ i result, s.stage i = .done result → ∃ row, result = .ok row ∧
    (s.shared.rows.filter fun row' => decide (r.key row' = r.key payload)) = [row]

end System

/-! ## The invariant -/

section Invariant

variable {ρ κ : Type} [DecidableEq κ] {ι : Type} {r : Repository ρ κ} {b : Backend} {payload : ρ}
  {draw : ι → String} {coordinated : ι → Bool}

/-- Where the call of `i` stands. -/
inductive Standing (r : Repository ρ κ) (b : Backend) (payload : ρ) (draw : ι → String)
    (coordinated : ι → Bool) (t : r.Rows) (i : ι) :
    Client r.Rows StoreMark Bool (Except StoreError ρ) → Prop where
  | idle : Standing r b payload draw coordinated t i .idle
  | waiting : Standing r b payload draw coordinated t i
      (.running (callOf r b payload draw coordinated i) false)
  | missed : Standing r b payload draw coordinated t i
      (.running (insertStatement r b (r.withId payload (draw i))).run true)
  | served (row : ρ) : t.find? (r.key payload) = some row →
      Standing r b payload draw coordinated t i (.done (.ok row))

/-- At most one call has missed the row, and then it is not there. -/
structure Ordered (r : Repository ρ κ) (b : Backend) (payload : ρ) (draw : ι → String)
    (coordinated : ι → Bool) (s : Race ι r) : Prop where
  standing : ∀ i, Standing r b payload draw coordinated s.shared i (s.stage i)
  lone : ∀ i j, yetToInsert s i = true → yetToInsert s j = true → i = j
  missing : ∀ i, yetToInsert s i = true → s.shared.find? (r.key payload) = none
  agrees : ∀ row, s.shared.find? (r.key payload) = some row →
    ∀ i, r.conflict row (r.withId payload (draw i)) = none
  ids : IdsNew r payload draw s.shared

variable {s s' : Race ι r}

omit [DecidableEq κ] in
theorem yetToInsert_eq {i : ι} {client : Client r.Rows StoreMark Bool (Except StoreError ρ)}
    (h : s.stage i = client) : yetToInsert s i = missedBy client := congrArg missedBy h

omit [DecidableEq κ] in
theorem yetToInsert_update [DecidableEq ι] {i j : ι}
    {client : Client r.Rows StoreMark Bool (Except StoreError ρ)}
    (h : s'.stage = Function.update s.stage i client) (hj : j ≠ i) :
    yetToInsert s' j = yetToInsert s j := by
  unfold yetToInsert
  rw [h, Function.update_of_ne hj]

/-- A call starts with a statement. -/
theorem of_callOf (i : ι) : Client.of (callOf r b payload draw coordinated i) false
    = .running (callOf r b payload draw coordinated i) false := by
  unfold callOf createOrGetCall
  split
  · rfl
  · rfl

namespace Ordered

theorem unraced (h : Unraced r payload draw s) : Ordered r b payload draw coordinated s where
  standing i := by
    rw [h.1 i]
    exact .idle
  lone i j hi := by
    rw [yetToInsert_eq (h.1 i)] at hi
    cases hi
  missing i hi := by
    rw [yetToInsert_eq (h.1 i)] at hi
    cases hi
  agrees := h.2.2
  ids := h.2.1

variable [DecidableEq ι] {i : ι}

/-- The client of `i` moved. -/
theorem standing_update {t : r.Rows}
    {client : Client r.Rows StoreMark Bool (Except StoreError ρ)}
    (hstage : s'.stage = Function.update s.stage i client)
    (hself : Standing r b payload draw coordinated t i client)
    (hothers : ∀ j, j ≠ i → Standing r b payload draw coordinated t j (s.stage j)) (j : ι) :
    Standing r b payload draw coordinated t j (s'.stage j) := by
  rw [hstage]
  by_cases hji : j = i
  · subst hji
    rw [Function.update_self]
    exact hself
  · rw [Function.update_of_ne hji]
    exact hothers j hji

/-- The client of `i` goes on while the table stays; it has no insert to make. -/
theorem goOn (h : Ordered r b payload draw coordinated s)
    {client : Client r.Rows StoreMark Bool (Except StoreError ρ)}
    (hshared : s'.shared = s.shared) (hstage : s'.stage = Function.update s.stage i client)
    (hclient : Standing r b payload draw coordinated s.shared i client)
    (hquiet : yetToInsert s' i = false) : Ordered r b payload draw coordinated s' := by
  have hothers : ∀ j, yetToInsert s' j = true → yetToInsert s j = true := by
    intro j hj
    by_cases hji : j = i
    · subst hji
      rw [hquiet] at hj
      cases hj
    · rwa [yetToInsert_update hstage hji] at hj
  constructor
  · rw [hshared]
    exact standing_update hstage hclient fun j _ => h.standing j
  · exact fun j k hj hk => h.lone j k (hothers j hj) (hothers k hk)
  · intro j hj
    rw [hshared]
    exact h.missing j (hothers j hj)
  · rw [hshared]
    exact h.agrees
  · rw [hshared]
    exact h.ids

/-- The client of `i` has missed the row, and nobody else had. -/
theorem miss (h : Ordered r b payload draw coordinated s) (hshared : s'.shared = s.shared)
    (hstage : s'.stage = Function.update s.stage i
      (.running (insertStatement r b (r.withId payload (draw i))).run true))
    (hnone : s.shared.find? (r.key payload) = none) (hlone : ∀ j, yetToInsert s j = false) :
    Ordered r b payload draw coordinated s' := by
  have honly : ∀ j, yetToInsert s' j = true → j = i := by
    intro j hj
    by_contra hji
    rw [yetToInsert_update hstage hji, hlone j] at hj
    cases hj
  constructor
  · rw [hshared]
    exact standing_update hstage .missed fun j _ => h.standing j
  · exact fun j k hj hk => (honly j hj).trans (honly k hk).symm
  · intro j _
    rw [hshared]
    exact hnone
  · rw [hshared]
    exact h.agrees
  · rw [hshared]
    exact h.ids

/-- The client of `i` stores its row: nobody else has missed it, so nobody is
left behind with an insert to make, and nobody was served before. -/
theorem store (h : Ordered r b payload draw coordinated s) {t' : r.Rows}
    (hins : s.shared.insert? (r.withId payload (draw i)) = some t')
    (hshared : s'.shared = t')
    (hstage : s'.stage = Function.update s.stage i
      (.done (.ok (r.withId payload (draw i)))))
    (hlone : ∀ j, j ≠ i → yetToInsert s j = false) :
    Ordered r b payload draw coordinated s' := by
  have hkey : r.key (r.withId payload (draw i)) = r.key payload := r.key_withId payload (draw i)
  have hnone : s.shared.find? (r.key payload) = none := by
    have hfree := (Indexed.insert?_eq_some_iff.mp hins).2.1
    rwa [hkey] at hfree
  have hfound : t'.find? (r.key payload) = some (r.withId payload (draw i)) := by
    rw [Indexed.find?_insert? hins, if_pos hkey]
  have hquiet : ∀ j, yetToInsert s' j = false := by
    intro j
    by_cases hji : j = i
    · subst hji
      have hself : s'.stage j = .done (.ok (r.withId payload (draw j))) := by
        rw [hstage, Function.update_self]
      exact yetToInsert_eq hself
    · rw [yetToInsert_update hstage hji]
      exact hlone j hji
  constructor
  · rw [hshared]
    refine standing_update hstage (.served _ hfound) fun j hji => ?_
    have hstands := h.standing j
    have hwaits := hlone j hji
    generalize hclient : s.stage j = client at hstands ⊢
    rw [yetToInsert_eq hclient] at hwaits
    cases hstands with
    | idle => exact .idle
    | waiting => exact .waiting
    | missed => cases hwaits
    | served row hrow =>
        -- the key was free until now
        rw [hnone] at hrow
        cases hrow
  · intro j k hj
    rw [hquiet j] at hj
    cases hj
  · intro j hj
    rw [hquiet j] at hj
    cases hj
  · intro row hrow j
    rw [hshared, hfound] at hrow
    cases hrow
    exact r.conflict_withId payload _ _
  · intro j row hrow
    rw [hshared, Indexed.get?_insert? hins] at hrow
    split at hrow
    · cases hrow
      exact hkey
    · exact h.ids j row hrow

omit [DecidableEq ι] in
/-- A row with a new id can be inserted when the key is free. -/
theorem insert_free (h : Ordered r b payload draw coordinated s)
    (hnone : s.shared.find? (r.key payload) = none) (i : ι) :
    ∃ t', r.insert b s.shared (r.withId payload (draw i)) = .ok t' := by
  apply Repository.insert_of_free
  · rw [r.pk_withId]
    cases hrow : s.shared.get? (draw i) with
    | none => rfl
    | some row =>
        have hfound := Indexed.find?_eq_some_iff.mpr
          ⟨Keyed.Table.mem_of_get? hrow, h.ids i row hrow⟩
        rw [hnone] at hfound
        cases hfound
  · rw [r.key_withId]
    exact hnone

/-- A call that goes through the coordinator finds the row or stores it. -/
theorem locked (h : Ordered r b payload draw coordinated s)
    (hstage : s.stage i
      = .running (ExceptT.run (createOrGetLocked r b (r.withId payload (draw i)))) false)
    (hcall : s.call notedMiss i = some s') (hapart : KeepsApart s (.statement i)) :
    Ordered r b payload draw coordinated s' := by
  have hkey : r.key (r.withId payload (draw i)) = r.key payload := r.key_withId payload (draw i)
  cases hfind : s.shared.find? (r.key payload) with
  | some row =>
      have hget : r.createOrGet b s.shared (r.withId payload (draw i)) = .ok (row, s.shared) := by
        unfold Repository.createOrGet
        rw [hkey, hfind]
        dsimp only
        rw [h.agrees row hfind i]
      obtain ⟨hshared, hafter, -⟩ := Clients.call_txn_ok hcall hstage (by rw [hget])
      apply h.goOn hshared hafter (.served row hfind)
      rw [yetToInsert_eq (hafter ▸ Function.update_self _ _ _)]
      rfl
  | none =>
      obtain ⟨t', hins⟩ := h.insert_free hfind i
      have hget : r.createOrGet b s.shared (r.withId payload (draw i))
          = .ok (r.withId payload (draw i), t') := by
        unfold Repository.createOrGet
        rw [hkey, hfind]
        dsimp only
        rw [hins]
      obtain ⟨hshared, hafter, hout⟩ := Clients.call_txn_ok hcall hstage (by rw [hget])
      apply h.store (Repository.insert_ok hins) hshared hafter
      intro j _
      apply hapart
      unfold findsNothing
      rw [hout, hkey, hfind]
      rfl

/-- The select of a call: it finds the row or notes that it missed it. -/
theorem selects (h : Ordered r b payload draw coordinated s)
    (hstage : s.stage i
      = .running (ExceptT.run (createOrGetStatements r b (r.withId payload (draw i)))) false)
    (hcall : s.call notedMiss i = some s') (hapart : KeepsApart s (.statement i)) :
    Ordered r b payload draw coordinated s' := by
  have hkey : r.key (r.withId payload (draw i)) = r.key payload := r.key_withId payload (draw i)
  obtain ⟨hshared, hafter, hout⟩ := Clients.call_bind_ok hcall hstage rfl
  rw [hkey] at hafter hout
  cases hfind : s.shared.find? (r.key payload) with
  | some row =>
      rw [hfind] at hafter
      unfold getOrInsert at hafter
      dsimp only at hafter
      rw [h.agrees row hfind i] at hafter
      apply h.goOn hshared hafter (.served row hfind)
      rw [yetToInsert_eq (hafter ▸ Function.update_self _ _ _)]
      rfl
  | none =>
      rw [hfind] at hafter hout
      apply h.miss hshared hafter hfind
      apply hapart
      unfold findsNothing
      rw [hout]
      rfl

/-- The insert of a call that missed the row. -/
theorem inserts (h : Ordered r b payload draw coordinated s)
    (hstage : s.stage i
      = .running (ExceptT.run (insertStatement r b (r.withId payload (draw i)))) true)
    (hcall : s.call notedMiss i = some s') : Ordered r b payload draw coordinated s' := by
  have hmissed : yetToInsert s i = true := yetToInsert_eq hstage
  obtain ⟨t', hins⟩ := h.insert_free (h.missing i hmissed) i
  obtain ⟨hshared, hafter, -⟩ := Clients.call_txn_ok hcall hstage (by rw [hins])
  apply h.store (Repository.insert_ok hins) hshared hafter
  intro j hji
  cases hj : yetToInsert s j with
  | false => rfl
  | true => exact absurd (h.lone j i hj hmissed) hji

/-- One statement of the call of `i`. -/
theorem statement (h : Ordered r b payload draw coordinated s)
    (hcall : s.call notedMiss i = some s') (hapart : KeepsApart s (.statement i)) :
    Ordered r b payload draw coordinated s' := by
  have hstands := h.standing i
  generalize hstage : s.stage i = client at hstands
  cases hstands with
  | idle =>
      obtain ⟨next, k, g, hrun, -⟩ := Clients.call_eq_some hcall
      rw [hstage] at hrun
      cases hrun
  | served row hrow =>
      obtain ⟨next, k, g, hrun, -⟩ := Clients.call_eq_some hcall
      rw [hstage] at hrun
      cases hrun
  | waiting =>
      unfold callOf createOrGetCall at hstage
      split at hstage
      · exact h.locked hstage hcall hapart
      · exact h.selects hstage hcall hapart
  | missed => exact h.inserts hstage hcall

theorem step (h : Ordered r b payload draw coordinated s) {e : RaceEvent ι r}
    (hstep : RaceStep r b payload draw coordinated s e s') (hapart : KeepsApart s e) :
    Ordered r b payload draw coordinated s' := by
  cases hstep with
  | call i _ hbegin =>
      obtain ⟨-, hshared, hafter⟩ := Clients.begin_eq_some hbegin
      rw [of_callOf] at hafter
      apply h.goOn hshared hafter .waiting
      rw [yetToInsert_eq (hafter ▸ Function.update_self _ _ _)]
      rfl
  | statement i _ hcall => exact h.statement hcall hapart
  | other t hsame hids =>
      constructor
      · intro i
        have hstands := h.standing i
        show Standing r b payload draw coordinated t i (s.stage i)
        generalize s.stage i = client at hstands
        cases hstands with
        | idle => exact .idle
        | waiting => exact .waiting
        | missed => exact .missed
        | served row hrow => exact .served row (hsame.trans hrow)
      · exact h.lone
      · exact fun i hi => hsame.trans (h.missing i hi)
      · exact fun row hrow => h.agrees row (hsame.symm.trans hrow)
      · exact hids

end Ordered

theorem linearized_of_run [DecidableEq ι] {es : List (RaceEvent ι r)}
    (h : ApartRun r b payload draw coordinated es s) : Linearized r payload s := by
  have hordered : Ordered r b payload draw coordinated s := by
    apply Trace.Run.invariant_of_state (p := fun _ => True) _ _ h
    · exact fun _ _ => trivial
    · exact fun s hunraced => Ordered.unraced hunraced
    · intro s e t hs _ hstep
      exact hs.step hstep.1 hstep.2
  intro i result hdone
  have hstands := hordered.standing i
  rw [hdone] at hstands
  cases hstands with
  | served row hrow => exact ⟨row, rfl, Indexed.filter_eq_of_find? hrow⟩

/-- Under the coordinator no call is ever between its select and its insert. -/
theorem coordinated_apart [DecidableEq ι] (hb : b = .sqlite) (hall : ∀ i, coordinated i = true)
    {es : List (RaceEvent ι r)}
    (h : Trace.Run (Unraced r payload draw) (RaceStep r b payload draw coordinated) es s) :
    Ordered r b payload draw coordinated s ∧ ∀ i, yetToInsert s i = false := by
  apply Trace.Run.invariant_of_state (p := fun _ => True) _ _ h
  · exact fun _ _ => trivial
  · intro s hunraced
    exact ⟨.unraced hunraced, fun i => yetToInsert_eq (hunraced.1 i)⟩
  · rintro s e t ⟨hordered, hquiet⟩ - hstep
    have hapart : KeepsApart s e := by
      cases e with
      | call i => exact trivial
      | statement i => exact fun _ => hquiet
      | other t => exact trivial
    refine ⟨hordered.step hstep hapart, ?_⟩
    intro j
    cases hstep with
    | call i _ hbegin =>
        obtain ⟨-, -, hafter⟩ := Clients.begin_eq_some hbegin
        rw [of_callOf] at hafter
        by_cases hji : j = i
        · subst hji
          rw [yetToInsert_eq (hafter ▸ Function.update_self _ _ _)]
          rfl
        · rw [yetToInsert_update hafter hji]
          exact hquiet j
    | other t _ _ => exact hquiet j
    | statement i _ hcall =>
        by_cases hji : j = i
        · subst hji
          have hstands := hordered.standing j
          generalize hstage : s.stage j = client at hstands
          obtain ⟨next, k, g, hrun, -⟩ := Clients.call_eq_some hcall
          cases hstands with
          | idle =>
              rw [hstage] at hrun
              cases hrun
          | served row _ =>
              rw [hstage] at hrun
              cases hrun
          | missed =>
              have hmissed := hquiet j
              rw [yetToInsert_eq hstage] at hmissed
              cases hmissed
          | waiting =>
              -- one transaction from the select to the insert
              unfold callOf createOrGetCall at hstage
              rw [if_pos ⟨hb, hall j⟩] at hstage
              obtain ⟨result, hafter⟩ := Clients.call_txn_done hcall hstage
              rw [yetToInsert_eq (hafter ▸ Function.update_self _ _ _)]
              rfl
        · obtain ⟨next, k, g, -, -, hafter⟩ := Clients.call_eq_some hcall
          rw [yetToInsert_update hafter hji]
          exact hquiet j

end Invariant

/-! ## The three repositories -/

inductive Entity where
  | videoSource
  | highFreqTrigger
  | analysisUnit
deriving DecidableEq, Repr

namespace Entity

abbrev Row : Entity → Type
  | videoSource => VideoSource
  | highFreqTrigger => HighFreqTrigger
  | analysisUnit => AnalysisUnit

abbrev Key : Entity → Type
  | videoSource => String × Iso.Text
  | highFreqTrigger => String
  | analysisUnit => String

instance (e : Entity) : DecidableEq e.Key :=
  match e with
  | videoSource => inferInstanceAs (DecidableEq (String × Iso.Text))
  | highFreqTrigger => inferInstanceAs (DecidableEq String)
  | analysisUnit => inferInstanceAs (DecidableEq String)

def repository (b : Backend) : (e : Entity) → Repository e.Row e.Key
  | videoSource => videoSources b
  | highFreqTrigger => highFreqTriggers
  | analysisUnit => analysisUnits

end Entity

/-- On either backend, for each repository and any number of calls with one key
and payload: in every run in which nobody misses the row while another call that
missed it has still to insert, one row is stored and every call returns it. -/
theorem createOrGet_linearizable {ι : Type} [DecidableEq ι] {b : Backend} {e : Entity}
    {payload : e.Row} {draw : ι → String} {coordinated : ι → Bool}
    {es : List (RaceEvent ι (e.repository b))} {s : Race ι (e.repository b)}
    (h : ApartRun (e.repository b) b payload draw coordinated es s) :
    Linearized (e.repository b) payload s := linearized_of_run h

/-! ## Two submissions of one video -/

def lobbyVideo : VideoSource where
  videoId := ""
  sourceType := .file
  sourceUri := "/data/videos/lobby.mp4"
  cameraId := "cam_lobby_01"
  videoStartTime := Iso.DateTime.utc 0
  externalSourceId := some "nvr-001"

def drawnId (i : Fin 2) : String := if i = 0 then "video_a" else "video_b"

abbrev LobbyRace : Type := Race (Fin 2) (Entity.videoSource.repository .sqlite)

abbrev LobbyEvent : Type := RaceEvent (Fin 2) (Entity.videoSource.repository .sqlite)

def noVideos : LobbyRace := ⟨Indexed.empty, fun _ => .idle⟩

theorem unraced_noVideos :
    Unraced (Entity.videoSource.repository .sqlite) lobbyVideo drawnId noVideos :=
  ⟨fun _ => rfl, fun _ _ h => (by cases h), fun _ h => (by cases h)⟩

/-- The calls of the two, neither of which goes through the coordinator. -/
def lobbyMove (s : LobbyRace) : LobbyEvent → Option LobbyRace
  | .call i => s.begin i (callOf _ .sqlite lobbyVideo drawnId (fun _ => false) i) false
  | .statement i => s.call notedMiss i
  | .other _ => none

theorem lobbyMove_eq_some {s s' : LobbyRace} {e : LobbyEvent} (h : lobbyMove s e = some s') :
    RaceStep _ .sqlite lobbyVideo drawnId (fun _ => false) s e s' := by
  cases e with
  | call i => exact .call i s' h
  | statement i => exact .statement i s' h
  | other t => cases h

def bothSelect : List LobbyEvent :=
  [.call 0, .call 1, .statement 0, .statement 1, .statement 0, .statement 1]

def lostRace : Except StoreError VideoSource := .error (.idempotencyConflict
  "UNIQUE constraint failed: video_sources.camera_id, video_sources.video_start_time")

/-- Both select before either inserts: the one that inserts second is refused,
with the payload of the row that is stored. -/
theorem loser_conflicts : ∃ (es : List LobbyEvent) (s : LobbyRace),
    Trace.Run (Unraced (Entity.videoSource.repository .sqlite) lobbyVideo drawnId)
      (RaceStep _ .sqlite lobbyVideo drawnId fun _ => false) es s ∧
      s.stage 1 = .done lostRace ∧
      ¬ Linearized (Entity.videoSource.repository .sqlite) lobbyVideo s := by
  have hresult : (Trace.exec lobbyMove bothSelect noVideos).bind (fun s => (s.stage 1).result?)
      = some lostRace := by
    decide +kernel
  obtain ⟨s, hexec, hlost⟩ := Option.bind_eq_some_iff.mp hresult
  have hrun := Trace.Run.of_exec (P := fun _ _ => True) (Trace.Run.start unraced_noVideos)
    hexec fun _ _ _ => trivial
  have hstage := Client.result?_eq_some hlost
  refine ⟨_, s, hrun.imp fun _ _ _ h => lobbyMove_eq_some h.1, hstage, ?_⟩
  intro hlinearized
  obtain ⟨row, hok, -⟩ := hlinearized 1 _ hstage
  cases hok

def oneThenTheOther : List LobbyEvent :=
  [.call 0, .call 1, .statement 0, .statement 0, .statement 1]

/-- One after the other, both get the row of the first. -/
theorem second_gets_the_first : ∃ (es : List LobbyEvent) (s : LobbyRace),
    ApartRun (Entity.videoSource.repository .sqlite) .sqlite lobbyVideo drawnId (fun _ => false)
      es s ∧ s.stage 1 = .done (.ok { lobbyVideo with videoId := "video_a" }) ∧
      Linearized (Entity.videoSource.repository .sqlite) lobbyVideo s := by
  have hresult : (Trace.exec (fun s e => if KeepsApart s e then lobbyMove s e else none)
      oneThenTheOther noVideos).bind (fun s => (s.stage 1).result?)
      = some (.ok { lobbyVideo with videoId := "video_a" }) := by
    decide +kernel
  obtain ⟨s, hexec, hgot⟩ := Option.bind_eq_some_iff.mp hresult
  have hrun := Trace.Run.of_exec (P := fun _ _ => True) (Trace.Run.start unraced_noVideos)
    hexec fun _ _ _ => trivial
  have hapart : ApartRun (Entity.videoSource.repository .sqlite) .sqlite lobbyVideo drawnId
      (fun _ => false) (oneThenTheOther.reverse ++ []) s := by
    apply hrun.imp
    rintro s e t ⟨hmove, -⟩
    split at hmove
    · rename_i hkeeps
      exact ⟨lobbyMove_eq_some hmove, hkeeps⟩
    · cases hmove
  exact ⟨_, s, hapart, Client.result?_eq_some hgot, createOrGet_linearizable hapart⟩

end CctvMemory.Ingestion
