import CctvMemory.Library.Trace
import CctvMemory.Provisioning.Store
import Mathlib.Logic.Function.Basic

/-!
# Concurrent upserts

`upsert_by_pk` in its statements: a savepoint, the INSERT, and then a release or a
rollback to the savepoint, a SELECT and an UPDATE. Sessions run such calls and other
writes, each statement a step of its own, on a database with one writer at a time,
whose transaction begins with its first write.

* `consistent_of_run`: what is committed is what the committed calls and writes give
  one after the other, in the order in which they were committed.
* `rowOf_replay`: the row of a key, after any calls on it.
-/

namespace CctvMemory.Provisioning.Upsert

open Keyed (Table)

/-! ## Rows -/

/-- A mapped table that `upsert_by_pk` is called for, with its `apply_update`: all
columns but the key and the creation time. -/
structure RowModel (ρ : Type) where
  key : ρ → String
  createdAt : ρ → String
  withCreatedAt : ρ → String → ρ
  applyUpdate : ρ → ρ → ρ
  key_applyUpdate : ∀ incoming existing, key (applyUpdate incoming existing) = key existing
  applyUpdate_eq : ∀ incoming existing, key incoming = key existing →
    applyUpdate incoming existing = withCreatedAt incoming (createdAt existing)
  createdAt_withCreatedAt : ∀ r time, createdAt (withCreatedAt r time) = time
  withCreatedAt_createdAt : ∀ r, withCreatedAt r (createdAt r) = r

/-- `camera_locations`. -/
structure LocationRow where
  locationId : String
  tenantId : String
  building : Option String
  floor : Option String
  area : String
  roomOrZone : Option String
  locationDesc : Option String
  accessPolicyId : Option String
  securityLevel : String
  createdAt : String
  updatedAt : String
deriving DecidableEq

/-- `camera_devices`. -/
structure CameraRow where
  cameraId : String
  tenantId : String
  cameraName : String
  locationId : String
  manufacturer : Option String
  model : Option String
  serialNumber : Option String
  installPositionDesc : Option String
  streamUri : Option String
  accessPolicyId : Option String
  status : String
  createdAt : String
  updatedAt : String
deriving DecidableEq

/-- `upsert_location`. -/
def locationRows : RowModel LocationRow where
  key := LocationRow.locationId
  createdAt := LocationRow.createdAt
  withCreatedAt r time := { r with createdAt := time }
  applyUpdate incoming existing :=
    { existing with
      tenantId := incoming.tenantId
      building := incoming.building
      floor := incoming.floor
      area := incoming.area
      roomOrZone := incoming.roomOrZone
      locationDesc := incoming.locationDesc
      accessPolicyId := incoming.accessPolicyId
      securityLevel := incoming.securityLevel
      updatedAt := incoming.updatedAt }
  key_applyUpdate _ _ := rfl
  applyUpdate_eq incoming existing h := by rw [← h]
  createdAt_withCreatedAt _ _ := rfl
  withCreatedAt_createdAt _ := rfl

/-- `upsert_camera`. -/
def cameraRows : RowModel CameraRow where
  key := CameraRow.cameraId
  createdAt := CameraRow.createdAt
  withCreatedAt r time := { r with createdAt := time }
  applyUpdate incoming existing :=
    { existing with
      tenantId := incoming.tenantId
      cameraName := incoming.cameraName
      locationId := incoming.locationId
      manufacturer := incoming.manufacturer
      model := incoming.model
      serialNumber := incoming.serialNumber
      installPositionDesc := incoming.installPositionDesc
      streamUri := incoming.streamUri
      accessPolicyId := incoming.accessPolicyId
      status := incoming.status
      updatedAt := incoming.updatedAt }
  key_applyUpdate _ _ := rfl
  applyUpdate_eq incoming existing h := by rw [← h]
  createdAt_withCreatedAt _ _ := rfl
  withCreatedAt_createdAt _ := rfl

/-! ## Sessions -/

section Model

variable {ρ β ι : Type} (M : RowModel ρ)

/-- The table and everything else that sessions write. -/
structure Database (M : RowModel ρ) (β : Type) where
  table : Table ρ M.key
  rest : β

/-- What a session has done: a write elsewhere, or a call that inserted its row or
updated the row it found. -/
inductive Action (ρ β : Type) where
  | write (f : β → β)
  | upserted (incoming : ρ) (inserted : Bool)

/-- A call in progress. -/
inductive Call (M : RowModel ρ) (β : Type) where
  /-- Behind its SAVEPOINT, the first statement of the transaction if `outermost`. -/
  | saved (incoming : ρ) (outermost : Bool)
  | inserted (incoming : ρ) (outermost : Bool)
  /-- The INSERT was refused; `before` is what the savepoint goes back to. -/
  | conflicted (incoming : ρ) (before : Database M β)
  | rolledBack (incoming : ρ)
  | selected (incoming existing : ρ)

structure SessionState (M : RowModel ρ) (β : Type) where
  inTransaction : Bool
  call : Option (Call M β)
  /-- Done in this transaction, the newest first. -/
  actions : List (Action ρ β)

def SessionState.idle : SessionState M β := ⟨false, none, []⟩

/-- The database file, the session that has the write lock with what it has written,
the sessions, what was committed (the newest first), and the integrity errors that got
out of a call. -/
structure Engine (M : RowModel ρ) (β ι : Type) where
  committed : Database M β
  writing : Option (ι × Database M β)
  session : ι → SessionState M β
  history : List (Action ρ β)
  integrityErrors : ℕ

inductive Event (ρ β ι : Type) where
  /-- `BEGIN IMMEDIATE`. -/
  | begin (i : ι)
  | write (i : ι) (f : β → β)
  /-- `upsert_by_pk` is called, and sets its savepoint. -/
  | upsert (i : ι) (incoming : ρ)
  /-- The next statement of the call. -/
  | advance (i : ι)
  /-- The INSERT waited too long for the lock. -/
  | timeout (i : ι)
  | commit (i : ι)
  | rollback (i : ι)

variable [DecidableEq ι]

/-- What session `i` has written and not committed. -/
def Engine.own (s : Engine M β ι) (i : ι) : Option (Database M β) :=
  match s.writing with
  | none => none
  | some (j, db) => if j = i then some db else none

/-- The database a write of session `i` is made to, if it has the lock or gets it. -/
def Engine.acquire (s : Engine M β ι) (i : ι) : Option (Database M β) :=
  match s.writing with
  | none => some s.committed
  | some (j, db) => if j = i then some db else none

def Engine.setSession (s : Engine M β ι) (i : ι) (state : SessionState M β) : Engine M β ι :=
  { s with session := Function.update s.session i state }

def Engine.setCall (s : Engine M β ι) (i : ι) (call : Option (Call M β)) : Engine M β ι :=
  s.setSession M i { s.session i with call := call }

/-- A call is over and has done this. -/
def Engine.finish (s : Engine M β ι) (i : ι) (action : Action ρ β) : Engine M β ι :=
  s.setSession M i
    { s.session i with call := none, actions := action :: (s.session i).actions }

/-- COMMIT, and the release of an outermost savepoint. -/
def Engine.commit (s : Engine M β ι) (i : ι) : Engine M β ι :=
  let s' := s.setSession M i (SessionState.idle M)
  match s.own M i with
  | none => s'
  | some db =>
      { s' with
        committed := db
        writing := none
        history := (s.session i).actions ++ s.history }

/-- The statements of `upsert_by_pk` behind its SAVEPOINT. -/
def advance (s : Engine M β ι) (i : ι) : Call M β → Option (Engine M β ι)
  -- INSERT
  | .saved incoming outermost =>
      (s.acquire M i).map fun db =>
        match db.table.insert? incoming with
        | some table =>
            { s.setCall M i (some (.inserted incoming outermost)) with
              writing := some (i, { db with table := table }) }
        | none =>
            { s.setCall M i (some (.conflicted incoming db)) with writing := some (i, db) }
  -- RELEASE
  | .inserted incoming outermost =>
      let s' := s.finish M i (.upserted incoming true)
      some (if outermost then s'.commit M i else s')
  -- ROLLBACK TO
  | .conflicted incoming before =>
      some { s.setCall M i (some (.rolledBack incoming)) with writing := some (i, before) }
  -- SELECT
  | .rolledBack incoming =>
      (s.own M i).map fun db =>
        match db.table.get? (M.key incoming) with
        | none => { s.setCall M i none with integrityErrors := s.integrityErrors + 1 }
        | some existing => s.setCall M i (some (.selected incoming existing))
  -- UPDATE; under the lock the row is still the one that was read
  | .selected incoming existing =>
      (s.own M i).map fun db =>
        { s.finish M i (.upserted incoming false) with
          writing := some (i, { db with
            table := db.table.modify (M.key existing) (M.applyUpdate incoming)
              (M.key_applyUpdate incoming) }) }

def step (s : Engine M β ι) : Event ρ β ι → Option (Engine M β ι)
  | .begin i =>
      if (s.session i).inTransaction then none
      else match s.writing with
        | some _ => none
        | none => some { s.setSession M i { s.session i with inTransaction := true } with
            writing := some (i, s.committed) }
  | .write i f =>
      match (s.session i).call with
      | some _ => none
      | none => (s.acquire M i).map fun db =>
          { s.setSession M i ⟨true, none, .write f :: (s.session i).actions⟩ with
            writing := some (i, { db with rest := f db.rest }) }
  | .upsert i incoming =>
      match (s.session i).call with
      | some _ => none
      | none => some (s.setSession M i { s.session i with
          inTransaction := true
          call := some (.saved incoming (!(s.session i).inTransaction)) })
  | .advance i => (s.session i).call.bind (advance M s i)
  | .timeout i =>
      match (s.session i).call, s.acquire M i with
      | some (.saved _ _), none => some (s.setCall M i none)
      | _, _ => none
  | .commit i =>
      match (s.session i).call with
      | some _ => none
      | none => some (s.commit M i)
  | .rollback i =>
      match (s.session i).call with
      | some _ => none
      | none =>
          let s' := s.setSession M i (SessionState.idle M)
          some (match s.own M i with
            | none => s'
            | some _ => { s' with writing := none })

/-- A database that no session is using. -/
def Unused (s : Engine M β ι) : Prop :=
  s.writing = none ∧ (∀ i, s.session i = SessionState.idle M) ∧ s.history = [] ∧
    s.integrityErrors = 0

/-- A run from a database that holds `initial`. -/
abbrev Run (initial : Database M β) : List (Event ρ β ι) → Engine M β ι → Prop :=
  Trace.Run (fun s => Unused M s ∧ s.committed = initial) fun s e s' => step M s e = some s'

end Model

/-! ## One after the other -/

section Replay

variable {ρ β : Type} {M : RowModel ρ}

/-- What an action does to the whole database, as one step. -/
def Database.apply : Action ρ β → Database M β → Database M β
  | .write f, db => { db with rest := f db.rest }
  | .upserted incoming _, db =>
      { db with
        table := upsertByPk db.table incoming (M.applyUpdate incoming)
          (M.key_applyUpdate incoming) }

/-- The actions one after the other, the newest of which is first. -/
def replay (actions : List (Action ρ β)) (db : Database M β) : Database M β :=
  actions.foldr Database.apply db

/-- Each call says whether it inserted its row. -/
def Tagged (initial : Database M β) : List (Action ρ β) → Prop
  | [] => True
  | .write _ :: older => Tagged initial older
  | .upserted incoming inserted :: older => Tagged initial older ∧
      (inserted = true ↔ (replay older initial).table.get? (M.key incoming) = none)

theorem exists_of_insert?_none {t : Table ρ M.key} {incoming : ρ}
    (h : t.insert? incoming = none) : ∃ existing, t.get? (M.key incoming) = some existing := by
  cases hget : t.get? (M.key incoming) with
  | some existing => exact ⟨existing, rfl⟩
  | none =>
      have hfree : M.key incoming ∉ t.rows.map M.key := by
        intro hmem
        obtain ⟨r, hr, hkey⟩ := List.mem_map.mp hmem
        exact Table.get?_eq_none_iff.mp hget r hr hkey
      rw [Table.insert?, dif_neg hfree] at h
      cases h

theorem apply_of_insert? {db : Database M β} {incoming : ρ} {table : Table ρ M.key} {b : Bool}
    (h : db.table.insert? incoming = some table) :
    db.apply (.upserted incoming b) = { db with table := table } := by
  rw [Database.apply, upsertByPk, h]

theorem apply_of_insert?_none {db : Database M β} {incoming : ρ} {b : Bool}
    (h : db.table.insert? incoming = none) :
    db.apply (.upserted incoming b) = { db with
      table := db.table.modify (M.key incoming) (M.applyUpdate incoming)
        (M.key_applyUpdate incoming) } := by
  rw [Database.apply, upsertByPk, h]

end Replay

/-! ## The invariant -/

section Invariant

variable {ρ β ι : Type} {M : RowModel ρ} [DecidableEq ι]

/-- What a session has written, `db`, by what it did before its call, `base`. -/
def CallOk (base db : Database M β) : Option (Call M β) → Prop
  | none => db = base
  | some (.saved _ _) => db = base
  | some (.inserted incoming _) =>
      ∃ table, base.table.insert? incoming = some table ∧ db = { base with table := table }
  | some (.conflicted incoming before) => before = base ∧ base.table.insert? incoming = none
  | some (.rolledBack incoming) => db = base ∧ base.table.insert? incoming = none
  | some (.selected incoming existing) => db = base ∧ base.table.insert? incoming = none ∧
      M.key existing = M.key incoming

/-- Before its first write a call has at most set its savepoint. -/
def Untouched (state : SessionState M β) : Prop :=
  match state.call with
  | none => True
  | some (.saved _ _) => state.inTransaction = true
  | _ => False

/-- The write lock is the session's, and what it has written is what it has done; or it
has written nothing. -/
def SessionOk (initial : Database M β) (s : Engine M β ι) (i : ι) : Prop :=
  match s.own M i with
  | none => (s.session i).actions = [] ∧ Untouched (s.session i)
  | some db => (s.session i).inTransaction = true ∧
      CallOk (replay ((s.session i).actions ++ s.history) initial) db (s.session i).call

structure Consistent (initial : Database M β) (s : Engine M β ι) : Prop where
  committed : s.committed = replay s.history initial
  integrityErrors : s.integrityErrors = 0
  history : Tagged initial s.history
  tagged : ∀ i, Tagged initial ((s.session i).actions ++ s.history)
  session : ∀ i, SessionOk initial s i

section Lock

variable {s : Engine M β ι} {i j : ι} {db : Database M β}

theorem own_of_writing (h : s.writing = some (i, db)) : s.own M i = some db := by
  rw [Engine.own, h]
  exact if_pos rfl

theorem writing_of_own (h : s.own M i = some db) : s.writing = some (i, db) := by
  unfold Engine.own at h
  split at h
  · cases h
  · rename_i j db' hwriting
    split at h
    · rename_i hj
      cases h
      rw [hwriting, hj]
    · cases h

/-- One writer at a time. -/
theorem own_of_ne (h : s.writing = some (i, db)) (hne : j ≠ i) : s.own M j = none := by
  rw [Engine.own, h]
  exact if_neg hne.symm

theorem own_of_free (h : s.writing = none) : s.own M j = none := by
  rw [Engine.own, h]

/-- The lock is the session's or free. -/
theorem acquire_eq_some (h : s.acquire M i = some db) :
    s.own M i = some db ∨ s.writing = none ∧ db = s.committed := by
  unfold Engine.acquire at h
  split at h
  · rename_i hfree
    exact Or.inr ⟨hfree, (Option.some.inj h).symm⟩
  · rename_i j db' hwriting
    split at h
    · rename_i hj
      cases h
      exact Or.inl (own_of_writing (by rw [hwriting, hj]))
    · cases h

theorem others_of_acquire (h : s.acquire M i = some db) (hne : j ≠ i) : s.own M j = none := by
  rcases acquire_eq_some h with hown | ⟨hfree, -⟩
  · exact own_of_ne (writing_of_own hown) hne
  · exact own_of_free hfree

end Lock

/-- What the steps do, and where they can be taken. -/
inductive Does (s : Engine M β ι) : Event ρ β ι → Engine M β ι → Prop where
  | begin {i : ι} (hfree : s.writing = none) : Does s (.begin i)
      { s.setSession M i { s.session i with inTransaction := true } with
        writing := some (i, s.committed) }
  | write {i : ι} {f : β → β} {db : Database M β} (hcall : (s.session i).call = none)
      (hacquire : s.acquire M i = some db) : Does s (.write i f)
      { s.setSession M i ⟨true, none, .write f :: (s.session i).actions⟩ with
        writing := some (i, { db with rest := f db.rest }) }
  | upsert {i : ι} {incoming : ρ} (hcall : (s.session i).call = none) :
      Does s (.upsert i incoming) (s.setSession M i { s.session i with
        inTransaction := true
        call := some (.saved incoming (!(s.session i).inTransaction)) })
  | advance {i : ι} {call : Call M β} {s' : Engine M β ι}
      (hcall : (s.session i).call = some call) (hadvance : advance M s i call = some s') :
      Does s (.advance i) s'
  | timeout {i : ι} (hblocked : s.acquire M i = none) : Does s (.timeout i) (s.setCall M i none)
  | commit {i : ι} (hcall : (s.session i).call = none) : Does s (.commit i) (s.commit M i)
  | leave {i : ι} (hown : s.own M i = none) :
      Does s (.rollback i) (s.setSession M i (SessionState.idle M))
  | rollback {i : ι} {db : Database M β} (hown : s.own M i = some db) : Does s (.rollback i)
      { s.setSession M i (SessionState.idle M) with writing := none }

theorem step_does {s s' : Engine M β ι} {e : Event ρ β ι} (h : step M s e = some s') :
    Does s e s' := by
  cases e <;> simp only [step] at h
  case begin =>
    split at h
    · cases h
    split at h
    · cases h
    · rename_i hfree
      cases h
      exact .begin hfree
  case write =>
    split at h
    · cases h
    · rename_i hcall
      obtain ⟨db, hacquire, rfl⟩ := Option.map_eq_some_iff.mp h
      exact .write hcall hacquire
  case upsert =>
    split at h
    · cases h
    · rename_i hcall
      cases h
      exact .upsert hcall
  case advance =>
    obtain ⟨call, hcall, hadvance⟩ := Option.bind_eq_some_iff.mp h
    exact .advance hcall hadvance
  case timeout =>
    split at h
    · rename_i hblocked
      cases h
      exact .timeout hblocked
    · cases h
  case commit =>
    split at h
    · cases h
    · rename_i hcall
      cases h
      exact .commit hcall
  case rollback i =>
    split at h
    · cases h
    · cases h
      cases hown : s.own M i with
      | none => exact .leave hown
      | some db => exact .rollback hown

section Steps

variable {initial : Database M β} {s s' : Engine M β ι} {i : ι} {db : Database M β}

/-- What a session that gets the lock writes to is what it has done so far. -/
theorem Consistent.acquired (h : Consistent initial s) (hacquire : s.acquire M i = some db)
    (hcall : Untouched (s.session i)) :
    db = replay ((s.session i).actions ++ s.history) initial := by
  have hsession := h.session i
  unfold SessionOk at hsession
  rcases acquire_eq_some hacquire with hown | ⟨hfree, rfl⟩
  · rw [hown] at hsession
    obtain ⟨-, hok⟩ := hsession
    cases hc : (s.session i).call with
    | none =>
        rw [hc] at hok
        exact hok
    | some call =>
        rw [hc] at hok
        rw [Untouched, hc] at hcall
        cases call with
        | saved incoming outermost => exact hok
        | _ => exact hcall.elim
  · rw [own_of_free hfree] at hsession
    rw [hsession.1]
    exact h.committed

/-- A step of one session keeps the invariant if it does for that session, and the
others see at most a commit. -/
theorem Consistent.of_step (h : Consistent initial s)
    (hothers : ∀ j ≠ i, s'.session j = s.session j)
    (hown : ∀ j ≠ i, s'.own M j = s.own M j)
    (hhistory : s'.committed = s.committed ∧ s'.history = s.history ∨
      s'.committed = replay s'.history initial ∧ Tagged initial s'.history ∧
        ∀ j ≠ i, s.own M j = none)
    (herrors : s'.integrityErrors = 0)
    (htagged : Tagged initial ((s'.session i).actions ++ s'.history))
    (hsession : SessionOk initial s' i) : Consistent initial s' := by
  have hnone : ∀ j ≠ i, s.own M j = none → (s.session j).actions = [] := by
    intro j _ hnone
    have hj := h.session j
    unfold SessionOk at hj
    rw [hnone] at hj
    exact hj.1
  refine ⟨?_, herrors, ?_, fun j => ?_, fun j => ?_⟩
  · rcases hhistory with ⟨hcommitted, hsame⟩ | ⟨hcommitted, -⟩
    · rw [hcommitted, hsame]
      exact h.committed
    · exact hcommitted
  · rcases hhistory with ⟨-, hsame⟩ | ⟨-, hnew, -⟩
    · rw [hsame]
      exact h.history
    · exact hnew
  · by_cases hj : j = i
    · rw [hj]
      exact htagged
    · rw [hothers j hj]
      rcases hhistory with ⟨-, hsame⟩ | ⟨-, hnew, halone⟩
      · rw [hsame]
        exact h.tagged j
      · rw [hnone j hj (halone j hj)]
        exact hnew
  · by_cases hj : j = i
    · rw [hj]
      exact hsession
    · have hold := h.session j
      unfold SessionOk at hold ⊢
      rw [hothers j hj, hown j hj]
      rcases hhistory with ⟨-, hsame⟩ | ⟨-, -, halone⟩
      · rw [hsame]
        exact hold
      · rw [halone j hj] at hold ⊢
        exact hold

/-- A session that has the lock after its step, or gets it, and commits nothing. -/
theorem Consistent.of_write (h : Consistent initial s) {state : SessionState M β}
    (hacquire : ∃ db, s.acquire M i = some db)
    (hsession : s'.session = Function.update s.session i state)
    (hwriting : s'.writing = some (i, db))
    (hcommitted : s'.committed = s.committed) (hhistory : s'.history = s.history)
    (herrors : s'.integrityErrors = s.integrityErrors) (hin : state.inTransaction = true)
    (htagged : Tagged initial (state.actions ++ s.history))
    (hok : CallOk (replay (state.actions ++ s.history) initial) db state.call) :
    Consistent initial s' := by
  obtain ⟨db₀, hacquire⟩ := hacquire
  have hstate : s'.session i = state := by rw [hsession, Function.update_self]
  refine h.of_step (fun j hj => by rw [hsession, Function.update_of_ne hj]) (fun j hj => ?_)
    (Or.inl ⟨hcommitted, hhistory⟩) (herrors.trans h.integrityErrors) ?_ ?_
  · rw [own_of_ne hwriting hj, others_of_acquire hacquire hj]
  · rw [hstate, hhistory]
    exact htagged
  · unfold SessionOk
    rw [own_of_writing hwriting, hstate, hhistory]
    exact ⟨hin, hok⟩

/-- A step that changes one session, and what it has done is what it had. -/
theorem Consistent.of_session (h : Consistent initial s) {state : SessionState M β}
    (hactions : state.actions = (s.session i).actions)
    (hok : ∀ db, s.own M i = some db → state.inTransaction = true ∧
      CallOk (replay ((s.session i).actions ++ s.history) initial) db state.call)
    (hnone : s.own M i = none → Untouched state) :
    Consistent initial (s.setSession M i state) := by
  have hstate : (s.setSession M i state).session i = state := Function.update_self ..
  refine h.of_step (fun j hj => Function.update_of_ne hj ..) (fun j hj => rfl)
    (Or.inl ⟨rfl, rfl⟩) h.integrityErrors ?_ ?_
  · rw [hstate, hactions]
    exact h.tagged i
  · have hi := h.session i
    unfold SessionOk at hi ⊢
    rw [hstate, hactions, show (s.setSession M i state).own M i = s.own M i from rfl]
    cases hown : s.own M i with
    | none =>
        rw [hown] at hi
        exact ⟨hi.1, hnone hown⟩
    | some db => exact hok db hown

/-- A session that has written is in a transaction, and its writes are what it has done. -/
theorem Consistent.owned (h : Consistent initial s) (hown : s.own M i = some db) :
    (s.session i).inTransaction = true ∧
      CallOk (replay ((s.session i).actions ++ s.history) initial) db (s.session i).call := by
  have hi := h.session i
  unfold SessionOk at hi
  rwa [hown] at hi

theorem Consistent.idle (h : Consistent initial s) (hown : s.own M i = none) :
    Consistent initial (s.setSession M i (SessionState.idle M)) := by
  have hi := h.session i
  unfold SessionOk at hi
  rw [hown] at hi
  refine h.of_session hi.1.symm (fun db hsome => ?_) fun _ => trivial
  rw [hown] at hsome
  cases hsome

/-- A transaction with writes ends: what it has done is committed, or nothing is. -/
theorem Consistent.of_end (h : Consistent initial s) (hown : s.own M i = some db)
    (hsession : s'.session = Function.update s.session i (SessionState.idle M))
    (hwriting : s'.writing = none) (herrors : s'.integrityErrors = s.integrityErrors)
    (hhistory : s'.committed = s.committed ∧ s'.history = s.history ∨
      s'.committed = replay s'.history initial ∧ Tagged initial s'.history) :
    Consistent initial s' := by
  have hstate : s'.session i = SessionState.idle M := by rw [hsession, Function.update_self]
  have hothers : ∀ j ≠ i, s.own M j = none := fun j hj => own_of_ne (writing_of_own hown) hj
  refine h.of_step (fun j hj => by rw [hsession, Function.update_of_ne hj]) (fun j hj => ?_)
    (hhistory.imp id fun hnew => ⟨hnew.1, hnew.2, hothers⟩)
    (herrors.trans h.integrityErrors) ?_ ?_
  · rw [hothers j hj, own_of_free hwriting]
  · rw [hstate]
    rcases hhistory with ⟨-, hsame⟩ | ⟨-, hnew⟩
    · rw [hsame]
      exact h.history
    · exact hnew
  · unfold SessionOk
    rw [own_of_free hwriting, hstate]
    exact ⟨rfl, trivial⟩

theorem Consistent.begin (h : Consistent initial s) (hfree : s.writing = none) :
    Consistent initial { s.setSession M i { s.session i with inTransaction := true } with
      writing := some (i, s.committed) } := by
  have hi := h.session i
  unfold SessionOk at hi
  rw [own_of_free hfree] at hi
  obtain ⟨hactions, hcall⟩ := hi
  refine h.of_write ⟨s.committed, by rw [Engine.acquire, hfree]⟩ rfl rfl rfl rfl rfl rfl
    (h.tagged i) ?_
  dsimp only
  rw [hactions]
  unfold Untouched at hcall
  cases hc : (s.session i).call with
  | none => exact h.committed
  | some call =>
      rw [hc] at hcall
      cases call with
      | saved incoming outermost => exact h.committed
      | _ => exact hcall.elim

theorem Consistent.write (h : Consistent initial s) (f : β → β)
    (hcall : (s.session i).call = none) (hacquire : s.acquire M i = some db) :
    Consistent initial { s.setSession M i ⟨true, none, .write f :: (s.session i).actions⟩ with
      writing := some (i, { db with rest := f db.rest }) } := by
  have hdb := h.acquired hacquire (by rw [Untouched, hcall]; exact trivial)
  refine h.of_write ⟨db, hacquire⟩ rfl rfl rfl rfl rfl rfl (h.tagged i) ?_
  show { db with rest := f db.rest }
    = (replay ((s.session i).actions ++ s.history) initial).apply (.write f)
  rw [← hdb]
  rfl

/-- What is committed is what was committed before and what the session has done. -/
theorem Consistent.commit (h : Consistent initial s) (hcall : (s.session i).call = none) :
    Consistent initial (s.commit M i) := by
  unfold Engine.commit
  cases hown : s.own M i with
  | none => exact h.idle hown
  | some db =>
      obtain ⟨-, hdb⟩ := h.owned hown
      rw [hcall] at hdb
      exact h.of_end hown rfl rfl rfl (Or.inr ⟨hdb, h.tagged i⟩)

/-- A call behind its savepoint is in a transaction and has written nothing. -/
theorem Consistent.saved (h : Consistent initial s) {incoming : ρ} {outermost : Bool}
    (hcall : (s.session i).call = some (.saved incoming outermost)) :
    Untouched (s.session i) ∧ (s.session i).inTransaction = true := by
  have hi := h.session i
  unfold SessionOk at hi
  cases hown : s.own M i with
  | none =>
      rw [hown] at hi
      have hin := hi.2
      rw [Untouched, hcall] at hin
      exact ⟨hi.2, hin⟩
  | some db =>
      rw [hown, hcall] at hi
      exact ⟨by rw [Untouched, hcall]; exact hi.1, hi.1⟩

/-- What a session has written is not lost when a call of it is past its INSERT. -/
theorem Consistent.own_of_call (h : Consistent initial s) {call : Call M β}
    (hcall : (s.session i).call = some call)
    (hpast : ∀ incoming outermost, call ≠ .saved incoming outermost) : ∃ db,
    s.own M i = some db ∧ (s.session i).inTransaction = true ∧
      CallOk (replay ((s.session i).actions ++ s.history) initial) db (some call) := by
  have hi := h.session i
  unfold SessionOk at hi
  cases hown : s.own M i with
  | none =>
      rw [hown] at hi
      have huntouched := hi.2
      rw [Untouched, hcall] at huntouched
      cases call with
      | saved incoming outermost => exact absurd rfl (hpast incoming outermost)
      | _ => exact huntouched.elim
  | some db =>
      rw [hown, hcall] at hi
      exact ⟨db, rfl, hi⟩

theorem acquire_of_own (h : s.own M i = some db) : s.acquire M i = some db := by
  rw [Engine.acquire, writing_of_own h]
  exact if_pos rfl

theorem consistent_insert (h : Consistent initial s) {incoming : ρ} {outermost : Bool}
    (hcall : (s.session i).call = some (.saved incoming outermost))
    (hstep : advance M s i (.saved incoming outermost) = some s') : Consistent initial s' := by
  obtain ⟨db, hacquire, rfl⟩ := Option.map_eq_some_iff.mp hstep
  obtain ⟨huntouched, hin⟩ := h.saved hcall
  have hdb := h.acquired hacquire huntouched
  cases hinsert : db.table.insert? incoming with
  | some table =>
      rw [hdb] at hinsert
      refine h.of_write ⟨db, hacquire⟩ rfl rfl rfl rfl rfl hin (h.tagged i)
        ⟨table, hinsert, ?_⟩
      rw [hdb]
  | none =>
      rw [hdb] at hinsert
      exact h.of_write ⟨db, hacquire⟩ rfl rfl rfl rfl rfl hin (h.tagged i) ⟨hdb, hinsert⟩

/-- The call is over: it has done what an upsert in one step does. -/
theorem consistent_finish (h : Consistent initial s) {incoming : ρ} {inserted : Bool}
    {db' : Database M β} (hown : s.own M i = some db)
    (hin : (s.session i).inTransaction = true)
    (hdb : db' = (replay ((s.session i).actions ++ s.history) initial).apply
      (.upserted incoming inserted))
    (htag : inserted = true ↔ (replay ((s.session i).actions ++ s.history) initial).table.get?
      (M.key incoming) = none) :
    Consistent initial { s.finish M i (.upserted incoming inserted) with
      writing := some (i, db') } :=
  h.of_write ⟨db, acquire_of_own hown⟩ rfl rfl rfl rfl rfl hin ⟨h.tagged i, htag⟩ hdb

theorem consistent_inserted (h : Consistent initial s) {incoming : ρ} {outermost : Bool}
    (hcall : (s.session i).call = some (.inserted incoming outermost)) :
    Consistent initial (s.finish M i (.upserted incoming true)) := by
  obtain ⟨db, hown, hin, table, hinsert, hdb⟩ :=
    h.own_of_call hcall fun _ _ => nofun
  have hfree := (Table.insert?_eq_some_iff.mp hinsert).1
  have hwritten := consistent_finish h hown hin
    (hdb.trans (apply_of_insert? hinsert).symm) (iff_of_true rfl hfree)
  rw [← writing_of_own hown] at hwritten
  exact hwritten

theorem consistent_release (h : Consistent initial s) {incoming : ρ} {outermost : Bool}
    (hcall : (s.session i).call = some (.inserted incoming outermost))
    (hstep : advance M s i (.inserted incoming outermost) = some s') : Consistent initial s' := by
  have hfinish := consistent_inserted h hcall
  cases hstep
  split
  · have hstate : (s.finish M i (.upserted incoming true)).session i = { s.session i with
        call := none, actions := .upserted incoming true :: (s.session i).actions } :=
      Function.update_self ..
    exact hfinish.commit (by rw [hstate])
  · exact hfinish

theorem consistent_rollbackTo (h : Consistent initial s) {incoming : ρ} {before : Database M β}
    (hcall : (s.session i).call = some (.conflicted incoming before))
    (hstep : advance M s i (.conflicted incoming before) = some s') : Consistent initial s' := by
  obtain ⟨db, hown, hin, hbefore, hinsert⟩ := h.own_of_call hcall fun _ _ => nofun
  cases hstep
  exact h.of_write ⟨db, acquire_of_own hown⟩ rfl rfl rfl rfl rfl hin (h.tagged i)
    ⟨hbefore, hinsert⟩

theorem consistent_select (h : Consistent initial s) {incoming : ρ}
    (hcall : (s.session i).call = some (.rolledBack incoming))
    (hstep : advance M s i (.rolledBack incoming) = some s') : Consistent initial s' := by
  obtain ⟨db, hown, hin, hdb, hinsert⟩ := h.own_of_call hcall fun _ _ => nofun
  obtain ⟨existing, hexisting⟩ := exists_of_insert?_none hinsert
  rw [advance, hown, Option.map_some, hdb, hexisting] at hstep
  cases hstep
  refine h.of_session rfl (fun db' hown' => ?_) fun hnone => ?_
  · obtain rfl : db = db' := by
      rw [hown] at hown'
      injection hown'
    exact ⟨hin, hdb, hinsert, Table.key_of_get? hexisting⟩
  · rw [hown] at hnone
    cases hnone

theorem consistent_update (h : Consistent initial s) {incoming existing : ρ}
    (hcall : (s.session i).call = some (.selected incoming existing))
    (hstep : advance M s i (.selected incoming existing) = some s') : Consistent initial s' := by
  obtain ⟨db, hown, hin, hdb, hinsert, hkey⟩ := h.own_of_call hcall fun _ _ => nofun
  obtain ⟨row, hrow⟩ := exists_of_insert?_none hinsert
  rw [advance, hown, Option.map_some] at hstep
  cases hstep
  refine consistent_finish h hown hin ?_ (iff_of_false Bool.false_ne_true ?_)
  · rw [apply_of_insert?_none hinsert, hdb, hkey]
  · rw [hrow]
    simp

theorem consistent_step (h : Consistent initial s) {e : Event ρ β ι}
    (hstep : step M s e = some s') : Consistent initial s' := by
  cases step_does hstep with
  | begin hfree => exact h.begin hfree
  | write hcall hacquire => exact h.write _ hcall hacquire
  | upsert hcall =>
      refine h.of_session rfl (fun db hown => ?_) fun _ => rfl
      obtain ⟨-, hdb⟩ := h.owned hown
      rw [hcall] at hdb
      exact ⟨rfl, hdb⟩
  | timeout hblocked =>
      refine h.of_session rfl (fun db hown => ?_) fun _ => trivial
      rw [acquire_of_own hown] at hblocked
      cases hblocked
  | commit hcall => exact h.commit hcall
  | leave hown => exact h.idle hown
  | rollback hown => exact h.of_end hown rfl rfl rfl (Or.inl ⟨rfl, rfl⟩)
  | @advance i call _ hcall hadvance =>
      cases call with
      | saved incoming outermost => exact consistent_insert h hcall hadvance
      | inserted incoming outermost => exact consistent_release h hcall hadvance
      | conflicted incoming before => exact consistent_rollbackTo h hcall hadvance
      | rolledBack incoming => exact consistent_select h hcall hadvance
      | selected incoming existing => exact consistent_update h hcall hadvance

theorem consistent_unused (h : Unused M s) (hcommitted : s.committed = initial) :
    Consistent initial s := by
  obtain ⟨hfree, hidle, hhistory, herrors⟩ := h
  refine ⟨?_, herrors, ?_, fun i => ?_, fun i => ?_⟩
  · rw [hhistory, hcommitted]
    rfl
  · rw [hhistory]
    exact trivial
  · rw [hhistory, hidle]
    exact trivial
  · unfold SessionOk
    rw [own_of_free hfree, hidle]
    exact ⟨rfl, trivial⟩

theorem consistent_of_run {es : List (Event ρ β ι)} (h : Run M initial es s) :
    Consistent initial s :=
  Trace.Run.invariant_of_state (I := Consistent initial) (p := fun _ => True)
    (fun _ hs => consistent_unused hs.1 hs.2) (fun _ _ _ hs _ hstep => consistent_step hs hstep)
    h fun _ _ => trivial

end Steps

end Invariant

/-! ## The row of a key -/

section Row

variable {ρ β : Type} {M : RowModel ρ} {k : String} {db : Database M β}

/-- The calls on a key, the newest first, and whether each inserted the row. -/
def callsOn (M : RowModel ρ) (k : String) (actions : List (Action ρ β)) : List (ρ × Bool) :=
  actions.filterMap fun
    | .write _ => none
    | .upserted incoming inserted => if M.key incoming = k then some (incoming, inserted) else none

theorem callsOn_upserted {incoming : ρ} {b : Bool} {older : List (Action ρ β)} :
    callsOn M k (.upserted incoming b :: older)
      = if M.key incoming = k then (incoming, b) :: callsOn M k older else callsOn M k older := by
  unfold callsOn
  rw [List.filterMap_cons]
  by_cases hk : M.key incoming = k
  · simp only [if_pos hk]
  · simp only [if_neg hk]

/-- A call leaves its own row, with the time at which the row was created. -/
theorem get?_apply_upserted (incoming : ρ) (b : Bool) :
    (db.apply (.upserted incoming b)).table.get? k
      = if M.key incoming = k then some (match db.table.get? k with
          | none => incoming
          | some existing => M.withCreatedAt incoming (M.createdAt existing))
        else db.table.get? k := by
  cases hinsert : db.table.insert? incoming with
  | some table =>
      rw [apply_of_insert? hinsert]
      show table.get? k = _
      rw [Table.get?_insert? hinsert]
      by_cases hk : M.key incoming = k
      · have hfree := (Table.insert?_eq_some_iff.mp hinsert).1
        rw [hk] at hfree
        rw [if_pos hk, if_pos hk, hfree]
      · rw [if_neg hk, if_neg hk]
  | none =>
      obtain ⟨existing, hexisting⟩ := exists_of_insert?_none hinsert
      rw [apply_of_insert?_none hinsert]
      show (db.table.modify (M.key incoming) (M.applyUpdate incoming)
        (M.key_applyUpdate incoming)).get? k = _
      rw [Table.get?_modify]
      by_cases hk : M.key incoming = k
      · subst hk
        rw [if_pos rfl, if_pos rfl, hexisting, Option.map_some,
          M.applyUpdate_eq incoming existing (Table.key_of_get? hexisting).symm]
      · rw [if_neg hk, if_neg hk]

/-- What there is to say of a key that had no row: no call, and no row; or the row of
the last call, created by the first, which is the only one that inserted. -/
structure RowOf (M : RowModel ρ) (k : String) (calls : List (ρ × Bool)) (row : Option ρ) :
    Prop where
  uncalled : calls = [] → row = none
  called : ∀ last earlier, calls = last :: earlier → ∃ first, calls.getLast? = some first ∧
    calls.filter Prod.snd = [first] ∧ row = some (M.withCreatedAt last.1 (M.createdAt first.1))

theorem rowOf_replay (hfree : db.table.get? k = none) :
    ∀ actions : List (Action ρ β), Tagged db actions →
      RowOf M k (callsOn M k actions) ((replay actions db).table.get? k)
  | [], _ => ⟨fun _ => hfree, fun _ _ h => by cases h⟩
  | .write f :: older, htagged => rowOf_replay hfree older htagged
  | .upserted incoming b :: older, htagged => by
      obtain ⟨htagged, hflag⟩ := htagged
      have ih := rowOf_replay hfree older htagged
      show RowOf M k (callsOn M k (.upserted incoming b :: older))
        (((replay older db).apply (.upserted incoming b)).table.get? k)
      rw [get?_apply_upserted, callsOn_upserted]
      by_cases hk : M.key incoming = k
      · rw [if_pos hk, if_pos hk]
        rw [hk] at hflag
        refine ⟨nofun, fun last earlier h => ?_⟩
        cases h
        cases hcalls : callsOn M k older with
        | nil =>
            have hrow := ih.uncalled hcalls
            rw [hrow] at hflag
            obtain rfl : b = true := hflag.mpr rfl
            refine ⟨(incoming, true), rfl, rfl, ?_⟩
            rw [hrow]
            exact congrArg Option.some (M.withCreatedAt_createdAt incoming).symm
        | cons previous earlier =>
            obtain ⟨first, hfirst, hinserted, hrow⟩ := ih.called previous earlier hcalls
            rw [hrow] at hflag
            obtain rfl : b = false := by
              rw [← Bool.not_eq_true, hflag]
              simp
            rw [hcalls] at hfirst hinserted
            refine ⟨first, ?_, hinserted, ?_⟩
            · rw [List.getLast?_cons_cons]
              exact hfirst
            · rw [hrow]
              exact congrArg (fun time => some (M.withCreatedAt incoming time))
                (M.createdAt_withCreatedAt previous.1 _)
      · rw [if_neg hk, if_neg hk]
        exact ih

end Row

/-! ## Every interleaving -/

section Claim

variable {ρ β ι : Type} {M : RowModel ρ} [DecidableEq ι] {initial : Database M β}
  {s s' : Engine M β ι}

/-- The actions of every session are still there: in the session, or committed. -/
def Keeps (s s' : Engine M β ι) (i : ι) : Prop :=
  ∀ a ∈ (s.session i).actions, a ∈ (s'.session i).actions ∨ a ∈ s'.history

theorem keeps_of_update {i j : ι} {state : SessionState M β}
    (hsession : s'.session = Function.update s.session j state)
    (hstate : i = j → ∀ a ∈ (s.session j).actions, a ∈ state.actions ∨ a ∈ s'.history) :
    Keeps s s' i := by
  intro a ha
  rw [hsession]
  by_cases hij : i = j
  · rw [hij, Function.update_self]
    rw [hij] at ha
    exact hstate hij a ha
  · rw [Function.update_of_ne hij]
    exact Or.inl ha

theorem mem_history_commit (j : ι) {a : Action ρ β} (ha : a ∈ s.history) :
    a ∈ (s.commit M j).history := by
  unfold Engine.commit
  cases s.own M j with
  | none => exact ha
  | some db => exact List.mem_append_right _ ha

theorem keeps_commit (h : Consistent initial s) (i j : ι) : Keeps s (s.commit M j) i := by
  have hj := h.session j
  unfold SessionOk at hj
  unfold Engine.commit
  cases hown : s.own M j with
  | none =>
      rw [hown] at hj
      refine keeps_of_update rfl fun _ a ha => ?_
      rw [hj.1] at ha
      cases ha
  | some db => exact keeps_of_update rfl fun _ a ha => Or.inr (List.mem_append_left _ ha)

theorem keeps_advance {i j : ι} {call : Call M β} (h : Consistent initial s)
    (hcall : (s.session j).call = some call) (hstep : advance M s j call = some s') :
    Keeps s s' i := by
  cases call with
  | saved incoming outermost =>
      obtain ⟨db, -, rfl⟩ := Option.map_eq_some_iff.mp hstep
      cases db.table.insert? incoming with
      | some table => exact keeps_of_update rfl fun _ _ ha => Or.inl ha
      | none => exact keeps_of_update rfl fun _ _ ha => Or.inl ha
  | inserted incoming outermost =>
      have hfinish : Keeps s (s.finish M j (.upserted incoming true)) i :=
        keeps_of_update rfl fun _ _ ha => Or.inl (List.mem_cons_of_mem _ ha)
      cases hstep
      split
      · intro a ha
        rcases hfinish a ha with ha | ha
        · exact keeps_commit (consistent_inserted h hcall) i j a ha
        · exact Or.inr (mem_history_commit j ha)
      · exact hfinish
  | conflicted incoming before =>
      cases hstep
      exact keeps_of_update rfl fun _ _ ha => Or.inl ha
  | rolledBack incoming =>
      obtain ⟨db, -, rfl⟩ := Option.map_eq_some_iff.mp hstep
      cases db.table.get? (M.key incoming) with
      | some existing => exact keeps_of_update rfl fun _ _ ha => Or.inl ha
      | none => exact keeps_of_update rfl fun _ _ ha => Or.inl ha
  | selected incoming existing =>
      obtain ⟨db, -, rfl⟩ := Option.map_eq_some_iff.mp hstep
      exact keeps_of_update rfl fun _ _ ha => Or.inl (List.mem_cons_of_mem _ ha)

/-- Only its own rollback undoes what a session has done. -/
theorem keeps_of_step (h : Consistent initial s) {e : Event ρ β ι} (hstep : step M s e = some s')
    (i : ι) (he : e ≠ .rollback i) : Keeps s s' i := by
  cases step_does hstep with
  | begin | upsert | timeout => exact keeps_of_update rfl fun _ _ ha => Or.inl ha
  | write => exact keeps_of_update rfl fun _ _ ha => Or.inl (List.mem_cons_of_mem _ ha)
  | @commit j => exact keeps_commit h i j
  | leave | rollback => exact keeps_of_update rfl fun hij => absurd (by rw [hij]) he
  | advance hcall hadvance => exact keeps_advance h hcall hadvance

/-- What concurrent calls of `upsert_by_pk` leave, and what a session keeps. -/
structure Safe (initial : Database M β) (s : Engine M β ι) : Prop where
  /-- No integrity error got out of a call. -/
  integrityErrors : s.integrityErrors = 0
  /-- What is committed is what the committed actions give one after the other. -/
  serial : s.committed = replay s.history initial
  /-- A session that is not in a call has written what it has done. -/
  own : ∀ i db, s.own M i = some db → (s.session i).call = none →
    db = replay ((s.session i).actions ++ s.history) initial
  /-- Nothing but its own rollback loses what a session has done. -/
  kept : ∀ i e s', step M s e = some s' → e ≠ .rollback i → Keeps s s' i
  /-- One row for each key that was called, and its columns. -/
  row : ∀ k, initial.table.get? k = none →
    RowOf M k (callsOn M k s.history) (s.committed.table.get? k)
  /-- The only one of its key. -/
  unique : ∀ k, (s.committed.table.rows.filter fun r => decide (M.key r = k))
    = (s.committed.table.get? k).toList

/-- For every interleaving of any number of sessions, each with any calls, writes,
commits and rollbacks: in every state of every run. -/
theorem safe_of_run {es : List (Event ρ β ι)} (h : Run M initial es s) : Safe initial s := by
  have hconsistent := consistent_of_run h
  refine ⟨hconsistent.integrityErrors, hconsistent.committed, ?_, ?_, ?_, ?_⟩
  · intro i db hown hcall
    have hi := hconsistent.session i
    unfold SessionOk at hi
    rw [hown, hcall] at hi
    exact hi.2
  · intro i e s' hstep he
    exact keeps_of_step hconsistent hstep i he
  · intro k hfree
    rw [hconsistent.committed]
    exact rowOf_replay hfree _ hconsistent.history
  · exact fun k => Table.filter_key _ k

end Claim

def entrance (area createdAt updatedAt : String) : LocationRow :=
  ⟨"L1", "T1", none, none, area, none, none, none, "internal", createdAt, updatedAt⟩

def noLocations : Database locationRows Unit := ⟨⟨[], List.nodup_nil⟩, ()⟩

def unusedEngine : Engine locationRows Unit Bool :=
  ⟨noLocations, none, fun _ => SessionState.idle locationRows, [], 0⟩

/-- Two sessions upsert one location, the second while the first has the lock. -/
def overlapping : List (Event LocationRow Unit Bool) :=
  [.upsert true (entrance "Lobby" "09:00" "09:00"), .advance true,
    .upsert false (entrance "Hall" "09:01" "09:01"), .advance true, .advance false,
    .advance false, .advance false, .advance false, .commit false]

/-- The row of the second call, with the creation time of the first. -/
theorem overlapping_safe : ∃ (es : List (Event LocationRow Unit Bool))
    (s : Engine locationRows Unit Bool), Run locationRows noLocations es s ∧
    s.committed.table.rows = [entrance "Hall" "09:00" "09:01"] ∧
    Safe noLocations s := by
  have hrows : (Trace.exec (step locationRows) overlapping unusedEngine).map
      (fun s => s.committed.table.rows)
        = some [entrance "Hall" "09:00" "09:01"] := by
    decide +kernel
  obtain ⟨s, hexec, hrows⟩ := Option.map_eq_some_iff.mp hrows
  have hrun : Run locationRows noLocations (overlapping.reverse ++ []) s :=
    (Trace.Run.of_exec (P := fun _ _ => True)
      (.start ⟨⟨rfl, fun _ => rfl, rfl, rfl⟩, rfl⟩) hexec fun _ _ _ => trivial).imp
        fun _ _ _ hstep => hstep.1
  exact ⟨_, s, hrun, hrows, safe_of_run hrun⟩

end CctvMemory.Provisioning.Upsert
