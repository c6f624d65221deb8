import CctvMemory.Library.Trace
import CctvMemory.Publication.Invariant
import Mathlib.Logic.Function.Basic

/-!
# Publications on PostgreSQL

On PostgreSQL any number of publications run at the same time, each in a transaction of its
own: every statement sees what is committed by then and what its own transaction wrote, a row
that is deleted stays locked until the end of the transaction, and `uq_obs_segment_scale`
makes an insertion wait for, or fail on, the key of another one. A transaction may end in an
error at any time.

* `currentVersions_append`, `replacedVersions_append`: a log continued by a whole command.
* `Merging`: what a transaction has done so far fits the rows committed by the others.
* `publications_are_serial`: the committed tables are those of the log of the committed
  commands, in the order of their commits.
-/

namespace CctvMemory.Publication.Postgres

variable {ι : Type} [DecidableEq ι]

/-! ## Rows -/

inductive TextField where
  | static
  | dynamic
  | tags
deriving DecidableEq

/-- A row of `observation_text_index`. -/
structure IndexRow where
  recordId : String
  textField : TextField
  content : String
deriving DecidableEq

/-- The rows that `index_record` writes. -/
def indexRows (r : ObservationRecord) : List IndexRow :=
  [⟨r.recordId, .static, r.staticDescriptionText⟩, ⟨r.recordId, .dynamic, r.dynamicDescriptionText⟩,
    ⟨r.recordId, .tags, joinTags r.tags⟩]

/-! ## Transactions -/

/-- Where a publication is in its loop over the records. -/
inductive Stage where
  | next
  /-- The SELECT has returned `old`. -/
  | found (r old : ObservationRecord)
  | archived (r old : ObservationRecord)
  /-- The record is to be inserted. -/
  | cleared (r : ObservationRecord)

def Stage.records : Stage → List ObservationRecord
  | next => []
  | found r _ => [r]
  | archived r _ => [r]
  | cleared r => [r]

/-- A publication, with what it has written and not committed. -/
structure Transaction where
  command : PublishCommand
  now : Iso.Text
  rest : List ObservationRecord
  stage : Stage
  /-- The ids of committed rows that it has deleted. -/
  removed : List String
  added : List ObservationRecord
  indexed : List IndexRow
  archived : List HistoryRow
  published : List ObservationRecord

/-- The records of a publication, as the command has them. -/
def Transaction.records (tx : Transaction) : List ObservationRecord :=
  tx.published ++ (tx.stage.records ++ tx.rest)

structure Server (ι : Type) where
  active : List ObservationRecord
  index : List IndexRow
  history : List HistoryRow
  /-- Who has a row locked, by its record id. -/
  owner : String → Option ι
  /-- Who has an entry of `uq_obs_segment_scale` that is not committed. -/
  inserting : NaturalKey → Option ι
  sessions : ι → Option Transaction
  issued : List String
  committed : List PublishCommand

/-- The records of the committed commands, in the order of their commits. -/
def Server.log (c : Server ι) : List ObservationRecord := c.committed.flatMap PublishCommand.records

def Server.initial : Server ι := ⟨[], [], [], fun _ => none, fun _ => none, fun _ => none, [], []⟩

inductive Event (ι : Type) where
  | begin (i : ι) (command : PublishCommand) (now : Iso.Text)
  | select (i : ι)
  | archive (i : ι) (historyId : String)
  | remove (i : ι)
  | add (i : ι)
  | commit (i : ι)
  /-- An error of any statement, a lost connection, or the end of the process. -/
  | rollback (i : ι)

namespace Server

variable (c : Server ι)

def put (i : ι) (tx : Option Transaction) : Server ι :=
  { c with sessions := Function.update c.sessions i tx }

/-- What a statement of the transaction sees. -/
def view (tx : Transaction) : List ObservationRecord :=
  c.active.filter (fun r => decide (r.recordId ∉ tx.removed)) ++ tx.added

def isCommitted (recordId : String) : Bool :=
  c.active.any fun r => decide (r.recordId = recordId)

/-- The end of a transaction. -/
def release (i : ι) : Server ι :=
  { c.put i none with
    owner := fun id => if c.owner id = some i then none else c.owner id
    inserting := fun k => if c.inserting k = some i then none else c.inserting k }

def commit (i : ι) (tx : Transaction) : Server ι :=
  { c.release i with
    active := c.view tx
    index := c.index.filter (fun row => decide (row.recordId ∉ tx.removed)) ++ tx.indexed
    history := c.history ++ tx.archived
    committed := c.committed ++ [tx.command] }

end Server

def Transaction.start (command : PublishCommand) (now : Iso.Text) : Transaction :=
  ⟨command, now, command.records, .next, [], [], [], [], []⟩

/-- The row that `publish_records_atomically` puts into the history. -/
def Transaction.historyRow (tx : Transaction) (historyId : String) (r old : ObservationRecord) :
    HistoryRow where
  historyId
  oldRecordId := old.recordId
  replacedByRecordId := r.recordId
  archivedByAnalysisJobId := tx.command.analysisJobId
  archivedAt := tx.now
  archiveReason := tx.command.archiveReason
  recordSnapshot := old

/-- The two DELETEs of `old`, from the index and from the table. -/
def Transaction.remove (tx : Transaction) (r old : ObservationRecord) (committed : Bool) :
    Transaction :=
  { tx with
    stage := .cleared r
    removed := if committed then tx.removed ++ [old.recordId] else tx.removed
    added := tx.added.filter fun e => decide (e.recordId ≠ old.recordId)
    indexed := tx.indexed.filter fun row => decide (row.recordId ≠ old.recordId) }

/-- The INSERT of the record, and its rows of the index. -/
def Transaction.add (tx : Transaction) (r : ObservationRecord) : Transaction :=
  { tx with
    stage := .next
    added := tx.added ++ [r]
    indexed := tx.indexed ++ indexRows r
    published := tx.published ++ [r] }

/-- The INSERT goes through: neither its id nor its natural key is taken. -/
def Server.Admits (c : Server ι) (i : ι) (tx : Transaction) (r : ObservationRecord) : Prop :=
  r.segmentStartMs < r.segmentEndMs ∧
    (∀ e ∈ c.view tx, e.recordId ≠ r.recordId ∧ e.naturalKey ≠ r.naturalKey) ∧
    (c.inserting r.naturalKey = none ∨ c.inserting r.naturalKey = some i)

instance (c : Server ι) (i : ι) (tx : Transaction) (r : ObservationRecord) :
    Decidable (c.Admits i tx r) :=
  inferInstanceAs (Decidable (_ ∧ _ ∧ _))

/-- What an event does; `none` where a statement fails, or waits for another transaction. -/
def step (c : Server ι) : Event ι → Option (Server ι)
  | .begin i command now =>
      -- each record has an id that `new_id` has just drawn
      if c.sessions i = none ∧ (command.records.map ObservationRecord.recordId).Nodup ∧
          ∀ r ∈ command.records, r.recordId ∉ c.issued then
        some { c.put i (some (.start command now)) with
          issued := c.issued ++ command.records.map ObservationRecord.recordId }
      else none
  | .select i =>
      match c.sessions i with
      | some tx =>
          match tx.stage, tx.rest with
          | .next, r :: rest =>
              match (c.view tx).find? fun e => decide (e.naturalKey = r.naturalKey) with
              | some old => some (c.put i (some { tx with stage := .found r old, rest := rest }))
              | none => some (c.put i (some { tx with stage := .cleared r, rest := rest }))
          | _, _ => none
      | none => none
  | .archive i historyId =>
      match c.sessions i with
      | some tx =>
          match tx.stage with
          | .found r old => some (c.put i (some { tx with
              stage := .archived r old
              archived := tx.archived ++ [tx.historyRow historyId r old] }))
          | _ => none
      | none => none
  | .remove i =>
      match c.sessions i with
      | some tx =>
          match tx.stage with
          | .archived r old =>
              -- a DELETE finds nothing where another transaction was faster
              if c.isCommitted old.recordId = true then
                if c.owner old.recordId = none ∨ c.owner old.recordId = some i then
                  some { c.put i (some (tx.remove r old true)) with
                    owner := Function.update c.owner old.recordId (some i) }
                else none
              else some (c.put i (some (tx.remove r old false)))
          | _ => none
      | none => none
  | .add i =>
      match c.sessions i with
      | some tx =>
          match tx.stage with
          | .cleared r =>
              if c.Admits i tx r then
                some { c.put i (some (tx.add r)) with
                  inserting := Function.update c.inserting r.naturalKey (some i) }
              else none
          | _ => none
      | none => none
  | .commit i =>
      match c.sessions i with
      | some tx =>
          match tx.stage, tx.rest with
          | .next, [] => some (c.commit i tx)
          | _, _ => none
      | none => none
  | .rollback i =>
      match c.sessions i with
      | some _ => some (c.release i)
      | none => none

/-- What a step can do. -/
inductive Does (c : Server ι) : Event ι → Server ι → Prop where
  | begin {i : ι} {command : PublishCommand} {now : Iso.Text} (hidle : c.sessions i = none)
      (hnodup : (command.records.map ObservationRecord.recordId).Nodup)
      (hfresh : ∀ r ∈ command.records, r.recordId ∉ c.issued) :
      Does c (.begin i command now) { c.put i (some (.start command now)) with
        issued := c.issued ++ command.records.map ObservationRecord.recordId }
  | found {i : ι} {tx : Transaction} {r old : ObservationRecord} {rest : List ObservationRecord}
      (htx : c.sessions i = some tx) (hstage : tx.stage = .next) (hrest : tx.rest = r :: rest)
      (hold : old ∈ c.view tx) (hkey : old.naturalKey = r.naturalKey) :
      Does c (.select i) (c.put i (some { tx with stage := .found r old, rest := rest }))
  | absent {i : ι} {tx : Transaction} {r : ObservationRecord} {rest : List ObservationRecord}
      (htx : c.sessions i = some tx) (hstage : tx.stage = .next) (hrest : tx.rest = r :: rest)
      (hnone : ∀ e ∈ c.view tx, e.naturalKey ≠ r.naturalKey) :
      Does c (.select i) (c.put i (some { tx with stage := .cleared r, rest := rest }))
  | archive {i : ι} {tx : Transaction} {r old : ObservationRecord} {historyId : String}
      (htx : c.sessions i = some tx) (hstage : tx.stage = .found r old) :
      Does c (.archive i historyId) (c.put i (some { tx with
        stage := .archived r old
        archived := tx.archived ++ [tx.historyRow historyId r old] }))
  | remove {i : ι} {tx : Transaction} {r old : ObservationRecord} (htx : c.sessions i = some tx)
      (hstage : tx.stage = .archived r old) (hcommitted : c.isCommitted old.recordId = true)
      (hlock : c.owner old.recordId = none ∨ c.owner old.recordId = some i) :
      Does c (.remove i) { c.put i (some (tx.remove r old true)) with
        owner := Function.update c.owner old.recordId (some i) }
  | removeOwn {i : ι} {tx : Transaction} {r old : ObservationRecord} (htx : c.sessions i = some tx)
      (hstage : tx.stage = .archived r old) (hcommitted : c.isCommitted old.recordId = false) :
      Does c (.remove i) (c.put i (some (tx.remove r old false)))
  | add {i : ι} {tx : Transaction} {r : ObservationRecord} (htx : c.sessions i = some tx)
      (hstage : tx.stage = .cleared r) (hadmits : c.Admits i tx r) :
      Does c (.add i) { c.put i (some (tx.add r)) with
        inserting := Function.update c.inserting r.naturalKey (some i) }
  | commit {i : ι} {tx : Transaction} (htx : c.sessions i = some tx) (hstage : tx.stage = .next)
      (hrest : tx.rest = []) : Does c (.commit i) (c.commit i tx)
  | rollback {i : ι} {tx : Transaction} (htx : c.sessions i = some tx) :
      Does c (.rollback i) (c.release i)

theorem step_does {c c' : Server ι} {e : Event ι} (h : step c e = some c') : Does c e c' := by
  cases e with
  | begin i command now =>
      obtain ⟨⟨hidle, hnodup, hfresh⟩, hc⟩ := Option.ite_none_right_eq_some.mp h
      cases hc
      exact .begin hidle hnodup hfresh
  | select i =>
      simp only [step] at h
      split at h
      · rename_i htx
        split at h
        · rename_i hstage hrest
          split at h
          · rename_i hold
            cases h
            exact .found htx hstage hrest (List.mem_of_find?_eq_some hold)
              (by simpa using List.find?_some hold)
          · rename_i hnone
            cases h
            refine .absent htx hstage hrest fun e he hkey => ?_
            exact List.find?_eq_none.mp hnone e he (decide_eq_true hkey)
        · cases h
      · cases h
  | archive i historyId =>
      simp only [step] at h
      split at h
      · rename_i htx
        split at h
        · rename_i hstage
          cases h
          exact .archive htx hstage
        · cases h
      · cases h
  | remove i =>
      simp only [step] at h
      split at h
      · rename_i htx
        split at h
        · rename_i hstage
          split at h
          · rename_i hcommitted
            obtain ⟨hlock, hc⟩ := Option.ite_none_right_eq_some.mp h
            cases hc
            exact .remove htx hstage hcommitted hlock
          · rename_i hcommitted
            cases h
            exact .removeOwn htx hstage (Bool.not_eq_true _ ▸ hcommitted)
        · cases h
      · cases h
  | add i =>
      simp only [step] at h
      split at h
      · rename_i htx
        split at h
        · rename_i hstage
          obtain ⟨hadmits, hc⟩ := Option.ite_none_right_eq_some.mp h
          cases hc
          exact .add htx hstage hadmits
        · cases h
      · cases h
  | commit i =>
      simp only [step] at h
      split at h
      · rename_i htx
        split at h
        · rename_i hstage hrest
          cases h
          exact .commit htx hstage hrest
        · cases h
      · cases h
  | rollback i =>
      simp only [step] at h
      split at h
      · rename_i htx
        cases h
        exact .rollback htx
      · cases h

/-! ## A log continued by a command -/

/-- The command writes the natural key. -/
def Touches (own : List ObservationRecord) (k : NaturalKey) : Prop := ∃ r ∈ own, r.naturalKey = k

instance (own : List ObservationRecord) (k : NaturalKey) : Decidable (Touches own k) :=
  inferInstanceAs (Decidable (∃ r ∈ own, r.naturalKey = k))

theorem touches_concat {own : List ObservationRecord} {r : ObservationRecord} {k : NaturalKey} :
    Touches (own ++ [r]) k ↔ Touches own k ∨ r.naturalKey = k := by
  simp [Touches, or_and_right, exists_or]

theorem not_touches_nil (k : NaturalKey) : ¬ Touches [] k := by
  simp [Touches]

theorem currentVersions_subset {log : List ObservationRecord} {r : ObservationRecord}
    (h : r ∈ currentVersions log) : r ∈ log := by
  induction log with
  | nil => exact h
  | cons x later ih =>
      unfold currentVersions at h
      split at h
      · exact List.mem_cons_of_mem x (ih h)
      · rcases List.mem_cons.mp h with rfl | hlater
        · exact List.mem_cons_self
        · exact List.mem_cons_of_mem x (ih hlater)

/-- Every key of a log has a current version, and only one. -/
theorem touches_iff_current {log : List ObservationRecord} {k : NaturalKey} :
    Touches log k ↔ ∃ e ∈ currentVersions log, e.naturalKey = k := by
  constructor
  · induction log using List.reverseRecOn with
    | nil => exact fun h => absurd h (not_touches_nil k)
    | append_singleton log r ih =>
        intro h
        rw [currentVersions_snoc]
        by_cases hkey : r.naturalKey = k
        · exact ⟨r, List.mem_append_right _ List.mem_cons_self, hkey⟩
        · obtain ⟨e, he, rfl⟩ := ih ((touches_concat.mp h).resolve_right hkey)
          exact ⟨e, List.mem_append_left _ (List.mem_filter.mpr ⟨he, by simpa using Ne.symm hkey⟩),
            rfl⟩
  · rintro ⟨e, he, rfl⟩
    exact ⟨e, currentVersions_subset he, rfl⟩

theorem filter_key_eq_singleton {log : List ObservationRecord} {old : ObservationRecord}
    {k : NaturalKey} (hold : old ∈ currentVersions log) (hkey : old.naturalKey = k) :
    (currentVersions log).filter (fun e => decide (e.naturalKey = k)) = [old] := by
  have hmem : old ∈ (currentVersions log).filter fun e => decide (e.naturalKey = k) :=
    List.mem_filter.mpr ⟨hold, decide_eq_true hkey⟩
  rw [filter_currentVersions] at hmem ⊢
  rw [Option.mem_toList.mp hmem]
  rfl

theorem currentVersions_inj {log : List ObservationRecord} {a b : ObservationRecord}
    (ha : a ∈ currentVersions log) (hb : b ∈ currentVersions log)
    (hkey : a.naturalKey = b.naturalKey) : a = b := by
  have hmem : a ∈ (currentVersions log).filter fun e => decide (e.naturalKey = b.naturalKey) :=
    List.mem_filter.mpr ⟨ha, decide_eq_true hkey⟩
  rw [filter_key_eq_singleton hb rfl] at hmem
  exact List.mem_singleton.mp hmem

theorem currentVersions_append (log own : List ObservationRecord) :
    currentVersions (log ++ own) =
      (currentVersions log).filter (fun e => decide (¬ Touches own e.naturalKey)) ++
        currentVersions own := by
  induction own using List.reverseRecOn with
  | nil =>
      rw [List.append_nil, List.filter_eq_self.mpr fun e _ => by simp [not_touches_nil]]
      exact (List.append_nil _).symm
  | append_singleton own r ih =>
      rw [← List.append_assoc, currentVersions_snoc, currentVersions_snoc, ih, List.filter_append,
        List.filter_filter, List.append_assoc]
      congr 1
      refine List.filter_congr fun e _ => ?_
      by_cases hkey : e.naturalKey = r.naturalKey
      · simp [touches_concat, hkey]
      · simp [touches_concat, hkey, Ne.symm hkey]

/-- The two parts of a list, with an element of the second one moved over. -/
theorem filter_or_perm {own : List ObservationRecord} {r : ObservationRecord}
    (rows : List ObservationRecord) (hnew : ¬ Touches own r.naturalKey) :
    (rows.filter fun e => decide (Touches (own ++ [r]) e.naturalKey)).Perm
      (rows.filter (fun e => decide (Touches own e.naturalKey)) ++
        rows.filter fun e => decide (e.naturalKey = r.naturalKey)) := by
  induction rows with
  | nil => exact List.Perm.refl _
  | cons e rows ih =>
      by_cases hkey : e.naturalKey = r.naturalKey
      · have hnot : ¬ Touches own e.naturalKey := hkey ▸ hnew
        have htouches : Touches (own ++ [r]) e.naturalKey := touches_concat.mpr (.inr hkey.symm)
        rw [List.filter_cons_of_pos (by simpa using htouches),
          List.filter_cons_of_neg (by simpa using hnot),
          List.filter_cons_of_pos (by simpa using hkey)]
        exact (ih.cons e).trans List.perm_middle.symm
      · by_cases hown : Touches own e.naturalKey
        · have htouches : Touches (own ++ [r]) e.naturalKey := touches_concat.mpr (.inl hown)
          rw [List.filter_cons_of_pos (by simpa using htouches),
            List.filter_cons_of_pos (by simpa using hown),
            List.filter_cons_of_neg (by simpa using hkey)]
          exact ih.cons e
        · have hnot : ¬ Touches (own ++ [r]) e.naturalKey := fun htouches =>
            (touches_concat.mp htouches).elim hown (fun heq => hkey heq.symm)
          rw [List.filter_cons_of_neg (by simpa using hnot),
            List.filter_cons_of_neg (by simpa using hown),
            List.filter_cons_of_neg (by simpa using hkey)]
          exact ih

theorem filter_touches_old {own : List ObservationRecord} {r : ObservationRecord}
    (rows : List ObservationRecord) (hold : Touches own r.naturalKey) :
    (rows.filter fun e => decide (Touches (own ++ [r]) e.naturalKey)) =
      rows.filter fun e => decide (Touches own e.naturalKey) := by
  refine List.filter_congr fun e _ => ?_
  by_cases hkey : r.naturalKey = e.naturalKey
  · simp [touches_concat, hkey, hkey ▸ hold]
  · simp [touches_concat, hkey]

theorem filter_key_eq_nil {own : List ObservationRecord} {k : NaturalKey} (h : ¬ Touches own k) :
    (currentVersions own).filter (fun e => decide (e.naturalKey = k)) = [] :=
  List.filter_eq_nil_iff.mpr fun e he hkey =>
    h (touches_iff_current.mpr ⟨e, he, of_decide_eq_true hkey⟩)

/-- What a command replaces is what it finds of its keys, and what it replaces itself. -/
theorem replacedVersions_append (log own : List ObservationRecord) :
    (replacedVersions (log ++ own)).Perm (replacedVersions log ++
      ((currentVersions log).filter (fun e => decide (Touches own e.naturalKey)) ++
        replacedVersions own)) := by
  induction own using List.reverseRecOn with
  | nil =>
      rw [List.filter_eq_nil_iff.mpr fun e _ => by simp [not_touches_nil]]
      simp [replacedVersions]
  | append_singleton own r ih =>
      have hlog := replacedVersions_snoc (log ++ own) r
      have hown := replacedVersions_snoc own r
      rw [currentVersions_append, List.filter_append, List.filter_filter] at hlog
      rw [← List.append_assoc]
      refine hlog.trans ((ih.append_right _).trans ?_)
      rw [List.append_assoc]
      refine List.Perm.append_left _ ?_
      by_cases htouches : Touches own r.naturalKey
      -- the command replaces its own version
      · rw [filter_touches_old _ htouches]
        have hnone : (currentVersions log).filter (fun e => decide (e.naturalKey = r.naturalKey) &&
            decide (¬ Touches own e.naturalKey)) = [] := by
          refine List.filter_eq_nil_iff.mpr fun e _ he => ?_
          rw [Bool.and_eq_true, decide_eq_true_iff, decide_eq_true_iff] at he
          exact he.2 (he.1 ▸ htouches)
        rw [hnone, List.nil_append, List.append_assoc]
        exact List.Perm.append_left _ hown.symm
      · rw [filter_key_eq_nil htouches, List.append_nil] at hown
        have hsame : (currentVersions log).filter (fun e => decide (e.naturalKey = r.naturalKey) &&
            decide (¬ Touches own e.naturalKey)) =
              (currentVersions log).filter fun e => decide (e.naturalKey = r.naturalKey) := by
          refine List.filter_congr fun e _ => ?_
          by_cases hkey : e.naturalKey = r.naturalKey
          · simp [hkey, htouches]
          · simp [hkey]
        rw [filter_key_eq_nil htouches, List.append_nil, hsame]
        refine List.Perm.trans ?_ ((filter_or_perm _ htouches).symm.append hown.symm)
        rw [List.append_assoc, List.append_assoc]
        exact List.Perm.append_left _ List.perm_append_comm

/-! ## What a transaction has done so far -/

/-- What it has deleted and archived: what it published asks for, and `removing` and
`replaced` beside that. -/
structure Merges (active : List ObservationRecord) (tx : Transaction)
    (removing replaced : List ObservationRecord) : Prop where
  removed : ∀ e ∈ active,
    e.recordId ∈ tx.removed ↔ Touches tx.published e.naturalKey ∨ e ∈ removing
  archived : (tx.archived.map HistoryRow.recordSnapshot).Perm
    (active.filter (fun e => decide (Touches tx.published e.naturalKey)) ++
      replacedVersions tx.published ++ replaced)

/-- A row that its SELECT returned: its own, or one of a key that is still taken. -/
def Known (active log : List ObservationRecord) (tx : Transaction) (r old : ObservationRecord) :
    Prop :=
  old.naturalKey = r.naturalKey ∧ (old ∈ currentVersions tx.published ∨
    (old ∈ log ∧ ¬ Touches tx.published r.naturalKey ∧
      ∃ e ∈ active, e.naturalKey = r.naturalKey))

/-- Before an INSERT. -/
inductive Cleared (active : List ObservationRecord) (tx : Transaction) (r : ObservationRecord) :
    Prop where
  | absent (hnew : ¬ Touches tx.published r.naturalKey)
      (hadded : tx.added = currentVersions tx.published) (hmerges : Merges active tx [] [])
  | own {old : ObservationRecord} (hold : old ∈ currentVersions tx.published)
      (hkey : old.naturalKey = r.naturalKey)
      (hadded : tx.added =
        (currentVersions tx.published).filter fun e => decide (e.naturalKey ≠ r.naturalKey))
      (hmerges : Merges active tx [] [old])
  | taken {old : ObservationRecord} (hold : old ∈ active) (hkey : old.naturalKey = r.naturalKey)
      (hnew : ¬ Touches tx.published r.naturalKey)
      (hadded : tx.added = currentVersions tx.published) (hmerges : Merges active tx [old] [old])
  /-- Another transaction has replaced `old`; the INSERT will fail. -/
  | lost {e old : ObservationRecord} (he : e ∈ active) (hkey : e.naturalKey = r.naturalKey)
      (hnew : ¬ Touches tx.published r.naturalKey)
      (hadded : tx.added = currentVersions tx.published) (hmerges : Merges active tx [] [old])

def Merging (active log : List ObservationRecord) (tx : Transaction) : Stage → Prop
  | .next => tx.added = currentVersions tx.published ∧ Merges active tx [] []
  | .found r old => tx.added = currentVersions tx.published ∧ Merges active tx [] [] ∧
      Known active log tx r old
  | .archived r old => tx.added = currentVersions tx.published ∧ Merges active tx [] [old] ∧
      Known active log tx r old
  | .cleared r => Cleared active tx r

structure TxSound (c : Server ι) (i : ι) (tx : Transaction) : Prop where
  locks : ∀ id ∈ tx.removed, c.owner id = some i ∧ ∃ e ∈ c.active, e.recordId = id
  keys : ∀ r ∈ tx.published, c.inserting r.naturalKey = some i
  indexed : tx.indexed = tx.added.flatMap indexRows
  command : tx.records = tx.command.records
  nodup : (tx.records.map ObservationRecord.recordId).Nodup
  fresh : ∀ r ∈ tx.records, r.recordId ∈ c.issued ∧ ∀ e ∈ c.log, e.recordId ≠ r.recordId
  merging : Merging c.active c.log tx tx.stage

/-- The committed tables are those of the log, and the transactions fit them. -/
structure Sound (c : Server ι) : Prop where
  active : c.active = currentVersions c.log
  index : c.index = c.active.flatMap indexRows
  history : (c.history.map HistoryRow.recordSnapshot).Perm (replacedVersions c.log)
  nodup : (c.log.map ObservationRecord.recordId).Nodup
  issued : ∀ r ∈ c.log, r.recordId ∈ c.issued
  sessions : ∀ i tx, c.sessions i = some tx → TxSound c i tx
  apart : ∀ i j tx tx', i ≠ j → c.sessions i = some tx → c.sessions j = some tx' →
    ∀ r ∈ tx.records, ∀ r' ∈ tx'.records, r.recordId ≠ r'.recordId

section Steps

omit [DecidableEq ι]

variable {c c' : Server ι} {i : ι} {tx : Transaction} {r old : ObservationRecord}

theorem mem_view {e : ObservationRecord} :
    e ∈ c.view tx ↔ (e ∈ c.active ∧ e.recordId ∉ tx.removed) ∨ e ∈ tx.added := by
  rw [Server.view, List.mem_append, List.mem_filter, decide_eq_true_iff]

theorem Sound.mem_log (h : Sound c) {e : ObservationRecord} (he : e ∈ c.active) : e ∈ c.log :=
  currentVersions_subset (h.active ▸ he)

theorem Sound.log_inj (h : Sound c) {a b : ObservationRecord} (ha : a ∈ c.log) (hb : b ∈ c.log)
    (hid : a.recordId = b.recordId) : a = b :=
  List.inj_on_of_nodup_map h.nodup ha hb hid

theorem mem_records_of_published {e : ObservationRecord} (he : e ∈ tx.published) :
    e ∈ tx.records := List.mem_append_left _ he

/-- The ids of what it has published are not among the committed ones. -/
theorem TxSound.id_ne (h : TxSound c i tx) {e e' : ObservationRecord}
    (he : e ∈ currentVersions tx.published) (he' : e' ∈ c.log) : e.recordId ≠ e'.recordId :=
  Ne.symm ((h.fresh e (mem_records_of_published (currentVersions_subset he))).2 e' he')

theorem filter_indexRows (rows : List ObservationRecord) (p : String → Bool) :
    (rows.flatMap indexRows).filter (fun row => p row.recordId) =
      (rows.filter fun e => p e.recordId).flatMap indexRows := by
  induction rows with
  | nil => rfl
  | cons e rows ih =>
      rw [List.flatMap_cons, List.filter_append, ih, List.filter_cons]
      by_cases hp : p e.recordId = true
      · rw [if_pos hp, List.flatMap_cons]
        simp [indexRows, hp]
      · rw [if_neg hp]
        simp [indexRows, hp]

theorem merging_found (hsound : Sound c) (h : Merging c.active c.log tx .next)
    (hold : old ∈ c.view tx) (hkey : old.naturalKey = r.naturalKey) :
    Known c.active c.log tx r old := by
  obtain ⟨hadded, hmerges⟩ := h
  refine ⟨hkey, ?_⟩
  rcases mem_view.mp hold with ⟨hactive, hremoved⟩ | hown
  · refine .inr ⟨hsound.mem_log hactive, fun htouches => hremoved ?_, old, hactive, hkey⟩
    exact (hmerges.removed old hactive).mpr (.inl (hkey ▸ htouches))
  · exact .inl (hadded ▸ hown)

theorem merging_absent (h : Merging c.active c.log tx .next)
    (hnone : ∀ e ∈ c.view tx, e.naturalKey ≠ r.naturalKey) : Cleared c.active tx r := by
  obtain ⟨hadded, hmerges⟩ := h
  refine .absent (fun htouches => ?_) hadded hmerges
  obtain ⟨e, he, hkey⟩ := touches_iff_current.mp htouches
  exact hnone e (mem_view.mpr (.inr (hadded ▸ he))) hkey

theorem merges_archive (h : Merges c.active tx [] []) (historyId : String) :
    Merges c.active { tx with
      stage := .archived r old
      archived := tx.archived ++ [tx.historyRow historyId r old] } [] [old] where
  removed := h.removed
  archived := by
    rw [List.map_append]
    refine List.Perm.append_right [old] ?_
    simpa using h.archived

/-- What it has added keeps all but `old`. -/
theorem filter_added (h : TxSound c i tx) (hold : old ∈ c.log)
    (hadded : tx.added = currentVersions tx.published) :
    (tx.added.filter fun e => decide (e.recordId ≠ old.recordId)) =
      currentVersions tx.published := by
  rw [hadded]
  exact List.filter_eq_self.mpr fun e he => decide_eq_true (h.id_ne he hold)

theorem cleared_remove (hsound : Sound c) (h : TxSound c i tx)
    (hmerging : Merging c.active c.log tx (.archived r old))
    (hcommitted : c.isCommitted old.recordId = true) :
    old ∈ c.active ∧ Cleared c.active (tx.remove r old true) r := by
  obtain ⟨hadded, hmerges, hkey, hknown⟩ := hmerging
  obtain ⟨e, he, hid⟩ := List.any_eq_true.mp hcommitted
  have hid : e.recordId = old.recordId := of_decide_eq_true hid
  rcases hknown with hown | ⟨hold, hnew, -⟩
  · exact absurd hid.symm (h.id_ne hown (hsound.mem_log he))
  · obtain rfl := hsound.log_inj (hsound.mem_log he) hold hid
    refine ⟨he, .taken he hkey hnew (filter_added h hold hadded)
      ⟨fun e' he' => ?_, hmerges.archived⟩⟩
    show e'.recordId ∈ tx.removed ++ [e.recordId] ↔ _
    rw [List.mem_append, List.mem_singleton, hmerges.removed e' he', List.mem_singleton]
    constructor
    · rintro ((htouches | hnil) | hid')
      · exact .inl htouches
      · cases hnil
      · exact .inr (hsound.log_inj (hsound.mem_log he') hold hid')
    · rintro (htouches | rfl)
      · exact .inl (.inl htouches)
      · exact .inr rfl

theorem cleared_removeOwn (h : TxSound c i tx)
    (hmerging : Merging c.active c.log tx (.archived r old)) :
    Cleared c.active (tx.remove r old false) r := by
  obtain ⟨hadded, hmerges, hkey, hknown⟩ := hmerging
  rcases hknown with hown | ⟨hold, hnew, e, he, hekey⟩
  · refine .own hown hkey ?_ ⟨hmerges.removed, hmerges.archived⟩
    show (tx.added.filter fun e => decide (e.recordId ≠ old.recordId)) = _
    rw [hadded]
    refine List.filter_congr fun e he => ?_
    have hmem : ∀ e' ∈ currentVersions tx.published, e' ∈ tx.records := fun e' he' =>
      mem_records_of_published (currentVersions_subset he')
    have hiff : e.recordId = old.recordId ↔ e.naturalKey = r.naturalKey :=
      ⟨fun hid => by rw [List.inj_on_of_nodup_map h.nodup (hmem e he) (hmem old hown) hid, hkey],
        fun hk => by rw [currentVersions_inj he hown (hk.trans hkey.symm)]⟩
    rw [decide_eq_decide, ne_eq, ne_eq, hiff]
  · exact .lost he hekey hnew (filter_added h hold hadded)
      ⟨hmerges.removed, hmerges.archived⟩

/-- The committed rows of the key, once nothing of it is in sight. -/
theorem removed_of_admits (hview : ∀ e ∈ c.view tx, e.naturalKey ≠ r.naturalKey)
    {e : ObservationRecord} (he : e ∈ c.active) (hkey : e.naturalKey = r.naturalKey) :
    e.recordId ∈ tx.removed := by
  by_contra hremoved
  exact hview e (mem_view.mpr (.inl ⟨he, hremoved⟩)) hkey

theorem removed_add {removing replaced : List ObservationRecord}
    (hmerges : Merges c.active tx removing replaced)
    (hremoving : ∀ e ∈ c.active, e ∈ removing ∨ Touches tx.published e.naturalKey ↔
      e.naturalKey = r.naturalKey ∨ Touches tx.published e.naturalKey) :
    ∀ e ∈ c.active, e.recordId ∈ tx.removed ↔
      Touches (tx.published ++ [r]) e.naturalKey ∨ e ∈ [] := by
  intro e he
  rw [hmerges.removed e he, touches_concat, or_comm, hremoving e he, or_comm, eq_comm]
  simp

/-- After the INSERT all that belongs to the record is done. -/
theorem merging_add (hsound : Sound c) (hcleared : Cleared c.active tx r)
    (hview : ∀ e ∈ c.view tx, e.naturalKey ≠ r.naturalKey) :
    Merging c.active c.log (tx.add r) .next := by
  have hseen := fun e he hkey => removed_of_admits hview (e := e) he hkey
  -- what it published of other keys stays
  have hcurrent : ∀ rows : List ObservationRecord,
      rows = (currentVersions tx.published).filter (fun e => decide (e.naturalKey ≠ r.naturalKey)) →
        rows ++ [r] = currentVersions (tx.published ++ [r]) := fun rows hrows => by
    rw [currentVersions_snoc, hrows]
  have hnone : ¬ Touches tx.published r.naturalKey →
      (currentVersions tx.published).filter (fun e => decide (e.naturalKey ≠ r.naturalKey)) =
        currentVersions tx.published := fun hnew => by
    refine List.filter_eq_self.mpr fun e he => decide_eq_true fun hkey => ?_
    exact hnew (touches_iff_current.mpr ⟨e, he, hkey⟩)
  have hreplaced : (replacedVersions (tx.published ++ [r])).Perm _ := replacedVersions_snoc _ r
  cases hcleared with
  | absent hnew hadded hmerges =>
      have habsent : ∀ e ∈ c.active, e.naturalKey ≠ r.naturalKey := fun e he hkey => by
        rcases (hmerges.removed e he).mp (hseen e he hkey) with htouches | hnil
        · exact hnew (hkey ▸ htouches)
        · cases hnil
      refine ⟨hcurrent _ (hadded.trans (hnone hnew).symm), removed_add hmerges fun e he => ?_, ?_⟩
      · simp [habsent e he]
      · rw [filter_key_eq_nil hnew, List.append_nil] at hreplaced
        have hfilter := filter_or_perm c.active hnew
        have hempty : c.active.filter (fun e => decide (e.naturalKey = r.naturalKey)) = [] :=
          List.filter_eq_nil_iff.mpr fun e he => by simpa using habsent e he
        rw [hempty, List.append_nil] at hfilter
        refine hmerges.archived.trans ?_
        exact ((hfilter.symm.append hreplaced.symm).append_right [])
  | own hold hkey hadded hmerges =>
      rename_i old
      have htouches : Touches tx.published r.naturalKey :=
        touches_iff_current.mpr ⟨old, hold, hkey⟩
      refine ⟨hcurrent _ hadded, removed_add hmerges fun e he => ?_, ?_⟩
      · constructor
        · rintro (hnil | hown)
          · cases hnil
          · exact .inr hown
        · rintro (heq | hown)
          · exact .inr (heq ▸ htouches)
          · exact .inr hown
      · rw [filter_key_eq_singleton hold hkey] at hreplaced
        refine hmerges.archived.trans ?_
        show List.Perm _ ((c.active.filter fun e =>
          decide (Touches (tx.published ++ [r]) e.naturalKey)) ++ _ ++ [])
        rw [filter_touches_old _ htouches, List.append_nil, List.append_assoc]
        exact List.Perm.append_left _ hreplaced.symm
  | taken hold hkey hnew hadded hmerges =>
      rename_i old
      have honly : ∀ e ∈ c.active, e.naturalKey = r.naturalKey ↔ e = old := fun e he => by
        constructor
        · intro hk
          rcases (hmerges.removed e he).mp (hseen e he hk) with htouches | hmem
          · exact absurd (hk ▸ htouches) hnew
          · exact List.mem_singleton.mp hmem
        · rintro rfl
          exact hkey
      refine ⟨hcurrent _ (hadded.trans (hnone hnew).symm), removed_add hmerges fun e he => ?_, ?_⟩
      · rw [List.mem_singleton, honly e he]
      · rw [filter_key_eq_nil hnew, List.append_nil] at hreplaced
        have hone : c.active.filter (fun e => decide (e.naturalKey = r.naturalKey)) = [old] := by
          rw [hsound.active]
          exact filter_key_eq_singleton (hsound.active ▸ hold) hkey
        have hfilter := filter_or_perm c.active hnew
        rw [hone] at hfilter
        refine hmerges.archived.trans ?_
        show List.Perm _ (_ ++ _ ++ [])
        rw [List.append_nil, List.append_assoc]
        refine List.Perm.trans ?_ (hfilter.symm.append hreplaced.symm)
        rw [List.append_assoc]
        exact List.Perm.append_left _ List.perm_append_comm
  | lost he hkey hnew hadded hmerges =>
      rename_i e old
      rcases (hmerges.removed e he).mp (hseen e he hkey) with htouches | hnil
      · exact absurd (hkey ▸ htouches) hnew
      · cases hnil

/-! ## The others -/

theorem TxSound.mono (h : TxSound c i tx) (hactive : c'.active = c.active) (hlog : c'.log = c.log)
    (howner : ∀ id, c.owner id = some i → c'.owner id = some i)
    (hinserting : ∀ k, c.inserting k = some i → c'.inserting k = some i)
    (hissued : ∀ id ∈ c.issued, id ∈ c'.issued) : TxSound c' i tx where
  locks := fun id hid => ⟨howner id (h.locks id hid).1, hactive ▸ (h.locks id hid).2⟩
  keys := fun r hr => hinserting r.naturalKey (h.keys r hr)
  indexed := h.indexed
  command := h.command
  nodup := h.nodup
  fresh := fun r hr => ⟨hissued _ (h.fresh r hr).1, hlog ▸ (h.fresh r hr).2⟩
  merging := by
    rw [hactive, hlog]
    exact h.merging

/-- A transaction goes on without a write to the tables. -/
theorem TxSound.advance {tx' : Transaction} (h : TxSound c i tx)
    (hrecords : tx'.records = tx.records) (hcommand : tx'.command = tx.command)
    (hremoved : tx'.removed = tx.removed) (hpublished : tx'.published = tx.published) (hadded : tx'.added = tx.added)
    (hindexed : tx'.indexed = tx.indexed) (hmerging : Merging c.active c.log tx' tx'.stage) :
    TxSound c i tx' where
  locks := hremoved ▸ h.locks
  keys := hpublished ▸ h.keys
  indexed := by rw [hindexed, hadded, h.indexed]
  command := by rw [hrecords, hcommand, h.command]
  nodup := hrecords ▸ h.nodup
  fresh := hrecords ▸ h.fresh
  merging := hmerging

/-- Two transactions publish different keys. -/
theorem Sound.not_touches (h : Sound c) {j : ι} {tx' : Transaction} (hne : i ≠ j)
    (hi : c.sessions i = some tx) (hj : c.sessions j = some tx') {k : NaturalKey}
    (hk : Touches tx.published k) : ¬ Touches tx'.published k := by
  rintro ⟨r', hr', rfl⟩
  obtain ⟨r, hr, hkey⟩ := hk
  have hlock := (h.sessions i tx hi).keys r hr
  rw [hkey, (h.sessions j tx' hj).keys r' hr'] at hlock
  exact hne (Option.some.inj hlock).symm

section Commit

variable {j : ι} {other : Transaction}

theorem Merges.commit (hsound : Sound c) (hne : i ≠ j) (hi : c.sessions i = some tx)
    (hj : c.sessions j = some other) (hadded : tx.added = currentVersions tx.published)
    (hmerges : Merges c.active tx [] []) {removing replaced : List ObservationRecord}
    (hremoving : ∀ e ∈ removing, e ∈ c.log) (h : Merges c.active other removing replaced) :
    Merges (c.view tx) other removing replaced := by
  have htx := hsound.sessions i tx hi
  have hother := hsound.sessions j other hj
  have hapart : ∀ e, Touches other.published e → ¬ Touches tx.published e := fun k hk =>
    hsound.not_touches (Ne.symm hne) hj hi hk
  constructor
  · intro e he
    rcases mem_view.mp he with ⟨hactive, -⟩ | hnew
    · exact h.removed e hactive
    · rw [hadded] at hnew
      refine iff_of_false (fun hremoved => ?_) ?_
      · obtain ⟨-, e', he', hid⟩ := hother.locks _ hremoved
        exact htx.id_ne hnew (hsound.mem_log he') hid.symm
      · rintro (htouches | hmem)
        · exact hapart _ htouches ⟨e, currentVersions_subset hnew, rfl⟩
        · exact htx.id_ne hnew (hremoving e hmem) rfl
  · have hfilter : (c.view tx).filter (fun e => decide (Touches other.published e.naturalKey)) =
        c.active.filter fun e => decide (Touches other.published e.naturalKey) := by
      have hnone : tx.added.filter (fun e => decide (Touches other.published e.naturalKey)) = [] := by
        refine List.filter_eq_nil_iff.mpr fun e he htouches => ?_
        rw [hadded] at he
        exact hapart _ (of_decide_eq_true htouches) ⟨e, currentVersions_subset he, rfl⟩
      rw [Server.view, List.filter_append, hnone, List.append_nil, List.filter_filter]
      refine List.filter_congr fun e he => ?_
      by_cases htouches : Touches other.published e.naturalKey
      · have hkeep : e.recordId ∉ tx.removed := fun hremoved => by
          rcases (hmerges.removed e he).mp hremoved with hmine | hnil
          · exact hapart _ htouches hmine
          · cases hnil
        simp [htouches, hkeep]
      · simp [htouches]
    rw [hfilter]
    exact h.archived

/-- A key that is taken stays taken. -/
theorem taken_commit (hadded : tx.added = currentVersions tx.published)
    (hmerges : Merges c.active tx [] []) {e : ObservationRecord} (he : e ∈ c.active) :
    ∃ e' ∈ c.view tx, e'.naturalKey = e.naturalKey := by
  by_cases hremoved : e.recordId ∈ tx.removed
  · rcases (hmerges.removed e he).mp hremoved with htouches | hnil
    · obtain ⟨e', he', hkey⟩ := touches_iff_current.mp htouches
      exact ⟨e', mem_view.mpr (.inr (hadded ▸ he')), hkey⟩
    · cases hnil
  · exact ⟨e, mem_view.mpr (.inl ⟨he, hremoved⟩), rfl⟩

theorem Known.commit (hadded : tx.added = currentVersions tx.published)
    (hmerges : Merges c.active tx [] []) (h : Known c.active c.log other r old) :
    Known (c.view tx) (c.log ++ tx.published) other r old := by
  obtain ⟨hkey, hown | ⟨hold, hnew, e, he, hekey⟩⟩ := h
  · exact ⟨hkey, .inl hown⟩
  · obtain ⟨e', he', hkey'⟩ := taken_commit hadded hmerges he
    exact ⟨hkey, .inr ⟨List.mem_append_left _ hold, hnew, e', he', hkey'.trans hekey⟩⟩

theorem Merging.commit (hsound : Sound c) (hne : i ≠ j) (hi : c.sessions i = some tx)
    (hj : c.sessions j = some other) (hadded : tx.added = currentVersions tx.published)
    (hmerges : Merges c.active tx [] []) {stage : Stage}
    (h : Merging c.active c.log other stage) :
    Merging (c.view tx) (c.log ++ tx.published) other stage := by
  have hmerge : ∀ {removing replaced}, (∀ e ∈ removing, e ∈ c.log) →
      Merges c.active other removing replaced → Merges (c.view tx) other removing replaced :=
    Merges.commit hsound hne hi hj hadded hmerges
  cases stage with
  | next => exact ⟨h.1, hmerge (by simp) h.2⟩
  | found r old => exact ⟨h.1, hmerge (by simp) h.2.1, h.2.2.commit hadded hmerges⟩
  | archived r old => exact ⟨h.1, hmerge (by simp) h.2.1, h.2.2.commit hadded hmerges⟩
  | cleared r =>
      cases h with
      | absent hnew hadded' hmerges' => exact .absent hnew hadded' (hmerge (by simp) hmerges')
      | own hold hkey hadded' hmerges' =>
          exact .own hold hkey hadded' (hmerge (by simp) hmerges')
      | taken hold hkey hnew hadded' hmerges' =>
          rename_i old
          -- nobody else can delete `old`
          have hremoved : old.recordId ∈ other.removed :=
            (hmerges'.removed old hold).mpr (.inr (List.mem_singleton_self old))
          have hkeep : old.recordId ∉ tx.removed := fun hmine => by
            have howner := ((hsound.sessions i tx hi).locks _ hmine).1
            rw [((hsound.sessions j other hj).locks _ hremoved).1] at howner
            exact hne (Option.some.inj howner).symm
          refine .taken (mem_view.mpr (.inl ⟨hold, hkeep⟩)) hkey hnew hadded' (hmerge ?_ hmerges')
          intro e he
          rw [List.mem_singleton.mp he]
          exact hsound.mem_log hold
      | lost he hkey hnew hadded' hmerges' =>
          obtain ⟨e', he', hkey'⟩ := taken_commit hadded hmerges he
          exact .lost he' (hkey'.trans hkey) hnew hadded' (hmerge (by simp) hmerges')

end Commit

end Steps

/-! ## Runs -/

variable {c c' : Server ι} {i : ι} {tx : Transaction}

omit [DecidableEq ι] in
theorem sound_initial : Sound (Server.initial : Server ι) where
  active := rfl
  index := rfl
  history := List.Perm.refl _
  nodup := List.nodup_nil
  issued := by simp [Server.initial, Server.log]
  sessions := by
    intro i tx htx
    cases htx
  apart := by
    intro i j tx tx' _ htx
    cases htx

/-- One transaction goes on; the tables are as they were. -/
theorem Sound.put (h : Sound c) {tx' : Transaction} (owner : String → Option ι)
    (inserting : NaturalKey → Option ι) (issued : List String)
    (howner : ∀ id j, j ≠ i → c.owner id = some j → owner id = some j)
    (hinserting : ∀ k j, j ≠ i → c.inserting k = some j → inserting k = some j)
    (hissued : ∀ id ∈ c.issued, id ∈ issued)
    (htx : TxSound { c.put i (some tx') with
      owner := owner, inserting := inserting, issued := issued } i tx')
    (hapart : ∀ j tx, j ≠ i → c.sessions j = some tx → ∀ r ∈ tx'.records, ∀ r' ∈ tx.records,
      r.recordId ≠ r'.recordId) :
    Sound { c.put i (some tx') with
      owner := owner, inserting := inserting, issued := issued } := by
  have hself : (c.put i (some tx')).sessions i = some tx' := Function.update_self ..
  have hother : ∀ j, j ≠ i → (c.put i (some tx')).sessions j = c.sessions j := fun j hj =>
    Function.update_of_ne hj ..
  refine ⟨h.active, h.index, h.history, h.nodup, fun r hr => hissued _ (h.issued r hr),
    fun j tx hj => ?_, fun j k tx₁ tx₂ hjk hj hk => ?_⟩
  · by_cases hji : j = i
    · subst hji
      obtain rfl := Option.some.inj (hself.symm.trans hj)
      exact htx
    · exact (h.sessions j tx (hother j hji ▸ hj)).mono rfl rfl (fun id => howner id j hji)
        (fun k => hinserting k j hji) hissued
  · by_cases hji : j = i
    · subst hji
      obtain rfl := Option.some.inj (hself.symm.trans hj)
      exact hapart k tx₂ (Ne.symm hjk) (hother k (Ne.symm hjk) ▸ hk)
    · have hj' := hother j hji ▸ hj
      by_cases hki : k = i
      · subst hki
        obtain rfl := Option.some.inj (hself.symm.trans hk)
        exact fun r hr r' hr' => Ne.symm (hapart j tx₁ hji hj' r' hr' r hr)
      · exact h.apart j k tx₁ tx₂ hjk hj' (hother k hki ▸ hk)

/-- A step of a transaction that only looks, or writes the history. -/
theorem Sound.advance (h : Sound c) {tx' : Transaction} (htx : c.sessions i = some tx)
    (hrecords : tx'.records = tx.records) (hcommand : tx'.command = tx.command)
    (hremoved : tx'.removed = tx.removed) (hpublished : tx'.published = tx.published) (hadded : tx'.added = tx.added)
    (hindexed : tx'.indexed = tx.indexed) (hmerging : Merging c.active c.log tx' tx'.stage) :
    Sound (c.put i (some tx')) := by
  refine h.put c.owner c.inserting c.issued (fun _ _ _ => id) (fun _ _ _ => id) (fun _ => id)
    ?_ ?_
  · have hadvance := (h.sessions i tx htx).advance hrecords hcommand hremoved hpublished hadded hindexed
      hmerging
    exact hadvance.mono rfl rfl (fun _ => id) (fun _ => id) fun _ => id
  · intro j other hj hother r hr
    rw [hrecords] at hr
    exact h.apart i j tx other (Ne.symm hj) htx hother r hr

theorem Sound.begin (h : Sound c) {command : PublishCommand} {now : Iso.Text}
    (hnodup : (command.records.map ObservationRecord.recordId).Nodup)
    (hfresh : ∀ r ∈ command.records, r.recordId ∉ c.issued) :
    Sound { c.put i (some (.start command now)) with
      issued := c.issued ++ command.records.map ObservationRecord.recordId } := by
  refine h.put c.owner c.inserting _ (fun _ _ _ => id) (fun _ _ _ => id)
    (fun id hid => List.mem_append_left _ hid) ⟨?_, ?_, rfl, rfl, hnodup, fun r hr => ⟨?_, ?_⟩, rfl, ?_, ?_⟩ ?_
  · intro id hid
    cases hid
  · intro r hr
    cases hr
  · exact List.mem_append_right _ (List.mem_map_of_mem hr)
  · intro e he hid
    exact hfresh r hr (hid ▸ h.issued e he)
  · intro e _
    simp [Transaction.start, not_touches_nil]
  · show List.Perm [] _
    rw [List.filter_eq_nil_iff.mpr fun e _ => by simp [Transaction.start, not_touches_nil]]
    exact List.Perm.refl _
  · intro j other hj hother r hr r' hr' hid
    exact hfresh r hr (hid ▸ ((h.sessions j other hother).fresh r' hr').1)

omit [DecidableEq ι] in
theorem indexed_remove (h : TxSound c i tx) (r old : ObservationRecord) (committed : Bool) :
    (tx.remove r old committed).indexed = (tx.remove r old committed).added.flatMap indexRows := by
  show tx.indexed.filter _ = (tx.added.filter _).flatMap indexRows
  rw [h.indexed]
  exact filter_indexRows tx.added fun id => decide (id ≠ old.recordId)

theorem Sound.remove (h : Sound c) {r old : ObservationRecord} (htx : c.sessions i = some tx)
    (hstage : tx.stage = .archived r old) (hcommitted : c.isCommitted old.recordId = true)
    (hlock : c.owner old.recordId = none ∨ c.owner old.recordId = some i) :
    Sound { c.put i (some (tx.remove r old true)) with
      owner := Function.update c.owner old.recordId (some i) } := by
  have hsound := h.sessions i tx htx
  have hmerging := hsound.merging
  rw [hstage] at hmerging
  obtain ⟨hold, hcleared⟩ := cleared_remove h hsound hmerging hcommitted
  have hrecords : (tx.remove r old true).records = tx.records := by
    simp [Transaction.records, Transaction.remove, hstage, Stage.records]
  refine h.put _ c.inserting c.issued (fun id j hj hid => ?_) (fun _ _ _ => id) (fun _ => id)
    ⟨fun id hid => ?_, hsound.keys, indexed_remove hsound r old true,
      hrecords.trans hsound.command, hrecords ▸ hsound.nodup,
      hrecords ▸ hsound.fresh, hcleared⟩ fun j other hj hother r' hr' => ?_
  · rw [Function.update_of_ne ?_ ..]
    · exact hid
    · rintro rfl
      rcases hlock with hlock | hlock <;> rw [hid] at hlock
      · cases hlock
      · exact hj (Option.some.inj hlock)
  · show Function.update c.owner old.recordId (some i) id = some i ∧ _
    by_cases hidold : id = old.recordId
    · exact ⟨by rw [hidold, Function.update_self], old, hold, hidold.symm⟩
    · rw [Function.update_of_ne hidold]
      refine hsound.locks id ?_
      exact (List.mem_append.mp hid).resolve_right fun hmem => hidold (List.mem_singleton.mp hmem)
  · rw [hrecords] at hr'
    exact h.apart i j tx other (Ne.symm hj) htx hother r' hr'

theorem Sound.removeOwn (h : Sound c) {r old : ObservationRecord} (htx : c.sessions i = some tx)
    (hstage : tx.stage = .archived r old) : Sound (c.put i (some (tx.remove r old false))) := by
  have hsound := h.sessions i tx htx
  have hmerging := hsound.merging
  rw [hstage] at hmerging
  have hcleared := cleared_removeOwn hsound hmerging
  have hrecords : (tx.remove r old false).records = tx.records := by
    simp [Transaction.records, Transaction.remove, hstage, Stage.records]
  refine h.put c.owner c.inserting c.issued (fun _ _ _ => id) (fun _ _ _ => id) (fun _ => id)
    ⟨hsound.locks, hsound.keys, indexed_remove hsound r old false,
      hrecords.trans hsound.command, hrecords ▸ hsound.nodup,
      hrecords ▸ hsound.fresh, hcleared⟩ fun j other hj hother r' hr' => ?_
  rw [hrecords] at hr'
  exact h.apart i j tx other (Ne.symm hj) htx hother r' hr'

theorem Sound.add (h : Sound c) {r : ObservationRecord} (htx : c.sessions i = some tx)
    (hstage : tx.stage = .cleared r) (hadmits : c.Admits i tx r) :
    Sound { c.put i (some (tx.add r)) with
      inserting := Function.update c.inserting r.naturalKey (some i) } := by
  have hsound := h.sessions i tx htx
  obtain ⟨-, hview, hkey⟩ := hadmits
  have hmerging := hsound.merging
  rw [hstage] at hmerging
  have hadd := merging_add h hmerging fun e he => (hview e he).2
  have hrecords : (tx.add r).records = tx.records := by
    simp [Transaction.records, Transaction.add, hstage, Stage.records]
  refine h.put c.owner _ c.issued (fun _ _ _ => id) (fun k j hj hk => ?_) (fun _ => id)
    ⟨hsound.locks, fun r' hr' => ?_, ?_, hrecords.trans hsound.command, hrecords ▸ hsound.nodup,
      hrecords ▸ hsound.fresh, hadd⟩ fun j other hj hother r' hr' => ?_
  · rw [Function.update_of_ne ?_ ..]
    · exact hk
    · rintro rfl
      rcases hkey with hkey | hkey <;> rw [hk] at hkey
      · cases hkey
      · exact hj (Option.some.inj hkey)
  · show Function.update c.inserting r.naturalKey (some i) r'.naturalKey = some i
    by_cases hsame : r'.naturalKey = r.naturalKey
    · rw [hsame, Function.update_self]
    · rw [Function.update_of_ne hsame]
      refine hsound.keys r' ((List.mem_append.mp hr').resolve_right fun hmem => hsame ?_)
      rw [List.mem_singleton.mp hmem]
  · show tx.indexed ++ indexRows r = (tx.added ++ [r]).flatMap indexRows
    rw [hsound.indexed, List.flatMap_append]
    simp
  · rw [hrecords] at hr'
    exact h.apart i j tx other (Ne.symm hj) htx hother r' hr'

theorem sessions_release {j : ι} (hj : j ≠ i) : (c.release i).sessions j = c.sessions j :=
  Function.update_of_ne hj ..

theorem owner_release {id : String} {j : ι} (hj : j ≠ i) (h : c.owner id = some j) :
    (c.release i).owner id = some j := by
  show (if c.owner id = some i then none else c.owner id) = some j
  rw [if_neg fun hi => hj (Option.some.inj (h.symm.trans hi)), h]

theorem inserting_release {k : NaturalKey} {j : ι} (hj : j ≠ i) (h : c.inserting k = some j) :
    (c.release i).inserting k = some j := by
  show (if c.inserting k = some i then none else c.inserting k) = some j
  rw [if_neg fun hi => hj (Option.some.inj (h.symm.trans hi)), h]

theorem ne_of_release {j : ι} {other : Transaction} (h : (c.release i).sessions j = some other) :
    j ≠ i := by
  rintro rfl
  have hself : (c.release j).sessions j = none := Function.update_self ..
  rw [hself] at h
  cases h

/-- A transaction that fails leaves nothing behind. -/
theorem Sound.rollback (h : Sound c) : Sound (c.release i) := by
  refine ⟨h.active, h.index, h.history, h.nodup, h.issued, fun j other hj => ?_,
    fun j k tx₁ tx₂ hjk hj hk => ?_⟩
  · have hji := ne_of_release hj
    exact (h.sessions j other (sessions_release hji ▸ hj)).mono rfl rfl
      (fun _ => owner_release hji) (fun _ => inserting_release hji) fun _ => id
  · exact h.apart j k tx₁ tx₂ hjk (sessions_release (ne_of_release hj) ▸ hj)
      (sessions_release (ne_of_release hk) ▸ hk)

/-- A commit continues the log by the records of its command. -/
theorem Sound.commit (h : Sound c) (htx : c.sessions i = some tx) (hstage : tx.stage = .next)
    (hrest : tx.rest = []) : Sound (c.commit i tx) := by
  have hsound := h.sessions i tx htx
  have hlog : (c.commit i tx).log = c.log ++ tx.published := by
    have hcommand := hsound.command
    rw [Transaction.records, hstage, hrest, Stage.records, List.append_nil, List.append_nil]
      at hcommand
    rw [hcommand]
    show (c.committed ++ [tx.command]).flatMap PublishCommand.records = _
    rw [List.flatMap_append]
    exact congrArg (c.log ++ ·) (List.append_nil _)
  have hmerging := hsound.merging
  rw [hstage] at hmerging
  obtain ⟨hadded, hmerges⟩ := hmerging
  have hkeep : ∀ e ∈ c.active, decide (e.recordId ∉ tx.removed) =
      decide (¬ Touches tx.published e.naturalKey) := fun e he => by
    rw [decide_eq_decide, hmerges.removed e he]
    simp
  have hpublished : ∀ r ∈ tx.published, r ∈ tx.records := fun r => mem_records_of_published
  refine ⟨?_, ?_, ?_, ?_, fun r hr => ?_, fun j other hj => ?_, fun j k tx₁ tx₂ hjk hj hk => ?_⟩
  · show c.active.filter _ ++ tx.added = _
    rw [List.filter_congr hkeep, hadded, h.active, hlog]
    exact (currentVersions_append c.log tx.published).symm
  · show c.index.filter _ ++ tx.indexed = (c.active.filter _ ++ tx.added).flatMap indexRows
    rw [List.flatMap_append, hsound.indexed, h.index]
    rw [filter_indexRows c.active fun id => decide (id ∉ tx.removed)]
  · show ((c.history ++ tx.archived).map HistoryRow.recordSnapshot).Perm _
    rw [List.map_append, hlog]
    have harchived := hmerges.archived
    rw [h.active, List.append_nil] at harchived
    exact (h.history.append harchived).trans (replacedVersions_append c.log tx.published).symm
  · rw [hlog, List.map_append]
    refine List.nodup_append.mpr ⟨h.nodup, ?_, ?_⟩
    · refine hsound.nodup.sublist (List.Sublist.map _ ?_)
      exact List.sublist_append_left _ _
    · rintro a ha b hb rfl
      obtain ⟨e, he, rfl⟩ := List.mem_map.mp ha
      obtain ⟨r, hr, hid⟩ := List.mem_map.mp hb
      exact (hsound.fresh r (hpublished r hr)).2 e he hid.symm
  · rw [hlog] at hr
    rcases List.mem_append.mp hr with hold | hmine
    · exact h.issued r hold
    · exact (hsound.fresh r (hpublished r hmine)).1
  · have hji : j ≠ i := ne_of_release hj
    have hj' : c.sessions j = some other := sessions_release hji ▸ hj
    have hother := h.sessions j other hj'
    refine ⟨fun id hid => ?_, fun r hr => inserting_release hji (hother.keys r hr),
      hother.indexed, hother.command, hother.nodup, fun r hr => ?_, ?_⟩
    · obtain ⟨howner, e, he, hide⟩ := hother.locks id hid
      refine ⟨owner_release hji howner, e, mem_view.mpr (.inl ⟨he, fun hremoved => ?_⟩), hide⟩
      have hmine := (hsound.locks _ hremoved).1
      rw [hide, howner] at hmine
      exact hji (Option.some.inj hmine)
    · refine ⟨(hother.fresh r hr).1, fun e he => ?_⟩
      rw [hlog] at he
      rcases List.mem_append.mp he with hold | hmine
      · exact (hother.fresh r hr).2 e hold
      · exact h.apart i j tx other (Ne.symm hji) htx hj' e (hpublished e hmine) r hr
    · rw [hlog]
      exact hother.merging.commit h (Ne.symm hji) htx hj' hadded hmerges
  · exact h.apart j k tx₁ tx₂ hjk (sessions_release (ne_of_release hj) ▸ hj)
      (sessions_release (ne_of_release hk) ▸ hk)

theorem Sound.does {e : Event ι} (h : Sound c) (hdoes : Does c e c') : Sound c' := by
  cases hdoes with
  | begin hidle hnodup hfresh => exact h.begin hnodup hfresh
  | found htx hstage hrest hold hkey =>
      have hmerging := (h.sessions _ _ htx).merging
      rw [hstage] at hmerging
      have hknown := merging_found h hmerging hold hkey
      refine h.advance htx ?_ rfl rfl rfl rfl rfl
        ⟨hmerging.1, ⟨hmerging.2.removed, hmerging.2.archived⟩, hknown⟩
      simp [Transaction.records, hstage, hrest, Stage.records]
  | absent htx hstage hrest hnone =>
      have hmerging := (h.sessions _ _ htx).merging
      rw [hstage] at hmerging
      refine h.advance htx ?_ rfl rfl rfl rfl rfl ?_
      · simp [Transaction.records, hstage, hrest, Stage.records]
      · cases merging_absent hmerging hnone with
        | absent hnew hadded hmerges => exact .absent hnew hadded ⟨hmerges.removed, hmerges.archived⟩
        | own hold hkey hadded hmerges =>
            exact .own hold hkey hadded ⟨hmerges.removed, hmerges.archived⟩
        | taken hold hkey hnew hadded hmerges =>
            exact .taken hold hkey hnew hadded ⟨hmerges.removed, hmerges.archived⟩
        | lost he hkey hnew hadded hmerges =>
            exact .lost he hkey hnew hadded ⟨hmerges.removed, hmerges.archived⟩
  | archive htx hstage =>
      rename_i historyId
      have hmerging := (h.sessions _ _ htx).merging
      rw [hstage] at hmerging
      obtain ⟨hadded, hmerges, hknown⟩ := hmerging
      refine h.advance htx ?_ rfl rfl rfl rfl rfl ⟨hadded, merges_archive hmerges historyId, hknown⟩
      simp [Transaction.records, hstage, Stage.records]
  | remove htx hstage hcommitted hlock => exact h.remove htx hstage hcommitted hlock
  | removeOwn htx hstage hcommitted => exact h.removeOwn htx hstage
  | add htx hstage hadmits => exact h.add htx hstage hadmits
  | commit htx hstage hrest => exact h.commit htx hstage hrest
  | rollback htx => exact h.rollback

/-- Every run of the events from empty tables. -/
abbrev ServerRun : List (Event ι) → Server ι → Prop :=
  Trace.Run (fun c => c = Server.initial) fun c e c' => step c e = some c'

theorem serverRun_of_exec {es : List (Event ι)}
    (hexec : Trace.exec step es Server.initial = some c) : ServerRun (es.reverse ++ []) c := by
  refine (Trace.Run.of_exec (P := fun _ _ => True) (.start ?_) hexec fun _ _ _ => trivial).imp
    fun _ _ _ hstep => hstep.1
  rfl

/-- However the publications interleave, and whichever of them fail, the committed tables are
those of the committed commands one after the other: one active version of each natural key,
the one of the command that committed last; every version that was replaced in the history
once; and of the index the rows of the active records. -/
theorem publications_are_serial {es : List (Event ι)} {c : Server ι} (h : ServerRun es c) :
    (∀ k, c.active.filter (fun r => decide (r.naturalKey = k)) = (lastPublished c.log k).toList) ∧
    (c.history.map HistoryRow.recordSnapshot).Perm (replacedVersions c.log) ∧
    c.index = c.active.flatMap indexRows := by
  have hsound : Sound c := by
    refine Trace.Run.invariant_of_state (I := Sound) (p := fun _ => True) ?_ ?_ h
      fun _ _ => trivial
    · rintro c rfl
      exact sound_initial
    · intro c e c' hc _ hstep
      exact hc.does (step_does hstep)
  refine ⟨fun k => ?_, hsound.history, hsound.index⟩
  rw [hsound.active]
  exact filter_currentVersions c.log k

def segmentRecord (recordId : String) (segmentStartMs : ℤ) : ObservationRecord where
  recordId
  tenantId := "tenant_default"
  videoId := "vid_1"
  analysisJobId := "job_1"
  analysisScale := .defaultSegment
  segmentStartMs
  segmentEndMs := segmentStartMs + 60000
  observedStartTime := Iso.DateTime.utc 0
  observedEndTime := Iso.DateTime.utc 60000000
  cameraId := "cam_1"
  locationId := "loc_1"
  staticDescriptionText := "a gate"
  dynamicDescriptionText := "a van arrives"
  tags := ["van"]
  attributes := "{}"
  accessPolicyId := "policy_1"
  securityLevel := .internal

def publishCommand (records : List ObservationRecord) : PublishCommand :=
  ⟨"pub_1", "job_1", records, "superseded"⟩

/-- Two publications replace one record: the second one finds it gone and fails. -/
theorem publications_are_serial_race : ∃ (es : List (Event Bool)) (c : Server Bool),
    ServerRun es c ∧ c.active.length = 2 ∧ c.history.length = 1 ∧
      (c.history.map HistoryRow.recordSnapshot).Perm (replacedVersions c.log) := by
  have hexec : (Trace.exec step
      [.begin true (publishCommand [segmentRecord "obs_a" 0]) (0, false, 0), .select true, .add true,
        .commit true, .begin false (publishCommand [segmentRecord "obs_b" 0,
          segmentRecord "obs_c" 60000]) (0, false, 0), .select false, .archive false "hist_1",
        .begin true (publishCommand [segmentRecord "obs_d" 0]) (0, false, 0), .select true,
        .archive true "hist_2", .remove false, .add false, .select false, .add false, .commit false,
        .remove true, .rollback true]
      (Server.initial : Server Bool)).any
        (fun c => decide (c.active.length = 2 ∧ c.history.length = 1)) = true := by decide +kernel
  obtain ⟨c, hc, hstate⟩ := (Option.any_eq_true ..).mp hexec
  obtain ⟨hactive, hhistory⟩ := of_decide_eq_true hstate
  exact ⟨_, c, serverRun_of_exec hc, hactive, hhistory,
    (publications_are_serial (serverRun_of_exec hc)).2.1⟩

end CctvMemory.Publication.Postgres
