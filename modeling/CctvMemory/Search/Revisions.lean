import CctvMemory.Library.Clients
import CctvMemory.Search.Expiry

/-!
# The revision limit among concurrent refine requests

A refine request is one transaction of several statements. Under read committed
each statement sees what others have committed by then, and what the request
writes is seen by others once it commits. So the request is a program of reads,
the count among them, that ends with the insert and its commit.

* `refineRequest_alone`: with nobody in between, the program is the request.
* `revisions_within_limit`: the limit holds as long as a count that finds room
  finds it for the requests already past their count too.
* `two_counts_overrun`: seven revisions, two requests that count before either
  commits, nine revisions.
-/

namespace CctvMemory.Search

open Act (Amid Clients Client)
open CctvMemory.Authorization
open CctvMemory.Publication (ObservationRecord)

/-! ## Statements -/

/-- What a statement did to the limit: a count that found room, an insert. -/
inductive RevisionMark where
  | counted
  | inserted
deriving DecidableEq

abbrev RefineAct (α : Type) := Act ServiceError World RevisionMark α

/-- A statement that reads. One that raises ends the request, and its session
rolls back. -/
def look {α : Type} (f : World → Except ServiceError α) : RefineAct α :=
  Act.txn fun w => match f w with
    | .ok a => .ok (a, w, [])
    | .error e => .error e

/-- A reading part of the service, as one statement. -/
def read {α : Type} (x : Session α) : RefineAct α := look fun w => (x.exec w).1

/-- `_enforce_revision_limit`. -/
def countStatement (cfg : SearchConfig) (contextId : String) : RefineAct Unit :=
  Act.txn fun w => match ((enforceRevisionLimit cfg contextId).exec w).1 with
    | .ok u => .ok (u, w, [.counted])
    | .error e => .error e

/-- What a refine request writes, and its answer. -/
def storeRefinement (env : RequestEnv) (scope : AuthorizedScope) (contextId : String)
    (req : RefineRequest) (base : SearchRevision) (ordered : Scores)
    (records : List ObservationRecord) : Session SearchResponse := do
  let revision ← persistRevision env contextId (some base.revisionId) req.op.value ordered records
  replaceDefaultRevision env contextId revision.revisionId
  let results := toResults ordered records
  auditQuery scope contextId results
  pure (respond contextId revision results)

/-- The writes and their commit. -/
def commitStatement (x : Session SearchResponse) : RefineAct Response :=
  Act.txn fun w => match x.exec w with
    | (.ok r, w') => .ok (.search r, w', [.inserted])
    | (.error e, _) => .error e

def requestScope (digest : ScopePayload → String) (principalId : String) :
    RefineAct AuthorizedScope := do
  let p ← look fun w => resolvePrincipal w principalId
  let policies ← look fun w => .ok w.policies.rows
  let locations ← look fun w =>
    .ok (listOrdered CameraLocation.locationId 10000 w.locations.rows)
  let cameras ← look fun w => .ok (listOrdered CameraDevice.cameraId 10000 w.cameras.rows)
  pure (computeAuthorizedScope digest p policies locations cameras)

/-- A refine request under its scope, statement by statement. -/
def refineStatements (eng : Engine) (cfg : SearchConfig) (env : RequestEnv)
    (scope : AuthorizedScope) (contextId : String) (req : RefineRequest) : RefineAct Response := do
  read (requireCapability scope .observationSearch)
  let _ ← read (activeContext cfg env scope contextId)
  let base ← read (baseRevision contextId req.baseRevisionId)
  let candidates ← look fun w =>
    .ok (listCandidates w base.revisionId cfg.maxCandidatesPerRevision)
  let records ← look fun w =>
    .ok (getAuthorizedActiveByIds w.store (candidates.map SearchCandidate.recordId) scope)
  let ordered ← look fun w =>
    .ok (sliceTo (req.topK cfg.maxTopK) (applyRefineOp eng cfg w records req))
  countStatement cfg contextId
  commitStatement (storeRefinement env scope contextId req base ordered records)

def refineRequest (eng : Engine) (digest : ScopePayload → String) (cfg : SearchConfig)
    (env : RequestEnv) (principalId contextId : String) (req : RefineRequest) :
    RefineAct Response := do
  let scope ← requestScope digest principalId
  refineStatements eng cfg env scope contextId req

/-! ## A request alone -/

section Alone

variable {eng : Engine} {digest : ScopePayload → String} {cfg : SearchConfig} {env : RequestEnv}
  {contextId : String} {req : RefineRequest} {w : World}

theorem exec_look_bind {α β : Type} (f : World → Except ServiceError α) (k : α → RefineAct β)
    (w : World) : Act.exec (look f >>= k) w = match f w with
      | .ok a => Act.exec (k a) w
      | .error e => (.error e, w) := by
  unfold look
  rw [Act.exec_bind, Act.exec_txn]
  cases f w <;> rfl

theorem exec_column_bind {α β : Type} (f : World → α) (k : α → RefineAct β) (w : World) :
    Act.exec ((look fun w => .ok (f w)) >>= k) w = Act.exec (k (f w)) w :=
  exec_look_bind _ k w

/-- A part that reads, and the rest of its session. -/
theorem inSession_bind {α β : Type} {x : Session α}
    (hreads : ∀ a w', x.exec w = (.ok a, w') → w' = w) (k : α → Session β) :
    inSession (x >>= k) w = match (x.exec w).1 with
      | .ok a => inSession (k a) w
      | .error e => (.error e, w) := by
  unfold inSession
  rw [exec_bind]
  rcases hx : x.exec w with ⟨e | a, w'⟩
  · rfl
  · rw [hreads a w' hx]

theorem exec_commitStatement (x : Session SearchResponse) (w : World) :
    Act.exec (commitStatement x) w
      = inSession (x >>= fun r => (pure (.search r) : Session Response)) w := by
  unfold commitStatement inSession
  rw [Act.exec_txn, exec_bind]
  rcases x.exec w with ⟨e | r, w'⟩
  · rfl
  · rfl

theorem exec_count_bind {β : Type} (k : Unit → RefineAct β) (w : World) :
    Act.exec (countStatement cfg contextId >>= k) w
      = match ((enforceRevisionLimit cfg contextId).exec w).1 with
        | .ok u => Act.exec (k u) w
        | .error e => (.error e, w) := by
  unfold countStatement
  rw [Act.exec_bind, Act.exec_txn]
  cases ((enforceRevisionLimit cfg contextId).exec w).1 <;> rfl

theorem exec_refineStatements (scope : AuthorizedScope) :
    Act.exec (refineStatements eng cfg env scope contextId req) w
      = inSession (serve eng cfg env scope (.refine contextId req)) w := by
  show _ = inSession (refineSearch eng cfg env scope contextId req >>= fun r =>
    (pure (.search r) : Session Response)) w
  unfold refineStatements refineSearch read
  simp only [bind_assoc]
  rw [exec_look_bind, inSession_bind fun u w' h => requireCapability_ok h]
  rcases ((requireCapability scope .observationSearch).exec w).1 with e | u
  · rfl
  dsimp only
  rw [exec_look_bind, inSession_bind fun c w' h => (activeContext_ok h).2]
  rcases ((activeContext cfg env scope contextId).exec w).1 with e | c
  · rfl
  dsimp only
  rw [exec_look_bind, inSession_bind fun base w' h => (baseRevision_ok h).2]
  rcases ((baseRevision contextId req.baseRevisionId).exec w).1 with e | base
  · rfl
  dsimp only
  rw [exec_column_bind, exec_column_bind, exec_column_bind, exec_count_bind,
    inSession_bind (x := get) fun w₁ w' h => (Prod.mk.inj h).2.symm]
  show _ = inSession (enforceRevisionLimit cfg contextId >>= _) w
  rw [inSession_bind fun u w' h => enforceRevisionLimit_ok h]
  rcases ((enforceRevisionLimit cfg contextId).exec w).1 with e | u
  · rfl
  dsimp only
  rw [exec_commitStatement]
  unfold storeRefinement
  simp only [bind_assoc]
  rfl

theorem exec_requestScope (principalId : String) :
    Act.exec (requestScope digest principalId) w = (scopeFor digest w principalId, w) := by
  unfold requestScope scopeFor
  rw [exec_look_bind]
  rcases resolvePrincipal w principalId with e | p
  · rfl
  dsimp only
  rw [exec_column_bind, exec_column_bind, exec_column_bind]
  rfl

/-- With nobody in between, the statements are the request. -/
theorem refineRequest_alone (principalId : String) :
    Act.exec (refineRequest eng digest cfg env principalId contextId req) w
      = handle eng digest cfg env principalId (.refine contextId req) w := by
  unfold refineRequest handle
  rw [Act.exec_bind, exec_requestScope]
  rcases scopeFor digest w principalId with e | scope
  · rfl
  · exact exec_refineStatements scope

end Alone

/-! ## Room and credit -/

def storedRevisions (contextId : String) (w : World) : ℕ :=
  w.revisions.rows.countP fun r => decide (r.contextId = contextId)

/-- Past its count and not yet at its commit. -/
def noted (counted : Bool) : List RevisionMark → Bool
  | [] => counted
  | .counted :: out => noted true out
  | .inserted :: out => noted false out

/-- A statement of a request on the context counts, or it adds no more
revisions than the request has found room for. -/
def Rationed (contextId : String) (counted : Bool) (w : World)
    (next : World × List RevisionMark) : Prop :=
  next = (w, [.counted]) ∨
    storedRevisions contextId next.1 + (noted counted next.2).toNat
      ≤ storedRevisions contextId w + counted.toNat

section Rations

variable {eng : Engine} {digest : ScopePayload → String} {cfg : SearchConfig} {env : RequestEnv}
  {contextId : String} {req : RefineRequest} {w w' : World}

abbrev Frugal {α : Type} (contextId : String) (x : RefineAct α) (counted : Bool)
    (Q : α → Bool → Prop) : Prop :=
  Amid noted (Rationed contextId) x counted Q fun _ _ => True

theorem frugal_look {α : Type} {f : World → Except ServiceError α} {counted : Bool}
    {Q : α → Bool → Prop} (h : ∀ a, Q a counted) : Frugal contextId (look f) counted Q := by
  apply Amid.txn
  intro w
  cases f w with
  | ok a => exact ⟨Or.inr (le_refl _), h a⟩
  | error e => exact ⟨Or.inr (le_refl _), trivial⟩

theorem frugal_countStatement {Q : Unit → Bool → Prop} (h : ∀ u, Q u true) :
    Frugal contextId (countStatement cfg contextId) false Q := by
  apply Amid.txn
  intro w
  cases ((enforceRevisionLimit cfg contextId).exec w).1 with
  | ok u => exact ⟨Or.inl rfl, h u⟩
  | error e => exact ⟨Or.inr (le_refl _), trivial⟩

theorem storedRevisions_persist {parent : Option String} {op : String} {ordered : Scores}
    {pool : List ObservationRecord} {rev : SearchRevision}
    (h : (persistRevision env contextId parent op ordered pool).exec w = (.ok rev, w')) :
    storedRevisions contextId w' = storedRevisions contextId w + 1 := by
  unfold persistRevision at h
  obtain ⟨_, w₁, hcreate, h⟩ := bind_ok h
  obtain ⟨-, rfl⟩ := pure_ok h
  unfold createRevision at hcreate
  replace hcreate := get_bind_ok hcreate
  split at hcreate
  · cases hcreate
  · rename_i revisions hins
    split at hcreate
    · cases hcreate
    · cases hcreate
      unfold storedRevisions
      dsimp only
      rw [(Keyed.Table.insert?_eq_some_iff.mp hins).2, List.countP_append]
      simp [revisionRow]

theorem storedRevisions_storeRefinement {scope : AuthorizedScope} {base : SearchRevision}
    {ordered : Scores} {records : List ObservationRecord} {resp : SearchResponse}
    (h : (storeRefinement env scope contextId req base ordered records).exec w = (.ok resp, w')) :
    storedRevisions contextId w' = storedRevisions contextId w + 1 := by
  unfold storeRefinement at h
  obtain ⟨rev, w₁, hpersist, h⟩ := bind_ok h
  obtain ⟨_, w₂, hdefault, h⟩ := bind_ok h
  obtain ⟨_, w₃, haudit, h⟩ := bind_ok h
  obtain ⟨-, rfl⟩ := pure_ok h
  cases hdefault
  cases haudit
  show storedRevisions contextId w₁ = _
  exact storedRevisions_persist hpersist

theorem frugal_commitStatement {scope : AuthorizedScope} {base : SearchRevision}
    {ordered : Scores} {records : List ObservationRecord} :
    Frugal contextId
      (commitStatement (storeRefinement env scope contextId req base ordered records)) true
      fun _ _ => True := by
  apply Amid.txn
  intro w
  rcases hstore : (storeRefinement env scope contextId req base ordered records).exec w
    with ⟨e | resp, w'⟩
  · exact ⟨Or.inr (le_refl _), trivial⟩
  · exact ⟨Or.inr (storedRevisions_storeRefinement hstore).le, trivial⟩

theorem frugal_requestScope (principalId : String) {Q : AuthorizedScope → Bool → Prop}
    (h : ∀ scope, Q scope false) : Frugal contextId (requestScope digest principalId) false Q := by
  unfold requestScope
  apply Amid.bind
  apply frugal_look
  intro p
  apply Amid.bind
  apply frugal_look
  intro policies
  apply Amid.bind
  apply frugal_look
  intro locations
  apply Amid.bind
  apply frugal_look
  intro cameras
  exact Amid.pure (h _)

/-- A refine request inserts one revision, after a count that found room. -/
theorem frugal_refineRequest (principalId : String) :
    Frugal contextId (refineRequest eng digest cfg env principalId contextId req) false
      fun _ _ => True := by
  unfold refineRequest
  apply Amid.bind
  apply frugal_requestScope
  intro scope
  unfold refineStatements read
  apply Amid.bind
  apply frugal_look
  intro _
  apply Amid.bind
  apply frugal_look
  intro context
  apply Amid.bind
  apply frugal_look
  intro base
  apply Amid.bind
  apply frugal_look
  intro candidates
  apply Amid.bind
  apply frugal_look
  intro records
  apply Amid.bind
  apply frugal_look
  intro ordered
  apply Amid.bind
  apply frugal_countStatement
  intro _
  exact frugal_commitStatement

end Rations

/-! ## Clients -/

/-- The clients of one context; the note says who is past its count. -/
abbrev RefineClients (ι : Type) :=
  Clients ι World RevisionMark Bool (Except ServiceError Response)

inductive RefineEvent (ι : Type) where
  | request (i : ι) (env : RequestEnv) (principalId : String) (req : RefineRequest)
  | statement (i : ι)
  | other (w : World)

section System

variable (eng : Engine) (digest : ScopePayload → String) (cfg : SearchConfig) (contextId : String)
  {ι : Type}

/-- A request is started, one statement of one request runs, or the database
changes otherwise, with no more revisions of the context than before. -/
def refineStep [DecidableEq ι] (s : RefineClients ι) : RefineEvent ι → Option (RefineClients ι)
  | .request i env principalId req =>
      s.begin i (refineRequest eng digest cfg env principalId contextId req).run false
  | .statement i => s.call noted i
  | .other w =>
      if storedRevisions contextId w ≤ storedRevisions contextId s.shared then
        some { s with shared := w }
      else none

/-- No request under way, and no more revisions than the limit. -/
def WithinLimit (s : RefineClients ι) : Prop :=
  (∀ i, s.stage i = .idle) ∧ storedRevisions contextId s.shared ≤ cfg.maxRevisionsPerContext

/-- The next statement of `i` is a count that finds room. -/
def findsRoom (s : RefineClients ι) (i : ι) : Bool :=
  match s.stage i with
  | .running (.atomic next _) _ => decide (.counted ∈ (next s.shared).2)
  | _ => false

/-- Requests past their count and not yet at their commit. -/
def pastCount [Fintype ι] (s : RefineClients ι) : ℕ := s.load Bool.toNat

/-- A count that finds room finds it for the requests past their count too. -/
def CountsPending [Fintype ι] (s : RefineClients ι) : RefineEvent ι → Prop
  | .statement i => findsRoom s i = true →
      storedRevisions contextId s.shared + pastCount s < cfg.maxRevisionsPerContext
  | _ => True

instance [Fintype ι] (s : RefineClients ι) (e : RefineEvent ι) :
    Decidable (CountsPending cfg contextId s e) :=
  match e with
  | .request _ _ _ _ => .isTrue trivial
  | .statement i => inferInstanceAs (Decidable (findsRoom s i = true →
      storedRevisions contextId s.shared + pastCount s < cfg.maxRevisionsPerContext))
  | .other _ => .isTrue trivial

abbrev CountingRun [DecidableEq ι] [Fintype ι] : List (RefineEvent ι) → RefineClients ι → Prop :=
  Trace.Run (WithinLimit cfg contextId) fun s e s' =>
    refineStep eng digest cfg contextId s e = some s' ∧ CountsPending cfg contextId s e

end System

/-- Requests keep to their rations, and there is room for all of them. -/
structure Provided {ι : Type} [Fintype ι] (cfg : SearchConfig) (contextId : String)
    (s : RefineClients ι) : Prop where
  frugal : s.Disciplined noted (Rationed contextId) fun _ _ => True
  room : storedRevisions contextId s.shared + pastCount s ≤ cfg.maxRevisionsPerContext

namespace Provided

variable {ι : Type} [Fintype ι] {eng : Engine} {digest : ScopePayload → String}
  {cfg : SearchConfig} {contextId : String} {s s' : RefineClients ι}

theorem start (h : WithinLimit cfg contextId s) : Provided cfg contextId s where
  frugal := Clients.Disciplined.of_idle h.1
  room := by
    unfold pastCount
    rw [Clients.load_idle h.1]
    exact h.2

theorem request [DecidableEq ι] (h : Provided cfg contextId s) {i : ι} {env : RequestEnv}
    {principalId : String} {req : RefineRequest}
    (hstep : s.begin i (refineRequest eng digest cfg env principalId contextId req).run false
      = some s') : Provided cfg contextId s' := by
  obtain ⟨-, hshared, hstage⟩ := Clients.begin_eq_some hstep
  constructor
  · apply h.frugal.begin _ hstep
    apply Act.Prog.Amid.imp (frugal_refineRequest principalId)
    intro r counted _
    exact trivial
  · have hload := Clients.load_update (f := Bool.toNat) hstage
    have hweigh := Client.weigh_of_le Bool.toNat
      (refineRequest eng digest cfg env principalId contextId req).run false
    have hroom := h.room
    unfold pastCount at hroom ⊢
    rw [hshared]
    simp only [Bool.toNat_false] at hweigh
    omega

/-- One statement: a count takes one of the places that are left, any other
statement keeps within those its request has. -/
theorem statement [DecidableEq ι] (h : Provided cfg contextId s) {i : ι}
    (hstep : s.call noted i = some s')
    (hcounts : CountsPending cfg contextId s (.statement i)) : Provided cfg contextId s' := by
  obtain ⟨next, k, counted, hstage, hshared, hafter, hrationed, hfrugal⟩ := h.frugal.call hstep
  have hload := Clients.load_update (f := Bool.toNat) hafter
  have hweigh := Client.weigh_of_le Bool.toNat (k s.shared) (noted counted (next s.shared).2)
  have hbefore : (s.stage i).weigh Bool.toNat = counted.toNat := by
    rw [hstage]
    rfl
  have hroom := h.room
  constructor
  · exact hfrugal
  · unfold pastCount at hroom ⊢
    rw [hshared]
    rcases hrationed with hcount | hkeeps
    · have hfinds : findsRoom s i = true := by
        unfold findsRoom
        rw [hstage]
        dsimp only
        rw [hcount]
        rfl
      have hleft := hcounts hfinds
      unfold pastCount at hleft
      have hone : (noted counted (next s.shared).2).toNat ≤ 1 := Bool.toNat_le _
      rw [hcount] at hone hweigh hload ⊢
      dsimp only at hone hweigh hload ⊢
      omega
    · omega

theorem step [DecidableEq ι] (h : Provided cfg contextId s) {e : RefineEvent ι}
    (hstep : refineStep eng digest cfg contextId s e = some s')
    (hcounts : CountsPending cfg contextId s e) : Provided cfg contextId s' := by
  cases e with
  | request i env principalId req => exact h.request hstep
  | statement i => exact h.statement hstep hcounts
  | other w =>
      change (if storedRevisions contextId w ≤ storedRevisions contextId s.shared then
        some { s with shared := w } else none) = some s' at hstep
      split at hstep
      · rename_i hle
        cases hstep
        exact ⟨h.frugal, (Nat.add_le_add_right hle _).trans h.room⟩
      · cases hstep

end Provided

/-- In every run of any number of clients whose counts reckon with the requests
past theirs, the context never has more revisions than the limit. -/
theorem revisions_within_limit {ι : Type} [DecidableEq ι] [Fintype ι] {eng : Engine}
    {digest : ScopePayload → String} {cfg : SearchConfig} {contextId : String}
    {es : List (RefineEvent ι)} {s : RefineClients ι}
    (h : CountingRun eng digest cfg contextId es s) :
    storedRevisions contextId s.shared ≤ cfg.maxRevisionsPerContext := by
  have hprovided : Provided cfg contextId s := by
    apply Trace.Run.invariant_of_state (p := fun _ => True) _ _ h
    · exact fun _ _ => trivial
    · exact fun s hstart => Provided.start hstart
    · intro s e t hs _ hstep
      exact hs.step hstep.1 hstep.2
  exact (Nat.le_add_right _ _).trans hprovided.room

/-! ## Two counts, one place -/

def narrow : RefineRequest := ⟨"rev_1", .narrowByTags, []⟩

def drawing (revisionId : String) : RequestEnv := { atSecond 1 with revisionId := revisionId }

/-- A search and six refinements of it: seven revisions. -/
def refinedSix : World :=
  run wordEngine policyDigest defaultSearchConfig
    (.request (atSecond 0) "user_watchman" (.start none (staticSearch "red")) ::
      ["rev_2", "rev_3", "rev_4", "rev_5", "rev_6", "rev_7"].map fun id =>
        .request (drawing id) "user_watchman" (.refine "ctx_1" narrow)) emptyArchive

def refining (i : Fin 2) (revisionId : String) : RefineEvent (Fin 2) :=
  .request i (drawing revisionId) "user_watchman" narrow

def unoccupied : RefineClients (Fin 2) := ⟨refinedSix, fun _ => .idle⟩

/-- The instance behind the numerals that name the two requests. -/
local instance twoRequests : NeZero 2 := ⟨two_ne_zero⟩

/-- Eleven statements up to the count, and the commit. -/
def bothCount : List (RefineEvent (Fin 2)) :=
  [refining 0 "rev_8", refining 1 "rev_9"] ++ List.replicate 11 (.statement 0) ++
    List.replicate 11 (.statement 1) ++ [.statement 0, .statement 1]

def oneAfterTheOther : List (RefineEvent (Fin 2)) :=
  [refining 0 "rev_8"] ++ List.replicate 12 (.statement 0) ++ [refining 1 "rev_9"] ++
    List.replicate 11 (.statement 1)

theorem withinLimit_unoccupied : WithinLimit defaultSearchConfig "ctx_1" unoccupied :=
  ⟨fun _ => rfl, by decide +kernel⟩

/-- Seven revisions and a limit of eight: two requests count before either of
them commits, both find room, and nine revisions are stored. -/
theorem two_counts_overrun : ∃ (es : List (RefineEvent (Fin 2))) (s : RefineClients (Fin 2)),
    Trace.Run (WithinLimit defaultSearchConfig "ctx_1") (fun s e s' =>
      refineStep wordEngine policyDigest defaultSearchConfig "ctx_1" s e = some s') es s ∧
      storedRevisions "ctx_1" s.shared = defaultSearchConfig.maxRevisionsPerContext + 1 := by
  have hstored : (Trace.exec (refineStep wordEngine policyDigest defaultSearchConfig "ctx_1")
      bothCount unoccupied).map (fun s => storedRevisions "ctx_1" s.shared) = some 9 := by
    decide +kernel
  obtain ⟨s, hexec, hnine⟩ := Option.map_eq_some_iff.mp hstored
  have hrun := Trace.Run.of_exec (P := fun _ _ => True) (Trace.Run.start withinLimit_unoccupied)
    hexec fun _ _ _ => trivial
  exact ⟨_, s, hrun.imp fun _ _ _ h => h.1, hnine⟩

/-- A step, if its count reckons with the requests past theirs. -/
def reckonedStep (s : RefineClients (Fin 2)) (e : RefineEvent (Fin 2)) :
    Option (RefineClients (Fin 2)) :=
  if CountsPending defaultSearchConfig "ctx_1" s e then
    refineStep wordEngine policyDigest defaultSearchConfig "ctx_1" s e
  else none

theorem reckonedStep_eq_some {s s' : RefineClients (Fin 2)} {e : RefineEvent (Fin 2)}
    (h : reckonedStep s e = some s') :
    refineStep wordEngine policyDigest defaultSearchConfig "ctx_1" s e = some s' ∧
      CountsPending defaultSearchConfig "ctx_1" s e := by
  unfold reckonedStep at h
  split at h
  · rename_i hcounts
    exact ⟨h, hcounts⟩
  · cases h

/-- The same requests one after the other: the second one finds no room. -/
theorem eight_and_no_more : ∃ (es : List (RefineEvent (Fin 2))) (s : RefineClients (Fin 2)),
    CountingRun wordEngine policyDigest defaultSearchConfig "ctx_1" es s ∧
      storedRevisions "ctx_1" s.shared = 8 ∧
      storedRevisions "ctx_1" s.shared ≤ defaultSearchConfig.maxRevisionsPerContext := by
  have hstored : (Trace.exec reckonedStep oneAfterTheOther unoccupied).map
      (fun s => storedRevisions "ctx_1" s.shared) = some 8 := by
    decide +kernel
  obtain ⟨s, hexec, height⟩ := Option.map_eq_some_iff.mp hstored
  have hrun := Trace.Run.of_exec (P := fun _ _ => True) (Trace.Run.start withinLimit_unoccupied)
    hexec fun _ _ _ => trivial
  have hcounting : CountingRun wordEngine policyDigest defaultSearchConfig "ctx_1" _ s :=
    hrun.imp fun _ _ _ h => reckonedStep_eq_some h.1
  exact ⟨_, s, hcounting, height, revisions_within_limit hcounting⟩

end CctvMemory.Search
