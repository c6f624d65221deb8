import CctvMemory.Search.Confinement

/-!
# What requests do to a context

`_active_context` lets a request through when the context is its owner's, bound
to the scope computed now, and live: active, within its time to live and not
idle. One lemma says when a request on a context is answered, one when it is
refused with the expired error, and one what any request leaves of a stored
context row: the row itself, the row of an answered refine, or a closed one.
-/

namespace CctvMemory.Search

open Keyed (Table)
open CctvMemory.Publication (ObservationRecord)
open CctvMemory.Authorization

/-- Active, and neither past its time to live nor idle too long. -/
structure Live (cfg : SearchConfig) (now : ℤ) (c : SearchContext) : Prop where
  active : c.status = .active
  fresh : now ≤ c.expiresAt
  used : now ≤ c.lastAccessedAt + cfg.contextIdleSeconds * Iso.second

/-- The context a refine or facets request is on. -/
def Request.context? : Request → Option String
  | .refine contextId _ => some contextId
  | .facets contextId => some contextId
  | _ => none

/-! ## Session steps that fail -/

theorem bind_error {α β : Type} {x : Session α} {f : α → Session β} {w w' : World}
    {e : ServiceError} (h : (x >>= f).exec w = (.error e, w')) :
    x.exec w = (.error e, w') ∨
      ∃ a w₁, x.exec w = (.ok a, w₁) ∧ (f a).exec w₁ = (.error e, w') := by
  rw [exec_bind] at h
  split at h
  · rename_i a w₁ hx
    exact Or.inr ⟨a, w₁, hx, h⟩
  · rename_i e' w₁ hx
    cases h
    exact Or.inl hx

theorem get_bind_error {α : Type} {f : World → Session α} {w w' : World} {e : ServiceError}
    (h : ((get : Session World) >>= f).exec w = (.error e, w')) :
    (f w).exec w = (.error e, w') := by
  rwa [exec_bind] at h

/-- A step that never answers with the expired error. -/
def NeverExpired {α : Type} (x : Session α) : Prop :=
  ∀ w w' e, x.exec w = (.error e, w') → e.kind ≠ .contextExpired

section NeverExpired

variable {α β : Type}

theorem NeverExpired.pure (a : α) : NeverExpired (Pure.pure a : Session α) := by
  intro w w' e h
  cases h

theorem NeverExpired.throw {e : ServiceError} (h : e.kind ≠ .contextExpired) :
    NeverExpired (MonadExcept.throw e : Session α) := by
  intro w w' e' h'
  cases h'
  exact h

theorem NeverExpired.bind {x : Session α} {f : α → Session β} (hx : NeverExpired x)
    (hf : ∀ a, NeverExpired (f a)) : NeverExpired (x >>= f) := by
  intro w w' e h
  rcases bind_error h with h | ⟨a, w₁, -, h⟩
  · exact hx w w' e h
  · exact hf a w₁ w' e h

theorem NeverExpired.get_bind {f : World → Session α} (hf : ∀ w, NeverExpired (f w)) :
    NeverExpired ((get : Session World) >>= f) := by
  intro w w' e h
  exact hf w w w' e (get_bind_error h)

theorem neverExpired_modify (f : World → World) :
    NeverExpired (modify f : Session Unit) := by
  intro w w' e h
  cases h

theorem neverExpired_requireCapability (scope : AuthorizedScope) (c : Capability) :
    NeverExpired (requireCapability scope c) := by
  unfold requireCapability
  split
  · exact NeverExpired.pure _
  · exact NeverExpired.throw (by simp)

theorem neverExpired_baseRevision (contextId revisionId : String) :
    NeverExpired (baseRevision contextId revisionId) := by
  apply NeverExpired.get_bind
  intro w
  split
  · exact NeverExpired.throw (by simp)
  · split
    · exact NeverExpired.throw (by simp)
    · exact NeverExpired.pure _

theorem neverExpired_enforceRevisionLimit (cfg : SearchConfig) (contextId : String) :
    NeverExpired (enforceRevisionLimit cfg contextId) := by
  apply NeverExpired.get_bind
  intro w
  split
  · exact NeverExpired.throw (by simp)
  · exact NeverExpired.pure _

theorem neverExpired_createRevision (revision : SearchRevision) (cs : List SearchCandidate) :
    NeverExpired (createRevision revision cs) := by
  apply NeverExpired.get_bind
  intro w
  split
  · exact NeverExpired.throw (by simp)
  · split
    · exact NeverExpired.throw (by simp)
    · intro w w' e h
      cases h

theorem neverExpired_persistRevision (env : RequestEnv) (contextId : String)
    (parent : Option String) (op : String) (ordered : Scores) (pool : List ObservationRecord) :
    NeverExpired (persistRevision env contextId parent op ordered pool) := by
  apply NeverExpired.bind (neverExpired_createRevision _ _)
  intro _
  exact NeverExpired.pure _

end NeverExpired

/-! ## The gate -/

section Gate

variable {cfg : SearchConfig} {env : RequestEnv} {scope : AuthorizedScope} {contextId : String}
  {w w' : World}

/-- The context a request was let through to. -/
structure Admitted (cfg : SearchConfig) (env : RequestEnv) (scope : AuthorizedScope)
    (contextId : String) (w : World) (c : SearchContext) : Prop where
  stored : w.contexts.get? contextId = some c
  owner : c.principalId = scope.principalId
  bound : c.authorizedScopeHash = scope.scopeHash
  live : Live cfg env.now c

theorem activeContext_admitted {c : SearchContext}
    (h : (activeContext cfg env scope contextId).exec w = (.ok c, w')) :
    Admitted cfg env scope contextId w c := by
  obtain ⟨hstored, -⟩ := activeContext_ok h
  unfold activeContext at h
  replace h := get_bind_ok h
  rw [hstored] at h
  simp only at h
  split at h
  · cases h
  rename_i howner
  split at h
  · obtain ⟨_, _, -, h⟩ := bind_ok h
    cases h
  rename_i hbound
  split at h
  · cases h
  rename_i hactive
  split at h
  · obtain ⟨_, _, -, h⟩ := bind_ok h
    cases h
  rename_i hfresh
  split at h
  · obtain ⟨_, _, -, h⟩ := bind_ok h
    cases h
  rename_i hused
  rw [not_not] at howner hbound hactive
  exact ⟨hstored, howner, hbound, hactive, not_lt.mp hfresh, not_lt.mp hused⟩

/-- An expired error is for the owner, and for another scope or a dead context. -/
theorem activeContext_expired {e : ServiceError}
    (h : (activeContext cfg env scope contextId).exec w = (.error e, w'))
    (hkind : e.kind = .contextExpired) :
    ∃ c, w.contexts.get? contextId = some c ∧ c.principalId = scope.principalId ∧
      (c.authorizedScopeHash ≠ scope.scopeHash ∨ ¬ Live cfg env.now c) := by
  unfold activeContext at h
  replace h := get_bind_error h
  cases hstored : w.contexts.get? contextId with
  | none =>
      rw [hstored] at h
      cases h
      cases hkind
  | some c =>
      rw [hstored] at h
      simp only at h
      split at h
      · cases h
        cases hkind
      rename_i howner
      rw [not_not] at howner
      refine ⟨c, rfl, howner, ?_⟩
      split at h
      · rename_i hbound
        exact Or.inl hbound
      right
      rintro ⟨hactive, hfresh, hused⟩
      rw [if_neg (not_not.mpr hactive), if_neg (not_lt.mpr hfresh),
        if_neg (not_lt.mpr hused)] at h
      cases h

/-- The error of a context that was not used for too long. -/
def idleExpired : ServiceError := ⟨.contextExpired, "context idle-expired"⟩

theorem message_of_idle {α : Type} {message : String}
    (h : (Except.error ⟨.contextExpired, message⟩ : Except ServiceError α) = .error idleExpired) :
    message = "context idle-expired" := by
  cases h
  rfl

/-- The gate answers `idleExpired` to the owner of an active context, under its
bound scope and within its time to live, when it was not used for too long. -/
theorem activeContext_idle_iff :
    ((activeContext cfg env scope contextId).exec w).1 = .error idleExpired
      ↔ ∃ c, w.contexts.get? contextId = some c ∧ c.principalId = scope.principalId ∧
        c.authorizedScopeHash = scope.scopeHash ∧ c.status = .active ∧ env.now ≤ c.expiresAt ∧
        c.lastAccessedAt + cfg.contextIdleSeconds * Iso.second < env.now := by
  unfold activeContext
  rw [exec_get_bind]
  cases hstored : w.contexts.get? contextId with
  | none =>
      constructor
      · intro h
        cases h
      · rintro ⟨c, hc, -⟩
        cases hc
  | some c =>
      dsimp only
      constructor
      · intro h
        refine ⟨c, rfl, ?_⟩
        split at h
        · cases h
        rename_i howner
        split at h
        · exact absurd (message_of_idle h) (by decide)
        rename_i hbound
        split at h
        · exact absurd (message_of_idle h) (by decide)
        rename_i hactive
        split at h
        · exact absurd (message_of_idle h) (by decide)
        rename_i hfresh
        split at h
        · rename_i hidle
          exact ⟨not_not.mp howner, not_not.mp hbound, not_not.mp hactive, not_lt.mp hfresh, hidle⟩
        · cases h
      · rintro ⟨_, ⟨⟩, howner, hbound, hactive, hfresh, hidle⟩
        rw [if_neg (not_not.mpr howner), if_neg (not_not.mpr hbound),
          if_neg (not_not.mpr hactive), if_neg (not_lt.mpr hfresh), if_pos hidle]
        rfl

end Gate

/-! ## Answers and refusals -/

section Requests

variable {eng : Engine} {digest : ScopePayload → String} {cfg : SearchConfig} {env : RequestEnv}
  {principalId contextId : String} {req : Request} {w w' : World}

theorem serve_admitted {scope : AuthorizedScope} {resp : Response}
    (hreq : req.context? = some contextId)
    (h : (serve eng cfg env scope req).exec w = (.ok resp, w')) :
    ∃ c, Admitted cfg env scope contextId w c := by
  cases req with
  | refine id r =>
      cases hreq
      obtain ⟨_, _, h, -⟩ := bind_ok h
      obtain ⟨-, c, _, _, _, _, hactive, -⟩ := refineSearch_steps h
      exact ⟨c, activeContext_admitted hactive⟩
  | facets id =>
      cases hreq
      obtain ⟨_, _, h, -⟩ := bind_ok h
      unfold facets at h
      obtain ⟨_, w₁, hcap, h⟩ := bind_ok h
      rw [requireCapability_ok hcap] at h
      obtain ⟨c, _, hactive, -⟩ := bind_ok h
      exact ⟨c, activeContext_admitted hactive⟩
  | start sessionId r => cases hreq
  | close id => cases hreq
  | details ids includeLocator => cases hreq

/-- An expired error of a refine or facets request comes from the gate. -/
theorem serve_gate {scope : AuthorizedScope} {e : ServiceError}
    (hreq : req.context? = some contextId)
    (h : (serve eng cfg env scope req).exec w = (.error e, w'))
    (hkind : e.kind = .contextExpired) :
    Capability.observationSearch ∈ scope.capabilities ∧
      ∃ w₁, (activeContext cfg env scope contextId).exec w = (.error e, w₁) := by
  cases req with
  | refine id r =>
      cases hreq
      rcases bind_error h with h | ⟨_, _, -, h⟩
      · unfold refineSearch at h
        rcases bind_error h with h | ⟨_, w₁, hcap, h⟩
        · exact absurd hkind (neverExpired_requireCapability _ _ _ _ _ h)
        have hmember := capable_of_requireCapability hcap
        rw [requireCapability_ok hcap] at h
        rcases bind_error h with h | ⟨c, w₂, -, h⟩
        · exact ⟨hmember, w', h⟩
        -- past the gate nothing raises that a context expired
        refine absurd hkind (NeverExpired.bind (neverExpired_baseRevision _ _) ?_ _ _ _ h)
        intro base
        apply NeverExpired.get_bind
        intro w
        apply NeverExpired.bind (neverExpired_enforceRevisionLimit _ _)
        intro _
        apply NeverExpired.bind (neverExpired_persistRevision _ _ _ _ _ _)
        intro revision
        apply NeverExpired.bind (neverExpired_modify _)
        intro _
        apply NeverExpired.bind (neverExpired_modify _)
        intro _
        exact NeverExpired.pure _
      · cases h
  | facets id =>
      cases hreq
      rcases bind_error h with h | ⟨_, _, -, h⟩
      · unfold facets at h
        rcases bind_error h with h | ⟨_, w₁, hcap, h⟩
        · exact absurd hkind (neverExpired_requireCapability _ _ _ _ _ h)
        have hmember := capable_of_requireCapability hcap
        rw [requireCapability_ok hcap] at h
        rcases bind_error h with h | ⟨c, w₂, -, h⟩
        · exact ⟨hmember, w', h⟩
        split at h
        · cases h
        · cases h
      · cases h
  | start sessionId r => cases hreq
  | close id => cases hreq
  | details ids includeLocator => cases hreq

/-- What the gate refuses is refused. -/
theorem serve_of_gate {scope : AuthorizedScope} {e : ServiceError}
    (hreq : req.context? = some contextId)
    (hcap : Capability.observationSearch ∈ scope.capabilities)
    (hgate : (activeContext cfg env scope contextId).exec w = (.error e, w')) :
    (serve eng cfg env scope req).exec w = (.error e, w') := by
  have hcapable : (requireCapability scope .observationSearch).exec w = (.ok (), w) := by
    unfold requireCapability
    rw [if_pos hcap]
    rfl
  cases req with
  | refine id r =>
      cases hreq
      have hrefine : (refineSearch eng cfg env scope contextId r).exec w = (.error e, w') := by
        unfold refineSearch
        rw [exec_bind, hcapable]
        show (activeContext cfg env scope contextId >>= _ : Session SearchResponse).exec w = _
        rw [exec_bind, hgate]
      show ((refineSearch eng cfg env scope contextId r >>= _ : Session Response)).exec w = _
      rw [exec_bind, hrefine]
  | facets id =>
      cases hreq
      have hfacets : (facets cfg env scope contextId).exec w = (.error e, w') := by
        unfold facets
        rw [exec_bind, hcapable]
        show (activeContext cfg env scope contextId >>= _ : Session Facets).exec w = _
        rw [exec_bind, hgate]
      show ((facets cfg env scope contextId >>= _ : Session Response)).exec w = _
      rw [exec_bind, hfacets]
  | start sessionId r => cases hreq
  | close id => cases hreq
  | details ids includeLocator => cases hreq

end Requests

/-! ## Context rows -/

/-- A context row with a new default revision, accessed now. -/
def refreshed (env : RequestEnv) (c : SearchContext) : SearchContext :=
  { c with defaultRevisionId := some env.revisionId, lastAccessedAt := env.now }

def closedRow (c : SearchContext) : SearchContext := { c with status := .closed }

/-- What an answered request leaves of a stored context row. -/
def rowAfter (env : RequestEnv) (req : Request) (c : SearchContext) : SearchContext :=
  match req with
  | .refine contextId _ =>
      if contextId = c.contextId then refreshed env c else c
  | .close contextId => if contextId = c.contextId then closedRow c else c
  | _ => c

section Rows

variable {eng : Engine} {digest : ScopePayload → String} {cfg : SearchConfig} {env : RequestEnv}
  {scope : AuthorizedScope} {id : String} {c : SearchContext} {w w' : World}

theorem createContext_row {context : SearchContext} {u : Unit}
    (h : (createContext context).exec w = (.ok u, w')) :
    w.contexts.get? context.contextId = none ∧
      w'.contexts.get? id = if context.contextId = id then some context
        else w.contexts.get? id := by
  unfold createContext at h
  replace h := get_bind_ok h
  split at h
  · cases h
  · rename_i contexts hins
    cases h
    exact ⟨(Table.insert?_eq_some_iff.mp hins).1, Table.get?_insert? hins id⟩

theorem persistRevision_contexts {contextId op : String} {parent : Option String}
    {ordered : Scores} {pool : List ObservationRecord} {rev : SearchRevision}
    (h : (persistRevision env contextId parent op ordered pool).exec w = (.ok rev, w')) :
    rev.revisionId = env.revisionId ∧ w'.contexts = w.contexts := by
  unfold persistRevision at h
  obtain ⟨_, w₁, hcreate, h⟩ := bind_ok h
  obtain ⟨rfl, rfl⟩ := pure_ok h
  refine ⟨rfl, ?_⟩
  unfold createRevision at hcreate
  replace hcreate := get_bind_ok hcreate
  split at hcreate
  · cases hcreate
  · split at hcreate
    · cases hcreate
    · cases hcreate
      rfl

theorem replaceDefaultRevision_row {contextId : String} {u : Unit}
    (h : (replaceDefaultRevision env contextId env.revisionId).exec w = (.ok u, w')) :
    w'.contexts.get? id = if contextId = id then (w.contexts.get? id).map (refreshed env)
      else w.contexts.get? id := by
  cases h
  exact Table.get?_modify w.contexts contextId (refreshed env) (fun _ => rfl) id

theorem startSearch_row {sessionId : Option String} {req : StartRequest} {resp : SearchResponse}
    (h : (startSearch eng cfg env scope sessionId req).exec w = (.ok resp, w')) :
    w.contexts.get? env.contextId = none ∧
      w'.contexts.get? id = if env.contextId = id then
        some (refreshed env (newContext cfg env scope sessionId)) else w.contexts.get? id := by
  obtain ⟨-, w₁, w₂, w₃, rev, hctx, hrev, hdef, haudit, rfl⟩ := startSearch_steps h
  obtain ⟨hfree, hcreated⟩ : w.contexts.get? env.contextId = none ∧ w₁.contexts.get? id =
      if env.contextId = id then some (newContext cfg env scope sessionId)
      else w.contexts.get? id := createContext_row hctx
  obtain ⟨hrevision, hcontexts⟩ := persistRevision_contexts hrev
  rw [hrevision] at hdef
  refine ⟨hfree, ?_⟩
  cases haudit
  show w₃.contexts.get? id = _
  rw [replaceDefaultRevision_row hdef, hcontexts, hcreated]
  by_cases hid : env.contextId = id
  · simp only [if_pos hid, Option.map_some]
  · simp only [if_neg hid]

theorem refineSearch_row {contextId : String} {req : RefineRequest} {resp : SearchResponse}
    (h : (refineSearch eng cfg env scope contextId req).exec w = (.ok resp, w')) :
    w'.contexts.get? id = if contextId = id then (w.contexts.get? id).map (refreshed env)
      else w.contexts.get? id := by
  obtain ⟨-, c, base, w₁, w₂, rev, -, -, hrev, hdef, haudit, rfl⟩ := refineSearch_steps h
  obtain ⟨hrevision, hcontexts⟩ := persistRevision_contexts hrev
  rw [hrevision] at hdef
  cases haudit
  show w₂.contexts.get? id = _
  rw [replaceDefaultRevision_row hdef, hcontexts]

theorem detailsItems_contexts {includeLocator : Bool} {rs : List ObservationRecord}
    {items : List DetailsItem}
    (h : (detailsItems env scope includeLocator rs).exec w = (.ok items, w')) :
    w'.contexts = w.contexts := by
  induction rs generalizing items w with
  | nil =>
      obtain ⟨-, rfl⟩ := pure_ok h
      rfl
  | cons r rs ih =>
      obtain ⟨item, w₁, hitem, h⟩ := bind_ok h
      obtain ⟨rest, w₂, hrest, h⟩ := bind_ok h
      obtain ⟨-, rfl⟩ := pure_ok h
      rw [ih hrest]
      unfold detailsItem at hitem
      obtain ⟨l, w₃, hloc, hitem⟩ := bind_ok hitem
      obtain ⟨-, rfl⟩ := pure_ok hitem
      unfold locatorFor at hloc
      split at hloc
      · unfold buildLocator at hloc
        replace hloc := get_bind_ok hloc
        split at hloc
        · obtain ⟨-, rfl⟩ := pure_ok hloc
          rfl
        · obtain ⟨_, w₄, haudit, hloc⟩ := bind_ok hloc
          obtain ⟨-, rfl⟩ := pure_ok hloc
          cases haudit
          rfl
      · obtain ⟨-, rfl⟩ := pure_ok hloc
        rfl

theorem getDetails_contexts {ids : List String} {includeLocator : Bool}
    {items : List DetailsItem}
    (h : (getDetails env scope ids includeLocator).exec w = (.ok items, w')) :
    w'.contexts = w.contexts := by
  obtain ⟨w₁, event, hitems, haudit⟩ := getDetails_steps h
  cases haudit
  show w₁.contexts = w.contexts
  exact detailsItems_contexts hitems

theorem closeRequest_row {contextId : String} {u : Unit}
    (h : (closeRequest scope contextId).exec w = (.ok u, w')) :
    w'.contexts.get? id = if contextId = id then (w.contexts.get? id).map closedRow
      else w.contexts.get? id := by
  unfold closeRequest at h
  replace h := get_bind_ok h
  split at h
  · cases h
  · split at h
    · cases h
    · cases h
      exact Table.get?_modify w.contexts contextId closedRow (fun _ => rfl) id

/-- An answered request leaves exactly `rowAfter` of a context row. -/
theorem serve_row {req : Request} {resp : Response}
    (h : (serve eng cfg env scope req).exec w = (.ok resp, w'))
    (hc : w.contexts.get? id = some c) :
    w'.contexts.get? id = some (rowAfter env req c) := by
  have hid := Table.key_of_get? hc
  unfold rowAfter
  cases req with
  | start sessionId r =>
      obtain ⟨_, w₁, hserve, hpure⟩ := bind_ok h
      obtain ⟨-, rfl⟩ := pure_ok hpure
      obtain ⟨hfree, hrow⟩ := startSearch_row hserve
      rw [hrow, if_neg, hc]
      rintro rfl
      rw [hfree] at hc
      cases hc
  | refine contextId r =>
      obtain ⟨_, w₁, hserve, hpure⟩ := bind_ok h
      obtain ⟨-, rfl⟩ := pure_ok hpure
      rw [refineSearch_row hserve, hc, ← hid]
      dsimp only
      split <;> rfl
  | facets contextId =>
      obtain ⟨_, w₁, hserve, hpure⟩ := bind_ok h
      obtain ⟨-, rfl⟩ := pure_ok hpure
      rw [(facets_ok hserve).1]
      exact hc
  | close contextId =>
      obtain ⟨_, w₁, hserve, hpure⟩ := bind_ok h
      obtain ⟨-, rfl⟩ := pure_ok hpure
      rw [closeRequest_row hserve, hc, ← hid]
      dsimp only
      split <;> rfl
  | details ids includeLocator =>
      obtain ⟨_, w₁, hserve, hpure⟩ := bind_ok h
      obtain ⟨-, rfl⟩ := pure_ok hpure
      rw [getDetails_contexts hserve]
      exact hc

end Rows

/-! ## One event -/

section Events

variable {eng : Engine} {digest : ScopePayload → String} {cfg : SearchConfig} {env : RequestEnv}
  {principalId id : String} {req : Request} {w w' : World}

/-- An answered request was served under the scope computed for it. -/
theorem handle_ok {resp : Response}
    (h : handle eng digest cfg env principalId req w = (.ok resp, w')) :
    ∃ scope, scopeFor digest w principalId = .ok scope ∧
      (serve eng cfg env scope req).exec w = (.ok resp, w') := by
  unfold handle at h
  split at h
  · cases h
  · rename_i scope hscope
    exact ⟨scope, hscope, inSession_ok h⟩

/-- A refused request leaves the database as it was. -/
theorem handle_error {e : ServiceError}
    (h : handle eng digest cfg env principalId req w = (.error e, w')) :
    w' = w ∧ (scopeFor digest w principalId = .error e ∨
      ∃ scope w₁, scopeFor digest w principalId = .ok scope ∧
        (serve eng cfg env scope req).exec w = (.error e, w₁)) := by
  unfold handle at h
  split at h
  · rename_i hscope
    cases h
    exact ⟨rfl, Or.inl hscope⟩
  · rename_i scope hscope
    unfold inSession at h
    split at h
    · cases h
    · rename_i e' w₁ hserve
      cases h
      exact ⟨rfl, Or.inr ⟨scope, w₁, hscope, hserve⟩⟩

theorem scopeFor_error_kind {e : ServiceError} (h : scopeFor digest w principalId = .error e) :
    e.kind ≠ .contextExpired := by
  unfold scopeFor resolvePrincipal at h
  split at h
  · cases h
    simp
  · split at h
    · cases h
      simp
    · cases h

/-- What a request leaves of a context row. -/
theorem handle_row {c : SearchContext} (hc : w.contexts.get? id = some c) :
    (handle eng digest cfg env principalId req w).2.contexts.get? id
      = some (match (handle eng digest cfg env principalId req w).1 with
        | .ok _ => rowAfter env req c
        | .error _ => c) := by
  rcases h : handle eng digest cfg env principalId req w with ⟨e | resp, w'⟩
  · rw [(handle_error h).1]
    exact hc
  · obtain ⟨scope, -, hserve⟩ := handle_ok h
    exact serve_row hserve hc

/-- Every other event leaves the contexts alone. -/
theorem step_contexts_of_not_request {e : Event}
    (h : ∀ env principalId req, e ≠ .request env principalId req) :
    (step eng digest cfg w e).contexts = w.contexts := by
  cases e with
  | request env principalId req => exact absurd rfl (h env principalId req)
  | publish env cmd => rfl
  | setPrincipals t => rfl
  | setPolicies t => rfl
  | setLocations t => rfl
  | setCameras t => rfl
  | setVectors vectors => rfl

end Events

/-! ## Dead contexts stay dead -/

theorem Live.mono {cfg : SearchConfig} {now now' : ℤ} {c : SearchContext} (h : Live cfg now' c)
    (hle : now ≤ now') : Live cfg now c :=
  ⟨h.active, hle.trans h.fresh, hle.trans h.used⟩

/-- A context that is not live when a request arrives is not live after it. -/
theorem not_live_after {eng : Engine} {digest : ScopePayload → String} {cfg : SearchConfig}
    {env : RequestEnv} {principalId id : String} {req : Request} {w : World} {c : SearchContext}
    {now : ℤ} (hc : w.contexts.get? id = some c) (hdead : ¬ Live cfg now c) (hle : now ≤ env.now) :
    ∃ c', (handle eng digest cfg env principalId req w).2.contexts.get? id = some c' ∧
      ¬ Live cfg env.now c' := by
  refine ⟨_, handle_row hc, ?_⟩
  have hstill : ¬ Live cfg env.now c := fun hlive => hdead (hlive.mono hle)
  rcases h : handle eng digest cfg env principalId req w with ⟨e | resp, w'⟩
  · exact hstill
  · show ¬ Live cfg env.now (rowAfter env req c)
    obtain ⟨scope, -, hserve⟩ := handle_ok h
    unfold rowAfter
    cases req with
    | refine contextId r =>
        dsimp only
        split
        · rename_i hid
          have hlet : ∃ c', Admitted cfg env scope contextId w c' := serve_admitted rfl hserve
          obtain ⟨c', hadmitted⟩ := hlet
          rw [hid, Table.key_of_get? hc] at hadmitted
          rw [Option.some.inj (hc.symm.trans hadmitted.stored)] at hstill
          exact absurd hadmitted.live hstill
        · exact hstill
    | close contextId =>
        dsimp only
        split
        · intro hlive
          cases hlive.active
        · exact hstill
    | start sessionId r => exact hstill
    | facets contextId => exact hstill
    | details ids includeLocator => exact hstill

/-! ## The last access -/

/-- When a context was last accessed, as its row says. -/
def lastAccess (w : World) (id : String) : Option ℤ :=
  (w.contexts.get? id).map SearchContext.lastAccessedAt

/-- The context whose row an answered request refreshes. -/
def Request.refreshes (env : RequestEnv) : Request → Option String
  | .start _ _ => some env.contextId
  | .refine contextId _ => some contextId
  | _ => none

theorem serve_lastAccess {eng : Engine} {cfg : SearchConfig} {env : RequestEnv}
    {scope : AuthorizedScope} {req : Request} {resp : Response} {w w' : World}
    (h : (serve eng cfg env scope req).exec w = (.ok resp, w')) (id : String) :
    lastAccess w' id = if req.refreshes env = some id then some env.now else lastAccess w id := by
  unfold lastAccess
  cases req with
  | start sessionId r =>
      obtain ⟨_, w₁, hserve, hpure⟩ := bind_ok h
      obtain ⟨-, rfl⟩ := pure_ok hpure
      rw [(startSearch_row hserve).2]
      by_cases hid : env.contextId = id
      · simp [Request.refreshes, hid, refreshed]
      · simp [Request.refreshes, hid]
  | refine contextId r =>
      obtain ⟨c, hadmitted⟩ := serve_admitted rfl h
      obtain ⟨_, w₁, hserve, hpure⟩ := bind_ok h
      obtain ⟨-, rfl⟩ := pure_ok hpure
      rw [refineSearch_row hserve]
      by_cases hid : contextId = id
      · subst hid
        simp [Request.refreshes, hadmitted.stored, refreshed]
      · simp [Request.refreshes, hid]
  | facets contextId =>
      obtain ⟨_, w₁, hserve, hpure⟩ := bind_ok h
      obtain ⟨-, rfl⟩ := pure_ok hpure
      rw [(facets_ok hserve).1]
      rfl
  | close contextId =>
      obtain ⟨_, w₁, hserve, hpure⟩ := bind_ok h
      obtain ⟨-, rfl⟩ := pure_ok hpure
      rw [closeRequest_row hserve]
      by_cases hid : contextId = id
      · rw [if_pos hid, Option.map_map]
        rfl
      · rw [if_neg hid]
        rfl
  | details ids includeLocator =>
      obtain ⟨_, w₁, hserve, hpure⟩ := bind_ok h
      obtain ⟨-, rfl⟩ := pure_ok hpure
      rw [getDetails_contexts hserve]
      rfl

end CctvMemory.Search
