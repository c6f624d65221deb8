import CctvMemory.Search.Expiry

/-!
# Idle expiry and the last use

The same runs, with the time of the last accepted start, refine or facets
request of each context written down (`lastUse`), and the time of the last one
that refreshed the row (`lastRefresh`). Every access refreshes, says the
contract; the code refreshes on start and refine and only reads on facets.

* `followsUse_iff`: in every reachable state a request is refused for idleness
  as its last use says, unless the last use since the last refresh was a facets
  request and the idle time from the refresh is over.
* `facets_does_not_refresh`: a context used every four minutes that is refused
  as idle for five.
-/

namespace CctvMemory.Search

open CctvMemory.Authorization

/-! ## Uses -/

/-- The context an answered request uses. -/
def Request.uses (env : RequestEnv) : Request → Option String
  | .start _ _ => some env.contextId
  | .refine contextId _ => some contextId
  | .facets contextId => some contextId
  | _ => none

structure Usage where
  world : World
  clock : ℤ
  lastUse : String → Option ℤ
  lastRefresh : String → Option ℤ

section Steps

variable (eng : Engine) (digest : ScopePayload → String) (cfg : SearchConfig)

/-- The times after a request: an answered one puts `now` at its context. -/
def note (result : Except ServiceError Response) (target : Option String) (now : ℤ)
    (times : String → Option ℤ) (id : String) : Option ℤ :=
  match result with
  | .error _ => times id
  | .ok _ => if target = some id then some now else times id

def use (s : Usage) (env : RequestEnv) (principalId : String) (req : Request) : Usage :=
  let result := handle eng digest cfg env principalId req s.world
  { world := result.2
    clock := env.now
    lastUse := note result.1 (req.uses env) env.now s.lastUse
    lastRefresh := note result.1 (req.refreshes env) env.now s.lastRefresh }

inductive UsageStep (s : Usage) : Event → Usage → Prop where
  | request (env : RequestEnv) (principalId : String) (req : Request) : s.clock ≤ env.now →
      UsageStep s (.request env principalId req) (use eng digest cfg s env principalId req)
  | change (e : Event) : (∀ env principalId req, e ≠ .request env principalId req) →
      UsageStep s e { s with world := step eng digest cfg s.world e }

/-- Any database; the stored contexts were last used when their rows say. -/
def Stored (s : Usage) : Prop :=
  s.lastUse = lastAccess s.world ∧ s.lastRefresh = lastAccess s.world ∧
    ∀ id t, lastAccess s.world id = some t → t ≤ s.clock

/-- Idle time, in microseconds. -/
def idleTime : ℤ := cfg.contextIdleSeconds * Iso.second

/-- The next request on the context is not refused for idleness within the idle
time of the last use, and is refused after it. -/
def FollowsUse (s : Usage) (env : RequestEnv) (principalId id : String) (req : Request) : Prop :=
  ∀ u, s.lastUse id = some u →
    (env.now ≤ u + idleTime cfg →
      (handle eng digest cfg env principalId req s.world).1 ≠ .error idleExpired) ∧
    (u + idleTime cfg < env.now →
      ∃ e, (handle eng digest cfg env principalId req s.world).1 = .error e)

/-- Nothing but idleness would keep the request from the context: its principal
may search, owns it, has its bound scope, and it is active and within its time
to live. -/
def OnlyIdle (w : World) (env : RequestEnv) (principalId id : String) : Prop :=
  ∃ scope c, scopeFor digest w principalId = .ok scope ∧
    Capability.observationSearch ∈ scope.capabilities ∧ w.contexts.get? id = some c ∧
    c.principalId = scope.principalId ∧ c.authorizedScopeHash = scope.scopeHash ∧
    c.status = .active ∧ env.now ≤ c.expiresAt

/-- The idle time is over since the last refresh, but not since the last use. -/
def FacetsSince (s : Usage) (now : ℤ) (id : String) : Prop :=
  ∃ t u, s.lastRefresh id = some t ∧ s.lastUse id = some u ∧ t + idleTime cfg < now ∧
    now ≤ u + idleTime cfg

end Steps

/-! ## The row and the refresh -/

/-- Rows hold their last refresh, which is no later than the last use. -/
structure Refreshed (s : Usage) : Prop where
  rows : s.lastRefresh = lastAccess s.world
  used : ∀ id t, s.lastRefresh id = some t → ∃ u, s.lastUse id = some u ∧ t ≤ u
  past : ∀ id u, s.lastUse id = some u → u ≤ s.clock

section Run

variable {eng : Engine} {digest : ScopePayload → String} {cfg : SearchConfig} {s s' : Usage}

theorem Refreshed.stored (h : Stored s) : Refreshed s where
  rows := h.2.1
  used id t ht := ⟨t, by rw [h.1, ← h.2.1, ht], le_refl t⟩
  past id u hu := h.2.2 id u (h.1 ▸ hu)

/-- A request that refreshes a row uses it. -/
theorem Request.uses_of_refreshes {env : RequestEnv} {req : Request} {id : String}
    (h : req.refreshes env = some id) : req.uses env = some id := by
  cases req with
  | start sessionId r => exact h
  | refine contextId r => exact h
  | facets contextId => cases h
  | close contextId => cases h
  | details ids includeLocator => cases h

theorem Refreshed.use (h : Refreshed s) {env : RequestEnv} {principalId : String} {req : Request}
    (hclock : s.clock ≤ env.now) :
    Refreshed (use eng digest cfg s env principalId req) := by
  unfold Search.use
  rcases hresult : handle eng digest cfg env principalId req s.world with ⟨e | resp, w'⟩
  · obtain ⟨rfl, -⟩ := handle_error hresult
    exact ⟨h.rows, h.used, fun id u hu => (h.past id u hu).trans hclock⟩
  · obtain ⟨scope, -, hserve⟩ := handle_ok hresult
    constructor
    · funext id
      show (if req.refreshes env = some id then some env.now else s.lastRefresh id) = _
      rw [serve_lastAccess hserve, h.rows]
    · intro id t ht
      change (if req.refreshes env = some id then some env.now else s.lastRefresh id) = some t at ht
      show ∃ u, (if req.uses env = some id then some env.now else s.lastUse id) = some u ∧ t ≤ u
      by_cases huses : req.uses env = some id
      · refine ⟨env.now, if_pos huses, ?_⟩
        split at ht
        · cases ht
          exact le_refl _
        · obtain ⟨u, hu, hle⟩ := h.used id t ht
          exact hle.trans ((h.past id u hu).trans hclock)
      · rw [if_neg fun hrefreshes => huses (Request.uses_of_refreshes hrefreshes)] at ht
        rw [if_neg huses]
        exact h.used id t ht
    · intro id u hu
      change (if req.uses env = some id then some env.now else s.lastUse id) = some u at hu
      split at hu
      · cases hu
        exact le_refl _
      · exact (h.past id u hu).trans hclock

theorem Refreshed.step (h : Refreshed s) {e : Event}
    (hstep : UsageStep eng digest cfg s e s') : Refreshed s' := by
  cases hstep with
  | request env principalId req hclock => exact h.use hclock
  | change _ hother =>
      refine ⟨?_, h.used, h.past⟩
      funext id
      show s.lastRefresh id = lastAccess (Search.step eng digest cfg s.world e) id
      unfold lastAccess
      rw [step_contexts_of_not_request hother, h.rows]
      rfl

theorem refreshed_of_run {es : List Event}
    (h : Trace.Run Stored (UsageStep eng digest cfg) es s) : Refreshed s := by
  apply Trace.Run.invariant_of_state (p := fun _ => True) _ _ h
  · exact fun _ _ => trivial
  · exact fun s hstored => Refreshed.stored hstored
  · intro s e t hrefreshed _ hstep
    exact hrefreshed.step hstep

/-- Refused for idleness: nothing else in the way, and the row too old. -/
theorem handle_idle_iff {env : RequestEnv} {principalId id : String} {req : Request} {w : World}
    (hreq : req.context? = some id) :
    (handle eng digest cfg env principalId req w).1 = .error idleExpired
      ↔ OnlyIdle digest w env principalId id ∧
        ∃ t, lastAccess w id = some t ∧ t + idleTime cfg < env.now := by
  constructor
  · intro h
    have hresult : handle eng digest cfg env principalId req w = (.error idleExpired, _) :=
      Prod.ext h rfl
    obtain ⟨-, hscope | ⟨scope, w₁, hscope, hserve⟩⟩ := handle_error hresult
    · exact absurd rfl (scopeFor_error_kind hscope)
    · obtain ⟨hcap, w₂, hgate⟩ := serve_gate hreq hserve rfl
      obtain ⟨c, hstored, howner, hbound, hactive, hfresh, hidle⟩ :=
        activeContext_idle_iff.mp (congrArg Prod.fst hgate)
      refine ⟨⟨scope, c, hscope, hcap, hstored, howner, hbound, hactive, hfresh⟩,
        c.lastAccessedAt, ?_, hidle⟩
      unfold lastAccess
      rw [hstored]
      rfl
  · rintro ⟨⟨scope, c, hscope, hcap, hstored, howner, hbound, hactive, hfresh⟩, t, ht, hidle⟩
    unfold lastAccess at ht
    rw [hstored] at ht
    cases ht
    have hgate : ((activeContext cfg env scope id).exec w).1 = .error idleExpired :=
      activeContext_idle_iff.mpr ⟨c, hstored, howner, hbound, hactive, hfresh, hidle⟩
    have hserve : (serve eng cfg env scope req).exec w = (.error idleExpired, _) :=
      serve_of_gate hreq hcap (Prod.ext hgate rfl)
    unfold handle
    rw [hscope]
    show (inSession (serve eng cfg env scope req) w).1 = _
    unfold inSession
    rw [hserve]

/-- In every state that a run reaches, from any database, and for every next
request on a context: idle expiry follows its last use exactly unless that was
a facets request after a refresh that is too long ago. -/
theorem followsUse_iff {es : List Event} (h : Trace.Run Stored (UsageStep eng digest cfg) es s)
    (env : RequestEnv) (principalId id : String) (req : Request)
    (hreq : req.context? = some id) :
    FollowsUse eng digest cfg s env principalId id req
      ↔ ¬ (OnlyIdle digest s.world env principalId id ∧ FacetsSince cfg s env.now id) := by
  have hrefreshed := refreshed_of_run h
  constructor
  · rintro hfollows ⟨honly, t, u, ht, hu, hlate, hearly⟩
    refine (hfollows u hu).1 hearly ((handle_idle_iff hreq).mpr ⟨honly, t, ?_, hlate⟩)
    rw [← hrefreshed.rows]
    exact ht
  · intro hnot u hu
    constructor
    · intro hearly hidle
      obtain ⟨honly, t, ht, hlate⟩ := (handle_idle_iff hreq).mp hidle
      rw [← hrefreshed.rows] at ht
      exact hnot ⟨honly, t, u, ht, hu, hlate, hearly⟩
    · intro hlate
      rcases hresult : handle eng digest cfg env principalId req s.world with ⟨e | resp, w'⟩
      · exact ⟨e, rfl⟩
      · obtain ⟨scope, -, hserve⟩ := handle_ok hresult
        obtain ⟨c, hadmitted⟩ := serve_admitted hreq hserve
        exfalso
        have hrow : s.lastRefresh id = some c.lastAccessedAt := by
          rw [hrefreshed.rows]
          unfold lastAccess
          rw [hadmitted.stored]
          rfl
        obtain ⟨u', hu', hle⟩ := hrefreshed.used id _ hrow
        rw [hu] at hu'
        cases hu'
        have hused := hadmitted.live.used
        unfold idleTime at hlate
        omega

end Run

/-! ## Every four minutes -/

theorem note_answered {result : Except ServiceError Response} {resp : Response}
    {target : Option String} {now : ℤ} {times : String → Option ℤ} {id : String}
    (h : result = .ok resp) (htarget : target = some id) :
    note result target now times id = some now := by
  subst h
  exact if_pos htarget

theorem stored_emptyArchive :
    Stored ⟨emptyArchive, 0, lastAccess emptyArchive, lastAccess emptyArchive⟩ :=
  ⟨rfl, rfl, fun id t ht => by cases ht⟩

/-- After a search alone, the next request is judged by the search. -/
theorem search_follows_use : ∃ es s,
    Trace.Run Stored (UsageStep wordEngine policyDigest defaultSearchConfig) es s ∧
      FollowsUse wordEngine policyDigest defaultSearchConfig s (atSecond 240) "user_watchman" "ctx_1"
        (.facets "ctx_1") := by
  have hsearch : Trace.Run Stored (UsageStep wordEngine policyDigest defaultSearchConfig) _ _ :=
    (Trace.Run.start stored_emptyArchive).next (UsageStep.request (atSecond 0) "user_watchman"
      (.start none (staticSearch "red")) (by decide))
  refine ⟨_, _, hsearch, (followsUse_iff hsearch (atSecond 240) "user_watchman" "ctx_1"
    (.facets "ctx_1") rfl).mpr ?_⟩
  rintro ⟨-, t, u, ht, hu, hlate, hearly⟩
  have hsame : t = u := Option.some.inj (ht.symm.trans hu)
  omega

def watchedOnce : World :=
  run wordEngine policyDigest defaultSearchConfig
    [.request (atSecond 0) "user_watchman" (.start none (staticSearch "red"))] emptyArchive

theorem answered_after_four_minutes :
    (handle wordEngine policyDigest defaultSearchConfig (atSecond 240) "user_watchman"
      (.facets "ctx_1") watchedOnce).1 = .ok (.facets (buildFacets [])) := by
  decide +kernel

theorem refused_after_eight_minutes :
    (handle wordEngine policyDigest defaultSearchConfig (atSecond 480) "user_watchman"
      (.facets "ctx_1") (handle wordEngine policyDigest defaultSearchConfig (atSecond 240)
        "user_watchman" (.facets "ctx_1") watchedOnce).2).1 = .error idleExpired := by
  decide +kernel

/-- A search, facets four minutes later, and facets again four minutes after
that: refused as idle for more than five. -/
theorem facets_does_not_refresh : ∃ es s,
    Trace.Run Stored (UsageStep wordEngine policyDigest defaultSearchConfig) es s ∧
      s.lastUse "ctx_1" = some (240 * Iso.second) ∧
      ¬ FollowsUse wordEngine policyDigest defaultSearchConfig s (atSecond 480) "user_watchman"
        "ctx_1" (.facets "ctx_1") := by
  have hsearch : Trace.Run Stored (UsageStep wordEngine policyDigest defaultSearchConfig) _ _ :=
    (Trace.Run.start stored_emptyArchive).next (UsageStep.request (atSecond 0) "user_watchman"
      (.start none (staticSearch "red")) (by decide))
  have hfacets := hsearch.next (UsageStep.request (atSecond 240) "user_watchman"
    (.facets "ctx_1") (by decide))
  refine ⟨_, _, hfacets, note_answered answered_after_four_minutes rfl, ?_⟩
  intro hfollows
  exact (hfollows _ (note_answered answered_after_four_minutes rfl)).1 (by decide)
    refused_after_eight_minutes

end CctvMemory.Search
