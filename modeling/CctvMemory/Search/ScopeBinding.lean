import CctvMemory.Authorization.ScopeHash
import CctvMemory.Search.Expiry

/-!
# A context is bound to the scope it was created under

A context keeps the hash of its creator's scope. The gate compares it with that of
the scope computed now, so that what is compared is the scope itself.

* `handle_scopeChanged_iff`: who is told that the scope changed.
* `scope_binding`: reordered lists, equal hashes, and refine requests after any
  changes.
-/

namespace CctvMemory.Search

open CctvMemory.Authorization

/-- The error of a context that is bound to another scope. -/
def scopeChanged : ServiceError := ⟨.contextExpired, "authorized scope changed; restart search"⟩

/-! ## The gate -/

section Gate

variable {cfg : SearchConfig} {env : RequestEnv} {scope : AuthorizedScope} {contextId : String}
  {w : World}

theorem message_of_scopeChanged {α : Type} {kind : ErrorKind} {message : String}
    (h : (Except.error ⟨kind, message⟩ : Except ServiceError α) = .error scopeChanged) :
    message = "authorized scope changed; restart search" := by
  cases h
  rfl

/-- Only the owner is told, and only where the hashes differ. -/
theorem activeContext_scopeChanged_iff :
    ((activeContext cfg env scope contextId).exec w).1 = .error scopeChanged
      ↔ ∃ c, w.contexts.get? contextId = some c ∧ c.principalId = scope.principalId ∧
        c.authorizedScopeHash ≠ scope.scopeHash := by
  unfold activeContext
  rw [exec_get_bind]
  cases hstored : w.contexts.get? contextId with
  | none =>
      constructor
      · intro h
        cases h
      · rintro ⟨c, hc, -⟩
        cases hc
  | some c =>
      dsimp only
      constructor
      · intro h
        refine ⟨c, rfl, ?_⟩
        split at h
        · exact absurd (message_of_scopeChanged h) (by decide)
        rename_i howner
        split at h
        · rename_i hbound
          exact ⟨not_not.mp howner, hbound⟩
        split at h
        · exact absurd (message_of_scopeChanged h) (by decide)
        split at h
        · exact absurd (message_of_scopeChanged h) (by decide)
        split at h
        · exact absurd (message_of_scopeChanged h) (by decide)
        · cases h
      · rintro ⟨_, ⟨⟩, howner, hbound⟩
        rw [if_neg (not_not.mpr howner), if_pos hbound]
        rfl

end Gate

/-! ## What a context is bound to -/

/-- The context is stored, with this owner and this hash. -/
def BoundTo (w : World) (id principalId hash : String) : Prop :=
  ∃ c, w.contexts.get? id = some c ∧ c.principalId = principalId ∧ c.authorizedScopeHash = hash

section Bound

variable {eng : Engine} {digest : ScopePayload → String} {cfg : SearchConfig} {env : RequestEnv}
  {principalId id owner hash : String} {req : Request} {w w' : World} {scope : AuthorizedScope}

theorem rowAfter_bound (env : RequestEnv) (req : Request) (c : SearchContext) :
    (rowAfter env req c).principalId = c.principalId ∧
      (rowAfter env req c).authorizedScopeHash = c.authorizedScopeHash := by
  unfold rowAfter
  cases req with
  | refine contextId r =>
      dsimp only
      split <;> exact ⟨rfl, rfl⟩
  | close contextId =>
      dsimp only
      split <;> exact ⟨rfl, rfl⟩
  | start sessionId r => exact ⟨rfl, rfl⟩
  | facets contextId => exact ⟨rfl, rfl⟩
  | details ids includeLocator => exact ⟨rfl, rfl⟩

/-- No event changes what a context is bound to. -/
theorem BoundTo.step (h : BoundTo w id owner hash) (e : Event) :
    BoundTo (step eng digest cfg w e) id owner hash := by
  obtain ⟨c, hstored, howner, hhash⟩ := h
  by_cases hrequest : ∃ env principalId req, e = .request env principalId req
  · obtain ⟨env, principalId, req, rfl⟩ := hrequest
    refine ⟨_, handle_row hstored, ?_⟩
    split
    · obtain ⟨hprincipal, hsame⟩ := rowAfter_bound env req c
      exact ⟨hprincipal.trans howner, hsame.trans hhash⟩
    · exact ⟨howner, hhash⟩
  · refine ⟨c, ?_, howner, hhash⟩
    rw [step_contexts_of_not_request fun env principalId req he =>
      hrequest ⟨env, principalId, req, he⟩]
    exact hstored

theorem BoundTo.run (events : List Event) (h : BoundTo w id owner hash) :
    BoundTo (run eng digest cfg events w) id owner hash := by
  induction events generalizing w with
  | nil => exact h
  | cons e events ih => exact ih (h.step e)

/-- The scope of a principal names it. -/
theorem principalId_of_scopeFor (h : scopeFor digest w principalId = .ok scope) :
    scope.principalId = principalId := by
  unfold scopeFor resolvePrincipal at h
  split at h
  · cases h
  · rename_i p hp
    split at h
    · cases h
    · cases h
      show p.principalId = principalId
      exact Keyed.Table.key_of_get? hp

theorem capable_of_scopeFor (h : scopeFor digest w principalId = .ok scope) :
    Capability.observationSearch ∈ scope.capabilities := by
  unfold scopeFor at h
  cases hp : resolvePrincipal w principalId with
  | error e =>
      rw [hp] at h
      cases h
  | ok p =>
      rw [hp] at h
      cases h
      show Capability.observationSearch ∈ capabilitiesFor p
      unfold capabilitiesFor
      cases p.principalType <;> decide

/-- A search creates a context that is bound to the scope of its request. -/
theorem boundTo_of_start {sessionId : Option String} {r : StartRequest} {resp : Response}
    (hscope : scopeFor digest w principalId = .ok scope)
    (h : handle eng digest cfg env principalId (.start sessionId r) w = (.ok resp, w')) :
    BoundTo w' env.contextId principalId scope.scopeHash := by
  obtain ⟨scope', hscope', hserve⟩ := handle_ok h
  obtain rfl : scope = scope' := Except.ok.inj (hscope.symm.trans hscope')
  obtain ⟨_, w₁, hstart, hpure⟩ := bind_ok hserve
  obtain ⟨-, rfl⟩ := pure_ok hpure
  have hrow := (@startSearch_row eng cfg env scope env.contextId w w₁ _ _ _ hstart).2
  rw [if_pos rfl] at hrow
  exact ⟨_, hrow, principalId_of_scopeFor hscope, rfl⟩

/-- The owner of a context is told that its scope changed when the hashes differ. -/
theorem handle_scopeChanged_iff (hbound : BoundTo w id principalId hash)
    (hreq : req.context? = some id) (hscope : scopeFor digest w principalId = .ok scope) :
    (handle eng digest cfg env principalId req w).1 = .error scopeChanged
      ↔ hash ≠ scope.scopeHash := by
  obtain ⟨c, hstored, howner, rfl⟩ := hbound
  have hgate : ((activeContext cfg env scope id).exec w).1 = .error scopeChanged
      ↔ c.authorizedScopeHash ≠ scope.scopeHash := by
    rw [activeContext_scopeChanged_iff]
    constructor
    · rintro ⟨c', hc', -, hne⟩
      rwa [Option.some.inj (hstored.symm.trans hc')]
    · intro hne
      exact ⟨c, hstored, howner.trans (principalId_of_scopeFor hscope).symm, hne⟩
  rw [← hgate]
  constructor
  · intro h
    rcases (handle_error (Prod.ext h rfl)).2 with hnone | ⟨scope', w₁, hscope', hserve⟩
    · rw [hscope] at hnone
      cases hnone
    · obtain rfl := Except.ok.inj (hscope.symm.trans hscope')
      obtain ⟨-, w₂, hrefused⟩ := serve_gate hreq hserve rfl
      rw [hrefused]
  · intro h
    have hserve : (serve eng cfg env scope req).exec w = (.error scopeChanged, _) :=
      serve_of_gate hreq (capable_of_scopeFor hscope) (Prod.ext h rfl)
    unfold handle inSession
    rw [hscope]
    dsimp only
    rw [hserve]

end Bound

/-! ## The binding -/

/-- The check of a refine request of the principal that started the context: the
context is its own, and the request is told that the scope changed exactly when it
is not `created`. -/
structure ChecksScope (eng : Engine) (digest : ScopePayload → String) (cfg : SearchConfig)
    (w : World) (contextId principalId : String) (created : AuthorizedScope) : Prop where
  owned : ∃ c, w.contexts.get? contextId = some c ∧ c.principalId = principalId
  checked : ∀ env r scope, scopeFor digest w principalId = .ok scope →
    ((handle eng digest cfg env principalId (.refine contextId r) w).1 ≠ .error scopeChanged
      ↔ scope = created)

/-- Computed scopes are compared by their hashes. -/
theorem scopeFor_hash_iff {sha256 : ByteArray → String} (h : TellsApart sha256) {w w' : World}
    {principalId : String} {scope scope' : AuthorizedScope}
    (hscope : scopeFor (scopeDigest sha256) w principalId = .ok scope)
    (hscope' : scopeFor (scopeDigest sha256) w' principalId = .ok scope') :
    scope.scopeHash = scope'.scopeHash ↔ scope = scope' := by
  unfold scopeFor at hscope hscope'
  cases hp : resolvePrincipal w principalId with
  | error e =>
      rw [hp] at hscope
      cases hscope
  | ok p =>
      cases hp' : resolvePrincipal w' principalId with
      | error e =>
          rw [hp'] at hscope'
          cases hscope'
      | ok p' =>
          rw [hp] at hscope
          rw [hp'] at hscope'
          cases hscope
          cases hscope'
          exact computeAuthorizedScope_hash_iff h

theorem checksScope {sha256 : ByteArray → String} (h : TellsApart sha256) {eng : Engine}
    {cfg : SearchConfig} {env : RequestEnv} {principalId : String} {sessionId : Option String}
    {r : StartRequest} {resp : Response} {w w₁ : World} {scope : AuthorizedScope}
    (hscope : scopeFor (scopeDigest sha256) w principalId = .ok scope)
    (hstart : handle eng (scopeDigest sha256) cfg env principalId (.start sessionId r) w
      = (.ok resp, w₁)) (events : List Event) :
    ChecksScope eng (scopeDigest sha256) cfg (run eng (scopeDigest sha256) cfg events w₁)
      env.contextId principalId scope := by
  have hbound : BoundTo (run eng (scopeDigest sha256) cfg events w₁) env.contextId principalId
      scope.scopeHash := (boundTo_of_start hscope hstart).run events
  constructor
  · obtain ⟨c, hstored, howner, -⟩ := hbound
    exact ⟨c, hstored, howner⟩
  · intro env' r' scope' hscope'
    rw [ne_eq, handle_scopeChanged_iff hbound rfl hscope', not_not,
      scopeFor_hash_iff h hscope hscope', eq_comm]

/-- The hash of a scope does not depend on the order of its lists; scopes of one hash
agree in each dimension; and whatever happens to the database in between, a refine
request of the principal that started a context passes the check exactly when it has
the scope it had then. -/
theorem scope_binding :
    (∀ sha256 (a b : AuthorizedScope), a.Rearranged b →
      a.computedHash sha256 = b.computedHash sha256) ∧
    ∀ sha256, TellsApart sha256 →
      (∀ a b : AuthorizedScope,
        a.computedHash sha256 = b.computedHash sha256 ↔ a.SameSorted b) ∧
      ∀ eng cfg env principalId sessionId r resp w w₁ scope,
        scopeFor (scopeDigest sha256) w principalId = .ok scope →
        handle eng (scopeDigest sha256) cfg env principalId (.start sessionId r) w
          = (.ok resp, w₁) →
        ∀ events, ChecksScope eng (scopeDigest sha256) cfg
          (run eng (scopeDigest sha256) cfg events w₁) env.contextId principalId scope := by
  refine ⟨fun _ _ _ => scopeHash_perm, fun sha256 h => ⟨fun _ _ => scopeHash_eq_iff h, ?_⟩⟩
  intro eng cfg env principalId sessionId r resp w w₁ scope hscope hstart events
  exact checksScope h hscope hstart events

/-- A stand-in for the hash: the bytes themselves, as characters. -/
def plainSha256 (bytes : ByteArray) : String :=
  String.ofList (bytes.data.toList.map fun b => Char.ofNat b.toNat)

theorem tellsApart_plainSha256 : TellsApart plainSha256 := by
  have hchar : ∀ n : Fin 256, (Char.ofNat n.val).toNat = n.val := by decide +kernel
  have htoChar : Function.Injective fun b : UInt8 => Char.ofNat b.toNat := by
    intro a b h
    have hnat : (Char.ofNat a.toNat).toNat = (Char.ofNat b.toNat).toNat := congrArg Char.toNat h
    rw [hchar ⟨a.toNat, a.toNat_lt⟩, hchar ⟨b.toNat, b.toNat_lt⟩] at hnat
    exact UInt8.toNat_inj.mp hnat
  intro a _ b _ h
  have hdata := List.map_injective_iff.mpr htoChar (String.ofList_injective h)
  exact ByteArray.ext (Array.toList_inj.mp hdata)

/-- The scope of the watchman, and what his search leaves. -/
def watchScope : AuthorizedScope :=
  authorizedScopeFor (scopeDigest plainSha256) emptyArchive watchman

def watchSearch : Except ServiceError Response × World :=
  handle wordEngine (scopeDigest plainSha256) defaultSearchConfig (atSecond 0) "user_watchman"
    (.start none (staticSearch "red")) emptyArchive

theorem watchSearch_answered :
    watchSearch.1 = .ok (.search ⟨"ctx_1", "rev_1", 0, buildFacets [], []⟩) := by
  decide +kernel

/-- What is left of it once the policies are gone. -/
def watchRevoked : World :=
  run wordEngine (scopeDigest plainSha256) defaultSearchConfig
    [.setPolicies Keyed.Table.empty] watchSearch.2

theorem watchRevoked_policies :
    (scopeFor (scopeDigest plainSha256) watchRevoked "user_watchman").map
      AuthorizedScope.allowedAccessPolicyIds = .ok [] := by
  decide +kernel

/-- Without his policy, the watchman has another scope, and may not refine his search. -/
theorem refused_without_bound_scope : ∀ env r,
    (handle wordEngine (scopeDigest plainSha256) defaultSearchConfig env "user_watchman"
      (.refine "ctx_1" r) watchRevoked).1 = .error scopeChanged := by
  intro env r
  have hchecks : ChecksScope wordEngine (scopeDigest plainSha256) defaultSearchConfig watchRevoked
      "ctx_1" "user_watchman" watchScope :=
    (scope_binding.2 plainSha256 tellsApart_plainSha256).2 wordEngine defaultSearchConfig
      (atSecond 0) "user_watchman" none (staticSearch "red") _ emptyArchive watchSearch.2
      watchScope rfl (Prod.ext watchSearch_answered rfl) [.setPolicies Keyed.Table.empty]
  have hpolicies := watchRevoked_policies
  cases hscope : scopeFor (scopeDigest plainSha256) watchRevoked "user_watchman" with
  | error e =>
      rw [hscope] at hpolicies
      cases hpolicies
  | ok scope =>
      rw [hscope] at hpolicies
      have hnone : scope.allowedAccessPolicyIds = [] := Except.ok.inj hpolicies
      by_contra hpasses
      rw [(hchecks.checked env r scope hscope).mp hpasses] at hnone
      exact absurd hnone (by decide +kernel)

end CctvMemory.Search
