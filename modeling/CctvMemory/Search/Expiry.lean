import CctvMemory.Library.Trace
import CctvMemory.Search.Contexts
import CctvMemory.Search.Outcome

/-!
# Refused once, refused again

Runs of requests and changes of principals, policies, locations and cameras
under a clock that does not go back, with what happened so far written down:
which contexts a request was refused on with the expired error (`expired`), on
which of them it found the context live but under another scope (`away`), and
whether a request was answered on a context after such a refusal
(`readmitted`).

A refusal rolls its session back, the status it wrote included. What is closed
or out of time stays refused all the same; a scope that changed may change back.

* `expiry_is_permanent`: nobody is readmitted unless the bound scope returns to
  a context that is still live.
* `scope_returns`: a context that comes back to life.
-/

namespace CctvMemory.Search

open CctvMemory.Authorization

/-! ## What happened -/

structure History where
  world : World
  clock : ℤ
  expired : String → Prop
  away : String → Prop
  readmitted : Prop

section Steps

variable (eng : Engine) (digest : ScopePayload → String) (cfg : SearchConfig)

/-- The owner meets the context under a scope that `p` allows. -/
def MeetsLive (w : World) (env : RequestEnv) (principalId id : String)
    (p : SearchContext → AuthorizedScope → Prop) : Prop :=
  ∃ scope c, scopeFor digest w principalId = .ok scope ∧ w.contexts.get? id = some c ∧
    c.principalId = scope.principalId ∧ Live cfg env.now c ∧ p c scope

/-- The context is live and bound to another scope than its owner has now. -/
def TurnedAway (w : World) (env : RequestEnv) (principalId id : String) : Prop :=
  MeetsLive digest cfg w env principalId id fun c scope =>
    c.authorizedScopeHash ≠ scope.scopeHash

/-- The context is live and bound to the scope that its owner has now. -/
def ScopeReturned (w : World) (env : RequestEnv) (principalId id : String) : Prop :=
  MeetsLive digest cfg w env principalId id fun c scope =>
    c.authorizedScopeHash = scope.scopeHash

/-- Written down after a request: only refine and facets requests count. -/
def record (s : History) (env : RequestEnv) (principalId : String) (req : Request) : History :=
  let result := handle eng digest cfg env principalId req s.world
  { world := result.2
    clock := env.now
    expired := fun id => s.expired id ∨ (req.context? = some id ∧
      ∃ e, result.1 = .error e ∧ e.kind = .contextExpired)
    away := fun id => s.away id ∨ (req.context? = some id ∧
      TurnedAway digest cfg s.world env principalId id)
    readmitted := s.readmitted ∨ ∃ id resp, req.context? = some id ∧ s.expired id ∧
      result.1 = .ok resp }

/-- One event, no earlier than the last request. -/
inductive HistoryStep (s : History) : Event → History → Prop where
  | request (env : RequestEnv) (principalId : String) (req : Request) : s.clock ≤ env.now →
      HistoryStep s (.request env principalId req) (record eng digest cfg s env principalId req)
  | change (e : Event) : (∀ env principalId req, e ≠ .request env principalId req) →
      HistoryStep s e { s with world := step eng digest cfg s.world e }

/-- Any database, and nothing refused yet. -/
def Blank (s : History) : Prop := (∀ id, ¬ s.expired id) ∧ (∀ id, ¬ s.away id) ∧ ¬ s.readmitted

/-- No request meets a context, live and under its bound scope, that an earlier
request met live under another one. -/
def StaysAway (s : History) : Event → Prop
  | .request env principalId req => ∀ id, req.context? = some id → s.away id →
      ¬ ScopeReturned digest cfg s.world env principalId id
  | _ => True

abbrev StayingRun : List Event → History → Prop :=
  Trace.Run Blank fun s e s' => HistoryStep eng digest cfg s e s' ∧ StaysAway digest cfg s e

end Steps

/-! ## The invariant -/

/-- A context somebody was refused on is dead, or waits for its scope. -/
structure Settled (cfg : SearchConfig) (s : History) : Prop where
  dead : ∀ id, s.expired id → s.away id ∨
    ∃ c, s.world.contexts.get? id = some c ∧ ¬ Live cfg s.clock c
  never : ¬ s.readmitted

section Run

variable {eng : Engine} {digest : ScopePayload → String} {cfg : SearchConfig} {s : History}

theorem Settled.blank (h : Blank s) : Settled cfg s where
  dead id hexpired := absurd hexpired (h.1 id)
  never := h.2.2

/-- A refusal with the expired error leaves the context away or dead. -/
theorem refused_away_or_dead {env : RequestEnv} {principalId id : String} {req : Request}
    {w w' : World} {e : ServiceError} (hreq : req.context? = some id)
    (h : handle eng digest cfg env principalId req w = (.error e, w'))
    (hkind : e.kind = .contextExpired) :
    TurnedAway digest cfg w env principalId id ∨
      ∃ c, w'.contexts.get? id = some c ∧ ¬ Live cfg env.now c := by
  obtain ⟨rfl, hscope | ⟨scope, w₁, hscope, hserve⟩⟩ := handle_error h
  · exact absurd hkind (scopeFor_error_kind hscope)
  · obtain ⟨-, w₂, hgate⟩ := serve_gate hreq hserve hkind
    obtain ⟨c, hstored, howner, hwhy⟩ := activeContext_expired hgate hkind
    by_cases hlive : Live cfg env.now c
    · rcases hwhy with hhash | hdead
      · exact Or.inl ⟨scope, c, hscope, hstored, howner, hlive, hhash⟩
      · exact absurd hlive hdead
    · exact Or.inr ⟨c, hstored, hlive⟩

/-- An answered request met the context live and under its bound scope. -/
theorem answered_returned {env : RequestEnv} {principalId id : String} {req : Request}
    {w w' : World} {resp : Response} (hreq : req.context? = some id)
    (h : handle eng digest cfg env principalId req w = (.ok resp, w')) :
    ScopeReturned digest cfg w env principalId id := by
  obtain ⟨scope, hscope, hserve⟩ := handle_ok h
  obtain ⟨c, hadmitted⟩ := serve_admitted hreq hserve
  exact ⟨scope, c, hscope, hadmitted.stored, hadmitted.owner, hadmitted.live, hadmitted.bound⟩

theorem Settled.record (h : Settled cfg s) {env : RequestEnv} {principalId : String}
    {req : Request} (hclock : s.clock ≤ env.now)
    (haway : StaysAway digest cfg s (.request env principalId req)) :
    Settled cfg (record eng digest cfg s env principalId req) := by
  constructor
  · rintro id (hexpired | ⟨hreq, e, hresult, hkind⟩)
    · rcases h.dead id hexpired with haway | ⟨c, hstored, hdead⟩
      · exact Or.inl (Or.inl haway)
      · exact Or.inr (not_live_after hstored hdead hclock)
    · rcases refused_away_or_dead hreq (Prod.ext hresult rfl) hkind with hturned | hdead
      · exact Or.inl (Or.inr ⟨hreq, hturned⟩)
      · exact Or.inr hdead
  · rintro (hreadmitted | ⟨id, resp, hreq, hexpired, hresult⟩)
    · exact h.never hreadmitted
    · have hreturned : ScopeReturned digest cfg s.world env principalId id :=
        answered_returned hreq (Prod.ext hresult rfl)
      rcases h.dead id hexpired with haway' | ⟨c, hstored, hdead⟩
      · exact haway id hreq haway' hreturned
      · obtain ⟨scope, c', -, hstored', -, hlive, -⟩ := hreturned
        rw [Option.some.inj (hstored.symm.trans hstored')] at hdead
        exact hdead (hlive.mono hclock)

theorem Settled.step (h : Settled cfg s) {e : Event} {s' : History}
    (hstep : HistoryStep eng digest cfg s e s') (haway : StaysAway digest cfg s e) :
    Settled cfg s' := by
  cases hstep with
  | request env principalId req hclock => exact h.record hclock haway
  | change _ hother =>
      constructor
      · intro id hexpired
        show s.away id ∨ ∃ c, (Search.step eng digest cfg s.world e).contexts.get? id = some c ∧ _
        rw [step_contexts_of_not_request hother]
        exact h.dead id hexpired
      · exact h.never

/-- In every run, from any database, in which no bound scope returns to a live
context that turned a request away for its scope: whoever was once refused with
the expired error is refused from then on. -/
theorem expiry_is_permanent {es : List Event} (h : StayingRun eng digest cfg es s) :
    ¬ s.readmitted := by
  have hinv : Settled cfg s := by
    apply Trace.Run.invariant_of_state (p := fun _ => True) _ _ h
    · exact fun _ _ => trivial
    · exact fun s hblank => Settled.blank hblank
    · intro s e t hsettled _ hstep
      exact hsettled.step hstep.1 hstep.2
  exact hinv.never

end Run

/-! ## A scope that returns -/

def watchman : Principal where
  principalId := "user_watchman"
  principalType := .user
  tenantId := "tenant_default"
  status := "active"
  roles := ["watch"]
  groups := []

def watchPolicy : AccessPolicy where
  accessPolicyId := "policy_watch"
  name := "Watch"
  securityLevel := .internal
  rules := { allowedRoles := ["watch"] }

/-- Nothing recorded yet, and one policy for the watchman. -/
def emptyArchive : World :=
  { World.holding [] (by decide) (by decide) with
    principals := ⟨[watchman], by decide⟩
    policies := ⟨[watchPolicy], by decide⟩ }

/-- A hash that tells the permitted policies apart. -/
def policyDigest (payload : ScopePayload) : String := String.join payload.allowedAccessPolicyIds

def atSecond (n : ℤ) : RequestEnv :=
  { firstRequest with now := n * Iso.second }

/-- The watchman's search, a while without its policy, and the policy again. -/
def searched : World :=
  run wordEngine policyDigest defaultSearchConfig
    [.request (atSecond 0) "user_watchman" (.start none (staticSearch "red")),
     .setPolicies Keyed.Table.empty] emptyArchive

def restored : World :=
  run wordEngine policyDigest defaultSearchConfig
    [.request (atSecond 10) "user_watchman" (.facets "ctx_1"),
     .setPolicies ⟨[watchPolicy], by decide⟩] searched

theorem refused_without_policy :
    (handle wordEngine policyDigest defaultSearchConfig (atSecond 10) "user_watchman"
      (.facets "ctx_1") searched).1
      = .error ⟨.contextExpired, "authorized scope changed; restart search"⟩ := by
  decide +kernel

theorem answered_with_policy :
    (handle wordEngine policyDigest defaultSearchConfig (atSecond 20) "user_watchman"
      (.facets "ctx_1") restored).1 = .ok (.facets (buildFacets [])) := by
  decide +kernel

theorem refused_when_closed :
    (handle wordEngine policyDigest defaultSearchConfig (atSecond 10) "user_watchman"
      (.facets "ctx_1") (run wordEngine policyDigest defaultSearchConfig
        [.request (atSecond 0) "user_watchman" (.start none (staticSearch "red")),
         .request (atSecond 5) "user_watchman" (.close "ctx_1")] emptyArchive)).1
      = .error ⟨.contextExpired, "context is not active"⟩ := by
  decide +kernel

/-- The context is refused as its scope changed, and answers again when the
policy is back: the refusal closed it in a session that was rolled back. -/
theorem scope_returns : ∃ es s,
    Trace.Run Blank (HistoryStep wordEngine policyDigest defaultSearchConfig) es s ∧
      s.readmitted := by
  have hblank : Blank ⟨emptyArchive, 0, fun _ => False, fun _ => False, False⟩ :=
    ⟨fun _ h => h, fun _ h => h, fun h => h⟩
  have hsearch : Trace.Run Blank (HistoryStep wordEngine policyDigest defaultSearchConfig) _ _ :=
    (Trace.Run.start hblank).next (HistoryStep.request (atSecond 0) "user_watchman"
      (.start none (staticSearch "red")) (by decide))
  have hremoved := hsearch.next (HistoryStep.change (.setPolicies Keyed.Table.empty) (by simp))
  have hrefused := hremoved.next (HistoryStep.request (atSecond 10) "user_watchman"
    (.facets "ctx_1") (by decide))
  have hback := hrefused.next (HistoryStep.change (.setPolicies ⟨[watchPolicy], by decide⟩)
    (by simp))
  have hanswered := hback.next (HistoryStep.request (atSecond 20) "user_watchman"
    (.facets "ctx_1") (by decide))
  refine ⟨_, _, hanswered, Or.inr ⟨"ctx_1", _, rfl, Or.inr ⟨rfl, _, refused_without_policy, rfl⟩,
    answered_with_policy⟩⟩

/-- A closed context, refused at ten seconds, stays refused. -/
theorem closed_stays_closed : ∃ es s,
    StayingRun wordEngine policyDigest defaultSearchConfig es s ∧ s.expired "ctx_1" ∧
      ¬ s.readmitted := by
  have hblank : Blank ⟨emptyArchive, 0, fun _ => False, fun _ => False, False⟩ :=
    ⟨fun _ h => h, fun _ h => h, fun h => h⟩
  have hsearch : StayingRun wordEngine policyDigest defaultSearchConfig _ _ :=
    (Trace.Run.start hblank).next ⟨HistoryStep.request (atSecond 0) "user_watchman"
      (.start none (staticSearch "red")) (by decide), fun id hreq => by cases hreq⟩
  have hclosed : StayingRun wordEngine policyDigest defaultSearchConfig _ _ :=
    hsearch.next ⟨HistoryStep.request (atSecond 5) "user_watchman" (.close "ctx_1") (by decide),
      fun id hreq => by cases hreq⟩
  have hrefused : StayingRun wordEngine policyDigest defaultSearchConfig _ _ :=
    hclosed.next ⟨HistoryStep.request (atSecond 10) "user_watchman" (.facets "ctx_1")
      (by decide), ?_⟩
  · refine ⟨_, _, hrefused, Or.inr ⟨rfl, _, refused_when_closed, rfl⟩, ?_⟩
    exact expiry_is_permanent hrefused
  · rintro id - ((haway | ⟨hreq, -⟩) | ⟨hreq, -⟩)
    · exact False.elim haway
    · cases hreq
    · cases hreq

end CctvMemory.Search
