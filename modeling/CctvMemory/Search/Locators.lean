import CctvMemory.Search.Outcome
import CctvMemory.Search.Playback

/-!
# Playback urls over whole runs

Both `get_details` and `issue_locators` hand out urls of `/api/v1/playback`. In a
run any requests and any other changes of the database alternate: policies,
principals and records may change between the answer and its use.

* `issued_of_mem_signed`: what was signed was handed out to its principal.
* `handedAccepted_issueLocators`, `acceptedIssued`: both ways for signed tokens.
* `tokens_honoured`: what holds of the urls in every run.
-/

namespace CctvMemory.Search

open Keyed (Table)
open CctvMemory.Publication (ObservationRecord ObservationStore)
open CctvMemory.Authorization

variable {ν : Type}

/-! ## Runs -/

inductive Operation where
  | request (d : Draw) (principalId : String) (req : Request)
  | issueLocators (d : Draw) (principalId : String) (recordIds : List String)
  | verifyPlayback (d : Draw) (principalId : String) (token : String)
  /-- Whatever else happens to the database. -/
  | outside (w : World)

inductive Answer (ν : Type) where
  | request (r : Except ServiceError Response)
  | locators (r : Except ServiceError (List LocatorProjection))
  | playback (r : Except ServiceError (PlaybackDescriptor ν))
  | outside

/-- A route: the scope of the caller, then the service in a session. -/
def asPrincipal {α : Type} (digest : ScopePayload → String) (principalId : String)
    (x : AuthorizedScope → Session α) (w : World) : Except ServiceError α × World :=
  match scopeFor digest w principalId with
  | .error e => (.error e, w)
  | .ok scope => inSession (x scope) w

/-- The parts of a server. -/
structure Server (ν : Type) where
  engine : Engine
  digest : ScopePayload → String
  config : SearchConfig
  tokens : PlaybackTokenService ν

namespace Server

variable (s : Server ν)

def perform : Operation → World → Answer ν × World
  | .request d principalId req, w =>
      let r := handle s.engine s.digest s.config d.env principalId req w
      (.request r.1, r.2)
  | .issueLocators d principalId recordIds, w =>
      let r := asPrincipal s.digest principalId
        (fun scope => s.tokens.issueLocators d.now scope recordIds) w
      (.locators r.1, r.2)
  | .verifyPlayback d principalId token, w =>
      let r := asPrincipal s.digest principalId
        (fun scope => s.tokens.verifyPlayback d.now scope token) w
      (.playback r.1, r.2)
  | .outside w', _ => (.outside, w')

def after (ops : List Operation) (w : World) : World :=
  ops.foldl (fun w o => (s.perform o w).2) w

/-- The payloads an operation signs. -/
def signedBy : Operation → World → List TokenPayload
  | .issueLocators d principalId recordIds, w =>
      match scopeFor s.digest w principalId with
      | .ok scope =>
          if .observationReadLocator ∈ scope.capabilities then
            (getAuthorizedActiveByIds w.store recordIds scope).map
              (s.tokens.payloadFor scope d.now)
          else []
      | .error _ => []
  | _, _ => []

def signed : List Operation → World → List TokenPayload
  | [], _ => []
  | o :: ops, w => s.signedBy o w ++ signed ops (s.perform o w).2

end Server

/-- A url that was handed out, for whom and for which record. -/
structure Handed where
  principalId : String
  recordId : String
  playbackUrl : String
  expiresAt : ℤ
deriving DecidableEq

/-! ## The urls of details -/

theorem buildLocator_url {env : RequestEnv} {scope : AuthorizedScope} {r : ObservationRecord}
    {l : Option LocatorProjection} {w w' : World}
    (h : (buildLocator env scope r).exec w = (.ok l, w')) :
    ∀ p, l = some p → p.playbackUrl = "/api/v1/playback/" ++ env.playbackToken r.recordId := by
  unfold buildLocator at h
  replace h := get_bind_ok h
  split at h
  · obtain ⟨rfl, -⟩ := pure_ok h
    exact fun p hp => by cases hp
  · obtain ⟨_, w₁, -, h⟩ := bind_ok h
    obtain ⟨rfl, -⟩ := pure_ok h
    rintro p ⟨⟩
    rfl

theorem detailsItem_url {env : RequestEnv} {scope : AuthorizedScope} {includeLocator : Bool}
    {r : ObservationRecord} {item : DetailsItem} {w w' : World}
    (h : (detailsItem env scope includeLocator r).exec w = (.ok item, w')) :
    ∀ p, item.locator = some p →
      p.playbackUrl = "/api/v1/playback/" ++ env.playbackToken item.recordId := by
  unfold detailsItem at h
  obtain ⟨l, w₁, hloc, h⟩ := bind_ok h
  obtain ⟨rfl, -⟩ := pure_ok h
  unfold locatorFor at hloc
  split at hloc
  · exact buildLocator_url hloc
  · obtain ⟨rfl, -⟩ := pure_ok hloc
    exact fun p hp => by cases hp

theorem detailsItems_url {env : RequestEnv} {scope : AuthorizedScope} {includeLocator : Bool} :
    ∀ {rs : List ObservationRecord} {items : List DetailsItem} {w w' : World},
      (detailsItems env scope includeLocator rs).exec w = (.ok items, w') →
      ∀ item ∈ items, ∀ p, item.locator = some p →
        p.playbackUrl = "/api/v1/playback/" ++ env.playbackToken item.recordId
  | [], items, w, w', h => by
      obtain ⟨rfl, -⟩ := pure_ok h
      exact fun item hitem => absurd hitem List.not_mem_nil
  | r :: rs, items, w, w', h => by
      obtain ⟨first, w₁, hfirst, h⟩ := bind_ok h
      obtain ⟨rest, w₂, hrest, h⟩ := bind_ok h
      obtain ⟨rfl, -⟩ := pure_ok h
      intro item hitem
      rcases List.mem_cons.mp hitem with rfl | hitem
      · exact detailsItem_url hfirst
      · exact detailsItems_url hrest item hitem

/-- The urls of `get_details` are the placeholders that were drawn. -/
theorem getDetails_url {env : RequestEnv} {scope : AuthorizedScope} {ids : List String}
    {includeLocator : Bool} {items : List DetailsItem} {w w' : World}
    (h : (getDetails env scope ids includeLocator).exec w = (.ok items, w')) :
    ∀ item ∈ items, ∀ p, item.locator = some p →
      p.playbackUrl = "/api/v1/playback/" ++ env.playbackToken item.recordId := by
  obtain ⟨w₁, event, hitems, -⟩ := getDetails_steps h
  exact detailsItems_url hitems

/-! ## What was handed out -/

/-- The records locators are issued for. -/
def locatorRecords (digest : ScopePayload → String) (w : World) (principalId : String)
    (recordIds : List String) : List ObservationRecord :=
  match scopeFor digest w principalId with
  | .ok scope => getAuthorizedActiveByIds w.store recordIds scope
  | .error _ => []

def Handed.ofItem (principalId : String) (item : DetailsItem) : Option Handed :=
  item.locator.map fun l => ⟨principalId, item.recordId, l.playbackUrl, l.expiresAt⟩

def Handed.ofLocator (principalId : String) (r : ObservationRecord) (l : LocatorProjection) :
    Handed :=
  ⟨principalId, r.recordId, l.playbackUrl, l.expiresAt⟩

namespace Server

variable (s : Server ν)

/-- The urls in the answer of an operation, with the record each is for. -/
def handedBy (o : Operation) (w : World) : List Handed :=
  match o, (s.perform o w).1 with
  | .request _ principalId _, .request (.ok (.details items)) =>
      items.filterMap (Handed.ofItem principalId)
  | .issueLocators _ principalId recordIds, .locators (.ok items) =>
      ((locatorRecords s.digest w principalId recordIds).zip items).map fun p =>
        Handed.ofLocator principalId p.1 p.2
  | _, _ => []

/-- The principal's scope, as it is now, permits the record. -/
def Authorized (w : World) (principalId recordId : String) : Prop :=
  ∃ scope r, scopeFor s.digest w principalId = .ok scope ∧ Visible scope w r
    ∧ r.recordId = recordId

/-- `GET` of the url is answered with the record. -/
def Accepts (w : World) (d : Draw) (principalId playbackUrl recordId : String) : Prop :=
  ∃ token desc, playbackUrl = "/api/v1/playback/" ++ token
    ∧ (s.perform (.verifyPlayback d principalId token) w).1 = .playback (.ok desc)
    ∧ desc.recordId = recordId

/-- A body in the token with its right signature was signed in the run so far. -/
def Unforged (ops : List Operation) (w : World) (token : String) : Prop :=
  ∀ body, decodeToken token = some (body, s.tokens.mac body) →
    ∃ p ∈ s.signed ops w, body = s.tokens.body p

/-- Locators issued to the principal in the run had the token of the payload. -/
def Issued (ops : List Operation) (w : World) (principalId : String) (p : TokenPayload) : Prop :=
  ∃ before d recordIds more, ops = before ++ .issueLocators d principalId recordIds :: more
    ∧ ⟨principalId, p.recordId, "/api/v1/playback/" ++ s.tokens.sign p, p.expiresAt⟩
      ∈ s.handedBy (.issueLocators d principalId recordIds) (s.after before w)

/-- An accepted token carries a payload that was issued for the caller, for a
record it may see now. -/
def AcceptedIssued (w : World) : Prop :=
  ∀ ops d principalId token desc, s.Unforged ops w token →
    (s.perform (.verifyPlayback d principalId token) (s.after ops w)).1 = .playback (.ok desc) →
    ∃ p, decodeToken token = some (s.tokens.body p, s.tokens.mac (s.tokens.body p))
      ∧ p.principalId = principalId ∧ s.Issued ops w principalId p
      ∧ p.recordId = desc.recordId ∧ s.Authorized (s.after ops w) principalId p.recordId

/-- A url handed out by `o` is accepted whenever the record is authorized and it
has not expired. -/
def HandedAccepted (w : World) (o : Operation) : Prop :=
  ∀ ops more h d, h ∈ s.handedBy o (s.after ops w) → d.now ≤ h.expiresAt →
    s.Authorized (s.after (ops ++ o :: more) w) h.principalId h.recordId →
    s.Accepts (s.after (ops ++ o :: more) w) d h.principalId h.playbackUrl h.recordId

/-- Every url of either endpoint is a token that is accepted. -/
structure RoundTrip (w : World) : Prop where
  handed : ∀ o, s.HandedAccepted w o
  issued : s.AcceptedIssued w

/-- The urls of `issue_locators` are accepted, those of `get_details` are not. -/
structure Honoured (w : World) : Prop where
  handed : ∀ d principalId recordIds,
    s.HandedAccepted w (.issueLocators d principalId recordIds)
  placeholders : ∀ ops d principalId req, ∀ h ∈ s.handedBy (.request d principalId req)
    (s.after ops w), ∀ w' d' caller recordId, ¬ s.Accepts w' d' caller h.playbackUrl recordId
  issued : s.AcceptedIssued w

end Server

section Main

variable {s : Server ν}

theorem asPrincipal_ok {α : Type} {digest : ScopePayload → String} {principalId : String}
    {x : AuthorizedScope → Session α} {w : World} {a : α}
    (h : (asPrincipal digest principalId x w).1 = .ok a) :
    ∃ scope, scopeFor digest w principalId = .ok scope
      ∧ (x scope).exec w = (.ok a, (asPrincipal digest principalId x w).2) := by
  cases hscope : scopeFor digest w principalId with
  | error e =>
      unfold asPrincipal at h
      rw [hscope] at h
      cases h
  | ok scope =>
      have hsession : asPrincipal digest principalId x w = inSession (x scope) w := by
        unfold asPrincipal
        rw [hscope]
      rw [hsession] at h ⊢
      exact ⟨scope, rfl, inSession_ok (Prod.ext h rfl)⟩

theorem asPrincipal_of_ok {α : Type} {digest : ScopePayload → String} {principalId : String}
    {x : AuthorizedScope → Session α} {w w' : World} {a : α} {scope : AuthorizedScope}
    (hscope : scopeFor digest w principalId = .ok scope) (h : (x scope).exec w = (.ok a, w')) :
    (asPrincipal digest principalId x w).1 = .ok a := by
  unfold asPrincipal inSession
  rw [hscope]
  dsimp only
  rw [h]

theorem locatorRecords_eq {digest : ScopePayload → String} {w : World} {principalId : String}
    {scope : AuthorizedScope} (h : scopeFor digest w principalId = .ok scope) (ids : List String) :
    locatorRecords digest w principalId ids = getAuthorizedActiveByIds w.store ids scope := by
  unfold locatorRecords
  rw [h]

theorem zip_map_self {α β : Type} (l : List α) (f : α → β) :
    l.zip (l.map f) = l.map fun a => (a, f a) := by
  have h : (l.map id).zip (l.map f) = l.map fun a => (id a, f a) := List.zip_map'
  rwa [List.map_id] at h

/-- What is in hand after locators were issued. -/
theorem mem_handedBy_issueLocators {d : Draw} {principalId : String} {ids : List String}
    {w : World} {h : Handed} (hh : h ∈ s.handedBy (.issueLocators d principalId ids) w) :
    ∃ scope r, scopeFor s.digest w principalId = .ok scope
      ∧ h = Handed.ofLocator principalId r (s.tokens.locatorOf scope d.now r) := by
  unfold Server.handedBy Server.perform at hh
  dsimp only at hh
  cases hanswer : (asPrincipal s.digest principalId
      (fun scope => s.tokens.issueLocators d.now scope ids) w).1 with
  | error e =>
      rw [hanswer] at hh
      cases hh
  | ok items =>
      rw [hanswer] at hh
      obtain ⟨scope, hscope, hexec⟩ := asPrincipal_ok hanswer
      obtain ⟨-, rfl⟩ := issueLocators_ok hexec
      change h ∈ ((locatorRecords s.digest w principalId ids).zip _).map _ at hh
      rw [locatorRecords_eq hscope, zip_map_self, List.map_map] at hh
      obtain ⟨r, -, rfl⟩ := List.mem_map.mp hh
      exact ⟨scope, r, hscope, rfl⟩

/-- Only `details` is answered with items. -/
theorem serve_eq_details {eng : Engine} {cfg : SearchConfig} {env : RequestEnv}
    {scope : AuthorizedScope} {req : Request} {items : List DetailsItem} {w w' : World}
    (h : (serve eng cfg env scope req).exec w = (.ok (.details items), w')) :
    ∃ ids includeLocator w₁,
      (getDetails env scope ids includeLocator).exec w = (.ok items, w₁) := by
  cases req with
  | details ids includeLocator =>
      obtain ⟨items', w₁, hdetails, hpure⟩ := bind_ok h
      obtain ⟨heq, -⟩ := pure_ok hpure
      cases heq
      exact ⟨ids, includeLocator, w₁, hdetails⟩
  | start sessionId q | refine contextId q | facets contextId | close contextId =>
      obtain ⟨_, _, -, hpure⟩ := bind_ok h
      cases (pure_ok hpure).1

/-- What is in hand after a request is a placeholder. -/
theorem mem_handedBy_request {d : Draw} {principalId : String} {req : Request} {w : World}
    {h : Handed} (hh : h ∈ s.handedBy (.request d principalId req) w) :
    h.playbackUrl = "/api/v1/playback/" ++ placeholder (d.hex h.recordId) := by
  unfold Server.handedBy Server.perform at hh
  dsimp only at hh
  cases hanswer : handle s.engine s.digest s.config d.env principalId req w with
  | mk answer w' =>
      rw [hanswer] at hh
      cases answer with
      | error e => cases hh
      | ok resp =>
          cases resp with
          | search r => cases hh
          | facets f => cases hh
          | closed => cases hh
          | details items =>
              obtain ⟨item, hitem, hofItem⟩ := List.mem_filterMap.mp hh
              obtain ⟨l, hl, rfl⟩ := Option.map_eq_some_iff.mp hofItem
              obtain ⟨scope, -, hexec⟩ := asPrincipal_ok
                (x := fun scope => serve s.engine s.config d.env scope req)
                (congrArg Prod.fst hanswer)
              obtain ⟨ids, includeLocator, _, hdetails⟩ := serve_eq_details hexec
              exact getDetails_url hdetails item hitem l hl

theorem handedAccepted_issueLocators (w : World) (d : Draw) (principalId : String)
    (ids : List String) : s.HandedAccepted w (.issueLocators d principalId ids) := by
  intro ops more h d' hh hnow ⟨scope', r', hscope', hvisible, hid⟩
  obtain ⟨scope, r, hscope, rfl⟩ := mem_handedBy_issueLocators hh
  obtain ⟨hprincipal, -⟩ := scopeFor_ok hscope
  obtain ⟨hprincipal', hcap⟩ := scopeFor_ok hscope'
  have hsame : (s.tokens.payloadFor scope d.now r).principalId = scope'.principalId :=
    hprincipal.trans hprincipal'.symm
  obtain ⟨desc, w', hexec, hdesc⟩ := verifyPlayback_sign s.tokens hcap hsame hnow
    hvisible hid
  refine ⟨_, desc, rfl, ?_, hdesc⟩
  exact congrArg Answer.playback (asPrincipal_of_ok
    (x := fun scope => s.tokens.verifyPlayback d'.now scope _) hscope' hexec)

theorem not_accepts_placeholder (w : World) (d : Draw) (principalId recordId : String)
    (hex : Fin 12 → Fin 16) :
    ¬ s.Accepts w d principalId ("/api/v1/playback/" ++ placeholder hex) recordId := by
  rintro ⟨token, desc, hurl, hanswer, -⟩
  have htoken : token = placeholder hex := (String.append_right_inj _).mp hurl.symm
  subst htoken
  obtain ⟨scope, -, hexec⟩ := asPrincipal_ok (Answer.playback.inj hanswer)
  obtain ⟨payload, r, hverify, -⟩ := verifyPlayback_ok hexec
  rw [verifyToken_placeholder] at hverify
  cases hverify

/-- What is signed is handed out, to the principal it is signed for. -/
theorem handed_of_mem_signedBy {o : Operation} {w : World} {p : TokenPayload}
    (h : p ∈ s.signedBy o w) :
    ∃ d ids, o = .issueLocators d p.principalId ids
      ∧ ⟨p.principalId, p.recordId, "/api/v1/playback/" ++ s.tokens.sign p, p.expiresAt⟩
        ∈ s.handedBy (.issueLocators d p.principalId ids) w := by
  cases o with
  | request d principalId req => cases h
  | verifyPlayback d principalId token => cases h
  | outside w' => cases h
  | issueLocators d principalId ids =>
      unfold Server.signedBy at h
      dsimp only at h
      cases hscope : scopeFor s.digest w principalId with
      | error e =>
          rw [hscope] at h
          cases h
      | ok scope =>
          rw [hscope] at h
          dsimp only at h
          split at h
          · rename_i hcap
            obtain ⟨r, hr, rfl⟩ := List.mem_map.mp h
            have hprincipal : scope.principalId = principalId := (scopeFor_ok hscope).1
            subst hprincipal
            refine ⟨d, ids, rfl, ?_⟩
            obtain ⟨w', hexec⟩ := issueLocators_exec s.tokens d.now hcap ids w
            have hanswer := asPrincipal_of_ok
              (x := fun scope => s.tokens.issueLocators d.now scope ids) hscope hexec
            unfold Server.handedBy Server.perform PlaybackTokenService.payloadFor
            dsimp only
            rw [hanswer]
            change _ ∈ ((locatorRecords s.digest w scope.principalId ids).zip _).map _
            rw [locatorRecords_eq hscope, zip_map_self, List.map_map]
            exact List.mem_map.mpr ⟨r, hr, rfl⟩
          · cases h

theorem mem_signed_iff {ops : List Operation} {w : World} {p : TokenPayload} :
    p ∈ s.signed ops w
      ↔ ∃ before o more, ops = before ++ o :: more ∧ p ∈ s.signedBy o (s.after before w) := by
  induction ops generalizing w with
  | nil => simp [Server.signed]
  | cons o ops ih =>
      unfold Server.signed
      rw [List.mem_append, ih]
      constructor
      · rintro (h | ⟨before, o', more, rfl, h⟩)
        · exact ⟨[], o, ops, rfl, h⟩
        · exact ⟨o :: before, o', more, rfl, h⟩
      · rintro ⟨before, o', more, heq, h⟩
        cases before with
        | nil =>
            obtain ⟨rfl, rfl⟩ := List.cons.inj heq
            exact Or.inl h
        | cons first before =>
            obtain ⟨rfl, rfl⟩ := List.cons.inj heq
            exact Or.inr ⟨before, o', more, rfl, h⟩

theorem issued_of_mem_signed {ops : List Operation} {w : World} {p : TokenPayload}
    (h : p ∈ s.signed ops w) : s.Issued ops w p.principalId p := by
  obtain ⟨before, o, more, rfl, hsigned⟩ := mem_signed_iff.mp h
  obtain ⟨d, ids, rfl, hhanded⟩ := handed_of_mem_signedBy hsigned
  exact ⟨before, d, ids, more, rfl, hhanded⟩

theorem acceptedIssued (w : World) : s.AcceptedIssued w := by
  intro ops d principalId token desc hunforged hanswer
  obtain ⟨scope, hscope, hexec⟩ := asPrincipal_ok (Answer.playback.inj hanswer)
  obtain ⟨payload, r, hverify, hprincipal, hrecord, hvisible, hdesc⟩ := verifyPlayback_ok hexec
  obtain ⟨body, htoken, hload⟩ := verifyToken_eq_some hverify
  obtain ⟨p, hsigned, rfl⟩ := hunforged body htoken
  rw [loadBody_body] at hload
  obtain rfl := Option.some.inj hload
  obtain ⟨hgetPrincipal, hgetRecord, -⟩ := get?_payload s.tokens p
  rw [hgetPrincipal] at hprincipal
  rw [hgetRecord] at hrecord
  have hid : r.recordId = p.recordId := hrecord.trans (s.tokens.str_str _)
  have hcaller : p.principalId = scope.principalId := by
    have hvalue := Option.some.inj hprincipal
    injection hvalue
  have hprincipalId : p.principalId = principalId := hcaller.trans (scopeFor_ok hscope).1
  exact ⟨p, htoken, hprincipalId, hprincipalId ▸ issued_of_mem_signed hsigned,
    (hdesc.trans hid).symm, scope, r, hscope, hvisible, hid⟩

/-- In every run, the urls of `issue_locators` are accepted for the principal
they were issued to while they are unexpired and the record is authorized; those
of `get_details` never are; and what is accepted was signed for the caller, for
a record it may see. -/
theorem tokens_honoured (s : Server ν) (w : World) : s.Honoured w where
  handed := handedAccepted_issueLocators w
  placeholders := by
    intro ops d principalId req h hh w' d' caller recordId
    rw [mem_handedBy_request hh]
    exact not_accepts_placeholder w' d' caller recordId _
  issued := acceptedIssued w

end Main

/-! ## A placeholder -/

/-- Times as whole numbers, and a signature of 32 bytes. -/
def clockTokens : PlaybackTokenService ℤ where
  mac _ := List.replicate 32 0
  ttlSeconds := 600
  format := JsonText.wholeNumbers
  timestamp t := t
  later a b := decide (b < a)
  decodeText bytes := some (bytes.map fun b => Char.ofNat b.toNat)
  str v := match v with
    | .str s => s
    | _ => "None"
  later_timestamp h := decide_eq_false (Int.not_lt.mpr h)
  decodeText_ascii text h := by
    have hchar : ∀ c ∈ text, Char.ofNat (UInt8.ofNat c.toNat).toNat = c := by
      intro c hc
      have hlt : c.toNat < 256 := Nat.lt_trans (h c hc).2 (by decide)
      rw [UInt8.toNat_ofNat', Nat.mod_eq_of_lt hlt, Char.ofNat_toNat]
    rw [asciiBytes, List.map_map]
    exact congrArg some ((List.map_congr_left hchar).trans (List.map_id text))
  str_str _ := rfl

def shownServer : Server ℤ where
  engine := wordEngine
  digest _ := "hash"
  config := defaultSearchConfig
  tokens := clockTokens

def guard : Principal := ⟨"guard", .user, "tenant_1", "active", [], []⟩

/-- A record at the gate, which the guard may see. -/
def shownWorld : World :=
  { World.holding [seen "rec_1" "cam_1" 0 ""] (List.nodup_singleton _)
      (List.nodup_singleton _) with
    principals := ⟨[guard], List.nodup_singleton _⟩
    policies := ⟨[{
      accessPolicyId := "policy_1"
      tenantId := "tenant_1"
      name := "gate"
      securityLevel := .internal
      rules := { allowedPrincipals := ["guard"] } }], List.nodup_singleton _⟩
    locations := ⟨[{
      locationId := "gate"
      tenantId := "tenant_1"
      area := "gate"
      accessPolicyId := some "policy_1" }], List.nodup_singleton _⟩
    cameras := ⟨[{
      cameraId := "cam_1"
      tenantId := "tenant_1"
      cameraName := "gate"
      locationId := "gate" }], List.nodup_singleton _⟩ }

def firstDraw : Draw := ⟨0, "ctx_1", "rev_1", fun _ _ => 0⟩

/-- The details of the record, with a locator. -/
def showRecord : Operation := .request firstDraw "guard" (.details ["rec_1"] true)

theorem handedBy_showRecord :
    ⟨"guard", "rec_1", "/api/v1/playback/pbt_000000000000", 600 * Iso.second⟩
      ∈ shownServer.handedBy showRecord shownWorld := by
  decide +kernel

theorem authorized_showRecord :
    shownServer.Authorized (shownServer.after [showRecord] shownWorld) "guard" "rec_1" := by
  have hguard : (shownServer.after [showRecord] shownWorld).principals.get? "guard"
      = some guard := by
    decide +kernel
  have hresolve : resolvePrincipal (shownServer.after [showRecord] shownWorld) "guard"
      = .ok guard := by
    unfold resolvePrincipal
    rw [hguard]
    rfl
  refine ⟨authorizedScopeFor shownServer.digest (shownServer.after [showRecord] shownWorld) guard,
    seen "rec_1" "cam_1" 0 "", ?_, ⟨by decide +kernel, by decide +kernel⟩, rfl⟩
  unfold scopeFor
  rw [hresolve]
  rfl

/-- The url of the details is refused at once. -/
theorem not_roundTrip_showRecord : ¬ shownServer.RoundTrip shownWorld := by
  intro h
  have haccepts := h.handed showRecord [] [] _ firstDraw handedBy_showRecord (by decide)
    authorized_showRecord
  exact not_accepts_placeholder _ firstDraw "guard" "rec_1" (fun _ => 0) haccepts

end CctvMemory.Search
