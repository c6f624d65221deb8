import CctvMemory.Library.Base64
import CctvMemory.Library.Json
import CctvMemory.Search.Confinement

/-!
# Playback tokens

`issue_locators` signs tokens and `verify_playback` takes them, with a second
authorization of the record. The placeholder that `get_details` draws is no token
of that service.

* `verifyToken_sign`: a token is read back as it was signed, while it is unexpired.
* `verifyToken_eq_some`: what is accepted carries the signature of its body.
* `verifyToken_placeholder`: a placeholder is never accepted.
* `verifyPlayback_ok`, `verifyPlayback_sign`: what a session accepts.
-/

namespace CctvMemory.Search

open JsonText (Value NumberFormat)
open Keyed (Table)
open CctvMemory.Publication (ObservationRecord ObservationStore)
open CctvMemory.Authorization

variable {ν : Type}

/-! ## The service -/

/-- `text.encode("utf-8")` of an ASCII text. -/
def asciiBytes (text : List Char) : List UInt8 := text.map fun c => UInt8.ofNat c.toNat

/-- The signing key and the libraries the service is built on. Times are
microseconds; a timestamp is a float. -/
structure PlaybackTokenService (ν : Type) where
  /-- `hmac.new(key, body, sha256).digest()`. -/
  mac : List UInt8 → List UInt8
  ttlSeconds : ℤ
  format : NumberFormat ν
  /-- `datetime.timestamp()`. -/
  timestamp : ℤ → ν
  /-- `a > b` on numbers. -/
  later : ν → ν → Bool
  /-- The text `json.loads` makes of bytes. -/
  decodeText : List UInt8 → Option (List Char)
  /-- `str(value)`. -/
  str : Value ν → String
  later_timestamp : ∀ {a b}, a ≤ b → later (timestamp a) (timestamp b) = false
  decodeText_ascii : ∀ text, (∀ c ∈ text, JsonText.Printable c) →
    decodeText (asciiBytes text) = some text
  str_str : ∀ s, str (.str s) = s

/-- What a token binds. -/
structure TokenPayload where
  principalId : String
  recordId : String
  videoId : String
  segmentStartMs : ℤ
  segmentEndMs : ℤ
  expiresAt : ℤ
deriving DecidableEq

structure PlaybackDescriptor (ν : Type) where
  recordId : String
  videoId : String
  cameraId : String
  segmentStartMs : ℤ
  segmentEndMs : ℤ
  /-- `expires_at`, as its timestamp. -/
  expiresAt : ν

def b64url (data : List UInt8) : List Char := Base64.strip (Base64.encode Base64.urlSafe data)

def b64urlDecode (text : List Char) : Option (List UInt8) := Base64.decode (Base64.pad text)

/-- `token.split(".", 1)`, where it yields two parts. -/
def splitDot (token : List Char) : Option (List Char × List Char) :=
  if '.' ∈ token then some (token.takeWhile (· ≠ '.'), (token.dropWhile (· ≠ '.')).tail)
  else none

/-- The body and the signature of a token. -/
def decodeToken (token : String) : Option (List UInt8 × List UInt8) :=
  (splitDot token.toList).bind fun parts =>
    (b64urlDecode parts.1).bind fun body =>
      (b64urlDecode parts.2).map fun signature => (body, signature)

namespace PlaybackTokenService

variable (svc : PlaybackTokenService ν)

def payload (p : TokenPayload) : Value ν :=
  .obj [("principal_id", .str p.principalId), ("record_id", .str p.recordId),
    ("video_id", .str p.videoId), ("segment_start_ms", .num (svc.format.ofInt p.segmentStartMs)),
    ("segment_end_ms", .num (svc.format.ofInt p.segmentEndMs)),
    ("exp", .num (svc.timestamp p.expiresAt))]

def body (p : TokenPayload) : List UInt8 :=
  asciiBytes (JsonText.canonicalJson svc.format (svc.payload p))

/-- `_sign`. -/
def sign (p : TokenPayload) : String :=
  String.ofList (b64url (svc.body p) ++ '.' :: b64url (svc.mac (svc.body p)))

/-- `isinstance(value, (int, float))`: the number, with `True` for 1. -/
def number? : Option (Value ν) → Option ν
  | some (.num n) => some n
  | some (.bool b) => some (svc.format.ofInt (if b then 1 else 0))
  | _ => none

/-- `json.loads(body)`, where it is a dictionary. -/
def loadBody (body : List UInt8) : Option (Value ν) :=
  match (svc.decodeText body).bind (JsonText.loads svc.format) with
  | some (.obj members) => some (.obj members)
  | _ => none

/-- `_verify`. -/
def verifyToken (now : ν) (token : String) : Option (Value ν) :=
  match decodeToken token with
  | none => none
  | some (body, signature) =>
      if signature ≠ svc.mac body then none
      else match svc.loadBody body with
        | none => none
        | some payload =>
            match svc.number? (payload.get? "exp") with
            | none => none
            | some exp => if svc.later now exp then none else some payload

/-! ## The endpoints -/

/-- What is signed for a record. -/
def payloadFor (scope : AuthorizedScope) (now : ℤ) (r : ObservationRecord) : TokenPayload where
  principalId := scope.principalId
  recordId := r.recordId
  videoId := r.videoId
  segmentStartMs := r.segmentStartMs
  segmentEndMs := r.segmentEndMs
  expiresAt := now + svc.ttlSeconds * Iso.second

def locatorOf (scope : AuthorizedScope) (now : ℤ) (r : ObservationRecord) :
    LocatorProjection where
  videoId := r.videoId
  cameraId := r.cameraId
  segmentStartMs := r.segmentStartMs
  segmentEndMs := r.segmentEndMs
  absoluteStartTime := r.observedStartTime
  absoluteEndTime := r.observedEndTime
  playbackUrl := "/api/v1/playback/" ++ svc.sign (svc.payloadFor scope now r)
  expiresAt := now + svc.ttlSeconds * Iso.second

/-- The loop of `issue_locators`. -/
def issueEach (now : ℤ) (scope : AuthorizedScope) :
    List ObservationRecord → Session (List LocatorProjection)
  | [] => pure []
  | r :: rs => do
    appendEvent {
      eventType := "locator"
      principalId := scope.principalId
      contextId := none
      resourceScopeHash := scope.scopeHash
      recordIds := [r.recordId] }
    let more ← issueEach now scope rs
    pure (svc.locatorOf scope now r :: more)

def issueLocators (now : ℤ) (scope : AuthorizedScope) (recordIds : List String) :
    Session (List LocatorProjection) := do
  requireCapability scope .observationReadLocator
  let w ← get
  svc.issueEach now scope (getAuthorizedActiveByIds w.store recordIds scope)

def invalidToken : ServiceError := ⟨.notFound, "playback token invalid or expired"⟩

def verifyPlayback (now : ℤ) (scope : AuthorizedScope) (token : String) :
    Session (PlaybackDescriptor ν) := do
  requireCapability scope .videoPlayback
  match svc.verifyToken (svc.timestamp now) token with
  | none => throw invalidToken
  | some payload =>
      match payload.get? "principal_id" with
      | some (.str principalId) =>
          if principalId ≠ scope.principalId then throw invalidToken
          else do
            let w ← get
            match getAuthorizedActiveById w.store
                (svc.str ((payload.get? "record_id").getD .null)) scope with
            | none => throw ⟨.notFound, "playback target not found"⟩
            | some record => do
              appendEvent {
                eventType := "playback_url_issued"
                principalId := scope.principalId
                contextId := none
                resourceScopeHash := scope.scopeHash
                recordIds := [record.recordId] }
              pure {
                recordId := record.recordId
                videoId := record.videoId
                cameraId := record.cameraId
                segmentStartMs := record.segmentStartMs
                segmentEndMs := record.segmentEndMs
                expiresAt := (svc.number? (payload.get? "exp")).getD (svc.format.ofInt 0) }
      | _ => throw invalidToken

end PlaybackTokenService

/-! ## Placeholders -/

/-- The clock of a request and the ids it draws; a placeholder of `get_details`
is twelve hexadecimal digits. -/
structure Draw where
  now : ℤ
  contextId : String
  revisionId : String
  hex : String → Fin 12 → Fin 16

/-- `_new_id("pbt")`. -/
def placeholder (hex : Fin 12 → Fin 16) : String :=
  String.ofList ("pbt_".toList ++ List.ofFn fun i => hexDigit (hex i))

def Draw.env (d : Draw) : RequestEnv where
  now := d.now
  contextId := d.contextId
  revisionId := d.revisionId
  playbackToken := fun recordId => placeholder (d.hex recordId)

/-! ## Tokens -/

theorem dot_not_mem_b64url (data : List UInt8) : '.' ∉ b64url data := by
  unfold b64url
  rw [Base64.strip_encode]
  intro h
  obtain ⟨n, hn, hdot⟩ := Base64.mem_unpadded data '.' h
  have hvalue := Base64.value_letter Base64.urlSafe hn
  rw [← hdot] at hvalue
  have hnone : Base64.value '.' = none := by decide
  rw [hnone] at hvalue
  cases hvalue

theorem splitDot_append {front : List Char} (h : '.' ∉ front) (back : List Char) :
    splitDot (front ++ '.' :: back) = some (front, back) := by
  have hfront : ∀ c ∈ front, decide (c ≠ '.') = true := by
    intro c hc
    rw [decide_eq_true_eq]
    rintro rfl
    exact h hc
  unfold splitDot
  rw [if_pos (by simp), List.takeWhile_append_of_pos hfront, List.dropWhile_append_of_pos hfront]
  simp

theorem b64urlDecode_b64url (data : List UInt8) : b64urlDecode (b64url data) = some data :=
  Base64.decode_pad_strip data

section Token

variable {svc : PlaybackTokenService ν}

theorem decodeToken_sign (p : TokenPayload) :
    decodeToken (svc.sign p) = some (svc.body p, svc.mac (svc.body p)) := by
  unfold decodeToken PlaybackTokenService.sign
  rw [String.toList_ofList, splitDot_append (dot_not_mem_b64url _), Option.bind_some,
    b64urlDecode_b64url, Option.bind_some, b64urlDecode_b64url]
  rfl

/-- A signed body is loaded as what was signed. -/
theorem loadBody_body (p : TokenPayload) :
    svc.loadBody (svc.body p) = some (JsonText.sortKeys (svc.payload p)) := by
  unfold PlaybackTokenService.loadBody PlaybackTokenService.body JsonText.canonicalJson
  rw [svc.decodeText_ascii _ (JsonText.printable_dumps _), Option.bind_some, JsonText.loads_dumps]
  simp only [PlaybackTokenService.payload, JsonText.sortKeys]

/-- The fields of a payload, as they are read back. -/
theorem get?_payload (svc : PlaybackTokenService ν) (p : TokenPayload) :
    (JsonText.sortKeys (svc.payload p)).get? "principal_id" = some (.str p.principalId)
      ∧ (JsonText.sortKeys (svc.payload p)).get? "record_id" = some (.str p.recordId)
      ∧ (JsonText.sortKeys (svc.payload p)).get? "exp"
        = some (.num (svc.timestamp p.expiresAt)) := by
  have hget : ∀ k v, (k, v) ∈ [("principal_id", Value.str p.principalId),
      ("record_id", .str p.recordId), ("video_id", .str p.videoId),
      ("segment_start_ms", .num (svc.format.ofInt p.segmentStartMs)),
      ("segment_end_ms", .num (svc.format.ofInt p.segmentEndMs)),
      ("exp", .num (svc.timestamp p.expiresAt))] →
      (JsonText.sortKeys (svc.payload p)).get? k = some (JsonText.sortKeys v) :=
    fun k v => JsonText.get?_sortKeys (by simp)
  refine ⟨?_, ?_, ?_⟩
  · rw [hget "principal_id" (.str p.principalId) (by simp)]
    simp only [JsonText.sortKeys]
  · rw [hget "record_id" (.str p.recordId) (by simp)]
    simp only [JsonText.sortKeys]
  · rw [hget "exp" (.num (svc.timestamp p.expiresAt)) (by simp)]
    simp only [JsonText.sortKeys]

/-- A token is read back as it was signed, while it is unexpired. -/
theorem verifyToken_sign {p : TokenPayload} {now : ℤ} (h : now ≤ p.expiresAt) :
    svc.verifyToken (svc.timestamp now) (svc.sign p)
      = some (JsonText.sortKeys (svc.payload p)) := by
  unfold PlaybackTokenService.verifyToken
  simp only [decodeToken_sign, ne_eq, not_true_eq_false, if_false, loadBody_body,
    (get?_payload svc p).2.2, PlaybackTokenService.number?, svc.later_timestamp h]
  rfl

/-- What is accepted carries the signature of its body. -/
theorem verifyToken_eq_some {now : ν} {token : String} {payload : Value ν}
    (h : svc.verifyToken now token = some payload) :
    ∃ body, decodeToken token = some (body, svc.mac body) ∧ svc.loadBody body = some payload := by
  unfold PlaybackTokenService.verifyToken at h
  cases htoken : decodeToken token with
  | none =>
      rw [htoken] at h
      cases h
  | some parts =>
      obtain ⟨body, signature⟩ := parts
      rw [htoken] at h
      dsimp only at h
      split at h
      · cases h
      rename_i hsignature
      rw [ne_eq, not_not] at hsignature
      refine ⟨body, by rw [hsignature], ?_⟩
      cases hload : svc.loadBody body with
      | none =>
          rw [hload] at h
          cases h
      | some v =>
          rw [hload] at h
          dsimp only at h
          split at h
          · cases h
          split at h
          · cases h
          · exact h

/-- A placeholder is never accepted. -/
theorem verifyToken_placeholder (now : ν) (hex : Fin 12 → Fin 16) :
    svc.verifyToken now (placeholder hex) = none := by
  have hdot : '.' ∉ (placeholder hex).toList := by
    unfold placeholder
    rw [String.toList_ofList, List.mem_append, List.mem_ofFn]
    rintro (h | ⟨i, hi⟩)
    · exact absurd h (by decide)
    · have hall : ∀ d : Fin 16, hexDigit d ≠ '.' := by decide
      exact hall (hex i) hi
  unfold PlaybackTokenService.verifyToken decodeToken splitDot
  rw [if_neg hdot]
  rfl

end Token

/-! ## Sessions -/

theorem getAuthorizedActiveById_eq_some {w : World} {id : String} {scope : AuthorizedScope}
    {r : ObservationRecord} (h : getAuthorizedActiveById w.store id scope = some r) :
    Visible scope w r ∧ r.recordId = id := by
  have hfound := List.find?_some h
  rw [Bool.and_eq_true] at hfound
  exact ⟨visible_of_filter (List.mem_of_find?_eq_some h) hfound.2, of_decide_eq_true hfound.1⟩

theorem Visible.found {scope : AuthorizedScope} {w : World} {r : ObservationRecord}
    (h : Visible scope w r) :
    ∃ r', getAuthorizedActiveById w.store r.recordId scope = some r' := by
  rw [← Option.isSome_iff_exists]
  unfold getAuthorizedActiveById
  rw [List.find?_isSome]
  refine ⟨r, h.1, ?_⟩
  rw [Bool.and_eq_true]
  exact ⟨decide_eq_true rfl, (authorizedObservationFilter_iff scope r).mpr h.2⟩

/-- Every principal may play back. -/
theorem scopeFor_ok {digest : ScopePayload → String} {w : World} {principalId : String}
    {scope : AuthorizedScope} (h : scopeFor digest w principalId = .ok scope) :
    scope.principalId = principalId ∧ .videoPlayback ∈ scope.capabilities := by
  unfold scopeFor at h
  cases hp : resolvePrincipal w principalId with
  | error e =>
      rw [hp] at h
      cases h
  | ok p =>
      rw [hp] at h
      obtain rfl := Except.ok.inj h
      unfold resolvePrincipal at hp
      split at hp
      · cases hp
      rename_i q hq
      split at hp
      · cases hp
      obtain rfl := Except.ok.inj hp
      have hkey : q.principalId = principalId := Table.key_of_get? hq
      refine ⟨hkey, ?_⟩
      show Capability.videoPlayback ∈ capabilitiesFor q
      unfold capabilitiesFor
      cases q.principalType <;> decide

section Sessions

variable {svc : PlaybackTokenService ν}

/-- The locators of the records, in their order. -/
theorem issueEach_ok {now : ℤ} {scope : AuthorizedScope} :
    ∀ {rs : List ObservationRecord} {items : List LocatorProjection} {w w' : World},
      (svc.issueEach now scope rs).exec w = (.ok items, w') →
      items = rs.map (svc.locatorOf scope now)
  | [], items, w, w', h => (pure_ok h).1.symm
  | r :: rs, items, w, w', h => by
      obtain ⟨_, w₁, -, h⟩ := bind_ok h
      obtain ⟨more, w₂, hmore, h⟩ := bind_ok h
      obtain ⟨rfl, -⟩ := pure_ok h
      rw [issueEach_ok hmore]
      rfl

theorem issueEach_exec (svc : PlaybackTokenService ν) (now : ℤ) (scope : AuthorizedScope) :
    ∀ (rs : List ObservationRecord) (w : World), ∃ w',
      (svc.issueEach now scope rs).exec w = (.ok (rs.map (svc.locatorOf scope now)), w')
  | [], w => ⟨w, rfl⟩
  | r :: rs, w => by
      obtain ⟨w', hmore⟩ := issueEach_exec svc now scope rs { w with audit := w.audit ++ [{
        eventType := "locator"
        principalId := scope.principalId
        contextId := none
        resourceScopeHash := scope.scopeHash
        recordIds := [r.recordId] }] }
      refine ⟨w', ?_⟩
      unfold PlaybackTokenService.issueEach
      rw [exec_bind]
      change ((svc.issueEach now scope rs >>= _).exec _) = _
      rw [exec_bind, hmore]
      rfl

theorem exec_requireCapability {scope : AuthorizedScope} {c : Capability}
    (h : c ∈ scope.capabilities) (w : World) :
    (requireCapability scope c).exec w = (.ok (), w) := by
  unfold requireCapability
  rw [if_pos h]
  rfl

theorem issueLocators_exec (svc : PlaybackTokenService ν) (now : ℤ) {scope : AuthorizedScope}
    (h : .observationReadLocator ∈ scope.capabilities) (ids : List String) (w : World) :
    ∃ w', (svc.issueLocators now scope ids).exec w
      = (.ok ((getAuthorizedActiveByIds w.store ids scope).map (svc.locatorOf scope now)), w') := by
  obtain ⟨w', hissue⟩ := issueEach_exec svc now scope
    (getAuthorizedActiveByIds w.store ids scope) w
  refine ⟨w', ?_⟩
  unfold PlaybackTokenService.issueLocators
  rw [exec_bind, exec_requireCapability h]
  dsimp only
  rw [exec_bind]
  exact hissue

theorem issueLocators_ok {now : ℤ} {scope : AuthorizedScope} {ids : List String}
    {items : List LocatorProjection} {w w' : World}
    (h : (svc.issueLocators now scope ids).exec w = (.ok items, w')) :
    .observationReadLocator ∈ scope.capabilities ∧
      items = (getAuthorizedActiveByIds w.store ids scope).map (svc.locatorOf scope now) := by
  unfold PlaybackTokenService.issueLocators at h
  obtain ⟨_, w₁, hcap, h⟩ := bind_ok h
  rw [requireCapability_ok hcap] at h
  replace h := get_bind_ok h
  exact ⟨capable_of_requireCapability hcap, issueEach_ok h⟩

/-- What is accepted is a token of the caller, for a record it may see. -/
theorem verifyPlayback_ok {now : ℤ} {scope : AuthorizedScope} {token : String}
    {desc : PlaybackDescriptor ν} {w w' : World}
    (h : (svc.verifyPlayback now scope token).exec w = (.ok desc, w')) :
    ∃ payload r, svc.verifyToken (svc.timestamp now) token = some payload
      ∧ payload.get? "principal_id" = some (.str scope.principalId)
      ∧ r.recordId = svc.str ((payload.get? "record_id").getD .null)
      ∧ Visible scope w r ∧ desc.recordId = r.recordId := by
  unfold PlaybackTokenService.verifyPlayback at h
  obtain ⟨_, w₁, hcap, hread⟩ := bind_ok h
  rw [requireCapability_ok hcap] at hread
  split at hread
  · cases hread
  rename_i payload hverify
  split at hread
  · rename_i principalId hprincipal
    split at hread
    · cases hread
    rename_i hsame
    rw [ne_eq, not_not] at hsame
    replace hread := get_bind_ok hread
    split at hread
    · cases hread
    rename_i record hrecord
    obtain ⟨_, w₂, -, hdesc⟩ := bind_ok hread
    obtain ⟨rfl, -⟩ := pure_ok hdesc
    obtain ⟨hvisible, hid⟩ := getAuthorizedActiveById_eq_some hrecord
    exact ⟨payload, record, hverify, hsame ▸ hprincipal, hid, hvisible, rfl⟩
  · cases hread

/-- A token of the caller for a record it may see is accepted while it is unexpired. -/
theorem verifyPlayback_sign (svc : PlaybackTokenService ν) {now : ℤ} {scope : AuthorizedScope}
    {p : TokenPayload} {w : World} {r : ObservationRecord} (hcap : .videoPlayback ∈ scope.capabilities)
    (hprincipal : p.principalId = scope.principalId) (hnow : now ≤ p.expiresAt)
    (hvisible : Visible scope w r) (hid : r.recordId = p.recordId) :
    ∃ desc w', (svc.verifyPlayback now scope (svc.sign p)).exec w = (.ok desc, w')
      ∧ desc.recordId = p.recordId := by
  obtain ⟨r', hfound⟩ := hvisible.found
  have hr' := (getAuthorizedActiveById_eq_some hfound).2
  rw [hid] at hfound hr'
  obtain ⟨hget, hrecord, -⟩ := get?_payload svc p
  have hstr : svc.str (((JsonText.sortKeys (svc.payload p)).get? "record_id").getD .null)
      = p.recordId := by
    rw [hrecord]
    exact svc.str_str _
  refine ⟨{
    recordId := r'.recordId
    videoId := r'.videoId
    cameraId := r'.cameraId
    segmentStartMs := r'.segmentStartMs
    segmentEndMs := r'.segmentEndMs
    expiresAt := (svc.number? ((JsonText.sortKeys (svc.payload p)).get? "exp")).getD
      (svc.format.ofInt 0) },
    { w with audit := w.audit ++ [{
      eventType := "playback_url_issued"
      principalId := scope.principalId
      contextId := none
      resourceScopeHash := scope.scopeHash
      recordIds := [r'.recordId] }] }, ?_, hr'⟩
  unfold PlaybackTokenService.verifyPlayback
  rw [exec_bind, exec_requireCapability hcap]
  dsimp only
  rw [verifyToken_sign hnow]
  dsimp only
  rw [hget]
  dsimp only
  rw [if_neg (not_not.mpr hprincipal), exec_get_bind, hstr, hfound]
  rfl

end Sessions


end CctvMemory.Search
