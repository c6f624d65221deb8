import CctvMemory.Authorization.Scope
import CctvMemory.Library.Json

/-!
# What a scope hash tells

The payload of `compute_scope_hash` as the JSON text it is hashed as. Where the hash
tells these texts apart it tells the scopes apart, whatever stands in their ids, and
the order of the lists does not matter.

* `scopeHash_perm`: a hash of rearranged lists.
* `scopeHash_eq_iff`: what two scopes of one hash have in common.
* `computeAuthorizedScope_hash_iff`: computed scopes of one hash are one scope.
-/

namespace CctvMemory

def SecurityLevel.value : SecurityLevel → String
  | .public => "public"
  | .internal => "internal"
  | .confidential => "confidential"
  | .restricted => "restricted"

theorem SecurityLevel.value_injective : Function.Injective SecurityLevel.value := by
  intro a b h
  cases a <;> cases b <;> first | rfl | exact absurd h (by decide)

namespace Authorization

open JsonText (Value Same canonicalJson sortKeys)

/-! ## The encoding -/

def strings (texts : List String) : Value ℤ := .arr (texts.map .str)

def payloadFields (p : ScopePayload) : List (String × Value ℤ) :=
  [("tenant_id", .str p.tenantId),
   ("principal_id", .str p.principalId),
   ("allowed_camera_ids", strings p.allowedCameraIds),
   ("allowed_location_ids", strings p.allowedLocationIds),
   ("allowed_access_policy_ids", strings p.allowedAccessPolicyIds),
   ("max_security_level", .str p.maxSecurityLevel.value),
   ("capabilities", strings p.capabilities)]

/-- The bytes that are hashed: JSON with sorted names in ASCII. -/
def encoded (p : ScopePayload) : ByteArray :=
  (String.ofList (canonicalJson JsonText.wholeNumbers (.obj (payloadFields p)))).toByteArray

/-- `sha256` is the hash in hexadecimal, up to its first 32 characters. -/
def scopeDigest (sha256 : ByteArray → String) (p : ScopePayload) : String :=
  "scope_" ++ sha256 (encoded p)

theorem strings_injective : Function.Injective strings := by
  intro ids ids' h
  have hitems : ids.map (Value.str : String → Value ℤ) = ids'.map .str := by
    injection h
  exact List.map_injective_iff.mpr (fun _ _ hstr => by injection hstr) hitems

theorem sortKeys_strings (ids : List String) : sortKeys (strings ids) = strings ids := by
  unfold strings sortKeys
  rw [JsonText.sortItems_eq, List.map_map]
  rfl

theorem nodup_payloadFields (p : ScopePayload) : ((payloadFields p).map Prod.fst).Nodup := by
  simp [payloadFields]

/-- No two payloads have one encoding. -/
theorem encoded_injective : Function.Injective encoded := by
  intro p q h
  have htext := String.ofList_injective (String.toByteArray_inj.mp h)
  have hkeys : (payloadFields p).map Prod.fst = (payloadFields q).map Prod.fst := rfl
  have hfields := (JsonText.same_record_iff (nodup_payloadFields p) hkeys).mp
    (JsonText.canonicalJson_inj.mp htext)
  simp only [payloadFields, List.map_cons, List.map_nil, List.cons.injEq, and_true,
    sortKeys_strings, strings_injective.eq_iff, sortKeys, Value.str.injEq,
    SecurityLevel.value_injective.eq_iff] at hfields
  obtain ⟨htenant, hprincipal, hcameras, hlocations, hpolicies, hlevel, hcapabilities⟩ := hfields
  cases p
  cases q
  rw [ScopePayload.mk.injEq]
  exact ⟨htenant, hprincipal, hcameras, hlocations, hpolicies, hlevel, hcapabilities⟩

/-- The hash tells the encoded payloads apart. -/
def TellsApart (sha256 : ByteArray → String) : Prop := Set.InjOn sha256 (Set.range encoded)

theorem scopeDigest_injective {sha256 : ByteArray → String} (h : TellsApart sha256) :
    Function.Injective (scopeDigest sha256) := by
  intro p q hpq
  have hsha : sha256 (encoded p) = sha256 (encoded q) := String.append_right_inj _ |>.mp hpq
  exact encoded_injective (h ⟨p, rfl⟩ ⟨q, rfl⟩ hsha)

/-! ## The hash of a scope -/

section Hash

variable (sha256 : ByteArray → String)

/-- `compute_scope_hash` of what a scope holds. -/
def AuthorizedScope.computedHash (scope : AuthorizedScope) : String :=
  computeScopeHash (scopeDigest sha256) scope.tenantId scope.principalId scope.allowedCameraIds
    scope.allowedLocationIds scope.allowedAccessPolicyIds scope.maxSecurityLevel
    scope.capabilities

theorem sorted_of_perm {ids ids' : List String} (h : ids.Perm ids') : sorted ids = sorted ids' :=
  (SortKey.of_decide id).mergeSort_congr h fun _ _ _ _ heq => heq

theorem perm_of_sorted {ids ids' : List String} (h : sorted ids = sorted ids') :
    ids.Perm ids' := by
  have hids : (sorted ids).Perm ids := List.mergeSort_perm ids _
  rw [h] at hids
  exact hids.symm.trans (List.mergeSort_perm ids' _)

/-- The same scope, its lists in another order. -/
structure AuthorizedScope.Rearranged (a b : AuthorizedScope) : Prop where
  tenant : a.tenantId = b.tenantId
  principal : a.principalId = b.principalId
  cameras : a.allowedCameraIds.Perm b.allowedCameraIds
  locations : a.allowedLocationIds.Perm b.allowedLocationIds
  policies : a.allowedAccessPolicyIds.Perm b.allowedAccessPolicyIds
  level : a.maxSecurityLevel = b.maxSecurityLevel
  capabilities : a.capabilities.Perm b.capabilities

/-- Tenant, principal and level are equal, and so is each list once it is sorted. -/
structure AuthorizedScope.SameSorted (a b : AuthorizedScope) : Prop where
  tenant : a.tenantId = b.tenantId
  principal : a.principalId = b.principalId
  cameras : sorted a.allowedCameraIds = sorted b.allowedCameraIds
  locations : sorted a.allowedLocationIds = sorted b.allowedLocationIds
  policies : sorted a.allowedAccessPolicyIds = sorted b.allowedAccessPolicyIds
  level : a.maxSecurityLevel = b.maxSecurityLevel
  capabilities : sorted (a.capabilities.map Capability.value)
    = sorted (b.capabilities.map Capability.value)

variable {sha256} {a b : AuthorizedScope}

theorem AuthorizedScope.Rearranged.sameSorted (h : a.Rearranged b) : a.SameSorted b where
  tenant := h.tenant
  principal := h.principal
  cameras := sorted_of_perm h.cameras
  locations := sorted_of_perm h.locations
  policies := sorted_of_perm h.policies
  level := h.level
  capabilities := sorted_of_perm (h.capabilities.map _)

theorem AuthorizedScope.SameSorted.hash_eq (h : a.SameSorted b) :
    a.computedHash sha256 = b.computedHash sha256 := by
  unfold AuthorizedScope.computedHash computeScopeHash
  rw [h.tenant, h.principal, h.cameras, h.locations, h.policies, h.level, h.capabilities]

theorem scopeHash_perm (h : a.Rearranged b) : a.computedHash sha256 = b.computedHash sha256 :=
  h.sameSorted.hash_eq

theorem scopeHash_eq_iff (h : TellsApart sha256) :
    a.computedHash sha256 = b.computedHash sha256 ↔ a.SameSorted b := by
  constructor
  · intro hhash
    have hpayload := scopeDigest_injective h hhash
    rw [ScopePayload.mk.injEq] at hpayload
    obtain ⟨htenant, hprincipal, hcameras, hlocations, hpolicies, hlevel, hcapabilities⟩ :=
      hpayload
    exact ⟨htenant, hprincipal, hcameras, hlocations, hpolicies, hlevel, hcapabilities⟩
  · exact AuthorizedScope.SameSorted.hash_eq

end Hash

/-! ## Computed scopes -/

section Computed

variable {sha256 : ByteArray → String}

/-- The number of its capabilities tells the type of a principal. -/
theorem capabilitiesFor_of_sorted {p q : Principal}
    (h : sorted ((capabilitiesFor p).map Capability.value)
      = sorted ((capabilitiesFor q).map Capability.value)) :
    capabilitiesFor p = capabilitiesFor q := by
  have hlength := (perm_of_sorted h).length_eq
  rw [List.length_map, List.length_map] at hlength
  unfold capabilitiesFor at hlength ⊢
  cases hp : p.principalType <;> cases hq : q.principalType <;> rw [hp, hq] at hlength <;>
    first | rfl | exact absurd hlength (by decide)

/-- A computed scope has the hash of what it holds. -/
theorem computeAuthorizedScope_hash_iff (h : TellsApart sha256) {p q : Principal}
    {policies policies' : List AccessPolicy} {locations locations' : List CameraLocation}
    {cameras cameras' : List CameraDevice} :
    (computeAuthorizedScope (scopeDigest sha256) p policies locations cameras).scopeHash
        = (computeAuthorizedScope (scopeDigest sha256) q policies' locations' cameras').scopeHash
      ↔ computeAuthorizedScope (scopeDigest sha256) p policies locations cameras
        = computeAuthorizedScope (scopeDigest sha256) q policies' locations' cameras' := by
  constructor
  · intro hhash
    have hpayload := scopeDigest_injective h hhash
    rw [ScopePayload.mk.injEq] at hpayload
    obtain ⟨htenant, hprincipal, hcameras, hlocations, hpolicies, hlevel, hcapabilities⟩ :=
      hpayload
    unfold computeAuthorizedScope at hhash ⊢
    rw [AuthorizedScope.mk.injEq]
    exact ⟨htenant, hprincipal, hcameras, hlocations, hpolicies, hlevel,
      capabilitiesFor_of_sorted hcapabilities, hhash⟩
  · exact congrArg AuthorizedScope.scopeHash

end Computed

end Authorization

end CctvMemory
