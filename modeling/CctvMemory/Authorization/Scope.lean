import CctvMemory.Library.KeySort
import CctvMemory.Publication.Store
import Mathlib.Data.List.Dedup
import Mathlib.Data.String.Basic

/-!
# Principals, policies and the authorized scope

`compute_authorized_scope` and `policy_permits_principal` of
`domain/policies`, `AuthorizedScope.permits_resource` of `contracts/auth.py`,
and the SQL filter the read adapters build from a scope
(`authorized_observation_filter`), which enumerates the allowed levels instead
of comparing ranks.

* `authorizedObservationFilter_iff`: the filter keeps exactly the records the
  scope permits.
-/

namespace CctvMemory.Authorization

open CctvMemory.Publication (ObservationRecord)

inductive Capability where
  | observationSearch
  | observationReadDetail
  | observationReadLocator
  | videoPlayback
  | analysisSubmit
  | analysisRerun
  | analysisPublish
  | cameraManage
  | policyManage
  | userManage
  | auditRead
  | runtimeManage
deriving DecidableEq, Repr

def Capability.value : Capability → String
  | .observationSearch => "observation.search"
  | .observationReadDetail => "observation.read_detail"
  | .observationReadLocator => "observation.read_locator"
  | .videoPlayback => "video.playback"
  | .analysisSubmit => "analysis.submit"
  | .analysisRerun => "analysis.rerun"
  | .analysisPublish => "analysis.publish"
  | .cameraManage => "camera.manage"
  | .policyManage => "policy.manage"
  | .userManage => "user.manage"
  | .auditRead => "audit.read"
  | .runtimeManage => "runtime.manage"

inductive PrincipalType where
  | user
  | serviceAccount
  | admin
deriving DecidableEq, Repr

structure Principal where
  principalId : String
  principalType : PrincipalType
  tenantId : String
  status : String
  roles : List String
  groups : List String
deriving DecidableEq

structure AccessPolicyRules where
  allowedRoles : List String := []
  allowedGroups : List String := []
  allowedPrincipals : List String := []
  deniedPrincipals : List String := []
deriving DecidableEq

structure AccessPolicy where
  accessPolicyId : String
  tenantId : String := "tenant_default"
  name : String
  securityLevel : SecurityLevel
  rules : AccessPolicyRules := {}
deriving DecidableEq

structure CameraLocation where
  locationId : String
  tenantId : String := "tenant_default"
  building : Option String := none
  floor : Option String := none
  area : String
  roomOrZone : Option String := none
  locationDesc : Option String := none
  accessPolicyId : Option String := none
  securityLevel : SecurityLevel := .internal
deriving DecidableEq

structure CameraDevice where
  cameraId : String
  tenantId : String := "tenant_default"
  cameraName : String
  locationId : String
  manufacturer : Option String := none
  model : Option String := none
  serialNumber : Option String := none
  installPositionDesc : Option String := none
  streamUri : Option String := none
  accessPolicyId : Option String := none
  status : String := "active"
deriving DecidableEq

structure AuthorizedScope where
  tenantId : String
  principalId : String
  allowedCameraIds : List String
  allowedLocationIds : List String
  allowedAccessPolicyIds : List String
  maxSecurityLevel : SecurityLevel
  capabilities : List Capability
  scopeHash : String
deriving DecidableEq

/-! ## Capabilities and permitted policies -/

def defaultUserCapabilities : List Capability :=
  [.observationSearch, .observationReadDetail, .observationReadLocator, .videoPlayback]

def serviceCapabilities : List Capability := [.analysisSubmit, .analysisRerun]

def adminCapabilities : List Capability :=
  [.observationSearch, .observationReadDetail, .observationReadLocator, .videoPlayback,
   .analysisSubmit, .analysisRerun, .analysisPublish, .cameraManage, .policyManage,
   .userManage, .auditRead, .runtimeManage]

def capabilitiesFor (p : Principal) : List Capability :=
  match p.principalType with
  | .admin => adminCapabilities
  | .serviceAccount => defaultUserCapabilities ++ serviceCapabilities
  | .user => defaultUserCapabilities

def policyPermitsPrincipal (policy : AccessPolicy) (p : Principal) : Bool :=
  let rules := policy.rules
  if p.principalId ∈ rules.deniedPrincipals then false
  else if p.principalId ∈ rules.allowedPrincipals then true
  else if p.roles.any fun role => decide (role ∈ rules.allowedRoles) then true
  else if p.groups.any fun group => decide (group ∈ rules.allowedGroups) then true
  else false

/-! ## The scope -/

def sorted (ids : List String) : List String := ids.mergeSort fun a b => decide (a ≤ b)

/-- The payload the scope hash is taken of. -/
structure ScopePayload where
  tenantId : String
  principalId : String
  allowedCameraIds : List String
  allowedLocationIds : List String
  allowedAccessPolicyIds : List String
  maxSecurityLevel : SecurityLevel
  capabilities : List String
deriving DecidableEq

/-- `digest` stands for the JSON encoding and the truncated SHA-256. -/
def computeScopeHash (digest : ScopePayload → String) (tenantId principalId : String)
    (allowedCameraIds allowedLocationIds allowedAccessPolicyIds : List String)
    (maxSecurityLevel : SecurityLevel) (capabilities : List Capability) : String :=
  digest {
    tenantId := tenantId
    principalId := principalId
    allowedCameraIds := sorted allowedCameraIds
    allowedLocationIds := sorted allowedLocationIds
    allowedAccessPolicyIds := sorted allowedAccessPolicyIds
    maxSecurityLevel := maxSecurityLevel
    capabilities := sorted (capabilities.map Capability.value) }

/-- An optional policy reference, set and non-empty, to a permitted policy. -/
def policyIdPermitted (permitted : List String) : Option String → Bool
  | none => false
  | some id => decide (id ≠ "") && decide (id ∈ permitted)

/-- The Python sets of ids are lists without duplicates here. -/
def computeAuthorizedScope (digest : ScopePayload → String) (principal : Principal)
    (policies : List AccessPolicy) (locations : List CameraLocation)
    (cameras : List CameraDevice) : AuthorizedScope :=
  let permitted := policies.filter fun policy => policyPermitsPrincipal policy principal
  let permittedPolicyIds := (permitted.map AccessPolicy.accessPolicyId).dedup
  let allowedLocationIds := ((locations.filter fun loc =>
    decide (loc.tenantId = principal.tenantId) &&
      policyIdPermitted permittedPolicyIds loc.accessPolicyId).map
        CameraLocation.locationId).dedup
  let allowedCameraIds := ((cameras.filter fun cam =>
    decide (cam.tenantId = principal.tenantId) &&
      (policyIdPermitted permittedPolicyIds cam.accessPolicyId ||
        decide (cam.locationId ∈ allowedLocationIds))).map CameraDevice.cameraId).dedup
  let maxLevel := permitted.foldl
    (fun level policy => SecurityLevel.stricter level policy.securityLevel) .public
  let capabilities := capabilitiesFor principal
  { tenantId := principal.tenantId
    principalId := principal.principalId
    allowedCameraIds := sorted allowedCameraIds
    allowedLocationIds := sorted allowedLocationIds
    allowedAccessPolicyIds := sorted permittedPolicyIds
    maxSecurityLevel := maxLevel
    capabilities := capabilities
    scopeHash := computeScopeHash digest principal.tenantId principal.principalId
      allowedCameraIds allowedLocationIds permittedPolicyIds maxLevel capabilities }

/-! ## What a scope permits -/

/-- `permits_resource`, at the resource dimensions of a record. -/
def AuthorizedScope.permitsResource (scope : AuthorizedScope) (r : ObservationRecord) : Bool :=
  if r.tenantId ≠ scope.tenantId then false
  else if r.cameraId ∉ scope.allowedCameraIds then false
  else if r.locationId ∉ scope.allowedLocationIds then false
  else if r.accessPolicyId ∉ scope.allowedAccessPolicyIds then false
  else scope.maxSecurityLevel.allows r.securityLevel

/-- `authorized_observation_filter`: the WHERE clause of the read adapters. -/
def authorizedObservationFilter (scope : AuthorizedScope) (r : ObservationRecord) : Bool :=
  let allowedLevels := SecurityLevel.all.filter scope.maxSecurityLevel.allows
  decide (r.tenantId = scope.tenantId) &&
  decide (r.cameraId ∈ scope.allowedCameraIds) &&
  decide (r.locationId ∈ scope.allowedLocationIds) &&
  decide (r.accessPolicyId ∈ scope.allowedAccessPolicyIds) &&
  decide (r.securityLevel ∈ allowedLevels)

theorem authorizedObservationFilter_iff (scope : AuthorizedScope) (r : ObservationRecord) :
    authorizedObservationFilter scope r = true ↔ scope.permitsResource r = true := by
  unfold authorizedObservationFilter AuthorizedScope.permitsResource
  have hlevel : r.securityLevel ∈ SecurityLevel.all.filter scope.maxSecurityLevel.allows
      ↔ scope.maxSecurityLevel.allows r.securityLevel = true := by
    rw [List.mem_filter]
    exact ⟨fun h => h.2, fun h => ⟨SecurityLevel.mem_all _, h⟩⟩
  by_cases ht : r.tenantId = scope.tenantId
  · by_cases hc : r.cameraId ∈ scope.allowedCameraIds
    · by_cases hl : r.locationId ∈ scope.allowedLocationIds
      · by_cases hp : r.accessPolicyId ∈ scope.allowedAccessPolicyIds
        · simp only [ht, hc, hl, hp, hlevel, decide_true, Bool.true_and, ne_eq,
            not_true_eq_false, if_false, decide_eq_true_eq]
        · simp [hp]
      · simp [hl]
    · simp [hc]
  · simp [ht]

/-! ## What the dimensions hold -/

/-- A policy of this id permits the principal. -/
def PermittedId (policies : List AccessPolicy) (p : Principal) (id : String) : Prop :=
  ∃ policy ∈ policies, policyPermitsPrincipal policy p = true ∧ policy.accessPolicyId = id

/-- The reference names a policy that permits the principal. -/
def PermittedRef (policies : List AccessPolicy) (p : Principal) (ref : Option String) : Prop :=
  ∃ id, ref = some id ∧ id ≠ "" ∧ PermittedId policies p id

def AllowedLocation (policies : List AccessPolicy) (p : Principal)
    (locations : List CameraLocation) (id : String) : Prop :=
  ∃ loc ∈ locations, loc.tenantId = p.tenantId ∧ PermittedRef policies p loc.accessPolicyId ∧
    loc.locationId = id

def AllowedCamera (policies : List AccessPolicy) (p : Principal)
    (locations : List CameraLocation) (cameras : List CameraDevice) (id : String) : Prop :=
  ∃ cam ∈ cameras, cam.tenantId = p.tenantId ∧
    (PermittedRef policies p cam.accessPolicyId ∨
      AllowedLocation policies p locations cam.locationId) ∧
    cam.cameraId = id

/-- Some permitted policy reaches the level; `public` needs none. -/
def ReachedLevel (policies : List AccessPolicy) (p : Principal) (level : SecurityLevel) : Prop :=
  level = .public ∨ ∃ policy ∈ policies, policyPermitsPrincipal policy p = true ∧
    policy.securityLevel.allows level = true

theorem mem_sorted {ids : List String} {id : String} : id ∈ sorted ids ↔ id ∈ ids :=
  (List.mergeSort_perm ids _).mem_iff

theorem allows_stricter_iff (a b level : SecurityLevel) :
    (SecurityLevel.stricter a b).allows level = true
      ↔ a.allows level = true ∨ b.allows level = true := by
  unfold SecurityLevel.stricter SecurityLevel.allows
  simp only [decide_eq_true_eq]
  split <;> omega

theorem allows_public_iff (level : SecurityLevel) :
    SecurityLevel.public.allows level = true ↔ level = .public := by
  cases level <;> decide

theorem allows_foldl_stricter (policies : List AccessPolicy) (start level : SecurityLevel) :
    (policies.foldl (fun l policy => SecurityLevel.stricter l policy.securityLevel) start).allows
        level = true
      ↔ start.allows level = true ∨ ∃ policy ∈ policies,
          policy.securityLevel.allows level = true := by
  induction policies generalizing start with
  | nil => simp
  | cons policy policies ih =>
      rw [List.foldl_cons, ih, allows_stricter_iff, or_assoc]
      simp

section Dimensions

variable (digest : ScopePayload → String) (p : Principal) (policies : List AccessPolicy)
  (locations : List CameraLocation) (cameras : List CameraDevice)

theorem mem_permitted_dedup (id : String) :
    id ∈ ((policies.filter fun policy => policyPermitsPrincipal policy p).map
        AccessPolicy.accessPolicyId).dedup ↔ PermittedId policies p id := by
  rw [List.mem_dedup, List.mem_map]
  constructor
  · rintro ⟨policy, hmem, rfl⟩
    exact ⟨policy, List.mem_of_mem_filter hmem, (List.mem_filter.mp hmem).2, rfl⟩
  · rintro ⟨policy, hmem, hpermits, rfl⟩
    exact ⟨policy, List.mem_filter.mpr ⟨hmem, hpermits⟩, rfl⟩

theorem policyIdPermitted_iff (ref : Option String) :
    policyIdPermitted ((policies.filter fun policy => policyPermitsPrincipal policy p).map
        AccessPolicy.accessPolicyId).dedup ref = true ↔ PermittedRef policies p ref := by
  cases ref with
  | none => simp [policyIdPermitted, PermittedRef]
  | some id =>
      unfold policyIdPermitted PermittedRef
      rw [Bool.and_eq_true, decide_eq_true_eq, decide_eq_true_eq, mem_permitted_dedup]
      simp

theorem mem_allowedAccessPolicyIds (id : String) :
    id ∈ (computeAuthorizedScope digest p policies locations cameras).allowedAccessPolicyIds
      ↔ PermittedId policies p id :=
  mem_sorted.trans (mem_permitted_dedup p policies id)

theorem mem_locations_dedup (id : String) :
    id ∈ ((locations.filter fun loc => decide (loc.tenantId = p.tenantId) &&
        policyIdPermitted ((policies.filter fun policy => policyPermitsPrincipal policy p).map
          AccessPolicy.accessPolicyId).dedup loc.accessPolicyId).map
            CameraLocation.locationId).dedup ↔ AllowedLocation policies p locations id := by
  rw [List.mem_dedup, List.mem_map]
  simp only [List.mem_filter, Bool.and_eq_true, decide_eq_true_eq, policyIdPermitted_iff,
    AllowedLocation, and_assoc]

theorem mem_allowedLocationIds (id : String) :
    id ∈ (computeAuthorizedScope digest p policies locations cameras).allowedLocationIds
      ↔ AllowedLocation policies p locations id :=
  mem_sorted.trans (mem_locations_dedup p policies locations id)

theorem mem_allowedCameraIds (id : String) :
    id ∈ (computeAuthorizedScope digest p policies locations cameras).allowedCameraIds
      ↔ AllowedCamera policies p locations cameras id := by
  refine mem_sorted.trans ?_
  rw [List.mem_dedup, List.mem_map]
  simp only [List.mem_filter, Bool.and_eq_true, Bool.or_eq_true, decide_eq_true_eq,
    policyIdPermitted_iff, mem_locations_dedup, AllowedCamera, and_assoc]

theorem maxSecurityLevel_allows (level : SecurityLevel) :
    (computeAuthorizedScope digest p policies locations cameras).maxSecurityLevel.allows level
        = true ↔ ReachedLevel policies p level := by
  refine (allows_foldl_stricter _ _ _).trans ?_
  rw [allows_public_iff]
  simp only [List.mem_filter, ReachedLevel, and_assoc]

/-- A record is let through when its tenant, camera, location, policy and level
each are. -/
theorem observationFilter_iff (r : ObservationRecord) :
    authorizedObservationFilter (computeAuthorizedScope digest p policies locations cameras) r
        = true
      ↔ r.tenantId = p.tenantId ∧ AllowedCamera policies p locations cameras r.cameraId ∧
        AllowedLocation policies p locations r.locationId ∧
        PermittedId policies p r.accessPolicyId ∧ ReachedLevel policies p r.securityLevel := by
  rw [← mem_allowedCameraIds digest, ← mem_allowedLocationIds digest p policies locations cameras,
    ← mem_allowedAccessPolicyIds digest p policies locations cameras,
    ← maxSecurityLevel_allows digest p policies locations cameras]
  unfold authorizedObservationFilter
  simp only [Bool.and_eq_true, decide_eq_true_eq, List.mem_filter, SecurityLevel.mem_all,
    true_and, and_assoc]
  exact Iff.rfl

end Dimensions

/-! ## Equal scopes -/

theorem sorted_congr {ids ids' : List String} (h : ids.Nodup) (h' : ids'.Nodup)
    (hmem : ∀ id, id ∈ ids ↔ id ∈ ids') : sorted ids = sorted ids' :=
  (SortKey.of_decide id).mergeSort_congr ((List.perm_ext_iff_of_nodup h h').mpr hmem)
    fun _ _ _ _ heq => heq

theorem SecurityLevel.eq_of_allows {a b : SecurityLevel}
    (h : ∀ level, a.allows level = true ↔ b.allows level = true) : a = b := by
  have hab := (h b).mpr (by simp [SecurityLevel.allows])
  have hba := (h a).mp (by simp [SecurityLevel.allows])
  unfold SecurityLevel.allows at hab hba
  rw [decide_eq_true_eq] at hab hba
  cases a <;> cases b <;> simp_all [SecurityLevel.rank]

/-- A principal has the same scope in two places exactly when the four
dimensions agree; the hash follows them. -/
theorem computeAuthorizedScope_eq_iff (digest : ScopePayload → String) (p : Principal)
    (policies policies' : List AccessPolicy) (locations locations' : List CameraLocation)
    (cameras cameras' : List CameraDevice) :
    computeAuthorizedScope digest p policies locations cameras
        = computeAuthorizedScope digest p policies' locations' cameras'
      ↔ (∀ id, PermittedId policies p id ↔ PermittedId policies' p id) ∧
        (∀ id, AllowedLocation policies p locations id
          ↔ AllowedLocation policies' p locations' id) ∧
        (∀ id, AllowedCamera policies p locations cameras id
          ↔ AllowedCamera policies' p locations' cameras' id) ∧
        (∀ level, ReachedLevel policies p level ↔ ReachedLevel policies' p level) := by
  constructor
  · intro h
    refine ⟨fun id => ?_, fun id => ?_, fun id => ?_, fun level => ?_⟩
    · rw [← mem_allowedAccessPolicyIds digest p policies locations cameras, h,
        mem_allowedAccessPolicyIds]
    · rw [← mem_allowedLocationIds digest p policies locations cameras, h,
        mem_allowedLocationIds]
    · rw [← mem_allowedCameraIds digest p policies locations cameras, h, mem_allowedCameraIds]
    · rw [← maxSecurityLevel_allows digest p policies locations cameras, h,
        maxSecurityLevel_allows]
  -- the lists are sorted, so that they are equal where their members are
  · rintro ⟨hpolicies, hlocations, hcameras, hlevels⟩
    have hp := sorted_congr (List.nodup_dedup _) (List.nodup_dedup _) fun id =>
      (mem_permitted_dedup p policies id).trans
        ((hpolicies id).trans (mem_permitted_dedup p policies' id).symm)
    have hl := sorted_congr (List.nodup_dedup _) (List.nodup_dedup _) fun id =>
      (mem_locations_dedup p policies locations id).trans
        ((hlocations id).trans (mem_locations_dedup p policies' locations' id).symm)
    have hc : (computeAuthorizedScope digest p policies locations cameras).allowedCameraIds
        = (computeAuthorizedScope digest p policies' locations' cameras').allowedCameraIds :=
      sorted_congr (List.nodup_dedup _) (List.nodup_dedup _) fun id =>
        mem_sorted.symm.trans ((mem_allowedCameraIds digest p policies locations cameras id).trans
          ((hcameras id).trans
            ((mem_allowedCameraIds digest p policies' locations' cameras' id).symm.trans
              mem_sorted)))
    have hm : (computeAuthorizedScope digest p policies locations cameras).maxSecurityLevel
        = (computeAuthorizedScope digest p policies' locations' cameras').maxSecurityLevel :=
      SecurityLevel.eq_of_allows fun level =>
        (maxSecurityLevel_allows digest p policies locations cameras level).trans
          ((hlevels level).trans
            (maxSecurityLevel_allows digest p policies' locations' cameras' level).symm)
    unfold computeAuthorizedScope at hc hm ⊢
    unfold computeScopeHash
    simp only at hc hm ⊢
    rw [hp, hl, hc, hm]

end CctvMemory.Authorization
