import CctvMemory.Provisioning.Store

/-!
# The policy chain and the scope

A record is published with the policy that the chain video, camera, location,
default resolves; the scope goes the other way, from the policies to the
locations bound to one and from there to the cameras. A visible record always
has a resolved policy that permits the principal. The way back breaks at a
location without a policy of its own: the chain falls through to the default,
the scope leaves the location out.

* `chainAgrees_iff`: the two agree exactly when a principal entitled to the
  record finds its location bound to a policy, and both rows in its tenant.
* `unregistered_camera_is_invisible`: the record of a provisioned camera.
-/

namespace CctvMemory.Provisioning

open Act (exec exec_bind_eq_ok)
open CctvMemory.Publication (ObservationRecord)
open CctvMemory.Authorization

/-! ## What a resolution leaves -/

/-- The rows a resolved context was read from, as they are stored afterwards. -/
structure Resolved (reg : Registry) (defaultPolicyId : String) (ctx : VideoContext) : Prop where
  camera : reg.cameras.get? ctx.source.cameraId = some ctx.camera
  location : reg.locations.get? ctx.camera.locationId = some ctx.location
  policy : ctx.accessPolicyId = resolveAccessPolicyId ctx.location (some ctx.camera)
    ctx.source.accessPolicyId defaultPolicyId
  level : ctx.securityLevel = effectiveSecurityLevel ctx.location (some ctx.camera)
    (reg.policies.get? ctx.accessPolicyId)

theorem exec_provisionCamera (cameraId : String) (reg : Registry) :
    ∃ reg', exec (provisionCamera cameraId) reg = (.ok (placeholderCamera cameraId), reg') ∧
      reg'.cameras.get? cameraId = some (placeholderCamera cameraId) := by
  unfold provisionCamera
  rw [Act.exec_bind]
  cases hauto : reg.locations.get? autoLocationId with
  | none =>
      refine ⟨(reg.upsertLocation (placeholderLocation autoLocationId)).upsertCamera
        (placeholderCamera cameraId), ?_, ?_⟩
      · unfold getLocation provisionLocation upsertLocation upsertCamera
        simp only [Act.exec_txn, Act.exec_bind, hauto]
      · exact get?_upsertCamera_self _ (placeholderCamera cameraId)
  | some location =>
      refine ⟨reg.upsertCamera (placeholderCamera cameraId), ?_, ?_⟩
      · unfold getLocation upsertCamera
        simp only [Act.exec_txn, hauto]
      · exact get?_upsertCamera_self _ (placeholderCamera cameraId)

theorem exec_cameraOf {cameraId : String} {reg reg' : Registry} {camera : CameraDevice}
    (h : exec (cameraOf cameraId) reg = (.ok camera, reg')) :
    reg'.cameras.get? cameraId = some camera := by
  unfold cameraOf at h
  obtain ⟨found, reg₁, hget, h⟩ := exec_bind_eq_ok.mp h
  have hread : exec (getCamera cameraId) reg = (.ok (reg.cameras.get? cameraId), reg) := by
    unfold getCamera
    rw [Act.exec_txn]
  rw [hread] at hget
  cases hget
  cases hcamera : reg.cameras.get? cameraId with
  | none =>
      rw [hcamera] at h
      obtain ⟨reg₂, hprovision, hstored⟩ := exec_provisionCamera cameraId reg
      rw [hprovision] at h
      cases h
      exact hstored
  | some stored =>
      rw [hcamera] at h
      cases h
      exact hcamera

theorem exec_locationOf {locationId : String} {reg reg' : Registry} {location : CameraLocation}
    (h : exec (locationOf locationId) reg = (.ok location, reg')) :
    reg'.locations.get? locationId = some location ∧ reg'.cameras = reg.cameras := by
  unfold locationOf at h
  obtain ⟨found, reg₁, hget, h⟩ := exec_bind_eq_ok.mp h
  have hread : exec (getLocation locationId) reg = (.ok (reg.locations.get? locationId), reg) := by
    unfold getLocation
    rw [Act.exec_txn]
  rw [hread] at hget
  cases hget
  cases hlocation : reg.locations.get? locationId with
  | none =>
      rw [hlocation] at h
      unfold provisionLocation upsertLocation at h
      rw [Act.exec_txn] at h
      cases h
      exact ⟨get?_upsertLocation_self _ (placeholderLocation locationId), rfl⟩
  | some stored =>
      rw [hlocation] at h
      cases h
      exact ⟨hlocation, rfl⟩

theorem resolveVideoContext_ok {videoId defaultPolicyId : String} {reg reg' : Registry}
    {ctx : VideoContext}
    (h : exec (resolveVideoContext videoId defaultPolicyId) reg = (.ok ctx, reg')) :
    Resolved reg' defaultPolicyId ctx := by
  unfold resolveVideoContext at h
  obtain ⟨found, reg₁, -, h⟩ := exec_bind_eq_ok.mp h
  cases found with
  | none => cases h
  | some source =>
      obtain ⟨camera, reg₂, hcamera, h⟩ := exec_bind_eq_ok.mp h
      obtain ⟨location, reg₃, hlocation, h⟩ := exec_bind_eq_ok.mp h
      obtain ⟨policy, reg₄, hpolicy, h⟩ := exec_bind_eq_ok.mp h
      have hread : ∀ id, exec (getAccessPolicy id) reg₃ = (.ok (reg₃.policies.get? id), reg₃) := by
        intro id
        unfold getAccessPolicy
        rw [Act.exec_txn]
      rw [hread] at hpolicy
      cases hpolicy
      cases h
      obtain ⟨hstored, hcameras⟩ := exec_locationOf hlocation
      constructor
      · show reg'.cameras.get? source.cameraId = some camera
        rw [hcameras]
        exact exec_cameraOf hcamera
      · exact hstored
      · rfl
      · rfl

/-! ## Visible records -/

def scopeOf (digest : ScopePayload → String) (p : Principal) (reg : Registry) : AuthorizedScope :=
  computeAuthorizedScope digest p reg.policies.rows reg.locations.rows reg.cameras.rows

/-- The record is in the principal's tenant, under a policy that permits it, at
a level not above its maximum. -/
structure Cleared (digest : ScopePayload → String) (p : Principal) (reg : Registry)
    (r : ObservationRecord) : Prop where
  tenant : r.tenantId = p.tenantId
  policy : PermittedId reg.policies.rows p r.accessPolicyId
  level : (scopeOf digest p reg).maxSecurityLevel.allows r.securityLevel = true

/-- The policy set on a row, if one is, permits the principal. -/
def NotExcluded (p : Principal) (reg : Registry) (ref : Option String) : Prop :=
  ∀ id, setRef ref = some id → PermittedId reg.policies.rows p id

/-- An active principal that the resolved policy clears and no policy on the
camera or the location excludes. -/
structure Entitled (digest : ScopePayload → String) (p : Principal) (reg : Registry)
    (ctx : VideoContext) (r : ObservationRecord) : Prop where
  active : p.status = "active"
  cleared : Cleared digest p reg r
  camera : NotExcluded p reg ctx.camera.accessPolicyId
  location : NotExcluded p reg ctx.location.accessPolicyId

/-- The chain and the scope agree about a record: who sees it is cleared for it,
and who is entitled to it sees it. -/
def ChainAgrees (digest : ScopePayload → String) (p : Principal) (reg : Registry)
    (ctx : VideoContext) (r : ObservationRecord) : Prop :=
  (authorizedObservationFilter (scopeOf digest p reg) r = true → Cleared digest p reg r) ∧
    (Entitled digest p reg ctx r → authorizedObservationFilter (scopeOf digest p reg) r = true)

/-- The camera and the location are of the principal's tenant, and the location
has a policy of its own. -/
structure Bound (p : Principal) (ctx : VideoContext) : Prop where
  camera : ctx.camera.tenantId = p.tenantId
  location : ctx.location.tenantId = p.tenantId
  policy : (setRef ctx.location.accessPolicyId).isSome = true

theorem permittedRef_iff (policies : List AccessPolicy) (p : Principal) (ref : Option String) :
    PermittedRef policies p ref ↔ ∃ id, setRef ref = some id ∧ PermittedId policies p id := by
  unfold PermittedRef setRef
  constructor
  · rintro ⟨id, rfl, hne, hid⟩
    exact ⟨id, by simp [hne], hid⟩
  · rintro ⟨id, href, hid⟩
    rw [Option.filter_eq_some_iff, decide_eq_true_eq] at href
    exact ⟨id, href.1, href.2, hid⟩

section Resolved

variable {digest : ScopePayload → String} {p : Principal} {reg : Registry}
  {defaultPolicyId : String} {ctx : VideoContext}

theorem Resolved.allowedLocation_iff (h : Resolved reg defaultPolicyId ctx) :
    AllowedLocation reg.policies.rows p reg.locations.rows ctx.camera.locationId
      ↔ ctx.location.tenantId = p.tenantId ∧
        PermittedRef reg.policies.rows p ctx.location.accessPolicyId := by
  obtain ⟨hmem, hkey⟩ := Keyed.Table.get?_eq_some_iff.mp h.location
  constructor
  · rintro ⟨loc, hloc, htenant, href, hid⟩
    rw [Keyed.Table.eq_of_key_eq hloc hmem (hid.trans hkey.symm)] at htenant href
    exact ⟨htenant, href⟩
  · rintro ⟨htenant, href⟩
    exact ⟨ctx.location, hmem, htenant, href, hkey⟩

/-- The camera comes with its location. -/
theorem Resolved.allowedCamera (h : Resolved reg defaultPolicyId ctx)
    (hlocation : AllowedLocation reg.policies.rows p reg.locations.rows ctx.camera.locationId) :
    AllowedCamera reg.policies.rows p reg.locations.rows reg.cameras.rows ctx.source.cameraId
      ↔ ctx.camera.tenantId = p.tenantId := by
  obtain ⟨hmem, hkey⟩ := Keyed.Table.get?_eq_some_iff.mp h.camera
  constructor
  · rintro ⟨cam, hcam, htenant, -, hid⟩
    rw [Keyed.Table.eq_of_key_eq hcam hmem (hid.trans hkey.symm)] at htenant
    exact htenant
  · intro htenant
    exact ⟨ctx.camera, hmem, htenant, Or.inr hlocation, hkey⟩

theorem Resolved.visible_iff (h : Resolved reg defaultPolicyId ctx) (out : SegmentOutput) :
    authorizedObservationFilter (scopeOf digest p reg) (buildObservationRecord ctx out) = true
      ↔ Cleared digest p reg (buildObservationRecord ctx out) ∧
        ctx.camera.tenantId = p.tenantId ∧ ctx.location.tenantId = p.tenantId ∧
        PermittedRef reg.policies.rows p ctx.location.accessPolicyId := by
  unfold scopeOf
  rw [observationFilter_iff]
  constructor
  · rintro ⟨htenant, hcamera, hlocation, hpolicy, hlevel⟩
    have hloc := h.allowedLocation_iff.mp hlocation
    refine ⟨⟨htenant, hpolicy, ?_⟩, (h.allowedCamera hlocation).mp hcamera, hloc⟩
    exact (maxSecurityLevel_allows ..).mpr hlevel
  · rintro ⟨⟨htenant, hpolicy, hlevel⟩, hcamera, hloc⟩
    have hlocation := h.allowedLocation_iff.mpr hloc
    exact ⟨htenant, (h.allowedCamera hlocation).mpr hcamera, hlocation, hpolicy,
      (maxSecurityLevel_allows ..).mp hlevel⟩

end Resolved

/-- For every video that resolves, and whatever the model answers: visible means
cleared, and entitled means visible exactly when the location is bound. -/
theorem chainAgrees_iff (digest : ScopePayload → String) (p : Principal)
    (videoId defaultPolicyId : String) (reg reg' : Registry) (ctx : VideoContext)
    (out : SegmentOutput)
    (h : exec (resolveVideoContext videoId defaultPolicyId) reg = (.ok ctx, reg')) :
    ChainAgrees digest p reg' ctx (buildObservationRecord ctx out)
      ↔ (Entitled digest p reg' ctx (buildObservationRecord ctx out) → Bound p ctx) := by
  have hresolved := resolveVideoContext_ok h
  constructor
  · rintro ⟨-, hconverse⟩ hentitled
    obtain ⟨-, hcamera, hlocation, href⟩ := (hresolved.visible_iff out).mp (hconverse hentitled)
    obtain ⟨id, hset, -⟩ := (permittedRef_iff _ _ _).mp href
    exact ⟨hcamera, hlocation, by rw [hset]; rfl⟩
  · intro hbound
    constructor
    · intro hvisible
      exact ((hresolved.visible_iff out).mp hvisible).1
    · intro hentitled
      obtain ⟨hcamera, hlocation, hpolicy⟩ := hbound hentitled
      obtain ⟨id, hset⟩ := Option.isSome_iff_exists.mp hpolicy
      refine (hresolved.visible_iff out).mpr ⟨hentitled.cleared, hcamera, hlocation, ?_⟩
      exact (permittedRef_iff _ _ _).mpr ⟨id, hset, hentitled.location id hset⟩

/-! ## A registered and an unregistered camera -/

def videoOf (videoId cameraId : String) : VideoSource where
  videoId := videoId
  sourceType := .file
  sourceUri := "/data/videos/" ++ videoId ++ ".mp4"
  cameraId := cameraId
  videoStartTime := .utc 0

/-- The seeded rows, and a video of the lobby camera and of an unknown one. -/
def office : Registry where
  videos := ⟨[videoOf "vid_1" "cam_lobby_01", videoOf "vid_2" "cam_new"], by decide⟩
  locations := ⟨[lobbyLocation, buildAutoLocation], by decide⟩
  cameras := ⟨[lobbyCamera], by decide⟩
  policies := ⟨[devPolicy], by decide⟩
  principals := ⟨[devPrincipal], by decide⟩

def personWalks : SegmentOutput where
  recordId := "obs_1"
  analysisJobId := "job_1"
  analysisScale := .defaultSegment
  segmentStartMs := 0
  segmentEndMs := 30000
  staticText := "a person"
  dynamicText := "walks by"
  tags := []
  attributes := "{}"

def lobbyContext : VideoContext where
  source := videoOf "vid_1" "cam_lobby_01"
  camera := lobbyCamera
  location := lobbyLocation
  accessPolicyId := devPolicyId
  securityLevel := .internal

theorem lobby_chain_agrees :
    exec (resolveVideoContext "vid_1" devPolicyId) office = (.ok lobbyContext, office) ∧
      ChainAgrees (fun _ => "scope") devPrincipal office lobbyContext
        (buildObservationRecord lobbyContext personWalks) :=
  ⟨rfl, (chainAgrees_iff (fun _ => "scope") devPrincipal "vid_1" devPolicyId office office
    lobbyContext personWalks rfl).mpr fun _ => ⟨rfl, rfl, rfl⟩⟩

def newCameraContext : VideoContext where
  source := videoOf "vid_2" "cam_new"
  camera := placeholderCamera "cam_new"
  location := buildAutoLocation
  accessPolicyId := devPolicyId
  securityLevel := .internal

/-- The record of a camera nobody registered is published under the default
policy. The administrator has the role that policy allows, no other policy
stands in its way, and it does not see the record. -/
theorem unregistered_camera_is_invisible :
    let reg := office.upsertCamera (placeholderCamera "cam_new")
    let r := buildObservationRecord newCameraContext personWalks
    exec (resolveVideoContext "vid_2" devPolicyId) office = (.ok newCameraContext, reg) ∧
      Entitled (fun _ => "scope") devPrincipal reg newCameraContext r ∧
      authorizedObservationFilter (scopeOf (fun _ => "scope") devPrincipal reg) r = false := by
  intro reg r
  have hresolves : exec (resolveVideoContext "vid_2" devPolicyId) office
      = (.ok newCameraContext, reg) := rfl
  refine ⟨hresolves, ⟨rfl, ⟨rfl, ?_, ?_⟩, ?_, ?_⟩, ?_⟩
  · exact ⟨devPolicy, List.mem_singleton_self _, by decide, rfl⟩
  · exact (maxSecurityLevel_allows ..).mpr
      (Or.inr ⟨devPolicy, List.mem_singleton_self _, by decide, by decide⟩)
  · intro id hset
    cases hset
  · intro id hset
    cases hset
  · rw [Bool.eq_false_iff]
    intro hvisible
    obtain ⟨-, -, -, id, href, -⟩ :=
      ((resolveVideoContext_ok hresolves).visible_iff personWalks).mp hvisible
    cases href

end CctvMemory.Provisioning
