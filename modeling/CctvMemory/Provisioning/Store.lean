import CctvMemory.Authorization.Scope
import CctvMemory.Library.Act

/-!
# The registry and who writes it

Locations, cameras, policies and principals, with the repository calls on them,
`resolve_video_context` and its lenient provisioning (`workers/common.py`), and
`seed_local_defaults`. Every repository call is one atomic step; what a call
misses and what it writes is its output.
-/

namespace CctvMemory.Provisioning

open Keyed (Table)
open CctvMemory.Publication (ObservationRecord)
open CctvMemory.Authorization

/-! ## Rows -/

inductive SourceType where
  | file
  | rtspChunk
  | objectStorage
  | external
deriving DecidableEq, Repr

structure VideoSource where
  videoId : String
  tenantId : String := "tenant_default"
  sourceType : SourceType
  sourceUri : String
  cameraId : String
  videoStartTime : Iso.DateTime
  sourceStatus : String := "pending"
  externalSourceId : Option String := none
  accessPolicyId : Option String := none
  /-- Set by the probe. -/
  videoEndTime : Option Iso.DateTime := none
  durationMs : Option ℕ := none
deriving DecidableEq

structure Registry where
  videos : Table VideoSource VideoSource.videoId
  locations : Table CameraLocation CameraLocation.locationId
  cameras : Table CameraDevice CameraDevice.cameraId
  policies : Table AccessPolicy AccessPolicy.accessPolicyId
  principals : Table Principal Principal.principalId

/-- The primary key of a location or camera row. -/
inductive RowKey where
  | location (id : String)
  | camera (id : String)
deriving DecidableEq, Repr

/-- A lookup that found no row, or a row that was written. -/
inductive Access where
  | missed (key : RowKey)
  | wrote (key : RowKey)
deriving DecidableEq, Repr

inductive RegistryError where
  | notFound (message : String)
  | conflict
deriving DecidableEq, Repr

/-- A program of repository calls. -/
abbrev RegistryAct (α : Type) := Act RegistryError Registry Access α

/-! ## Repository calls -/

def getVideo (videoId : String) : RegistryAct (Option VideoSource) :=
  Act.txn fun reg => .ok (reg.videos.get? videoId, reg, [])

def missedIfNone {ρ : Type} (key : RowKey) : Option ρ → List Access
  | none => [.missed key]
  | some _ => []

def getLocation (locationId : String) : RegistryAct (Option CameraLocation) :=
  Act.txn fun reg => .ok (reg.locations.get? locationId, reg,
    missedIfNone (.location locationId) (reg.locations.get? locationId))

def getCamera (cameraId : String) : RegistryAct (Option CameraDevice) :=
  Act.txn fun reg => .ok (reg.cameras.get? cameraId, reg,
    missedIfNone (.camera cameraId) (reg.cameras.get? cameraId))

/-- Insert, and on a taken key apply the incoming fields to the row there. -/
def upsertByPk {ρ : Type} {key : ρ → String} (t : Table ρ key) (incoming : ρ)
    (applyUpdate : ρ → ρ) (hkey : ∀ r, key (applyUpdate r) = key r) : Table ρ key :=
  match t.insert? incoming with
  | some t' => t'
  | none => t.modify (key incoming) applyUpdate hkey

/-- `_apply` of `upsert_location`: every field but the key. -/
def applyLocation (incoming existing : CameraLocation) : CameraLocation :=
  { existing with
    tenantId := incoming.tenantId
    building := incoming.building
    floor := incoming.floor
    area := incoming.area
    roomOrZone := incoming.roomOrZone
    locationDesc := incoming.locationDesc
    accessPolicyId := incoming.accessPolicyId
    securityLevel := incoming.securityLevel }

/-- `_apply` of `upsert_camera`: every field but the key. -/
def applyCamera (incoming existing : CameraDevice) : CameraDevice :=
  { existing with
    tenantId := incoming.tenantId
    cameraName := incoming.cameraName
    locationId := incoming.locationId
    manufacturer := incoming.manufacturer
    model := incoming.model
    serialNumber := incoming.serialNumber
    installPositionDesc := incoming.installPositionDesc
    streamUri := incoming.streamUri
    accessPolicyId := incoming.accessPolicyId
    status := incoming.status }

def Registry.upsertLocation (reg : Registry) (location : CameraLocation) : Registry :=
  { reg with locations := upsertByPk reg.locations location (applyLocation location) fun _ => rfl }

def Registry.upsertCamera (reg : Registry) (camera : CameraDevice) : Registry :=
  { reg with cameras := upsertByPk reg.cameras camera (applyCamera camera) fun _ => rfl }

def upsertLocation (location : CameraLocation) : RegistryAct CameraLocation :=
  Act.txn fun reg =>
    .ok (location, reg.upsertLocation location, [.wrote (.location location.locationId)])

def upsertCamera (camera : CameraDevice) : RegistryAct CameraDevice :=
  Act.txn fun reg => .ok (camera, reg.upsertCamera camera, [.wrote (.camera camera.cameraId)])

def getAccessPolicy (policyId : String) : RegistryAct (Option AccessPolicy) :=
  Act.txn fun reg => .ok (reg.policies.get? policyId, reg, [])

def upsertAccessPolicy (policy : AccessPolicy) : RegistryAct AccessPolicy :=
  Act.txn fun reg => .ok (policy, { reg with policies := reg.policies.put policy }, [])

def getPrincipal (principalId : String) : RegistryAct (Option Principal) :=
  Act.txn fun reg => .ok (reg.principals.get? principalId, reg, [])

def createPrincipal (principal : Principal) : RegistryAct Unit :=
  Act.txn fun reg => match reg.principals.insert? principal with
    | none => .error .conflict
    | some principals => .ok ((), { reg with principals := principals }, [])

theorem get?_upsertByPk {ρ : Type} {key : ρ → String} (t : Table ρ key) (incoming : ρ)
    {applyUpdate : ρ → ρ} (hkey : ∀ r, key (applyUpdate r) = key r)
    (happly : ∀ r, key r = key incoming → applyUpdate r = incoming) (k : String) :
    (upsertByPk t incoming applyUpdate hkey).get? k
      = if key incoming = k then some incoming else t.get? k := by
  unfold upsertByPk
  cases hins : t.insert? incoming with
  | some t' => exact Table.get?_insert? hins k
  | none =>
      show (t.modify (key incoming) applyUpdate hkey).get? k = _
      rw [Table.get?_modify]
      by_cases hk : key incoming = k
      · subst hk
        rw [if_pos rfl, if_pos rfl]
        cases hget : t.get? (key incoming) with
        | none =>
            have hfree : t.insert? incoming ≠ none := by
              unfold Table.insert?
              rw [dif_neg]
              · simp
              · intro hmem
                obtain ⟨r, hr, hkr⟩ := List.mem_map.mp hmem
                exact Table.get?_eq_none_iff.mp hget r hr hkr
            exact absurd hins hfree
        | some r => exact congrArg some (happly r (Table.key_of_get? hget))
      · rw [if_neg hk, if_neg hk]

theorem get?_upsertLocation (reg : Registry) (location : CameraLocation) (id : String) :
    (reg.upsertLocation location).locations.get? id
      = if location.locationId = id then some location else reg.locations.get? id := by
  apply get?_upsertByPk
  intro r hr
  unfold applyLocation
  rw [hr]

theorem get?_upsertCamera (reg : Registry) (camera : CameraDevice) (id : String) :
    (reg.upsertCamera camera).cameras.get? id
      = if camera.cameraId = id then some camera else reg.cameras.get? id := by
  apply get?_upsertByPk
  intro r hr
  unfold applyCamera
  rw [hr]

theorem get?_upsertLocation_self (reg : Registry) (location : CameraLocation) :
    (reg.upsertLocation location).locations.get? location.locationId = some location := by
  rw [get?_upsertLocation, if_pos rfl]

theorem get?_upsertCamera_self (reg : Registry) (camera : CameraDevice) :
    (reg.upsertCamera camera).cameras.get? camera.cameraId = some camera := by
  rw [get?_upsertCamera, if_pos rfl]

/-! ## Placeholders -/

def autoLocationId : String := "loc_auto_unregistered"

/-- The placeholder row of a location, with no access policy. -/
def placeholderLocation (locationId : String) : CameraLocation where
  locationId := locationId
  area := "unregistered"
  locationDesc := some "Auto-created for an unregistered camera"
  securityLevel := .internal

def buildAutoLocation : CameraLocation := placeholderLocation autoLocationId

def placeholderCamera (cameraId : String) : CameraDevice where
  cameraId := cameraId
  cameraName := cameraId
  locationId := autoLocationId
  status := "active"

def provisionLocation (locationId : String) : RegistryAct CameraLocation :=
  upsertLocation (placeholderLocation locationId)

/-- The placeholder location is ensured before the camera refers to it. -/
def provisionCamera (cameraId : String) : RegistryAct CameraDevice := do
  match ← getLocation autoLocationId with
  | none =>
      let _ ← provisionLocation autoLocationId
      upsertCamera (placeholderCamera cameraId)
  | some _ => upsertCamera (placeholderCamera cameraId)

/-! ## The video context -/

/-- A reference that counts: neither `None` nor empty. -/
def setRef (ref : Option String) : Option String := ref.filter fun id => decide (id ≠ "")

/-- `VideoSource -> CameraDevice -> CameraLocation -> system default`. -/
def resolveAccessPolicyId (location : CameraLocation) (camera : Option CameraDevice)
    (videoAccessPolicyId : Option String) (defaultPolicyId : String) : String :=
  match setRef videoAccessPolicyId with
  | some id => id
  | none => match setRef (camera.bind CameraDevice.accessPolicyId) with
    | some id => id
    | none => match setRef location.accessPolicyId with
      | some id => id
      | none => defaultPolicyId

/-- The camera is an argument that the code does not look at. -/
def effectiveSecurityLevel (location : CameraLocation) (_camera : Option CameraDevice)
    (policy : Option AccessPolicy) : SecurityLevel :=
  match policy with
  | none => location.securityLevel
  | some policy => SecurityLevel.stricter location.securityLevel policy.securityLevel

structure VideoContext where
  source : VideoSource
  camera : CameraDevice
  location : CameraLocation
  accessPolicyId : String
  securityLevel : SecurityLevel
deriving DecidableEq

def cameraOf (cameraId : String) : RegistryAct CameraDevice := do
  match ← getCamera cameraId with
  | none => provisionCamera cameraId
  | some camera => pure camera

def locationOf (locationId : String) : RegistryAct CameraLocation := do
  match ← getLocation locationId with
  | none => provisionLocation locationId
  | some location => pure location

def resolveVideoContext (videoId defaultPolicyId : String) : RegistryAct VideoContext := do
  match ← getVideo videoId with
  | none => throw (.notFound ("video " ++ videoId ++ " not found"))
  | some source =>
      let camera ← cameraOf source.cameraId
      let location ← locationOf camera.locationId
      let policyId :=
        resolveAccessPolicyId location (some camera) source.accessPolicyId defaultPolicyId
      let policy ← getAccessPolicy policyId
      pure {
        source := source
        camera := camera
        location := location
        accessPolicyId := policyId
        securityLevel := effectiveSecurityLevel location (some camera) policy }

/-! ## Seeding -/

def devPrincipalId : String := "user_admin"

def devPolicyId : String := "policy_public_area"

def devRole : String := "security_admin"

def devPolicy : AccessPolicy where
  accessPolicyId := devPolicyId
  name := "Public Area"
  securityLevel := .internal
  rules := { allowedRoles := [devRole] }

def devPrincipal : Principal where
  principalId := devPrincipalId
  principalType := .admin
  tenantId := "tenant_default"
  status := "active"
  roles := [devRole]
  groups := []

def lobbyLocation : CameraLocation where
  locationId := "loc_lobby_01"
  area := "lobby"
  accessPolicyId := some devPolicyId
  securityLevel := .internal

def lobbyCamera : CameraDevice where
  cameraId := "cam_lobby_01"
  cameraName := "Lobby Cam"
  locationId := "loc_lobby_01"
  accessPolicyId := some devPolicyId
  status := "active"

def seedPrincipal : RegistryAct Unit := do
  match ← getPrincipal devPrincipalId with
  | none => createPrincipal devPrincipal
  | some _ => pure ()

def seedLocalDefaults : RegistryAct Unit := do
  let _ ← upsertLocation buildAutoLocation
  let _ ← upsertAccessPolicy devPolicy
  seedPrincipal
  let _ ← upsertLocation lobbyLocation
  let _ ← upsertCamera lobbyCamera
  pure ()

/-! ## The record of a segment -/

/-- What a record takes from the model's answer and the pipeline, not from the
video context. -/
structure SegmentOutput where
  recordId : String
  analysisJobId : String
  analysisScale : AnalysisScale
  segmentStartMs : ℤ
  segmentEndMs : ℤ
  staticText : String
  dynamicText : String
  tags : List String
  attributes : String

/-- `video_start_time + timedelta(milliseconds=ms)`, on the same clock. -/
def addMilliseconds (d : Iso.DateTime) (ms : ℤ) : Iso.DateTime :=
  { d with wall := d.wall + ms * 1000 }

def buildObservationRecord (ctx : VideoContext) (out : SegmentOutput) : ObservationRecord where
  recordId := out.recordId
  tenantId := ctx.source.tenantId
  videoId := ctx.source.videoId
  analysisJobId := out.analysisJobId
  analysisScale := out.analysisScale
  segmentStartMs := out.segmentStartMs
  segmentEndMs := out.segmentEndMs
  observedStartTime := addMilliseconds ctx.source.videoStartTime out.segmentStartMs
  observedEndTime := addMilliseconds ctx.source.videoStartTime out.segmentEndMs
  cameraId := ctx.source.cameraId
  locationId := ctx.camera.locationId
  staticDescriptionText := out.staticText
  dynamicDescriptionText := out.dynamicText
  tags := out.tags
  attributes := out.attributes
  accessPolicyId := ctx.accessPolicyId
  securityLevel := ctx.securityLevel

end CctvMemory.Provisioning
