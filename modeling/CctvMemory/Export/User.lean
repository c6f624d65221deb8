import CctvMemory.Provisioning.Chain
import CctvMemory.Search.Outcome

/-!
# The user export

`BackupService.user_export`: the records of the candidate pool without filters,
and the video sources of these records, each read again under
`authorized_video_filter`. That filter looks at the policy a source was stored
with, the records carry the one the chain video, camera, location, default
resolved.

* `exportCorrect_iff`: the export is authorized and complete exactly when every
  source it should hold was stored with a permitted policy of its own.
* `videoSources_eq_nil`: submitted sources are stored without one.
-/

namespace CctvMemory.Export

open CctvMemory.Publication (ObservationRecord ObservationStore)
open CctvMemory.Authorization
open CctvMemory.Provisioning
open CctvMemory.Search (Engine ServiceError StartRequest authorizedCandidatePool)

/-! ## The service -/

structure ExportedObservationRecord where
  recordId : String
  videoId : String
  cameraId : String
  locationId : String
  analysisScale : AnalysisScale
  segmentStartMs : ℤ
  segmentEndMs : ℤ
  observedStartTime : Iso.DateTime
  observedEndTime : Iso.DateTime
  staticDescriptionText : String
  dynamicDescriptionText : String
  tags : List String
  attributes : String
  accessPolicyId : String
  securityLevel : SecurityLevel
deriving DecidableEq

structure ExportedVideoSource where
  videoId : String
  cameraId : String
  sourceType : SourceType
  videoStartTime : Iso.DateTime
  videoEndTime : Option Iso.DateTime
  durationMs : Option ℕ
  externalSourceId : Option String
  accessPolicyId : Option String
deriving DecidableEq

structure BackupManifest where
  backupType : String := "user_authorized_export"
  createdAt : ℤ
  createdByPrincipalId : String
  databaseEngine : String := "sqlite"
  dataScope : String := "user_authorized"
  includedPaths : List String := []
  observationRecords : ℕ
  videoSources : ℕ
  exportScope : String := "user_authorized_export"
  scopeHash : String
deriving DecidableEq

structure UserExportBundle where
  manifest : BackupManifest
  records : List ExportedObservationRecord
  videoSources : List ExportedVideoSource
deriving DecidableEq

structure ExportAudit where
  eventType : String
  principalId : String
  resourceScopeHash : String
  recordCount : Option ℕ := none
deriving DecidableEq

def toExportedRecord (r : ObservationRecord) : ExportedObservationRecord where
  recordId := r.recordId
  videoId := r.videoId
  cameraId := r.cameraId
  locationId := r.locationId
  analysisScale := r.analysisScale
  segmentStartMs := r.segmentStartMs
  segmentEndMs := r.segmentEndMs
  observedStartTime := r.observedStartTime
  observedEndTime := r.observedEndTime
  staticDescriptionText := r.staticDescriptionText
  dynamicDescriptionText := r.dynamicDescriptionText
  tags := r.tags
  attributes := r.attributes
  accessPolicyId := r.accessPolicyId
  securityLevel := r.securityLevel

def toExportedVideo (v : VideoSource) : ExportedVideoSource where
  videoId := v.videoId
  cameraId := v.cameraId
  sourceType := v.sourceType
  videoStartTime := v.videoStartTime
  videoEndTime := v.videoEndTime
  durationMs := v.durationMs
  externalSourceId := v.externalSourceId
  accessPolicyId := v.accessPolicyId

/-- `authorized_video_filter`: a policy id that is `NULL` is in no list. -/
def authorizedVideoFilter (scope : AuthorizedScope) (v : VideoSource) : Bool :=
  decide (v.tenantId = scope.tenantId) &&
  decide (v.cameraId ∈ scope.allowedCameraIds) &&
  match v.accessPolicyId with
  | none => false
  | some id => decide (id ∈ scope.allowedAccessPolicyIds)

def getAuthorizedVideoById (reg : Registry) (videoId : String) (scope : AuthorizedScope) :
    Option VideoSource :=
  reg.videos.rows.find? fun v => decide (v.videoId = videoId) && authorizedVideoFilter scope v

def exportedVideoSources (reg : Registry) (records : List ObservationRecord)
    (scope : AuthorizedScope) : List ExportedVideoSource :=
  (sorted (records.map ObservationRecord.videoId).dedup).filterMap fun videoId =>
    (getAuthorizedVideoById reg videoId scope).map toExportedVideo

/-- A read of the pool without filters. -/
def noFilters : StartRequest where
  queryText := none
  timeRange := none
  cameraIds := []
  locationIds := []
  videoIds := []
  tagFilters := []
  analysisScaleFilter := []
  preferredAnalysisScales := []
  searchMode := .staticAttribute
  topK := 0

/-- The default limit of `user_export`. -/
def exportLimit : ℤ := 100000

section Service

variable (eng : Engine) (store : ObservationStore) (reg : Registry) (now : ℤ)
  (scope : AuthorizedScope)

/-- The records the export reads. -/
def exportPool : List ObservationRecord :=
  authorizedCandidatePool eng store scope noFilters exportLimit

def userBundle : UserExportBundle :=
  let records := exportPool eng store scope
  let exportedRecords := records.map toExportedRecord
  let exportedVideos := exportedVideoSources reg records scope
  { manifest := {
      createdAt := now
      createdByPrincipalId := scope.principalId
      observationRecords := exportedRecords.length
      videoSources := exportedVideos.length
      scopeHash := scope.scopeHash }
    records := exportedRecords
    videoSources := exportedVideos }

/-- `user_export`, and the audit events it appends. -/
def userExport : Except ServiceError UserExportBundle × List ExportAudit :=
  if Capability.observationSearch ∈ scope.capabilities then
    let bundle := userBundle eng store reg now scope
    (.ok bundle,
      [⟨"export_started", scope.principalId, scope.scopeHash, none⟩,
        ⟨"export_succeeded", scope.principalId, scope.scopeHash, some bundle.records.length⟩])
  else
    (.error ⟨.capabilityDenied, "observation.search required for user export"⟩, [])

end Service

/-! ## What is asked of an export -/

/-- The policy in effect for a video: the chain, with the rows that resolving it
provisions where the camera or its location is missing. -/
def effectivePolicyId (reg : Registry) (defaultPolicyId : String) (v : VideoSource) : String :=
  let camera := (reg.cameras.get? v.cameraId).getD (placeholderCamera v.cameraId)
  let location :=
    (reg.locations.get? camera.locationId).getD (placeholderLocation camera.locationId)
  resolveAccessPolicyId location (some camera) v.accessPolicyId defaultPolicyId

section Spec

variable (p : Principal) (reg : Registry)

/-- The principal may use the policy in effect for the video. -/
def Permits (defaultPolicyId : String) (v : VideoSource) : Prop :=
  PermittedId reg.policies.rows p (effectivePolicyId reg defaultPolicyId v)

/-- The row itself is let through: tenant, camera, and a policy of its own. -/
structure Labelled (v : VideoSource) : Prop where
  tenant : v.tenantId = p.tenantId
  camera : AllowedCamera reg.policies.rows p reg.locations.rows reg.cameras.rows v.cameraId
  policy : ∃ id, v.accessPolicyId = some id ∧ PermittedId reg.policies.rows p id

structure ExportCorrect (digest : ScopePayload → String) (store : ObservationStore)
    (defaultPolicyId : String) (bundle : UserExportBundle) : Prop where
  records : ∀ x ∈ bundle.records, ∃ r ∈ store.active.rows, x = toExportedRecord r ∧
    (scopeOf digest p reg).permitsResource r = true
  videos : ∀ y ∈ bundle.videoSources, ∃ v ∈ reg.videos.rows, y = toExportedVideo v ∧
    AllowedCamera reg.policies.rows p reg.locations.rows reg.cameras.rows v.cameraId ∧
    Permits p reg defaultPolicyId v
  complete : ∀ x ∈ bundle.records, ∀ v, reg.videos.get? x.videoId = some v →
    Permits p reg defaultPolicyId v → toExportedVideo v ∈ bundle.videoSources

end Spec

/-! ## Reading the video sources -/

/-- What the resolver of the pipeline leaves is the policy in effect. -/
theorem Resolved.effectivePolicyId {reg : Registry} {defaultPolicyId : String}
    {ctx : VideoContext} (h : Resolved reg defaultPolicyId ctx) :
    Export.effectivePolicyId reg defaultPolicyId ctx.source = ctx.accessPolicyId := by
  unfold Export.effectivePolicyId
  rw [h.camera, Option.getD_some]
  dsimp only
  rw [h.location, Option.getD_some, h.policy]

section Read

variable {digest : ScopePayload → String} {p : Principal} {reg : Registry}

theorem authorizedVideoFilter_iff (v : VideoSource) :
    authorizedVideoFilter (scopeOf digest p reg) v = true ↔ Labelled p reg v := by
  unfold authorizedVideoFilter scopeOf
  rw [Bool.and_eq_true, Bool.and_eq_true, decide_eq_true_eq, decide_eq_true_eq,
    mem_allowedCameraIds]
  constructor
  · rintro ⟨⟨htenant, hcamera⟩, hpolicy⟩
    refine ⟨htenant, hcamera, ?_⟩
    cases hown : v.accessPolicyId with
    | none =>
        rw [hown] at hpolicy
        cases hpolicy
    | some id =>
        rw [hown, decide_eq_true_eq, mem_allowedAccessPolicyIds] at hpolicy
        exact ⟨id, rfl, hpolicy⟩
  · rintro ⟨htenant, hcamera, id, hown, hid⟩
    rw [hown, decide_eq_true_eq, mem_allowedAccessPolicyIds]
    exact ⟨⟨htenant, hcamera⟩, hid⟩

theorem getAuthorizedVideoById_eq_some_iff {videoId : String} {scope : AuthorizedScope}
    {v : VideoSource} :
    getAuthorizedVideoById reg videoId scope = some v ↔
      reg.videos.get? videoId = some v ∧ authorizedVideoFilter scope v = true := by
  unfold getAuthorizedVideoById
  constructor
  · intro h
    have hfound := List.find?_some h
    rw [Bool.and_eq_true, decide_eq_true_eq] at hfound
    exact ⟨Keyed.Table.get?_eq_some_iff.mpr ⟨List.mem_of_find?_eq_some h, hfound.1⟩, hfound.2⟩
  · rintro ⟨hget, hfilter⟩
    obtain ⟨hmem, rfl⟩ := Keyed.Table.get?_eq_some_iff.mp hget
    cases h : reg.videos.rows.find? fun w =>
        decide (w.videoId = v.videoId) && authorizedVideoFilter scope w with
    | none =>
        rw [List.find?_eq_none] at h
        exact absurd (by simp [hfilter]) (h v hmem)
    | some w =>
        have hfound := List.find?_some h
        rw [Bool.and_eq_true, decide_eq_true_eq] at hfound
        rw [Keyed.Table.eq_of_key_eq (List.mem_of_find?_eq_some h) hmem hfound.1]

theorem mem_exportedVideoSources {records : List ObservationRecord} {scope : AuthorizedScope}
    {y : ExportedVideoSource} :
    y ∈ exportedVideoSources reg records scope ↔
      ∃ r ∈ records, ∃ v, reg.videos.get? r.videoId = some v ∧
        authorizedVideoFilter scope v = true ∧ toExportedVideo v = y := by
  unfold exportedVideoSources
  simp only [List.mem_filterMap, mem_sorted, List.mem_dedup, List.mem_map, Option.map_eq_some_iff,
    getAuthorizedVideoById_eq_some_iff, and_assoc, exists_exists_and_eq_and]

/-- A row of the registry is known from its export. -/
theorem eq_of_toExportedVideo {v w : VideoSource} (hv : v ∈ reg.videos.rows)
    (hw : w ∈ reg.videos.rows) (h : toExportedVideo v = toExportedVideo w) : v = w :=
  Keyed.Table.eq_of_key_eq hv hw (congrArg ExportedVideoSource.videoId h)

/-- A policy of the row's own is the one in effect, unless it is the empty text. -/
theorem Labelled.permits {defaultPolicyId : String} {v : VideoSource} (h : Labelled p reg v)
    (hown : v.accessPolicyId ≠ some "") : Permits p reg defaultPolicyId v := by
  obtain ⟨id, hid, hpermitted⟩ := h.policy
  have hset : setRef v.accessPolicyId = some id := by
    rw [hid, setRef, Option.filter_some, if_pos]
    rw [decide_eq_true_eq]
    rintro rfl
    exact hown hid
  unfold Permits effectivePolicyId resolveAccessPolicyId
  rw [hset]
  exact hpermitted

end Read

/-! ## When the export is right -/

/-- What an export needs of the source of a record it holds. A source in effect
permitted is let through by its own row, and one whose own policy id is the empty
text is not let through instead of it. -/
structure SourceReady (p : Principal) (reg : Registry) (defaultPolicyId : String)
    (v : VideoSource) : Prop where
  labelled : Permits p reg defaultPolicyId v → Labelled p reg v
  empty : v.accessPolicyId = some "" → Labelled p reg v → Permits p reg defaultPolicyId v

section Main

variable (digest : ScopePayload → String) (eng : Engine) (store : ObservationStore)
  (reg : Registry) (now : ℤ) (p : Principal) (defaultPolicyId : String)

theorem permitsResource_of_mem_exportPool {eng : Engine} {store : ObservationStore}
    {scope : AuthorizedScope} {r : ObservationRecord} (h : r ∈ exportPool eng store scope) :
    r ∈ store.active.rows ∧ scope.permitsResource r = true := by
  unfold exportPool authorizedCandidatePool at h
  have hmem := Search.mem_sqlLimit h
  rw [List.mem_mergeSort, List.mem_filter, Bool.and_eq_true] at hmem
  exact ⟨hmem.1, (authorizedObservationFilter_iff scope r).mp hmem.2.1⟩

theorem userBundle_correct_iff :
    ExportCorrect p reg digest store defaultPolicyId
        (userBundle eng store reg now (scopeOf digest p reg)) ↔
      ∀ r ∈ exportPool eng store (scopeOf digest p reg), ∀ v,
        reg.videos.get? r.videoId = some v → SourceReady p reg defaultPolicyId v := by
  have hvideos : ∀ y, y ∈ (userBundle eng store reg now (scopeOf digest p reg)).videoSources ↔
      ∃ r ∈ exportPool eng store (scopeOf digest p reg), ∃ v,
        reg.videos.get? r.videoId = some v ∧ Labelled p reg v ∧ toExportedVideo v = y := by
    intro y
    refine mem_exportedVideoSources.trans ?_
    simp only [authorizedVideoFilter_iff]
  constructor
  · intro h r hr v hv
    obtain ⟨hrow, -⟩ := Keyed.Table.get?_eq_some_iff.mp hv
    constructor
    · intro hpermits
      have hin := h.complete _ (List.mem_map_of_mem hr) v hv hpermits
      obtain ⟨r', -, w, hw, hlabelled, heq⟩ := (hvideos _).mp hin
      rwa [eq_of_toExportedVideo hrow (Keyed.Table.get?_eq_some_iff.mp hw).1 heq.symm]
    · intro _ hlabelled
      obtain ⟨w, hw, heq, -, hpermits⟩ := h.videos _ ((hvideos _).mpr ⟨r, hr, v, hv, hlabelled, rfl⟩)
      rwa [eq_of_toExportedVideo hrow hw heq]
  · intro h
    constructor
    · intro x hx
      obtain ⟨r, hr, rfl⟩ := List.mem_map.mp hx
      obtain ⟨hrow, hpermits⟩ := permitsResource_of_mem_exportPool hr
      exact ⟨r, hrow, rfl, hpermits⟩
    · intro y hy
      obtain ⟨r, hr, v, hv, hlabelled, rfl⟩ := (hvideos y).mp hy
      refine ⟨v, (Keyed.Table.get?_eq_some_iff.mp hv).1, rfl, hlabelled.camera, ?_⟩
      by_cases hown : v.accessPolicyId = some ""
      · exact (h r hr v hv).empty hown hlabelled
      · exact hlabelled.permits hown
    · intro x hx v hv hpermits
      obtain ⟨r, hr, rfl⟩ := List.mem_map.mp hx
      exact (hvideos _).mpr ⟨r, hr, v, hv, (h r hr v hv).labelled hpermits, rfl⟩

/-- Every principal may search: the export is not refused. -/
theorem userExport_eq_ok :
    (userExport eng store reg now (scopeOf digest p reg)).1
      = .ok (userBundle eng store reg now (scopeOf digest p reg)) := by
  have hcapability : Capability.observationSearch ∈ (scopeOf digest p reg).capabilities := by
    show Capability.observationSearch ∈ capabilitiesFor p
    unfold capabilitiesFor
    cases p.principalType <;> decide
  unfold userExport
  rw [if_pos hcapability]

/-- A principal's export is authorized and complete exactly when the source of every
record in it is ready for it. -/
theorem exportCorrect_iff :
    (∃ bundle, (userExport eng store reg now (scopeOf digest p reg)).1 = .ok bundle ∧
        ExportCorrect p reg digest store defaultPolicyId bundle) ↔
      ∀ r ∈ exportPool eng store (scopeOf digest p reg), ∀ v,
        reg.videos.get? r.videoId = some v → SourceReady p reg defaultPolicyId v := by
  rw [← userBundle_correct_iff digest eng store reg now p defaultPolicyId, userExport_eq_ok]
  constructor
  · rintro ⟨bundle, hok, hcorrect⟩
    rwa [Except.ok.inj hok]
  · exact fun hcorrect => ⟨_, rfl, hcorrect⟩

/-- Sources stored without a policy, as submissions store them, are never exported. -/
theorem videoSources_eq_nil {scope : AuthorizedScope}
    (h : ∀ v ∈ reg.videos.rows, v.accessPolicyId = none) :
    (userBundle eng store reg now scope).videoSources = [] := by
  rw [List.eq_nil_iff_forall_not_mem]
  intro y hy
  obtain ⟨r, -, v, hv, hfilter, -⟩ := mem_exportedVideoSources.mp hy
  unfold authorizedVideoFilter at hfilter
  rw [h v (Keyed.Table.get?_eq_some_iff.mp hv).1, Bool.and_false] at hfilter
  cases hfilter

end Main

/-! ## A seeded registry -/

/-- What the lobby camera recorded, published. -/
def lobbyRecord : ObservationRecord := buildObservationRecord lobbyContext personWalks

def lobbyStore : ObservationStore where
  active := ⟨⟨[lobbyRecord], List.nodup_singleton _⟩, List.nodup_singleton _⟩
  history := Keyed.Table.empty
  fts := none
  jobs := Keyed.Table.empty
  audit := Keyed.Table.empty

/-- The video has no policy of its own, its camera has the seeded one: the record
is exported and its source is not. -/
theorem lobby_export_incomplete :
    ¬ ∃ bundle, (userExport Search.wordEngine lobbyStore office 0
        (scopeOf (fun _ => "scope") devPrincipal office)).1 = .ok bundle ∧
      ExportCorrect devPrincipal office (fun _ => "scope") lobbyStore devPolicyId bundle := by
  rintro ⟨bundle, hok, hcorrect⟩
  rw [userExport_eq_ok] at hok
  cases hok
  have h := (userBundle_correct_iff _ _ _ _ _ _ _).mp hcorrect
  have hpermitted : PermittedId office.policies.rows devPrincipal devPolicyId :=
    ⟨devPolicy, List.mem_singleton_self _, by decide, rfl⟩
  have hin : lobbyRecord ∈ exportPool Search.wordEngine lobbyStore
      (scopeOf (fun _ => "scope") devPrincipal office) := by
    decide +kernel
  obtain ⟨id, hown, -⟩ := ((h lobbyRecord hin (videoOf "vid_1" "cam_lobby_01") rfl).labelled
    hpermitted).policy
  cases hown

end CctvMemory.Export
