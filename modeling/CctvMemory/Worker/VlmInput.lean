import CctvMemory.Domain.Enums
import CctvMemory.Library.Base64
import CctvMemory.Library.Json

/-!
# The input manifest of a VLM call and the body of its request

`build_vlm_input_manifest` hashes the input of a unit in the worker, once for all
its attempts. The adapter builds the body from the request and its own
configuration.

* `same_orderedMedia_iff`: what the hash of a medium says.
* `payloadHash_eq_iff`: what equal hashes say about two attempts.
-/

namespace CctvMemory.Worker.VlmInput

open JsonText (Value NumberFormat Same sortKeys)

variable {ν : Type}

/-! ## Texts, hashes and files -/

/-- The hash functions, taken to be injective. -/
structure Hashes where
  sha256ShortText : String → String
  sha256 : List UInt8 → String
  short_injective : Function.Injective sha256ShortText
  sha256_injective : Function.Injective sha256

/-- The templates of `prompts/`. -/
structure Templates where
  defaultSegmentV1 : String
  highFreqEventV1 : String

/-- `str.lower`. -/
structure LowerCase where
  lower : String → String
  lower_ascii : ∀ s, (s.toList.all fun c => decide (c.toNat < 128)) →
    lower s = String.ofList (s.toList.map Char.toLower)

def asciiLower : LowerCase := ⟨fun s => String.ofList (s.toList.map Char.toLower), fun _ _ => rfl⟩

structure OsError where
  typeName : String
  text : String

/-- `Path(uri).read_bytes()`. -/
abbrev Files := String → Except OsError (List UInt8)

/-- A dictionary from strings, in the order of its keys. -/
structure Dict (α : Type) where
  items : List (String × α)
  nodup : (items.map Prod.fst).Nodup

namespace Dict

variable {α : Type}

def empty : Dict α := ⟨[], List.nodup_nil⟩

def get? (d : Dict α) (k : String) : Option α := d.items.lookup k

end Dict

/-- `d[k] = v` on the items of a dictionary. -/
def setItem {α : Type} (d : List (String × α)) (k : String) (v : α) : List (String × α) :=
  if k ∈ d.map Prod.fst then d.map fun m => if m.1 = k then (k, v) else m
  else d ++ [(k, v)]

/-- `d.update(more)`. -/
def update {α : Type} (d more : List (String × α)) : List (String × α) :=
  more.foldl (fun d m => setItem d m.1 m.2) d

/-- `entry.get(k)`. -/
def getD (entry : List (String × Value ν)) (k : String) : Value ν :=
  (entry.lookup k).getD .null

def optional (s : Option String) : Value ν := s.elim .null .str

def strictRetryInstruction : String :=
  "IMPORTANT: Your previous response could not be parsed as the required JSON. " ++
  "Respond with a SINGLE valid JSON object only — no prose, no markdown fences, " ++
  "no leading or trailing text. All keys shown above are required."

def buildPrompt (P : Templates) : AnalysisScale → String
  | .highFreqEvent => P.highFreqEventV1
  | _ => P.defaultSegmentV1

/-! ## The manifest -/

structure VlmSegmentRequest where
  requestId : String
  analysisJobId : String
  videoId : String
  cameraId : String
  analysisScale : AnalysisScale
  segmentStartMs : ℕ
  segmentEndMs : ℕ
  frameUris : List String
  promptVersion : Option String
  modelVersion : Option String

/-- `os.path.basename`. -/
def basename (uri : String) : String := String.ofList (uri.toList.rtakeWhile (· ≠ '/'))

def mediaKeys : List String :=
  ["frame_index", "timestamp_ms", "decode_backend", "selection_reason", "motion_score",
    "scene_score", "blur_score", "brightness"]

section Manifest

variable (H : Hashes) (F : NumberFormat ν) (P : Templates)

def number (n : ℕ) : Value ν := .num (F.ofInt n)

/-- What reading the file adds to its entry. -/
def readFields (files : Files) (uri : String) : List (String × Value ν) :=
  match files uri with
  | .error e => [("sha256_error", .str e.typeName)]
  | .ok data => [("size_bytes", number F data.length), ("sha256", .str (H.sha256 data))]

/-- `_media_entry`. -/
def mediaEntry (files : Files) (index : ℕ) (uri : String) (ref : Dict (Value ν)) :
    List (String × Value ν) :=
  [("index", number F index), ("uri_basename", .str (basename uri))]
    ++ (mediaKeys.filterMap fun k => (ref.get? k).map fun v => (k, v))
    ++ readFields H F files uri

def mediaRef (mediaRefs : List (Dict (Value ν))) (index : ℕ) : Dict (Value ν) :=
  mediaRefs[index]?.getD .empty

def mediaEntries (files : Files) (frameUris : List String) (mediaRefs : List (Dict (Value ν))) :
    List (List (String × Value ν)) :=
  frameUris.zipIdx.map fun u => mediaEntry H F files u.2 u.1 (mediaRef mediaRefs u.2)

/-- What of an entry is hashed. -/
def orderedMedia (entry : List (String × Value ν)) : Value ν :=
  .obj [("index", getD entry "index"), ("sha256", getD entry "sha256"),
    ("sha256_error", getD entry "sha256_error"), ("size_bytes", getD entry "size_bytes"),
    ("frame_index", getD entry "frame_index"), ("timestamp_ms", getD entry "timestamp_ms"),
    ("decode_backend", getD entry "decode_backend")]

/-- `sha256_short_text(canonical_json(value))`. -/
def hashJson (v : Value ν) : String :=
  H.sha256ShortText (String.ofList (JsonText.canonicalJson F v))

def inputFingerprint (request : VlmSegmentRequest) (entries : List (List (String × Value ν)))
    (options : Dict (Value ν)) (pipelineVersion : Option String) : Value ν :=
  .obj [("analysis_scale", .str request.analysisScale.value),
    ("segment_start_ms", number F request.segmentStartMs),
    ("segment_end_ms", number F request.segmentEndMs),
    ("camera_id", .str request.cameraId),
    ("model_version", optional request.modelVersion),
    ("prompt_version", optional request.promptVersion),
    ("pipeline_version", optional pipelineVersion),
    ("system_prompt_hash", .str (H.sha256ShortText (buildPrompt P request.analysisScale))),
    ("strict_retry_instruction_hash", .str (H.sha256ShortText strictRetryInstruction)),
    ("provider_options_hash", .str (hashJson H F (.obj options.items))),
    ("ordered_media_hash", .str (hashJson H F (.arr (entries.map orderedMedia))))]

/-- `build_vlm_input_manifest`: the hash and the manifest. -/
def buildVlmInputManifest (request : VlmSegmentRequest) (files : Files)
    (mediaRefs : List (Dict (Value ν))) (providerOptions : Option (Dict (Value ν)))
    (pipelineVersion : Option String) : String × Value ν :=
  let options := providerOptions.getD .empty
  let entries := mediaEntries H F files request.frameUris mediaRefs
  let fingerprint := inputFingerprint H F P request entries options pipelineVersion
  let hash := hashJson H F fingerprint
  (hash, .obj [
    ("schema", .str "vlm_input_manifest"),
    ("version", number F 1),
    ("input_manifest_hash", .str hash),
    ("input_fingerprint", fingerprint),
    ("unit", .obj [("analysis_job_id", .str request.analysisJobId),
      ("video_id", .str request.videoId),
      ("analysis_scale", .str request.analysisScale.value),
      ("segment_start_ms", number F request.segmentStartMs),
      ("segment_end_ms", number F request.segmentEndMs)]),
    ("config", .obj [("model_version", optional request.modelVersion),
      ("prompt_version", optional request.promptVersion),
      ("pipeline_version", optional pipelineVersion)]),
    ("prompt", .obj [
      ("system_prompt_hash", .str (H.sha256ShortText (buildPrompt P request.analysisScale))),
      ("strict_retry_instruction_hash", .str (H.sha256ShortText strictRetryInstruction)),
      ("strict_retry", .bool false)]),
    ("provider_options", .obj [("temperature", (options.get? "temperature").getD .null),
      ("top_p", (options.get? "top_p").getD .null),
      ("seed", (options.get? "seed").getD .null),
      ("response_format", (options.get? "response_format").getD .null),
      ("extra_body", .obj options.items),
      ("extra_body_hash", .str (hashJson H F (.obj options.items)))]),
    ("media", .obj [("count", number F entries.length),
      ("ordered_entries", .arr (entries.map .obj)),
      ("ordered_media_hash", .str (hashJson H F (.arr (entries.map orderedMedia))))])])

end Manifest

/-! ## The body -/

/-- The `vlm` section of the configuration, as far as the body depends on it. -/
structure VlmSection (ν : Type) where
  modelId : String
  mediaInput : String
  extraBody : Dict (Value ν)

def denied : List String :=
  ["model", "messages", "stream", "tools", "tool_choice", "authorization", "headers", "api_key",
    "key"]

def safeExtraBody (L : LowerCase) (extraBody : Dict (Value ν)) : List (String × Value ν) :=
  extraBody.items.filter fun m => decide (L.lower m.1 ∉ denied)

/-- `_read_base64`. -/
def readBase64 (files : Files) (uri : String) : Except String (List Char) :=
  match files uri with
  | .error e => .error ("cannot read media for VLM: " ++ e.text)
  | .ok data => .ok (Base64.encode Base64.standard data)

def imagePart (mime : String) (base64 : List Char) : Value ν :=
  .obj [("type", .str "image_url"),
    ("image_url", .obj [("url", .str ("data:" ++ mime ++ ";base64," ++ String.ofList base64))])]

/-- The loop of the frames mode. -/
def frameParts (files : Files) : List String → Except String (List (Value ν))
  | [] => .ok []
  | uri :: uris =>
      match readBase64 files uri with
      | .error e => .error e
      | .ok base64 => (frameParts files uris).map (imagePart "image/jpeg" base64 :: ·)

/-- `_build_media_parts`. -/
def buildMediaParts (mediaInput : String) (files : Files) :
    List String → Except String (List (Value ν))
  | [] => .error "no media (frame_uris) provided for VLM"
  | uri :: uris =>
      if mediaInput = "video" then
        (readBase64 files uri).map fun base64 => [imagePart "video/mp4" base64]
      else frameParts files (uri :: uris)

def userContent (mediaParts : List (Value ν)) (strict : Bool) : List (Value ν) :=
  mediaParts ++ if strict then
    [.obj [("type", .str "text"), ("text", .str strictRetryInstruction)]] else []

/-- The members of the payload of `_call_api` before the options are merged in. -/
def messagesBody (modelId systemPrompt : String) (mediaParts : List (Value ν)) (strict : Bool) :
    List (String × Value ν) :=
  [("model", .str modelId),
    ("messages", .arr [.obj [("role", .str "system"), ("content", .str systemPrompt)],
      .obj [("role", .str "user"), ("content", .arr (userContent mediaParts strict))]])]

/-- `analyze_segment` of the real adapter, up to the body it posts. -/
def analyzeSegment (P : Templates) (L : LowerCase) (vlm : VlmSection ν) (files : Files)
    (request : VlmSegmentRequest) (strictSchema : Bool) : Except String (Value ν) :=
  (buildMediaParts vlm.mediaInput files request.frameUris).map fun parts =>
    .obj (update (messagesBody vlm.modelId (buildPrompt P request.analysisScale) parts
      strictSchema) (safeExtraBody L vlm.extraBody))

/-! ## Attempts -/

/-- How the processor of a scale was built. -/
inductive ExecutionPath where
  | scaleTask
  | sequential
deriving DecidableEq

/-- The `provider_options` a processor is built with; `_run_high_freq_event` gives none. -/
def providerOptions (vlm : VlmSection ν) : ExecutionPath → AnalysisScale →
    Option (Dict (Value ν))
  | .sequential, .highFreqEvent => none
  | _, _ => some vlm.extraBody

/-- One VLM attempt of a unit. -/
structure Attempt (ν : Type) where
  vlm : VlmSection ν
  path : ExecutionPath
  request : VlmSegmentRequest
  mediaRefs : List (Dict (Value ν))
  pipelineVersion : Option String
  files : Files
  strictSchema : Bool

namespace Attempt

variable (H : Hashes) (F : NumberFormat ν) (P : Templates) (L : LowerCase) (a : Attempt ν)

def options : Option (Dict (Value ν)) := providerOptions a.vlm a.path a.request.analysisScale

/-- The `payload_hash` of its model call log. -/
def payloadHash : String :=
  (buildVlmInputManifest H F P a.request a.files a.mediaRefs a.options a.pipelineVersion).1

def sentBody : Except String (Value ν) :=
  analyzeSegment P L a.vlm a.files a.request a.strictSchema

end Attempt

/-! ## What the hash says -/

namespace Dict

/-- `d.get(k)`. -/
def getD (d : Dict (Value ν)) (k : String) : Value ν := (d.get? k).getD .null

end Dict

/-- What of a medium is hashed. -/
structure Medium (ν : Type) where
  content : Except String (List UInt8)
  frameIndex : Value ν
  timestampMs : Value ν
  decodeBackend : Value ν

def content (files : Files) (uri : String) : Except String (List UInt8) :=
  (files uri).mapError OsError.typeName

def medium (files : Files) (uri : String) (ref : Dict (Value ν)) : Medium ν where
  content := content files uri
  frameIndex := sortKeys (ref.getD "frame_index")
  timestampMs := sortKeys (ref.getD "timestamp_ms")
  decodeBackend := sortKeys (ref.getD "decode_backend")

def Attempt.media (a : Attempt ν) : List (Medium ν) :=
  a.request.frameUris.zipIdx.map fun u => medium a.files u.1 (mediaRef a.mediaRefs u.2)

section Media

variable {H : Hashes} {F : NumberFormat ν}

@[simp] theorem number_inj {m n : ℕ} : number F m = number F n ↔ m = n := by
  unfold number
  rw [Value.num.injEq, F.ofInt_injective.eq_iff, Int.natCast_inj]

@[simp] theorem sortKeys_number (n : ℕ) : sortKeys (number F n) = number F n := by
  simp [number, sortKeys]

@[simp] theorem optional_inj {s t : Option String} :
    (optional s : Value ν) = optional t ↔ s = t := by
  cases s <;> cases t <;> simp [optional]

@[simp] theorem sortKeys_optional (s : Option String) :
    sortKeys (optional s : Value ν) = optional s := by
  cases s <;> simp [optional, sortKeys]

theorem lookup_refs (ref : Dict (Value ν)) (k : String) (keys : List String) :
    (keys.filterMap fun k => (ref.get? k).map fun v => (k, v)).lookup k
      = if k ∈ keys then ref.get? k else none := by
  induction keys with
  | nil => rfl
  | cons key keys ih =>
      rw [List.filterMap_cons]
      by_cases hk : k = key
      · subst hk
        cases hget : ref.get? k with
        | none => simp only [Option.map_none, ih, hget, ite_self]
        | some v => simp
      · have hbeq : (k == key) = false := beq_false_of_ne hk
        cases hget : ref.get? key with
        | none => simp [ih, hk]
        | some v => simp [List.lookup_cons, ih, hk, hbeq]

theorem lookup_mediaEntry (files : Files) (index : ℕ) (uri : String) (ref : Dict (Value ν))
    (k : String) :
    (mediaEntry H F files index uri ref).lookup k
      = (([("index", number F index), ("uri_basename", .str (basename uri))].lookup k).or
          (if k ∈ mediaKeys then ref.get? k else none)).or
        ((readFields H F files uri).lookup k) := by
  unfold mediaEntry
  rw [List.lookup_append, List.lookup_append, lookup_refs]

/-- The hashed fields of a medium at a place. -/
def hashedFields (H : Hashes) (F : NumberFormat ν) (m : Medium ν) (index : ℕ) : List (Value ν) :=
  [number F index, m.content.toOption.elim .null fun d => .str (H.sha256 d),
    match m.content with
    | .error e => .str e
    | .ok _ => .null,
    m.content.toOption.elim .null fun d => number F d.length,
    m.frameIndex, m.timestampMs, m.decodeBackend]

theorem hashedFields_inj {m m' : Medium ν} {i i' : ℕ} :
    hashedFields H F m i = hashedFields H F m' i' ↔ m = m' ∧ i = i' := by
  constructor
  · intro h
    obtain ⟨c, f, t, d⟩ := m
    obtain ⟨c', f', t', d'⟩ := m'
    cases c <;> cases c' <;>
      simp_all [hashedFields, Except.toOption, H.sha256_injective.eq_iff]
  · rintro ⟨rfl, rfl⟩
    rfl

theorem same_orderedMedia_iff {files files' : Files} {i i' : ℕ} {uri uri' : String}
    {ref ref' : Dict (Value ν)} :
    Same (orderedMedia (mediaEntry H F files i uri ref))
        (orderedMedia (mediaEntry H F files' i' uri' ref'))
      ↔ medium files uri ref = medium files' uri' ref' ∧ i = i' := by
  have hfields : ∀ (fs : Files) (j : ℕ) (u : String) (r : Dict (Value ν)),
      [getD (mediaEntry H F fs j u r) "index", getD (mediaEntry H F fs j u r) "sha256",
        getD (mediaEntry H F fs j u r) "sha256_error",
        getD (mediaEntry H F fs j u r) "size_bytes",
        getD (mediaEntry H F fs j u r) "frame_index",
        getD (mediaEntry H F fs j u r) "timestamp_ms",
        getD (mediaEntry H F fs j u r) "decode_backend"].map sortKeys
      = hashedFields H F (medium fs u r) j := by
    intro fs j u r
    cases hread : fs u with
    | error e =>
        simp [getD, lookup_mediaEntry, readFields, hread, List.lookup_cons, mediaKeys,
          hashedFields, medium, content, Except.mapError, Except.toOption, Dict.getD, sortKeys]
    | ok data =>
        simp [getD, lookup_mediaEntry, readFields, hread, List.lookup_cons, mediaKeys,
          hashedFields, medium, content, Except.mapError, Except.toOption, Dict.getD, sortKeys]
  refine (JsonText.same_record_iff (by simp) (by simp)).trans ?_
  have h := hfields files i uri ref
  have h' := hfields files' i' uri' ref'
  simp only [List.map_cons, List.map_nil] at h h' ⊢
  rw [h, h', hashedFields_inj]

theorem map_eq_map_iff_of {α α' β γ : Type} {f : α → β} {f' : α' → β} (g : α → γ)
    (g' : α' → γ) (h : ∀ x y, f x = f' y ↔ g x = g' y) :
    ∀ (l : List α) (l' : List α'), l.map f = l'.map f' ↔ l.map g = l'.map g'
  | [], [] => by simp
  | [], _ :: _ => by simp
  | _ :: _, [] => by simp
  | x :: l, y :: l' => by
      simp only [List.map_cons, List.cons.injEq, h x y, map_eq_map_iff_of g g' h l l']

theorem map_zipIdx {α β : Type} (l : List α) (h : α × ℕ → β) :
    l.zipIdx.map (fun u => (h u, u.2)) = (l.zipIdx.map h).zipIdx := by
  apply List.ext_getElem
  · simp
  · intro i h1 h2
    simp

theorem same_media_iff {a b : Attempt ν} :
    Same
        (.arr ((mediaEntries H F a.files a.request.frameUris a.mediaRefs).map orderedMedia))
        (.arr ((mediaEntries H F b.files b.request.frameUris b.mediaRefs).map orderedMedia))
      ↔ a.media = b.media := by
  rw [JsonText.same_arr]
  unfold mediaEntries
  rw [List.map_map, List.map_map, List.map_map, List.map_map]
  refine (map_eq_map_iff_of
    (fun u => (medium a.files u.1 (mediaRef a.mediaRefs u.2), u.2))
    (fun u => (medium b.files u.1 (mediaRef b.mediaRefs u.2), u.2)) ?_ _ _).trans ?_
  · intro u v
    rw [Prod.mk.injEq]
    exact same_orderedMedia_iff
  · rw [map_zipIdx a.request.frameUris fun u => medium a.files u.1 (mediaRef a.mediaRefs u.2),
      map_zipIdx b.request.frameUris fun u => medium b.files u.1 (mediaRef b.mediaRefs u.2)]
    constructor
    · intro h
      have hfst := congrArg (List.map Prod.fst) h
      rwa [List.zipIdx_map_fst, List.zipIdx_map_fst] at hfst
    · intro h
      exact congrArg List.zipIdx h

end Media

/-- What the hash covers. -/
structure SameRecorded (a b : Attempt ν) : Prop where
  scale : a.request.analysisScale = b.request.analysisScale
  start : a.request.segmentStartMs = b.request.segmentStartMs
  stop : a.request.segmentEndMs = b.request.segmentEndMs
  camera : a.request.cameraId = b.request.cameraId
  model : a.request.modelVersion = b.request.modelVersion
  prompt : a.request.promptVersion = b.request.promptVersion
  pipeline : a.pipelineVersion = b.pipelineVersion
  options : Same (.obj (a.options.getD .empty).items) (.obj (b.options.getD .empty).items)
  media : a.media = b.media

section Payload

variable {H : Hashes} {F : NumberFormat ν} {P : Templates} {L : LowerCase} {a b : Attempt ν}

theorem hashJson_inj {v w : Value ν} : hashJson H F v = hashJson H F w ↔ Same v w := by
  unfold hashJson
  rw [H.short_injective.eq_iff, String.ofList_inj, JsonText.canonicalJson_inj]

theorem scale_value_inj {s t : AnalysisScale} : s.value = t.value ↔ s = t := by
  cases s <;> cases t <;> decide

theorem payloadHash_eq_iff : a.payloadHash H F P = b.payloadHash H F P ↔ SameRecorded a b := by
  unfold Attempt.payloadHash buildVlmInputManifest inputFingerprint
  dsimp only
  rw [hashJson_inj, JsonText.same_record_iff (by simp) (by simp)]
  simp only [List.map_cons, List.map_nil, List.cons.injEq, sortKeys, sortKeys_number,
    sortKeys_optional, number_inj, optional_inj, Value.str.injEq, scale_value_inj,
    H.short_injective.eq_iff, hashJson_inj, same_media_iff, and_true, true_and]
  constructor
  · rintro ⟨hscale, hstart, hstop, hcamera, hmodel, hprompt, hpipeline, -, hoptions, hmedia⟩
    exact ⟨hscale, hstart, hstop, hcamera, hmodel, hprompt, hpipeline, hoptions, hmedia⟩
  · intro h
    exact ⟨h.scale, h.start, h.stop, h.camera, h.model, h.prompt, h.pipeline,
      congrArg _ h.scale, h.options, h.media⟩

end Payload

end CctvMemory.Worker.VlmInput
