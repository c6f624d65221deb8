import CctvMemory.Domain.Enums
import CctvMemory.Worker.Redaction
import Mathlib.Data.List.Infix

/-!
# What the timeline records

`TimelineRecorder.event` sanitizes the metadata of an event: strings are redacted, the
values of sensitive keys dropped. The keys themselves are recorded as they are, and so
is the beginning of the text of any other object.

* `leakless_sanitizeValue_iff`: when no pattern is found in what is recorded.
* `sanitizeValue_alike`: the values of sensitive keys do not tell in it.
-/

namespace CctvMemory.Worker.Timeline

open CctvMemory.Worker.VlmInput (LowerCase asciiLower setItem update)
open JsonText (Value)

variable {ν τ : Type}

/-! ## Metadata -/

/-- A value as it is passed to the recorder; of a key and of any other object, its text. -/
inductive Metadata (ν : Type) where
  | mapping (items : List (String × Metadata ν))
  | list (items : List (Metadata ν))
  | tuple (items : List (Metadata ν))
  | str (value : String)
  | num (n : ν)
  | bool (b : Bool)
  | none
  | other (text : String)

def sensitiveKeyParts : List String :=
  ["authorization", "api_key", "apikey", "xapikey", "token", "secret", "password",
    "source_uri", "sourceuri", "uri", "url", "path", "base64", "raw_media", "rawmedia",
    "raw_image", "rawimage", "raw_video", "rawvideo"]

/-- `[a-z0-9]`. -/
def isKeyChar (c : Char) : Bool := c.isLower || c.isDigit

/-- `_sensitive_key`. -/
def sensitiveKey (L : LowerCase) (key : String) : Bool :=
  let normalized := (L.lower key).toList.filter isKeyChar
  sensitiveKeyParts.any fun part => decide (part.toList <:+: normalized)

mutual

/-- `_sanitize_value`. -/
def sanitizeValue (L : LowerCase) : Metadata ν → Value ν
  | .mapping items => .obj (update [] (sanitizeItems L items))
  | .list items => .arr (sanitizeFirst L 100 items)
  | .tuple items => .arr (sanitizeFirst L 100 items)
  | .str value => .str (String.ofList (sanitizeString value.toList))
  | .num n => .num n
  | .bool b => .bool b
  | .none => .null
  | .other text => .str (String.ofList (text.toList.take 500))

/-- The assignments to the clean dictionary. -/
def sanitizeItems (L : LowerCase) : List (String × Metadata ν) → List (String × Value ν)
  | [] => []
  | (key, item) :: items =>
      (key, if sensitiveKey L key then .str "<redacted>" else sanitizeValue L item)
        :: sanitizeItems L items

/-- `items[:n]`, sanitized. -/
def sanitizeFirst (L : LowerCase) : ℕ → List (Metadata ν) → List (Value ν)
  | 0, _ => []
  | _, [] => []
  | n + 1, item :: items => sanitizeValue L item :: sanitizeFirst L n items

end

/-! ## Events -/

inductive TimelineEventPhase where
  | instant
  | start
  | finish
  | fail
deriving DecidableEq

/-- What `event` is called with. -/
structure EventCall (ν τ : Type) where
  eventName : String
  eventPhase : TimelineEventPhase
  traceId : Option String
  spanId : Option String
  parentSpanId : Option String
  analysisJobId : Option String
  taskId : Option String
  scaleTaskId : Option String
  unitId : Option String
  modelCallId : Option String
  videoId : Option String
  analysisScale : Option AnalysisScale
  unitKind : Option String
  segmentStartMs : Option ℤ
  segmentEndMs : Option ℤ
  status : Option String
  attemptCount : Option ℤ
  durationMs : Option ℤ
  errorCode : Option String
  errorMessage : Option String
  correlation : Option (List (String × Metadata ν))
  metadata : Option (List (String × Metadata ν))
  occurredAt : Option τ

structure AnalysisTimelineEvent (ν τ : Type) where
  timelineEventId : String
  traceId : String
  spanId : Option String
  parentSpanId : Option String
  analysisJobId : Option String
  taskId : Option String
  scaleTaskId : Option String
  unitId : Option String
  modelCallId : Option String
  videoId : Option String
  analysisScale : Option AnalysisScale
  unitKind : Option String
  segmentStartMs : Option ℤ
  segmentEndMs : Option ℤ
  eventName : String
  eventPhase : TimelineEventPhase
  status : Option String
  attemptCount : Option ℤ
  occurredAt : τ
  durationMs : Option ℤ
  errorCode : Option String
  errorMessage : Option String
  correlation : Value ν
  metadata : Value ν
  createdAt : τ

/-- `a or b or …`: the first that is neither `None` nor empty. -/
def firstOf (candidates : List (Option String)) (default : String) : String :=
  ((candidates.filterMap id).find? fun s => decide (s ≠ "")).getD default

/-- `_safe_error_message`. -/
def safeErrorMessage (value : Option String) : Option String :=
  value.map fun text => String.ofList ((sanitizeString text.toList).take 500)

/-- `metadata or {}`. -/
def orEmpty (metadata : Option (List (String × Metadata ν))) : Metadata ν :=
  .mapping (metadata.getD [])

def buildEvent (L : LowerCase) (newId : String) (now : τ) (call : EventCall ν τ) :
    AnalysisTimelineEvent ν τ where
  timelineEventId := newId
  traceId := firstOf [call.traceId, call.analysisJobId, call.taskId, call.unitId] "local"
  spanId := call.spanId
  parentSpanId := call.parentSpanId
  analysisJobId := call.analysisJobId
  taskId := call.taskId
  scaleTaskId := call.scaleTaskId
  unitId := call.unitId
  modelCallId := call.modelCallId
  videoId := call.videoId
  analysisScale := call.analysisScale
  unitKind := call.unitKind
  segmentStartMs := call.segmentStartMs
  segmentEndMs := call.segmentEndMs
  eventName := call.eventName
  eventPhase := call.eventPhase
  status := call.status
  attemptCount := call.attemptCount
  occurredAt := call.occurredAt.getD now
  durationMs := call.durationMs
  errorCode := call.errorCode
  errorMessage := safeErrorMessage call.errorMessage
  correlation := sanitizeValue L (orEmpty call.correlation)
  metadata := sanitizeValue L (orEmpty call.metadata)
  createdAt := now

/-- The checks of `AnalysisTimelineEvent`. -/
def validEvent (aware : τ → Bool) (event : AnalysisTimelineEvent ν τ) : Bool :=
  ([event.segmentStartMs, event.segmentEndMs, event.attemptCount, event.durationMs].all
    fun value => value.all fun n => decide (0 ≤ n))
  && (match event.segmentStartMs, event.segmentEndMs with
    | some start, some stop => decide (start < stop)
    | _, _ => true)
  && aware event.occurredAt && aware event.createdAt

/-- `event`: what it hands to `append`, if anything. -/
def recorded (L : LowerCase) (aware : τ → Bool) (enabled : Bool) (newId : String) (now : τ)
    (call : EventCall ν τ) : Option (AnalysisTimelineEvent ν τ) :=
  if enabled then
    let event := buildEvent L newId now call
    if validEvent aware event then some event else none
  else none

/-! ## No pattern in the record -/

mutual

/-- In no key and in no string. -/
def Leakless : Value ν → Prop
  | .str s => ¬ Leaks s.toList
  | .arr items => LeaklessItems items
  | .obj members => LeaklessMembers members
  | _ => True

def LeaklessItems : List (Value ν) → Prop
  | [] => True
  | item :: items => Leakless item ∧ LeaklessItems items

def LeaklessMembers : List (String × Value ν) → Prop
  | [] => True
  | (key, value) :: members =>
      (¬ Leaks key.toList ∧ Leakless value) ∧ LeaklessMembers members

end

/-- The string is not cut at the end of a directory. -/
def CutWell (value : List Char) : Prop :=
  ¬ (500 < (redact value).length ∧ OpenDirectory ((redact value).take 500))

mutual

/-- The keys that are recorded and the beginnings of other texts match no pattern, and
no string is cut at the end of a directory. -/
def Fit (L : LowerCase) : Metadata ν → Prop
  | .mapping items => FitItems L items
  | .list items => FitFirst L 100 items
  | .tuple items => FitFirst L 100 items
  | .str value => CutWell value.toList
  | .other text => ¬ Leaks (text.toList.take 500)
  | _ => True

/-- An item counts unless a later one has its key. -/
def FitItems (L : LowerCase) : List (String × Metadata ν) → Prop
  | [] => True
  | (key, item) :: items =>
      (key ∉ items.map Prod.fst →
        ¬ Leaks key.toList ∧ (sensitiveKey L key = false → Fit L item)) ∧ FitItems L items

def FitFirst (L : LowerCase) : ℕ → List (Metadata ν) → Prop
  | 0, _ => True
  | _, [] => True
  | n + 1, item :: items => Fit L item ∧ FitFirst L n items

end

theorem leaklessMembers_iff {members : List (String × Value ν)} :
    LeaklessMembers members ↔ ∀ m ∈ members, ¬ Leaks m.1.toList ∧ Leakless m.2 := by
  induction members with
  | nil => simp [LeaklessMembers]
  | cons m members ih =>
      rw [LeaklessMembers, ih, List.forall_mem_cons]

/-! ## The last assignment counts -/

section Assignments

variable {α : Type} {P : String × α → Prop}

/-- `P` holds of every assignment that none behind it undoes. -/
def LastWins (P : String × α → Prop) : List (String × α) → Prop
  | [] => True
  | m :: items => (m.1 ∉ items.map Prod.fst → P m) ∧ LastWins P items

theorem lastWins_concat {items : List (String × α)} {m : String × α} :
    LastWins P (items ++ [m]) ↔ LastWins (fun n => n.1 ≠ m.1 → P n) items ∧ P m := by
  induction items with
  | nil => simp [LastWins]
  | cons n items ih =>
      have hkeys : n.1 ∉ (items ++ [m]).map Prod.fst
          ↔ n.1 ∉ items.map Prod.fst ∧ n.1 ≠ m.1 := by
        rw [List.map_append, List.mem_append, List.map_singleton, List.mem_singleton, not_or]
      rw [List.cons_append, LastWins, LastWins, ih, hkeys, and_imp, and_assoc]

theorem forall_setItem {d : List (String × α)} {k : String} {v : α} :
    (∀ m ∈ setItem d k v, P m) ↔ (∀ m ∈ d, m.1 ≠ k → P m) ∧ P (k, v) := by
  unfold setItem
  split
  · rename_i hk
    rw [List.forall_mem_map]
    constructor
    · intro h
      refine ⟨fun m hm hne => ?_, ?_⟩
      · have hm' := h m hm
        rw [if_neg hne] at hm'
        exact hm'
      · obtain ⟨m, hm, rfl⟩ := List.mem_map.mp hk
        have hm' := h m hm
        rw [if_pos rfl] at hm'
        exact hm'
    · rintro ⟨hd, hv⟩ m hm
      split
      · exact hv
      · rename_i hne
        exact hd m hm hne
  · rename_i hk
    rw [List.forall_mem_append, List.forall_mem_singleton]
    refine and_congr_left fun _ => ⟨fun h m hm _ => h m hm, fun h m hm => h m hm ?_⟩
    rintro rfl
    exact hk (List.mem_map_of_mem hm)

/-- What holds of every member of a dictionary that was filled item by item. -/
theorem forall_update {items : List (String × α)} :
    (∀ m ∈ update [] items, P m) ↔ LastWins P items := by
  induction items using List.reverseRecOn generalizing P with
  | nil => simp [update, LastWins]
  | append_singleton items m ih =>
      rw [lastWins_concat, ← ih]
      have hstep : update [] (items ++ [m]) = setItem (update [] items) m.1 m.2 := by
        unfold update
        rw [List.foldl_append]
        rfl
      rw [hstep]
      exact forall_setItem

end Assignments

theorem map_fst_sanitizeItems (L : LowerCase) (items : List (String × Metadata ν)) :
    (sanitizeItems L items).map Prod.fst = items.map Prod.fst := by
  induction items with
  | nil => rfl
  | cons m items ih =>
      rw [sanitizeItems, List.map_cons, List.map_cons, ih]

mutual

theorem leakless_sanitizeValue_iff (L : LowerCase) : ∀ value : Metadata ν,
    Leakless (sanitizeValue L value) ↔ Fit L value
  | .mapping items => by
      rw [sanitizeValue, Leakless, Fit, leaklessMembers_iff, forall_update]
      exact lastWins_sanitizeItems_iff L items
  | .list items => by
      rw [sanitizeValue, Leakless, Fit]
      exact leakless_sanitizeFirst_iff L 100 items
  | .tuple items => by
      rw [sanitizeValue, Leakless, Fit]
      exact leakless_sanitizeFirst_iff L 100 items
  | .str value => by
      rw [sanitizeValue, Leakless, Fit, String.toList_ofList, leaks_sanitizeString_iff]
      exact Iff.rfl
  | .num n => by
      rw [sanitizeValue, Leakless, Fit] <;> nofun
  | .bool b => by
      rw [sanitizeValue, Leakless, Fit] <;> nofun
  | .none => by
      rw [sanitizeValue, Leakless, Fit] <;> nofun
  | .other text => by
      rw [sanitizeValue, Leakless, Fit, String.toList_ofList]

theorem lastWins_sanitizeItems_iff (L : LowerCase) : ∀ items : List (String × Metadata ν),
    LastWins (fun m => ¬ Leaks m.1.toList ∧ Leakless m.2) (sanitizeItems L items)
      ↔ FitItems L items
  | [] => Iff.rfl
  | (key, item) :: items => by
      rw [sanitizeItems, LastWins, FitItems, map_fst_sanitizeItems,
        lastWins_sanitizeItems_iff L items]
      refine and_congr_left fun _ => imp_congr_right fun _ => and_congr_right fun _ => ?_
      dsimp only
      split
      · rename_i hkey
        rw [hkey, Leakless]
        exact iff_of_true (by decide) nofun
      · rename_i hkey
        rw [leakless_sanitizeValue_iff L item, Bool.eq_false_iff]
        exact ⟨fun h _ => h, fun h => h hkey⟩

theorem leakless_sanitizeFirst_iff (L : LowerCase) : ∀ (n : ℕ) (items : List (Metadata ν)),
    LeaklessItems (sanitizeFirst L n items) ↔ FitFirst L n items
  | 0, items => by
      rw [sanitizeFirst, FitFirst, LeaklessItems]
  | n + 1, [] => by
      rw [sanitizeFirst, FitFirst, LeaklessItems] <;> nofun
  | n + 1, item :: items => by
      rw [sanitizeFirst, FitFirst, LeaklessItems, leakless_sanitizeValue_iff L item,
        leakless_sanitizeFirst_iff L n items]

end

/-! ## Sensitive values -/

mutual

/-- The trees differ only in values under sensitive keys. -/
def Alike (L : LowerCase) : Metadata ν → Metadata ν → Prop
  | .mapping items, other => ∃ items', other = .mapping items' ∧ AlikeItems L items items'
  | .list items, other => ∃ items', other = .list items' ∧ AlikeAll L items items'
  | .tuple items, other => ∃ items', other = .tuple items' ∧ AlikeAll L items items'
  | .str value, other => other = .str value
  | .num n, other => other = .num n
  | .bool b, other => other = .bool b
  | .none, other => other = .none
  | .other text, other => other = .other text

def AlikeItems (L : LowerCase) :
    List (String × Metadata ν) → List (String × Metadata ν) → Prop
  | [], others => others = []
  | (key, item) :: items, others => ∃ item' others', others = (key, item') :: others' ∧
      (sensitiveKey L key = false → Alike L item item') ∧ AlikeItems L items others'

def AlikeAll (L : LowerCase) : List (Metadata ν) → List (Metadata ν) → Prop
  | [], others => others = []
  | item :: items, others => ∃ item' others', others = item' :: others' ∧
      Alike L item item' ∧ AlikeAll L items others'

end

mutual

theorem sanitizeValue_alike (L : LowerCase) : ∀ {value value' : Metadata ν},
    Alike L value value' → sanitizeValue L value = sanitizeValue L value'
  | .mapping items, _, ⟨items', rfl, h⟩ => by
      rw [sanitizeValue, sanitizeValue, sanitizeItems_alike L h]
  | .list items, _, ⟨items', rfl, h⟩ => by
      rw [sanitizeValue, sanitizeValue, sanitizeFirst_alike L 100 h]
  | .tuple items, _, ⟨items', rfl, h⟩ => by
      rw [sanitizeValue, sanitizeValue, sanitizeFirst_alike L 100 h]
  | .str _, _, rfl => rfl
  | .num _, _, rfl => rfl
  | .bool _, _, rfl => rfl
  | .none, _, rfl => rfl
  | .other _, _, rfl => rfl

theorem sanitizeItems_alike (L : LowerCase) : ∀ {items others : List (String × Metadata ν)},
    AlikeItems L items others → sanitizeItems L items = sanitizeItems L others
  | [], _, rfl => rfl
  | (key, item) :: items, _, ⟨item', others', rfl, hitem, hitems⟩ => by
      rw [sanitizeItems, sanitizeItems, sanitizeItems_alike L hitems]
      cases hkey : sensitiveKey L key with
      | true => rfl
      | false => rw [sanitizeValue_alike L (hitem hkey)]

theorem sanitizeFirst_alike (L : LowerCase) : ∀ (n : ℕ) {items others : List (Metadata ν)},
    AlikeAll L items others → sanitizeFirst L n items = sanitizeFirst L n others
  | 0, _, _, _ => by rw [sanitizeFirst, sanitizeFirst]
  | _ + 1, [], _, rfl => rfl
  | n + 1, item :: items, _, ⟨item', others', rfl, hitem, hitems⟩ => by
      rw [sanitizeFirst, sanitizeFirst, sanitizeValue_alike L hitem,
        sanitizeFirst_alike L n hitems]

end

/-! ## Recorded metadata -/

section Recorded

variable {L : LowerCase} {aware : τ → Bool} {enabled : Bool} {newId : String} {now : τ}
  {call : EventCall ν τ} {event : AnalysisTimelineEvent ν τ}

theorem metadata_of_recorded (h : recorded L aware enabled newId now call = some event) :
    event.metadata = sanitizeValue L (orEmpty call.metadata) := by
  unfold recorded at h
  split at h
  · dsimp only at h
    split at h
    · cases h
      rfl
    · cases h
  · cases h

end Recorded

/-- No pattern is found in the metadata that is recorded exactly when they fit; and
metadata that differ only in values under sensitive keys are recorded alike. -/
theorem recorded_metadata (L : LowerCase) (aware : τ → Bool) (enabled : Bool) :
    (∀ newId now (call : EventCall ν τ) event,
      recorded L aware enabled newId now call = some event →
      (Leakless event.metadata ↔ Fit L (orEmpty call.metadata))) ∧
    ∀ newId newId' now now' (call call' : EventCall ν τ) event event',
      Alike L (orEmpty call.metadata) (orEmpty call'.metadata) →
      recorded L aware enabled newId now call = some event →
      recorded L aware enabled newId' now' call' = some event' →
      event.metadata = event'.metadata := by
  constructor
  · intro newId now call event h
    rw [metadata_of_recorded h]
    exact leakless_sanitizeValue_iff L _
  · intro newId newId' now now' call call' event event' halike h h'
    rw [metadata_of_recorded h, metadata_of_recorded h']
    exact sanitizeValue_alike L halike

/-- A call with nothing but metadata. -/
def callWith (metadata : List (String × Metadata ℤ)) : EventCall ℤ Unit :=
  ⟨"frames_extracted", .instant, none, none, none, none, none, none, none, none, none, none,
    none, none, none, none, none, none, none, none, none, some metadata, none⟩

/-- A file path as a key is recorded. -/
theorem pathKey_leaks : ∃ event : AnalysisTimelineEvent ℤ Unit,
    recorded asciiLower (fun _ => true) true "tl_1" ()
      (callWith [("/data/frames/0001.jpg", .num 3)]) = some event ∧
    ¬ Leakless event.metadata := by
  refine ⟨_, rfl, fun h => ?_⟩
  have hfit := (leakless_sanitizeValue_iff asciiLower _).mp h
  exact (hfit.1 (by decide)).1 (by decide +kernel)

/-- A count and a token, whatever the token is. -/
def countAndToken (token : String) : List (String × Metadata ℤ) :=
  [("unit_count", .num 3), ("token", .str token)]

theorem countAndToken_recorded : ∃ event event' : AnalysisTimelineEvent ℤ Unit,
    recorded asciiLower (fun _ => true) true "tl_1" () (callWith (countAndToken "a"))
      = some event ∧
    recorded asciiLower (fun _ => true) true "tl_2" () (callWith (countAndToken "b"))
      = some event' ∧
    Leakless event.metadata ∧ event.metadata = event'.metadata := by
  have hfit : Fit asciiLower (orEmpty (callWith (countAndToken "a")).metadata) :=
    ⟨fun _ => ⟨by decide +kernel, fun _ => trivial⟩,
      fun _ => ⟨by decide +kernel, fun hkey => absurd hkey (by decide +kernel)⟩, trivial⟩
  have halike : Alike asciiLower (orEmpty (callWith (countAndToken "a")).metadata)
      (orEmpty (callWith (countAndToken "b")).metadata) :=
    ⟨countAndToken "b", rfl, .num 3, _, rfl, fun _ => rfl, .str "b", [], rfl,
      fun hkey => absurd hkey (by decide +kernel), rfl⟩
  obtain ⟨hleakless, hsame⟩ := @recorded_metadata ℤ Unit asciiLower (fun _ => true) true
  exact ⟨_, _, rfl, rfl, (hleakless "tl_1" () _ _ rfl).mpr hfit,
    hsame "tl_1" "tl_2" () () (callWith (countAndToken "a")) (callWith (countAndToken "b")) _ _
      halike rfl rfl⟩

end CctvMemory.Worker.Timeline
