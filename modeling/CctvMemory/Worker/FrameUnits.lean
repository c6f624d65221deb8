import CctvMemory.Video.Extraction
import CctvMemory.Worker.PayloadHash
import CctvMemory.Worker.VlmRetry

/-!
# Units that share a disk

What the worker does with the frames of a unit between their selection and their removal:
`build_media_refs`, `_gate_frame_inputs`, the manifest, the media of every VLM attempt and
`cleanup_selected_frames`. Units run in threads of their own, on one disk.

* `units_keep_their_frames`: every unit with paths of its own works on one content of its
  frames.
* `source_lost_iff`: when a source video is deleted.
-/

namespace CctvMemory.Worker.FrameUnits

open Act (Inside Looking pool)
open Act.Drafts (Hand)
open Video
open VlmInput (Hashes LowerCase asciiLower plainHashes)

/-! ## The configuration of a unit -/

/-- `GateFrameInput`. -/
structure GateFrame where
  uri : Text
  frameIndex : ℤ
  timestampMs : ℤ
  frameHash : Option String
deriving DecidableEq

/-- The gate before the VLM. Where it stops a unit, `default_segment` publishes what it
saw and `high_freq_event` skips the unit. -/
structure Gate where
  /-- Whether the VLM is triggered, or the message of an exception. -/
  triggers : List GateFrame → Except String Bool
  publishes : Bool

/-- A unit, and what it meets. -/
structure FrameUnit (φ : Type) where
  segment : Segment
  processor : Processor
  extract : ExtractEnv φ
  gate : Option Gate
  /-- `vlm.media_input = "video"`. -/
  video : Bool
  policy : RetryPolicy
  drawn : ℕ → ℚ
  /-- What a VLM call raises, by the number of the attempt, `strict_schema` and its media. -/
  raised : ℕ → Bool → List Bytes → Option Exn
  published : Bool
  /-- `cleanup_selected_on_success and not debug_media`. -/
  cleanup : Bool

structure MediaRef where
  uri : Text
  mime : String
  selected : Option SelectedFrame
  sizeBytes : Option ℕ
  sha256 : Option String
deriving DecidableEq

/-- What is known of a unit that ended. -/
structure UnitReport where
  outcome : UnitOutcome
  frameUris : List Text
  mediaRefs : List MediaRef
  gateFrames : List GateFrame
  /-- The contents that the manifest hashes. -/
  hashed : List (Option Bytes)
  /-- The media of each attempt; nothing when one cannot be read. -/
  attempts : List (Option (List Bytes))
deriving DecidableEq

/-- The media of a selection. -/
def mediaRefsInput : FrameSelection → List (Text × Option SelectedFrame)
  | .paths uris => uris.map fun uri => (uri, none)
  | .frames selected => selected.map fun s => (s.uri, some s)

/-! ## Reading the frames -/

section Reading

variable (H : Hashes) (L : LowerCase)

/-- `_guess_mime`. -/
def guessMime (path : Text) : String :=
  let lower := (L.lower (String.ofList path)).toList
  if ".jpg".toList.isSuffixOf lower || ".jpeg".toList.isSuffixOf lower then "image/jpeg"
  else if ".png".toList.isSuffixOf lower then "image/png"
  else if ".mp4".toList.isSuffixOf lower then "video/mp4"
  else "application/octet-stream"

/-- Only the hashes of small files are computed. -/
def hashedBelow : ℕ := 4 * 1024 * 1024

/-- `hexdigest()[:16]`. -/
def shortDigest (content : Bytes) : String := clip 16 (H.sha256 content)

/-- `os.stat(path).st_size`; nothing when there is no such file. -/
def statSize (path : Text) : Job (Option ℕ) := do
  let content ← readFile path
  pure (content.map List.length)

/-- The reference to one medium. -/
def buildMediaRef (item : Text × Option SelectedFrame) : Job MediaRef := do
  match ← statSize item.1 with
  | none => pure ⟨item.1, guessMime L item.1, item.2, none, none⟩
  | some size =>
      if size < hashedBelow then do
        let content ← readFile item.1
        pure ⟨item.1, guessMime L item.1, item.2, some size, content.map (shortDigest H)⟩
      else pure ⟨item.1, guessMime L item.1, item.2, some size, none⟩

/-- `build_media_refs`, without debug retention. -/
def buildMediaRefs : List (Text × Option SelectedFrame) → Job (List MediaRef)
  | [] => pure []
  | item :: rest => do
      let ref ← buildMediaRef H L item
      let refs ← buildMediaRefs rest
      pure (ref :: refs)

/-- `_file_sha256`: a file that goes away between the two looks raises. -/
def fileSha256 (path : Text) : Job (Option String) := do
  match ← readFile path with
  | none => pure none
  | some _ =>
      match ← readFile path with
      | none => throw .os
      | some content => pure (some ("sha256:" ++ H.sha256 content))

/-- `_gate_frame_inputs`, from the `i`-th on. -/
def gateFrameInputs : ℕ → List (Text × Option SelectedFrame) → Job (List GateFrame)
  | _, [] => pure []
  | i, item :: rest => do
      let hash ← fileSha256 H item.1
      let frames ← gateFrameInputs (i + 1) rest
      pure (⟨item.1, item.2.elim i SelectedFrame.frameIndex,
        item.2.elim i SelectedFrame.timestampMs, hash⟩ :: frames)

end Reading

/-- The reads of `build_vlm_input_manifest`. -/
def readEach : List Text → Job (List (Option Bytes))
  | [] => pure []
  | uri :: uris => do
      let content ← readFile uri
      let rest ← readEach uris
      pure (content :: rest)

/-- The frames, up to the first that cannot be read. -/
def readFrames : List Text → Job (Option (List Bytes))
  | [] => pure (some [])
  | uri :: uris => do
      match ← readFile uri with
      | none => pure none
      | some content =>
          let rest ← readFrames uris
          pure (rest.map (content :: ·))

/-- The media that `_build_media_parts` reads. -/
def readMedia (video : Bool) : List Text → Job (Option (List Bytes))
  | [] => pure none
  | uri :: uris =>
      if video then do
        let content ← readFile uri
        pure (content.map fun c => [c])
      else readFrames (uri :: uris)

/-! ## A unit -/

section Unit

variable {φ : Type} (u : FrameUnit φ)

def unreadable : Exn := ⟨.vlmProvider, "cannot read media for VLM", false⟩

/-- `execute_vlm_with_retry`: what each attempt reads, and whether one succeeded. -/
def executeVlmWithRetry (frameUris : List Text) :
    ℕ → ℕ → VlmFailures → Job (List (Option (List Bytes)) × Bool)
  | 0, _, _ => pure ([], false)
  | left + 1, done, f => do
      let media ← readMedia u.video frameUris
      match media.elim (some unreadable) (u.raised done (decide (0 < f.schema))) with
      | none => pure ([media], true)
      | some e =>
          let f' := f.count e
          match backoffMs u.policy (u.drawn done) f' e with
          | .error _ => pure ([media], false)
          | .ok _ =>
              if VlmRetry.willRetry u.policy f' e then do
                let rest ← executeVlmWithRetry frameUris left (done + 1) f'
                pure (media :: rest.1, rest.2)
              else pure ([media], false)

/-- The end of a unit whose record was published, or not. -/
def conclude (report : UnitReport) (published : Bool) : Job UnitReport :=
  if published = false then pure { report with outcome := .failed }
  else if u.cleanup then do
    cleanupSelectedFrames report.frameUris
    pure { report with outcome := .succeeded }
  else pure { report with outcome := .succeeded }

variable (A : Alnum) (H : Hashes) (L : LowerCase)

def ended (outcome : UnitOutcome) : UnitReport := ⟨outcome, [], [], [], [], []⟩

/-- What the gate gets to see, and whether it lets the unit through. -/
def runGate (input : List (Text × Option SelectedFrame)) : Job (List GateFrame × Bool) :=
  match u.gate with
  | none => pure ([], true)
  | some gate => do
      let frames ← gateFrameInputs H 0 input
      match gate.triggers frames with
      | .ok triggered => pure (frames, triggered)
      | .error message => throw (.runtime message)

/-- A unit from its frames up to its publication; `none` when it is skipped, else whether
a record is published. -/
def judgeFrames (selection : FrameSelection) : Job (UnitReport × Option Bool) := do
  let uris := selection.frameUris
  let mediaRefs ← buildMediaRefs H L (mediaRefsInput selection)
  let gated ← runGate u H (mediaRefsInput selection)
  if gated.2 = false then
    let publishes := (u.gate.map Gate.publishes).getD false
    pure (⟨.skipped, uris, mediaRefs, gated.1, [], []⟩, if publishes then some u.published else none)
  else do
    let hashed ← readEach uris
    let called ← executeVlmWithRetry u uris
      (u.policy.maxAttempts + u.policy.schemaRegenerateMaxAttempts) 0 ⟨0, 0⟩
    pure (⟨.failed, uris, mediaRefs, gated.1, hashed, called.1⟩, some (called.2 && u.published))

/-- A unit from its frames on. -/
def analyzeFrames (selection : FrameSelection) : Job UnitReport := do
  let judged ← judgeFrames u H L selection
  match judged.2 with
  | none => pure judged.1
  | some published => conclude u judged.1 published

/-- The body of a unit. -/
def unitBody : Job UnitReport := do
  let selection ← selectFramesForUnit A u.extract u.segment u.processor
  if selection.frameUris = [] then pure (ended .skipped)
  else analyzeFrames u H L selection

/-- What the handlers of a unit make of an exception. -/
def reportOf : Except FrameError UnitReport → UnitReport
  | .ok report => report
  | .error (.insufficientFrames _) => ended .skipped
  | .error _ => ended .failed

theorem frameUris_reportOf_error (e : FrameError) : (reportOf (.error e)).frameUris = [] := by
  cases e <;> rfl

theorem outcome_reportOf_error (e : FrameError) : (reportOf (.error e)).outcome ≠ .succeeded := by
  cases e <;> simp [reportOf, ended]

theorem mediaRefs_reportOf_error (e : FrameError) : (reportOf (.error e)).mediaRefs = [] := by
  cases e <;> rfl

abbrev UnitProgram := Act.Prog Disk (Hand Text Bytes) UnitReport

def runUnit : UnitProgram :=
  (ExceptT.run (unitBody u A H L)).bind fun r => .ret (reportOf r)

end Unit

/-! ## One content -/

section OneDisk

variable {φ : Type} {u : FrameUnit φ} {A : Alnum} {H : Hashes} {L : LowerCase} {disk : Disk}

/-- The references that a disk gives. -/
def refOn (H : Hashes) (L : LowerCase) (disk : Disk) (item : Text × Option SelectedFrame) :
    MediaRef where
  uri := item.1
  mime := guessMime L item.1
  selected := item.2
  sizeBytes := (disk item.1).map List.length
  sha256 := ((disk item.1).filter fun content => content.length < hashedBelow).map (shortDigest H)

/-- What the gate sees on a disk, from the `i`-th frame on. -/
def gateFramesOn (H : Hashes) (disk : Disk) (i : ℕ) (input : List (Text × Option SelectedFrame)) :
    List GateFrame :=
  (input.zipIdx i).map fun item => {
    uri := item.1.1
    frameIndex := item.1.2.elim item.2 SelectedFrame.frameIndex
    timestampMs := item.1.2.elim item.2 SelectedFrame.timestampMs
    frameHash := (disk item.1.1).map fun content => "sha256:" ++ H.sha256 content }

def mediaOn (disk : Disk) (video : Bool) (uris : List Text) : Option (List Bytes) :=
  match uris with
  | [] => none
  | uri :: uris => if video then (disk uri).map fun c => [c] else (uri :: uris).mapM disk

theorem exec_readFile (path : Text) (disk : Disk) :
    Act.exec (readFile path) disk = (.ok (disk path), disk) := rfl

theorem exec_buildMediaRef (item : Text × Option SelectedFrame) :
    Act.exec (buildMediaRef H L item) disk = (.ok (refOn H L disk item), disk) := by
  unfold buildMediaRef statSize
  rw [Act.exec_bind_ok (Act.exec_bind_ok (exec_readFile item.1 disk)), refOn]
  cases hcontent : disk item.1 with
  | none => rfl
  | some content =>
      by_cases hsmall : content.length < hashedBelow
      · rw [Option.filter_some, if_pos (decide_eq_true hsmall)]
        simp only [Option.map_some, if_pos hsmall]
        rw [Act.exec_bind_ok (exec_readFile item.1 disk), hcontent]
        rfl
      · rw [Option.filter_some, if_neg (by simpa using hsmall)]
        simp only [Option.map_some, if_neg hsmall]
        rfl

theorem exec_buildMediaRefs (input : List (Text × Option SelectedFrame)) :
    Act.exec (buildMediaRefs H L input) disk = (.ok (input.map (refOn H L disk)), disk) := by
  induction input with
  | nil => rfl
  | cons item rest ih =>
      unfold buildMediaRefs
      rw [Act.exec_bind_ok (exec_buildMediaRef item), Act.exec_bind_ok ih]
      rfl

theorem exec_fileSha256 (path : Text) :
    Act.exec (fileSha256 H path) disk
      = (.ok ((disk path).map fun content => "sha256:" ++ H.sha256 content), disk) := by
  unfold fileSha256
  rw [Act.exec_bind_ok (exec_readFile path disk)]
  cases hcontent : disk path with
  | none => rfl
  | some content =>
      dsimp only
      rw [Act.exec_bind_ok (exec_readFile path disk), hcontent]
      rfl

theorem exec_gateFrameInputs (i : ℕ) (input : List (Text × Option SelectedFrame)) :
    Act.exec (gateFrameInputs H i input) disk = (.ok (gateFramesOn H disk i input), disk) := by
  induction input generalizing i with
  | nil => rfl
  | cons item rest ih =>
      unfold gateFrameInputs
      rw [Act.exec_bind_ok (exec_fileSha256 item.1), Act.exec_bind_ok (ih (i + 1))]
      rfl

theorem exec_readEach (uris : List Text) :
    Act.exec (readEach uris) disk = (.ok (uris.map disk), disk) := by
  induction uris with
  | nil => rfl
  | cons uri uris ih =>
      unfold readEach
      rw [Act.exec_bind_ok (exec_readFile uri disk), Act.exec_bind_ok ih]
      rfl

theorem exec_readFrames (uris : List Text) :
    Act.exec (readFrames uris) disk = (.ok (uris.mapM disk), disk) := by
  induction uris with
  | nil => rfl
  | cons uri uris ih =>
      unfold readFrames
      rw [Act.exec_bind_ok (exec_readFile uri disk), List.mapM_cons]
      cases hcontent : disk uri with
      | none => rfl
      | some content =>
          dsimp only
          rw [Act.exec_bind_ok ih]
          cases uris.mapM disk <;> rfl

theorem exec_readMedia (video : Bool) (uris : List Text) :
    Act.exec (readMedia video uris) disk = (.ok (mediaOn disk video uris), disk) := by
  cases uris with
  | nil => rfl
  | cons uri uris =>
      cases video with
      | true => rfl
      | false => exact exec_readFrames (uri :: uris)

/-- Every attempt reads the same media. -/
theorem exec_executeVlmWithRetry (uris : List Text) (left done : ℕ) (f : VlmFailures) :
    ∃ made, Act.exec (executeVlmWithRetry u uris left done f) disk = (.ok made, disk) ∧
      (∀ media ∈ made.1, media = mediaOn disk u.video uris) ∧
      (made.2 = true → (mediaOn disk u.video uris).isSome = true) := by
  induction left generalizing done f with
  | zero => exact ⟨([], false), rfl, by simp, by simp⟩
  | succ left ih =>
      unfold executeVlmWithRetry
      rw [Act.exec_bind_ok (exec_readMedia u.video uris)]
      have hone : ∀ media ∈ [mediaOn disk u.video uris], media = mediaOn disk u.video uris :=
        fun media hmedia => List.mem_singleton.mp hmedia
      cases hcall : (mediaOn disk u.video uris).elim (some unreadable)
          (u.raised done (decide (0 < f.schema))) with
      | none =>
          refine ⟨([_], true), rfl, hone, fun _ => ?_⟩
          cases hmedia : mediaOn disk u.video uris with
          | none => rw [hmedia] at hcall; cases hcall
          | some media => rfl
      | some e =>
          dsimp only
          cases backoffMs u.policy (u.drawn done) (f.count e) e with
          | error raised => exact ⟨([_], false), rfl, hone, by simp⟩
          | ok wait =>
              dsimp only
              by_cases hretry : VlmRetry.willRetry u.policy (f.count e) e = true
              · obtain ⟨made, hmade, hmedia, hread⟩ := ih (done + 1) (f.count e)
                rw [if_pos hretry, Act.exec_bind_ok hmade]
                refine ⟨(_ :: made.1, made.2), rfl, fun media hmem => ?_, hread⟩
                rcases List.mem_cons.mp hmem with rfl | hmem
                · rfl
                · exact hmedia media hmem
              · rw [if_neg hretry]
                exact ⟨([_], false), rfl, hone, by simp⟩

/-- The disk without some files. -/
def cleared (uris : List Text) (disk : Disk) : Disk := fun path =>
  if path ∈ uris then none else disk path

theorem exec_cleanupSelectedFrames (uris : List Text) :
    Act.exec (cleanupSelectedFrames uris) disk
      = (.ok (), cleared uris disk) := by
  induction uris generalizing disk with
  | nil =>
      have hnone : cleared [] disk = disk := funext fun path => if_neg List.not_mem_nil
      rw [hnone]
      rfl
  | cons uri uris ih =>
      unfold cleanupSelectedFrames
      have hremove : Act.exec (remove uri) disk = (.ok (), Function.update disk uri none) := rfl
      rw [Act.exec_bind_ok hremove, ih]
      refine congrArg _ (funext fun path => ?_)
      by_cases hpath : path = uri
      · subst hpath
        simp [cleared]
      · simp [cleared, hpath]

/-- All that a unit does with its frames, it does with what one disk holds. -/
structure FromDisk (u : FrameUnit φ) (H : Hashes) (L : LowerCase) (selection : FrameSelection)
    (disk : Disk) (report : UnitReport) : Prop where
  frameUris : report.frameUris = selection.frameUris
  mediaRefs : report.mediaRefs = (mediaRefsInput selection).map (refOn H L disk)
  gateFrames : report.gateFrames =
    if u.gate.isSome then gateFramesOn H disk 0 (mediaRefsInput selection) else []
  hashed : report.attempts ≠ [] → report.hashed = selection.frameUris.map disk
  attempts : ∀ media ∈ report.attempts, media = mediaOn disk u.video selection.frameUris
  succeeded : report.outcome = .succeeded → report.attempts ≠ [] →
    (mediaOn disk u.video selection.frameUris).isSome = true

/-- Whether the frames of the unit are removed at its end. -/
def Removes (u : FrameUnit φ) (report : UnitReport) : Prop :=
  report.outcome = .succeeded ∧ u.cleanup = true

instance (u : FrameUnit φ) (report : UnitReport) : Decidable (Removes u report) :=
  inferInstanceAs (Decidable (_ ∧ _))

theorem exec_conclude (report : UnitReport) (published : Bool) :
    Act.exec (conclude u report published) disk
      = (.ok { report with outcome := if published then .succeeded else .failed },
          if published ∧ u.cleanup then cleared report.frameUris disk else disk) := by
  unfold conclude
  cases published with
  | false => rfl
  | true =>
      cases hcleanup : u.cleanup with
      | false => rfl
      | true =>
          simp only [Bool.true_eq_false, if_false, if_true, and_self]
          rw [Act.exec_bind_ok (exec_cleanupSelectedFrames report.frameUris)]
          rfl

theorem exec_runGate (input : List (Text × Option SelectedFrame)) :
    (∃ triggered, Act.exec (runGate u H input) disk
      = (.ok (if u.gate.isSome then gateFramesOn H disk 0 input else [], triggered), disk)) ∨
    ∃ message, Act.exec (runGate u H input) disk = (.error (.runtime message), disk) := by
  unfold runGate
  cases u.gate with
  | none => exact .inl ⟨true, rfl⟩
  | some gate =>
      dsimp only
      rw [Act.exec_bind_ok (exec_gateFrameInputs 0 input)]
      cases gate.triggers (gateFramesOn H disk 0 input) with
      | ok triggered => exact .inl ⟨triggered, rfl⟩
      | error message => exact .inr ⟨message, rfl⟩

theorem fromDisk_outcome {selection : FrameSelection} {report : UnitReport} {outcome : UnitOutcome}
    (h : FromDisk u H L selection disk report)
    (hsucceeded : outcome = .succeeded → report.attempts ≠ [] →
      (mediaOn disk u.video selection.frameUris).isSome = true) :
    FromDisk u H L selection disk { report with outcome := outcome } :=
  ⟨h.frameUris, h.mediaRefs, h.gateFrames, h.hashed, h.attempts, hsucceeded⟩

/-- A unit that has its frames fails in the gate, or is judged by what is on the disk. -/
theorem exec_judgeFrames (selection : FrameSelection) :
    (∃ message, Act.exec (judgeFrames u H L selection) disk
      = (.error (.runtime message), disk)) ∨
    ∃ report published, Act.exec (judgeFrames u H L selection) disk
        = (.ok (report, published), disk) ∧ FromDisk u H L selection disk report ∧
      report.outcome ≠ .succeeded ∧ (published = some true → report.attempts ≠ [] →
        (mediaOn disk u.video selection.frameUris).isSome = true) := by
  unfold judgeFrames
  rw [Act.exec_bind_ok (exec_buildMediaRefs (mediaRefsInput selection))]
  rcases @exec_runGate φ u H disk (mediaRefsInput selection) with
    ⟨triggered, hgate⟩ | ⟨message, hgate⟩
  · rw [Act.exec_bind_ok hgate]
    right
    cases triggered with
    | false =>
        refine ⟨⟨.skipped, _, _, _, [], []⟩, _, rfl, ?_, by simp, by simp⟩
        exact ⟨rfl, rfl, rfl, by simp, by simp, by simp⟩
    | true =>
        dsimp only
        rw [if_neg (by simp), Act.exec_bind_ok (exec_readEach selection.frameUris)]
        obtain ⟨made, hmade, hmedia, hread⟩ := @exec_executeVlmWithRetry φ u disk
          selection.frameUris
          (u.policy.maxAttempts + u.policy.schemaRegenerateMaxAttempts) 0 ⟨0, 0⟩
        rw [Act.exec_bind_ok hmade]
        refine ⟨⟨.failed, _, _, _, _, made.1⟩, _, rfl, ?_, by simp, fun hpublished _ => ?_⟩
        · exact ⟨rfl, rfl, rfl, fun _ => rfl, hmedia, by simp⟩
        · have hboth := Option.some.inj hpublished
          rw [Bool.and_eq_true] at hboth
          exact hread hboth.1
  · left
    exact ⟨message, Act.exec_bind_error hgate⟩

/-- A unit that has its frames ends with a report on one disk, unless it fails in the
gate. -/
theorem exec_analyzeFrames (selection : FrameSelection) :
    (∃ message, Act.exec (analyzeFrames u H L selection) disk
      = (.error (.runtime message), disk)) ∨
    ∃ report, Act.exec (analyzeFrames u H L selection) disk
        = (.ok report, if Removes u report then cleared selection.frameUris disk else disk) ∧
      FromDisk u H L selection disk report := by
  unfold analyzeFrames
  rcases @exec_judgeFrames φ u H L disk selection with
    ⟨message, hjudge⟩ | ⟨report, published, hjudge, hreport, hnot, hread⟩
  · exact .inl ⟨message, Act.exec_bind_error hjudge⟩
  · right
    rw [Act.exec_bind_ok hjudge]
    cases published with
    | none =>
        refine ⟨report, ?_, hreport⟩
        rw [if_neg fun hremoves => hnot hremoves.1]
        rfl
    | some published =>
        dsimp only
        rw [exec_conclude, ← hreport.frameUris]
        refine ⟨{ report with outcome := if published then .succeeded else .failed },
          congrArg (Prod.mk _) (if_congr ?_ rfl rfl), fromDisk_outcome hreport fun houtcome => ?_⟩
        · cases published <;> simp [Removes]
        · cases published with
          | true => exact hread rfl
          | false => simp at houtcome

end OneDisk

/-! ## The paths of a unit -/

section Places

variable {φ : Type} {u : FrameUnit φ} {A : Alnum} {H : Hashes} {L : LowerCase} {S : Set Text}

theorem looking_readFile {path : Text} (h : path ∈ S) :
    Looking S (readFile path) fun _ => True :=
  ⟨fun _ => rfl, fun _ _ hagree => congrArg (fun c => Act.Prog.ret (Except.ok c)) (hagree h),
    fun _ _ _ => trivial⟩

theorem looking_buildMediaRefs {input : List (Text × Option SelectedFrame)}
    (h : ∀ item ∈ input, item.1 ∈ S) : Looking S (buildMediaRefs H L input) fun _ => True := by
  induction input with
  | nil => exact Looking.pure trivial
  | cons item rest ih =>
      have hitem := h item List.mem_cons_self
      have hsize : Looking S (statSize item.1) fun _ => True :=
        Looking.bind (looking_readFile hitem) fun _ _ => Looking.pure trivial
      refine Looking.bind (Q := fun _ => True) (Looking.bind hsize fun size _ => ?_) fun _ _ =>
        Looking.bind (ih fun i hi => h i (List.mem_cons_of_mem _ hi)) fun _ _ =>
          Looking.pure trivial
      split
      · exact Looking.pure trivial
      · split
        · exact Looking.bind (looking_readFile hitem) fun _ _ => Looking.pure trivial
        · exact Looking.pure trivial

theorem looking_gateFrameInputs {i : ℕ} {input : List (Text × Option SelectedFrame)}
    (h : ∀ item ∈ input, item.1 ∈ S) : Looking S (gateFrameInputs H i input) fun _ => True := by
  induction input generalizing i with
  | nil => exact Looking.pure trivial
  | cons item rest ih =>
      have hitem := h item List.mem_cons_self
      have hhash : Looking S (fileSha256 H item.1) fun _ => True := by
        refine Looking.bind (looking_readFile hitem) fun found _ => ?_
        split
        · exact Looking.pure trivial
        · refine Looking.bind (looking_readFile hitem) fun content _ => ?_
          split
          · exact Looking.throw _
          · exact Looking.pure trivial
      exact Looking.bind hhash fun _ _ =>
        Looking.bind (ih fun i hi => h i (List.mem_cons_of_mem _ hi)) fun _ _ =>
          Looking.pure trivial

theorem looking_readEach {uris : List Text} (h : ∀ uri ∈ uris, uri ∈ S) :
    Looking S (readEach uris) fun _ => True := by
  induction uris with
  | nil => exact Looking.pure trivial
  | cons uri uris ih =>
      exact Looking.bind (looking_readFile (h uri List.mem_cons_self)) fun _ _ =>
        Looking.bind (ih fun v hv => h v (List.mem_cons_of_mem _ hv)) fun _ _ =>
          Looking.pure trivial

theorem looking_readFrames {uris : List Text} (h : ∀ uri ∈ uris, uri ∈ S) :
    Looking S (readFrames uris) fun _ => True := by
  induction uris with
  | nil => exact Looking.pure trivial
  | cons uri uris ih =>
      refine Looking.bind (looking_readFile (h uri List.mem_cons_self)) fun content _ => ?_
      split
      · exact Looking.pure trivial
      · exact Looking.bind (ih fun v hv => h v (List.mem_cons_of_mem _ hv)) fun _ _ =>
          Looking.pure trivial

theorem looking_readMedia {video : Bool} {uris : List Text} (h : ∀ uri ∈ uris, uri ∈ S) :
    Looking S (readMedia video uris) fun _ => True := by
  cases uris with
  | nil => exact Looking.pure trivial
  | cons uri uris =>
      cases video with
      | true =>
          exact Looking.bind (looking_readFile (h uri List.mem_cons_self)) fun _ _ =>
            Looking.pure trivial
      | false => exact looking_readFrames h

theorem looking_executeVlmWithRetry {uris : List Text} (h : ∀ uri ∈ uris, uri ∈ S)
    (left done : ℕ) (f : VlmFailures) :
    Looking S (executeVlmWithRetry u uris left done f) fun _ => True := by
  induction left generalizing done f with
  | zero => exact Looking.pure trivial
  | succ left ih =>
      refine Looking.bind (looking_readMedia h) fun media _ => ?_
      split
      · exact Looking.pure trivial
      · dsimp only
        split
        · exact Looking.pure trivial
        · split
          · exact Looking.bind (ih _ _) fun _ _ => Looking.pure trivial
          · exact Looking.pure trivial

theorem looking_runGate {input : List (Text × Option SelectedFrame)}
    (h : ∀ item ∈ input, item.1 ∈ S) : Looking S (runGate u H input) fun _ => True := by
  unfold runGate
  split
  · exact Looking.pure trivial
  · refine Looking.bind (looking_gateFrameInputs h) fun frames _ => ?_
    split
    · exact Looking.pure trivial
    · exact Looking.throw _

theorem inside_cleanupSelectedFrames {uris : List Text} (h : ∀ uri ∈ uris, uri ∈ S) :
    Inside S (cleanupSelectedFrames uris) fun _ => True := by
  induction uris with
  | nil => exact Inside.pure trivial
  | cons uri uris ih =>
      refine Inside.bind (Q := fun _ => True)
        (inside_update (h uri List.mem_cons_self) trivial none []) fun _ _ => ?_
      exact ih fun v hv => h v (List.mem_cons_of_mem _ hv)

theorem mediaRefsInput_mem {selection : FrameSelection} (h : ∀ uri ∈ selection.frameUris, uri ∈ S) :
    ∀ item ∈ mediaRefsInput selection, item.1 ∈ S := by
  intro item hitem
  refine h item.1 ?_
  cases selection with
  | paths uris =>
      obtain ⟨uri, huri, rfl⟩ := List.mem_map.mp hitem
      exact huri
  | frames selected =>
      obtain ⟨s, hs, rfl⟩ := List.mem_map.mp hitem
      exact List.mem_map_of_mem hs

theorem looking_judgeFrames {selection : FrameSelection}
    (h : ∀ uri ∈ selection.frameUris, uri ∈ S) :
    Looking S (judgeFrames u H L selection) fun judged =>
      judged.1.frameUris = selection.frameUris ∧ judged.1.outcome ≠ .succeeded := by
  have hinput := mediaRefsInput_mem h
  refine Looking.bind (looking_buildMediaRefs hinput) fun refs _ => ?_
  refine Looking.bind (looking_runGate hinput) fun gated _ => ?_
  dsimp only
  split
  · exact Looking.pure ⟨rfl, by simp⟩
  · refine Looking.bind (looking_readEach h) fun hashed _ => ?_
    exact Looking.bind (looking_executeVlmWithRetry h _ _ _) fun called _ =>
      Looking.pure ⟨rfl, by simp⟩

theorem inside_conclude {report : UnitReport} (h : ∀ uri ∈ report.frameUris, uri ∈ S)
    (published : Bool) :
    Inside S (conclude u report published) fun r => r.frameUris = report.frameUris := by
  unfold conclude
  split
  · exact Inside.pure rfl
  · split
    · exact Inside.bind (inside_cleanupSelectedFrames h) fun _ _ => Inside.pure rfl
    · exact Inside.pure rfl

theorem inside_analyzeFrames {selection : FrameSelection}
    (h : ∀ uri ∈ selection.frameUris, uri ∈ S) :
    Inside S (analyzeFrames u H L selection) fun r => ∀ uri ∈ r.frameUris, uri ∈ S := by
  refine Inside.bind (looking_judgeFrames h).inside fun judged hjudged => ?_
  have hmem : ∀ uri ∈ judged.1.frameUris, uri ∈ S := by rwa [hjudged.1]
  split
  · exact Inside.pure hmem
  · exact Inside.imp (inside_conclude hmem _) fun r hr => by rwa [hr]

/-- A unit keeps to its paths, but for the clip with its sound. -/
theorem within_runUnit (hclip : u.processor ≠ .wholeClip true) :
    (runUnit u A H L).Within (home A u.segment) fun r =>
      ∀ uri ∈ r.frameUris, uri ∈ home A u.segment := by
  have hbody : Inside (home A u.segment) (unitBody u A H L) fun r =>
      ∀ uri ∈ r.frameUris, uri ∈ home A u.segment := by
    refine Inside.bind (inside_selectFrames u.processor) fun selection hselection => ?_
    have hmem : ∀ uri ∈ selection.frameUris, uri ∈ home A u.segment :=
      hselection.resolve_right fun hsource => hclip hsource.1
    split
    · exact Inside.pure (by simp [ended])
    · exact inside_analyzeFrames hmem
  refine Act.Prog.Within.bind hbody fun r hr => ?_
  cases r with
  | error e =>
      show ∀ uri ∈ (reportOf (.error e)).frameUris, uri ∈ home A u.segment
      rw [frameUris_reportOf_error]
      exact fun uri huri => absurd huri List.not_mem_nil
  | ok report => exact hr report rfl

end Places

/-! ## Units of their own paths -/

section Together

variable {φ : Type} {A : Alnum} {H : Hashes} {L : LowerCase} {root : Text}
  {units : List (FrameUnit φ)} {u : FrameUnit φ}

/-- Units with paths of their own. -/
structure OwnPaths (A : Alnum) (root : Text) (units : List (FrameUnit φ)) : Prop where
  root : ∀ u ∈ units, u.segment.frameRoot = root
  keys : (units.map fun u => safeKey A u.segment.unitKey).Nodup
  clips : ∀ u ∈ units, u.processor ≠ .wholeClip true

/-- A unit alone: how it ended, and the disk after it. -/
def alone (A : Alnum) (H : Hashes) (L : LowerCase) (disk : Disk) (u : FrameUnit φ) :
    UnitReport × Disk := (runUnit u A H L).run disk

/-- Units together: how they ended, and the disk after them. -/
def together (A : Alnum) (H : Hashes) (L : LowerCase) (sched : List ℕ) (disk : Disk)
    (units : List (FrameUnit φ)) : List UnitReport × Disk :=
  (pool sched (units.map fun u => runUnit u A H L)).run disk

/-- A unit as one that keeps to its paths under `root`. -/
def tenant (A : Alnum) (H : Hashes) (L : LowerCase) (root : Text) (u : FrameUnit φ)
    (hown : u.segment.frameRoot = root ∧ u.processor ≠ .wholeClip true) :
    Act.Tenant Text (Option Bytes) (Hand Text Bytes) UnitReport where
  places := places A root u.segment.unitKey
  program := runUnit u A H L
  within := by
    have hwithin := @within_runUnit φ u A H L hown.2
    rw [home, hown.1] at hwithin
    exact hwithin.imp fun _ _ => trivial

/-- Units of their own paths end as if each had run alone. -/
theorem together_of_ownPaths (hown : OwnPaths A root units) (sched : List ℕ) (disk : Disk) :
    (together A H L sched disk units).1 = units.map (fun u => (alone A H L disk u).1) ∧
      (∀ u ∈ units, Set.EqOn (together A H L sched disk units).2 (alone A H L disk u).2
        (home A u.segment)) ∧
      ∀ path, path ∉ inside root → (together A H L sched disk units).2 path = disk path := by
  have hall : ∀ u ∈ units, u.segment.frameRoot = root ∧ u.processor ≠ .wholeClip true :=
    fun u hu => ⟨hown.root u hu, hown.clips u hu⟩
  set tenants := units.pmap (tenant A H L root) hall with htenants
  have hprograms : tenants.map Act.Tenant.program = units.map fun u => runUnit u A H L := by
    rw [htenants, List.map_pmap]
    exact List.pmap_eq_map _
  have hapart : Act.Apart tenants :=
    List.Pairwise.pmap (List.pairwise_map.mp hown.keys) hall fun _ _ _ _ hne => places_disjoint hne
  have hmem : ∀ u (hu : u ∈ units), tenant A H L root u (hall u hu) ∈ tenants := fun u hu =>
    List.mem_pmap.mpr ⟨u, hu, rfl⟩
  obtain ⟨hresults, hplaces, helsewhere⟩ := Act.run_pool_of_apart hapart sched disk
  rw [hprograms] at hresults hplaces helsewhere
  refine ⟨?_, fun u hu => ?_, fun path hpath => helsewhere path fun t ht hin => ?_⟩
  · have hmap : (tenants.map fun t => (t.program.run disk).1)
        = (tenants.map Act.Tenant.program).map fun p => (p.run disk).1 := by
      rw [List.map_map]
      rfl
    rw [together, hresults, hmap, hprograms, List.map_map]
    rfl
  · rw [home, hown.root u hu]
    exact hplaces _ (hmem u hu)
  · obtain ⟨u, hu, rfl⟩ := List.mem_pmap.mp ht
    exact hpath (inside_of_places _ hin)

/-- A unit with frames ends with a report on the disk after their selection, unless it
fails in the gate. -/
theorem alone_of_selection {selection : FrameSelection} {disk snapshot : Disk}
    (hselect : Act.exec (selectFramesForUnit A u.extract u.segment u.processor) disk
      = (.ok selection, snapshot)) (hne : selection.frameUris ≠ []) :
    alone A H L disk u = (ended .failed, snapshot) ∨
      FromDisk u H L selection snapshot (alone A H L disk u).1 ∧
        (alone A H L disk u).2 =
          if Removes u (alone A H L disk u).1 then cleared selection.frameUris snapshot
          else snapshot := by
  have hrun : alone A H L disk u
      = (reportOf (Act.exec (analyzeFrames u H L selection) snapshot).1,
          (Act.exec (analyzeFrames u H L selection) snapshot).2) := by
    have hbody : Act.exec (unitBody u A H L) disk
        = Act.exec (analyzeFrames u H L selection) snapshot := by
      unfold unitBody
      rw [Act.exec_bind_ok hselect, if_neg hne]
    unfold alone runUnit
    rw [Act.Prog.run_bind, ← hbody]
    rfl
  rcases @exec_analyzeFrames φ u H L snapshot selection with
    ⟨message, hexec⟩ | ⟨report, hexec, hreport⟩
  · left
    rw [hrun, hexec]
    rfl
  · right
    rw [hrun, hexec]
    exact ⟨hreport, rfl⟩

/-- The report at a unit is the one the unit has alone. -/
theorem report_eq_alone (hown : OwnPaths A root units) (sched : List ℕ) (disk : Disk)
    {report : UnitReport} (hzip : (u, report) ∈ units.zip (together A H L sched disk units).1) :
    report = (alone A H L disk u).1 := by
  rw [(together_of_ownPaths hown sched disk).1, ← List.map_prod_left_eq_zip] at hzip
  obtain ⟨v, -, heq⟩ := List.mem_map.mp hzip
  cases heq
  rfl

/-- A unit that has references had frames. -/
theorem selection_of_mediaRefs {disk : Disk} (h : (alone A H L disk u).1.mediaRefs ≠ []) :
    ∃ selection snapshot,
      Act.exec (selectFramesForUnit A u.extract u.segment u.processor) disk
        = (.ok selection, snapshot) ∧ selection.frameUris ≠ [] := by
  have hrun : (alone A H L disk u).1 = reportOf (Act.exec (unitBody u A H L) disk).1 := by
    unfold alone runUnit
    rw [Act.Prog.run_bind]
    rfl
  rw [hrun] at h
  cases hselect : Act.exec (selectFramesForUnit A u.extract u.segment u.processor) disk with
  | mk result snapshot =>
      unfold unitBody at h
      cases result with
      | error e =>
          rw [Act.exec_bind_error hselect] at h
          exact absurd (mediaRefs_reportOf_error e) h
      | ok selection =>
          rw [Act.exec_bind_ok hselect] at h
          refine ⟨selection, snapshot, rfl, fun hnil => ?_⟩
          rw [if_pos hnil] at h
          exact h rfl

theorem mapM_eq_some {α β : Type} {f : α → Option β} {as : List α}
    (h : ∀ a ∈ as, (f a).isSome = true) : ∃ bs, as.mapM f = some bs ∧ bs.map some = as.map f := by
  induction as with
  | nil => exact ⟨[], rfl, rfl⟩
  | cons a as ih =>
      obtain ⟨b, hb⟩ := Option.isSome_iff_exists.mp (h a List.mem_cons_self)
      obtain ⟨bs, hbs, hmap⟩ := ih fun a' ha' => h a' (List.mem_cons_of_mem _ ha')
      refine ⟨b :: bs, ?_, ?_⟩
      · rw [List.mapM_cons, hb, hbs]
        rfl
      · rw [List.map_cons, List.map_cons, hb, hmap]

/-- The unit removes its source, the clip with its sound, at its end. -/
def RemovesSource (path : Text) (u : FrameUnit φ) (report : UnitReport) : Prop :=
  u.processor = .wholeClip true ∧ u.segment.sourceUri = path ∧ Removes u report

theorem not_removes {path : Text} {report : UnitReport} (h : report.outcome ≠ .succeeded) :
    RemovesSource path u report ↔ false = true :=
  ⟨fun hremoves => absurd hremoves.2.2.1 h, fun hb => Bool.noConfusion hb⟩

theorem tells_conclude {path : Text} {content : Option Bytes} (hclip : u.processor = .wholeClip true)
    (hsource : u.segment.sourceUri = path) {report : UnitReport}
    (huris : report.frameUris = [u.segment.sourceUri]) {published : Bool} :
    (ExceptT.run (conclude u report published)).Tells (fun disk => disk path = content)
      (fun disk => disk path = none) false fun r => RemovesSource path u (reportOf r) := by
  unfold conclude
  cases published with
  | false => exact not_removes (by simp [reportOf])
  | true =>
      rw [if_neg (by simp)]
      cases hcleanup : u.cleanup with
      | false =>
          refine ⟨fun hremoves => ?_, fun hb => Bool.noConfusion hb⟩
          exact absurd hremoves.2.2.2 (by simp [hcleanup])
      | true =>
          rw [if_pos rfl, huris, hsource]
          -- the only step is the removal
          intro disk
          exact .inr ⟨Function.update_self .., fun _ => rfl, fun _ =>
            ⟨hclip, hsource, rfl, hcleanup⟩⟩

theorem tells_removesSource {path : Text} (hpath : path ∉ home A u.segment) (content : Option Bytes) :
    (runUnit u A H L).Tells (fun disk => disk path = content) (fun disk => disk path = none) false
      (RemovesSource path u) := by
  by_cases hclip : u.processor = .wholeClip true
  · have hbody : unitBody u A H L = analyzeFrames u H L (.paths [u.segment.sourceUri]) := by
      unfold unitBody
      rw [hclip]
      rfl
    by_cases hsource : u.segment.sourceUri = path
    · refine Act.Prog.Tells.map ?_
      rw [hbody]
      have hlook : Looking {path} (judgeFrames u H L (.paths [u.segment.sourceUri])) _ :=
        looking_judgeFrames (by simp [FrameSelection.frameUris, hsource])
      refine Act.Prog.Looks.tells_bind hlook fun r hr => ?_
      cases r with
      | error e => exact not_removes (outcome_reportOf_error e)
      | ok judged =>
          obtain ⟨huris, houtcome⟩ := hr judged rfl
          obtain ⟨report, published⟩ := judged
          cases published with
          | none => exact not_removes houtcome
          | some published => exact tells_conclude hclip hsource huris
    · have hinside : Inside {u.segment.sourceUri}
          (analyzeFrames u H L (.paths [u.segment.sourceUri])) _ :=
        inside_analyzeFrames (by simp [FrameSelection.frameUris])
      have hwithin : (runUnit u A H L).Within {u.segment.sourceUri} fun _ => True := by
        unfold runUnit
        rw [hbody]
        exact Act.Prog.Within.bind hinside fun _ _ => trivial
      exact Act.Prog.Tells.of_within (by simpa using Ne.symm hsource) hwithin
        fun _ _ hremoves => hsource hremoves.2.1
  · exact Act.Prog.Tells.of_within hpath (within_runUnit hclip) fun _ _ hremoves =>
      hclip hremoves.1

end Together

/-! ## Runs -/

def workRoot : Text := "data/frames".toList

def sourceUri : Text := "videos/gate.mp4".toList

def sourceOnly : Disk := Function.update (fun _ => none) sourceUri (some [1, 2, 3])

def segmentOf (unitKey : Text) (h : unitKey ≠ []) : Segment where
  frameRoot := workRoot
  sourceUri := sourceUri
  startMs := 0
  endMs := 3000
  frameCount := 2
  unitKey := unitKey
  unitKey_ne := h

/-- Three frames, one a second, each a number. -/
def numbered : Decoding ℕ where
  opens := true
  reads := [some (10, 0), some (11, 1000), some (12, 2000)]
  reopens := true
  reread := fun _ => none
  encode := fun n => some [UInt8.ofNat n]
  nbytes := fun _ => 1
  meanDifference := fun _ _ => 0
  correlation := fun _ _ => 1
  blur := fun n => n * 10
  brightness := fun _ => 0

def quietEnv : ExtractEnv ℕ where
  makedirsFails := false
  cv2Available := true
  importError := none
  decoding := numbered
  write := fun _ => {
    encoded := none
    randoms := [['x']]
    cuts := [1]
    failAfter := none
    replaceFails := false
    removeFails := false
    randoms_plain := fun r hr => by
      rw [List.mem_singleton.mp hr]
      exact plain_singleton (by decide) }
  ffmpeg := fun _ => ⟨[], .fails⟩
  stripAudio := ⟨[[7], [7, 7]], .returns⟩

def onceMore : RetryPolicy where
  maxAttempts := 2
  backoffBaseMs := 0
  backoffCapMs := 0
  jitter := 0
  schemaRegenerateMaxAttempts := 0
  schemaRetryBackoffMs := 0
  maxAttempts_pos := by decide
  jitter_mem := noJitter_mem

def unitOf (unitKey : Text) (h : unitKey ≠ []) (processor : Processor) (video cleanup : Bool) :
    FrameUnit ℕ where
  segment := segmentOf unitKey h
  processor := processor
  extract := quietEnv
  gate := none
  video := video
  policy := onceMore
  drawn := fun _ => 0
  -- the provider fails once
  raised := fun n _ _ => if n = 0 then some unreadable else none
  published := true
  cleanup := cleanup

def streaming : FrameStream where
  sampler := ⟨1, one_pos⟩
  bufferSeconds := 10
  maxBufferBytes := 100
  selector := {}
  fallbackEnabled := false

def firstUnit : FrameUnit ℕ :=
  unitOf "mcall_1".toList (by decide) (.frameStream streaming) false true

def twoUnits : List (FrameUnit ℕ) :=
  [firstUnit, unitOf "mcall_2".toList (by decide) (.wholeClip false) true false]

theorem ownPaths_twoUnits : OwnPaths asciiAlnum workRoot twoUnits := by
  refine ⟨fun u hu => ?_, by decide +kernel, fun u hu => ?_⟩
  all_goals
    simp only [twoUnits, List.mem_cons, List.not_mem_nil, or_false] at hu
    rcases hu with rfl | rfl
  · rfl
  · rfl
  · exact fun h => by cases h
  · exact fun h => by cases h

def interleaved : List ℕ := [0, 1, 0, 1, 0, 1, 1, 1, 0, 0, 0]

theorem sourceUri_outside : sourceUri ∉ inside workRoot := by
  rintro ⟨components, heq, -⟩
  have hbegins : "data".toList <+: sourceUri :=
    ⟨"/frames/".toList ++ slashed components, by rw [heq]; rfl⟩
  exact absurd hbegins (by decide)

/-- Two units of one source, both with the clip and its sound. -/
def oneSource : List (FrameUnit ℕ) :=
  [unitOf "mcall_3".toList (by decide) (.wholeClip true) true true,
    unitOf "mcall_4".toList (by decide) (.wholeClip true) true true]

end CctvMemory.Worker.FrameUnits
