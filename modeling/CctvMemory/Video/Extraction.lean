import CctvMemory.Video.FrameFiles
import CctvMemory.Video.RingBuffer
import CctvMemory.Video.Sampling
import CctvMemory.Worker.Frames

/-!
# The video processors

What each processor puts on disk for a segment of a unit, and which paths it returns:
`OpenCvFrameStreamVideoProcessor` with its ffmpeg fallback, `SegmentFrameVideoProcessor`,
`WholeClipVideoProcessor` and the two that only name frames. The decoder and ffmpeg are
parameters, and so is what fails.

* `inside_selectFrames`: nothing is touched but the paths of the unit.
* `extractWithOpencv_eq_ok`: the selected frames, each at its path.
-/

namespace CctvMemory.Video

open Act (Inside)
open Act.Drafts (Hand)
open Worker.Frames (FrameScore Selector selectFrames)

/-! ## The outside -/

/-- What OpenCV makes of the source and of its frames. -/
structure Decoding (φ : Type) where
  opens : Bool
  reads : List (Option (φ × ℚ))
  reopens : Bool
  reread : ℤ → Option φ
  encode : φ → Option Bytes
  nbytes : φ → ℕ
  meanDifference : φ → φ → ℚ
  correlation : φ → φ → ℚ
  blur : φ → ℚ
  brightness : φ → ℚ

inductive FfmpegEnd where
  | returns
  | timesOut
  | fails
deriving DecidableEq

/-- A run of ffmpeg: what its output holds, one content after the other, and its end. -/
structure FfmpegRun where
  contents : List Bytes
  ends : FfmpegEnd

/-- What an extraction meets. -/
structure ExtractEnv (φ : Type) where
  makedirsFails : Bool
  cv2Available : Bool
  importError : Option String
  decoding : Decoding φ
  write : FrameScore → WriteEnv
  ffmpeg : ℕ → FfmpegRun
  stripAudio : FfmpegRun

/-! ## Processors -/

/-- The configuration of `OpenCvFrameStreamVideoProcessor`. -/
structure FrameStream where
  sampler : Sampler
  bufferSeconds : ℚ
  maxBufferBytes : ℤ
  selector : Selector
  fallbackEnabled : Bool

inductive Processor where
  /-- `StaticVideoProcessor` and `FfprobeVideoProcessor`. -/
  | placeholder
  | segmentFrames
  | wholeClip (includeAudio : Bool)
  | frameStream (config : FrameStream)

/-- The segment of a unit. -/
structure Segment where
  frameRoot : Text
  sourceUri : Text
  startMs : ℤ
  endMs : ℤ
  frameCount : ℤ
  unitKey : Text
  unitKey_ne : unitKey ≠ []

structure SelectedFrame where
  uri : Text
  frameIndex : ℤ
  timestampMs : ℤ
  motion : ℚ
  scene : ℚ
  blur : ℚ
  brightness : ℚ
  decodeBackend : String
  selectionReason : String
deriving DecidableEq

/-- `round(x, digits)`. -/
def roundTo (digits : ℕ) (x : ℚ) : ℚ := roundHalfEven (x * 10 ^ digits) / 10 ^ digits

/-- `int(x)`. -/
def truncate (x : ℚ) : ℤ := if 0 ≤ x then ⌊x⌋ else ⌈x⌉

def makedirs (fails : Bool) : Job Unit := if fails then throw .os else pure ()

section Processors

variable (A : Alnum) {φ : Type} (env : ExtractEnv φ) (seg : Segment)

/-! ### OpenCV -/

/-- `_score_frame`. -/
def scoreFrame (dec : Decoding φ) (previous : Option φ) (frame : SampledFrame φ) : FrameScore where
  frameIndex := frame.frameIndex
  timestampMs := frame.timestampMs
  motion := min 1 ((previous.map fun p => dec.meanDifference p frame.frame).getD 0)
  scene := (previous.map fun p => max 0 (min 1 (1 - dec.correlation p frame.frame))).getD 0
  blur := dec.blur frame.frame
  brightness := dec.brightness frame.frame

/-- The scores of the loop, each frame compared with the one before. -/
def scoreFrames (dec : Decoding φ) : Option φ → List (SampledFrame φ) → List FrameScore
  | _, [] => []
  | previous, frame :: rest =>
      scoreFrame dec previous frame :: scoreFrames dec (some frame.frame) rest

def outDir : Text := segmentDir A seg.frameRoot seg.sourceUri seg.startMs seg.endMs (some seg.unitKey)

def selectedPath (s : FrameScore) : Text :=
  join (outDir A seg) (selectedName s.frameIndex.toNat s.timestampMs)

/-- The frame of the ring buffer, or one that is read again. -/
def frameOf (dec : Decoding φ) (ring : RingBuffer φ) (s : FrameScore) : Except FrameError φ :=
  match ring.get s.frameIndex with
  | some frame => .ok frame
  | none =>
      if dec.reopens then
        match dec.reread s.timestampMs with
        | some frame => .ok frame
        | none => .error (.runtime "opencv re-seek failed to read selected frame")
      else .error (.runtime "opencv re-seek could not open source")

def selectedFrame (strategy : String) (s : FrameScore) : SelectedFrame where
  uri := selectedPath A seg s
  frameIndex := s.frameIndex
  timestampMs := s.timestampMs
  motion := roundTo 6 s.motion
  scene := roundTo 6 s.scene
  blur := roundTo 3 s.blur
  brightness := roundTo 3 s.brightness
  decodeBackend := "opencv"
  selectionReason := strategy

/-- `_materialize`. -/
def materialize (strategy : String) (ring : RingBuffer φ) :
    List FrameScore → Job (List SelectedFrame)
  | [] => pure []
  | s :: rest => do
      let frame ← liftExcept (frameOf env.decoding ring s)
      writeJpeg { env.write s with encoded := env.decoding.encode frame } (selectedPath A seg s)
      let refs ← materialize strategy ring rest
      pure (selectedFrame A seg strategy s :: refs)
where
  liftExcept {α : Type} : Except FrameError α → Job α
    | .ok a => pure a
    | .error e => throw e

/-- The frames that the loop samples. -/
def sampledFrames (config : FrameStream) : List (SampledFrame φ) :=
  config.sampler.iterSampledFrames seg.startMs seg.endMs env.decoding.reads

/-- The ring buffer after the loop. -/
def ringBuffer (config : FrameStream) : RingBuffer φ :=
  let maxlen := max 1 (roundHalfEven (config.bufferSeconds * config.sampler.sampleFps))
  (RingBuffer.create maxlen config.maxBufferBytes).appendAll env.decoding.nbytes
    ((sampledFrames env seg config).map fun f => (f.frameIndex, f.frame))

def chosen (config : FrameStream) : List FrameScore :=
  selectFrames config.selector (scoreFrames env.decoding none (sampledFrames env seg config))
    seg.frameCount

/-- `_extract_with_opencv`. -/
def extractWithOpencv (config : FrameStream) : Job (List SelectedFrame) := do
  if let some message := env.importError then throw (.openCvImport message)
  makedirs env.makedirsFails
  if env.decoding.opens = false then throw (.runtime "opencv could not open source")
  if sampledFrames env seg config = [] then
    throw (.insufficientFrames "opencv decoded no frames in segment")
  materialize A env seg config.selector.strategy (ringBuffer env seg config)
    (chosen env seg config)

/-! ### ffmpeg -/

/-- A subprocess that writes a file and is waited for. -/
def runFfmpeg (run : FfmpegRun) (outPath : Text) (timedOut failed noOutput : String) :
    Job Unit := do
  run.contents.forM fun content => overwrite outPath content
  match run.ends with
  | .timesOut => throw (.runtime timedOut)
  | .fails => throw (.runtime failed)
  | .returns => if (← readFile outPath) = none then throw (.runtime noOutput)
where
  overwrite (path : Text) (content : Bytes) : Job Unit := Act.txn fun disk =>
    .ok ((), Function.update disk path (some content), [])

/-- `_frame_timestamps_ms`. -/
def frameTimestampsMs (startMs endMs frameCount : ℤ) : List ℤ :=
  if frameCount ≤ 0 ∨ endMs ≤ startMs then []
  else if frameCount = 1 then [startMs + (endMs - startMs) / 2]
  else
    let step : ℚ := (endMs - startMs : ℤ) / (frameCount + 1 : ℤ)
    (List.range frameCount.toNat).map fun i => truncate (startMs + step * (i + 1))

def ffmpegDir : Text := join seg.frameRoot (segmentSubdir A (some seg.unitKey) seg.startMs seg.endMs)

/-- The loop of `SegmentFrameVideoProcessor.extract_frame_uris`, from the `i`-th frame. -/
def extractEach : ℕ → ℕ → Job (List Text)
  | _, 0 => pure []
  | i, n + 1 => do
      let outPath := join (ffmpegDir A seg) (frameName i)
      runFfmpeg (env.ffmpeg i) outPath "ffmpeg frame extraction timed out"
        "ffmpeg failed to extract frame" "ffmpeg produced no frame output"
      let uris ← extractEach (i + 1) n
      pure (outPath :: uris)

/-- `SegmentFrameVideoProcessor.extract_frame_uris`. -/
def extractSegmentFrames : Job (List Text) :=
  let timestamps := frameTimestampsMs seg.startMs seg.endMs seg.frameCount
  if timestamps = [] then pure []
  else do
    makedirs env.makedirsFails
    extractEach A env seg 0 timestamps.length

/-- `_strip_audio`. -/
def stripAudio : Job Text := do
  makedirs env.makedirsFails
  let outPath := join (ffmpegDir A seg) clipName
  runFfmpeg env.stripAudio outPath "ffmpeg audio strip timed out" "ffmpeg failed to strip audio"
    "ffmpeg produced no audio-stripped output"
  pure outPath

/-- `f"{self._frame_root}/{seg}/frame_{i:04d}.jpg"`, for every frame. -/
def placeholderUris : List Text :=
  (List.range seg.frameCount.toNat).map fun i =>
    seg.frameRoot ++ '/' :: segmentSubdir A (some seg.unitKey) seg.startMs seg.endMs
      ++ '/' :: frameName i

/-! ### Selection -/

/-- `_fallback_or_raise`. -/
def fallbackOrRaise (config : FrameStream) (reason : String) : Job (List SelectedFrame) :=
  if config.fallbackEnabled = false then
    throw (.runtime ("opencv decode failed and fallback disabled: " ++ reason))
  else do
    let uris ← extractSegmentFrames A env seg
    let timestamps := frameTimestampsMs seg.startMs seg.endMs seg.frameCount
    pure (uris.zipIdx.map fun u => {
      uri := u.1
      frameIndex := u.2
      timestampMs := timestamps[u.2]?.getD seg.startMs
      motion := 0
      scene := 0
      blur := 0
      brightness := 0
      decodeBackend := "ffmpeg"
      selectionReason := "ffmpeg_fallback" })

/-- `extract_selected_frames`. -/
def extractSelectedFrames (config : FrameStream) : Job (List SelectedFrame) :=
  if seg.frameCount ≤ 0 ∨ seg.endMs ≤ seg.startMs then pure []
  else if env.cv2Available = false then
    fallbackOrRaise A env seg config "opencv/numpy not importable"
  else Act.catching (extractWithOpencv A env seg config) fun
    | .openCvImport message =>
        fallbackOrRaise A env seg config ("opencv import/bootstrap failed: " ++ message)
    | .runtime message => fallbackOrRaise A env seg config message
    | e => throw e

/-- `media_refs_input` of a `FrameSelection`: paths, or the frames of a processor that
selects them. -/
inductive FrameSelection where
  | paths (uris : List Text)
  | frames (selected : List SelectedFrame)

def FrameSelection.frameUris : FrameSelection → List Text
  | paths uris => uris
  | frames selected => selected.map SelectedFrame.uri

/-- `select_frames_for_unit`. -/
def selectFramesForUnit : Processor → Job FrameSelection
  | .placeholder => pure (.paths (placeholderUris A seg))
  | .segmentFrames => do
      let uris ← extractSegmentFrames A env seg
      pure (.paths uris)
  | .wholeClip true => pure (.paths [seg.sourceUri])
  | .wholeClip false => do
      let clip ← stripAudio A env seg
      pure (.paths [clip])
  | .frameStream config => do
      let selected ← extractSelectedFrames A env seg config
      pure (.frames selected)

end Processors

/-! ## Within the paths of the unit -/

section Confined

variable {A : Alnum} {φ : Type} {env : ExtractEnv φ} {seg : Segment} {S : Set Text}

theorem inside_update {α : Type} {Q : α → Prop} {path : Text} (hpath : path ∈ S) {a : α}
    (ha : Q a) (content : Option Bytes) (out : List (Hand Text Bytes)) :
    Inside S (Act.txn fun disk => .ok (a, Function.update disk path content, out) : Job α) Q := by
  refine Inside.txn (fun s a' s' out h => ?_) fun s t hagree =>
    ⟨rfl, Act.eqOn_update hagree path content, rfl⟩
  cases h
  exact ⟨ha, fun l hl => Act.update_outside hpath hl _ _⟩

theorem inside_readFile {path : Text} (hpath : path ∈ S) :
    Inside S (readFile path) fun _ => True := by
  refine Inside.txn (fun s a s' out h => ?_) fun s t hagree => ⟨hagree hpath, hagree, rfl⟩
  cases h
  exact ⟨trivial, fun _ _ => rfl⟩

theorem inside_createNew {path : Text} (hpath : path ∈ S) :
    Inside S (createNew path) fun _ => True := by
  refine Inside.txn (fun s a s' out h => ?_) fun s t hagree => ?_
  · split at h
    · cases h
      exact ⟨trivial, fun l hl => Act.update_outside hpath hl _ _⟩
    · cases h
      exact ⟨trivial, fun _ _ => rfl⟩
  · rw [hagree hpath]
    by_cases hfree : t path = none
    · simp only [if_pos hfree]
      exact ⟨trivial, Act.eqOn_update hagree path _, trivial⟩
    · simp only [if_neg hfree]
      exact ⟨trivial, hagree, trivial⟩

theorem inside_replace {source target : Text} (hsource : source ∈ S) (htarget : target ∈ S) :
    Inside S (replace source target) fun _ => True := by
  refine Inside.txn (fun s a s' out h => ?_) fun s t hagree => ?_
  · split at h
    · cases h
    · cases h
      refine ⟨trivial, fun l hl => ?_⟩
      rw [Act.update_outside htarget hl, Act.update_outside hsource hl]
  · rw [hagree hsource]
    cases t source with
    | none => rfl
    | some content =>
        exact ⟨rfl, Act.eqOn_update (Act.eqOn_update hagree source none) target _, rfl⟩

theorem inside_makedirs (fails : Bool) : Inside S (makedirs fails) fun _ => True := by
  unfold makedirs
  split
  · exact Inside.throw _
  · exact Inside.pure trivial

theorem inside_mkstemp {dir name : Text} {randoms : List Text}
    (h : ∀ r ∈ randoms, join dir (tempName name r) ∈ S) :
    Inside S (mkstemp dir name randoms) fun path => path ∈ S := by
  induction randoms with
  | nil => exact Inside.throw _
  | cons r randoms ih =>
      refine Inside.bind (inside_createNew (h r List.mem_cons_self)) fun created _ => ?_
      split
      · exact Inside.pure (h r List.mem_cons_self)
      · exact ih fun r' hr' => h r' (List.mem_cons_of_mem r hr')

theorem inside_writePieces {path : Text} (hpath : path ∈ S) {ps : List Bytes}
    {written : Bytes} {failAfter : Option ℕ} :
    Inside S (writePieces path written ps failAfter) fun _ => True := by
  induction ps generalizing written failAfter with
  | nil =>
      unfold writePieces
      split
      · exact Inside.throw _
      · exact Inside.pure trivial
  | cons piece rest ih =>
      unfold writePieces
      split
      · exact Inside.throw _
      · exact Inside.bind (inside_update (Q := fun _ => True) hpath trivial _ _) fun _ _ => ih

theorem dirname_join {dir name : Text} (hdir : dir ≠ []) (hlast : dir.getLast? ≠ some '/')
    (hname : Component name) : dirname (join dir name) = dir := by
  have hjoin : join dir name = (dir ++ ['/']) ++ name := by
    rw [join_component hname, rootPrefix, if_neg (by simp [hdir, hlast])]
  have hhead : (join dir name).rdropWhile (fun c => decide (c ≠ '/')) = dir ++ ['/'] := by
    rw [hjoin, List.rdropWhile, List.reverse_append, List.dropWhile_append_of_pos]
    · simp
    · intro c hc
      refine decide_eq_true fun heq => hname.2 ?_
      rw [← heq]
      exact List.mem_reverse.mp hc
  have hnot : ((dir ++ ['/']).all fun c => decide (c = '/')) = false := by
    rw [Bool.eq_false_iff]
    intro hall
    have hmem := List.getLast_mem hdir
    have hslash := of_decide_eq_true (List.all_eq_true.mp hall _ (List.mem_append_left _ hmem))
    exact hlast ((List.getLast?_eq_some_getLast hdir).trans (congrArg some hslash))
  unfold dirname
  rw [hhead]
  dsimp only
  rw [if_neg (by rw [hnot]; exact Bool.false_ne_true)]
  have hlastd : ¬ decide (dir.getLast hdir = '/') = true := by
    intro hslash
    exact hlast ((List.getLast?_eq_some_getLast hdir).trans
      (congrArg some (of_decide_eq_true hslash)))
  rw [List.rdropWhile_concat_pos _ _ _ (by decide)]
  exact List.rdropWhile_eq_self_iff.mpr fun _ => hlastd

theorem basename_join {dir name : Text} (hname : Component name) :
    basename (join dir name) = name := by
  have hall : ∀ c ∈ name.reverse, decide (c ≠ '/') = true := by
    intro c hc
    refine decide_eq_true fun heq => hname.2 ?_
    rw [← heq]
    exact List.mem_reverse.mp hc
  have hprefix : (rootPrefix dir).reverse.takeWhile (fun c => decide (c ≠ '/')) = [] := by
    unfold rootPrefix
    split
    · rename_i hroot
      rcases hroot with rfl | hlast
      · rfl
      · obtain ⟨rest, rfl⟩ := List.getLast?_eq_some_iff.mp hlast
        rw [List.reverse_append]
        rfl
    · rw [List.reverse_append]
      rfl
  rw [basename, join_component hname, List.rtakeWhile, List.reverse_append,
    List.takeWhile_append_of_pos hall, hprefix, List.append_nil, List.reverse_reverse]

theorem inside_writeJpeg {write : WriteEnv} {dir name : Text} (hdir : dir ≠ [])
    (hlast : dir.getLast? ≠ some '/') (hname : Component name) (hpath : join dir name ∈ S)
    (htemp : ∀ r ∈ write.randoms, join dir (tempName name r) ∈ S) :
    Inside S (writeJpeg write (join dir name)) fun _ => True := by
  unfold writeJpeg
  split
  · exact Inside.throw _
  · rw [dirname_join hdir hlast hname, basename_join hname, if_neg hdir]
    refine Inside.bind (inside_mkstemp htemp) fun tmpPath htmp => ?_
    refine Inside.catching ?_ fun e => ?_
    · refine Inside.bind (inside_writePieces htmp) fun _ _ => ?_
      split
      · exact Inside.throw _
      · exact inside_replace htmp hpath
    · dsimp only
      split
      · exact Inside.throw _
      · exact Inside.bind (inside_update (Q := fun _ => True) htmp trivial _ _) fun _ _ =>
          Inside.throw _

theorem inside_runFfmpeg {run : FfmpegRun} {outPath : Text} (hpath : outPath ∈ S)
    (timedOut failed noOutput : String) :
    Inside S (runFfmpeg run outPath timedOut failed noOutput) fun _ => True := by
  have hwrite : ∀ contents : List Bytes,
      Inside S (contents.forM fun content => runFfmpeg.overwrite outPath content)
        fun _ => True := by
    intro contents
    induction contents with
    | nil => exact Inside.pure trivial
    | cons content contents ih =>
        exact Inside.bind (inside_update (Q := fun _ => True) hpath trivial _ _) fun _ _ => ih
  refine Inside.bind (hwrite run.contents) fun _ _ => ?_
  split
  · exact Inside.throw _
  · exact Inside.throw _
  · refine Inside.bind (inside_readFile hpath) fun found _ => ?_
    split
    · exact Inside.throw _
    · exact Inside.pure trivial

/-! ### The processors -/

/-- What a name in the directory of OpenCV is joined to. -/
theorem join_outDir {name : Text} (hslash : Slashless name) (hlength : 2 < name.length) :
    join (outDir A seg) name ∈ places A seg.frameRoot seg.unitKey := by
  have hdirs : ∀ c ∈ [safeStem A seg.sourceUri, safeKey A seg.unitKey,
      window seg.startMs seg.endMs], Component c := by
    intro c hc
    simp only [List.mem_cons, List.not_mem_nil, or_false] at hc
    rcases hc with rfl | rfl | rfl
    · exact (safeStem_plain seg.sourceUri).component
    · exact (sanitize_plain (by omega) seg.unitKey_ne).component
    · exact (window_plain seg.startMs seg.endMs).component
  refine ⟨window seg.startMs seg.endMs, name, (window_plain _ _).inner,
    inner_of_length hslash hlength, .inr ⟨safeStem A seg.sourceUri,
      (safeStem_plain seg.sourceUri).inner, ?_⟩⟩
  rw [outDir, segmentDir_eq _ _ _ _ seg.unitKey_ne,
    join_under (List.cons_ne_nil _ _) hdirs (component_of_length hslash hlength)]
  rfl

theorem join_ffmpegDir {name : Text} (hslash : Slashless name) (hlength : 2 < name.length) :
    join (ffmpegDir A seg) name ∈ places A seg.frameRoot seg.unitKey := by
  have hdirs : ∀ c ∈ [safeKey A seg.unitKey, window seg.startMs seg.endMs], Component c := by
    intro c hc
    simp only [List.mem_cons, List.not_mem_nil, or_false] at hc
    rcases hc with rfl | rfl
    · exact (sanitize_plain (by omega) seg.unitKey_ne).component
    · exact (window_plain seg.startMs seg.endMs).component
  refine ⟨window seg.startMs seg.endMs, name, (window_plain _ _).inner,
    inner_of_length hslash hlength, .inl ?_⟩
  rw [ffmpegDir, join_segmentSubdir _ _ _ seg.unitKey_ne,
    join_under (List.cons_ne_nil _ _) hdirs (component_of_length hslash hlength)]
  rfl

theorem outDir_last : outDir A seg ≠ [] ∧ (outDir A seg).getLast? ≠ some '/' := by
  rw [outDir, segmentDir_eq _ _ _ _ seg.unitKey_ne]
  refine under_last (List.cons_ne_nil _ _) fun c hc => ?_
  simp only [List.mem_cons, List.not_mem_nil, or_false] at hc
  rcases hc with rfl | rfl | rfl
  · exact (safeStem_plain seg.sourceUri).component
  · exact (sanitize_plain (by omega) seg.unitKey_ne).component
  · exact (window_plain seg.startMs seg.endMs).component

theorem selectedPath_mem (s : FrameScore) :
    selectedPath A seg s ∈ places A seg.frameRoot seg.unitKey :=
  join_outDir (selectedName_slashless _ _) (selectedName_length _ _)

theorem tempPath_mem {name random : Text} (hname : Slashless name) (hrandom : Plain random) :
    join (outDir A seg) (tempName name random) ∈ places A seg.frameRoot seg.unitKey :=
  join_outDir (tempName_component hname hrandom).2 (tempName_length _ _)

/-- The places of the segment's unit. -/
abbrev home (A : Alnum) (seg : Segment) : Set Text := places A seg.frameRoot seg.unitKey

theorem inside_materialize {strategy : String} {ring : RingBuffer φ} (scores : List FrameScore) :
    Inside (home A seg) (materialize A env seg strategy ring scores)
      fun refs => ∀ ref ∈ refs, ref.uri ∈ home A seg := by
  induction scores with
  | nil => exact Inside.pure (by simp)
  | cons s rest ih =>
      have hframe : Inside (home A seg)
          (materialize.liftExcept (frameOf env.decoding ring s)) fun _ => True := by
        cases frameOf env.decoding ring s with
        | ok frame => exact Inside.pure trivial
        | error e => exact Inside.throw e
      refine Inside.bind hframe fun frame _ => ?_
      refine Inside.bind (inside_writeJpeg outDir_last.1 outDir_last.2
        (component_of_length (selectedName_slashless _ _) (selectedName_length _ _))
        (selectedPath_mem s) fun r hr => ?_) fun _ _ => ?_
      · exact tempPath_mem (selectedName_slashless _ _) ((env.write s).randoms_plain r hr)
      · refine Inside.bind ih fun refs hrefs => Inside.pure fun ref href => ?_
        rcases List.mem_cons.mp href with rfl | href
        · exact selectedPath_mem s
        · exact hrefs ref href

theorem inside_extractWithOpencv (config : FrameStream) :
    Inside (home A seg) (extractWithOpencv A env seg config)
      fun refs => ∀ ref ∈ refs, ref.uri ∈ home A seg := by
  unfold extractWithOpencv
  dsimp only
  split
  · exact Inside.throw _
  · refine Inside.bind (inside_makedirs _) fun _ _ => ?_
    split
    · exact Inside.throw _
    · split
      · exact Inside.throw _
      · exact inside_materialize _

theorem inside_extractEach (i n : ℕ) :
    Inside (home A seg) (extractEach A env seg i n) fun uris => ∀ uri ∈ uris, uri ∈ home A seg := by
  induction n generalizing i with
  | zero => exact Inside.pure (by simp)
  | succ n ih =>
      have hpath : join (ffmpegDir A seg) (frameName i) ∈ home A seg :=
        join_ffmpegDir (frameName_slashless i) (frameName_length i)
      refine Inside.bind (inside_runFfmpeg hpath _ _ _) fun _ _ => ?_
      refine Inside.bind (ih (i + 1)) fun uris huris => Inside.pure fun uri huri => ?_
      rcases List.mem_cons.mp huri with rfl | huri
      · exact hpath
      · exact huris uri huri

theorem inside_extractSegmentFrames :
    Inside (home A seg) (extractSegmentFrames A env seg)
      fun uris => ∀ uri ∈ uris, uri ∈ home A seg := by
  unfold extractSegmentFrames
  dsimp only
  split
  · exact Inside.pure (by simp)
  · exact Inside.bind (inside_makedirs _) fun _ _ => inside_extractEach _ _

theorem inside_fallbackOrRaise (config : FrameStream) (reason : String) :
    Inside (home A seg) (fallbackOrRaise A env seg config reason)
      fun refs => ∀ ref ∈ refs, ref.uri ∈ home A seg := by
  unfold fallbackOrRaise
  split
  · exact Inside.throw _
  · refine Inside.bind inside_extractSegmentFrames fun uris huris => Inside.pure ?_
    intro ref href
    obtain ⟨u, hu, rfl⟩ := List.mem_map.mp href
    exact huris u.1 (List.fst_mem_of_mem_zipIdx hu)

theorem inside_extractSelectedFrames (config : FrameStream) :
    Inside (home A seg) (extractSelectedFrames A env seg config)
      fun refs => ∀ ref ∈ refs, ref.uri ∈ home A seg := by
  unfold extractSelectedFrames
  split
  · exact Inside.pure (by simp)
  · split
    · exact inside_fallbackOrRaise config _
    · refine Inside.catching (inside_extractWithOpencv config) fun e => ?_
      cases e with
      | runtime message => exact inside_fallbackOrRaise config _
      | openCvImport message => exact inside_fallbackOrRaise config _
      | insufficientFrames message => exact Inside.throw _
      | os => exact Inside.throw _

/-- With a slash at the end of the root, one component is empty. -/
theorem placeholderUris_mem : ∀ uri ∈ placeholderUris A seg, uri ∈ home A seg := by
  intro uri huri
  obtain ⟨i, -, rfl⟩ := List.mem_map.mp huri
  refine ⟨window seg.startMs seg.endMs, frameName i, (window_plain _ _).inner,
    inner_of_length (frameName_slashless i) (frameName_length i), ?_⟩
  rw [segmentSubdir_eq _ _ seg.unitKey_ne]
  by_cases hroot : seg.frameRoot = [] ∨ seg.frameRoot.getLast? = some '/'
  · refine .inr ⟨[], ⟨List.not_mem_nil, by simp, by simp⟩, ?_⟩
    rw [under, rootPrefix, if_pos hroot]
    simp [slashed]
  · left
    rw [under, rootPrefix, if_neg hroot]
    simp [slashed]

/-- A processor touches the paths of the unit only, and returns none other, but for the
clip with its sound, which is the source. -/
theorem inside_selectFrames (processor : Processor) :
    Inside (home A seg) (selectFramesForUnit A env seg processor) fun selection =>
      (∀ uri ∈ selection.frameUris, uri ∈ home A seg) ∨
        ∃ (_ : processor = .wholeClip true), selection.frameUris = [seg.sourceUri] := by
  cases processor with
  | placeholder => exact Inside.pure (.inl placeholderUris_mem)
  | segmentFrames =>
      exact Inside.bind inside_extractSegmentFrames fun uris huris => Inside.pure (.inl huris)
  | wholeClip includeAudio =>
      cases includeAudio with
      | true => exact Inside.pure (.inr ⟨rfl, rfl⟩)
      | false =>
          have hclip : join (ffmpegDir A seg) clipName ∈ home A seg :=
            join_ffmpegDir clipName_slashless (by decide)
          refine Inside.bind (Q := fun clip => clip ∈ home A seg) ?_ fun clip hmem =>
            Inside.pure (.inl fun uri huri => ?_)
          · refine Inside.bind (inside_makedirs _) fun _ _ => ?_
            exact Inside.bind (inside_runFfmpeg hclip _ _ _) fun _ _ => Inside.pure hclip
          · rw [List.mem_singleton.mp huri]
            exact hmem
  | frameStream config =>
      refine Inside.bind (inside_extractSelectedFrames config) fun selected hselected =>
        Inside.pure (.inl fun uri huri => ?_)
      obtain ⟨ref, href, rfl⟩ := List.mem_map.mp huri
      exact hselected ref href

end Confined

/-! ## What is selected -/

section Selected

variable {A : Alnum} {φ : Type} {env : ExtractEnv φ} {seg : Segment} {disk disk' : Disk}

theorem mkstemp_eq_ok {dir name : Text} {randoms : List Text} {path : Text}
    (h : Act.exec (mkstemp dir name randoms) disk = (.ok path, disk')) :
    disk path = none ∧ disk' = Function.update disk path (some []) := by
  induction randoms with
  | nil => cases h
  | cons r randoms ih =>
      obtain ⟨created, disk₁, hcreate, hrest⟩ := Act.exec_bind_eq_ok.mp h
      unfold createNew at hcreate
      rw [Act.exec_txn] at hcreate
      by_cases hfree : disk (join dir (tempName name r)) = none
      · rw [if_pos hfree] at hcreate
        cases hcreate
        rw [if_pos rfl] at hrest
        cases hrest
        exact ⟨hfree, rfl⟩
      · rw [if_neg hfree] at hcreate
        cases hcreate
        rw [if_neg Bool.false_ne_true] at hrest
        exact ih hrest

theorem writePieces_eq_ok {path : Text} {ps : List Bytes} {written : Bytes}
    {failAfter : Option ℕ} {u : Unit} (hwritten : disk path = some written)
    (h : Act.exec (writePieces path written ps failAfter) disk = (.ok u, disk')) :
    disk' = Function.update disk path (some (written ++ ps.flatten)) := by
  induction ps generalizing written failAfter disk with
  | nil =>
      unfold writePieces at h
      split at h
      · cases h
      · cases h
        rw [List.flatten_nil, List.append_nil, ← hwritten, Function.update_eq_self]
  | cons piece rest ih =>
      unfold writePieces at h
      split at h
      · cases h
      · obtain ⟨_, disk₁, hput, hrest⟩ := Act.exec_bind_eq_ok.mp h
        rw [putContent, Act.exec_txn] at hput
        cases hput
        rw [ih (Function.update_self ..) hrest, Function.update_idem, List.flatten_cons,
          List.append_assoc]

theorem replace_eq_ok {source target : Text} {content : Bytes} {u : Unit}
    (hsource : disk source = some content)
    (h : Act.exec (replace source target) disk = (.ok u, disk')) :
    disk' = Function.update (Function.update disk source none) target (some content) := by
  rw [replace, Act.exec_txn, hsource] at h
  cases h
  rfl

/-- A write that returns leaves the encoding at its path, and nothing else. -/
theorem writeJpeg_eq_ok {write : WriteEnv} {outPath : Text} {u : Unit}
    (h : Act.exec (writeJpeg write outPath) disk = (.ok u, disk')) :
    write.encoded.isSome = true ∧ disk' = Function.update disk outPath write.encoded := by
  unfold writeJpeg at h
  cases hencoded : write.encoded with
  | none =>
      rw [hencoded] at h
      cases h
  | some content =>
      rw [hencoded] at h
      refine ⟨rfl, ?_⟩
      obtain ⟨tmpPath, disk₁, hmkstemp, hrest⟩ := Act.exec_bind_eq_ok.mp h
      obtain ⟨hfree, rfl⟩ := mkstemp_eq_ok hmkstemp
      rw [Act.exec_catching] at hrest
      split at hrest
      · rename_i hwritten
        cases hrest
        obtain ⟨_, disk₂, hpieces, hmove⟩ := Act.exec_bind_eq_ok.mp hwritten
        have hdisk₂ := writePieces_eq_ok (Function.update_self ..) hpieces
        rw [List.nil_append, flatten_pieces, Function.update_idem] at hdisk₂
        subst hdisk₂
        split at hmove
        · cases hmove
        · rw [replace_eq_ok (Function.update_self ..) hmove, Function.update_idem, ← hfree,
            Function.update_eq_self]
      · rename_i e disk₂ hfailed
        dsimp only at hrest
        split at hrest
        · cases hrest
        · obtain ⟨_, disk₃, -, hthrow⟩ := Act.exec_bind_eq_ok.mp hrest
          cases hthrow

/-- The encoding of a frame that is selected. -/
def shot (env : ExtractEnv φ) (ring : RingBuffer φ) (s : FrameScore) : Option Bytes :=
  (frameOf env.decoding ring s).toOption.bind env.decoding.encode

theorem materialize_eq_ok {strategy : String} {ring : RingBuffer φ} {scores : List FrameScore}
    {refs : List SelectedFrame}
    (h : Act.exec (materialize A env seg strategy ring scores) disk = (.ok refs, disk')) :
    refs = scores.map (selectedFrame A seg strategy) ∧
      (∀ s ∈ scores, (shot env ring s).isSome = true) ∧
      disk' = scores.foldl (fun d s => Function.update d (selectedPath A seg s) (shot env ring s))
        disk := by
  induction scores generalizing disk refs with
  | nil =>
      cases h
      exact ⟨rfl, fun s hs => absurd hs List.not_mem_nil, rfl⟩
  | cons s rest ih =>
      obtain ⟨frame, disk₁, hframe, hafter⟩ := Act.exec_bind_eq_ok.mp h
      have hof : frameOf env.decoding ring s = .ok frame ∧ disk₁ = disk := by
        cases hof : frameOf env.decoding ring s with
        | ok frame' =>
            rw [hof] at hframe
            cases hframe
            exact ⟨rfl, rfl⟩
        | error e =>
            rw [hof] at hframe
            cases hframe
      obtain ⟨hof, rfl⟩ := hof
      obtain ⟨_, disk₂, hwrite, hrest⟩ := Act.exec_bind_eq_ok.mp hafter
      obtain ⟨refs', disk₃, hrefs, hpure⟩ := Act.exec_bind_eq_ok.mp hrest
      cases hpure
      obtain ⟨hsome, rfl⟩ := writeJpeg_eq_ok hwrite
      obtain ⟨rfl, hshots, hdisk⟩ := ih hrefs
      have hshot : shot env ring s = env.decoding.encode frame := by
        rw [shot, hof]
        rfl
      refine ⟨rfl, fun s' hs' => ?_, ?_⟩
      · rcases List.mem_cons.mp hs' with rfl | hs'
        · rw [hshot]
          exact hsome
        · exact hshots s' hs'
      · rw [hdisk, List.foldl_cons, hshot]

/-! ### Frames that differ -/

theorem map_frameIndex_scoreFrames (dec : Decoding φ) (previous : Option φ)
    (frames : List (SampledFrame φ)) :
    (scoreFrames dec previous frames).map FrameScore.frameIndex
      = frames.map fun f => (f.frameIndex : ℤ) := by
  induction frames generalizing previous with
  | nil => rfl
  | cons frame rest ih => rw [scoreFrames, List.map_cons, List.map_cons, ih]; rfl

theorem nodup_sampledFrames (config : FrameStream) :
    ((sampledFrames env seg config).map fun f => (f.frameIndex : ℤ)).Nodup := by
  obtain ⟨hhead, hchain, -⟩ := @Sampler.takenFrom_takes config.sampler φ seg.endMs
    (Sampler.start seg.startMs) env.decoding.reads
  have hindexes := Sampler.indexes_of_chain hchain fun t ht => (hhead t ht).1
  have hmap : (sampledFrames env seg config).map (fun f => (f.frameIndex : ℤ))
      = (List.range' (Sampler.start seg.startMs).frameIndex
          (config.sampler.takes seg.endMs (Sampler.start seg.startMs)
            env.decoding.reads).length).map Int.ofNat := by
    rw [sampledFrames, Sampler.iterSampledFrames, Sampler.sampleLoop_eq, List.map_map, ← hindexes,
      List.map_map]
    rfl
  rw [hmap]
  exact List.Nodup.map Int.ofNat_injective List.nodup_range'

/-- The chosen frames have different indexes, none of them negative. -/
theorem chosen_indexes (config : FrameStream) (hcount : 0 < seg.frameCount) :
    ((chosen env seg config).map FrameScore.frameIndex).Nodup ∧
      ∀ s ∈ chosen env seg config, 0 ≤ s.frameIndex := by
  set scores := scoreFrames env.decoding none (sampledFrames env seg config) with hscores
  have hmap : scores.map FrameScore.frameIndex
      = (sampledFrames env seg config).map fun f => (f.frameIndex : ℤ) :=
    map_frameIndex_scoreFrames _ _ _
  have hnodup : (scores.map FrameScore.frameIndex).Nodup := by
    rw [hmap]
    exact nodup_sampledFrames config
  have hpos : 0 < seg.frameCount.toNat := by omega
  by_cases hnil : scores = []
  · have hempty : chosen env seg config = [] := by
      unfold chosen selectFrames
      rw [← hscores, hnil]
      exact if_pos (.inr rfl)
    rw [hempty]
    exact ⟨List.nodup_nil, fun s hs => absurd hs List.not_mem_nil⟩
  · have heligible : ((Worker.Frames.eligible config.selector
        (Worker.Frames.inOrder scores)).map FrameScore.frameIndex).Nodup :=
      (((Worker.Frames.perm_inOrder scores).map _).nodup_iff.mpr hnodup).sublist
        (Worker.Frames.eligible_sublist.map _)
    have hpicks := @Worker.Frames.picks_pickFrames config.selector _ _
      (Worker.Frames.inOrder scores) hpos heligible
    have hchosen : chosen env seg config = Worker.Frames.inOrder (Worker.Frames.pickFrames
        config.selector (Worker.Frames.inOrder scores)
        (Worker.Frames.eligible config.selector (Worker.Frames.inOrder scores))
        seg.frameCount.toNat) := by
      unfold chosen selectFrames
      rw [← hscores, if_neg fun h => h.elim (not_le.mpr hcount) hnil]
      exact congrArg Worker.Frames.inOrder hpicks.take
    have hperm := hpicks.perm (Worker.Frames.perm_inOrder _)
    rw [hchosen]
    refine ⟨hperm.nodup.map_on fun s hs t ht => List.inj_on_of_nodup_map heligible
      (hperm.subset hs) (hperm.subset ht), fun s hs => ?_⟩
    have hmem : s ∈ scores := (Worker.Frames.perm_inOrder scores).mem_iff.mp
      (Worker.Frames.eligible_sublist.subset (hperm.subset hs))
    have hindex := List.mem_map_of_mem (f := FrameScore.frameIndex) hmem
    rw [hmap] at hindex
    obtain ⟨f, -, hf⟩ := List.mem_map.mp hindex
    rw [← hf]
    exact Int.natCast_nonneg _

theorem selectedPath_inj {s t : FrameScore} (hs : 0 ≤ s.frameIndex) (ht : 0 ≤ t.frameIndex)
    (h : selectedPath A seg s = selectedPath A seg t) : s.frameIndex = t.frameIndex := by
  unfold selectedPath at h
  rw [join_component (component_of_length (selectedName_slashless _ _) (selectedName_length _ _)),
    join_component (component_of_length (selectedName_slashless _ _) (selectedName_length _ _))]
    at h
  have hindex := frameIndex_of_selectedName (List.append_cancel_left h)
  omega

theorem foldl_update_apply {α : Type} {path : α → Text} {content : α → Option Bytes} {l : List α}
    (hinj : ∀ a ∈ l, ∀ b ∈ l, path a = path b → a = b) {a : α} (ha : a ∈ l) :
    l.foldl (fun d a => Function.update d (path a) (content a)) disk (path a) = content a := by
  induction l using List.reverseRecOn with
  | nil => cases ha
  | append_singleton l b ih =>
      rw [List.foldl_append]
      by_cases heq : path a = path b
      · have hab := hinj a ha b (by simp) heq
        subst hab
        exact Function.update_self ..
      · have hmem : a ∈ l := by
          rcases List.mem_append.mp ha with ha | ha
          · exact ha
          · exact absurd (congrArg path (List.mem_singleton.mp ha)) heq
        refine (Function.update_of_ne heq _ _).trans ?_
        exact ih (fun a ha b hb => hinj a (List.mem_append_left _ ha) b
          (List.mem_append_left _ hb)) hmem

/-- Where `extractWithOpencv` returns, each of the chosen frames is at its path. -/
theorem extractWithOpencv_eq_ok {config : FrameStream} {refs : List SelectedFrame}
    (hcount : 0 < seg.frameCount)
    (h : Act.exec (extractWithOpencv A env seg config) disk = (.ok refs, disk')) :
    refs = (chosen env seg config).map (selectedFrame A seg config.selector.strategy) ∧
      ∀ s ∈ chosen env seg config, (shot env (ringBuffer env seg config) s).isSome = true ∧
        disk' (selectedPath A seg s) = shot env (ringBuffer env seg config) s := by
  obtain ⟨hnodup, hnonneg⟩ := @chosen_indexes φ env seg config hcount
  have hmaterialize : ∃ disk₁, Act.exec (materialize A env seg config.selector.strategy
      (ringBuffer env seg config) (chosen env seg config)) disk₁ = (.ok refs, disk') := by
    unfold extractWithOpencv at h
    dsimp only at h
    split at h
    · cases h
    · obtain ⟨_, disk₁, -, hrest⟩ := Act.exec_bind_eq_ok.mp h
      split at hrest
      · cases hrest
      · split at hrest
        · cases hrest
        · exact ⟨disk₁, hrest⟩
  obtain ⟨disk₁, hexec⟩ := hmaterialize
  obtain ⟨hrefs, hshots, rfl⟩ := materialize_eq_ok hexec
  refine ⟨hrefs, fun s hs => ⟨hshots s hs, foldl_update_apply (fun a ha b hb heq => ?_) hs⟩⟩
  exact List.inj_on_of_nodup_map hnodup ha hb
    (selectedPath_inj (hnonneg a ha) (hnonneg b hb) heq)

theorem backend_of_fallback {config : FrameStream} {reason : String} {refs : List SelectedFrame}
    (h : Act.exec (fallbackOrRaise A env seg config reason) disk = (.ok refs, disk')) :
    ∀ ref ∈ refs, ref.decodeBackend = "ffmpeg" := by
  unfold fallbackOrRaise at h
  split at h
  · cases h
  · obtain ⟨uris, disk₁, -, hpure⟩ := Act.exec_bind_eq_ok.mp h
    cases hpure
    intro ref href
    obtain ⟨u, -, rfl⟩ := List.mem_map.mp href
    rfl

/-- Frames decoded by OpenCV were selected by OpenCV. -/
theorem extractSelectedFrames_eq_ok {config : FrameStream} {refs : List SelectedFrame}
    {ref : SelectedFrame} (href : ref ∈ refs) (hbackend : ref.decodeBackend = "opencv")
    (h : Act.exec (extractSelectedFrames A env seg config) disk = (.ok refs, disk')) :
    0 < seg.frameCount ∧
      Act.exec (extractWithOpencv A env seg config) disk = (.ok refs, disk') := by
  have hfallback : ∀ {reason disk₁}, Act.exec (fallbackOrRaise A env seg config reason) disk₁
      ≠ (.ok refs, disk') := fun hexec => by
    rw [backend_of_fallback hexec ref href] at hbackend
    exact absurd hbackend (by decide)
  unfold extractSelectedFrames at h
  split at h
  · cases h
    cases href
  · rename_i hcount
    split at h
    · exact absurd h hfallback
    · rw [Act.exec_catching] at h
      split at h
      · rename_i a disk₁ hexec
        cases h
        exact ⟨not_le.mp fun hle => hcount (.inl hle), hexec⟩
      · split at h
        · exact absurd h hfallback
        · exact absurd h hfallback
        · cases h

end Selected

end CctvMemory.Video
