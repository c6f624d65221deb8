import CctvMemory.Library.Drafts
import CctvMemory.Library.Footprint
import CctvMemory.Video.FramePaths
import Mathlib.Data.List.Infix

/-!
# Frames on disk

`_write_jpeg`: the encoded frame goes to a new temporary file beside its path, which is
then moved there; whatever fails, the temporary file is removed. `cleanup_selected_frames`
removes the frames of a unit. Any number of threads do both, and any of them may stop for
good between two operations on the disk.

* `frames_whole_of_run`: nobody ever finds a part of a frame at the path of a frame.
-/

namespace CctvMemory.Video

open Act (Inside)
open Act.Drafts (Allowed Desk FinishedWhole Hand OfficeRun noted)

abbrev Bytes := List UInt8

/-- The files, by their paths. -/
abbrev Disk := Text → Option Bytes

inductive FrameError where
  | runtime (message : String)
  | openCvImport (message : String)
  | insufficientFrames (message : String)
  | os
deriving DecidableEq

/-- Operations on the disk, one atomic step each. -/
abbrev Job (α : Type) := Act FrameError Disk (Hand Text Bytes) α

/-! ## Operations -/

/-- `os.open` with `O_CREAT | O_EXCL`: whether the file is new. -/
def createNew (path : Text) : Job Bool := Act.txn fun disk =>
  if disk path = none then .ok (true, Function.update disk path (some []), [.draft path []])
  else .ok (false, disk, [])

/-- Writing to a file that is open: `content` is what was written to it by now. -/
def putContent (path : Text) (content : Bytes) : Job Unit := Act.txn fun disk =>
  .ok ((), Function.update disk path (some content), [.draft path content])

/-- `os.replace`. -/
def replace (source target : Text) : Job Unit := Act.txn fun disk =>
  match disk source with
  | none => .error .os
  | some content =>
      .ok ((), Function.update (Function.update disk source none) target (some content), [.empty])

/-- `os.remove` of a temporary file, with errors ignored. -/
def removeTemp (path : Text) : Job Unit := Act.txn fun disk =>
  .ok ((), Function.update disk path none, [.empty])

/-- `os.remove`, with errors ignored. -/
def remove (path : Text) : Job Unit := Act.txn fun disk =>
  .ok ((), Function.update disk path none, [])

/-- `read_bytes`; nothing when there is no such file. -/
def readFile (path : Text) : Job (Option Bytes) := Act.txn fun disk => .ok (disk path, disk, [])

/-! ## Writing a frame -/

/-- What one `_write_jpeg` meets: the encoder, the names that `mkstemp` draws, into how
many bytes the write is split, and what fails. -/
structure WriteEnv where
  encoded : Option Bytes
  randoms : List Text
  cuts : List ℕ
  failAfter : Option ℕ
  replaceFails : Bool
  removeFails : Bool
  randoms_plain : ∀ r ∈ randoms, Plain r

/-- `os.path.dirname`. -/
def dirname (path : Text) : Text :=
  let head := path.rdropWhile fun c => c ≠ '/'
  if (head.all fun c => c = '/') = true then head else head.rdropWhile fun c => c = '/'

/-- `mkstemp(dir=…, prefix=name + ".", suffix=".tmp")`. -/
def mkstemp (dir name : Text) : List Text → Job Text
  | [] => throw .os
  | random :: randoms => do
      let path := join dir (tempName name random)
      if ← createNew path then pure path else mkstemp dir name randoms

/-- The pieces of a write. -/
def pieces : List ℕ → Bytes → List Bytes
  | [], content => [content]
  | n :: cuts, content => content.take n :: pieces cuts (content.drop n)

def writePieces (path : Text) : Bytes → List Bytes → Option ℕ → Job Unit
  | _, [], failAfter => if failAfter = some 0 then throw .os else pure ()
  | written, piece :: rest, failAfter =>
      if failAfter = some 0 then throw .os
      else do
        putContent path (written ++ piece)
        writePieces path (written ++ piece) rest (failAfter.map (· - 1))

/-- `_write_jpeg`. -/
def writeJpeg (env : WriteEnv) (outPath : Text) : Job Unit :=
  match env.encoded with
  | none => throw (.runtime "opencv failed to JPEG-encode selected frame")
  | some content => do
      let outDir := if dirname outPath = [] then ['.'] else dirname outPath
      let tmpPath ← mkstemp outDir (basename outPath) env.randoms
      Act.catching
        (do
          writePieces tmpPath [] (pieces env.cuts content) env.failAfter
          if env.replaceFails then throw .os else replace tmpPath outPath)
        fun e => do
          if env.removeFails then pure () else removeTemp tmpPath
          throw e

/-- `cleanup_selected_frames`. -/
def cleanupSelectedFrames : List Text → Job Unit
  | [] => pure ()
  | uri :: uris => do
      remove uri
      cleanupSelectedFrames uris

/-! ## Whole frames -/

/-- The name of a temporary file. -/
def IsTemp (path : Text) : Prop := ".tmp".toList <:+ path

theorem isTemp_join {dir name random : Text} (h : Component (tempName name random)) :
    IsTemp (join dir (tempName name random)) := by
  rw [join_component h]
  exact ⟨rootPrefix dir ++ (name ++ '.' :: random), by simp [tempName]⟩

theorem tempName_component {name random : Text} (hname : Slashless name) (h : Plain random) :
    Component (tempName name random) := by
  refine ⟨by simp [tempName], fun hmem => ?_⟩
  unfold tempName at hmem
  rcases List.mem_append.mp hmem with hmem | hmem
  · rcases List.mem_append.mp hmem with hmem | hmem
    · exact hname hmem
    · rcases List.mem_cons.mp hmem with heq | hmem
      · exact absurd heq (by decide)
      · exact (h.2 '/' hmem).1 rfl
  · exact absurd hmem (by decide)

theorem basename_slashless (path : Text) : Slashless (basename path) := by
  intro hmem
  have hne := List.mem_rtakeWhile_imp (p := fun c => decide (c ≠ '/')) hmem
  exact absurd rfl (of_decide_eq_true hne)

/-- What is done with frames: write one, or remove some. No path of a frame is one of a
temporary file. -/
inductive FrameTask where
  | write (env : WriteEnv) (outPath : Text) (hpath : ¬ IsTemp outPath)
  | cleanup (uris : List Text) (huris : ∀ uri ∈ uris, ¬ IsTemp uri)

def FrameTask.job : FrameTask → Job Unit
  | .write env outPath _ => writeJpeg env outPath
  | .cleanup uris _ => cleanupSelectedFrames uris

/-- The encoding of a frame that some task writes to the path. -/
def Encoding {J : Type} (task : J → FrameTask) (path : Text) (content : Bytes) : Prop :=
  ∃ j env hpath, task j = .write env path hpath ∧ env.encoded = some content

def frameDesk {J : Type} (task : J → FrameTask) : Desk Text Bytes where
  forDrafts := IsTemp
  Whole := Encoding task

section Tidy

variable {J : Type} {task : J → FrameTask} {E : FrameError → Hand Text Bytes → Prop}
  {hand : Hand Text Bytes} {path : Text} {content : Bytes}

/-- What a task may do to the disk, with the temporary file it has in hand. -/
abbrev Tidily (task : J → FrameTask) {α : Type} (x : Job α) (hand : Hand Text Bytes)
    (Q : α → Hand Text Bytes → Prop) (E : FrameError → Hand Text Bytes → Prop) : Prop :=
  Act.Amid noted (Allowed (frameDesk task)) x hand Q E

theorem tidily_mkstemp {dir name : Text} (hname : Slashless name) {randoms : List Text}
    (hrandoms : ∀ r ∈ randoms, Plain r) (hE : E .os .empty) :
    Tidily task (mkstemp dir name randoms) .empty
      (fun path hand => IsTemp path ∧ hand = .draft path []) E := by
  induction randoms with
  | nil => exact Act.Amid.throw hE
  | cons random randoms ih =>
      have htemp := @isTemp_join dir _ _
        (tempName_component hname (hrandoms random List.mem_cons_self))
      refine Act.Amid.bind (Act.Amid.txn fun disk => ?_)
      split
      · rename_i hok
        split at hok
        · rename_i hfree
          cases hok
          exact ⟨.begin htemp hfree, Act.Amid.pure ⟨htemp, rfl⟩⟩
        · cases hok
          exact ⟨.nothing, ih fun r hr => hrandoms r (List.mem_cons_of_mem _ hr)⟩
      · rename_i herror
        split at herror <;> cases herror

theorem tidily_putContent {Q : Unit → Hand Text Bytes → Prop} {written : Bytes}
    (h : Q () (.draft path content)) :
    Tidily task (putContent path content) (.draft path written) Q E :=
  Act.Amid.txn fun _ => ⟨.write content, h⟩

theorem tidily_removeTemp {Q : Unit → Hand Text Bytes → Prop} (h : Q () .empty) :
    Tidily task (removeTemp path) (.draft path content) Q E :=
  Act.Amid.txn fun _ => ⟨.discard, h⟩

theorem tidily_remove {Q : Unit → Hand Text Bytes → Prop} (hpath : ¬ IsTemp path)
    (h : Q () hand) : Tidily task (remove path) hand Q E :=
  Act.Amid.txn fun _ => ⟨.remove hpath, h⟩

/-- All of the pieces have been written, or a part of them. -/
theorem tidily_writePieces {ps : List Bytes} {failAfter : Option ℕ} {written : Bytes} :
    Tidily task (writePieces path written ps failAfter) (.draft path written)
      (fun _ hand => hand = .draft path (written ++ ps.flatten))
      (fun _ hand => ∃ part, hand = .draft path part) := by
  induction ps generalizing written failAfter with
  | nil =>
      unfold writePieces
      split
      · exact Act.Amid.throw ⟨written, rfl⟩
      · exact Act.Amid.pure (by simp)
  | cons piece rest ih =>
      unfold writePieces
      split
      · exact Act.Amid.throw ⟨written, rfl⟩
      · refine Act.Amid.bind (tidily_putContent ?_)
        refine Act.Amid.imp ih fun _ hand hhand => ?_
        rw [hhand, List.flatten_cons, List.append_assoc]

theorem flatten_pieces (cuts : List ℕ) (content : Bytes) : (pieces cuts content).flatten = content := by
  induction cuts generalizing content with
  | nil => simp [pieces]
  | cons n cuts ih => rw [pieces, List.flatten_cons, ih, List.take_append_drop]

theorem tidily_replace {target : Text} (htarget : ¬ IsTemp target)
    (hwhole : Encoding task target content) :
    Tidily task (replace path target) (.draft path content) (fun _ _ => True)
      (fun _ hand => hand = .draft path content) := by
  refine Act.Amid.txn fun disk => ?_
  split
  · rename_i hok
    split at hok
    · cases hok
    · rename_i found hfound
      cases hok
      rw [← hfound]
      exact ⟨.publish htarget hwhole, trivial⟩
  · rename_i herror
    split at herror
    · cases herror
      exact ⟨.nothing, rfl⟩
    · cases herror

theorem tidily_writeJpeg {env : WriteEnv} {outPath : Text} (hpath : ¬ IsTemp outPath)
    (hwhole : ∀ content ∈ env.encoded, Encoding task outPath content) :
    Tidily task (writeJpeg env outPath) .empty (fun _ _ => True) (fun _ _ => True) := by
  unfold writeJpeg
  cases hencoded : env.encoded with
  | none => exact Act.Amid.throw trivial
  | some content =>
      have hcontent := hwhole content hencoded
      refine Act.Amid.bind (Act.Amid.imp (tidily_mkstemp (basename_slashless outPath)
        env.randoms_plain trivial) ?_)
      rintro tmpPath hand ⟨-, rfl⟩
      refine Act.Amid.catching (R := fun _ hand => ∃ part, hand = .draft tmpPath part) ?_ ?_
      · refine Act.Amid.bind (Act.Amid.imp tidily_writePieces fun _ hand hhand => ?_)
        rw [hhand, List.nil_append, flatten_pieces]
        split
        · exact Act.Amid.throw ⟨content, rfl⟩
        · exact (tidily_replace hpath hcontent).imp_error fun _ hand hhand => ⟨content, hhand⟩
      · rintro e hand ⟨part, rfl⟩
        split
        · exact Act.Amid.bind (Act.Amid.pure (Act.Amid.throw trivial))
        · exact Act.Amid.bind (tidily_removeTemp (Act.Amid.throw trivial))

theorem tidily_cleanup {uris : List Text} (huris : ∀ uri ∈ uris, ¬ IsTemp uri) :
    Tidily task (cleanupSelectedFrames uris) hand (fun _ _ => True) (fun _ _ => True) := by
  induction uris with
  | nil => exact Act.Amid.pure trivial
  | cons uri uris ih =>
      refine Act.Amid.bind (tidily_remove (huris uri List.mem_cons_self) ?_)
      exact ih fun u hu => huris u (List.mem_cons_of_mem uri hu)

end Tidy

/-- Whatever fails and whoever stops for good: at a path that is none of a temporary
file there is what was there at first, nothing, or the whole encoding of a frame that
was to be written there. -/
theorem frames_whole_of_run {ι J : Type} [DecidableEq ι] {task : J → FrameTask} {disk₀ : Disk}
    {es : List (Act.Drafts.Event ι J)}
    {c : Act.Drafts.Office ι Text Bytes (Except FrameError Unit)}
    (h : OfficeRun (fun j => ExceptT.run (task j).job) disk₀ es c) {path : Text}
    (hpath : ¬ IsTemp path) :
    c.shared path = disk₀ path ∨ c.shared path = none ∨
      ∃ j env hwrite, task j = .write env path hwrite ∧ c.shared path = env.encoded := by
  have htidy : Act.Drafts.Tidy (frameDesk task) fun j => ExceptT.run (task j).job := by
    intro j
    have hjob : Tidily task (task j).job .empty (fun _ _ => True) fun _ _ => True := by
      cases htask : task j with
      | write env outPath hwrite =>
          exact tidily_writeJpeg hwrite fun content hcontent =>
            ⟨j, env, hwrite, htask, hcontent⟩
      | cleanup uris huris => exact tidily_cleanup huris
    refine Act.Prog.Amid.imp hjob fun _ _ _ => trivial
  rcases Act.Drafts.whole_of_run htidy h path hpath with hsame | hnone | ⟨content, hfound, hwhole⟩
  · exact .inl hsame
  · exact .inr (.inl hnone)
  · obtain ⟨j, env, hwrite, htask, hencoded⟩ := hwhole
    exact .inr (.inr ⟨j, env, hwrite, htask, hfound.trans hencoded.symm⟩)

/-! ## Two writers of one path -/

def onePath : Text := "frames/video/f00000000_t0.jpg".toList

def writerEnv (content : Bytes) (random : Char) (hrandom : random ≠ '/' ∧ random ≠ '.') :
    WriteEnv where
  encoded := some content
  randoms := [['a'], [random]]
  cuts := [1]
  failAfter := none
  replaceFails := false
  removeFails := false
  randoms_plain r hr := by
    rcases List.mem_cons.mp hr with rfl | hr
    · exact plain_singleton (by decide)
    · rw [List.mem_singleton.mp hr]
      exact plain_singleton hrandom

theorem onePath_not_isTemp : ¬ IsTemp onePath := by
  unfold IsTemp onePath
  decide

def writerTask : Bool → FrameTask
  | false => .write (writerEnv [1, 2, 3] 'b' (by decide)) onePath onePath_not_isTemp
  | true => .write (writerEnv [4, 5] 'c' (by decide)) onePath onePath_not_isTemp

/-- The second writer is amid its write when the first one moves its file. -/
def overlapping : List (Act.Drafts.Event Bool Bool) :=
  [.begin false false, .begin true true, .call false, .call true, .call true, .call true,
    .call false, .call false, .call false]

/-- An old frame is there before. -/
def oldFrame : Disk := Function.update (fun _ => none) onePath (some [9])

theorem frames_whole_of_overlapping : ∃ c,
    Trace.exec (Act.Drafts.officeStep fun j => ExceptT.run (writerTask j).job) overlapping
        (⟨oldFrame, fun _ => .idle⟩ :
          Act.Drafts.Office Bool Text Bytes (Except FrameError Unit)) = some c ∧
      c.shared onePath = some [1, 2, 3] ∧
      (c.shared onePath = oldFrame onePath ∨ c.shared onePath = none ∨
        ∃ j env hwrite, writerTask j = .write env onePath hwrite ∧
          c.shared onePath = env.encoded) := by
  have hresult : (Trace.exec (Act.Drafts.officeStep fun j => ExceptT.run (writerTask j).job)
      overlapping (⟨oldFrame, fun _ => .idle⟩ :
        Act.Drafts.Office Bool Text Bytes (Except FrameError Unit))).any
      (fun c => decide (c.shared onePath = some [1, 2, 3])) = true := by
    decide +kernel
  obtain ⟨c, hexec, hc⟩ := (Option.any_eq_true ..).mp hresult
  have hrun : OfficeRun (fun j => ExceptT.run (writerTask j).job) oldFrame
      (overlapping.reverse ++ []) c :=
    (Trace.Run.of_exec (P := fun _ _ => True) (.start ⟨rfl, fun _ => rfl⟩) hexec
      fun _ _ _ => trivial).imp fun _ _ _ h => h.1
  exact ⟨c, hexec, of_decide_eq_true hc, frames_whole_of_run hrun onePath_not_isTemp⟩

end CctvMemory.Video
