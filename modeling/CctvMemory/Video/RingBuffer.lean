import Mathlib.Algebra.Order.BigOperators.Group.List
import Mathlib.Data.List.Infix
import Mathlib.Tactic.Ring

/-!
# The buffer of raw frames

`_RingBuffer` of `infrastructure/video/opencv_frame_stream.py`: frames in the
order of their arrival, capped by number and by bytes, with the bytes counted
as frames come and go. A frame is anything with a size.

* `appendAll_retains`: what the buffer holds after any frames.
* `maxBytes_zero_exceeded`: the caps are at least one, whatever was asked for.
-/

namespace CctvMemory.Video

structure RingBuffer (φ : Type) where
  maxlen : ℤ
  maxBytes : ℤ
  dq : List (ℤ × φ)
  bytes : ℤ
  maxlen_pos : 1 ≤ maxlen

namespace RingBuffer

section

variable {φ : Type}

def create (maxlen maxBytes : ℤ) : RingBuffer φ where
  maxlen := max 1 maxlen
  maxBytes := max 1 maxBytes
  dq := []
  bytes := 0
  maxlen_pos := le_max_left _ _

/-- `get`: the oldest frame of an index. -/
def get (rb : RingBuffer φ) (frameIndex : ℤ) : Option φ :=
  (rb.dq.find? fun entry => decide (entry.1 = frameIndex)).map Prod.snd

def clear (rb : RingBuffer φ) : RingBuffer φ := { rb with dq := [], bytes := 0 }

variable (nbytes : φ → ℕ)

/-- The loop of `append`, for a frame of `incoming` bytes. -/
def evict (maxlen maxBytes : ℤ) (incoming : ℕ) : List (ℤ × φ) → ℤ → List (ℤ × φ) × ℤ
  | [], bytes => ([], bytes)
  | old :: rest, bytes =>
      if maxlen ≤ (old :: rest).length ∨ maxBytes < bytes + incoming then
        evict maxlen maxBytes incoming rest (bytes - nbytes old.2)
      else (old :: rest, bytes)

def append (rb : RingBuffer φ) (frameIndex : ℤ) (arr : φ) : RingBuffer φ :=
  let kept := evict nbytes rb.maxlen rb.maxBytes (nbytes arr) rb.dq rb.bytes
  { rb with
    dq := kept.1 ++ [(frameIndex, arr)]
    bytes := kept.2 + nbytes arr }

def appendAll (rb : RingBuffer φ) (frames : List (ℤ × φ)) : RingBuffer φ :=
  frames.foldl (fun rb entry => rb.append nbytes entry.1 entry.2) rb

/-- The bytes of the frames of a list. -/
def totalBytes (frames : List (ℤ × φ)) : ℤ := ((frames.map fun entry => nbytes entry.2).sum : ℕ)

/-! ## One frame -/

@[simp] theorem totalBytes_nil : totalBytes nbytes [] = 0 := rfl

@[simp] theorem totalBytes_cons (entry : ℤ × φ) (frames : List (ℤ × φ)) :
    totalBytes nbytes (entry :: frames) = nbytes entry.2 + totalBytes nbytes frames := by
  simp [totalBytes]

@[simp] theorem totalBytes_append (frames frames' : List (ℤ × φ)) :
    totalBytes nbytes (frames ++ frames')
      = totalBytes nbytes frames + totalBytes nbytes frames' := by
  simp [totalBytes]

/-- What the loop leaves: a suffix, counted right, with room for the frame unless
nothing is left. -/
structure MakesRoom (maxlen maxBytes : ℤ) (incoming : ℕ) (dq : List (ℤ × φ))
    (kept : List (ℤ × φ) × ℤ) : Prop where
  suffix : kept.1 <:+ dq
  counted : kept.2 = totalBytes nbytes kept.1
  room : kept.1 = [] ∨ (kept.1.length : ℤ) < maxlen ∧ kept.2 + incoming ≤ maxBytes

theorem makesRoom_evict {maxlen maxBytes : ℤ} {incoming : ℕ} {dq : List (ℤ × φ)} {bytes : ℤ}
    (hbytes : bytes = totalBytes nbytes dq) :
    MakesRoom nbytes maxlen maxBytes incoming dq
      (evict nbytes maxlen maxBytes incoming dq bytes) := by
  induction dq generalizing bytes with
  | nil => exact ⟨List.suffix_refl _, hbytes, Or.inl rfl⟩
  | cons old rest ih =>
      unfold evict
      by_cases hfull : maxlen ≤ (old :: rest).length ∨ maxBytes < bytes + incoming
      · rw [if_pos hfull]
        have hrest : bytes - nbytes old.2 = totalBytes nbytes rest := by
          rw [hbytes, totalBytes_cons]
          ring
        have hroom := ih hrest
        exact ⟨hroom.suffix.trans (List.suffix_cons old rest), hroom.counted, hroom.room⟩
      · rw [if_neg hfull]
        obtain ⟨hlen, hmax⟩ := not_or.mp hfull
        exact ⟨List.suffix_refl _, hbytes, Or.inr ⟨not_le.mp hlen, not_lt.mp hmax⟩⟩

/-! ## Any frames -/

/-- What the buffer holds of the frames appended so far, under the caps asked for. -/
structure Retains (maxlen maxBytes : ℤ) (frames : List (ℤ × φ)) (rb : RingBuffer φ) :
    Prop where
  maxlen_eq : rb.maxlen = max 1 maxlen
  maxBytes_eq : rb.maxBytes = max 1 maxBytes
  suffix : rb.dq <:+ frames
  counted : rb.bytes = totalBytes nbytes rb.dq
  length : (rb.dq.length : ℤ) ≤ max 1 maxlen
  within : rb.bytes ≤ max 1 maxBytes ∨ rb.dq.length = 1

variable {nbytes} {maxlen maxBytes : ℤ} {frames : List (ℤ × φ)} {rb : RingBuffer φ}

theorem retains_create : Retains nbytes maxlen maxBytes [] (create maxlen maxBytes) where
  maxlen_eq := rfl
  maxBytes_eq := rfl
  suffix := List.suffix_refl _
  counted := rfl
  length := (Int.zero_le_ofNat 1).trans (le_max_left _ _)
  within := Or.inl ((Int.zero_le_ofNat 1).trans (le_max_left _ _))

theorem Retains.append (h : Retains nbytes maxlen maxBytes frames rb) (frameIndex : ℤ)
    (arr : φ) : Retains nbytes maxlen maxBytes (frames ++ [(frameIndex, arr)])
      (rb.append nbytes frameIndex arr) := by
  obtain ⟨hsuffix, hcounted, hroom⟩ :=
    @makesRoom_evict _ nbytes rb.maxlen rb.maxBytes (nbytes arr) _ _ h.counted
  unfold RingBuffer.append
  generalize evict nbytes rb.maxlen rb.maxBytes (nbytes arr) rb.dq rb.bytes = kept at *
  have hcount : kept.2 + nbytes arr = totalBytes nbytes (kept.1 ++ [(frameIndex, arr)]) := by
    rw [hcounted]
    simp
  rw [h.maxlen_eq, h.maxBytes_eq] at hroom
  refine ⟨h.maxlen_eq, h.maxBytes_eq, ?_, hcount, ?_, ?_⟩
  · exact List.suffix_append_self_iff.mpr (hsuffix.trans h.suffix)
  · show ((kept.1 ++ [(frameIndex, arr)]).length : ℤ) ≤ max 1 maxlen
    rcases hroom with hnil | ⟨hlen, -⟩
    · rw [hnil]
      exact le_max_left _ _
    · rw [List.length_append, List.length_singleton]
      push_cast
      omega
  · rcases hroom with hnil | ⟨-, hmax⟩
    · -- everything was evicted, so the new frame is alone
      right
      show (kept.1 ++ [(frameIndex, arr)]).length = 1
      rw [hnil]
      rfl
    · exact Or.inl hmax

/-- A frame that `get` returns is one of those appended under its index. -/
theorem Retains.mem_of_get (h : Retains nbytes maxlen maxBytes frames rb) {frameIndex : ℤ}
    {arr : φ} (hget : rb.get frameIndex = some arr) : (frameIndex, arr) ∈ frames := by
  unfold get at hget
  obtain ⟨entry, hfind, rfl⟩ := Option.map_eq_some_iff.mp hget
  have hindex := List.find?_some hfind
  rw [decide_eq_true_eq] at hindex
  rw [← hindex]
  exact h.suffix.subset (List.mem_of_find?_eq_some hfind)

end

/-- After any frames of any sizes, under any caps. -/
theorem appendAll_retains {φ : Type} (nbytes : φ → ℕ) (maxlen maxBytes : ℤ)
    (frames : List (ℤ × φ)) :
    Retains nbytes maxlen maxBytes frames
      ((create maxlen maxBytes).appendAll nbytes frames) := by
  induction frames using List.reverseRecOn with
  | nil => exact retains_create
  | append_singleton frames entry ih =>
      unfold appendAll
      rw [List.foldl_append]
      exact ih.append entry.1 entry.2

/-- A buffer of no bytes holds two frames, one of a byte and an empty one. -/
theorem maxBytes_zero_exceeded :
    ¬ (((create 2 0).appendAll id [(0, 1), (1, 0)]).bytes ≤ 0 ∨
      ((create 2 0).appendAll id [(0, 1), (1, 0)]).dq.length = 1) := by
  decide

end RingBuffer

end CctvMemory.Video
