import Mathlib.Data.Prod.Lex
import Mathlib.Order.Lex
import Mathlib.Algebra.Order.Ring.Int

/-!
# Aware timestamps and their ISO text

A timestamp with a UTC offset names an instant; its ISO text shows the wall
clock of that offset. The fields of the text are zero padded, `+` and `-`
sort before the `.` of a fraction and `+` before `-`, so comparing two texts
character by character compares the wall clocks and, on a tie, the offset
suffixes. `Text` is that sort key.

* `isoformat_lt_iff`: on one offset the text order is the order of instants.
* `isoformat_lt_utc_iff`: the offsets that can be compared with UTC.
* `misread_iff`: the pairs on which the two orders differ.
-/

namespace Iso

/-- Instants are microseconds since the epoch. -/
def second : ℤ := 1000000

/-- A wall clock reading (microseconds) and the offset it was read at (seconds
east of UTC). -/
structure DateTime where
  wall : ℤ
  utcoffset : ℤ
deriving DecidableEq

namespace DateTime

def instant (d : DateTime) : ℤ := d.wall - d.utcoffset * second

/-- The reading of instant `i` on a clock at `offset`. -/
def onClock (offset : ℤ) (i : ℤ) : DateTime := ⟨i + offset * second, offset⟩

/-- The reading of instant `i` on a UTC clock. -/
def utc (i : ℤ) : DateTime := DateTime.onClock 0 i

@[simp] theorem instant_onClock (offset : ℤ) (i : ℤ) :
    (DateTime.onClock offset i).instant = i := by
  simp [instant, DateTime.onClock]

@[simp] theorem instant_utc (i : ℤ) : (utc i).instant = i := instant_onClock 0 i

/-- On one offset an instant has one reading. -/
theorem ext_instant {d e : DateTime} (hinstant : d.instant = e.instant)
    (hoffset : d.utcoffset = e.utcoffset) : d = e := by
  cases d
  cases e
  simp_all [instant]

end DateTime

/-- ISO text, as its sort key: wall clock, sign of the offset, size of the
offset. -/
abbrev Text := ℤ ×ₗ (Bool ×ₗ ℕ)

def isoformat (d : DateTime) : Text :=
  toLex (d.wall, toLex (decide (d.utcoffset < 0), d.utcoffset.natAbs))

theorem isoformat_injective : Function.Injective isoformat := by
  rintro ⟨wall, offset⟩ ⟨wall', offset'⟩ h
  simp only [isoformat, EmbeddingLike.apply_eq_iff_eq, Prod.mk.injEq, decide_eq_decide] at h
  rw [DateTime.mk.injEq]
  omega

theorem isoformat_lt_iff {d e : DateTime} (h : d.utcoffset = e.utcoffset) :
    isoformat d < isoformat e ↔ d.instant < e.instant := by
  simp only [isoformat, Prod.Lex.toLex_lt_toLex, h, lt_irrefl, and_false, or_false,
    DateTime.instant, second]
  omega

/-- Against UTC the text order is sound for the offsets not west of UTC, and for
no other. -/
theorem isoformat_lt_utc_iff (offset : ℤ) :
    (∀ i j, isoformat (DateTime.onClock offset i) < isoformat (DateTime.utc j) → i < j) ↔
      0 ≤ offset := by
  constructor
  · intro h
    by_contra hneg
    refine lt_irrefl (0 : ℤ) (h 0 0 ?_)
    simp only [isoformat, DateTime.utc, DateTime.onClock, Prod.Lex.toLex_lt_toLex, second]
    left
    omega
  · intro hoffset i j hlt
    unfold isoformat at hlt
    rw [Prod.Lex.toLex_lt_toLex, Prod.Lex.toLex_lt_toLex] at hlt
    rcases hlt with hwall | ⟨-, hsign | ⟨-, hsize⟩⟩
    · simp only [DateTime.utc, DateTime.onClock, second] at hwall
      omega
    · have hneg : (0 : ℤ) < 0 := of_decide_eq_true (Bool.lt_iff.mp hsign).2
      exact absurd hneg (lt_irrefl 0)
    · exact absurd hsize (Nat.not_lt_zero _)

/-! ## Where the two orders differ -/

/-- The wall clocks of two timestamps differ by less than their offsets do, or agree
at two offsets not west of UTC. -/
def Misread (d e : DateTime) : Prop :=
  let clocks := e.wall - d.wall
  let offsets := (e.utcoffset - d.utcoffset) * second
  0 < clocks ∧ clocks < offsets ∨ offsets ≤ clocks ∧ clocks < 0 ∨
    clocks = 0 ∧ 0 ≤ d.utcoffset ∧ 0 ≤ e.utcoffset ∧ d.utcoffset ≠ e.utcoffset

theorem isoformat_le_iff (d e : DateTime) :
    isoformat d ≤ isoformat e ↔ d.wall < e.wall ∨ d.wall = e.wall ∧
      (0 ≤ d.utcoffset ∧ e.utcoffset < 0 ∨ 0 ≤ d.utcoffset ∧ d.utcoffset ≤ e.utcoffset ∨
        d.utcoffset < 0 ∧ e.utcoffset ≤ d.utcoffset) := by
  simp only [isoformat, Prod.Lex.toLex_le_toLex]
  refine or_congr_right (and_congr_right fun _ => ?_)
  rw [Bool.lt_iff, decide_eq_false_iff_not, decide_eq_true_eq, decide_eq_decide]
  omega

theorem misread_iff (d e : DateTime) :
    Misread d e ↔ ¬ (isoformat d ≤ isoformat e ↔ d.instant ≤ e.instant) := by
  rw [isoformat_le_iff]
  simp only [Misread, DateTime.instant, second]
  omega

end Iso
