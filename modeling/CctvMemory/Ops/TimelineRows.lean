import CctvMemory.Library.IsoText
import CctvMemory.Library.KeySort
import CctvMemory.Library.Table
import CctvMemory.Worker.Timeline
import Mathlib.Data.List.Infix
import Mathlib.Data.String.Basic
import Mathlib.Order.Lattice

/-!
# The stored timeline

`SqliteTimelineRepository`: events are appended and never changed, and listed by
`occurred_at`, `created_at` and id, within bounds that are compared as ISO text.

* `select_infix`: a list of events that were stamped one after the other is a part of
  the log, whatever the order of the rows.
-/

namespace CctvMemory.Ops

open Iso (DateTime isoformat isoformat_lt_iff)
open Keyed (Table)

variable {ν : Type}

/-- An event as it is stored, with its stamps. -/
abbrev Event (ν : Type) := Worker.Timeline.AnalysisTimelineEvent ν DateTime

abbrev TimelineRows (ν : Type) := Table (Event ν) fun e => e.timelineEventId

/-- `append_event`; `none` when the id is taken. -/
def appendEvent (rows : TimelineRows ν) (event : Event ν) : Option (TimelineRows ν) :=
  rows.insert? event

/-- The columns of `order_by`. -/
def rowKey (e : Event ν) : Iso.Text ×ₗ (Iso.Text ×ₗ String) :=
  toLex (isoformat e.occurredAt, toLex (isoformat e.createdAt, e.timelineEventId))

def rowLe (e f : Event ν) : Bool := decide (rowKey e ≤ rowKey f)

/-- The keyword arguments. -/
structure Window where
  since : Option DateTime := none
  til : Option DateTime := none
  limit : ℤ := 100000

def Window.covers (w : Window) (e : Event ν) : Bool :=
  w.since.all (fun s => decide (isoformat s ≤ isoformat e.occurredAt))
    && w.til.all fun u => decide (isoformat e.occurredAt ≤ isoformat u)

/-- What the three listings share: the rows that `p` keeps, within the window. -/
def select (p : Event ν → Bool) (w : Window) (rows : List (Event ν)) : List (Event ν) :=
  if w.limit ≤ 0 then []
  else ((rows.filter fun e => p e && w.covers e).mergeSort rowLe).take w.limit.toNat

def listAll (w : Window) (rows : List (Event ν)) : List (Event ν) :=
  select (fun _ => true) w rows

def listByJob (analysisJobId : String) (w : Window) (rows : List (Event ν)) : List (Event ν) :=
  select (fun e => decide (e.analysisJobId = some analysisJobId)) w rows

/-- `list_by_trace`, without bounds. -/
def listByTrace (traceId : String) (limit : ℤ) (rows : List (Event ν)) : List (Event ν) :=
  select (fun e => decide (e.traceId = traceId)) { limit := limit } rows

/-! ## Events that were stamped one after the other -/

/-- UTC stamps, each later than the one before. -/
structure Stamped (log : List (Event ν)) : Prop where
  utc : ∀ e ∈ log, e.occurredAt.utcoffset = 0
  later : log.Pairwise fun e f => e.occurredAt.instant < f.occurredAt.instant

instance : DecidablePred (@Stamped ν) := fun log =>
  decidable_of_iff ((∀ e ∈ log, e.occurredAt.utcoffset = 0) ∧
    log.Pairwise fun e f => e.occurredAt.instant < f.occurredAt.instant)
    ⟨fun h => ⟨h.1, h.2⟩, fun h => ⟨h.utc, h.later⟩⟩

variable {log rows : List (Event ν)}

theorem Stamped.texts (h : Stamped log) :
    log.Pairwise fun e f => isoformat e.occurredAt < isoformat f.occurredAt := by
  refine h.later.imp_of_mem ?_
  intro e f he hf hlt
  exact (isoformat_lt_iff ((h.utc e he).trans (h.utc f hf).symm)).mpr hlt

theorem Stamped.filter (h : Stamped log) (p : Event ν → Bool) : Stamped (log.filter p) where
  utc e he := h.utc e (List.mem_of_mem_filter he)
  later := h.later.filter p

theorem rowKey_lt {e f : Event ν} (h : isoformat e.occurredAt < isoformat f.occurredAt) :
    rowKey e < rowKey f :=
  Prod.Lex.toLex_lt_toLex.mpr (.inl h)

theorem sortKey_rowLe : SortKey (@rowLe ν) rowKey := SortKey.of_decide rowKey

/-- The listing of the rows in any order is the log. -/
theorem mergeSort_of_stamped (h : Stamped log) (hperm : rows.Perm log) :
    rows.mergeSort rowLe = log := by
  have hsorted : log.Pairwise fun e f => rowLe e f = true := by
    refine h.texts.imp fun {e f} hlt => ?_
    exact (sortKey_rowLe.le_iff e f).mpr (rowKey_lt hlt).le
  have hkeys : (log.map rowKey).Nodup :=
    List.pairwise_map.mpr (h.texts.imp fun {e f} hlt => (rowKey_lt hlt).ne)
  have hinj : ∀ e ∈ rows, ∀ f ∈ rows, rowKey e = rowKey f → e = f := fun e he f hf heq =>
    List.inj_on_of_nodup_map hkeys (hperm.mem_iff.mp he) (hperm.mem_iff.mp hf) heq
  rw [sortKey_rowLe.mergeSort_congr hperm hinj, List.mergeSort_of_pairwise hsorted]

/-! ## A window on the log -/

section Windows

variable {α κ : Type} [LinearOrder κ] {key : α → κ} {l : List α}

/-- Of rows in ascending order those from a key on are a suffix. -/
theorem filter_suffix_of_ascending (h : l.Pairwise fun a b => key a ≤ key b) (lo : κ) :
    l.filter (fun a => decide (lo ≤ key a)) <:+ l := by
  induction l with
  | nil => exact List.suffix_refl []
  | cons a l ih =>
      obtain ⟨hhead, htail⟩ := List.pairwise_cons.mp h
      rw [List.filter_cons]
      split
      · rename_i hlo
        have hall : l.filter (fun b => decide (lo ≤ key b)) = l := by
          refine List.filter_eq_self.mpr fun b hb => decide_eq_true ?_
          exact (of_decide_eq_true hlo).trans (hhead b hb)
        rw [hall]
      · exact (ih htail).trans (List.suffix_cons a l)

/-- Of rows in ascending order those up to a key are a prefix. -/
theorem filter_prefix_of_ascending (h : l.Pairwise fun a b => key a ≤ key b) (hi : κ) :
    l.filter (fun a => decide (key a ≤ hi)) <+: l := by
  induction l with
  | nil => exact List.prefix_refl []
  | cons a l ih =>
      obtain ⟨hhead, htail⟩ := List.pairwise_cons.mp h
      rw [List.filter_cons]
      split
      · exact (List.prefix_cons_inj a).mpr (ih htail)
      · rename_i hhi
        have hnone : l.filter (fun b => decide (key b ≤ hi)) = [] := by
          refine List.filter_eq_nil_iff.mpr fun b hb hle => hhi (decide_eq_true ?_)
          exact (hhead b hb).trans (of_decide_eq_true hle)
        rw [hnone]
        exact List.nil_prefix

end Windows

theorem covers_isInfix (h : Stamped log) (w : Window) : log.filter w.covers <:+: log := by
  have hascending : ∀ {l : List (Event ν)}, Stamped l →
      l.Pairwise fun e f => isoformat e.occurredAt ≤ isoformat f.occurredAt :=
    fun hl => hl.texts.imp fun hlt => hlt.le
  have hsplit : log.filter w.covers
      = (log.filter fun e => w.til.all fun u => decide (isoformat e.occurredAt ≤ isoformat u)).filter
          fun e => w.since.all fun s => decide (isoformat s ≤ isoformat e.occurredAt) := by
    rw [List.filter_filter]
    rfl
  have htil : (log.filter fun e => w.til.all fun u =>
      decide (isoformat e.occurredAt ≤ isoformat u)) <+: log := by
    cases w.til with
    | none =>
        simp only [Option.all_none, List.filter_true]
        exact List.prefix_refl log
    | some u => exact filter_prefix_of_ascending (hascending h) (isoformat u)
  rw [hsplit]
  refine List.IsInfix.trans ?_ htil.isInfix
  cases w.since with
  | none =>
      simp only [Option.all_none, List.filter_true]
      exact List.infix_refl _
  | some s =>
      exact (filter_suffix_of_ascending (hascending (h.filter _)) (isoformat s)).isInfix

/-- What is listed of all events is a part of the log. -/
theorem select_infix (h : Stamped log) (hperm : rows.Perm log) (p : Event ν → Bool)
    (w : Window) : select p w rows <:+: log.filter p := by
  unfold select
  split
  · exact List.nil_infix
  · have hfilter : (rows.filter fun e => p e && w.covers e).Perm
        ((log.filter p).filter w.covers) := by
      rw [List.filter_filter]
      simp only [Bool.and_comm]
      exact hperm.filter _
    rw [mergeSort_of_stamped ((h.filter p).filter w.covers) hfilter]
    exact (List.take_prefix _ _).isInfix.trans (covers_isInfix (h.filter p) w)

/-- Without bounds, and with no more rows than the limit, the listing is the log. -/
theorem listAll_eq_log (h : Stamped log) (hperm : rows.Perm log)
    (hlimit : log.length ≤ 100000) : listAll {} rows = log := by
  have hall : (rows.filter fun e => true && Window.covers {} e) = rows :=
    List.filter_eq_self.mpr fun e _ => rfl
  rw [listAll, select, if_neg (by decide), hall, mergeSort_of_stamped h hperm]
  exact List.take_of_length_le hlimit

end CctvMemory.Ops
