import CctvMemory.Ingestion.Store
import CctvMemory.Worker.MotionPlan
import CctvMemory.Worker.Retry

/-!
# The motion scan and its rerun

`MotionScanProcessor.process` plans triggers from the samples of a video and
stores each under a key of its bounds. The bounds are clamped to the duration of
the video or, while that is not known, to the last sample; a scan that runs
again after the probe may plan other bounds.

* `process_ok`: a scan of a stored video goes through.
* `idempotent_and_covers_iff`: the second run adds nothing, and every sample
  above the threshold lies in a trigger, exactly when the bursts are `Settled`.
-/

namespace CctvMemory.Worker.Motion

open Spans
open CctvMemory.Ingestion
open CctvMemory.Provisioning (VideoSource)

/-! ## The processor -/

/-- The trigger rows, and how many ids are drawn. -/
structure ScanStore where
  triggers : highFreqTriggers.Rows
  drawn : ℕ

inductive ScanError where
  | videoNotFound (message : String)
  | invalidTrigger (message : String)
  | store (e : StoreError)
deriving DecidableEq, Repr

structure MotionScanProcessor where
  config : MotionScanSection
  sampleMotion : String → List MotionSample
  highFreqScaleTaskId : String
  /-- `new_id("trigger")`, the `n`-th time. -/
  newId : ℕ → String

def buildIdempotencyKey (analysisJobId videoId : String) (startMs endMs : ℤ)
    (reason : String) : String :=
  analysisJobId ++ ":" ++ videoId ++ ":" ++ toString startMs ++ ":" ++ toString endMs ++ ":" ++
    reason

/-- The checks of the `HighFreqTrigger` model. -/
def validTrigger (t : HighFreqTrigger) : Except ScanError HighFreqTrigger :=
  if t.triggerStartMs < 0 then
    .error (.invalidTrigger "trigger_start_ms: Input should be greater than or equal to 0")
  else if t.triggerEndMs < 0 then
    .error (.invalidTrigger "trigger_end_ms: Input should be greater than or equal to 0")
  else if t.triggerEndMs ≤ t.triggerStartMs then
    .error (.invalidTrigger "trigger_start_ms must be strictly before trigger_end_ms")
  else if t.idempotencyKey ≠ buildIdempotencyKey t.analysisJobId t.videoId t.triggerStartMs
      t.triggerEndMs t.triggerReason then
    .error (.invalidTrigger ("HighFreqTrigger.idempotency_key must equal " ++
      "'analysis_job_id:video_id:trigger_start_ms:trigger_end_ms:trigger_reason'"))
  else .ok t

section Process

variable (p : MotionScanProcessor) (b : Backend) (analysisJobId videoId : String)

def windowKey (w : TriggerWindow) : String :=
  buildIdempotencyKey analysisJobId videoId w.startMs w.endMs w.reason

def newTrigger (triggerId : String) (w : TriggerWindow) : HighFreqTrigger where
  triggerId := triggerId
  analysisJobId := analysisJobId
  scaleTaskId := p.highFreqScaleTaskId
  videoId := videoId
  triggerStartMs := w.startMs
  triggerEndMs := w.endMs
  motionScore := some (roundTo 4 w.peakScore)
  changeScore := some (roundTo 4 w.peakScore)
  triggerReason := w.reason
  idempotencyKey := windowKey analysisJobId videoId w

def persistWindow (st : ScanStore) (w : TriggerWindow) : Except ScanError ScanStore := do
  let trigger ← validTrigger (newTrigger p analysisJobId videoId (p.newId st.drawn) w)
  match highFreqTriggers.createOrGet b st.triggers trigger with
  | .ok (_, triggers) => .ok ⟨triggers, st.drawn + 1⟩
  | .error e => .error (.store e)

/-- The duration of the video or, while it is not known, the last sample. -/
def effectiveDuration (source : VideoSource) (samples : List MotionSample) : Option ℕ :=
  match source.durationMs with
  | some duration => some duration
  | none => (samples.map MotionSample.timestampMs).max?

def plannedWindows (source : VideoSource) : List TriggerWindow :=
  let samples := p.sampleMotion source.sourceUri
  planMotionTriggers p.config samples (effectiveDuration source samples)

/-- `process`; `getById` reads the video. -/
def process (getById : String → Option VideoSource) (st : ScanStore) :
    Except ScanError (ℕ × ScanStore) :=
  match getById videoId with
  | none => .error (.videoNotFound ("video " ++ videoId ++ " not found"))
  | some source => do
      let windows := plannedWindows p source
      let st' ← windows.foldlM (persistWindow p b analysisJobId videoId) st
      .ok (windows.length, st')

end Process

/-! ## Keys -/

theorem eq_of_append_mark {α : Type} {c : α} {xs ys front back : List α} (hx : c ∉ xs)
    (hy : c ∉ ys) (h : xs ++ c :: front = ys ++ c :: back) : xs = ys ∧ front = back := by
  induction xs generalizing ys with
  | nil =>
      cases ys with
      | nil => exact ⟨rfl, (List.cons.inj h).2⟩
      | cons y ys => exact absurd (List.mem_cons.mpr (Or.inl (List.cons.inj h).1)) hy
  | cons x xs ih =>
      cases ys with
      | nil => exact absurd (List.mem_cons.mpr (Or.inl (List.cons.inj h).1.symm)) hx
      | cons y ys =>
          obtain ⟨rfl, htail⟩ := List.cons.inj h
          have hrest := ih (fun hc => hx (List.mem_cons_of_mem x hc))
            (fun hc => hy (List.mem_cons_of_mem x hc)) htail
          exact ⟨congrArg (x :: ·) hrest.1, hrest.2⟩

theorem toList_toString (n : ℕ) : (toString (n : ℤ)).toList = Nat.toDigits 10 n := Nat.toList_repr

theorem colon_not_mem_toDigits (n : ℕ) : ':' ∉ Nat.toDigits 10 n := fun h =>
  absurd (Nat.isDigit_of_mem_toDigits (by decide) (by decide) h) (by decide)

theorem toDigits_injective {m n : ℕ} (h : Nat.toDigits 10 m = Nat.toDigits 10 n) : m = n := by
  have hvalue := congrArg (fun ds => Nat.ofDigitChars 10 ds 0) h
  simpa only [Nat.ofDigitChars_ten_toDigits] using hvalue

/-- The key tells the bounds. -/
theorem windowKey_injective {job video : String} {w w' : TriggerWindow}
    (h : windowKey job video w = windowKey job video w') :
    w.startMs = w'.startMs ∧ w.endMs = w'.endMs := by
  have hchars := congrArg String.toList h
  unfold windowKey buildIdempotencyKey at hchars
  simp only [String.toList_append, toList_toString, List.append_assoc] at hchars
  have htail := List.append_cancel_left (List.append_cancel_left (List.append_cancel_left
    (List.append_cancel_left hchars)))
  obtain ⟨hstart, htail⟩ := eq_of_append_mark (colon_not_mem_toDigits _)
    (colon_not_mem_toDigits _) htail
  obtain ⟨hend, -⟩ := eq_of_append_mark (colon_not_mem_toDigits _)
    (colon_not_mem_toDigits _) htail
  exact ⟨toDigits_injective hstart, toDigits_injective hend⟩

/-! ## What a run stores -/

structure TriggerOf (job video : String) (w : TriggerWindow) (row : HighFreqTrigger) : Prop where
  jobId : row.analysisJobId = job
  videoId : row.videoId = video
  start : row.triggerStartMs = w.startMs
  stop : row.triggerEndMs = w.endMs
  key : row.idempotencyKey = windowKey job video w

/-- Nothing is stored for the job, and nothing takes a key of it. -/
structure Unscanned (job video : String) (t : highFreqTriggers.Rows) : Prop where
  noTrigger : ∀ row ∈ t.rows, row.analysisJobId ≠ job
  noKey : ∀ row ∈ t.rows, ∀ w, row.idempotencyKey ≠ windowKey job video w

/-- The windows `ws` are stored, over the rows of `t₀`. -/
structure Stored (p : MotionScanProcessor) (job video : String) (t₀ : highFreqTriggers.Rows)
    (ws : List TriggerWindow) (st : ScanStore) : Prop where
  rows : ∀ row ∈ st.triggers.rows, row ∈ t₀.rows ∨ ∃ w ∈ ws, TriggerOf job video w row
  held : ∀ w ∈ ws, ∃ row ∈ st.triggers.rows, TriggerOf job video w row
  unused : ∀ n, st.drawn ≤ n → ∀ row ∈ st.triggers.rows, row.triggerId ≠ p.newId n

section Runs

variable {p : MotionScanProcessor} {b : Backend} {job video : String}
  {t₀ : highFreqTriggers.Rows} {ws : List TriggerWindow} {st : ScanStore} {w : TriggerWindow}

theorem triggerOf_newTrigger (id : String) : TriggerOf job video w (newTrigger p job video id w) :=
  ⟨rfl, rfl, rfl, rfl, rfl⟩

theorem validTrigger_newTrigger (id : String) (hw : w.startMs < w.endMs) :
    validTrigger (newTrigger p job video id w) = .ok (newTrigger p job video id w) := by
  have hstart : ¬ (newTrigger p job video id w).triggerStartMs < 0 := by
    simp [newTrigger]
  have hend : ¬ (newTrigger p job video id w).triggerEndMs < 0 := by
    simp [newTrigger]
  have hlt : ¬ (newTrigger p job video id w).triggerEndMs
      ≤ (newTrigger p job video id w).triggerStartMs := by
    simpa [newTrigger] using hw
  unfold validTrigger
  rw [if_neg hstart, if_neg hend, if_neg hlt, if_neg fun h => h rfl]

theorem persistWindow_eq (hw : w.startMs < w.endMs) {row : HighFreqTrigger}
    {t' : highFreqTriggers.Rows}
    (h : highFreqTriggers.createOrGet b st.triggers (newTrigger p job video (p.newId st.drawn) w)
      = .ok (row, t')) :
    persistWindow p b job video st w = .ok ⟨t', st.drawn + 1⟩ := by
  unfold persistWindow
  rw [validTrigger_newTrigger _ hw]
  simp only [bind, Except.bind, h]

/-- A window is stored; one whose key is there changes nothing. -/
theorem persistWindow_spec (hinj : Function.Injective p.newId) (h₀ : Unscanned job video t₀)
    (h : Stored p job video t₀ ws st) (hw : w.startMs < w.endMs) :
    ∃ st', persistWindow p b job video st w = .ok st' ∧ Stored p job video t₀ (ws ++ [w]) st' ∧
      ((∃ w' ∈ ws, windowKey job video w' = windowKey job video w) →
        st'.triggers = st.triggers) := by
  have hearlier : ∀ {row}, (∃ w' ∈ ws, TriggerOf job video w' row) →
      ∃ w' ∈ ws ++ [w], TriggerOf job video w' row :=
    fun ⟨w', hw', hof⟩ => ⟨w', List.mem_append_left _ hw', hof⟩
  cases hfind : st.triggers.find? (windowKey job video w) with
  | some existing =>
      have hget : highFreqTriggers.createOrGet b st.triggers
          (newTrigger p job video (p.newId st.drawn) w) = .ok (existing, st.triggers) :=
        Repository.createOrGet_of_found hfind rfl
      refine ⟨_, persistWindow_eq hw hget, ?_, fun _ => rfl⟩
      obtain ⟨hmem, hkey⟩ := Keyed.Indexed.find?_eq_some_iff.mp hfind
      refine ⟨fun row hrow => (h.rows row hrow).imp_right hearlier, ?_, ?_⟩
      · intro w' hw'
        rcases List.mem_append.mp hw' with hw' | hw'
        · exact h.held w' hw'
        · obtain rfl := List.mem_singleton.mp hw'
          rcases h.rows existing hmem with hold | ⟨w, hw, hof⟩
          · exact absurd hkey (h₀.noKey existing hold w')
          · -- the row of another window with this key has its bounds
            obtain ⟨hstart, hend⟩ := windowKey_injective (hof.key.symm.trans hkey)
            exact ⟨existing, hmem, hof.jobId, hof.videoId, hstart ▸ hof.start,
              hend ▸ hof.stop, hkey⟩
      · exact fun n hn => h.unused n (Nat.le_of_succ_le hn)
  | none =>
      have hfree : st.triggers.get? (highFreqTriggers.pk
          (newTrigger p job video (p.newId st.drawn) w)) = none :=
        Keyed.Table.get?_eq_none_iff.mpr (h.unused st.drawn (Nat.le_refl _))
      obtain ⟨t', hget, hrows⟩ := Repository.createOrGet_of_free (b := b) hfree hfind
      refine ⟨_, persistWindow_eq hw hget, ⟨?_, ?_, ?_⟩, ?_⟩
      · intro row hrow
        rw [hrows] at hrow
        rcases List.mem_append.mp hrow with hrow | hrow
        · exact (h.rows row hrow).imp_right hearlier
        · obtain rfl := List.mem_singleton.mp hrow
          exact Or.inr ⟨w, List.mem_append_right _ (List.mem_singleton.mpr rfl),
            triggerOf_newTrigger _⟩
      · intro w' hw'
        rw [hrows]
        rcases List.mem_append.mp hw' with hw' | hw'
        · obtain ⟨row, hrow, hof⟩ := h.held w' hw'
          exact ⟨row, List.mem_append_left _ hrow, hof⟩
        · obtain rfl := List.mem_singleton.mp hw'
          exact ⟨_, List.mem_append_right _ (List.mem_singleton.mpr rfl),
            triggerOf_newTrigger _⟩
      · intro n hn row hrow
        rw [hrows] at hrow
        rcases List.mem_append.mp hrow with hrow | hrow
        · exact h.unused n (Nat.le_of_succ_le hn) row hrow
        · obtain rfl := List.mem_singleton.mp hrow
          intro heq
          have hdrawn : st.drawn = n := hinj heq
          exact absurd hn (by simp [hdrawn])
      · rintro ⟨w', hw', hkey⟩
        obtain ⟨row, hrow, hof⟩ := h.held w' hw'
        exact absurd (hof.key.trans hkey) (Keyed.Table.get?_eq_none_iff.mp hfind row hrow)

/-- A run stores its windows; one that finds every key changes nothing. -/
theorem foldlM_persistWindow (hinj : Function.Injective p.newId) (h₀ : Unscanned job video t₀)
    {ws' : List TriggerWindow} (hws : ∀ w ∈ ws', w.startMs < w.endMs)
    (h : Stored p job video t₀ ws st) :
    ∃ st', ws'.foldlM (persistWindow p b job video) st = .ok st' ∧
      Stored p job video t₀ (ws ++ ws') st' ∧
      ((∀ w ∈ ws', ∃ w' ∈ ws, windowKey job video w' = windowKey job video w) →
        st'.triggers = st.triggers) := by
  induction ws' generalizing ws st with
  | nil => exact ⟨st, rfl, by rwa [List.append_nil], fun _ => rfl⟩
  | cons w ws' ih =>
      obtain ⟨st₁, hstep, hstored, hsame⟩ := persistWindow_spec (b := b) hinj h₀ h
        (hws w List.mem_cons_self)
      obtain ⟨st', hrun, hstored', hsame'⟩ := ih
        (fun w hw => hws w (List.mem_cons_of_mem _ hw)) hstored
      refine ⟨st', ?_, ?_, fun hkeys => ?_⟩
      · rw [List.foldlM_cons, hstep]
        exact hrun
      · rwa [List.append_assoc] at hstored'
      · rw [hsame' fun w' hw' => ?_, hsame (hkeys w List.mem_cons_self)]
        obtain ⟨w'', hw'', hkey⟩ := hkeys w' (List.mem_cons_of_mem w hw')
        exact ⟨w'', List.mem_append_left _ hw'', hkey⟩

end Runs

/-! ## Two runs -/

def lastMs (samples : List MotionSample) : ℕ :=
  ((samples.map MotionSample.timestampMs).max?).getD 0

/-- A job whose motion is scanned twice. -/
structure Redelivery (b : Backend) where
  processor : MotionScanProcessor
  job : String
  source : VideoSource
  /-- The duration of the video, as the probe finds it. -/
  lengthMs : ℕ
  /-- The probe stores it between the two runs. -/
  probed : Bool
  store : ScanStore
  known : ∀ duration ∈ source.durationMs, duration = lengthMs
  newId_injective : Function.Injective processor.newId
  unused : ∀ n, store.drawn ≤ n → ∀ row ∈ store.triggers.rows, row.triggerId ≠ processor.newId n
  unscanned : Unscanned job source.videoId store.triggers

namespace Redelivery

variable {b : Backend} (r : Redelivery b)

def config : MotionScanSection := r.processor.config

def samples : List MotionSample := r.processor.sampleMotion r.source.sourceUri

/-- The source as the second run reads it. -/
def sourceAfter : VideoSource :=
  if r.probed = true then { r.source with durationMs := some r.lengthMs } else r.source

/-- One run on a store; a failed one is rolled back. -/
def scan (source : VideoSource) (st : ScanStore) : ScanStore :=
  match process r.processor b r.job r.source.videoId (fun _ => some source) st with
  | .ok (_, st') => st'
  | .error _ => st

def first : ScanStore := r.scan r.source r.store

def second : ScanStore := r.scan r.sourceAfter r.first

/-- The second run leaves the triggers of the first, and they cover the motion. -/
structure Correct : Prop where
  idempotent : ∀ row, row ∈ r.second.triggers.rows ↔ row ∈ r.first.triggers.rows
  covers : ∀ s ∈ r.samples, s.timestampMs < r.lengthMs → r.config.threshold ≤ s.score →
    ∃ row ∈ r.second.triggers.rows, row.analysisJobId = r.job ∧ row.videoId = r.source.videoId ∧
      row.triggerStartMs ≤ s.timestampMs ∧ s.timestampMs ≤ row.triggerEndMs

/-- Where the duration is not stored before the first run: if the probe stores
it, it is the time of the last sample, or every burst that starts before it has
its end by both; if it stays unknown, a burst of the last sample alone is within
the reach of an earlier one. -/
def Settled : Prop :=
  r.source.durationMs = none →
    if r.probed = true then
      r.lengthMs = lastMs r.samples ∨
        ∀ m ∈ bursts r.config r.samples, m.start < r.lengthMs →
          reach r.config m ≤ min r.lengthMs (lastMs r.samples)
    else
      ∀ m ∈ bursts r.config r.samples, m.start = lastMs r.samples →
        lastMs r.samples < r.lengthMs →
        ∃ m' ∈ bursts r.config r.samples, m'.start < lastMs r.samples ∧
          lastMs r.samples ≤ reach r.config m'

/-- What the windows of a run are clamped to. -/
def bound (source : VideoSource) : ℕ := source.durationMs.getD (lastMs r.samples)

variable {r}

theorem sourceUri_sourceAfter : r.sourceAfter.sourceUri = r.source.sourceUri := by
  unfold sourceAfter
  split <;> rfl

theorem mem_plannedWindows {source : VideoSource} (huri : source.sourceUri = r.source.sourceUri)
    {w : TriggerWindow} :
    w ∈ plannedWindows r.processor source ↔
      ∃ m ∈ bursts r.config r.samples, m.start < r.bound source ∧
        w = clamped r.config (r.bound source) m := by
  unfold plannedWindows bound effectiveDuration
  rw [huri]
  have hsamples : r.processor.sampleMotion r.source.sourceUri = r.samples := rfl
  have hconfig : r.processor.config = r.config := rfl
  simp only [hsamples, hconfig]
  cases source.durationMs with
  | some duration => exact mem_planMotionTriggers_some
  | none =>
      cases hmax : (r.samples.map MotionSample.timestampMs).max? with
      | some last =>
          simp only [Option.getD_none, lastMs, hmax, Option.getD_some]
          exact mem_planMotionTriggers_some
      | none =>
          have hnil : r.samples = [] := List.map_eq_nil_iff.mp (List.max?_eq_none_iff.mp hmax)
          rw [hnil]
          constructor
          · intro hw
            cases hw
          · rintro ⟨m, hm, -⟩
            cases hm

theorem start_lt_end_of_mem_plannedWindows {source : VideoSource}
    (huri : source.sourceUri = r.source.sourceUri) :
    ∀ w ∈ plannedWindows r.processor source, w.startMs < w.endMs := by
  intro w hw
  obtain ⟨m, -, hstart, rfl⟩ := (mem_plannedWindows huri).mp hw
  exact Nat.lt_min.mpr ⟨start_lt_reach _ m, hstart⟩

/-- A run of the scan goes through. -/
theorem process_ok {source : VideoSource} (huri : source.sourceUri = r.source.sourceUri)
    {ws : List TriggerWindow} {st : ScanStore}
    (h : Stored r.processor r.job r.source.videoId r.store.triggers ws st) :
    ∃ st', process r.processor b r.job r.source.videoId (fun _ => some source) st
        = .ok ((plannedWindows r.processor source).length, st') ∧
      Stored r.processor r.job r.source.videoId r.store.triggers
        (ws ++ plannedWindows r.processor source) st' ∧
      ((∀ w ∈ plannedWindows r.processor source, ∃ w' ∈ ws,
          windowKey r.job r.source.videoId w' = windowKey r.job r.source.videoId w) →
        st'.triggers = st.triggers) := by
  obtain ⟨st', hrun, hstored, hsame⟩ := foldlM_persistWindow (b := b) r.newId_injective
    r.unscanned (start_lt_end_of_mem_plannedWindows huri) h
  refine ⟨st', ?_, hstored, hsame⟩
  unfold process
  simp only [hrun, bind, Except.bind]

theorem stored_store (st : ScanStore) (h : st = r.store) :
    Stored r.processor r.job r.source.videoId r.store.triggers [] st := by
  subst h
  exact ⟨fun row hrow => Or.inl hrow, fun w hw => absurd hw List.not_mem_nil, r.unused⟩

theorem stored_first :
    Stored r.processor r.job r.source.videoId r.store.triggers
      (plannedWindows r.processor r.source) r.first := by
  obtain ⟨st', hrun, hstored, -⟩ := process_ok (r := r) rfl (stored_store r.store rfl)
  unfold first scan
  rw [hrun]
  exact hstored

theorem stored_second :
    Stored r.processor r.job r.source.videoId r.store.triggers
        (plannedWindows r.processor r.source ++ plannedWindows r.processor r.sourceAfter)
        r.second ∧
      ((∀ w ∈ plannedWindows r.processor r.sourceAfter,
          ∃ w' ∈ plannedWindows r.processor r.source,
          windowKey r.job r.source.videoId w' = windowKey r.job r.source.videoId w) →
        r.second.triggers = r.first.triggers) := by
  obtain ⟨st', hrun, hstored, hsame⟩ := process_ok sourceUri_sourceAfter (stored_first (r := r))
  unfold second scan
  rw [hrun]
  exact ⟨hstored, hsame⟩

/-- The second run adds nothing when it clamps every burst as the first did. -/
theorem idempotent_iff :
    (∀ row, row ∈ r.second.triggers.rows ↔ row ∈ r.first.triggers.rows) ↔
      ∀ m ∈ bursts r.config r.samples, m.start < r.bound r.sourceAfter →
        m.start < r.bound r.source ∧
          min (reach r.config m) (r.bound r.sourceAfter)
            = min (reach r.config m) (r.bound r.source) := by
  obtain ⟨hsecond, hsame⟩ := stored_second (r := r)
  constructor
  · intro h m hm hstart
    have hw : clamped r.config (r.bound r.sourceAfter) m
        ∈ plannedWindows r.processor r.sourceAfter :=
      (mem_plannedWindows sourceUri_sourceAfter).mpr ⟨m, hm, hstart, rfl⟩
    obtain ⟨row, hrow, hof⟩ := hsecond.held _ (List.mem_append_right _ hw)
    rcases stored_first.rows row ((h row).mp hrow) with hold | ⟨w', hw', hof'⟩
    · exact absurd hof.jobId (r.unscanned.noTrigger row hold)
    · obtain ⟨m', hm', hstart', rfl⟩ := (mem_plannedWindows rfl).mp hw'
      obtain ⟨heq, hend⟩ := windowKey_injective (hof.key.symm.trans hof'.key)
      obtain rfl : m = m' := burst_eq_of_start hm hm' heq
      exact ⟨hstart', hend⟩
  · intro h
    rw [hsame]
    · exact fun row => Iff.rfl
    · intro w hw
      obtain ⟨m, hm, hstart, rfl⟩ := (mem_plannedWindows sourceUri_sourceAfter).mp hw
      obtain ⟨hstart', hend⟩ := h m hm hstart
      refine ⟨_, (mem_plannedWindows rfl).mpr ⟨m, hm, hstart', rfl⟩, ?_⟩
      unfold clamped
      rw [hend]

/-- A time lies in a stored trigger when it lies in a window of one of the runs. -/
theorem covered_iff {t : ℕ} :
    (∃ row ∈ r.second.triggers.rows, row.analysisJobId = r.job ∧
        row.videoId = r.source.videoId ∧ row.triggerStartMs ≤ t ∧ (t : ℤ) ≤ row.triggerEndMs) ↔
      ∃ m ∈ bursts r.config r.samples, m.start ≤ t ∧ t ≤ reach r.config m ∧
        ((m.start < r.bound r.source ∧ t ≤ r.bound r.source) ∨
          (m.start < r.bound r.sourceAfter ∧ t ≤ r.bound r.sourceAfter)) := by
  obtain ⟨hsecond, -⟩ := stored_second (r := r)
  constructor
  · rintro ⟨row, hrow, hjob, -, hle, hge⟩
    rcases hsecond.rows row hrow with hold | ⟨w, hw, hof⟩
    · exact absurd hjob (r.unscanned.noTrigger row hold)
    · rw [hof.start, Nat.cast_le] at hle
      rw [hof.stop, Nat.cast_le] at hge
      rcases List.mem_append.mp hw with hw | hw
      · obtain ⟨m, hm, hstart, rfl⟩ := (mem_plannedWindows rfl).mp hw
        obtain ⟨hreach, hbound⟩ := Nat.le_min.mp hge
        exact ⟨m, hm, hle, hreach, Or.inl ⟨hstart, hbound⟩⟩
      · obtain ⟨m, hm, hstart, rfl⟩ := (mem_plannedWindows sourceUri_sourceAfter).mp hw
        obtain ⟨hreach, hbound⟩ := Nat.le_min.mp hge
        exact ⟨m, hm, hle, hreach, Or.inr ⟨hstart, hbound⟩⟩
  · rintro ⟨m, hm, hle, hreach, hclamp⟩
    have hwindow : ∃ d, m.start ≤ t ∧ t ≤ min (reach r.config m) d ∧ clamped r.config d m
        ∈ plannedWindows r.processor r.source ++ plannedWindows r.processor r.sourceAfter := by
      rcases hclamp with ⟨hstart, hbound⟩ | ⟨hstart, hbound⟩
      · exact ⟨_, hle, Nat.le_min.mpr ⟨hreach, hbound⟩, List.mem_append_left _
          ((mem_plannedWindows rfl).mpr ⟨m, hm, hstart, rfl⟩)⟩
      · exact ⟨_, hle, Nat.le_min.mpr ⟨hreach, hbound⟩, List.mem_append_right _
          ((mem_plannedWindows sourceUri_sourceAfter).mpr ⟨m, hm, hstart, rfl⟩)⟩
    obtain ⟨d, hstart, hend, hmem⟩ := hwindow
    obtain ⟨row, hrow, hof⟩ := hsecond.held _ hmem
    refine ⟨row, hrow, hof.jobId, hof.videoId, ?_, ?_⟩
    · rw [hof.start]
      exact Nat.cast_le.mpr hstart
    · rw [hof.stop]
      exact Nat.cast_le.mpr hend

/-- Clamped to the length of the video, the triggers cover its motion. -/
theorem covers_of_bound (h : r.bound r.sourceAfter = r.lengthMs) {s : MotionSample}
    (hs : s ∈ r.samples) (hlt : s.timestampMs < r.lengthMs)
    (hhot : r.config.threshold ≤ s.score) :
    ∃ row ∈ r.second.triggers.rows, row.analysisJobId = r.job ∧ row.videoId = r.source.videoId ∧
      row.triggerStartMs ≤ s.timestampMs ∧ s.timestampMs ≤ row.triggerEndMs := by
  obtain ⟨m, hm, hstart, hstop⟩ := exists_burst hs hhot
  rw [covered_iff, h]
  exact ⟨m, hm, hstart, hstop.trans (Nat.le_max_left _ _),
    Or.inr ⟨Nat.lt_of_le_of_lt hstart hlt, Nat.le_of_lt hlt⟩⟩

theorem timestampMs_le_lastMs {samples : List MotionSample} {s : MotionSample}
    (hs : s ∈ samples) : s.timestampMs ≤ lastMs samples := by
  have hmem := List.mem_map_of_mem (f := MotionSample.timestampMs) hs
  unfold lastMs
  cases hmax : (samples.map MotionSample.timestampMs).max? with
  | none =>
      rw [List.max?_eq_none_iff.mp hmax] at hmem
      cases hmem
  | some last => exact (List.max?_eq_some_iff.mp hmax).2 _ hmem

/-- The duration is known from the start. -/
theorem correct_of_known {duration : ℕ} (h : r.source.durationMs = some duration) :
    r.Correct := by
  have hlength : duration = r.lengthMs := r.known duration h
  have hbefore : r.bound r.source = r.lengthMs := by
    unfold bound
    rw [h]
    exact hlength
  have hafter : r.bound r.sourceAfter = r.lengthMs := by
    unfold sourceAfter
    split
    · rfl
    · exact hbefore
  refine ⟨idempotent_iff.mpr fun m _ hstart => ?_, fun s hs hlt hhot => ?_⟩
  · rw [hafter] at hstart ⊢
    rw [hbefore]
    exact ⟨hstart, rfl⟩
  · exact covers_of_bound hafter hs hlt hhot

/-- The probe stores the duration between the runs. -/
theorem correct_iff_of_probed (hunknown : r.source.durationMs = none) (hprobed : r.probed = true) :
    r.Correct ↔ r.lengthMs = lastMs r.samples ∨
      ∀ m ∈ bursts r.config r.samples, m.start < r.lengthMs →
        reach r.config m ≤ min r.lengthMs (lastMs r.samples) := by
  have hbefore : r.bound r.source = lastMs r.samples := by
    unfold bound
    rw [hunknown, Option.getD_none]
  have hafter : r.bound r.sourceAfter = r.lengthMs := by
    unfold sourceAfter
    rw [if_pos hprobed]
    rfl
  constructor
  · intro h
    by_cases hlast : r.lengthMs = lastMs r.samples
    · exact Or.inl hlast
    · refine Or.inr fun m hm hstart => ?_
      have hsame := idempotent_iff.mp h.idempotent m hm
      rw [hbefore, hafter] at hsame
      have hend := (hsame hstart).2
      omega
  · intro h
    refine ⟨idempotent_iff.mpr fun m hm hstart => ?_, fun s hs hlt hhot => ?_⟩
    · rw [hafter] at hstart ⊢
      rw [hbefore]
      have hreach := start_lt_reach r.config m
      rcases h with hlast | hall
      · exact ⟨hlast ▸ hstart, by rw [hlast]⟩
      · have hle := hall m hm hstart
        constructor <;> omega
    · exact covers_of_bound hafter hs hlt hhot

/-- The duration stays unknown. -/
theorem correct_iff_of_unprobed (hunknown : r.source.durationMs = none)
    (hprobed : r.probed = false) :
    r.Correct ↔ ∀ m ∈ bursts r.config r.samples, m.start = lastMs r.samples →
      lastMs r.samples < r.lengthMs →
      ∃ m' ∈ bursts r.config r.samples, m'.start < lastMs r.samples ∧
        lastMs r.samples ≤ reach r.config m' := by
  have hbefore : r.bound r.source = lastMs r.samples := by
    unfold bound
    rw [hunknown, Option.getD_none]
  have hafter : r.bound r.sourceAfter = lastMs r.samples := by
    unfold sourceAfter
    rw [hprobed]
    exact hbefore
  constructor
  · intro h m hm hstart hlength
    obtain ⟨s, hs, hhot, hat⟩ := exists_hot_of_burst hm
    have hlast : s.timestampMs = lastMs r.samples := hat.trans hstart
    have hcovered := covered_iff.mp (h.covers s hs (hlast ▸ hlength) hhot)
    rw [hbefore, hafter] at hcovered
    simp only [or_self] at hcovered
    obtain ⟨m', hm', -, hreach, hbound, -⟩ := hcovered
    exact ⟨m', hm', hbound, hlast ▸ hreach⟩
  · intro h
    refine ⟨idempotent_iff.mpr fun m hm hstart => ?_, fun s hs hlt hhot => ?_⟩
    · rw [hafter] at hstart ⊢
      rw [hbefore]
      exact ⟨hstart, rfl⟩
    · rw [covered_iff, hbefore, hafter]
      simp only [or_self]
      have hle : s.timestampMs ≤ lastMs r.samples := timestampMs_le_lastMs hs
      obtain ⟨m, hm, hstart, hstop⟩ := exists_burst hs hhot
      by_cases hlone : m.start = lastMs r.samples
      · -- the burst of the last sample is dropped
        have hat : s.timestampMs = lastMs r.samples := Nat.le_antisymm hle (hlone ▸ hstart)
        obtain ⟨m', hm', hlt', hreach⟩ := h m hm hlone (hat ▸ hlt)
        exact ⟨m', hm', by omega, hat ▸ hreach, hlt', hle⟩
      · exact ⟨m, hm, hstart, hstop.trans (Nat.le_max_left _ _), by omega, hle⟩

/-- The second run leaves the triggers of the first, and every sample in the
video at or above the threshold lies in one, exactly when the bursts are settled. -/
theorem idempotent_and_covers_iff (r : Redelivery b) : r.Correct ↔ r.Settled := by
  unfold Settled
  cases hduration : r.source.durationMs with
  | some duration =>
      constructor
      · intro _ hunknown
        cases hunknown
      · exact fun _ => correct_of_known hduration
  | none =>
      cases hprobed : r.probed with
      | true =>
          simpa using correct_iff_of_probed hduration hprobed
      | false =>
          simpa using correct_iff_of_unprobed hduration hprobed

end Redelivery

/-! ## The probe comes late -/

theorem numbered_injective : Function.Injective fun n : ℕ => "trigger_" ++ toString n := by
  intro m n h
  have hchars := congrArg String.toList h
  simp only [String.toList_append] at hchars
  have hdigits : Nat.toDigits 10 m = Nat.toDigits 10 n := by
    simpa only [Nat.toString_eq_repr, Nat.toList_repr] using List.append_cancel_left hchars
  exact toDigits_injective hdigits

/-- Three quarters of a second, all of it motion; the probe runs between the scans. -/
def lateProbe : Redelivery .sqlite where
  processor := {
    config := ⟨⟨3 / 20, 600, 800, by decide⟩, by decide +kernel⟩
    sampleMotion := fun _ => [⟨250, 1 / 2⟩, ⟨500, 1 / 2⟩]
    highFreqScaleTaskId := "scale_task_1"
    newId := fun n => "trigger_" ++ toString n }
  job := "job_1"
  source := {
    videoId := "video_1"
    sourceType := .file
    sourceUri := "/videos/1.mp4"
    cameraId := "cam_1"
    videoStartTime := .utc 0 }
  lengthMs := 750
  probed := true
  store := ⟨Keyed.Indexed.empty, 0⟩
  known := fun _ h => by cases h
  newId_injective := numbered_injective
  unused := fun _ _ _ hrow => absurd hrow List.not_mem_nil
  unscanned := ⟨fun _ hrow => absurd hrow List.not_mem_nil, fun _ hrow => absurd hrow List.not_mem_nil⟩

/-- The trigger that ended with the last sample is stored again with its end at
the end of the video. -/
theorem not_correct_lateProbe : ¬ lateProbe.Correct := by
  intro h
  have hends : lateProbe.first.triggers.rows.map HighFreqTrigger.triggerEndMs = [500] ∧
      lateProbe.second.triggers.rows.map HighFreqTrigger.triggerEndMs = [500, 750] := by
    decide +kernel
  have hmem : (750 : ℤ) ∈ lateProbe.second.triggers.rows.map HighFreqTrigger.triggerEndMs := by
    rw [hends.2]
    decide
  obtain ⟨row, hrow, hend⟩ := List.mem_map.mp hmem
  have hfirst := List.mem_map_of_mem (f := HighFreqTrigger.triggerEndMs)
    ((h.idempotent row).mp hrow)
  rw [hend, hends.1] at hfirst
  exact absurd hfirst (by decide)

end CctvMemory.Worker.Motion
