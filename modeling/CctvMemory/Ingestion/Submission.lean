import CctvMemory.Ingestion.Service
import CctvMemory.Library.Trace

/-!
# Repeated and changed submissions

Runs of submit requests, with the accepted ones and their answers written down.
A request has two anchors: its camera and start time, and its job key. The code
compares the stored source's uri with the request's, and nothing else.

* `submissions_are_idempotent`: one source, job, queue task and scale task per
  requested scale for every accepted request, and a conflict for every request
  that takes an anchor of another one, as long as a request that meets a source
  of its own uri repeats an accepted one, and one that brings a new source also
  brings a new job key.
* `key_reused_for_another_camera`: an answer that names another video's job.
-/

namespace CctvMemory.Ingestion

open Keyed (Indexed Table)
open CctvMemory.Authorization (Capability)
open CctvMemory.Provisioning (VideoSource)

/-! ## Accepted requests -/

/-- Camera and start time, as the unique constraint compares them. -/
def SubmitRequest.anchor (b : Backend) (q : SubmitRequest) : String × Iso.Text :=
  (q.cameraId, startKey b q.videoStartTime)

structure Ledger (b : Backend) where
  store : Store b
  accepted : List (SubmitRequest × SubmitResponse)
  breach : Prop

section Steps

variable {b : Backend} (cfg : IngestionConfig)

/-- The video a request would be answered with. -/
def videoFor (s : Store b) (env : SubmitEnv) (q : SubmitRequest) : String :=
  match s.sources.find? (q.anchor b) with
  | some source => source.videoId
  | none => env.videoId

/-- Two requests with these videos have an anchor in common. -/
def SharesAnchor (b : Backend) (p q : SubmitRequest) (videoOfP videoOfQ : String) : Prop :=
  p.anchor b = q.anchor b ∨ p.jobKey videoOfP = q.jobKey videoOfQ

/-- The request takes an anchor of an accepted one of another payload. -/
def Reuses (s : Ledger b) (env : SubmitEnv) (q : SubmitRequest) : Prop :=
  ∃ p resp, (p, resp) ∈ s.accepted ∧ p ≠ q ∧
    SharesAnchor b p q resp.videoId (videoFor s.store env q)

def Conflicts (result : Except StoreError SubmitResponse) : Prop :=
  ∃ message, result = .error (.idempotencyConflict message)

/-- Written down after a request: an anchor reused with another payload by a
caller who may submit, and not refused as a conflict with nothing changed, is a
breach. -/
def recorded (s : Ledger b) (env : SubmitEnv) (q : SubmitRequest) (principalId : String)
    (capabilities : List Capability) : Ledger b :=
  let result := handleSubmit b cfg env q principalId capabilities s.store
  { store := result.2
    accepted := match result.1 with
      | .ok resp => (q, resp) :: s.accepted
      | .error _ => s.accepted
    breach := s.breach ∨ (Capability.analysisSubmit ∈ capabilities ∧ Reuses s env q ∧
      ¬ (Conflicts result.1 ∧ result.2 = s.store)) }

structure Submission where
  env : SubmitEnv
  request : SubmitRequest
  principalId : String
  capabilities : List Capability

/-- Queue and scale tasks belong to stored jobs. -/
structure Owned (s : Store b) : Prop where
  tasks : ∀ t ∈ s.tasks.rows, ∃ job ∈ s.jobs.rows, job.analysisJobId = t.payload.analysisJobId
  scaleTasks : ∀ t ∈ s.scaleTasks.rows, ∃ job ∈ s.jobs.rows, job.analysisJobId = t.analysisJobId

/-- Any store whose tasks are owned, and nothing accepted yet. -/
def Fresh (s : Ledger b) : Prop := Owned s.store ∧ s.accepted = [] ∧ ¬ s.breach

def SubmitStep (s : Ledger b) (e : Submission) (s' : Ledger b) : Prop :=
  s' = recorded cfg s e.env e.request e.principalId e.capabilities

/-- A source of the request's uri was brought by the very same request; a
request with a new source has a job key that no job has. -/
def Regular (s : Ledger b) (e : Submission) : Prop :=
  Capability.analysisSubmit ∈ e.capabilities →
    match s.store.sources.find? (e.request.anchor b) with
    | some source => source.sourceUri ≠ e.request.sourceUri ∨
        ∃ resp, (e.request, resp) ∈ s.accepted
    | none => s.store.jobs.find? (e.request.jobKey e.env.videoId) = none

end Steps

/-! ## What is promised -/

/-- One source, one job, one queue task and one scale task per requested scale. -/
structure OneOfEach {b : Backend} (s : Store b) (q : SubmitRequest) (resp : SubmitResponse) :
    Prop where
  source : (s.sources.rows.filter fun v => decide (videoKey b v = q.anchor b)).length = 1
  job : (s.jobs.rows.filter fun j =>
    decide (j.idempotencyKey = q.jobKey resp.videoId)).length = 1
  task : (s.tasks.rows.filter fun t =>
    decide (t.payload.analysisJobId = resp.analysisJobId)).length = 1
  scaleTasks : ∀ scale, (s.scaleTasks.rows.filter fun t =>
    decide (t.jobScale = (resp.analysisJobId, scale))).length = if scale ∈ q.scales then 1 else 0

structure Idempotent {b : Backend} (s : Ledger b) : Prop where
  answers : ∀ q resp, (q, resp) ∈ s.accepted → ∃ job ∈ s.store.jobs.rows,
    job.analysisJobId = resp.analysisJobId ∧ job.videoId = resp.videoId
  single : ∀ q resp, (q, resp) ∈ s.accepted → OneOfEach s.store q resp
  kept : ¬ s.breach

/-! ## The rows of an accepted request -/

/-- Where an accepted request stands in the store. -/
structure Placed {b : Backend} (s : Store b) (q : SubmitRequest) (resp : SubmitResponse)
    (source : VideoSource) (job : AnalysisJob) : Prop where
  sourceRow : s.sources.find? (q.anchor b) = some source
  uri : source.sourceUri = q.sourceUri
  jobRow : s.jobs.find? (q.jobKey source.videoId) = some job
  video : job.videoId = source.videoId
  answer : resp = respondTo source job.analysisJobId
  task : (s.tasks.rows.filter fun t =>
    decide (t.payload.analysisJobId = job.analysisJobId)).length = 1
  scaleTasks : ∀ scale, (s.scaleTasks.rows.filter fun t =>
    decide (t.jobScale = (job.analysisJobId, scale))).length = if scale ∈ q.scales then 1 else 0

/-- Accepted requests have their rows, and no two of different payload share an
anchor. -/
structure Booked {b : Backend} (s : Ledger b) : Prop where
  placed : ∀ q resp, (q, resp) ∈ s.accepted → ∃ source job, Placed s.store q resp source job
  apart : ∀ p q rp rq, (p, rp) ∈ s.accepted → (q, rq) ∈ s.accepted →
    SharesAnchor b p q rp.videoId rq.videoId → p = q
  owned : Owned s.store
  kept : ¬ s.breach

section Proofs

variable {b : Backend} {cfg : IngestionConfig} {env : SubmitEnv} {q : SubmitRequest}
  {principalId : String} {capabilities : List Capability} {s s' : Store b}

theorem Placed.oneOfEach {resp : SubmitResponse} {source : VideoSource} {job : AnalysisJob}
    (h : Placed s q resp source job) : OneOfEach s q resp where
  source := congrArg List.length (Indexed.filter_eq_of_find? h.sourceRow)
  job := by
    rw [h.answer]
    exact congrArg List.length (Indexed.filter_eq_of_find? h.jobRow)
  task := by
    rw [h.answer]
    exact h.task
  scaleTasks := by
    rw [h.answer]
    exact h.scaleTasks

theorem Booked.idempotent {s : Ledger b} (h : Booked s) : Idempotent s where
  answers q resp hmem := by
    obtain ⟨source, job, hplaced⟩ := h.placed q resp hmem
    refine ⟨job, (Indexed.find?_eq_some_iff.mp hplaced.jobRow).1, ?_, ?_⟩
    · rw [hplaced.answer]
      rfl
    · rw [hplaced.answer]
      exact hplaced.video
  single q resp hmem := by
    obtain ⟨source, job, hplaced⟩ := h.placed q resp hmem
    exact hplaced.oneOfEach
  kept := h.kept

/-! ## What a request does -/

/-- A stored source of another uri is a conflict. -/
theorem submit_other_uri {source : VideoSource}
    (hfound : s.sources.find? (q.anchor b) = some source) (huri : source.sourceUri ≠ q.sourceUri)
    (hmay : Capability.analysisSubmit ∈ capabilities) :
    submit b cfg env q principalId capabilities s = .error (.idempotencyConflict
      "VideoSource exists for (camera_id, video_start_time) with different payload") := by
  have hconflict : (videoSources b).createOrGet b s.sources (q.source env.videoId)
      = .error (.idempotencyConflict
        "VideoSource exists for (camera_id, video_start_time) with different payload") := by
    unfold Repository.createOrGet
    rw [show (videoSources b).key (q.source env.videoId) = q.anchor b from rfl, hfound]
    have hmessage : (videoSources b).conflict source (q.source env.videoId) = some
        "VideoSource exists for (camera_id, video_start_time) with different payload" :=
      if_pos huri
    dsimp only
    rw [hmessage]
  unfold submit
  rw [if_pos hmay, hconflict]
  rfl

/-- A request whose rows are there is answered from them. -/
theorem submit_placed {resp : SubmitResponse} {source : VideoSource} {job : AnalysisJob}
    (h : Placed s q resp source job) (hmay : Capability.analysisSubmit ∈ capabilities) :
    submit b cfg env q principalId capabilities s = .ok (resp, s) := by
  have hget : (videoSources b).createOrGet b s.sources (q.source env.videoId)
      = .ok (source, s.sources) :=
    Repository.createOrGet_of_found h.sourceRow (if_neg fun hne => hne h.uri)
  unfold submit
  rw [if_pos hmay, hget]
  dsimp only [bind, Except.bind]
  rw [h.jobRow, h.answer]
  rfl

/-! ## A new source and a new job -/

theorem createScaleTasks_rows {rows : List AnalysisScaleTask}
    {t t' : Indexed AnalysisScaleTask AnalysisScaleTask.scaleTaskId AnalysisScaleTask.jobScale}
    (h : createScaleTasks b rows t = .ok t') : t'.rows = t.rows ++ rows := by
  induction rows generalizing t with
  | nil =>
      cases h
      exact (List.append_nil _).symm
  | cons row rows ih =>
      unfold createScaleTasks at h
      split at h
      · rename_i u hins
        rw [ih h, (Indexed.insert?_eq_some_iff.mp hins).2.2, List.append_assoc]
        rfl
      · cases h

theorem enqueueTask_rows {tasks tasks' : Table QueueTask QueueTask.taskId} {task : QueueTask}
    (h : enqueueTask tasks task = .ok tasks') : tasks'.rows = tasks.rows ++ [task] := by
  unfold enqueueTask at h
  split at h
  · rename_i u hins
    cases h
    exact (Table.insert?_eq_some_iff.mp hins).2
  · cases h

theorem createJob_free
    {jobs jobs' : Indexed AnalysisJob AnalysisJob.analysisJobId AnalysisJob.idempotencyKey}
    {job job' : AnalysisJob} (hfree : jobs.find? job.idempotencyKey = none)
    (h : createJob b jobs job = .ok (job', jobs')) :
    job' = job ∧ jobs.insert? job = some jobs' := by
  unfold createJob at h
  rw [hfree] at h
  dsimp only at h
  split at h
  · rename_i u hins
    cases h
    exact ⟨rfl, hins⟩
  · cases h

/-- What a request adds that brings a new source and a new job. -/
structure Adds (cfg : IngestionConfig) (env : SubmitEnv) (q : SubmitRequest) (s s' : Store b) :
    Prop where
  source : s.sources.insert? (q.source env.videoId) = some s'.sources
  job : s.jobs.insert? (newJob cfg env q env.videoId) = some s'.jobs
  scaleTasks : s'.scaleTasks.rows = s.scaleTasks.rows ++ scaleTaskRows env q env.jobId
  task : s'.tasks.rows = s.tasks.rows ++ [analyzeTask env env.jobId env.videoId]

theorem submit_new {resp : SubmitResponse} (hsource : s.sources.find? (q.anchor b) = none)
    (hjob : s.jobs.find? (q.jobKey env.videoId) = none)
    (h : submit b cfg env q principalId capabilities s = .ok (resp, s')) :
    resp = respondTo (q.source env.videoId) env.jobId ∧ Adds cfg env q s s' := by
  unfold submit at h
  split at h
  · obtain ⟨found, hfound, h⟩ := Act.ok_of_bind h
    unfold Repository.createOrGet at hfound
    rw [show (videoSources b).key (q.source env.videoId) = q.anchor b from rfl, hsource] at hfound
    dsimp only at hfound
    split at hfound
    · rename_i sources hinsert
      cases hfound
      rw [show (q.source env.videoId).videoId = env.videoId from rfl] at h
      dsimp only at h
      rw [hjob] at h
      unfold createAnalysis at h
      obtain ⟨created, hcreated, h⟩ := Act.ok_of_bind h
      obtain ⟨scaleTasks, hscales, h⟩ := Act.ok_of_bind h
      obtain ⟨tasks, htasks, h⟩ := Act.ok_of_bind h
      cases h
      have hfree : s.jobs.find? (newJob cfg env q env.videoId).idempotencyKey = none := hjob
      obtain ⟨hnew, hins⟩ := createJob_free hfree hcreated
      rw [hnew] at hscales htasks ⊢
      exact ⟨rfl, Repository.insert_ok hinsert, hins, createScaleTasks_rows hscales,
        enqueueTask_rows htasks⟩
    · cases hfound
  · cases h

/-- Nothing else is owned by a job that is only now inserted. -/
theorem Adds.job_new (h : Adds cfg env q s s') {job : AnalysisJob} (hjob : job ∈ s.jobs.rows) :
    job.analysisJobId ≠ env.jobId := by
  intro heq
  have hfree := (Indexed.insert?_eq_some_iff.mp h.job).1
  exact Table.get?_eq_none_iff.mp hfree job hjob heq

theorem Adds.jobs_rows (h : Adds cfg env q s s') :
    s'.jobs.rows = s.jobs.rows ++ [newJob cfg env q env.videoId] :=
  (Indexed.insert?_eq_some_iff.mp h.job).2.2

/-- The scale task rows of a job, scale by scale. -/
theorem filter_scaleTaskRows (jobId : String) (scale : AnalysisScale) :
    ((scaleTaskRows env q jobId).filter fun t => decide (t.jobScale = (jobId, scale))).length
      = if scale ∈ q.scales then 1 else 0 := by
  unfold scaleTaskRows SubmitRequest.scales
  split
  · cases scale <;> simp [AnalysisScaleTask.jobScale]
  · cases scale <;> simp [AnalysisScaleTask.jobScale]

/-- The rows of an accepted request stay the only ones. -/
theorem Placed.keep {p : SubmitRequest} {resp : SubmitResponse} {source : VideoSource}
    {job : AnalysisJob} (h : Placed s p resp source job) (hadds : Adds cfg env q s s') :
    Placed s' p resp source job := by
  have hsourceFree := (Indexed.insert?_eq_some_iff.mp hadds.source).2.1
  have hjobFree := (Indexed.insert?_eq_some_iff.mp hadds.job).2.1
  have hnew := hadds.job_new (Indexed.find?_eq_some_iff.mp h.jobRow).1
  constructor
  · rw [Indexed.find?_insert? hadds.source, if_neg]
    · exact h.sourceRow
    · intro heq
      rw [heq, h.sourceRow] at hsourceFree
      cases hsourceFree
  · exact h.uri
  · rw [Indexed.find?_insert? hadds.job, if_neg]
    · exact h.jobRow
    · intro heq
      rw [heq, h.jobRow] at hjobFree
      cases hjobFree
  · exact h.video
  · exact h.answer
  · rw [hadds.task, List.filter_append, List.length_append, h.task, List.filter_cons_of_neg]
    · rfl
    · intro heq
      exact hnew (of_decide_eq_true heq).symm
  · intro scale
    rw [hadds.scaleTasks, List.filter_append, List.length_append, h.scaleTasks scale]
    have hnone : ((scaleTaskRows env q env.jobId).filter fun t =>
        decide (t.jobScale = (job.analysisJobId, scale))) = [] := by
      rw [List.filter_eq_nil_iff]
      intro t ht heq
      obtain ⟨scale', -, rfl⟩ := List.mem_map.mp ht
      exact hnew (congrArg Prod.fst (of_decide_eq_true heq)).symm
    rw [hnone]
    rfl

/-- And those of the new one are there. -/
theorem Adds.placed (h : Adds cfg env q s s') (howned : Owned s) :
    Placed s' q (respondTo (q.source env.videoId) env.jobId) (q.source env.videoId)
      (newJob cfg env q env.videoId) := by
  constructor
  · rw [Indexed.find?_insert? h.source]
    exact if_pos rfl
  · rfl
  · rw [Indexed.find?_insert? h.job]
    exact if_pos rfl
  · rfl
  · rfl
  · rw [h.task, List.filter_append, List.length_append]
    have hnone : (s.tasks.rows.filter fun t =>
        decide (t.payload.analysisJobId = env.jobId)) = [] := by
      rw [List.filter_eq_nil_iff]
      intro t ht heq
      obtain ⟨job, hjob, hid⟩ := howned.tasks t ht
      exact h.job_new hjob (hid.trans (of_decide_eq_true heq))
    show (s.tasks.rows.filter fun t => decide (t.payload.analysisJobId = env.jobId)).length + _ = 1
    rw [hnone]
    simp [newJob, analyzeTask]
  · intro scale
    rw [h.scaleTasks, List.filter_append, List.length_append]
    have hnone : (s.scaleTasks.rows.filter fun t =>
        decide (t.jobScale = (env.jobId, scale))) = [] := by
      rw [List.filter_eq_nil_iff]
      intro t ht heq
      obtain ⟨job, hjob, hid⟩ := howned.scaleTasks t ht
      exact h.job_new hjob (hid.trans (congrArg Prod.fst (of_decide_eq_true heq)))
    show (s.scaleTasks.rows.filter fun t => decide (t.jobScale = (env.jobId, scale))).length
      + ((scaleTaskRows env q env.jobId).filter fun t =>
        decide (t.jobScale = (env.jobId, scale))).length = _
    rw [hnone, filter_scaleTaskRows]
    exact Nat.zero_add _

theorem Adds.owned (h : Adds cfg env q s s') (howned : Owned s) : Owned s' := by
  constructor
  · intro t ht
    rw [h.task, List.mem_append, List.mem_singleton] at ht
    rw [h.jobs_rows]
    rcases ht with ht | rfl
    · obtain ⟨job, hmem, hid⟩ := howned.tasks t ht
      exact ⟨job, List.mem_append_left _ hmem, hid⟩
    · exact ⟨_, List.mem_append_right _ (List.mem_singleton_self _), rfl⟩
  · intro t ht
    rw [h.scaleTasks, List.mem_append] at ht
    rw [h.jobs_rows]
    rcases ht with ht | ht
    · obtain ⟨job, hmem, hid⟩ := howned.scaleTasks t ht
      exact ⟨job, List.mem_append_left _ hmem, hid⟩
    · obtain ⟨scale, -, rfl⟩ := List.mem_map.mp ht
      exact ⟨_, List.mem_append_right _ (List.mem_singleton_self _), rfl⟩

end Proofs

/-! ## Runs -/

section Runs

variable {b : Backend} {cfg : IngestionConfig} {s s' : Ledger b} {env : SubmitEnv}
  {q : SubmitRequest} {principalId : String} {capabilities : List Capability}

theorem Booked.fresh (h : Fresh s) : Booked s := by
  obtain ⟨howned, haccepted, hbreach⟩ := h
  constructor
  · intro q resp hmem
    rw [haccepted] at hmem
    cases hmem
  · intro p q rp rq hmem
    rw [haccepted] at hmem
    cases hmem
  · exact howned
  · exact hbreach

/-- A request that meets neither its source nor its job takes nobody's anchor. -/
theorem Booked.shares_nothing (h : Booked s) {p : SubmitRequest} {rp : SubmitResponse}
    (hsource : s.store.sources.find? (q.anchor b) = none)
    (hjob : s.store.jobs.find? (q.jobKey env.videoId) = none) (hmem : (p, rp) ∈ s.accepted) :
    ¬ SharesAnchor b p q rp.videoId env.videoId := by
  obtain ⟨source, job, hplaced⟩ := h.placed p rp hmem
  rintro (hanchor | hkey)
  · rw [← hanchor, hplaced.sourceRow] at hsource
    cases hsource
  · rw [hplaced.answer] at hkey
    rw [← hkey] at hjob
    have hrow := hplaced.jobRow
    rw [show source.videoId = (respondTo source job.analysisJobId).videoId from rfl, hjob] at hrow
    cases hrow

/-- A request that changes nothing and is refused. -/
theorem Booked.refused (h : Booked s) {e : StoreError}
    (hresult : submit b cfg env q principalId capabilities s.store = .error e)
    (hkept : Capability.analysisSubmit ∈ capabilities → Reuses s env q →
      ∃ message, e = .idempotencyConflict message) :
    Booked (recorded cfg s env q principalId capabilities) := by
  unfold recorded handleSubmit
  rw [hresult]
  refine ⟨h.placed, h.apart, h.owned, ?_⟩
  rintro (hbreach | ⟨hmay, hreuses, hnot⟩)
  · exact h.kept hbreach
  · obtain ⟨message, rfl⟩ := hkept hmay hreuses
    exact hnot ⟨⟨message, rfl⟩, rfl⟩

/-- A repeated request is answered as before and changes nothing. -/
theorem Booked.repeated (h : Booked s) {resp : SubmitResponse} (hmem : (q, resp) ∈ s.accepted)
    (hmay : Capability.analysisSubmit ∈ capabilities) :
    Booked (recorded cfg s env q principalId capabilities) := by
  obtain ⟨source, job, hplaced⟩ := h.placed q resp hmem
  have hresult : submit b cfg env q principalId capabilities s.store = .ok (resp, s.store) :=
    submit_placed hplaced hmay
  unfold recorded handleSubmit
  rw [hresult]
  have hold : ∀ p rp, (p, rp) ∈ (q, resp) :: s.accepted → (p, rp) ∈ s.accepted := by
    intro p rp hcons
    rcases List.mem_cons.mp hcons with heq | hcons
    · rw [heq]
      exact hmem
    · exact hcons
  constructor
  · exact fun p rp hp => h.placed p rp (hold p rp hp)
  · exact fun p q' rp rq hp hq' => h.apart p q' rp rq (hold p rp hp) (hold q' rq hq')
  · exact h.owned
  · rintro (hbreach | ⟨-, ⟨p, rp, hp, hne, hshares⟩, -⟩)
    · exact h.kept hbreach
    · apply hne (h.apart p q rp resp hp hmem _)
      unfold videoFor at hshares
      rw [hplaced.sourceRow] at hshares
      rw [hplaced.answer]
      exact hshares

/-- A request with a new source and a new job key. -/
theorem Booked.added (h : Booked s) (hsource : s.store.sources.find? (q.anchor b) = none)
    (hjob : s.store.jobs.find? (q.jobKey env.videoId) = none) :
    Booked (recorded cfg s env q principalId capabilities) := by
  have hreuses : ¬ Reuses s env q := by
    rintro ⟨p, rp, hp, -, hshares⟩
    unfold videoFor at hshares
    rw [hsource] at hshares
    exact h.shares_nothing hsource hjob hp hshares
  cases hresult : submit b cfg env q principalId capabilities s.store with
  | error e => exact h.refused hresult fun _ hr => absurd hr hreuses
  | ok r =>
      obtain ⟨resp, store'⟩ := r
      obtain ⟨rfl, hadds⟩ := submit_new hsource hjob hresult
      unfold recorded handleSubmit
      rw [hresult]
      constructor
      · intro p rp hp
        rcases List.mem_cons.mp hp with heq | hp
        · cases heq
          exact ⟨_, _, hadds.placed h.owned⟩
        · obtain ⟨source, job, hplaced⟩ := h.placed p rp hp
          exact ⟨source, job, hplaced.keep hadds⟩
      · intro p p' rp rp' hp hp' hshares
        rcases List.mem_cons.mp hp with heq | hp
        · rcases List.mem_cons.mp hp' with heq' | hp'
          · cases heq
            cases heq'
            rfl
          · cases heq
            exfalso
            apply h.shares_nothing hsource hjob hp'
            exact hshares.imp Eq.symm Eq.symm
        · rcases List.mem_cons.mp hp' with heq' | hp'
          · cases heq'
            exact absurd hshares (h.shares_nothing hsource hjob hp)
          · exact h.apart p p' rp rp' hp hp' hshares
      · exact hadds.owned h.owned
      · rintro (hbreach | ⟨-, hr, -⟩)
        · exact h.kept hbreach
        · exact hreuses hr

theorem Booked.step (h : Booked s) {e : Submission} (hstep : SubmitStep cfg s e s')
    (hregular : Regular s e) : Booked s' := by
  subst hstep
  by_cases hmay : Capability.analysisSubmit ∈ e.capabilities
  · have hcase := hregular hmay
    cases hsource : s.store.sources.find? (e.request.anchor b) with
    | some source =>
        rw [hsource] at hcase
        rcases hcase with huri | ⟨resp, hmem⟩
        · exact h.refused (submit_other_uri hsource huri hmay) fun _ _ => ⟨_, rfl⟩
        · exact h.repeated hmem hmay
    | none =>
        rw [hsource] at hcase
        exact h.added hsource hcase
  · have hdenied : submit b cfg e.env e.request e.principalId e.capabilities s.store
        = .error (.capabilityDenied "analysis.submit required") := if_neg hmay
    exact h.refused hdenied fun hmay' => absurd hmay' hmay

theorem Regular.of_repeat {e : Submission} {source : VideoSource} {resp : SubmitResponse}
    (hsource : s.store.sources.find? (e.request.anchor b) = some source)
    (hmem : (e.request, resp) ∈ s.accepted) : Regular s e := by
  unfold Regular
  intro _
  rw [hsource]
  exact Or.inr ⟨resp, hmem⟩

/-- In every run of regular requests, from any store: every answer names a
job of its video, every accepted request has its rows exactly once, and every
changed repeat was refused as a conflict and changed nothing. -/
theorem submissions_are_idempotent {es : List Submission}
    (h : Trace.Run Fresh (fun s e s' => SubmitStep cfg s e s' ∧ Regular s e) es s) :
    Idempotent s := by
  have hbooked : Booked s := by
    apply Trace.Run.invariant_of_state (p := fun _ => True) _ _ h
    · exact fun _ _ => trivial
    · exact fun s hfresh => Booked.fresh hfresh
    · intro s e t hs _ hstep
      exact hs.step hstep.1 hstep.2
  exact hbooked.idempotent

end Runs

/-! ## A job key used twice -/

def lobbyRequest : SubmitRequest where
  sourceType := .file
  sourceUri := "/data/videos/lobby.mp4"
  cameraId := "cam_lobby_01"
  videoStartTime := Iso.DateTime.utc 0
  idempotencyKey := some "upload-1"

def gateRequest : SubmitRequest :=
  { lobbyRequest with
    sourceUri := "/data/videos/gate.mp4"
    cameraId := "cam_gate_01" }

def defaultIngestion : IngestionConfig := ⟨"mock-vlm-v1", "prompt-v1", "pipeline-v1"⟩

/-- A submission that draws the ids with this suffix. -/
def submission (suffix : String) (q : SubmitRequest) : Submission where
  env := ⟨0, "video_" ++ suffix, "job_" ++ suffix, fun scale => scale.value ++ "_" ++ suffix,
    "task_" ++ suffix⟩
  request := q
  principalId := "user_operator"
  capabilities := [.analysisSubmit]

def emptyLedger : Ledger .sqlite :=
  ⟨⟨Indexed.empty, Indexed.empty, Indexed.empty, Table.empty, []⟩, [], False⟩

def submitted (s : Ledger .sqlite) (e : Submission) : Ledger .sqlite :=
  recorded defaultIngestion s e.env e.request e.principalId e.capabilities

theorem fresh_emptyLedger : Fresh emptyLedger :=
  ⟨⟨fun _ ht => (by cases ht), fun _ ht => (by cases ht)⟩, rfl, id⟩

/-- The gate's video under the lobby's job key: the answer names the lobby's job
with the gate's video, and the gate's source is stored. -/
theorem key_reused_for_another_camera : ∃ (es : List Submission) (s : Ledger .sqlite),
    Trace.Run Fresh (SubmitStep defaultIngestion) es s ∧
      (gateRequest, ⟨"video_b", "pending", "job_a", true⟩) ∈ s.accepted ∧
      (s.store.sources.rows.map VideoSource.videoId) = ["video_a", "video_b"] ∧
      ¬ Idempotent s := by
  have hfirst := (Trace.Run.start fresh_emptyLedger).next
    (show SubmitStep defaultIngestion emptyLedger (submission "a" lobbyRequest) _ from rfl)
  have hsecond := hfirst.next
    (show SubmitStep defaultIngestion _ (submission "b" gateRequest) _ from rfl)
  have hmem : (gateRequest, ⟨"video_b", "pending", "job_a", true⟩) ∈
      (submitted (submitted emptyLedger (submission "a" lobbyRequest))
        (submission "b" gateRequest)).accepted := by
    decide +kernel
  have hjobs : ∀ job ∈ (submitted (submitted emptyLedger (submission "a" lobbyRequest))
      (submission "b" gateRequest)).store.jobs.rows, job.videoId ≠ "video_b" := by
    decide +kernel
  refine ⟨_, _, hsecond, hmem, by decide +kernel, ?_⟩
  intro hidempotent
  obtain ⟨job, hjob, -, hvideo⟩ := hidempotent.answers _ _ hmem
  exact hjobs job hjob hvideo

/-- The lobby's request twice. -/
theorem lobby_submitted_once : ∃ (es : List Submission) (s : Ledger .sqlite),
    Trace.Run Fresh (fun s e s' => SubmitStep defaultIngestion s e s' ∧ Regular s e) es s ∧
      s.accepted.map Prod.fst = [lobbyRequest, lobbyRequest] ∧ Idempotent s := by
  have hfirst : Trace.Run Fresh (fun s e s' => SubmitStep defaultIngestion s e s' ∧ Regular s e)
      _ (submitted emptyLedger (submission "a" lobbyRequest)) :=
    (Trace.Run.start fresh_emptyLedger).next ⟨rfl, fun _ => rfl⟩
  have hsource : (submitted emptyLedger (submission "a" lobbyRequest)).store.sources.find?
      (lobbyRequest.anchor .sqlite) = some (lobbyRequest.source "video_a") := by
    decide +kernel
  have hsecond : Trace.Run Fresh (fun s e s' => SubmitStep defaultIngestion s e s' ∧ Regular s e)
      [submission "b" lobbyRequest, submission "a" lobbyRequest]
      (submitted (submitted emptyLedger (submission "a" lobbyRequest))
        (submission "b" lobbyRequest)) := by
    apply hfirst.next
    have hmem : (lobbyRequest, ⟨"video_a", "pending", "job_a", true⟩) ∈
        (submitted emptyLedger (submission "a" lobbyRequest)).accepted := by
      decide +kernel
    exact ⟨rfl, Regular.of_repeat hsource hmem⟩
  exact ⟨_, _, hsecond, by decide +kernel, submissions_are_idempotent hsecond⟩

end CctvMemory.Ingestion
