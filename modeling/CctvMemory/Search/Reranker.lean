import CctvMemory.Library.Json
import CctvMemory.Search.RankOrder
import CctvMemory.Worker.Retry
import Mathlib.Order.WithBot

/-!
# The cross-encoder and its provider

`SiliconFlowReranker` asks a provider for scores and `_apply_cross_encoder` sorts
the head of a ranking by them. The replies are whatever the provider sends, one for
each attempt: nothing, another status, a body that is not JSON, or any JSON document,
in which numbers are as large as they are written.

* `post_cases`, `requestFrom_cases`: which reply is parsed.
* `readResults_cases`: what is read of it.
* `merged_iff`: the stage merges every reply but the ones that hold an integer no
  float can hold, or brackets deeper than the reader can follow.
-/

namespace CctvMemory.Search

open JsonText (Value)
open CctvMemory.Publication (ObservationRecord)
open CctvMemory.Worker (floatOverflow roundTo)

/-! ## Numbers -/

/-- The floats but `nan`, with both infinities. -/
abbrev Double := WithBot (WithTop ℚ)

/-- The integer the float of `n` stands for: 53 bits, ties to even. -/
def roundBits (n : ℕ) : ℕ :=
  let unit := 2 ^ (Nat.log2 n - 52)
  let below := n / unit
  let rest := 2 * (n % unit)
  if unit < rest ∨ unit = rest ∧ below % 2 = 1 then (below + 1) * unit else below * unit

/-- `round(x, 6)`, up to rounding. -/
def round6 (x : Double) : Double := x.map (WithTop.map (roundTo 6))

/-- A number of a JSON document: an integer, or what the float of a fraction is. -/
inductive Number where
  | int (n : ℤ)
  | float (x : Double)
deriving DecidableEq

/-- `float(n)` does not overflow. -/
def Number.Fits : Number → Prop
  | .int n => n.natAbs < floatOverflow
  | .float _ => True

instance (n : Number) : Decidable n.Fits := by
  cases n <;> unfold Number.Fits <;> infer_instance

def Number.toDouble : Number → Double
  | .int n => (((n.sign * roundBits n.natAbs : ℤ) : ℚ) : WithTop ℚ)
  | .float x => x

/-! ## Errors and replies -/

inductive Raised where
  | rerankerError (message : String)
  | overflowError (message : String)
  | recursionError (message : String)
deriving DecidableEq

inductive ReadError where
  | valueError
  | recursionError
deriving DecidableEq

inductive Body where
  /-- Bytes that are not JSON. -/
  | malformed
  | json (document : Value Number)

/-- What an attempt to reach the provider ends with. -/
inductive Reply where
  | timeout
  | transportError (name : String)
  | response (status : ℕ) (body : Body)

/-- More digits than `int` reads. -/
def Number.tooLong : Number → Bool
  | .int n => decide (10 ^ 4300 ≤ n.natAbs)
  | .float _ => false

mutual

/-- What `json.loads` raises on its way through a document whose brackets may be nested
to a depth. -/
def scan : ℕ → Value Number → Except ReadError Unit
  | _, .num n => if n.tooLong then .error .valueError else .ok ()
  | 0, .arr _ => .error .recursionError
  | 0, .obj _ => .error .recursionError
  | depth + 1, .arr items => scanItems depth items
  | depth + 1, .obj members => scanMembers depth members
  | _, _ => .ok ()

def scanItems : ℕ → List (Value Number) → Except ReadError Unit
  | _, [] => .ok ()
  | depth, v :: vs => do
    scan depth v
    scanItems depth vs

def scanMembers : ℕ → List (String × Value Number) → Except ReadError Unit
  | _, [] => .ok ()
  | depth, (_, v) :: ms => do
    scan depth v
    scanMembers depth ms

end

/-- `response.json()`. -/
def responseJson (depth : ℕ) : Body → Except ReadError (Value Number)
  | .malformed => .error .valueError
  | .json document => do
    scan depth document
    pure document

/-! ## The adapter -/

structure SiliconFlowReranker where
  modelId : String
  maxRetries : ℕ
  /-- How deep the reader can follow nested brackets. -/
  depth : ℕ

structure RerankScore where
  recordId : String
  score : Double
deriving DecidableEq

/-- `isinstance(value, int)`, which `True` and `False` are too. -/
def asInt : Value Number → Option ℤ
  | .num (.int n) => some n
  | .bool b => some (if b then 1 else 0)
  | _ => none

/-- `isinstance(value, (int, float))`. -/
def asNumber : Value Number → Option Number
  | .num n => some n
  | .bool b => some (.int (if b then 1 else 0))
  | _ => none

/-- `item.get("relevance_score", item.get("score"))`. -/
def scoreField (item : Value Number) : Option (Value Number) :=
  match item.get? "relevance_score" with
  | some v => some v
  | none => item.get? "score"

/-- `float(score)`. -/
def Number.float? (n : Number) : Except Raised Double :=
  if n.Fits then .ok n.toDouble
  else .error (.overflowError "int too large to convert to float")

def readResult (item : Value Number) : Except Raised (ℤ × Double) :=
  match item with
  | .obj _ =>
      match (item.get? "index").bind asInt, (scoreField item).bind asNumber with
      | some index, some score => do
        let x ← score.float?
        pure (index, x)
      | _, _ => .error (.rerankerError "unexpected rerank response: bad index/score")
  | _ => .error (.rerankerError "unexpected rerank response: result not an object")

/-- The loop over the results; `byIndex` is the dictionary, its newest entry first. -/
def readResults : List (Value Number) → List (ℤ × Double) → Except Raised (List (ℤ × Double))
  | [], byIndex => .ok byIndex
  | item :: items, byIndex => do
    let entry ← readResult item
    readResults items (entry :: byIndex)

namespace SiliconFlowReranker

variable (reranker : SiliconFlowReranker)

def post (reply : Reply) : Except Raised (Value Number) :=
  match reply with
  | .timeout => .error (.rerankerError "rerank request timed out")
  | .transportError name => .error (.rerankerError ("rerank request failed: " ++ name))
  | .response status body =>
      if status ≠ 200 then
        .error (.rerankerError ("rerank provider returned status " ++ toString status))
      else
        match responseJson reranker.depth body with
        | .error .valueError => .error (.rerankerError "rerank provider returned non-JSON body")
        | .error .recursionError =>
            .error (.recursionError "maximum recursion depth exceeded while decoding JSON")
        | .ok (.obj members) => .ok (.obj members)
        | .ok _ => .error (.rerankerError "rerank provider returned unexpected JSON type")

/-- The attempts from `attempt` on, with `remaining` retries left. -/
def requestFrom (replies : ℕ → Reply) : ℕ → ℕ → Except Raised (Value Number)
  | 0, attempt => reranker.post (replies attempt)
  | remaining + 1, attempt =>
      match reranker.post (replies attempt) with
      | .error (.rerankerError _) => requestFrom replies remaining (attempt + 1)
      | result => result

def request (replies : ℕ → Reply) : Except Raised (Value Number) :=
  reranker.requestFrom replies reranker.maxRetries 0

def parse (body : Value Number) (documents : List RerankDocument) :
    Except Raised (List RerankScore) :=
  match body.get? "results" with
  | some (.arr results) => do
    let byIndex ← readResults results []
    pure (documents.zipIdx.map fun p => ⟨p.1.recordId, (byIndex.lookup (p.2 : ℤ)).getD 0⟩)
  | _ => .error (.rerankerError "unexpected rerank response: missing 'results' array")

def rerank (replies : ℕ → Reply) (documents : List RerankDocument) :
    Except Raised (List RerankScore) :=
  if documents = [] then .ok []
  else do
    let body ← reranker.request replies
    parse body documents

end SiliconFlowReranker

/-! ## The stage -/

inductive DetailValue where
  | null
  | number (x : Double)
  | text (s : String)
deriving DecidableEq

/-- A ranked record with its `score_detail`. -/
structure RankedEntry where
  recordId : String
  score : Double
  detail : List (String × DetailValue)
deriving DecidableEq

/-- By decreasing score and then record id. -/
def entryLe (a b : RankedEntry) : Bool :=
  decide (b.score < a.score) || (decide (a.score = b.score) && decide (a.recordId ≤ b.recordId))

/-- The entry under the score it was given. -/
def RankedEntry.rescored (e : RankedEntry) (modelId : String) (score : Double) : RankedEntry where
  recordId := e.recordId
  score := score
  detail := dictSet "prefusion_score" (.number (round6 e.score))
    (dictSet "rerank_model" (.text modelId)
      (dictSet "rerank_score" (.number (round6 score)) e.detail))

/-- `_apply_cross_encoder` with the provider's adapter. -/
def mergeReranked (reranker : SiliconFlowReranker) (cfg : SearchConfig) (replies : ℕ → Reply)
    (ranked : List RankedEntry) (records : List ObservationRecord) (queryText : Option String) :
    Except Raised (List RankedEntry) :=
  match cfg.rerankerEnabled, queryText with
  | true, some query =>
      if query = "" ∨ ranked = [] then .ok ranked
      else
        let textById := dictOf (records.map fun r => (r.recordId, r.staticDescriptionText))
        let head := sliceTo cfg.rerankTopN ranked
        let tail := sliceFrom cfg.rerankTopN ranked
        let documents := head.map fun e =>
          (⟨e.recordId, (textById.lookup e.recordId).getD ""⟩ : RerankDocument)
        match reranker.rerank replies documents with
        | .error (.rerankerError _) => .ok ranked
        | .error e => .error e
        | .ok scores =>
            let scoreById := dictOf (scores.map fun s => (s.recordId, s.score))
            .ok ((head.map fun e =>
              e.rescored reranker.modelId ((scoreById.lookup e.recordId).getD 0)).mergeSort entryLe
                ++ tail)
  | _, _ => .ok ranked

/-! ## What the provider said -/

/-- A reply of status 200 with a JSON object. -/
def Reply.Holds (depth : ℕ) (reply : Reply) (document : Value Number) : Prop :=
  reply = .response 200 (.json document) ∧ scan depth document = .ok () ∧
    ∃ members, document = .obj members

/-- A reply of status 200 whose brackets the reader cannot follow. -/
def Reply.TooDeep (depth : ℕ) (reply : Reply) : Prop :=
  ∃ document, reply = .response 200 (.json document) ∧
    scan depth document = .error .recursionError

/-- After any other reply the provider is asked again. -/
def Reply.PassedOver (depth : ℕ) (reply : Reply) : Prop :=
  ¬ reply.TooDeep depth ∧ ¬ ∃ document, reply.Holds depth document

/-- An item of the results, with its index and score. -/
def IsResult (item : Value Number) (entry : ℤ × Number) : Prop :=
  (∃ members, item = .obj members) ∧ (item.get? "index").bind asInt = some entry.1 ∧
    (scoreField item).bind asNumber = some entry.2

/-- The first item that is no result with a score within range has one out of range. -/
def OutOfRange : List (Value Number) → Prop
  | [] => False
  | item :: items => ∃ entry, IsResult item entry ∧ (¬ entry.2.Fits ∨ OutOfRange items)

section Replies

variable {reranker : SiliconFlowReranker} {replies : ℕ → Reply} {k k' : ℕ} {reply : Reply}
  {document document' item : Value Number} {items : List (Value Number)}
  {entry entry' : ℤ × Number} {results results' : List (ℤ × Number)}

theorem Reply.Holds.unique {depth : ℕ} (h : reply.Holds depth document)
    (h' : reply.Holds depth document') : document = document' := by
  have heq := h.1.symm.trans h'.1
  injection heq with _ hbody
  injection hbody

theorem Reply.Holds.not_tooDeep {depth : ℕ} (h : reply.Holds depth document) :
    ¬ reply.TooDeep depth := by
  rintro ⟨document', hreply, hscan⟩
  obtain rfl : document = document' := by
    have heq := h.1.symm.trans hreply
    injection heq with _ hbody
    injection hbody
  rw [h.2.1] at hscan
  cases hscan

theorem IsResult.unique (h : IsResult item entry) (h' : IsResult item entry') :
    entry = entry' :=
  Prod.ext (Option.some.inj (h.2.1.symm.trans h'.2.1)) (Option.some.inj (h.2.2.symm.trans h'.2.2))

theorem forall₂_isResult_unique (h : List.Forall₂ IsResult items results)
    (h' : List.Forall₂ IsResult items results') : results = results' := by
  induction h generalizing results' with
  | nil => cases h'; rfl
  | cons hentry _ ih =>
      cases h' with
      | cons hentry' hrest' => rw [hentry.unique hentry', ih hrest']

/-- A response with status 200 is told by the document that is read from it. -/
theorem post_read {document : Value Number} {r : Except ReadError Unit}
    (h : scan reranker.depth document = r) :
    reranker.post (.response 200 (.json document)) = match r.map fun _ => document with
      | .error .valueError => .error (.rerankerError "rerank provider returned non-JSON body")
      | .error .recursionError =>
          .error (.recursionError "maximum recursion depth exceeded while decoding JSON")
      | .ok (.obj members) => .ok (.obj members)
      | .ok _ => .error (.rerankerError "rerank provider returned unexpected JSON type") := by
  have hread : responseJson reranker.depth (.json document) = r.map fun _ => document := by
    rw [← h]
    rfl
  rw [← hread]
  rfl

theorem post_json {document : Value Number} (h : scan reranker.depth document = .ok ()) :
    reranker.post (.response 200 (.json document)) = match document with
      | .obj members => .ok (.obj members)
      | _ => .error (.rerankerError "rerank provider returned unexpected JSON type") := by
  rw [post_read h]
  cases document <;> rfl

theorem post_json_error {document : Value Number} {e : ReadError}
    (h : scan reranker.depth document = .error e) :
    reranker.post (.response 200 (.json document)) = match e with
      | .valueError => .error (.rerankerError "rerank provider returned non-JSON body")
      | .recursionError =>
          .error (.recursionError "maximum recursion depth exceeded while decoding JSON") := by
  rw [post_read h]
  cases e <;> rfl

theorem tooDeep_json {depth : ℕ} : (Reply.response 200 (.json document)).TooDeep depth ↔
    scan depth document = .error .recursionError := by
  constructor
  · rintro ⟨document', heq, hscan⟩
    injection heq with _ hbody
    injection hbody with hdocument
    rwa [hdocument]
  · exact fun hscan => ⟨document, rfl, hscan⟩

theorem holds_json {depth : ℕ} : (∃ document', (Reply.response 200 (.json document)).Holds depth
    document') ↔ scan depth document = .ok () ∧ ∃ members, document = .obj members := by
  constructor
  · rintro ⟨document', heq, hholds⟩
    injection heq with _ hbody
    injection hbody with hdocument
    rwa [hdocument]
  · exact fun hholds => ⟨document, rfl, hholds⟩

/-- A reply without a JSON body of status 200 is passed over. -/
theorem passedOver_of_ne {depth : ℕ}
    (h : ∀ document, reply ≠ .response 200 (.json document)) : reply.PassedOver depth :=
  ⟨fun ⟨document, heq, _⟩ => h document heq, fun ⟨document, heq, _⟩ => h document heq⟩

/-- What one attempt ends with. -/
theorem post_cases (reranker : SiliconFlowReranker) (reply : Reply) :
    (reply.TooDeep reranker.depth ∧ ∃ m, reranker.post reply = .error (.recursionError m)) ∨
    (∃ document, reply.Holds reranker.depth document ∧ reranker.post reply = .ok document) ∨
    (reply.PassedOver reranker.depth ∧ ∃ m, reranker.post reply = .error (.rerankerError m)) := by
  cases reply with
  | timeout => exact Or.inr (Or.inr ⟨passedOver_of_ne fun _ h => (by cases h), _, rfl⟩)
  | transportError name =>
      exact Or.inr (Or.inr ⟨passedOver_of_ne fun _ h => (by cases h), _, rfl⟩)
  | response status body =>
      by_cases hstatus : status = 200
      · subst hstatus
        cases body with
        | malformed => exact Or.inr (Or.inr ⟨passedOver_of_ne fun _ h => (by cases h), _, rfl⟩)
        | json document =>
            cases hscan : scan reranker.depth document with
            | error e =>
                have hpost := post_json_error hscan
                cases e with
                | valueError =>
                    refine Or.inr (Or.inr ⟨⟨?_, ?_⟩, _, hpost⟩)
                    · rw [tooDeep_json, hscan]
                      exact fun h => (by cases h)
                    · rw [holds_json, hscan]
                      exact fun h => (by cases h.1)
                | recursionError => exact Or.inl ⟨tooDeep_json.mpr hscan, _, hpost⟩
            | ok u =>
                have hpost := post_json hscan
                by_cases hobj : ∃ members, document = .obj members
                · obtain ⟨members, rfl⟩ := hobj
                  exact Or.inr (Or.inl ⟨_, ⟨rfl, hscan, members, rfl⟩, hpost⟩)
                · refine Or.inr (Or.inr ⟨⟨?_, ?_⟩, ?_⟩)
                  · rw [tooDeep_json, hscan]
                    exact fun h => (by cases h)
                  · rw [holds_json]
                    exact fun h => hobj h.2
                  · cases document with
                    | obj members => exact absurd ⟨members, rfl⟩ hobj
                    | null | bool | num | str | arr => exact ⟨_, hpost⟩
      · have hne : ∀ document, Reply.response status body ≠ .response 200 (.json document) :=
          fun _ h => hstatus (by injection h)
        exact Or.inr (Or.inr ⟨passedOver_of_ne hne, _, if_pos hstatus⟩)

theorem post_eq_rerankerError_iff :
    (∃ m, reranker.post reply = .error (.rerankerError m)) ↔ reply.PassedOver reranker.depth := by
  rcases post_cases reranker reply with ⟨hdeep, m, hpost⟩ | ⟨document, hholds, hpost⟩ | ⟨h, hpost⟩
  · rw [hpost]
    exact iff_of_false (fun ⟨_, h⟩ => by cases h) fun h => h.1 hdeep
  · rw [hpost]
    exact iff_of_false (fun ⟨_, h⟩ => by cases h) fun h => h.2 ⟨document, hholds⟩
  · exact iff_of_true hpost h

theorem requestFrom_succ_of_passedOver {remaining attempt : ℕ}
    (h : (replies attempt).PassedOver reranker.depth) :
    reranker.requestFrom replies (remaining + 1) attempt
      = reranker.requestFrom replies remaining (attempt + 1) := by
  obtain ⟨m, hpost⟩ := post_eq_rerankerError_iff.mpr h
  rw [SiliconFlowReranker.requestFrom, hpost]

theorem requestFrom_of_not_passedOver {remaining attempt : ℕ}
    (h : ¬ (replies attempt).PassedOver reranker.depth) :
    reranker.requestFrom replies remaining attempt = reranker.post (replies attempt) := by
  cases remaining with
  | zero => rfl
  | succ remaining =>
      rw [SiliconFlowReranker.requestFrom]
      split
      · rename_i m hpost
        exact absurd (post_eq_rerankerError_iff.mp ⟨m, hpost⟩) h
      · rfl

/-- Which attempt the answer of the retry loop is that of. -/
theorem requestFrom_cases (reranker : SiliconFlowReranker) (replies : ℕ → Reply)
    (remaining attempt : ℕ) :
    (∃ k ≤ remaining, (∀ j < k, (replies (attempt + j)).PassedOver reranker.depth) ∧
      ¬ (replies (attempt + k)).PassedOver reranker.depth ∧
      reranker.requestFrom replies remaining attempt = reranker.post (replies (attempt + k))) ∨
    ((∀ j ≤ remaining, (replies (attempt + j)).PassedOver reranker.depth) ∧
      ∃ m, reranker.requestFrom replies remaining attempt = .error (.rerankerError m)) := by
  by_cases hpassed : (replies attempt).PassedOver reranker.depth
  · induction remaining generalizing attempt with
    | zero =>
        refine Or.inr ⟨fun j hj => ?_, post_eq_rerankerError_iff.mpr hpassed⟩
        rwa [Nat.le_zero.mp hj]
    | succ remaining ih =>
        rw [requestFrom_succ_of_passedOver hpassed]
        have hshift : ∀ {n}, (∀ j < n, (replies (attempt + 1 + j)).PassedOver reranker.depth) →
            ∀ j < n + 1, (replies (attempt + j)).PassedOver reranker.depth := by
          intro n h j hj
          cases j with
          | zero => exact hpassed
          | succ j =>
              have hj' := h j (Nat.lt_of_succ_lt_succ hj)
              rwa [Nat.add_right_comm] at hj'
        by_cases hnext : (replies (attempt + 1)).PassedOver reranker.depth
        · rcases ih (attempt + 1) hnext with ⟨k, hk, hbefore, hnot, heq⟩ | ⟨hall, hm⟩
          · refine Or.inl ⟨k + 1, Nat.succ_le_succ hk, hshift hbefore, ?_, ?_⟩
            · rwa [Nat.add_right_comm] at hnot
            · rw [heq, Nat.add_right_comm]
              rfl
          · exact Or.inr ⟨fun j hj => hshift (fun j hj => hall j (Nat.le_of_lt_succ hj)) j
              (Nat.lt_succ_of_le hj), hm⟩
        · refine Or.inl ⟨1, Nat.succ_le_succ (Nat.zero_le _), ?_, hnext, ?_⟩
          · exact hshift fun j hj => absurd hj (Nat.not_lt_zero j)
          · exact requestFrom_of_not_passedOver hnext
  · exact Or.inl ⟨0, Nat.zero_le _, fun j hj => absurd hj (Nat.not_lt_zero j), hpassed,
      requestFrom_of_not_passedOver hpassed⟩

/-! ## What is read of the results -/

theorem readResult_of_isResult (h : IsResult item entry) :
    readResult item = entry.2.float?.map fun x => (entry.1, x) := by
  obtain ⟨⟨members, rfl⟩, hindex, hscore⟩ := h
  unfold readResult
  rw [hindex, hscore]
  show (do let x ← entry.2.float?; pure (entry.1, x) : Except Raised (ℤ × Double)) = _
  cases entry.2.float? <;> rfl

theorem readResult_of_not_isResult (h : ∀ entry, ¬ IsResult item entry) :
    ∃ m, readResult item = .error (.rerankerError m) := by
  unfold readResult
  split
  · rename_i members
    split
    · rename_i index score hindex hscore
      exact absurd ⟨⟨members, rfl⟩, hindex, hscore⟩ (h (index, score))
    · exact ⟨_, rfl⟩
  · exact ⟨_, rfl⟩

theorem not_outOfRange_of_fits (h : List.Forall₂ IsResult items results)
    (hfits : ∀ r ∈ results, r.2.Fits) : ¬ OutOfRange items := by
  induction h with
  | nil => exact id
  | cons hentry _ ih =>
      rintro ⟨entry', hentry', hout | hout⟩
      · rw [hentry'.unique hentry] at hout
        exact hout (hfits _ List.mem_cons_self)
      · exact ih (fun r hr => hfits r (List.mem_cons_of_mem _ hr)) hout

/-- What the loop over the results ends with. -/
theorem readResults_cases (items : List (Value Number)) (byIndex : List (ℤ × Double)) :
    (∃ results, List.Forall₂ IsResult items results ∧ (∀ r ∈ results, r.2.Fits) ∧
      readResults items byIndex
        = .ok ((results.map fun r => (r.1, r.2.toDouble)).reverse ++ byIndex)) ∨
    (OutOfRange items ∧ ∃ m, readResults items byIndex = .error (.overflowError m)) ∨
    (¬ OutOfRange items ∧ (¬ ∃ results, List.Forall₂ IsResult items results) ∧
      ∃ m, readResults items byIndex = .error (.rerankerError m)) := by
  induction items generalizing byIndex with
  | nil => exact Or.inl ⟨[], List.Forall₂.nil, fun r hr => (by cases hr), rfl⟩
  | cons item items ih =>
      have hbind : readResults (item :: items) byIndex
          = readResult item >>= fun entry => readResults items (entry :: byIndex) := rfl
      by_cases hitem : ∃ entry, IsResult item entry
      · obtain ⟨entry, hentry⟩ := hitem
        rw [hbind, readResult_of_isResult hentry]
        unfold Number.float?
        by_cases hfits : entry.2.Fits
        -- the score is stored, and the rest of the results decides
        · rw [if_pos hfits]
          show _ ∨ (_ ∧ ∃ m, readResults items ((entry.1, entry.2.toDouble) :: byIndex) = _) ∨ _
          rcases ih ((entry.1, entry.2.toDouble) :: byIndex) with
            ⟨results, hresults, hall, hok⟩ | ⟨hout, hm⟩ | ⟨hin, hnone, hm⟩
          · refine Or.inl ⟨entry :: results, List.Forall₂.cons hentry hresults, ?_, ?_⟩
            · intro r hr
              rcases List.mem_cons.mp hr with rfl | hr
              · exact hfits
              · exact hall r hr
            · rw [List.map_cons, List.reverse_cons, List.append_assoc]
              exact hok
          · exact Or.inr (Or.inl ⟨⟨entry, hentry, Or.inr hout⟩, hm⟩)
          · refine Or.inr (Or.inr ⟨?_, ?_, hm⟩)
            · rintro ⟨entry', hentry', hnot | hout⟩
              · rw [hentry'.unique hentry] at hnot
                exact hnot hfits
              · exact hin hout
            · rintro ⟨_, hresults⟩
              cases hresults with
              | cons _ hrest => exact hnone ⟨_, hrest⟩
        · rw [if_neg hfits]
          exact Or.inr (Or.inl ⟨⟨entry, hentry, Or.inl hfits⟩, _, rfl⟩)
      -- a malformed result ends the loop before any later score is read
      · obtain ⟨m, hm⟩ := readResult_of_not_isResult fun entry h => hitem ⟨entry, h⟩
        rw [hbind, hm]
        refine Or.inr (Or.inr ⟨fun ⟨entry, h, _⟩ => hitem ⟨entry, h⟩, ?_, m, rfl⟩)
        rintro ⟨_, hresults⟩
        cases hresults with
        | cons hentry _ => exact hitem ⟨_, hentry⟩

end Replies

/-! ## The stage -/

section Stage

variable (reranker : SiliconFlowReranker) (cfg : SearchConfig) (replies : ℕ → Reply)
  (ranked : List RankedEntry) (queryText : Option String)

/-- The provider is asked for scores. -/
def Asked : Prop :=
  cfg.rerankerEnabled = true ∧ (∃ query, queryText = some query ∧ query ≠ "") ∧
    sliceTo cfg.rerankTopN ranked ≠ []

/-- The attempt `k` is made, for no earlier one was answered. -/
def Reached (k : ℕ) : Prop :=
  k ≤ reranker.maxRetries ∧ ∀ j < k, (replies j).PassedOver reranker.depth

/-- The provider answered with well-formed results. -/
def Answered (results : List (ℤ × Number)) : Prop :=
  ∃ k document items, Reached reranker replies k ∧ (replies k).Holds reranker.depth document ∧
    document.get? "results" = some (.arr items) ∧ List.Forall₂ IsResult items results

/-- What the provider answered cannot be read, or has a score out of range. -/
def Harmful : Prop :=
  ∃ k, Reached reranker replies k ∧ ((replies k).TooDeep reranker.depth ∨
    ∃ document items, (replies k).Holds reranker.depth document ∧
      document.get? "results" = some (.arr items) ∧ OutOfRange items)

/-- The score returned for the document at place `i`. -/
def scoreAt (results : List (ℤ × Number)) (i : ℕ) : Double :=
  ((results.map fun r => (r.1, r.2.toDouble)).reverse.lookup (i : ℤ)).getD 0

/-- The head is sorted by the returned scores, or nothing is changed. -/
structure Merged (out : List RankedEntry) : Prop where
  ids : (out.map RankedEntry.recordId).Perm (ranked.map RankedEntry.recordId)
  tail : sliceFrom cfg.rerankTopN out = sliceFrom cfg.rerankTopN ranked
  sorted : Asked cfg ranked queryText → ∀ results, Answered reranker replies results →
    (sliceTo cfg.rerankTopN out).Pairwise fun e e' =>
      e'.score < e.score ∨ e.score = e'.score ∧ e.recordId ≤ e'.recordId
  scores : Asked cfg ranked queryText → ∀ results, Answered reranker replies results →
    ∀ e ∈ sliceTo cfg.rerankTopN out, ∃ i,
      (((sliceTo cfg.rerankTopN ranked).map RankedEntry.recordId)[i]? = some e.recordId ∧
        e.score = scoreAt results i)
  otherwise : ¬ (Asked cfg ranked queryText ∧ ∃ results, Answered reranker replies results) →
    out = ranked

end Stage

section Merging

variable {reranker : SiliconFlowReranker} {cfg : SearchConfig} {replies : ℕ → Reply}
  {ranked : List RankedEntry} {records : List ObservationRecord} {queryText : Option String}
  {documents : List RerankDocument} {results results' : List (ℤ × Number)} {k k' : ℕ}

theorem Reached.unique (h : Reached reranker replies k) (h' : Reached reranker replies k')
    (hk : ¬ (replies k).PassedOver reranker.depth)
    (hk' : ¬ (replies k').PassedOver reranker.depth) : k = k' := by
  rcases Nat.lt_trichotomy k k' with hlt | heq | hlt
  · exact absurd (h'.2 k hlt) hk
  · exact heq
  · exact absurd (h.2 k' hlt) hk'

theorem answered_iff_of_holds {document : Value Number} (hk : Reached reranker replies k)
    (hholds : (replies k).Holds reranker.depth document) :
    Answered reranker replies results ↔ ∃ items, document.get? "results" = some (.arr items) ∧
      List.Forall₂ IsResult items results := by
  constructor
  · rintro ⟨k', document', items, hk', hholds', hitems, hresults⟩
    obtain rfl := hk.unique hk' (fun h => h.2 ⟨_, hholds⟩) fun h => h.2 ⟨_, hholds'⟩
    obtain rfl := hholds.unique hholds'
    exact ⟨items, hitems, hresults⟩
  · rintro ⟨items, hitems, hresults⟩
    exact ⟨k, document, items, hk, hholds, hitems, hresults⟩

theorem harmful_iff_of_holds {document : Value Number} (hk : Reached reranker replies k)
    (hholds : (replies k).Holds reranker.depth document) :
    Harmful reranker replies ↔ ∃ items, document.get? "results" = some (.arr items) ∧
      OutOfRange items := by
  constructor
  · rintro ⟨k', hk', hdeep | ⟨document', items, hholds', hitems, hout⟩⟩
    · obtain rfl := hk.unique hk' (fun h => h.2 ⟨_, hholds⟩) fun h => h.1 hdeep
      exact absurd hdeep hholds.not_tooDeep
    · obtain rfl := hk.unique hk' (fun h => h.2 ⟨_, hholds⟩) fun h => h.2 ⟨_, hholds'⟩
      obtain rfl := hholds.unique hholds'
      exact ⟨items, hitems, hout⟩
  · rintro ⟨items, hitems, hout⟩
    exact ⟨k, hk, Or.inr ⟨document, items, hholds, hitems, hout⟩⟩

theorem arr_unique {document : Value Number} {items items' : List (Value Number)}
    (h : document.get? "results" = some (.arr items))
    (h' : document.get? "results" = some (.arr items')) : items = items' := by
  have heq := h.symm.trans h'
  injection heq with heq
  injection heq

theorem Answered.unique (h : Answered reranker replies results)
    (h' : Answered reranker replies results') : results = results' := by
  obtain ⟨k, document, items, hk, hholds, hitems, hresults⟩ := h
  obtain ⟨items', hitems', hresults'⟩ := (answered_iff_of_holds hk hholds).mp h'
  obtain rfl := arr_unique hitems hitems'
  exact forall₂_isResult_unique hresults hresults'

theorem parse_cases (document : Value Number) (documents : List RerankDocument) :
    (∃ items results, document.get? "results" = some (.arr items) ∧
      List.Forall₂ IsResult items results ∧ (∀ r ∈ results, r.2.Fits) ∧
      SiliconFlowReranker.parse document documents
        = .ok (documents.zipIdx.map fun p => ⟨p.1.recordId, scoreAt results p.2⟩)) ∨
    (∃ items, document.get? "results" = some (.arr items) ∧ OutOfRange items ∧
      ∃ m, SiliconFlowReranker.parse document documents = .error (.overflowError m)) ∨
    ((∀ items, document.get? "results" = some (.arr items) → ¬ OutOfRange items ∧
      ¬ ∃ results, List.Forall₂ IsResult items results) ∧
      ∃ m, SiliconFlowReranker.parse document documents = .error (.rerankerError m)) := by
  unfold SiliconFlowReranker.parse
  split
  · rename_i items hitems
    rcases readResults_cases items [] with
      ⟨results, hresults, hfits, hok⟩ | ⟨hout, m, hm⟩ | ⟨hin, hnone, m, hm⟩
    · rw [hok, List.append_nil]
      exact Or.inl ⟨items, results, hitems, hresults, hfits, rfl⟩
    · rw [hm]
      exact Or.inr (Or.inl ⟨items, hitems, hout, m, rfl⟩)
    · rw [hm]
      refine Or.inr (Or.inr ⟨fun items' hitems' => ?_, m, rfl⟩)
      obtain rfl := arr_unique hitems hitems'
      exact ⟨hin, hnone⟩
  · rename_i hno
    exact Or.inr (Or.inr ⟨fun items hitems => absurd hitems (hno items), _, rfl⟩)

/-- What asking the provider ends with. -/
theorem rerank_cases (reranker : SiliconFlowReranker) (replies : ℕ → Reply)
    (hdocuments : documents ≠ []) :
    (¬ Harmful reranker replies ∧ ∃ results, Answered reranker replies results ∧
      reranker.rerank replies documents
        = .ok (documents.zipIdx.map fun p => ⟨p.1.recordId, scoreAt results p.2⟩)) ∨
    (Harmful reranker replies ∧ ∃ e, (∀ m, e ≠ .rerankerError m) ∧
      reranker.rerank replies documents = .error e) ∨
    (¬ Harmful reranker replies ∧ (¬ ∃ results, Answered reranker replies results) ∧
      ∃ m, reranker.rerank replies documents = .error (.rerankerError m)) := by
  have hrerank : reranker.rerank replies documents = reranker.requestFrom replies
      reranker.maxRetries 0 >>= fun body => SiliconFlowReranker.parse body documents :=
    if_neg hdocuments
  rw [hrerank]
  rcases requestFrom_cases reranker replies reranker.maxRetries 0 with
    ⟨k, hk, hbefore, hnot, hrequest⟩ | ⟨hall, m, hrequest⟩
  · simp only [Nat.zero_add] at hbefore hnot hrequest
    have hreached : Reached reranker replies k := ⟨hk, hbefore⟩
    rw [hrequest]
    rcases post_cases reranker (replies k) with
      ⟨hdeep, m, hpost⟩ | ⟨document, hholds, hpost⟩ | ⟨hpassed, -⟩
    -- the first attempt that is not passed over: too deep, or a document
    · rw [hpost]
      exact Or.inr (Or.inl ⟨⟨k, hreached, Or.inl hdeep⟩, .recursionError m, fun m h => (by cases h),
        rfl⟩)
    · rw [hpost, harmful_iff_of_holds hreached hholds]
      simp only [answered_iff_of_holds hreached hholds]
      show (_ ∧ ∃ results, _ ∧ SiliconFlowReranker.parse document documents = _) ∨
        (_ ∧ ∃ e, _ ∧ SiliconFlowReranker.parse document documents = _) ∨
        (_ ∧ _ ∧ ∃ m, SiliconFlowReranker.parse document documents = _)
      rcases parse_cases document documents with
        ⟨items, results, hitems, hresults, hfits, hok⟩ | ⟨items, hitems, hout, m, hm⟩ | ⟨hnone, m, hm⟩
      · refine Or.inl ⟨?_, results, ⟨items, hitems, hresults⟩, hok⟩
        rintro ⟨items', hitems', hout⟩
        obtain rfl := arr_unique hitems hitems'
        exact not_outOfRange_of_fits hresults hfits hout
      · exact Or.inr (Or.inl ⟨⟨items, hitems, hout⟩, _, fun m h => (by cases h), hm⟩)
      · refine Or.inr (Or.inr ⟨?_, ?_, m, hm⟩)
        · rintro ⟨items, hitems, hout⟩
          exact (hnone items hitems).1 hout
        · rintro ⟨results, items, hitems, hresults⟩
          exact (hnone items hitems).2 ⟨results, hresults⟩
    · exact absurd hpassed hnot
  -- every attempt was passed over
  · simp only [Nat.zero_add] at hall
    rw [hrequest]
    refine Or.inr (Or.inr ⟨?_, ?_, m, rfl⟩)
    · rintro ⟨k, hk, hdeep | ⟨document, _, hholds, -⟩⟩
      · exact (hall k hk.1).1 hdeep
      · exact (hall k hk.1).2 ⟨document, hholds⟩
    · rintro ⟨_, k, document, _, hk, hholds, -⟩
      exact (hall k hk.1).2 ⟨document, hholds⟩

/-! ## The merge -/

theorem sortKey_entryLe :
    SortKey entryLe fun e => toLex (OrderDual.toDual e.score, e.recordId) := by
  constructor
  intro a b
  rw [Prod.Lex.toLex_le_toLex]
  unfold entryLe
  rw [Bool.or_eq_true, Bool.and_eq_true, decide_eq_true_eq, decide_eq_true_eq, decide_eq_true_eq]
  exact Iff.rfl

theorem pairwise_mergeSort_entryLe (l : List RankedEntry) :
    (l.mergeSort entryLe).Pairwise fun e e' =>
      e'.score < e.score ∨ e.score = e'.score ∧ e.recordId ≤ e'.recordId :=
  (sortKey_entryLe.pairwise_key_mergeSort l).imp fun h => Prod.Lex.toLex_le_toLex.mp h

theorem slice_append {α : Type} {n : ℤ} (hn : 0 ≤ n) {l sorted : List α}
    (h : sorted.length = (sliceTo n l).length) :
    sliceTo n (sorted ++ sliceFrom n l) = sorted ∧
      sliceFrom n (sorted ++ sliceFrom n l) = sliceFrom n l := by
  unfold sliceTo at h ⊢
  unfold sliceFrom
  rw [if_pos hn, List.length_take] at h
  simp only [if_pos hn]
  by_cases hlen : n.toNat ≤ l.length
  · have hlength : sorted.length = n.toNat := by omega
    exact ⟨List.take_left' hlength, List.drop_left' hlength⟩
  · have hnil : l.drop n.toNat = [] := List.drop_eq_nil_of_le (by omega)
    rw [hnil, List.append_nil]
    exact ⟨List.take_of_length_le (by omega), List.drop_eq_nil_of_le (by omega)⟩

/-- The score an entry of the head is given is that of one of its places. -/
theorem exists_scoreAt (results : List (ℤ × Number)) {x : String}
    (hx : x ∈ documents.map RerankDocument.recordId) :
    ∃ i, (documents.map RerankDocument.recordId)[i]? = some x ∧
      ((dictOf (documents.zipIdx.map fun p => (p.1.recordId, scoreAt results p.2))).lookup x).getD 0
        = scoreAt results i := by
  obtain ⟨d, hd, rfl⟩ := List.mem_map.mp hx
  obtain ⟨i, hi, hget⟩ := List.mem_iff_getElem.mp hd
  rw [lookup_dictOf]
  cases hlast : ((documents.zipIdx.map fun p => (p.1.recordId, scoreAt results p.2)).filter
      fun p => decide (p.1 = d.recordId)).getLast? with
  | none =>
      have hnil := List.getLast?_eq_none_iff.mp hlast
      have hmem : (d, i) ∈ documents.zipIdx := by
        rw [List.mk_mem_zipIdx_iff_getElem?, ← hget]
        exact List.getElem?_eq_getElem hi
      exact absurd (decide_eq_true rfl) (List.filter_eq_nil_iff.mp hnil _
        (List.mem_map_of_mem (f := fun p : RerankDocument × ℕ =>
          (p.1.recordId, scoreAt results p.2)) hmem))
  | some q =>
      obtain ⟨hq, hid⟩ := List.mem_filter.mp (List.mem_of_getLast? hlast)
      obtain ⟨⟨d', j⟩, hmem, rfl⟩ := List.mem_map.mp hq
      refine ⟨j, ?_, rfl⟩
      rw [List.getElem?_map, (List.mk_mem_zipIdx_iff_getElem?).mp hmem]
      exact congrArg some (of_decide_eq_true hid)

theorem mergeReranked_of_not_asked (h : ¬ Asked cfg ranked queryText) :
    mergeReranked reranker cfg replies ranked records queryText = .ok ranked := by
  unfold mergeReranked
  split
  · rename_i query henabled
    split
    · rfl
    · rename_i hgo
      have hhead : sliceTo cfg.rerankTopN ranked = [] := by
        by_contra hne
        exact h ⟨henabled, ⟨query, rfl, fun hq => hgo (Or.inl hq)⟩, hne⟩
      have hall := sliceTo_append_sliceFrom cfg.rerankTopN ranked
      rw [hhead, List.nil_append] at hall
      have hnone : reranker.rerank replies [] = .ok [] := if_pos rfl
      simp only [hhead, hall, List.map_nil, hnone, List.mergeSort_nil, List.nil_append]
  · rfl

theorem mergeReranked_of_asked (h : Asked cfg ranked queryText) :
    ∃ documents : List RerankDocument,
      documents.map RerankDocument.recordId
        = (sliceTo cfg.rerankTopN ranked).map RankedEntry.recordId ∧ documents ≠ [] ∧
      mergeReranked reranker cfg replies ranked records queryText =
        match reranker.rerank replies documents with
        | .error (.rerankerError _) => .ok ranked
        | .error e => .error e
        | .ok scores => .ok (((sliceTo cfg.rerankTopN ranked).map fun e =>
            e.rescored reranker.modelId
              (((dictOf (scores.map fun s => (s.recordId, s.score))).lookup e.recordId).getD
                0)).mergeSort entryLe ++ sliceFrom cfg.rerankTopN ranked) := by
  obtain ⟨henabled, ⟨query, rfl, hquery⟩, hhead⟩ := h
  have hranked : ranked ≠ [] := by
    rintro rfl
    exact hhead (by unfold sliceTo; split <;> exact List.take_nil)
  refine ⟨(sliceTo cfg.rerankTopN ranked).map fun e => ⟨e.recordId,
    ((dictOf (records.map fun r => (r.recordId, r.staticDescriptionText))).lookup
      e.recordId).getD ""⟩, ?_, fun hnil => hhead (List.map_eq_nil_iff.mp hnil), ?_⟩
  · rw [List.map_map]
    rfl
  · unfold mergeReranked
    rw [henabled]
    show (if query = "" ∨ ranked = [] then _ else _) = _
    rw [if_neg (not_or.mpr ⟨hquery, hranked⟩)]

theorem merged_self (h : ¬ (Asked cfg ranked queryText ∧
    ∃ results, Answered reranker replies results)) :
    Merged reranker cfg replies ranked queryText ranked :=
  ⟨List.Perm.refl _, rfl, fun hasked results hresults => absurd ⟨hasked, results, hresults⟩ h,
    fun hasked results hresults => absurd ⟨hasked, results, hresults⟩ h, fun _ => rfl⟩

/-- Scores for the head sort it. -/
theorem merged_of_scores (hn : 0 ≤ cfg.rerankTopN) (hasked : Asked cfg ranked queryText)
    (hanswered : Answered reranker replies results)
    (hids : documents.map RerankDocument.recordId
      = (sliceTo cfg.rerankTopN ranked).map RankedEntry.recordId) :
    Merged reranker cfg replies ranked queryText
      (((sliceTo cfg.rerankTopN ranked).map fun e => e.rescored reranker.modelId
        (((dictOf (documents.zipIdx.map fun p => (p.1.recordId, scoreAt results p.2))).lookup
          e.recordId).getD 0)).mergeSort entryLe ++ sliceFrom cfg.rerankTopN ranked) := by
  obtain ⟨rescored, hrescored⟩ : ∃ l, l = (sliceTo cfg.rerankTopN ranked).map fun e =>
      e.rescored reranker.modelId (((dictOf (documents.zipIdx.map fun p =>
        (p.1.recordId, scoreAt results p.2))).lookup e.recordId).getD 0) := ⟨_, rfl⟩
  rw [← hrescored]
  have hlength : (rescored.mergeSort entryLe).length = (sliceTo cfg.rerankTopN ranked).length := by
    rw [List.length_mergeSort, hrescored, List.length_map]
  obtain ⟨hhead, htail⟩ := slice_append hn hlength
  refine ⟨?_, htail, ?_, ?_, fun h => absurd ⟨hasked, results, hanswered⟩ h⟩
  · have hsorted : ((rescored.mergeSort entryLe).map RankedEntry.recordId).Perm
        ((sliceTo cfg.rerankTopN ranked).map RankedEntry.recordId) := by
      refine ((List.mergeSort_perm _ _).map _).trans ?_
      rw [hrescored, List.map_map]
      exact List.Perm.refl _
    rw [List.map_append]
    refine (hsorted.append_right _).trans ?_
    rw [← List.map_append, sliceTo_append_sliceFrom]
  · intro _ _ _
    rw [hhead]
    exact pairwise_mergeSort_entryLe rescored
  · intro _ results' hanswered' e he
    obtain rfl := hanswered.unique hanswered'
    rw [hhead, List.mem_mergeSort, hrescored] at he
    obtain ⟨e₀, he₀, rfl⟩ := List.mem_map.mp he
    have hmem : e₀.recordId ∈ documents.map RerankDocument.recordId := by
      rw [hids]
      exact List.mem_map_of_mem he₀
    obtain ⟨i, hi, hscore⟩ := exists_scoreAt results hmem
    rw [hids] at hi
    exact ⟨i, hi, hscore⟩

/-- The exception is not the one the stage falls back on. -/
theorem mergeReranked_raises (hasked : Asked cfg ranked queryText)
    (hharmful : Harmful reranker replies) :
    ∃ e, mergeReranked reranker cfg replies ranked records queryText = .error e := by
  obtain ⟨documents, -, hdocuments, hstage⟩ :=
    @mergeReranked_of_asked reranker cfg replies ranked records queryText hasked
  rw [hstage]
  rcases rerank_cases reranker replies hdocuments with
    ⟨hharmless, -⟩ | ⟨-, e, he, herror⟩ | ⟨hharmless, -⟩
  · exact absurd hharmful hharmless
  · rw [herror]
    cases e with
    | rerankerError m => exact absurd rfl (he m)
    | overflowError m => exact ⟨_, rfl⟩
    | recursionError m => exact ⟨_, rfl⟩
  · exact absurd hharmful hharmless

theorem mergeReranked_merged (hn : 0 ≤ cfg.rerankTopN)
    (h : ¬ (Asked cfg ranked queryText ∧ Harmful reranker replies)) :
    ∃ out, mergeReranked reranker cfg replies ranked records queryText = .ok out ∧
      Merged reranker cfg replies ranked queryText out := by
  by_cases hasked : Asked cfg ranked queryText
  · obtain ⟨documents, hids, hdocuments, hstage⟩ :=
      @mergeReranked_of_asked reranker cfg replies ranked records queryText hasked
    rw [hstage]
    rcases rerank_cases reranker replies hdocuments with
      ⟨-, results, hanswered, hok⟩ | ⟨hharmful, -⟩ | ⟨-, hnone, m, hm⟩
    · rw [hok]
      refine ⟨_, rfl, ?_⟩
      rw [List.map_map]
      exact merged_of_scores hn hasked hanswered hids
    · exact absurd ⟨hasked, hharmful⟩ h
    · rw [hm]
      exact ⟨ranked, rfl, merged_self fun h => hnone h.2⟩
  · rw [mergeReranked_of_not_asked hasked]
    exact ⟨ranked, rfl, merged_self fun h => hasked h.1⟩

end Merging

/-! ## The ranking without details -/

section Plain

variable {reranker : SiliconFlowReranker} {cfg : SearchConfig} {replies : ℕ → Reply}
  {eng : Engine} {ranked : List RankedEntry} {scores : Scores}
  {records : List ObservationRecord} {queryText : Option String}

/-- A finite float. -/
def finite (x : ℚ) : Double := ((x : WithTop ℚ) : Double)

def finiteScore (p : String × ℚ) : String × Double := (p.1, finite p.2)

def RankedEntry.plain (e : RankedEntry) : String × Double := (e.recordId, e.score)

def plainLe (a b : String × Double) : Bool :=
  decide (b.2 < a.2) || (decide (a.2 = b.2) && decide (a.1 ≤ b.1))

theorem finite_lt {x y : ℚ} : finite x < finite y ↔ x < y := by
  unfold finite
  rw [WithBot.coe_lt_coe, WithTop.coe_lt_coe]

theorem finite_inj {x y : ℚ} : finite x = finite y ↔ x = y := by
  unfold finite
  rw [WithBot.coe_inj, WithTop.coe_inj]

theorem plainLe_finiteScore (p q : String × ℚ) :
    plainLe (finiteScore p) (finiteScore q) = scoreLe p q := by
  unfold plainLe scoreLe finiteScore
  rw [decide_eq_decide.mpr finite_lt, decide_eq_decide.mpr finite_inj]

/-- The entries are the scores, with details. -/
def Agrees (ranked : List RankedEntry) (scores : Scores) : Prop :=
  ranked.map RankedEntry.plain = scores.map finiteScore

theorem map_sliceTo {α β : Type} (f : α → β) (n : ℤ) (l : List α) :
    (sliceTo n l).map f = sliceTo n (l.map f) := by
  unfold sliceTo
  split
  · rw [List.map_take]
  · rw [List.map_take, List.length_map]

theorem map_sliceFrom {α β : Type} (f : α → β) (n : ℤ) (l : List α) :
    (sliceFrom n l).map f = sliceFrom n (l.map f) := by
  unfold sliceFrom
  split
  · rw [List.map_drop]
  · rw [List.map_drop, List.length_map]

theorem Agrees.sorted (h : Agrees ranked scores) :
    Agrees (ranked.mergeSort entryLe) (scores.mergeSort scoreLe) := by
  have hranked := @List.map_mergeSort _ _ entryLe plainLe RankedEntry.plain ranked
    fun _ _ _ _ => rfl
  have hscores := @List.map_mergeSort _ _ scoreLe plainLe finiteScore scores
    fun p _ q _ => (plainLe_finiteScore p q).symm
  unfold Agrees at h ⊢
  rw [hranked, h, hscores]

theorem lookup_dictOf_finite (scores : Scores) (x : String) :
    ((dictOf (scores.map finiteScore)).lookup x).getD 0
      = finite (((dictOf scores).lookup x).getD 0) := by
  have hkeys : (fun p : String × Double => decide (p.1 = x)) ∘ finiteScore
      = fun p : String × ℚ => decide (p.1 = x) := rfl
  rw [lookup_dictOf, lookup_dictOf, List.filter_map, hkeys, List.getLast?_map]
  cases (scores.filter fun p => decide (p.1 = x)).getLast? with
  | none => rfl
  | some p => rfl

theorem Agrees.head_tail (h : Agrees ranked scores) (n : ℤ) :
    Agrees (sliceTo n ranked) (sliceTo n scores) ∧
      Agrees (sliceFrom n ranked) (sliceFrom n scores) := by
  unfold Agrees at h ⊢
  rw [map_sliceTo, map_sliceTo, map_sliceFrom, map_sliceFrom, h]
  exact ⟨rfl, rfl⟩

theorem Agrees.map_ids {β : Type} (h : Agrees ranked scores) (f : String → β) :
    (ranked.map fun e => f e.recordId) = scores.map fun p => f p.1 := by
  have hids := congrArg (List.map fun p : String × Double => f p.1) h
  rwa [List.map_map, List.map_map] at hids

theorem Agrees.append {ranked' : List RankedEntry} {scores' : Scores} (h : Agrees ranked scores)
    (h' : Agrees ranked' scores') : Agrees (ranked ++ ranked') (scores ++ scores') := by
  unfold Agrees at h h' ⊢
  rw [List.map_append, List.map_append, h, h']

theorem Agrees.rescored (h : Agrees ranked scores) (modelId : String) (returned : Scores) :
    Agrees
      (ranked.map fun e => e.rescored modelId
        (((dictOf ((returned.map fun p => (⟨p.1, finite p.2⟩ : RerankScore)).map fun s =>
          (s.recordId, s.score))).lookup e.recordId).getD 0))
      (scores.map fun p => (p.1, ((dictOf returned).lookup p.1).getD 0)) := by
  have hreturned : ((returned.map fun p => (⟨p.1, finite p.2⟩ : RerankScore)).map fun s =>
      (s.recordId, s.score)) = returned.map finiteScore := by
    rw [List.map_map]
    rfl
  rw [hreturned]
  simp only [lookup_dictOf_finite]
  unfold Agrees
  rw [List.map_map, List.map_map]
  exact h.map_ids fun x => (x, finite (((dictOf returned).lookup x).getD 0))

/-- Where the adapter returns the engine's scores, the stage is that of the ranking. -/
theorem mergeReranked_agrees (hagrees : Agrees ranked scores)
    (heng : ∀ query, queryText = some query → ∀ documents,
      match eng.rerank query documents with
      | none => ∃ m, reranker.rerank replies documents = .error (.rerankerError m)
      | some returned => reranker.rerank replies documents
          = .ok (returned.map fun p => ⟨p.1, finite p.2⟩)) :
    ∃ out, mergeReranked reranker cfg replies ranked records queryText = .ok out ∧
      Agrees out (applyCrossEncoder eng cfg scores records queryText) := by
  unfold mergeReranked applyCrossEncoder
  cases cfg.rerankerEnabled with
  | false => exact ⟨ranked, rfl, hagrees⟩
  | true =>
      cases queryText with
      | none => exact ⟨ranked, rfl, hagrees⟩
      | some query =>
          have hempty : ranked = [] ↔ scores = [] := by
            have hlength := congrArg List.length hagrees
            rw [List.length_map, List.length_map] at hlength
            rw [← List.length_eq_zero_iff, ← List.length_eq_zero_iff, hlength]
          dsimp only
          by_cases hgo : query = "" ∨ ranked = []
          · rw [if_pos hgo, if_pos (hgo.imp_right hempty.mp)]
            exact ⟨ranked, rfl, hagrees⟩
          · rw [if_neg hgo, if_neg fun h => hgo (h.imp_right hempty.mpr)]
            obtain ⟨hhead, htail⟩ := hagrees.head_tail cfg.rerankTopN
            rw [hhead.map_ids fun x => (⟨x, ((dictOf (records.map fun r =>
              (r.recordId, r.staticDescriptionText))).lookup x).getD ""⟩ : RerankDocument)]
            obtain ⟨documents, hdocuments⟩ : ∃ l, l = (sliceTo cfg.rerankTopN scores).map fun p =>
              (⟨p.1, ((dictOf (records.map fun r => (r.recordId, r.staticDescriptionText))).lookup
                p.1).getD ""⟩ : RerankDocument) := ⟨_, rfl⟩
            have hscores := heng query rfl documents
            rw [← hdocuments]
            cases hreturned : eng.rerank query documents with
            | none =>
                rw [hreturned] at hscores
                obtain ⟨m, hm⟩ := hscores
                rw [hm]
                exact ⟨ranked, rfl, hagrees⟩
            | some returned =>
                rw [hreturned] at hscores
                rw [hscores]
                exact ⟨_, rfl, (hhead.rescored reranker.modelId returned).sorted.append htail⟩

end Plain

/-! ## One document -/

def oneReranker : SiliconFlowReranker := ⟨"Qwen/Qwen3-Reranker-8B", 1, 1000⟩

def rerankingConfig : SearchConfig := { defaultSearchConfig with rerankerEnabled := true }

/-- The provider scores the one document it is sent. -/
def scored (score : Number) (_ : ℕ) : Reply :=
  .response 200 (.json (.obj [("results", .arr [.obj [("index", .num (.int 0)),
    ("relevance_score", .num score)]])]))

def oneRanked : List RankedEntry := [⟨"rec_a", 1, []⟩]

theorem asked_one : Asked rerankingConfig oneRanked (some "red") :=
  ⟨rfl, ⟨"red", rfl, by decide⟩, by decide⟩

theorem scan_scored {score : Number} (h : score.tooLong = false) (k : ℕ) :
    ∃ document, scored score k = .response 200 (.json document) ∧
      scan oneReranker.depth document = .ok () := by
  have hzero : (Number.int 0).tooLong = false := by decide +kernel
  have hnum : ∀ n : Number, n.tooLong = false → ∀ depth, scan depth (.num n) = .ok () := by
    intro n hn depth
    rw [scan, hn]
    rfl
  refine ⟨_, rfl, ?_⟩
  show scan (996 + 1 + 1 + 1 + 1) _ = _
  simp only [scan, scanItems, scanMembers, hzero, h]
  rfl

theorem harmful_scored {score : Number} (h : score.tooLong = false) (hfits : ¬ score.Fits) :
    Harmful oneReranker (scored score) := by
  obtain ⟨document, hreply, hscan⟩ := scan_scored h 0
  have hdocument : document = .obj [("results", .arr [.obj [("index", .num (.int 0)),
      ("relevance_score", .num score)]])] := by
    injection hreply with _ hbody
    injection hbody with heq
    exact heq.symm
  have hout : OutOfRange [.obj [("index", .num (.int 0)), ("relevance_score", .num score)]] :=
    ⟨(0, score), ⟨⟨_, rfl⟩, rfl, rfl⟩, Or.inl hfits⟩
  have hitems : document.get? "results"
      = some (.arr [.obj [("index", .num (.int 0)), ("relevance_score", .num score)]]) := by
    rw [hdocument]
    rfl
  exact ⟨0, ⟨Nat.zero_le _, fun j hj => absurd hj (Nat.not_lt_zero j)⟩,
    Or.inr ⟨document, _, ⟨hreply, hscan, _, hdocument⟩, hitems, hout⟩⟩

end CctvMemory.Search
