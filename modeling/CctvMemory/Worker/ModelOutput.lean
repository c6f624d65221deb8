import CctvMemory.Library.JsonScan
import CctvMemory.Worker.VlmInput
import Mathlib.Data.List.DropRight

/-!
# What is read of a model's answer

`validate_json_model_output`: the text of a JSON object is cut out of an answer, read,
freed of forbidden fields and handed to a schema. The whole first line of a fence is
cut, with what of the object stands on it.

* `parsed_iff`: when the object is what is read of the answer around it.
* `handsOn_validate`: what the schema is given.
-/

namespace CctvMemory.Worker.ModelOutput

open CctvMemory.Worker.VlmInput (Dict setItem update)
open JsonText (Value NumberFormat ObjectText loads openBrace closeBrace)

/-! ## Texts -/

abbrev newline : Char := Char.ofNat 10

abbrev backtick : Char := Char.ofNat 96

def fence : List Char := [backtick, backtick, backtick]

/-- `str.isspace` of one character. -/
def isspace (c : Char) : Bool :=
  decide (c.toNat ∈ [9, 10, 11, 12, 13, 28, 29, 30, 31, 32, 133, 160, 5760, 8232, 8233, 8239,
    8287, 12288]) || decide (8192 ≤ c.toNat ∧ c.toNat ≤ 8202)

def lstrip (text : List Char) : List Char := text.dropWhile isspace

def rstrip (text : List Char) : List Char := text.rdropWhile isspace

def strip (text : List Char) : List Char := rstrip (lstrip text)

/-- `text.find(c)`. -/
def find (c : Char) (text : List Char) : Option ℕ := text.idxOf? c

/-- `text.rfind(c)`. -/
def rfind (c : Char) (text : List Char) : Option ℕ :=
  (text.reverse.idxOf? c).map fun i => text.length - 1 - i

/-! ## The object's text -/

def stripFenceStart (cleaned : List Char) : List Char × List String :=
  match find newline cleaned with
  | some i => (cleaned.drop (i + 1), ["strip_code_fence_start"])
  | none => (cleaned, [])

def stripFenceEnd (cleaned : List Char) : List Char × List String :=
  if fence.isSuffixOf (rstrip cleaned) then
    ((rstrip cleaned).take ((rstrip cleaned).length - 3), ["strip_code_fence_end"])
  else (cleaned, [])

def stripCodeFences (text : List Char) : List Char × List String :=
  let cleaned := strip text
  if fence.isPrefixOf cleaned then
    let opened := stripFenceStart cleaned
    let closed := stripFenceEnd opened.1
    (strip closed.1, opened.2 ++ closed.2)
  else (strip cleaned, [])

def extractJsonObject (text : List Char) : List Char × List String :=
  let (cleaned, actions) := stripCodeFences text
  match find openBrace cleaned, rfind closeBrace cleaned with
  | some start, some last =>
      if start < last then
        let extracted := (cleaned.take (last + 1)).drop start
        (extracted, if extracted ≠ cleaned then actions ++ ["extract_json_object"] else actions)
      else (cleaned, actions)
  | _, _ => (cleaned, actions)

/-! ## The payload -/

section Payload

variable {ν τ ε : Type}

theorem nodup_setItem {d : List (String × ν)} (h : (d.map Prod.fst).Nodup) (k : String) (v : ν) :
    ((setItem d k v).map Prod.fst).Nodup := by
  unfold setItem
  split
  · have hkeys : (d.map fun m => if m.1 = k then (k, v) else m).map Prod.fst = d.map Prod.fst := by
      rw [List.map_map]
      refine List.map_congr_left fun m _ => ?_
      by_cases hm : m.1 = k
      · simp [hm]
      · simp [hm]
    rw [hkeys]
    exact h
  · rename_i hk
    rw [List.map_append, List.nodup_append]
    refine ⟨h, List.nodup_singleton k, ?_⟩
    intro a ha b hb hab
    rw [List.map_singleton, List.mem_singleton] at hb
    rw [hab, hb] at ha
    exact hk ha

theorem nodup_update {more : List (String × ν)} : ∀ {d : List (String × ν)},
    (d.map Prod.fst).Nodup → ((update d more).map Prod.fst).Nodup := by
  induction more with
  | nil => exact fun h => h
  | cons m more ih => exact fun h => ih (nodup_setItem h m.1 m.2)

/-- The dictionary that an object is read into. -/
def dictOf (members : List (String × ν)) : Dict ν :=
  ⟨update [] members, nodup_update List.nodup_nil⟩

/-- The payload without the fields, and what that did. -/
def stripForbiddenFields (payload : Dict ν) (forbidden : List String) : Dict ν × List String :=
  let stripped : Dict ν :=
    ⟨payload.items.filter fun m => decide (m.1 ∉ forbidden),
      payload.nodup.sublist (List.filter_sublist.map _)⟩
  let removed := ((payload.items.map Prod.fst).filter fun k =>
    decide (k ∉ stripped.items.map Prod.fst)).mergeSort fun a b => decide (a ≤ b)
  (stripped, removed.map fun field => "strip_forbidden_field:" ++ field)

structure ModelOutputValidationResult (ν τ : Type) where
  value : τ
  rawResponse : List Char
  parsedPayload : Dict (Value ν)
  repairedPayload : Dict (Value ν)
  validationStatus : String
  repairAttempted : Bool
  repairSucceeded : Bool
  repairActions : List String

structure ModelOutputValidationFailure (ν ε : Type) where
  message : String
  rawResponse : List Char
  stage : String
  parsedPayload : Option (Dict (Value ν))
  repairedPayload : Option (Dict (Value ν))
  validationErrors : List ε
  repairAttempted : Bool
  repairSucceeded : Bool
  repairActions : List String

/-- What `json.loads` is given, and reads. -/
def parsed (F : NumberFormat ν) (rawResponse : List Char) : Option (Value ν) :=
  loads F (extractJsonObject rawResponse).1

/-- `decodeError` is the name and text of the error that `json.loads` raises. -/
def validateJsonModelOutput (F : NumberFormat ν) (decodeError : List Char → String)
    (schema : Dict (Value ν) → Except (List ε) τ) (rawResponse : List Char)
    (forbiddenFields : List String) :
    Except (ModelOutputValidationFailure ν ε) (ModelOutputValidationResult ν τ) :=
  let actions := (extractJsonObject rawResponse).2
  match parsed F rawResponse with
  | none => .error
      { message := "JSON parse failed: " ++ decodeError (extractJsonObject rawResponse).1
        rawResponse := rawResponse
        stage := "json_parse_failed"
        parsedPayload := none
        repairedPayload := none
        validationErrors := []
        repairAttempted := !actions.isEmpty
        repairSucceeded := false
        repairActions := actions }
  | some (.obj members) =>
      let payload := dictOf members
      let (repaired, fieldActions) := stripForbiddenFields payload forbiddenFields
      let allActions := actions ++ fieldActions
      match schema repaired with
      | .error errors => .error
          { message := "Schema validation failed"
            rawResponse := rawResponse
            stage := "schema_validation_failed"
            parsedPayload := some payload
            repairedPayload := some repaired
            validationErrors := errors
            repairAttempted := !allActions.isEmpty
            repairSucceeded := false
            repairActions := allActions }
      | .ok value => .ok
          { value := value
            rawResponse := rawResponse
            parsedPayload := payload
            repairedPayload := repaired
            validationStatus := if allActions.isEmpty then "passed" else "repair_succeeded"
            repairAttempted := !allActions.isEmpty
            repairSucceeded := !allActions.isEmpty
            repairActions := allActions }
  | some value => .error
      { message := "JSON payload must be an object"
        rawResponse := rawResponse
        stage := "json_shape_failed"
        parsedPayload := some (dictOf [("value", value)])
        repairedPayload := none
        validationErrors := []
        repairAttempted := !actions.isEmpty
        repairSucceeded := false
        repairActions := actions }

end Payload

/-! ## Around the object -/

section Texts

variable {text p q : List Char} {c : Char}

theorem find_append_cons (h : c ∉ p) : find c (p ++ c :: q) = some p.length := by
  unfold find
  induction p with
  | nil => simp [List.idxOf?_cons]
  | cons d p ih =>
      rw [List.mem_cons, not_or] at h
      rw [List.cons_append, List.idxOf?_cons, if_neg (by simpa using Ne.symm h.1), ih h.2]
      rfl

theorem rfind_append_cons (h : c ∉ q) : rfind c (p ++ c :: q) = some p.length := by
  have hreverse : (p ++ c :: q).reverse = q.reverse ++ c :: p.reverse := by simp
  have hfind := find_append_cons (q := p.reverse) (mt List.mem_reverse.mp h)
  unfold rfind
  rw [hreverse]
  unfold find at hfind
  rw [hfind, Option.map_some, List.length_append, List.length_cons, List.length_reverse]
  congr 1
  omega

theorem closeBrace_mem (h : text.getLast? = some closeBrace) : closeBrace ∈ text :=
  List.mem_of_getLast? h

theorem lstrip_append (h : ∃ d ∈ text, isspace d = false) :
    lstrip (text ++ q) = lstrip text ++ q := by
  obtain ⟨d, hd, hspace⟩ := h
  unfold lstrip
  rw [List.dropWhile_append, if_neg]
  rw [List.isEmpty_iff, List.dropWhile_eq_nil_iff]
  intro hall
  rw [hall d hd] at hspace
  cases hspace

theorem rstrip_append (h : text.getLast? = some c) (hc : isspace c = false) :
    rstrip (text ++ q) = text ++ rstrip q := by
  obtain ⟨text, rfl⟩ := List.getLast?_eq_some_iff.mp h
  unfold rstrip
  induction q using List.reverseRecOn with
  | nil =>
      rw [List.append_nil, List.rdropWhile_nil, List.append_nil]
      exact List.rdropWhile_concat_neg _ _ _ (by rw [hc]; decide)
  | append_singleton q d ih =>
      rw [← List.append_assoc, List.rdropWhile_concat, List.rdropWhile_concat]
      split
      · exact ih
      · rw [List.append_assoc]

theorem lstrip_subset : lstrip text ⊆ text := (List.dropWhile_sublist isspace).subset

theorem rstrip_subset : rstrip text ⊆ text := (List.rdropWhile_prefix isspace text).subset

theorem strip_subset : strip text ⊆ text := fun _ h => lstrip_subset (rstrip_subset h)

/-- Only white space is stripped. -/
theorem mem_lstrip (hc : isspace c = false) : c ∈ lstrip text ↔ c ∈ text := by
  refine ⟨fun h => lstrip_subset h, fun h => ?_⟩
  rw [← List.takeWhile_append_dropWhile (p := isspace) (l := text), List.mem_append] at h
  rcases h with h | h
  · rw [List.mem_takeWhile_imp h] at hc
    cases hc
  · exact h

theorem getLast?_lstrip (hc : isspace c = false) (h : text.getLast? = some c) :
    (lstrip text).getLast? = some c := by
  obtain ⟨text, rfl⟩ := List.getLast?_eq_some_iff.mp h
  unfold lstrip
  rw [List.dropWhile_append]
  split
  · rw [List.dropWhile_cons, hc]
    rfl
  · rw [List.getLast?_append]
    rfl

theorem strip_append (h : text.getLast? = some closeBrace) :
    strip (text ++ q) = lstrip text ++ rstrip q := by
  unfold strip
  rw [lstrip_append ⟨closeBrace, closeBrace_mem h, by decide⟩]
  exact rstrip_append (getLast?_lstrip (by decide) h) (by decide)

/-- A text that ends in a brace keeps it when the end of a fence behind it is cut. -/
theorem stripFenceEnd_append (h : text.getLast? = some closeBrace) :
    ∃ r, strip (stripFenceEnd (text ++ q)).1 = lstrip text ++ r ∧ r ⊆ q := by
  unfold stripFenceEnd
  have hrstrip : rstrip (text ++ q) = text ++ rstrip q := rstrip_append h (by decide)
  split
  · rename_i hsuffix
    obtain ⟨w, hw⟩ := List.isSuffixOf_iff_suffix.mp hsuffix
    rw [hrstrip] at hw ⊢
    have hr : ∃ r, w = text ++ r ∧ r ⊆ q := by
      rcases List.append_eq_append_iff.mp hw with ⟨r, hr, hfence⟩ | ⟨r, hr, hfence⟩
      · -- the end of the fence is behind the brace
        cases hlast : r.getLast? with
        | none =>
            rw [List.getLast?_eq_none_iff.mp hlast, List.append_nil] at hr
            exact ⟨[], by rw [hr, List.append_nil], List.nil_subset q⟩
        | some d =>
            rw [hr, List.getLast?_append, hlast] at h
            cases h
            have hmem : closeBrace ∈ fence := by
              rw [hfence]
              exact List.mem_append_left _ (closeBrace_mem hlast)
            exact absurd hmem (by decide)
      · refine ⟨r, hr, fun d hd => rstrip_subset ?_⟩
        rw [hfence]
        exact List.mem_append_left _ hd
    obtain ⟨r, rfl, hr⟩ := hr
    refine ⟨rstrip r, ?_, fun _ hd => hr (rstrip_subset hd)⟩
    have htake : (text ++ rstrip q).take ((text ++ rstrip q).length - 3) = text ++ r := by
      rw [← hw, List.length_append]
      exact List.take_left
    rw [htake]
    exact strip_append h
  · exact ⟨rstrip q, strip_append h, rstrip_subset⟩

theorem stripFenceEnd_subset : (stripFenceEnd text).1 ⊆ text := by
  unfold stripFenceEnd
  split
  · exact fun _ h => rstrip_subset (List.mem_of_mem_take h)
  · exact fun _ h => h

theorem stripFenceStart_append_cons (h : newline ∉ p) :
    (stripFenceStart (p ++ newline :: q)).1 = q := by
  unfold stripFenceStart
  rw [find_append_cons h]
  show (p ++ newline :: q).drop (p.length + 1) = q
  rw [List.drop_append]
  simp

theorem stripFenceStart_of_not_mem (h : newline ∉ text) : (stripFenceStart text).1 = text := by
  have hfind : find newline text = none := List.idxOf?_eq_none_iff.mpr h
  unfold stripFenceStart
  rw [hfind]

end Texts

/-- The rest of the text behind its first line. -/
def afterLine (text : List Char) : List Char := (text.dropWhile fun c => decide (c ≠ newline)).tail

theorem afterLine_append_cons {p q : List Char} (h : newline ∉ p) :
    afterLine (p ++ newline :: q) = q := by
  unfold afterLine
  rw [List.dropWhile_append_of_pos, List.dropWhile_cons_of_neg]
  · rfl
  · simp
  · intro c hc
    refine decide_eq_true ?_
    rintro rfl
    exact h hc

/-- What is cut with the first line of a fence is in front of the object, and no brace
is left there. -/
def Kept (before object after : List Char) : Prop :=
  let opening := lstrip before
  if fence.isPrefixOf opening then
    if newline ∈ opening then openBrace ∉ afterLine opening
    else openBrace ∉ opening ∧ newline ∉ object ++ rstrip after
  else openBrace ∉ opening

instance (before object after : List Char) : Decidable (Kept before object after) := by
  unfold Kept
  infer_instance

/-- Behind prose without braces an object is lost only to a fence whose first line is
still open where the object begins, and ends later. -/
theorem kept_iff {before object after : List Char} (h : openBrace ∉ before) :
    Kept before object after ↔ ¬ (fence.isPrefixOf (lstrip before) = true ∧
      newline ∉ lstrip before ∧ newline ∈ object ++ rstrip after) := by
  have hopening : openBrace ∉ lstrip before := fun hmem => h (lstrip_subset hmem)
  unfold Kept
  by_cases hfence : fence.isPrefixOf (lstrip before) = true
  · simp only [if_pos hfence]
    by_cases hline : newline ∈ lstrip before
    · have hafter : openBrace ∉ afterLine (lstrip before) := fun hmem =>
        hopening ((List.dropWhile_sublist _).subset (List.mem_of_mem_tail hmem))
      rw [if_pos hline]
      exact iff_of_true hafter fun hlost => hlost.2.1 hline
    · rw [if_neg hline]
      exact ⟨fun hkept hlost => hkept.2 hlost.2.2,
        fun hlost => ⟨hopening, fun hlater => hlost ⟨hfence, hline, hlater⟩⟩⟩
  · simp only [if_neg hfence]
    exact iff_of_true hopening fun hlost => hfence hlost.1

section Answer

variable {ν : Type} {F : NumberFormat ν} {before object after raw : List Char}
  {members : List (String × Value ν)}

theorem extract_of_not_mem (h : openBrace ∉ (stripCodeFences raw).1) :
    (extractJsonObject raw).1 = (stripCodeFences raw).1 := by
  have hfind : find openBrace (stripCodeFences raw).1 = none := List.idxOf?_eq_none_iff.mpr h
  unfold extractJsonObject
  simp only [hfind]

/-- From the first opening brace to the last closing one. -/
theorem extract_eq {p text q : List Char} (h : (stripCodeFences raw).1 = p ++ text ++ q)
    (hp : openBrace ∉ p) (hq : closeBrace ∉ q) (hhead : text.head? = some openBrace)
    (hlast : text.getLast? = some closeBrace) : (extractJsonObject raw).1 = text := by
  have hopen : text = openBrace :: text.tail := List.eq_cons_of_mem_head? hhead
  obtain ⟨init, hclose⟩ := List.getLast?_eq_some_iff.mp hlast
  have hinit : init ≠ [] := by
    rintro rfl
    rw [hclose] at hhead
    cases hhead
  have hfind : find openBrace (stripCodeFences raw).1 = some p.length := by
    rw [h, hopen, List.append_assoc, List.cons_append]
    exact find_append_cons hp
  have hrfind : rfind closeBrace (stripCodeFences raw).1 = some (p ++ init).length := by
    have hsplit : p ++ text ++ q = (p ++ init) ++ closeBrace :: q := by
      rw [hclose]
      simp
    rw [h, hsplit]
    exact rfind_append_cons hq
  have hlt : p.length < (p ++ init).length := by
    rw [List.length_append]
    have := List.length_pos_of_ne_nil hinit
    omega
  unfold extractJsonObject
  simp only [hfind, hrfind, if_pos hlt]
  have hlength : (p ++ init).length + 1 = (p ++ text).length := by
    rw [hclose]
    simp
    omega
  rw [h, hlength, List.take_left, List.drop_left]

theorem parsed_of_not_mem (h : openBrace ∉ (stripCodeFences raw).1) :
    parsed F raw ≠ some (.obj members) := by
  intro hloads
  unfold parsed at hloads
  rw [extract_of_not_mem h] at hloads
  exact h (JsonText.openBrace_mem_of_loads hloads)

theorem lstrip_object (hobject : ObjectText F object members) {p : List Char} :
    lstrip (p ++ object) = lstrip p ++ object := by
  unfold lstrip
  rw [List.dropWhile_append]
  split
  · rename_i hempty
    rw [List.isEmpty_iff.mp hempty, List.eq_cons_of_mem_head? hobject.head]
    rfl
  · rfl

/-- The object is all there: it is read unless a brace is left in front of it. -/
theorem parsed_of_whole (hobject : ObjectText F object members) {p q : List Char}
    (h : (stripCodeFences raw).1 = lstrip (p ++ object) ++ q) (hq : closeBrace ∉ q) :
    parsed F raw = some (.obj members) ↔ openBrace ∉ p := by
  rw [lstrip_object hobject] at h
  have hmem : openBrace ∈ lstrip p ↔ openBrace ∈ p := mem_lstrip (by decide)
  rw [← hmem]
  constructor
  · intro hparsed hbrace
    obtain ⟨a, b, hab, ha⟩ := List.eq_append_cons_of_mem hbrace
    have hsplit : (stripCodeFences raw).1 = a ++ (openBrace :: b ++ object) ++ q := by
      rw [h, hab]
      simp
    have hlast : (openBrace :: b ++ object).getLast? = some closeBrace := by
      rw [List.getLast?_append, hobject.last]
      rfl
    unfold parsed at hparsed
    rw [extract_eq hsplit ha hq rfl hlast,
      JsonText.loads_append_eq_none hobject rfl] at hparsed
    cases hparsed
  · intro hbrace
    unfold parsed
    rw [extract_eq h hbrace hq hobject.head hobject.last]
    exact hobject.loads_eq

/-- The first part of the object is gone. -/
theorem parsed_of_cut (hobject : ObjectText F object members) {u tail q : List Char}
    (hcut : object = u ++ tail) (hu : u ≠ []) (hlast : tail.getLast? = some closeBrace)
    (h : (stripCodeFences raw).1 = lstrip tail ++ q) (hqopen : openBrace ∉ q)
    (hqclose : closeBrace ∉ q) : parsed F raw ≠ some (.obj members) := by
  by_cases hbrace : openBrace ∈ lstrip tail
  · obtain ⟨a, b, hab, ha⟩ := List.eq_append_cons_of_mem hbrace
    have hb : (openBrace :: b).getLast? = some closeBrace := by
      have hlstrip := getLast?_lstrip (by decide) hlast
      rw [hab, List.getLast?_append_of_ne_nil _ (List.cons_ne_nil _ _)] at hlstrip
      exact hlstrip
    have hsuffix : object = (u ++ tail.takeWhile isspace ++ a) ++ openBrace :: b := by
      rw [hcut, List.append_assoc, ← hab, List.append_assoc]
      exact congrArg (u ++ ·) (List.takeWhile_append_dropWhile ..).symm
    have hnone : loads F (openBrace :: b) = none := by
      rw [hsuffix] at hobject
      refine JsonText.loads_suffix_eq_none hobject ?_ rfl
      intro hnil
      rw [List.append_eq_nil_iff, List.append_eq_nil_iff] at hnil
      exact hu hnil.1.1
    rw [hab] at h
    unfold parsed
    rw [extract_eq h ha hqclose rfl hb, hnone]
    nofun
  · refine parsed_of_not_mem ?_
    rw [h, List.mem_append, not_or]
    exact ⟨hbrace, hqopen⟩

theorem strip_answer (hobject : ObjectText F object members) (before after : List Char) :
    strip (before ++ object ++ after) = lstrip before ++ object ++ rstrip after := by
  have hlast : (before ++ object).getLast? = some closeBrace := by
    rw [List.getLast?_append, hobject.last]
    rfl
  rw [strip_append hlast, lstrip_object hobject]

theorem fence_append_iff (hobject : ObjectText F object members) {p q : List Char} :
    fence.isPrefixOf (p ++ object ++ q) = true ↔ fence.isPrefixOf p = true := by
  rw [List.isPrefixOf_iff_prefix, List.isPrefixOf_iff_prefix, List.append_assoc]
  refine ⟨fun h => ?_, fun h => h.trans (List.prefix_append p _)⟩
  obtain ⟨w, hw⟩ := h
  rcases List.append_eq_append_iff.mp hw with ⟨r, hr, -⟩ | ⟨r, hr, hobj⟩
  · exact ⟨r, hr.symm⟩
  · cases r with
    | nil => exact ⟨[], by rw [List.append_nil, hr, List.append_nil]⟩
    | cons c r =>
        rw [List.eq_cons_of_mem_head? hobject.head] at hobj
        obtain ⟨hc, -⟩ := List.cons.inj hobj
        have hmem : c ∈ fence := by
          rw [hr]
          exact List.mem_append_right _ List.mem_cons_self
        rw [← hc] at hmem
        exact absurd hmem (by decide)

/-- What is left of the answer when no fence is in front. -/
theorem stripCodeFences_of_not_fence (hobject : ObjectText F object members)
    (h : ¬ fence.isPrefixOf (lstrip before) = true) :
    (stripCodeFences (before ++ object ++ after)).1
      = lstrip (lstrip before ++ object) ++ rstrip (rstrip after) := by
  have hstrip := strip_answer hobject before after
  have hlast : (lstrip before ++ object).getLast? = some closeBrace := by
    rw [List.getLast?_append, hobject.last]
    rfl
  unfold stripCodeFences
  rw [hstrip, if_neg ((fence_append_iff hobject).not.mpr h)]
  exact strip_append hlast

/-- With a fence in front, what is behind `opened` is cut at its end. -/
theorem stripCodeFences_of_fence (hobject : ObjectText F object members)
    (h : fence.isPrefixOf (lstrip before) = true) (after : List Char) :
    (stripCodeFences (before ++ object ++ after)).1
      = strip (stripFenceEnd (stripFenceStart (lstrip before ++ object ++ rstrip after)).1).1 := by
  have hstrip := strip_answer hobject before after
  unfold stripCodeFences
  rw [hstrip, if_pos ((fence_append_iff hobject).mpr h)]

/-- The line break that ends the first line is in the object or behind it. -/
theorem parsed_of_lost (hobject : ObjectText F object members)
    (hfence : fence.isPrefixOf (lstrip before) = true) (hline : newline ∉ lstrip before)
    (hlater : newline ∈ object ++ rstrip after) (hopen : openBrace ∉ after)
    (hclose : closeBrace ∉ after) :
    parsed F (before ++ object ++ after) ≠ some (.obj members) := by
  have hcleaned := stripCodeFences_of_fence hobject hfence after
  by_cases hmem : newline ∈ object
  · obtain ⟨u, tail, hcut, hu⟩ := List.eq_append_cons_of_mem hmem
    have hstart : (stripFenceStart (lstrip before ++ object ++ rstrip after)).1
        = tail ++ rstrip after := by
      have hsplit : lstrip before ++ object ++ rstrip after
          = (lstrip before ++ u) ++ newline :: (tail ++ rstrip after) := by
        rw [hcut]
        simp
      rw [hsplit]
      exact stripFenceStart_append_cons fun h => (List.mem_append.mp h).elim hline hu
    have htail : tail.getLast? = some closeBrace := by
      have hlast := hobject.last
      rw [hcut, List.getLast?_append_of_ne_nil _ (List.cons_ne_nil _ _)] at hlast
      cases tail with
      | nil => cases hlast
      | cons c tail => exact hlast
    obtain ⟨r, hr, hsubset⟩ := stripFenceEnd_append (q := rstrip after) htail
    rw [hstart, hr] at hcleaned
    have hcut' : object = (u ++ [newline]) ++ tail := by
      rw [hcut]
      simp
    refine parsed_of_cut hobject hcut' ?_ htail hcleaned ?_ ?_
    · simp
    · exact fun h => hopen (rstrip_subset (hsubset h))
    · exact fun h => hclose (rstrip_subset (hsubset h))
  · have hafter : newline ∈ rstrip after := (List.mem_append.mp hlater).resolve_left hmem
    obtain ⟨u, tail, hcut, hu⟩ := List.eq_append_cons_of_mem hafter
    have hstart : (stripFenceStart (lstrip before ++ object ++ rstrip after)).1 = tail := by
      have hsplit : lstrip before ++ object ++ rstrip after
          = (lstrip before ++ object ++ u) ++ newline :: tail := by
        rw [hcut]
        simp
      rw [hsplit]
      refine stripFenceStart_append_cons fun h => ?_
      rcases List.mem_append.mp h with h | h
      · exact (List.mem_append.mp h).elim hline hmem
      · exact hu h
    refine parsed_of_not_mem ?_
    rw [hcleaned, hstart]
    intro h
    refine hopen (rstrip_subset ?_)
    rw [hcut]
    exact List.mem_append_right _
      (List.mem_cons_of_mem _ (stripFenceEnd_subset (strip_subset h)))

/-- The object is what is read exactly when it is kept. -/
theorem parsed_iff (hobject : ObjectText F object members) (hopen : openBrace ∉ after)
    (hclose : closeBrace ∉ after) :
    parsed F (before ++ object ++ after) = some (.obj members) ↔ Kept before object after := by
  have hlast : ∀ p : List Char, (p ++ object).getLast? = some closeBrace := by
    intro p
    rw [List.getLast?_append, hobject.last]
    rfl
  unfold Kept
  by_cases hfence : fence.isPrefixOf (lstrip before) = true
  · have hcleaned := stripCodeFences_of_fence hobject hfence after
    simp only [if_pos hfence]
    by_cases hline : newline ∈ lstrip before
    · rw [if_pos hline]
      obtain ⟨p, q, hpq, hp⟩ := List.eq_append_cons_of_mem hline
      have hstart : (stripFenceStart (lstrip before ++ object ++ rstrip after)).1
          = (q ++ object) ++ rstrip after := by
        have hsplit : lstrip before ++ object ++ rstrip after
            = p ++ newline :: (q ++ object ++ rstrip after) := by
          rw [hpq]
          simp
        rw [hsplit]
        exact stripFenceStart_append_cons hp
      obtain ⟨r, hr, hsubset⟩ := stripFenceEnd_append (q := rstrip after) (hlast q)
      rw [hstart, hr] at hcleaned
      rw [hpq, afterLine_append_cons hp]
      exact parsed_of_whole hobject hcleaned fun hmem => hclose (rstrip_subset (hsubset hmem))
    rw [if_neg hline]
    by_cases hlater : newline ∈ object ++ rstrip after
    · exact iff_of_false (parsed_of_lost hobject hfence hline hlater hopen hclose)
        fun h => h.2 hlater
    · rw [and_iff_left hlater]
      have hstart : (stripFenceStart (lstrip before ++ object ++ rstrip after)).1
          = (lstrip before ++ object) ++ rstrip after := by
        refine stripFenceStart_of_not_mem ?_
        rw [List.append_assoc, List.mem_append, not_or]
        exact ⟨hline, hlater⟩
      obtain ⟨r, hr, hsubset⟩ := stripFenceEnd_append (q := rstrip after) (hlast (lstrip before))
      rw [hstart, hr] at hcleaned
      exact parsed_of_whole hobject hcleaned fun hmem => hclose (rstrip_subset (hsubset hmem))
  · simp only [if_neg hfence]
    exact parsed_of_whole hobject (stripCodeFences_of_not_fence hobject hfence) fun hmem =>
      hclose (rstrip_subset (rstrip_subset hmem))

end Answer

/-! ## The payload that is handed on -/

section Handed

variable {ν τ ε : Type} {F : NumberFormat ν}

theorem lookup_cons (m : String × ν) (d : List (String × ν)) (k : String) :
    List.lookup k (m :: d) = if k = m.1 then some m.2 else d.lookup k := by
  rw [List.lookup_cons]
  by_cases hk : k = m.1
  · rw [if_pos hk, beq_iff_eq.mpr hk]
  · rw [if_neg hk, beq_eq_false_iff_ne.mpr hk]

theorem lookup_replace (d : List (String × ν)) (k : String) (v : ν) (x : String) :
    (d.map fun m => if m.1 = k then (k, v) else m).lookup x
      = if x = k then (d.lookup k).map fun _ => v else d.lookup x := by
  induction d with
  | nil =>
      split
      · rfl
      · rfl
  | cons m d ih =>
      rw [List.map_cons, lookup_cons, ih, lookup_cons, lookup_cons]
      by_cases hm : m.1 = k
      · rw [if_pos hm, if_pos hm.symm, hm]
        by_cases hx : x = k
        · rw [if_pos hx, if_pos hx, Option.map_some]
        · rw [if_neg hx, if_neg hx, if_neg hx, if_neg hx]
      · rw [if_neg hm, if_neg (Ne.symm hm)]
        by_cases hx : x = k
        · rw [if_pos hx, if_pos hx, hx, if_neg (Ne.symm hm)]
        · rw [if_neg hx, if_neg hx]

theorem lookup_setItem (d : List (String × ν)) (k : String) (v : ν) (x : String) :
    (setItem d k v).lookup x = if x = k then some v else d.lookup x := by
  unfold setItem
  split
  · rename_i hk
    obtain ⟨m, hm, rfl⟩ := List.mem_map.mp hk
    have hsome : (d.lookup m.1).isSome = true := by
      rw [List.lookup_isSome_iff]
      exact ⟨m, hm, beq_self_eq_true m.1⟩
    obtain ⟨u, hu⟩ := Option.isSome_iff_exists.mp hsome
    rw [lookup_replace, hu]
    rfl
  · rename_i hk
    rw [List.lookup_append, lookup_cons, List.lookup_nil]
    by_cases hx : x = k
    · have hnone : d.lookup x = none := by
        rw [List.lookup_eq_none_iff]
        intro m hm
        have hne : x ≠ m.1 := by
          intro h
          rw [← hx, h] at hk
          exact hk (List.mem_map_of_mem hm)
        exact bne_iff_ne.mpr hne
      rw [hnone, Option.none_or, if_pos hx]
    · rw [if_neg hx, if_neg hx, Option.or_none]

/-- The last member of a name counts. -/
theorem get?_dictOf (members : List (String × ν)) (k : String) :
    (dictOf members).get? k = members.reverse.lookup k := by
  show (update [] members).lookup k = _
  induction members using List.reverseRecOn with
  | nil => rfl
  | append_singleton members m ih =>
      unfold update at ih ⊢
      rw [List.foldl_append, List.reverse_append]
      show (setItem _ m.1 m.2).lookup k = List.lookup k (m :: members.reverse)
      rw [lookup_setItem, ih, lookup_cons]

/-- None of the fields, and every other as before. -/
def Stripped (forbidden : List String) (payload repaired : Dict ν) : Prop :=
  ∀ k, repaired.get? k = if k ∈ forbidden then none else payload.get? k

theorem stripped_stripForbiddenFields (payload : Dict ν) (forbidden : List String) :
    Stripped forbidden payload (stripForbiddenFields payload forbidden).1 := by
  intro k
  show (payload.items.filter fun m => decide (m.1 ∉ forbidden)).lookup k
    = if k ∈ forbidden then none else payload.items.lookup k
  induction payload.items with
  | nil =>
      split
      · rfl
      · rfl
  | cons m items ih =>
      rw [List.filter_cons, lookup_cons]
      by_cases hm : m.1 ∈ forbidden
      · rw [if_neg (by simpa using hm), ih]
        by_cases hk : k = m.1
        · rw [hk, if_pos hm, if_pos hm]
        · rw [if_neg hk]
      · rw [if_pos (by simpa using hm), lookup_cons, ih]
        by_cases hk : k = m.1
        · rw [if_pos hk, if_pos hk, hk, if_neg hm]
        · rw [if_neg hk, if_neg hk]

/-- What is known of a payload that was read, and of what a schema was given of it. -/
structure Handed (F : NumberFormat ν) (forbidden : List String) (raw : List Char)
    (payload repaired : Dict (Value ν)) : Prop where
  read : ∃ members, parsed F raw = some (.obj members) ∧
    ∀ k, payload.get? k = (Value.obj members).get? k
  stripped : Stripped forbidden payload repaired

theorem handed_of_parsed {raw : List Char} {members : List (String × Value ν)}
    (h : parsed F raw = some (.obj members)) (forbidden : List String) :
    Handed F forbidden raw (dictOf members)
      (stripForbiddenFields (dictOf members) forbidden).1 :=
  ⟨⟨members, h, get?_dictOf members⟩, stripped_stripForbiddenFields _ forbidden⟩

/-- A result or a failure tells what the schema was given, and what it said. -/
def HandsOn (F : NumberFormat ν) (schema : Dict (Value ν) → Except (List ε) τ)
    (forbidden : List String) (raw : List Char) :
    Except (ModelOutputValidationFailure ν ε) (ModelOutputValidationResult ν τ) → Prop
  | .ok result => Handed F forbidden raw result.parsedPayload result.repairedPayload ∧
      schema result.repairedPayload = .ok result.value
  | .error failure => ∀ repaired, failure.repairedPayload = some repaired →
      ∃ payload, failure.parsedPayload = some payload ∧
        Handed F forbidden raw payload repaired ∧
        schema repaired = .error failure.validationErrors

theorem handsOn_validate (decodeError : List Char → String)
    (schema : Dict (Value ν) → Except (List ε) τ) (raw : List Char) (forbidden : List String) :
    HandsOn F schema forbidden raw
      (validateJsonModelOutput F decodeError schema raw forbidden) := by
  unfold validateJsonModelOutput
  split
  · nofun
  · rename_i members hparsed
    have hhanded := handed_of_parsed hparsed forbidden
    dsimp only
    split
    · rename_i errors hschema
      rintro repaired ⟨⟩
      exact ⟨_, rfl, hhanded, hschema⟩
    · rename_i value hschema
      exact ⟨hhanded, hschema⟩
  · nofun

end Handed

/-- An object over three lines. -/
def threeLines : List Char :=
  [openBrace, newline] ++ "\"a\": 1".toList ++ [newline, closeBrace]

theorem objectText_threeLines :
    ObjectText JsonText.wholeNumbers threeLines [("a", .num 1)] where
  loads_eq := rfl
  head := rfl
  last := rfl

end CctvMemory.Worker.ModelOutput
