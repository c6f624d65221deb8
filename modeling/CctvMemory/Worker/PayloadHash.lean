import CctvMemory.Worker.VlmInput

/-!
# Payload hashes and the bodies they stand for

The hash of an attempt covers neither the model id nor the media mode nor the
strict reminder, and a sequential `high_freq_event` run records no options. What
the body depends on beside what the hash covers is `SameUnrecorded`.

* `same_body_iff`: a body tells its core fields and its options.
* `same_sentBody_iff`: what the bodies of equal hashes depend on.
* `identified_iff`: when equal hashes mean equal bodies.
-/

namespace CctvMemory.Worker.VlmInput

open JsonText (Value NumberFormat Same sortKeys)

variable {ν : Type}

/-! ## What the body depends on -/

section Update

variable {α : Type}

theorem setItem_of_not_mem {d : List (String × α)} {k : String} (h : k ∉ d.map Prod.fst) (v : α) :
    setItem d k v = d ++ [(k, v)] := if_neg h

/-- New keys are added at the end. -/
theorem update_eq_append {more : List (String × α)} : ∀ {d : List (String × α)},
    (more.map Prod.fst).Nodup → (∀ m ∈ more, m.1 ∉ d.map Prod.fst) → update d more = d ++ more := by
  induction more with
  | nil => exact fun _ _ => (List.append_nil _).symm
  | cons m more ih =>
      intro d hnodup hnew
      rw [List.map_cons, List.nodup_cons] at hnodup
      have hstep : update d (m :: more) = update (d ++ [m]) more := by
        unfold update
        rw [List.foldl_cons, setItem_of_not_mem (hnew m List.mem_cons_self)]
      rw [hstep, ih hnodup.2, List.append_assoc, List.singleton_append]
      intro n hn hmem
      rw [List.map_append, List.mem_append] at hmem
      rcases hmem with hmem | hmem
      · exact hnew n (List.mem_cons_of_mem _ hn) hmem
      · rw [List.map_singleton, List.mem_singleton] at hmem
        exact hnodup.1 (hmem ▸ List.mem_map_of_mem hn)

end Update

section Body

variable {P : Templates} {L : LowerCase} {a b : Attempt ν}

theorem nodup_safeExtraBody (d : Dict (Value ν)) :
    ((safeExtraBody L d).map Prod.fst).Nodup :=
  d.nodup.sublist (List.filter_sublist.map _)

/-- The core fields stay the system's. -/
theorem not_core_of_mem_safeExtraBody {d : Dict (Value ν)} {m : String × Value ν}
    (h : m ∈ safeExtraBody L d) : m.1 ∉ ["model", "messages"] := by
  have hsafe : L.lower m.1 ∉ denied := of_decide_eq_true (List.mem_filter.mp h).2
  intro hmem
  have hlower : L.lower m.1 = String.ofList (m.1.toList.map Char.toLower) := by
    refine L.lower_ascii m.1 ?_
    simp only [List.mem_cons, List.not_mem_nil, or_false] at hmem
    rcases hmem with hm | hm
    · rw [hm]
      rfl
    · rw [hm]
      rfl
  rw [hlower] at hsafe
  simp only [List.mem_cons, List.not_mem_nil, or_false] at hmem
  rcases hmem with hm | hm
  · rw [hm] at hsafe
    exact hsafe (by decide)
  · rw [hm] at hsafe
    exact hsafe (by decide)

/-- The members of the body. -/
def bodyMembers (L : LowerCase) (vlm : VlmSection ν) (systemPrompt : String)
    (parts : List (Value ν)) (strict : Bool) : List (String × Value ν) :=
  messagesBody vlm.modelId systemPrompt parts strict ++ safeExtraBody L vlm.extraBody

theorem update_messagesBody (vlm : VlmSection ν) (systemPrompt : String)
    (parts : List (Value ν)) (strict : Bool) :
    update (messagesBody vlm.modelId systemPrompt parts strict) (safeExtraBody L vlm.extraBody)
      = bodyMembers L vlm systemPrompt parts strict :=
  update_eq_append (nodup_safeExtraBody _) fun _ hm => not_core_of_mem_safeExtraBody hm

theorem nodup_bodyMembers (vlm : VlmSection ν) (systemPrompt : String) (parts : List (Value ν))
    (strict : Bool) : ((bodyMembers L vlm systemPrompt parts strict).map Prod.fst).Nodup := by
  unfold bodyMembers
  rw [List.map_append, List.nodup_append]
  refine ⟨by simp [messagesBody], nodup_safeExtraBody _, ?_⟩
  intro k hk l hl heq
  obtain ⟨m, hm, rfl⟩ := List.mem_map.mp hl
  subst heq
  exact not_core_of_mem_safeExtraBody hm hk

def isCore (k : String) : Bool := decide (k ∈ ["model", "messages"])

theorem filter_bodyMembers (vlm : VlmSection ν) (systemPrompt : String) (parts : List (Value ν))
    (strict : Bool) :
    (bodyMembers L vlm systemPrompt parts strict).filter (fun m => isCore m.1)
        = messagesBody vlm.modelId systemPrompt parts strict
      ∧ (bodyMembers L vlm systemPrompt parts strict).filter (fun m => !isCore m.1)
        = safeExtraBody L vlm.extraBody := by
  have hcore : ∀ m ∈ @messagesBody ν vlm.modelId systemPrompt parts strict,
      isCore m.1 = true := by
    intro m hm
    simp only [messagesBody, List.mem_cons, List.not_mem_nil, or_false] at hm
    rcases hm with rfl | rfl
    · rfl
    · rfl
  have hsafe : ∀ m ∈ safeExtraBody L vlm.extraBody, isCore m.1 = false := by
    intro m hm
    exact decide_eq_false (not_core_of_mem_safeExtraBody hm)
  unfold bodyMembers
  rw [List.filter_append, List.filter_append]
  constructor
  · rw [List.filter_eq_self.mpr hcore, List.filter_eq_nil_iff.mpr fun m hm => by simp [hsafe m hm],
      List.append_nil]
  · rw [List.filter_eq_nil_iff.mpr fun m hm => by simp [hcore m hm],
      List.filter_eq_self.mpr fun m hm => by simp [hsafe m hm], List.nil_append]

/-- Bodies are the same when their core fields and their options are. -/
theorem same_body_iff {vlm vlm' : VlmSection ν} {s s' : String} {parts parts' : List (Value ν)}
    {strict strict' : Bool} :
    Same (.obj (bodyMembers L vlm s parts strict)) (.obj (bodyMembers L vlm' s' parts' strict'))
      ↔ (vlm.modelId = vlm'.modelId ∧ s = s' ∧
          (userContent parts strict).map sortKeys = (userContent parts' strict').map sortKeys)
        ∧ Same (.obj (safeExtraBody L vlm.extraBody)) (.obj (safeExtraBody L vlm'.extraBody)) := by
  have hcore : Same (.obj (messagesBody vlm.modelId s parts strict))
      (.obj (messagesBody vlm'.modelId s' parts' strict'))
      ↔ vlm.modelId = vlm'.modelId ∧ s = s' ∧
        (userContent parts strict).map sortKeys = (userContent parts' strict').map sortKeys := by
    refine (JsonText.same_record_iff (by simp [messagesBody]) (by simp [messagesBody])).trans ?_
    unfold messagesBody
    simp only [List.map_cons, List.map_nil, List.cons.injEq, and_true, sortKeys,
      JsonText.sortItems_eq, Value.str.injEq, Value.arr.injEq]
    constructor
    · rintro ⟨hmodel, hsystem, huser⟩
      have hs := (JsonText.same_record_iff (by simp) (by simp)).mp hsystem
      have hu := (JsonText.same_record_iff (by simp) (by simp)).mp huser
      simp only [List.map_cons, List.map_nil, List.cons.injEq, and_true, true_and, sortKeys,
        JsonText.sortItems_eq, Value.str.injEq, Value.arr.injEq] at hs hu
      exact ⟨hmodel, hs, hu⟩
    · rintro ⟨hmodel, rfl, huser⟩
      refine ⟨hmodel, rfl, (JsonText.same_record_iff (by simp) (by simp)).mpr ?_⟩
      simp only [List.map_cons, List.map_nil, List.cons.injEq, and_true, true_and, sortKeys,
        JsonText.sortItems_eq, Value.arr.injEq]
      exact huser
  constructor
  · intro h
    have hmessages := JsonText.same_filter isCore (nodup_bodyMembers _ _ _ _) h
    have hoptions := JsonText.same_filter (fun k => !isCore k) (nodup_bodyMembers _ _ _ _) h
    rw [(filter_bodyMembers _ _ _ _).1, (filter_bodyMembers _ _ _ _).1] at hmessages
    rw [(filter_bodyMembers _ _ _ _).2, (filter_bodyMembers _ _ _ _).2] at hoptions
    exact ⟨hcore.mp hmessages, hoptions⟩
  · rintro ⟨hmessages, hoptions⟩
    refine JsonText.same_of_perm (nodup_bodyMembers _ _ _ _) ?_
    unfold bodyMembers JsonText.sorted
    rw [List.map_append, List.map_append]
    exact (JsonText.perm_of_same (hcore.mpr hmessages)).append (JsonText.perm_of_same hoptions)

end Body

/-! ## The media of the body -/

def mime (mediaInput : String) : String :=
  if mediaInput = "video" then "video/mp4" else "image/jpeg"

/-- The files the adapter reads. -/
def readUris (mediaInput : String) (frameUris : List String) : List String :=
  if mediaInput = "video" then frameUris.take 1 else frameUris

def mediaPart (mediaInput : String) (data : List UInt8) : Value ν :=
  imagePart (mime mediaInput) (Base64.encode Base64.standard data)

theorem readBase64_eq_ok_iff {files : Files} {uri : String} {base64 : List Char} :
    readBase64 files uri = .ok base64
      ↔ ∃ data, files uri = .ok data ∧ base64 = Base64.encode Base64.standard data := by
  unfold readBase64
  cases files uri with
  | error e => simp
  | ok data => simp [eq_comm]

theorem frameParts_eq_ok_iff {files : Files} : ∀ {uris : List String} {parts : List (Value ν)},
    frameParts files uris = .ok parts
      ↔ ∃ data : List (List UInt8), uris.map files = data.map .ok
          ∧ parts = data.map fun d => imagePart "image/jpeg" (Base64.encode Base64.standard d)
  | [], parts => by
      unfold frameParts
      constructor
      · intro h
        exact ⟨[], rfl, (Except.ok.inj h).symm⟩
      · rintro ⟨data, hdata, rfl⟩
        rw [List.map_eq_nil_iff.mp hdata.symm]
        rfl
  | uri :: uris, parts => by
      unfold frameParts
      constructor
      · intro h
        cases hread : readBase64 files uri with
        | error e =>
            rw [hread] at h
            cases h
        | ok base64 =>
            obtain ⟨d, hd, rfl⟩ := readBase64_eq_ok_iff.mp hread
            rw [hread] at h
            cases hrest : @frameParts ν files uris with
            | error e =>
                rw [hrest] at h
                cases h
            | ok more =>
                rw [hrest] at h
                obtain ⟨data, hdata, rfl⟩ := frameParts_eq_ok_iff.mp hrest
                refine ⟨d :: data, ?_, (Except.ok.inj h).symm⟩
                rw [List.map_cons, List.map_cons, hd, hdata]
      · rintro ⟨data, hdata, rfl⟩
        cases data with
        | nil => cases hdata
        | cons d data =>
            rw [List.map_cons, List.map_cons, List.cons.injEq] at hdata
            rw [readBase64_eq_ok_iff.mpr ⟨d, hdata.1, rfl⟩,
              frameParts_eq_ok_iff.mpr ⟨data, hdata.2, rfl⟩]
            rfl

theorem buildMediaParts_eq_ok_iff {mediaInput : String} {files : Files} {uris : List String}
    {parts : List (Value ν)} :
    buildMediaParts mediaInput files uris = .ok parts
      ↔ uris ≠ [] ∧ ∃ data : List (List UInt8),
          (readUris mediaInput uris).map files = data.map .ok
            ∧ parts = data.map (mediaPart mediaInput) := by
  cases uris with
  | nil => simp [buildMediaParts]
  | cons uri uris =>
      unfold buildMediaParts readUris mediaPart mime
      simp only [ne_eq, reduceCtorEq, not_false_eq_true, true_and]
      split
      · constructor
        · intro h
          cases hread : readBase64 files uri with
          | error e =>
              rw [hread] at h
              cases h
          | ok base64 =>
              obtain ⟨d, hd, rfl⟩ := readBase64_eq_ok_iff.mp hread
              rw [hread] at h
              refine ⟨[d], ?_, (Except.ok.inj h).symm⟩
              rw [List.take_succ_cons, List.take_zero, List.map_singleton, hd]
              rfl
        · rintro ⟨data, hdata, rfl⟩
          rw [List.take_succ_cons, List.take_zero, List.map_singleton] at hdata
          obtain ⟨d, rfl⟩ : ∃ d, data = [d] := by
            rw [← List.length_eq_one_iff, ← List.length_map, ← hdata]
            rfl
          rw [List.map_singleton, List.cons.injEq] at hdata
          rw [readBase64_eq_ok_iff.mpr ⟨d, hdata.1, rfl⟩]
          rfl
      · exact frameParts_eq_ok_iff

section Sent

variable {P : Templates} {L : LowerCase} {a b : Attempt ν}

/-- There is a body: the files it takes can be read. -/
structure Sends (a : Attempt ν) : Prop where
  media : a.request.frameUris ≠ []
  readable : ∀ u ∈ readUris a.vlm.mediaInput a.request.frameUris, ∃ data, a.files u = .ok data

theorem sentBody_eq_ok_iff {x : Value ν} :
    a.sentBody P L = .ok x
      ↔ a.request.frameUris ≠ [] ∧ ∃ data : List (List UInt8),
          (readUris a.vlm.mediaInput a.request.frameUris).map a.files = data.map .ok
            ∧ x = .obj (bodyMembers L a.vlm (buildPrompt P a.request.analysisScale)
                (data.map (mediaPart a.vlm.mediaInput)) a.strictSchema) := by
  unfold Attempt.sentBody analyzeSegment
  constructor
  · intro h
    cases hparts : @buildMediaParts ν a.vlm.mediaInput a.files a.request.frameUris with
    | error e =>
        rw [hparts] at h
        cases h
    | ok parts =>
        rw [hparts] at h
        obtain ⟨hne, data, hdata, rfl⟩ := buildMediaParts_eq_ok_iff.mp hparts
        refine ⟨hne, data, hdata, ?_⟩
        rw [← update_messagesBody]
        exact (Except.ok.inj h).symm
  · rintro ⟨hne, data, hdata, rfl⟩
    rw [buildMediaParts_eq_ok_iff.mpr ⟨hne, data, hdata, rfl⟩, ← update_messagesBody]
    rfl

theorem exists_data_iff {files : Files} : ∀ {uris : List String},
    (∃ data : List (List UInt8), uris.map files = data.map .ok)
      ↔ ∀ u ∈ uris, ∃ d, files u = .ok d
  | [] => by
      constructor
      · exact fun _ u hu => absurd hu List.not_mem_nil
      · exact fun _ => ⟨[], rfl⟩
  | u :: uris => by
      rw [List.forall_mem_cons, ← exists_data_iff]
      constructor
      · rintro ⟨data, hdata⟩
        cases data with
        | nil => cases hdata
        | cons d data =>
            rw [List.map_cons, List.map_cons, List.cons.injEq] at hdata
            exact ⟨⟨d, hdata.1⟩, data, hdata.2⟩
      · rintro ⟨⟨d, hd⟩, data, hdata⟩
        exact ⟨d :: data, by rw [List.map_cons, List.map_cons, hd, hdata]⟩

theorem sends_iff : (∃ x, a.sentBody P L = .ok x) ↔ Sends a := by
  constructor
  · rintro ⟨x, hx⟩
    obtain ⟨hne, data, hdata, -⟩ := sentBody_eq_ok_iff.mp hx
    exact ⟨hne, exists_data_iff.mp ⟨data, hdata⟩⟩
  · rintro ⟨hne, hreadable⟩
    obtain ⟨data, hdata⟩ := exists_data_iff.mpr hreadable
    exact ⟨_, sentBody_eq_ok_iff.mpr ⟨hne, data, hdata, rfl⟩⟩

end Sent

/-! ## Two attempts -/

/-- What the body depends on beside what the hash covers. -/
structure SameUnrecorded (L : LowerCase) (a b : Attempt ν) : Prop where
  strict : a.strictSchema = b.strictSchema
  modelId : a.vlm.modelId = b.vlm.modelId
  mode : a.vlm.mediaInput = "video" ↔ b.vlm.mediaInput = "video"
  extra : Same (.obj (safeExtraBody L a.vlm.extraBody)) (.obj (safeExtraBody L b.vlm.extraBody))

section Pair

variable {H : Hashes} {F : NumberFormat ν} {P : Templates} {L : LowerCase} {a b : Attempt ν}

theorem SameRecorded.contents (h : SameRecorded a b) :
    a.request.frameUris.map (content a.files) = b.request.frameUris.map (content b.files) := by
  have hcontents : ∀ c : Attempt ν,
      c.media.map Medium.content = c.request.frameUris.map (content c.files) := by
    intro c
    have hfst : c.request.frameUris = c.request.frameUris.zipIdx.map Prod.fst := by
      rw [List.zipIdx_map_fst]
    unfold Attempt.media
    rw [List.map_map]
    conv_rhs => rw [hfst, List.map_map]
    rfl
  rw [← hcontents, ← hcontents, h.media]

/-- In one mode, the same files are read. -/
theorem data_eq (h : SameRecorded a b)
    (hmode : a.vlm.mediaInput = "video" ↔ b.vlm.mediaInput = "video")
    {data data' : List (List UInt8)}
    (ha : (readUris a.vlm.mediaInput a.request.frameUris).map a.files = data.map .ok)
    (hb : (readUris b.vlm.mediaInput b.request.frameUris).map b.files = data'.map .ok) :
    data = data' := by
  have hread : ∀ (c : Attempt ν) (read : List (List UInt8)),
      (readUris c.vlm.mediaInput c.request.frameUris).map c.files = read.map .ok →
      (readUris c.vlm.mediaInput c.request.frameUris).map (content c.files)
        = read.map .ok := by
    intro c read hc
    have hmap := congrArg (List.map (Except.mapError OsError.typeName)) hc
    rw [List.map_map, List.map_map] at hmap
    exact hmap
  have heq : (readUris a.vlm.mediaInput a.request.frameUris).map (content a.files)
      = (readUris b.vlm.mediaInput b.request.frameUris).map (content b.files) := by
    unfold readUris
    by_cases hvideo : a.vlm.mediaInput = "video"
    · rw [if_pos hvideo, if_pos (hmode.mp hvideo), List.map_take, List.map_take, h.contents]
    · rw [if_neg hvideo, if_neg fun hb => hvideo (hmode.mpr hb), h.contents]
  rw [hread a data ha, hread b data' hb] at heq
  exact List.map_injective_iff.mpr (fun _ _ hok => Except.ok.inj hok) heq

theorem mime_eq (hmode : a.vlm.mediaInput = "video" ↔ b.vlm.mediaInput = "video") :
    mime a.vlm.mediaInput = mime b.vlm.mediaInput := by
  unfold mime
  simp only [hmode]

/-- A part names the mode it was sent in. -/
theorem mode_of_part {m m' : String} {d d' : List UInt8}
    (h : sortKeys (mediaPart m d : Value ν) = sortKeys (mediaPart m' d')) :
    m = "video" ↔ m' = "video" := by
  have hurl : "data:" ++ mime m ++ ";base64," ++ String.ofList (Base64.encode Base64.standard d)
      = "data:" ++ mime m' ++ ";base64," ++ String.ofList (Base64.encode Base64.standard d') := by
    have hpart := (JsonText.same_record_iff (by simp) (by simp)).mp h
    simp only [List.map_cons, List.map_nil, List.cons.injEq, and_true, true_and] at hpart
    have hurl := (JsonText.same_record_iff (by simp) (by simp)).mp hpart
    simp only [List.map_cons, List.map_nil, List.cons.injEq, and_true, sortKeys,
      Value.str.injEq] at hurl
    exact hurl
  have hchars := congrArg String.toList hurl
  unfold mime at hchars
  by_cases hm : m = "video" <;> by_cases hm' : m' = "video" <;>
    simp_all [String.toList_append]

theorem map_userContent (parts : List (Value ν)) (strict : Bool) :
    (userContent parts strict).map sortKeys
      = parts.map sortKeys ++ (userContent [] strict).map sortKeys := by
  unfold userContent
  rw [List.map_append, List.nil_append]

theorem strict_of_userContent {strict strict' : Bool}
    (h : (userContent ([] : List (Value ν)) strict).map sortKeys
      = (userContent [] strict').map sortKeys) : strict = strict' := by
  have hlength := congrArg List.length h
  cases strict <;> cases strict' <;> simp_all [userContent]

/-- A body has a medium. -/
theorem exists_first {m : String} {files : Files} {uris : List String}
    {data : List (List UInt8)} (hne : uris ≠ [])
    (h : (readUris m uris).map files = data.map .ok) : ∃ d rest, data = d :: rest := by
  cases data with
  | cons d rest => exact ⟨d, rest, rfl⟩
  | nil =>
      refine absurd (List.map_eq_nil_iff.mp h) ?_
      unfold readUris
      split
      · exact fun hnil => hne (by simpa using hnil)
      · exact hne

/-- Beside what the hash covers, a body tells what it was built from. -/
theorem same_sentBody_iff (h : SameRecorded a b) {x y : Value ν} (hx : a.sentBody P L = .ok x)
    (hy : b.sentBody P L = .ok y) : Same x y ↔ SameUnrecorded L a b := by
  obtain ⟨hne, data, hdata, rfl⟩ := sentBody_eq_ok_iff.mp hx
  obtain ⟨hne', data', hdata', rfl⟩ := sentBody_eq_ok_iff.mp hy
  rw [same_body_iff]
  constructor
  · rintro ⟨⟨hmodel, -, huser⟩, hextra⟩
    rw [map_userContent, map_userContent (data'.map _)] at huser
    have hmode : a.vlm.mediaInput = "video" ↔ b.vlm.mediaInput = "video" := by
      obtain ⟨d, rest, rfl⟩ := exists_first hne hdata
      obtain ⟨d', rest', rfl⟩ := exists_first hne' hdata'
      simp only [List.map_cons, List.cons_append, List.cons.injEq] at huser
      exact mode_of_part huser.1
    have hparts := data_eq h hmode hdata hdata'
    subst hparts
    have hpart : (mediaPart a.vlm.mediaInput : List UInt8 → Value ν)
        = mediaPart b.vlm.mediaInput := by
      unfold mediaPart
      rw [mime_eq hmode]
    rw [hpart, List.append_cancel_left_eq] at huser
    exact ⟨strict_of_userContent huser, hmodel, hmode, hextra⟩
  · intro hother
    have hparts := data_eq h hother.mode hdata hdata'
    subst hparts
    have hpart : (mediaPart a.vlm.mediaInput : List UInt8 → Value ν)
        = mediaPart b.vlm.mediaInput := by
      unfold mediaPart
      rw [mime_eq hother.mode]
    refine ⟨⟨hother.modelId, congrArg _ h.scale, ?_⟩, hother.extra⟩
    rw [hpart, hother.strict]

/-- Under one configuration, the hash covers all but the strict reminder. -/
theorem same_sentBody_of_vlm (hvlm : a.vlm = b.vlm)
    (hhash : a.payloadHash H F P = b.payloadHash H F P) {x y : Value ν}
    (hx : a.sentBody P L = .ok x) (hy : b.sentBody P L = .ok y) :
    Same x y ↔ a.strictSchema = b.strictSchema := by
  rw [same_sentBody_iff (payloadHash_eq_iff.mp hhash) hx hy]
  constructor
  · exact SameUnrecorded.strict
  · intro hstrict
    exact ⟨hstrict, by rw [hvlm], by rw [hvlm], by
      rw [hvlm]
      rfl⟩

/-- Recorded options cover those that are sent. -/
theorem same_safeExtraBody (h : SameRecorded a b) (ha : a.options = some a.vlm.extraBody)
    (hb : b.options = some b.vlm.extraBody) :
    Same (.obj (safeExtraBody L a.vlm.extraBody)) (.obj (safeExtraBody L b.vlm.extraBody)) := by
  have hoptions := h.options
  rw [ha, hb] at hoptions
  exact JsonText.same_filter (fun k => decide (L.lower k ∉ denied)) a.vlm.extraBody.nodup hoptions

/-- Only a sequential `high_freq_event` run leaves its options out. -/
theorem options_eq_extraBody
    (h : a.path = .scaleTask ∨ a.request.analysisScale ≠ .highFreqEvent) :
    a.options = some a.vlm.extraBody := by
  unfold Attempt.options providerOptions
  rcases h with h | h
  · rw [h]
  · split
    · rename_i hscale
      exact absurd hscale h
    · rfl

/-- Where the options are recorded, they need no condition of their own. -/
theorem sameUnrecorded_iff (h : SameRecorded a b)
    (ha : a.path = .scaleTask ∨ a.request.analysisScale ≠ .highFreqEvent)
    (hb : b.path = .scaleTask ∨ b.request.analysisScale ≠ .highFreqEvent) :
    SameUnrecorded L a b ↔ a.strictSchema = b.strictSchema ∧ a.vlm.modelId = b.vlm.modelId
      ∧ (a.vlm.mediaInput = "video" ↔ b.vlm.mediaInput = "video") := by
  constructor
  · intro hother
    exact ⟨hother.strict, hother.modelId, hother.mode⟩
  · rintro ⟨hstrict, hmodel, hmode⟩
    exact ⟨hstrict, hmodel, hmode,
      same_safeExtraBody h (options_eq_extraBody ha) (options_eq_extraBody hb)⟩

/-- The attempts read the same media elsewhere, for other ids. -/
structure DifferInPathsAndIds (a b : Attempt ν) : Prop where
  scale : a.request.analysisScale = b.request.analysisScale
  start : a.request.segmentStartMs = b.request.segmentStartMs
  stop : a.request.segmentEndMs = b.request.segmentEndMs
  camera : a.request.cameraId = b.request.cameraId
  model : a.request.modelVersion = b.request.modelVersion
  prompt : a.request.promptVersion = b.request.promptVersion
  pipeline : a.pipelineVersion = b.pipelineVersion
  vlm : a.vlm = b.vlm
  path : a.path = b.path
  files : a.request.frameUris.map a.files = b.request.frameUris.map b.files
  refs : ∀ i, ∀ k ∈ ["frame_index", "timestamp_ms", "decode_backend"],
    (mediaRef a.mediaRefs i).get? k = (mediaRef b.mediaRefs i).get? k

theorem media_eq_of_files
    (hfiles : a.request.frameUris.map a.files = b.request.frameUris.map b.files)
    (hrefs : ∀ i, ∀ k ∈ ["frame_index", "timestamp_ms", "decode_backend"],
      (mediaRef a.mediaRefs i).get? k = (mediaRef b.mediaRefs i).get? k) : a.media = b.media := by
  have hmedium : ∀ i u v, a.files u = b.files v →
      medium a.files u (mediaRef a.mediaRefs i) = medium b.files v (mediaRef b.mediaRefs i) := by
    intro i u v hread
    unfold medium content Dict.getD
    rw [hread, hrefs i _ (by simp), hrefs i _ (by simp), hrefs i _ (by simp)]
  unfold Attempt.media
  apply List.ext_getElem?
  intro i
  have hi := congrArg (fun l => l[i]?) hfiles
  simp only [List.getElem?_map, List.getElem?_zipIdx, Option.map_map] at hi ⊢
  cases hu : a.request.frameUris[i]? with
  | none =>
      rw [hu, Option.map_none, eq_comm, Option.map_eq_none_iff] at hi
      rw [hi]
      rfl
  | some u =>
      rw [hu, Option.map_some, eq_comm, Option.map_eq_some_iff] at hi
      obtain ⟨v, hv, hread⟩ := hi
      rw [hv]
      exact congrArg some (hmedium _ u v hread.symm)

theorem DifferInPathsAndIds.sameRecorded (h : DifferInPathsAndIds a b) : SameRecorded a b where
  scale := h.scale
  start := h.start
  stop := h.stop
  camera := h.camera
  model := h.model
  prompt := h.prompt
  pipeline := h.pipeline
  options := by
    have hoptions : a.options = b.options := by
      unfold Attempt.options
      rw [h.vlm, h.path, h.scale]
    rw [hoptions]
    rfl
  media := media_eq_of_files h.files h.refs

/-- The payload hash says what was sent, and does not depend on where the files
are or which job and unit the attempt is for. -/
structure Identified (H : Hashes) (F : NumberFormat ν) (P : Templates) (L : LowerCase)
    (a b : Attempt ν) : Prop where
  bodies : a.payloadHash H F P = b.payloadHash H F P → ∀ x y, a.sentBody P L = .ok x →
    b.sentBody P L = .ok y → Same x y
  paths : DifferInPathsAndIds a b → a.payloadHash H F P = b.payloadHash H F P

/-- Two attempts are identified exactly when, covered alike and both sent, they
agree in all the hash leaves out. -/
theorem identified_iff (H : Hashes) (F : NumberFormat ν) (P : Templates) (L : LowerCase)
    (a b : Attempt ν) :
    Identified H F P L a b
      ↔ (SameRecorded a b → Sends a → Sends b → SameUnrecorded L a b) := by
  constructor
  · intro h hsame ha hb
    obtain ⟨x, hx⟩ := sends_iff.mpr ha
    obtain ⟨y, hy⟩ := sends_iff.mpr hb
    exact (same_sentBody_iff hsame hx hy).mp (h.bodies (payloadHash_eq_iff.mpr hsame) x y hx hy)
  · intro h
    refine ⟨fun hhash x y hx hy => ?_, fun hpaths => payloadHash_eq_iff.mpr hpaths.sameRecorded⟩
    have hsame := payloadHash_eq_iff.mp hhash
    exact (same_sentBody_iff hsame hx hy).mpr
      (h hsame (sends_iff.mp ⟨x, hx⟩) (sends_iff.mp ⟨y, hy⟩))

/-- A strict retry sends one part more under the hash of the first attempt. -/
theorem not_identified_of_sends (h : Sends a) :
    ¬ Identified H F P L { a with strictSchema := false } { a with strictSchema := true } := by
  intro hid
  have hsame : SameRecorded { a with strictSchema := false } { a with strictSchema := true } :=
    ⟨rfl, rfl, rfl, rfl, rfl, rfl, rfl, rfl, rfl⟩
  have hfirst : Sends { a with strictSchema := false } := ⟨h.media, h.readable⟩
  have hretry : Sends { a with strictSchema := true } := ⟨h.media, h.readable⟩
  obtain ⟨x, hx⟩ := sends_iff.mpr hfirst
  obtain ⟨y, hy⟩ := sends_iff.mpr hretry
  have hother := (same_sentBody_iff hsame hx hy).mp
    (hid.bodies (payloadHash_eq_iff.mpr hsame) x y hx hy)
  exact absurd hother.strict Bool.false_ne_true

end Pair

/-! ## A strict retry -/

/-- Stand-ins for the hash functions: the texts themselves. -/
def plainHashes : Hashes where
  sha256ShortText := id
  sha256 data := String.ofList (Base64.encode Base64.standard data)
  short_injective := Function.injective_id
  sha256_injective := by
    intro d d' h
    have hdecode := congrArg Base64.decode (String.ofList_injective h)
    rw [Base64.decode_encode, Base64.decode_encode] at hdecode
    exact Option.some.inj hdecode

def shortTemplates : Templates := ⟨"default_segment_v3", "high_freq_event_v1"⟩

/-- One readable frame of a default segment. -/
def firstAttempt : Attempt ℤ where
  vlm := ⟨"gemini-3.1-pro-preview", "frames", .empty⟩
  path := .scaleTask
  request := {
    requestId := "vlm_req_1"
    analysisJobId := "job_1"
    videoId := "vid_1"
    cameraId := "cam_lobby_01"
    analysisScale := .defaultSegment
    segmentStartMs := 0
    segmentEndMs := 10000
    frameUris := ["/frames/frame_0000.jpg"]
    promptVersion := some "default_segment_v3"
    modelVersion := none }
  mediaRefs := []
  pipelineVersion := none
  files := fun _ => .ok [255, 216]
  strictSchema := false

theorem not_identified_strictRetry :
    ¬ Identified plainHashes JsonText.wholeNumbers shortTemplates asciiLower firstAttempt
      { firstAttempt with strictSchema := true } :=
  not_identified_of_sends (a := firstAttempt) ⟨by decide, fun _ _ => ⟨_, rfl⟩⟩

end CctvMemory.Worker.VlmInput
