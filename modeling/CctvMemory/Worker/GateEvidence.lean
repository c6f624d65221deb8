import CctvMemory.Worker.Gate
import Mathlib.Algebra.BigOperators.Ring.Finset
import Mathlib.Data.Nat.Cast.Order.Ring
import Mathlib.Tactic.GCongr

/-!
# The evidence of the gate

What `decide_pre_vlm_gate` decides, and what it records beside the decision:
the rules that matched and one ratio for each label. The ratios are a
dictionary that is written once for every rule, so rules of one label share an
entry and the last of them leaves its own ratio there.

* `gateSound_iff`: the decision is what the frames say and grows with them; the
  recorded ratio supports every matched rule exactly when the last rule of each
  label of a matched rule reaches its minimum too.
* `recorded_ratio_overwritten`: two rules for persons, of which the stricter
  one comes last.
-/

namespace CctvMemory.Worker

/-! ## What the frames say -/

/-- The frame has a detection of the label of the rule, as sure as the rule asks. -/
def PositiveFrame (rule : GateRule) (frame : FrameEvidence) : Prop :=
  ∃ d ∈ frame, d.label = rule.label ∧ rule.minConfidence ≤ d.confidence

instance (rule : GateRule) (frame : FrameEvidence) : Decidable (PositiveFrame rule frame) :=
  inferInstanceAs (Decidable (∃ _, _))

/-- The frames that the signals of a type have evidence of. -/
def framesOf (signals : List GateSignal) (ty : GateSignalType) : List FrameEvidence :=
  (signals.filter fun s => decide (s.signalType = ty)).flatMap GateSignal.frameEvidence

/-- How many frames the signals of a type have looked at. -/
def frameCountOf (signals : List GateSignal) (ty : GateSignalType) : ℕ :=
  ((signals.filter fun s => decide (s.signalType = ty)).map GateSignal.frameCount).sum

/-- The share of the frames of its type that are positive for the rule. -/
def shareOf (signals : List GateSignal) (rule : GateRule) : ℚ :=
  ((framesOf signals rule.signalType).countP fun frame => decide (PositiveFrame rule frame) : ℕ) /
    (frameCountOf signals rule.signalType : ℚ)

/-- A call rule whose share of the frames reaches its minimum. -/
def Reached (signals : List GateSignal) (rule : GateRule) : Prop :=
  rule.action = .callVlm ∧ rule.minPositiveFrameRatio ≤ shareOf signals rule

instance (signals : List GateSignal) (rule : GateRule) : Decidable (Reached signals rule) :=
  inferInstanceAs (Decidable (_ ∧ _))

/-- The trigger has a reason, and the profile forces the call on it. -/
def ForcedReason (profile : Option GateProfile) (context : Option TriggerContext) : Prop :=
  triggerReasonOf context ≠ "" ∧
    ∃ p ∈ profile, triggerReasonOf context ∈ p.forceVlmOnTriggerReasons

/-- One more detection in one frame of one signal. -/
inductive AddsDetection : List GateSignal → List GateSignal → Prop where
  | intro (before after : List GateSignal) (s : GateSignal) (front back : List FrameEvidence)
      (left right : FrameEvidence) (d : Detection) :
      AddsDetection
        (before ++ { s with frameEvidence := front ++ (left ++ right) :: back } :: after)
        (before ++ { s with frameEvidence := front ++ (left ++ d :: right) :: back } :: after)

/-- `positive_frame_ratio_by_label[label]`: what was written there last. -/
def recordedRatio (decision : PreVlmGateDecision) (label : String) : Option ℚ :=
  decision.positiveFrameRatioByLabel.reverse.lookup label

/-- What the gate promises of a decision. -/
structure GateSound (signals : List GateSignal) (rules : List GateRule)
    (policy : GateSuppressionPolicy) (context : Option TriggerContext)
    (profile : Option GateProfile) : Prop where
  through : (decidePreVlmGate signals rules policy context profile).triggeredVlm = true ↔
    ForcedReason profile context ∨ ∃ rule ∈ rules, Reached signals rule
  monotone : ∀ signals', AddsDetection signals signals' →
    (decidePreVlmGate signals rules policy context profile).triggeredVlm = true →
    (decidePreVlmGate signals' rules policy context profile).triggeredVlm = true
  recorded : ∀ rule ∈ (decidePreVlmGate signals rules policy context profile).matchedRules,
    ∃ ratio ∈ recordedRatio (decidePreVlmGate signals rules policy context profile) rule.label,
      rule.minPositiveFrameRatio ≤ ratio

/-! ## The ratio of a rule -/

section

variable {signals signals' : List GateSignal} {rules : List GateRule} {rule : GateRule}
  {policy : GateSuppressionPolicy} {context : Option TriggerContext}
  {profile : Option GateProfile}

theorem any_detectionMatches (rule : GateRule) (frame : FrameEvidence) :
    (frame.any fun d => detectionMatches d rule) = decide (PositiveFrame rule frame) := by
  rw [Bool.eq_iff_iff, List.any_eq_true, decide_eq_true_eq]
  unfold PositiveFrame detectionMatches
  simp only [Bool.and_eq_true, decide_eq_true_eq]

theorem positiveFrameRatio_eq (signals : List GateSignal) (rule : GateRule) :
    positiveFrameRatio signals rule = shareOf signals rule := by
  unfold positiveFrameRatio shareOf framesOf frameCountOf
  simp only [any_detectionMatches, List.countP_flatMap]
  split
  · rename_i hnone
    rw [hnone, Nat.cast_zero, div_zero]
  · simp only [Nat.cast_list_sum, List.map_map, Function.comp_def]

theorem mem_matchedRules_iff : rule ∈ matchedRules signals rules ↔
    rule ∈ rules ∧ Reached signals rule := by
  unfold matchedRules Reached
  rw [List.mem_filter, Bool.and_eq_true, decide_eq_true_eq, decide_eq_true_eq,
    positiveFrameRatio_eq]

theorem forced_iff : forced profile context = true ↔ ForcedReason profile context := by
  unfold forced ForcedReason
  rw [Bool.and_eq_true, decide_eq_true_eq, decide_eq_true_eq]
  cases profile with
  | none => simp
  | some p => simp

/-- The window passes on a forced reason or on a rule that is reached. -/
theorem triggered_iff :
    (decidePreVlmGate signals rules policy context profile).triggeredVlm = true ↔
      ForcedReason profile context ∨ ∃ rule ∈ rules, Reached signals rule := by
  have hfound : matchedRules signals rules ≠ [] ↔ ∃ rule ∈ rules, Reached signals rule := by
    simp only [← mem_matchedRules_iff]
    exact ⟨List.exists_mem_of_ne_nil _, fun ⟨rule, hrule⟩ => List.ne_nil_of_mem hrule⟩
  rw [triggeredVlm_decidePreVlmGate, forced_iff, hfound]

theorem matchedRules_decidePreVlmGate :
    (decidePreVlmGate signals rules policy context profile).matchedRules
      = matchedRules signals rules := by
  unfold decidePreVlmGate
  dsimp only
  split
  · rfl
  · split
    · rfl
    · rename_i hnone
      exact (not_ne_iff.mp hnone).symm

/-! ## More detections -/

theorem positiveFrame_insert {left right : FrameEvidence} {d : Detection}
    (h : PositiveFrame rule (left ++ right)) : PositiveFrame rule (left ++ d :: right) := by
  obtain ⟨e, he, hmatch⟩ := h
  refine ⟨e, ?_, hmatch⟩
  rcases List.mem_append.mp he with hl | hr
  · exact List.mem_append_left _ hl
  · exact List.mem_append_right _ (List.mem_cons_of_mem d hr)

theorem frameCountOf_adds (h : AddsDetection signals signals') (ty : GateSignalType) :
    frameCountOf signals' ty = frameCountOf signals ty := by
  obtain ⟨before, after, s, front, back, left, right, d⟩ := h
  unfold frameCountOf
  by_cases hty : s.signalType = ty
  · simp [List.filter_append, hty]
  · simp [List.filter_append, hty]

theorem countP_adds (h : AddsDetection signals signals') (rule : GateRule) :
    (framesOf signals rule.signalType).countP (fun frame => decide (PositiveFrame rule frame))
      ≤ (framesOf signals' rule.signalType).countP fun frame =>
        decide (PositiveFrame rule frame) := by
  obtain ⟨before, after, s, front, back, left, right, d⟩ := h
  have hframe : (if decide (PositiveFrame rule (left ++ right)) = true then 1 else 0)
      ≤ if decide (PositiveFrame rule (left ++ d :: right)) = true then 1 else 0 := by
    by_cases hpos : PositiveFrame rule (left ++ right)
    · rw [if_pos (decide_eq_true hpos), if_pos (decide_eq_true (positiveFrame_insert hpos))]
    · rw [if_neg (by simpa using hpos)]
      exact Nat.zero_le _
  unfold framesOf
  by_cases hty : s.signalType = rule.signalType
  · simp only [List.filter_append, List.filter_cons, hty, decide_true, if_true,
      List.flatMap_append, List.flatMap_cons, List.countP_append, List.countP_cons]
    omega
  · simp [List.filter_append, hty]

theorem shareOf_adds (h : AddsDetection signals signals') (rule : GateRule) :
    shareOf signals rule ≤ shareOf signals' rule := by
  unfold shareOf
  rw [frameCountOf_adds h]
  have hcount := countP_adds h rule
  have hframes : (0 : ℚ) ≤ frameCountOf signals rule.signalType := Nat.cast_nonneg _
  gcongr

theorem Reached.adds (h : Reached signals rule) (hadds : AddsDetection signals signals') :
    Reached signals' rule :=
  ⟨h.1, h.2.trans (shareOf_adds hadds rule)⟩

/-! ## The recorded ratios -/

/-- The last rule of a label. -/
def lastRuleOf (rules : List GateRule) (label : String) : Option GateRule :=
  rules.reverse.find? fun rule => decide (rule.label = label)

theorem lookup_map_label (f : GateRule → ℚ) (rules : List GateRule) (label : String) :
    (rules.map fun rule => (rule.label, f rule)).lookup label
      = (rules.find? fun rule => decide (rule.label = label)).map f := by
  induction rules with
  | nil => rfl
  | cons rule rules ih =>
      rw [List.map_cons, List.lookup_cons, List.find?_cons]
      by_cases hlabel : rule.label = label
      · rw [beq_iff_eq.mpr hlabel.symm, decide_eq_true hlabel]
        rfl
      · rw [beq_eq_false_iff_ne.mpr (Ne.symm hlabel), decide_eq_false hlabel]
        exact ih

theorem recordedRatio_decidePreVlmGate (label : String) :
    recordedRatio (decidePreVlmGate signals rules policy context profile) label
      = (lastRuleOf rules label).map (shareOf signals) := by
  have hratios : (decidePreVlmGate signals rules policy context profile).positiveFrameRatioByLabel
      = rules.map fun rule => (rule.label, shareOf signals rule) := by
    simp only [← positiveFrameRatio_eq]
    unfold decidePreVlmGate
    dsimp only
    split
    · rfl
    · split <;> rfl
  unfold recordedRatio lastRuleOf
  rw [hratios, ← List.map_reverse, lookup_map_label]

theorem exists_lastRuleOf (h : rule ∈ rules) : ∃ last, lastRuleOf rules rule.label = some last := by
  rw [← Option.isSome_iff_exists]
  unfold lastRuleOf
  rw [List.find?_isSome]
  exact ⟨rule, List.mem_reverse.mpr h, decide_eq_true rfl⟩

/-- Where a rule is reached, the last rule of its label reaches its minimum. -/
def LastRulesReach (signals : List GateSignal) (rules : List GateRule) : Prop :=
  ∀ rule ∈ rules, Reached signals rule →
    ∀ last ∈ lastRuleOf rules rule.label, rule.minPositiveFrameRatio ≤ shareOf signals last

end

/-- For all signals, rules, trigger contexts and profiles. -/
theorem gateSound_iff (signals : List GateSignal) (rules : List GateRule)
    (policy : GateSuppressionPolicy) (context : Option TriggerContext)
    (profile : Option GateProfile) :
    GateSound signals rules policy context profile ↔ LastRulesReach signals rules := by
  constructor
  · intro h rule hrule hreached last hlast
    have hmatched : rule ∈ (decidePreVlmGate signals rules policy context profile).matchedRules := by
      rw [matchedRules_decidePreVlmGate]
      exact mem_matchedRules_iff.mpr ⟨hrule, hreached⟩
    obtain ⟨ratio, hratio, hle⟩ := h.recorded rule hmatched
    rw [recordedRatio_decidePreVlmGate, Option.mem_def.mp hlast] at hratio
    obtain rfl := Option.some.inj hratio
    exact hle
  · intro h
    refine ⟨triggered_iff, ?_, ?_⟩
    · intro signals' hadds htriggered
      rw [triggered_iff] at htriggered ⊢
      rcases htriggered with hforced | ⟨rule, hrule, hreached⟩
      · exact Or.inl hforced
      · exact Or.inr ⟨rule, hrule, hreached.adds hadds⟩
    · intro rule hmatched
      rw [matchedRules_decidePreVlmGate] at hmatched
      obtain ⟨hrule, hreached⟩ := mem_matchedRules_iff.mp hmatched
      obtain ⟨last, hlast⟩ := exists_lastRuleOf hrule
      refine ⟨shareOf signals last, ?_, h rule hrule hreached last hlast⟩
      rw [recordedRatio_decidePreVlmGate, hlast]
      rfl

/-- Half of the frames with a person as sure as this. -/
def personRule (minConfidence : ℚ) : GateRule :=
  ⟨none, .objectDetection, "person", 1 / 2, minConfidence, .callVlm⟩

/-- A person at 0.6 in the only frame: the rule that asks for 0.5 matches, the
one that asks for 0.9 comes last. -/
theorem recorded_ratio_overwritten :
    ¬ GateSound [⟨.objectDetection, 1, [[⟨"person", 3 / 5⟩]]⟩]
      [personRule (1 / 2), personRule (9 / 10)] .publishGateOnlyRecord none none := by
  intro h
  obtain ⟨ratio, hratio, hle⟩ := h.recorded (personRule (1 / 2)) (by decide +kernel)
  rw [recordedRatio_decidePreVlmGate] at hratio
  have hzero : (lastRuleOf [personRule (1 / 2), personRule (9 / 10)] "person").map
      (shareOf [⟨.objectDetection, 1, [[⟨"person", 3 / 5⟩]]⟩]) = some 0 := by decide +kernel
  obtain rfl := Option.some.inj (hzero.symm.trans hratio)
  exact absurd hle (by decide +kernel)

end CctvMemory.Worker
