import CctvMemory.Authorization.Scope

/-!
# Taking access away

The changes of a policy or of a principal that only take access away: denying
the principal, dropping one of its roles or groups, dropping an entry of an
allow list. Each of them makes the rules narrower, and every dimension of the
scope follows the rules: a policy permitted after the change was permitted
before it, and so on through locations, cameras and the maximum level.

* `visibleRecords_tightened`: after any sequence of such changes the principal
  sees some of the records it saw before, and no others.
-/

namespace CctvMemory.Authorization

open Keyed (Table)
open CctvMemory.Publication (ObservationRecord)

/-- The policies that are stored, by id. -/
abbrev PolicyTable := Table AccessPolicy AccessPolicy.accessPolicyId

def visibleRecords (digest : ScopePayload → String) (p : Principal) (policies : List AccessPolicy)
    (locations : List CameraLocation) (cameras : List CameraDevice)
    (records : List ObservationRecord) : List ObservationRecord :=
  records.filter
    (authorizedObservationFilter (computeAuthorizedScope digest p policies locations cameras))

/-! ## The changes -/

inductive Tightening where
  /-- Add the principal to the denied list of a policy. -/
  | deny (policyId : String)
  | dropRole (role : String)
  | dropGroup (group : String)
  /-- Remove the principal from the allow list of a policy. -/
  | disallowPrincipal (policyId : String)
  | disallowRole (policyId role : String)
  | disallowGroup (policyId group : String)
deriving DecidableEq, Repr

def editRules (policies : PolicyTable) (policyId : String)
    (f : AccessPolicyRules → AccessPolicyRules) : PolicyTable :=
  policies.modify policyId (fun policy => { policy with rules := f policy.rules }) fun _ => rfl

/-- A removal takes out one occurrence; a repeated entry goes by repeating it. -/
def tighten (change : Tightening) (state : Principal × PolicyTable) : Principal × PolicyTable :=
  let (p, policies) := state
  match change with
  | .deny policyId =>
      (p, editRules policies policyId fun rules =>
        { rules with deniedPrincipals := rules.deniedPrincipals ++ [p.principalId] })
  | .dropRole role => ({ p with roles := p.roles.erase role }, policies)
  | .dropGroup group => ({ p with groups := p.groups.erase group }, policies)
  | .disallowPrincipal policyId =>
      (p, editRules policies policyId fun rules =>
        { rules with allowedPrincipals := rules.allowedPrincipals.erase p.principalId })
  | .disallowRole policyId role =>
      (p, editRules policies policyId fun rules =>
        { rules with allowedRoles := rules.allowedRoles.erase role })
  | .disallowGroup policyId group =>
      (p, editRules policies policyId fun rules =>
        { rules with allowedGroups := rules.allowedGroups.erase group })

def tightenAll (changes : List Tightening) (state : Principal × PolicyTable) :
    Principal × PolicyTable :=
  changes.foldl (fun state change => tighten change state) state

/-! ## Narrower rules -/

/-- The rules allow no more and deny no less. -/
structure AccessPolicyRules.Narrows (rules' rules : AccessPolicyRules) : Prop where
  roles : rules'.allowedRoles ⊆ rules.allowedRoles
  groups : rules'.allowedGroups ⊆ rules.allowedGroups
  principals : rules'.allowedPrincipals ⊆ rules.allowedPrincipals
  denied : rules.deniedPrincipals ⊆ rules'.deniedPrincipals

/-- The principal is the same one, with no further role or group. -/
structure Principal.Narrows (p' p : Principal) : Prop where
  id : p'.principalId = p.principalId
  tenant : p'.tenantId = p.tenantId
  roles : p'.roles ⊆ p.roles
  groups : p'.groups ⊆ p.groups

/-- Every policy stored now was stored before, with wider rules. -/
def NarrowsPolicies (policies' policies : List AccessPolicy) : Prop :=
  ∀ policy' ∈ policies', ∃ policy ∈ policies, policy.accessPolicyId = policy'.accessPolicyId ∧
    policy.securityLevel = policy'.securityLevel ∧ policy'.rules.Narrows policy.rules

theorem AccessPolicyRules.Narrows.refl (rules : AccessPolicyRules) : rules.Narrows rules :=
  ⟨fun _ h => h, fun _ h => h, fun _ h => h, fun _ h => h⟩

theorem AccessPolicyRules.Narrows.trans {r₁ r₂ r₃ : AccessPolicyRules} (h : r₁.Narrows r₂)
    (h' : r₂.Narrows r₃) : r₁.Narrows r₃ :=
  ⟨fun _ hmem => h'.roles (h.roles hmem), fun _ hmem => h'.groups (h.groups hmem),
    fun _ hmem => h'.principals (h.principals hmem), fun _ hmem => h.denied (h'.denied hmem)⟩

theorem Principal.Narrows.refl (p : Principal) : p.Narrows p :=
  ⟨rfl, rfl, fun _ h => h, fun _ h => h⟩

theorem Principal.Narrows.trans {p₁ p₂ p₃ : Principal} (h : p₁.Narrows p₂)
    (h' : p₂.Narrows p₃) : p₁.Narrows p₃ :=
  ⟨h.id.trans h'.id, h.tenant.trans h'.tenant, fun _ hmem => h'.roles (h.roles hmem),
    fun _ hmem => h'.groups (h.groups hmem)⟩

theorem NarrowsPolicies.refl (policies : List AccessPolicy) : NarrowsPolicies policies policies := by
  intro policy hmem
  exact ⟨policy, hmem, rfl, rfl, AccessPolicyRules.Narrows.refl _⟩

theorem NarrowsPolicies.trans {ps₁ ps₂ ps₃ : List AccessPolicy} (h : NarrowsPolicies ps₁ ps₂)
    (h' : NarrowsPolicies ps₂ ps₃) : NarrowsPolicies ps₁ ps₃ := by
  intro policy₁ hmem
  obtain ⟨policy₂, hmem₂, hid, hlevel, hrules⟩ := h policy₁ hmem
  obtain ⟨policy₃, hmem₃, hid', hlevel', hrules'⟩ := h' policy₂ hmem₂
  exact ⟨policy₃, hmem₃, hid'.trans hid, hlevel'.trans hlevel, hrules.trans hrules'⟩

/-! ## A change narrows -/

theorem editRules_narrows (policies : PolicyTable) (policyId : String)
    {f : AccessPolicyRules → AccessPolicyRules} (hf : ∀ rules, (f rules).Narrows rules) :
    NarrowsPolicies (editRules policies policyId f).rows policies.rows := by
  intro policy' hmem
  obtain ⟨policy, hpolicy, rfl⟩ := List.mem_map.mp hmem
  refine ⟨policy, hpolicy, ?_⟩
  by_cases hid : policy.accessPolicyId = policyId
  · rw [if_pos hid]
    exact ⟨rfl, rfl, hf policy.rules⟩
  · rw [if_neg hid]
    exact ⟨rfl, rfl, AccessPolicyRules.Narrows.refl _⟩

theorem tighten_narrows (change : Tightening) (state : Principal × PolicyTable) :
    (tighten change state).1.Narrows state.1 ∧
      NarrowsPolicies (tighten change state).2.rows state.2.rows := by
  obtain ⟨p, policies⟩ := state
  cases change with
  | deny policyId =>
      refine ⟨Principal.Narrows.refl p, editRules_narrows policies policyId ?_⟩
      intro rules
      exact ⟨fun _ h => h, fun _ h => h, fun _ h => h, List.subset_append_left _ _⟩
  | dropRole role =>
      refine ⟨⟨rfl, rfl, List.erase_subset, fun _ h => h⟩, NarrowsPolicies.refl _⟩
  | dropGroup group =>
      refine ⟨⟨rfl, rfl, fun _ h => h, List.erase_subset⟩, NarrowsPolicies.refl _⟩
  | disallowPrincipal policyId =>
      refine ⟨Principal.Narrows.refl p, editRules_narrows policies policyId ?_⟩
      intro rules
      exact ⟨fun _ h => h, fun _ h => h, List.erase_subset, fun _ h => h⟩
  | disallowRole policyId role =>
      refine ⟨Principal.Narrows.refl p, editRules_narrows policies policyId ?_⟩
      intro rules
      exact ⟨List.erase_subset, fun _ h => h, fun _ h => h, fun _ h => h⟩
  | disallowGroup policyId group =>
      refine ⟨Principal.Narrows.refl p, editRules_narrows policies policyId ?_⟩
      intro rules
      exact ⟨fun _ h => h, List.erase_subset, fun _ h => h, fun _ h => h⟩

theorem tightenAll_narrows (changes : List Tightening) (state : Principal × PolicyTable) :
    (tightenAll changes state).1.Narrows state.1 ∧
      NarrowsPolicies (tightenAll changes state).2.rows state.2.rows := by
  induction changes generalizing state with
  | nil => exact ⟨Principal.Narrows.refl _, NarrowsPolicies.refl _⟩
  | cons change changes ih =>
      obtain ⟨hp, hpolicies⟩ := ih (tighten change state)
      obtain ⟨hp', hpolicies'⟩ := tighten_narrows change state
      exact ⟨hp.trans hp', hpolicies.trans hpolicies'⟩

/-! ## Every dimension follows -/

theorem policyPermitsPrincipal_iff (policy : AccessPolicy) (p : Principal) :
    policyPermitsPrincipal policy p = true
      ↔ p.principalId ∉ policy.rules.deniedPrincipals ∧
        (p.principalId ∈ policy.rules.allowedPrincipals ∨
          (∃ role ∈ p.roles, role ∈ policy.rules.allowedRoles) ∨
          ∃ group ∈ p.groups, group ∈ policy.rules.allowedGroups) := by
  unfold policyPermitsPrincipal
  by_cases hdenied : p.principalId ∈ policy.rules.deniedPrincipals
  · simp [hdenied]
  · by_cases hallowed : p.principalId ∈ policy.rules.allowedPrincipals
    · simp [hdenied, hallowed]
    · simp [hdenied, hallowed]

theorem permits_of_narrows {policy' policy : AccessPolicy} {p' p : Principal}
    (hp : p'.Narrows p) (hrules : policy'.rules.Narrows policy.rules)
    (h : policyPermitsPrincipal policy' p' = true) : policyPermitsPrincipal policy p = true := by
  rw [policyPermitsPrincipal_iff] at h ⊢
  rw [hp.id] at h
  obtain ⟨hdenied, hallowed⟩ := h
  constructor
  · intro hmem
    exact hdenied (hrules.denied hmem)
  · rcases hallowed with hprincipal | ⟨role, hrole, hmem⟩ | ⟨group, hgroup, hmem⟩
    · exact Or.inl (hrules.principals hprincipal)
    · exact Or.inr (Or.inl ⟨role, hp.roles hrole, hrules.roles hmem⟩)
    · exact Or.inr (Or.inr ⟨group, hp.groups hgroup, hrules.groups hmem⟩)

section Dimensions

variable {p' p : Principal} {policies' policies : List AccessPolicy} (hp : p'.Narrows p)
  (hpolicies : NarrowsPolicies policies' policies)

include hp hpolicies

theorem PermittedId.of_narrows {id : String} (h : PermittedId policies' p' id) :
    PermittedId policies p id := by
  obtain ⟨policy', hmem', hpermits, rfl⟩ := h
  obtain ⟨policy, hmem, hid, -, hrules⟩ := hpolicies policy' hmem'
  exact ⟨policy, hmem, permits_of_narrows hp hrules hpermits, hid⟩

theorem PermittedRef.of_narrows {ref : Option String} (h : PermittedRef policies' p' ref) :
    PermittedRef policies p ref := by
  obtain ⟨id, href, hne, hid⟩ := h
  exact ⟨id, href, hne, hid.of_narrows hp hpolicies⟩

theorem AllowedLocation.of_narrows {locations : List CameraLocation} {id : String}
    (h : AllowedLocation policies' p' locations id) : AllowedLocation policies p locations id := by
  obtain ⟨loc, hmem, htenant, href, hid⟩ := h
  exact ⟨loc, hmem, htenant.trans hp.tenant, href.of_narrows hp hpolicies, hid⟩

theorem AllowedCamera.of_narrows {locations : List CameraLocation} {cameras : List CameraDevice}
    {id : String} (h : AllowedCamera policies' p' locations cameras id) :
    AllowedCamera policies p locations cameras id := by
  obtain ⟨cam, hmem, htenant, hallowed, hid⟩ := h
  refine ⟨cam, hmem, htenant.trans hp.tenant, ?_, hid⟩
  rcases hallowed with hown | hinherited
  · exact Or.inl (hown.of_narrows hp hpolicies)
  · exact Or.inr (hinherited.of_narrows hp hpolicies)

theorem ReachedLevel.of_narrows {level : SecurityLevel} (h : ReachedLevel policies' p' level) :
    ReachedLevel policies p level := by
  rcases h with hpublic | ⟨policy', hmem', hpermits, hlevel⟩
  · exact Or.inl hpublic
  · obtain ⟨policy, hmem, -, heq, hrules⟩ := hpolicies policy' hmem'
    refine Or.inr ⟨policy, hmem, permits_of_narrows hp hrules hpermits, ?_⟩
    rw [heq]
    exact hlevel

theorem observationFilter_of_narrows (digest : ScopePayload → String)
    {locations : List CameraLocation} {cameras : List CameraDevice} {r : ObservationRecord}
    (h : authorizedObservationFilter
      (computeAuthorizedScope digest p' policies' locations cameras) r = true) :
    authorizedObservationFilter
      (computeAuthorizedScope digest p policies locations cameras) r = true := by
  rw [observationFilter_iff] at h ⊢
  obtain ⟨htenant, hcamera, hlocation, hpolicy, hlevel⟩ := h
  exact ⟨htenant.trans hp.tenant, hcamera.of_narrows hp hpolicies,
    hlocation.of_narrows hp hpolicies, hpolicy.of_narrows hp hpolicies,
    hlevel.of_narrows hp hpolicies⟩

end Dimensions

/-- Whatever the policies, locations, cameras and records, and however often
access is taken away: what the principal sees afterwards it saw before. -/
theorem visibleRecords_tightened (digest : ScopePayload → String) (p : Principal)
    (policies : PolicyTable) (locations : List CameraLocation) (cameras : List CameraDevice)
    (records : List ObservationRecord) (changes : List Tightening) :
    let after := tightenAll changes (p, policies)
    (visibleRecords digest after.1 after.2.rows locations cameras records).Sublist
      (visibleRecords digest p policies.rows locations cameras records) := by
  intro after
  obtain ⟨hp, hpolicies⟩ := tightenAll_narrows changes (p, policies)
  apply List.monotone_filter_right
  intro r h
  exact observationFilter_of_narrows hp hpolicies digest h

end CctvMemory.Authorization
