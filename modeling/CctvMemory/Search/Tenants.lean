import CctvMemory.Search.Outcome

/-!
# One tenant, two databases

Two databases that hold the same policies, locations, cameras and records of a
tenant, and anything else of other tenants (`SameTenantData`). The loops over
locations and cameras check the tenant; the loop over policies does not, so a
policy of another tenant that names a role, a group or an id of the principal
grants it a policy id and raises its maximum level. Locations and cameras are
listed up to a limit that the rows of every tenant count towards.

* `tenantIsolated_iff`: the scope and the visible records are the same exactly
  when these two openings let nothing different through.
* `foreign_policy_widens`: a policy of another tenant makes a record visible.
-/

namespace CctvMemory.Search

open Keyed (Table)
open CctvMemory.Publication (ObservationRecord ObservationStore)
open CctvMemory.Authorization

/-! ## The two databases -/

structure SameTenantData (tenantId : String) (w w' : World) : Prop where
  policies : ∀ policy, policy.tenantId = tenantId →
    (policy ∈ w.policies.rows ↔ policy ∈ w'.policies.rows)
  locations : ∀ loc, loc.tenantId = tenantId →
    (loc ∈ w.locations.rows ↔ loc ∈ w'.locations.rows)
  cameras : ∀ cam, cam.tenantId = tenantId →
    (cam ∈ w.cameras.rows ↔ cam ∈ w'.cameras.rows)
  records : ∀ r, r.tenantId = tenantId →
    (r ∈ w.store.active.rows ↔ r ∈ w'.store.active.rows)

def TenantIsolated (digest : ScopePayload → String) (p : Principal) (w w' : World) : Prop :=
  authorizedScopeFor digest w p = authorizedScopeFor digest w' p ∧
    ∀ r, Visible (authorizedScopeFor digest w p) w r
      ↔ Visible (authorizedScopeFor digest w' p) w' r

/-! ## The openings -/

/-- A policy of another tenant permits the principal. -/
def ForeignGrant (w : World) (p : Principal) (policy : AccessPolicy) : Prop :=
  policy ∈ w.policies.rows ∧ policy.tenantId ≠ p.tenantId ∧
    policyPermitsPrincipal policy p = true

/-- The principal's own tenant lets it read records of the level. -/
def OwnLevel (w : World) (p : Principal) (level : SecurityLevel) : Prop :=
  level = .public ∨ ∃ policy ∈ w.policies.rows, policy.tenantId = p.tenantId ∧
    policyPermitsPrincipal policy p = true ∧ policy.securityLevel.allows level = true

/-- How many rows are listed before the one with this key. -/
def precedes {ρ : Type} (key : ρ → String) (rows : List ρ) (k : String) : ℕ :=
  rows.countP fun r => decide (key r < k)

def ListedLocation (w : World) (loc : CameraLocation) : Prop :=
  precedes CameraLocation.locationId w.locations.rows loc.locationId < 10000

def ListedCamera (w : World) (cam : CameraDevice) : Prop :=
  precedes CameraDevice.cameraId w.cameras.rows cam.cameraId < 10000

instance (w : World) (loc : CameraLocation) : Decidable (ListedLocation w loc) :=
  inferInstanceAs (Decidable (_ < _))

instance (w : World) (cam : CameraDevice) : Decidable (ListedCamera w cam) :=
  inferInstanceAs (Decidable (_ < _))

/-- A location of the tenant whose policy permits the principal. -/
def BoundLocation (w : World) (p : Principal) (loc : CameraLocation) : Prop :=
  loc ∈ w.locations.rows ∧ loc.tenantId = p.tenantId ∧
    PermittedRef w.policies.rows p loc.accessPolicyId

/-- A camera of the tenant whose policy, or whose listed location's, permits the
principal. -/
def BoundCamera (w : World) (p : Principal) (cam : CameraDevice) : Prop :=
  cam ∈ w.cameras.rows ∧ cam.tenantId = p.tenantId ∧
    (PermittedRef w.policies.rows p cam.accessPolicyId ∨
      ∃ loc, BoundLocation w p loc ∧ ListedLocation w loc ∧ loc.locationId = cam.locationId)

/-- Other tenants grant the principal the same policy ids and the same levels
above its own, and crowd the same of its rows out of the listings. -/
structure SameOpenings (p : Principal) (w w' : World) : Prop where
  grants : ∀ id, (∃ policy, ForeignGrant w p policy ∧ policy.accessPolicyId = id)
    ↔ ∃ policy, ForeignGrant w' p policy ∧ policy.accessPolicyId = id
  levels : ∀ level, ¬ OwnLevel w p level →
    ((∃ policy, ForeignGrant w p policy ∧ policy.securityLevel.allows level = true)
      ↔ ∃ policy, ForeignGrant w' p policy ∧ policy.securityLevel.allows level = true)
  locations : ∀ loc, BoundLocation w p loc → (ListedLocation w loc ↔ ListedLocation w' loc)
  cameras : ∀ cam, BoundCamera w p cam → (ListedCamera w cam ↔ ListedCamera w' cam)

/-! ## Listings -/

section Listings

variable {ρ : Type} {key : ρ → String}

theorem pairwise_sortedByKey (rows : List ρ) :
    (rows.mergeSort fun a b => decide (key a ≤ key b)).Pairwise fun a b => key a ≤ key b :=
  (SortKey.of_decide key).pairwise_key_mergeSort rows

/-- In a list sorted by distinct keys, a row is among the first `n` when fewer
than `n` keys are smaller. -/
theorem mem_take_sorted {l : List ρ} (hsorted : l.Pairwise fun a b => key a < key b)
    (r : ρ) (n : ℕ) : r ∈ l.take n ↔ r ∈ l ∧ precedes key l (key r) < n := by
  induction l generalizing n with
  | nil => simp
  | cons a l ih =>
      rw [List.pairwise_cons] at hsorted
      cases n with
      | zero => simp
      | succ n =>
          rw [List.take_succ_cons, List.mem_cons, List.mem_cons, ih hsorted.2]
          have hnone : r = a → precedes key (a :: l) (key r) = 0 := by
            rintro rfl
            unfold precedes
            rw [List.countP_eq_zero]
            intro b hb
            rw [decide_eq_true_eq]
            rcases List.mem_cons.mp hb with rfl | hb
            · exact String.lt_irrefl _
            · exact String.lt_asymm (hsorted.1 b hb)
          have hone : r ∈ l → precedes key (a :: l) (key r) = precedes key l (key r) + 1 := by
            intro hr
            unfold precedes
            rw [List.countP_cons_of_pos]
            exact decide_eq_true (hsorted.1 r hr)
          constructor
          · rintro (hr | ⟨hr, hlt⟩)
            · exact ⟨Or.inl hr, by rw [hnone hr]; omega⟩
            · exact ⟨Or.inr hr, by rw [hone hr]; omega⟩
          · rintro ⟨hr | hr, hlt⟩
            · exact Or.inl hr
            · rw [hone hr] at hlt
              exact Or.inr ⟨hr, by omega⟩

theorem mem_listOrdered (t : Table ρ key) (n : ℕ) (r : ρ) :
    r ∈ listOrdered key n t.rows ↔ r ∈ t.rows ∧ precedes key t.rows (key r) < n := by
  have hperm := t.rows.mergeSort_perm fun a b => decide (key a ≤ key b)
  have hnodup : ((t.rows.mergeSort fun a b => decide (key a ≤ key b)).map key).Nodup :=
    (hperm.map key).nodup_iff.mpr t.nodup
  have hstrict : (t.rows.mergeSort fun a b => decide (key a ≤ key b)).Pairwise
      fun a b => key a < key b := by
    refine (pairwise_sortedByKey t.rows).imp₂ ?_ (List.pairwise_map.mp hnodup)
    intro a b hle hne
    exact String.not_le.mp fun hge => hne (String.le_antisymm hle hge)
  unfold listOrdered
  rw [mem_take_sorted hstrict, hperm.mem_iff]
  unfold precedes
  rw [hperm.countP_eq]

end Listings

/-! ## Isolation -/

section Isolation

variable {p : Principal} {w w' : World}

/-- The dimensions of a stored scope, read off the tables. -/
theorem allowedLocation_listed_iff (id : String) :
    AllowedLocation w.policies.rows p
        (listOrdered CameraLocation.locationId 10000 w.locations.rows) id
      ↔ ∃ loc, BoundLocation w p loc ∧ ListedLocation w loc ∧ loc.locationId = id := by
  constructor
  · rintro ⟨loc, hmem, htenant, href, hid⟩
    rw [mem_listOrdered] at hmem
    exact ⟨loc, ⟨hmem.1, htenant, href⟩, hmem.2, hid⟩
  · rintro ⟨loc, ⟨hmem, htenant, href⟩, hlisted, hid⟩
    exact ⟨loc, (mem_listOrdered _ _ _).mpr ⟨hmem, hlisted⟩, htenant, href, hid⟩

theorem allowedCamera_listed_iff (id : String) :
    AllowedCamera w.policies.rows p
        (listOrdered CameraLocation.locationId 10000 w.locations.rows)
        (listOrdered CameraDevice.cameraId 10000 w.cameras.rows) id
      ↔ ∃ cam, BoundCamera w p cam ∧ ListedCamera w cam ∧ cam.cameraId = id := by
  constructor
  · rintro ⟨cam, hmem, htenant, hallowed, hid⟩
    rw [mem_listOrdered] at hmem
    rw [allowedLocation_listed_iff] at hallowed
    exact ⟨cam, ⟨hmem.1, htenant, hallowed⟩, hmem.2, hid⟩
  · rintro ⟨cam, ⟨hmem, htenant, hallowed⟩, hlisted, hid⟩
    rw [← allowedLocation_listed_iff] at hallowed
    exact ⟨cam, (mem_listOrdered _ _ _).mpr ⟨hmem, hlisted⟩, htenant, hallowed, hid⟩

theorem permittedId_iff_foreign (id : String) :
    PermittedId w.policies.rows p id
      ↔ (∃ policy ∈ w.policies.rows, policy.tenantId = p.tenantId ∧
          policyPermitsPrincipal policy p = true ∧ policy.accessPolicyId = id) ∨
        ∃ policy, ForeignGrant w p policy ∧ policy.accessPolicyId = id := by
  constructor
  · rintro ⟨policy, hmem, hpermits, hid⟩
    by_cases htenant : policy.tenantId = p.tenantId
    · exact Or.inl ⟨policy, hmem, htenant, hpermits, hid⟩
    · exact Or.inr ⟨policy, ⟨hmem, htenant, hpermits⟩, hid⟩
  · rintro (⟨policy, hmem, -, hpermits, hid⟩ | ⟨policy, ⟨hmem, -, hpermits⟩, hid⟩)
    · exact ⟨policy, hmem, hpermits, hid⟩
    · exact ⟨policy, hmem, hpermits, hid⟩

theorem reachedLevel_iff_foreign (level : SecurityLevel) :
    ReachedLevel w.policies.rows p level
      ↔ OwnLevel w p level ∨
        ∃ policy, ForeignGrant w p policy ∧ policy.securityLevel.allows level = true := by
  constructor
  · rintro (hpublic | ⟨policy, hmem, hpermits, hlevel⟩)
    · exact Or.inl (Or.inl hpublic)
    · by_cases htenant : policy.tenantId = p.tenantId
      · exact Or.inl (Or.inr ⟨policy, hmem, htenant, hpermits, hlevel⟩)
      · exact Or.inr ⟨policy, ⟨hmem, htenant, hpermits⟩, hlevel⟩
  · rintro ((hpublic | ⟨policy, hmem, -, hpermits, hlevel⟩) | ⟨policy, ⟨hmem, -, hpermits⟩, hlevel⟩)
    · exact Or.inl hpublic
    · exact Or.inr ⟨policy, hmem, hpermits, hlevel⟩
    · exact Or.inr ⟨policy, hmem, hpermits, hlevel⟩

variable (hsame : SameTenantData p.tenantId w w')

include hsame

theorem SameTenantData.symm : SameTenantData p.tenantId w' w :=
  ⟨fun policy h => (hsame.policies policy h).symm, fun loc h => (hsame.locations loc h).symm,
    fun cam h => (hsame.cameras cam h).symm, fun r h => (hsame.records r h).symm⟩

theorem SameTenantData.ownLevel {level : SecurityLevel} (h : OwnLevel w p level) :
    OwnLevel w' p level := by
  rcases h with hpublic | ⟨policy, hmem, htenant, hrest⟩
  · exact Or.inl hpublic
  · exact Or.inr ⟨policy, (hsame.policies policy htenant).mp hmem, htenant, hrest⟩

/-- A foreign grant of an id that is permitted on both sides is foreign there
too: an own policy of the id would be stored on both sides. -/
theorem SameTenantData.foreignGrant {policy : AccessPolicy} (h : ForeignGrant w p policy)
    (hid : PermittedId w'.policies.rows p policy.accessPolicyId) :
    ∃ policy', ForeignGrant w' p policy' ∧
      policy'.accessPolicyId = policy.accessPolicyId := by
  rcases (permittedId_iff_foreign _).mp hid with ⟨policy', hmem, htenant, -, heq⟩ | hforeign
  · exfalso
    have hmem' := (hsame.policies policy' htenant).mpr hmem
    rw [Table.eq_of_key_eq hmem' h.1 heq] at htenant
    exact h.2.1 htenant
  · exact hforeign

theorem SameTenantData.foreignLevel {level : SecurityLevel} (hown : ¬ OwnLevel w p level)
    (h : ReachedLevel w'.policies.rows p level) :
    ∃ policy, ForeignGrant w' p policy ∧ policy.securityLevel.allows level = true := by
  rcases (reachedLevel_iff_foreign level).mp h with hlevel | hforeign
  · exact absurd (hsame.symm.ownLevel hlevel) hown
  · exact hforeign

theorem SameTenantData.permittedId
    (hgrants : ∀ id, (∃ policy, ForeignGrant w p policy ∧ policy.accessPolicyId = id) →
      ∃ policy, ForeignGrant w' p policy ∧ policy.accessPolicyId = id)
    {id : String} (h : PermittedId w.policies.rows p id) : PermittedId w'.policies.rows p id := by
  rw [permittedId_iff_foreign] at h ⊢
  rcases h with ⟨policy, hmem, htenant, hrest⟩ | hforeign
  · exact Or.inl ⟨policy, (hsame.policies policy htenant).mp hmem, htenant, hrest⟩
  · exact Or.inr (hgrants id hforeign)

theorem SameTenantData.boundLocation
    (hpermitted : ∀ id, PermittedId w.policies.rows p id → PermittedId w'.policies.rows p id)
    {loc : CameraLocation} (h : BoundLocation w p loc) : BoundLocation w' p loc := by
  obtain ⟨hmem, htenant, id, href, hne, hid⟩ := h
  exact ⟨(hsame.locations loc htenant).mp hmem, htenant, id, href, hne, hpermitted id hid⟩

theorem SameTenantData.boundCamera
    (hpermitted : ∀ id, PermittedId w.policies.rows p id → PermittedId w'.policies.rows p id)
    (hlisted : ∀ loc, BoundLocation w p loc → ListedLocation w loc → ListedLocation w' loc)
    {cam : CameraDevice} (h : BoundCamera w p cam) : BoundCamera w' p cam := by
  obtain ⟨hmem, htenant, hallowed⟩ := h
  refine ⟨(hsame.cameras cam htenant).mp hmem, htenant, ?_⟩
  rcases hallowed with ⟨id, href, hne, hid⟩ | ⟨loc, hbound, hin, heq⟩
  · exact Or.inl ⟨id, href, hne, hpermitted id hid⟩
  · exact Or.inr ⟨loc, hsame.boundLocation hpermitted hbound, hlisted loc hbound hin, heq⟩

theorem SameTenantData.listedLocation {loc : CameraLocation} (hbound : BoundLocation w p loc)
    (h : ∃ loc', BoundLocation w' p loc' ∧ ListedLocation w' loc' ∧
      loc'.locationId = loc.locationId) : ListedLocation w' loc := by
  obtain ⟨loc', hbound', hlisted, heq⟩ := h
  have hmem := (hsame.locations loc hbound.2.1).mp hbound.1
  rwa [Table.eq_of_key_eq hbound'.1 hmem heq] at hlisted

theorem SameTenantData.listedCamera {cam : CameraDevice} (hbound : BoundCamera w p cam)
    (h : ∃ cam', BoundCamera w' p cam' ∧ ListedCamera w' cam' ∧ cam'.cameraId = cam.cameraId) :
    ListedCamera w' cam := by
  obtain ⟨cam', hbound', hlisted, heq⟩ := h
  have hmem := (hsame.cameras cam hbound.2.1).mp hbound.1
  rwa [Table.eq_of_key_eq hbound'.1 hmem heq] at hlisted

/-! ## Equal scopes -/

theorem SameTenantData.openings_of_scope (digest : ScopePayload → String)
    (h : authorizedScopeFor digest w p = authorizedScopeFor digest w' p) :
    SameOpenings p w w' := by
  obtain ⟨hids, hlocs, hcams, hlevels⟩ := (computeAuthorizedScope_eq_iff ..).mp h
  simp only [allowedLocation_listed_iff] at hlocs
  simp only [allowedCamera_listed_iff] at hcams
  have hlisted : ∀ loc, BoundLocation w p loc → ListedLocation w loc → ListedLocation w' loc := by
    intro loc hbound hin
    exact hsame.listedLocation hbound ((hlocs _).mp ⟨loc, hbound, hin, rfl⟩)
  refine ⟨?_, ?_, ?_, ?_⟩
  · intro id
    constructor
    · rintro ⟨policy, hgrant, rfl⟩
      exact hsame.foreignGrant hgrant
        ((hids _).mp ((permittedId_iff_foreign _).mpr (Or.inr ⟨policy, hgrant, rfl⟩)))
    · rintro ⟨policy, hgrant, rfl⟩
      exact hsame.symm.foreignGrant hgrant
        ((hids _).mpr ((permittedId_iff_foreign _).mpr (Or.inr ⟨policy, hgrant, rfl⟩)))
  · intro level hown
    constructor
    · intro hforeign
      exact hsame.foreignLevel hown
        ((hlevels level).mp ((reachedLevel_iff_foreign level).mpr (Or.inr hforeign)))
    · intro hforeign
      refine hsame.symm.foreignLevel (fun hown' => hown (hsame.symm.ownLevel hown')) ?_
      exact (hlevels level).mpr ((reachedLevel_iff_foreign level).mpr (Or.inr hforeign))
  · intro loc hbound
    constructor
    · exact hlisted loc hbound
    · intro hin
      have hbound' := hsame.boundLocation (fun id => (hids id).mp) hbound
      exact hsame.symm.listedLocation hbound' ((hlocs _).mpr ⟨loc, hbound', hin, rfl⟩)
  · intro cam hbound
    constructor
    · intro hin
      exact hsame.listedCamera hbound ((hcams _).mp ⟨cam, hbound, hin, rfl⟩)
    · intro hin
      have hbound' := hsame.boundCamera (fun id => (hids id).mp) hlisted hbound
      exact hsame.symm.listedCamera hbound' ((hcams _).mpr ⟨cam, hbound', hin, rfl⟩)

theorem SameTenantData.scope_of_openings (digest : ScopePayload → String)
    (h : SameOpenings p w w') :
    authorizedScopeFor digest w p = authorizedScopeFor digest w' p := by
  have hids : ∀ id, PermittedId w.policies.rows p id → PermittedId w'.policies.rows p id :=
    fun id => hsame.permittedId fun id => (h.grants id).mp
  have hids' : ∀ id, PermittedId w'.policies.rows p id → PermittedId w.policies.rows p id :=
    fun id => hsame.symm.permittedId fun id => (h.grants id).mpr
  have hlisted : ∀ loc, BoundLocation w p loc → ListedLocation w loc → ListedLocation w' loc :=
    fun loc hbound => (h.locations loc hbound).mp
  have hlisted' : ∀ loc, BoundLocation w' p loc → ListedLocation w' loc → ListedLocation w loc :=
    fun loc hbound => (h.locations loc (hsame.symm.boundLocation hids' hbound)).mpr
  apply (computeAuthorizedScope_eq_iff ..).mpr
  refine ⟨fun id => ⟨hids id, hids' id⟩, ?_, ?_, ?_⟩
  · intro id
    rw [allowedLocation_listed_iff, allowedLocation_listed_iff]
    constructor
    · rintro ⟨loc, hbound, hin, rfl⟩
      exact ⟨loc, hsame.boundLocation hids hbound, hlisted loc hbound hin, rfl⟩
    · rintro ⟨loc, hbound, hin, rfl⟩
      exact ⟨loc, hsame.symm.boundLocation hids' hbound, hlisted' loc hbound hin, rfl⟩
  · intro id
    rw [allowedCamera_listed_iff, allowedCamera_listed_iff]
    constructor
    · rintro ⟨cam, hbound, hin, rfl⟩
      exact ⟨cam, hsame.boundCamera hids hlisted hbound, (h.cameras cam hbound).mp hin, rfl⟩
    · rintro ⟨cam, hbound, hin, rfl⟩
      have hbound' := hsame.symm.boundCamera hids' hlisted' hbound
      exact ⟨cam, hbound', (h.cameras cam hbound').mpr hin, rfl⟩
  · intro level
    rw [reachedLevel_iff_foreign, reachedLevel_iff_foreign]
    by_cases hown : OwnLevel w p level
    · exact ⟨fun _ => Or.inl (hsame.ownLevel hown), fun _ => Or.inl hown⟩
    · have hown' : ¬ OwnLevel w' p level := fun hlevel => hown (hsame.symm.ownLevel hlevel)
      rw [or_iff_right hown, or_iff_right hown']
      exact h.levels level hown

theorem SameTenantData.visible_iff {digest : ScopePayload → String}
    (h : authorizedScopeFor digest w p = authorizedScopeFor digest w' p) (r : ObservationRecord) :
    Visible (authorizedScopeFor digest w p) w r
      ↔ Visible (authorizedScopeFor digest w' p) w' r := by
  rw [h]
  apply and_congr_left
  intro hpermits
  apply hsame.records
  unfold AuthorizedScope.permitsResource at hpermits
  by_contra hne
  rw [if_pos (show r.tenantId ≠ (authorizedScopeFor digest w' p).tenantId from hne)] at hpermits
  cases hpermits

end Isolation

/-- On two databases with the same data of the principal's tenant, its scope and
what it sees are the same exactly when the other tenants' policies open the same
and none of its rows is crowded out of a listing on one side only. -/
theorem tenantIsolated_iff (digest : ScopePayload → String) (p : Principal) (w w' : World)
    (hsame : SameTenantData p.tenantId w w') :
    TenantIsolated digest p w w' ↔ SameOpenings p w w' := by
  constructor
  · rintro ⟨hscope, -⟩
    exact hsame.openings_of_scope digest hscope
  · intro h
    have hscope := hsame.scope_of_openings digest h
    exact ⟨hscope, hsame.visible_iff hscope⟩

/-! ## A neighbour -/

def viewer : Principal where
  principalId := "user_viewer"
  principalType := .user
  tenantId := "tenant_a"
  status := "active"
  roles := ["viewer"]
  groups := []

def ownPolicy : AccessPolicy where
  accessPolicyId := "policy_a"
  tenantId := "tenant_a"
  name := "Gate"
  securityLevel := .internal
  rules := { allowedRoles := ["viewer"] }

/-- A policy of the other tenant, for the given roles there. -/
def neighbourPolicy (roles : List String) : AccessPolicy where
  accessPolicyId := "policy_b"
  tenantId := "tenant_b"
  name := "Vault"
  securityLevel := .restricted
  rules := { allowedRoles := roles }

def gate : CameraLocation where
  locationId := "gate"
  tenantId := "tenant_a"
  area := "gate"
  accessPolicyId := some "policy_a"
  securityLevel := .restricted

def gateCamera : CameraDevice where
  cameraId := "cam_gate"
  tenantId := "tenant_a"
  cameraName := "Gate Cam"
  locationId := "gate"

def vaultRecord : ObservationRecord :=
  { seen "obs_1" "cam_gate" 0 "a delivery" with
    tenantId := "tenant_a"
    accessPolicyId := "policy_a"
    securityLevel := .restricted }

/-- The tenant's gate, its camera and its record, under the given policies. -/
def gateWorld (policies : Table AccessPolicy AccessPolicy.accessPolicyId) : World :=
  { World.holding [vaultRecord] (by decide) (by decide) with
    policies := policies
    locations := ⟨[gate], by decide⟩
    cameras := ⟨[gateCamera], by decide⟩ }

def alone : World := gateWorld ⟨[ownPolicy], by decide⟩

def beside (roles : List String) : World :=
  gateWorld ⟨[ownPolicy, neighbourPolicy roles], by simp [ownPolicy, neighbourPolicy]⟩

theorem sameTenantData_beside (roles : List String) :
    SameTenantData viewer.tenantId alone (beside roles) := by
  refine ⟨?_, fun _ _ => Iff.rfl, fun _ _ => Iff.rfl, fun _ _ => Iff.rfl⟩
  intro policy htenant
  show policy ∈ [ownPolicy] ↔ policy ∈ [ownPolicy, neighbourPolicy roles]
  have hne : policy ≠ neighbourPolicy roles := by
    rintro rfl
    revert htenant
    show "tenant_b" ≠ "tenant_a"
    decide
  simp [hne]

/-- A neighbour that grants its own roles only changes nothing. -/
theorem quiet_neighbour :
    TenantIsolated (fun _ => "scope") viewer alone (beside ["auditor"]) := by
  apply (tenantIsolated_iff (fun _ => "scope") viewer alone (beside ["auditor"])
    (sameTenantData_beside ["auditor"])).mpr
  have halone : ∀ policy, ¬ ForeignGrant alone viewer policy := by
    rintro policy ⟨hmem, htenant, -⟩
    rw [show alone.policies.rows = [ownPolicy] from rfl, List.mem_singleton] at hmem
    subst hmem
    exact htenant rfl
  have hbeside : ∀ policy, ¬ ForeignGrant (beside ["auditor"]) viewer policy := by
    rintro policy ⟨hmem, htenant, hpermits⟩
    rw [show (beside ["auditor"]).policies.rows = [ownPolicy, neighbourPolicy ["auditor"]]
      from rfl, List.mem_cons, List.mem_singleton] at hmem
    rcases hmem with rfl | rfl
    · exact htenant rfl
    · revert hpermits
      decide
  refine ⟨?_, ?_, fun _ _ => Iff.rfl, fun _ _ => Iff.rfl⟩
  · intro id
    constructor
    · rintro ⟨policy, hgrant, -⟩
      exact absurd hgrant (halone policy)
    · rintro ⟨policy, hgrant, -⟩
      exact absurd hgrant (hbeside policy)
  · intro level _
    constructor
    · rintro ⟨policy, hgrant, -⟩
      exact absurd hgrant (halone policy)
    · rintro ⟨policy, hgrant, -⟩
      exact absurd hgrant (hbeside policy)

/-- A neighbour's policy that names the role `viewer`, too, lets the tenant's
viewer see a restricted record its own policies keep from it. -/
theorem foreign_policy_widens :
    SameTenantData viewer.tenantId alone (beside ["viewer"]) ∧
      ¬ Visible (authorizedScopeFor (fun _ => "scope") alone viewer) alone vaultRecord ∧
      Visible (authorizedScopeFor (fun _ => "scope") (beside ["viewer"]) viewer)
        (beside ["viewer"]) vaultRecord := by
  refine ⟨sameTenantData_beside ["viewer"], ?_, ?_⟩
  · rintro ⟨-, hpermits⟩
    revert hpermits
    decide +kernel
  · refine ⟨List.mem_singleton_self _, (authorizedObservationFilter_iff _ _).mp ?_⟩
    have hpermitted : PermittedId (beside ["viewer"]).policies.rows viewer "policy_a" :=
      ⟨ownPolicy, List.mem_cons_self, by decide, rfl⟩
    have hgate : BoundLocation (beside ["viewer"]) viewer gate :=
      ⟨List.mem_singleton_self _, rfl, "policy_a", rfl, by decide, hpermitted⟩
    have hgateListed : ListedLocation (beside ["viewer"]) gate := by decide
    apply (observationFilter_iff ..).mpr
    refine ⟨rfl, (allowedCamera_listed_iff _).mpr ?_, (allowedLocation_listed_iff _).mpr ?_,
      hpermitted, ?_⟩
    · refine ⟨gateCamera, ⟨List.mem_singleton_self _, rfl, Or.inr ?_⟩, by decide, rfl⟩
      exact ⟨gate, hgate, hgateListed, rfl⟩
    · exact ⟨gate, hgate, hgateListed, rfl⟩
    · exact Or.inr ⟨neighbourPolicy ["viewer"], by simp [beside, gateWorld], by decide, by decide⟩

end CctvMemory.Search
