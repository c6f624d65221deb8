import CctvMemory.Library.Amid
import CctvMemory.Library.Trace
import CctvMemory.Provisioning.Chain

/-!
# Registrations against placeholders

Any number of video resolutions and seed runs, one repository call at a time in
any order, beside administrators who register locations and cameras. Each
program carries the keys it may still put a placeholder on (`pending`): a key
it looked up and missed, until it wrote it, and for a seed run the seeded keys
from the start, as it never looks.

* `registrations_are_kept`: as long as no row is registered while a program has
  its key pending, and no seed run starts after a seeded row was registered, a
  registered row stays as it was registered.
* `provisioning_resets_registration`, `seeding_resets_registration`: the two
  orders that lose one.
-/

namespace CctvMemory.Provisioning

open Act (Amid)
open CctvMemory.Authorization
open Keyed (Table)

/-! ## Rows by key -/

/-- A location or a camera row. -/
inductive Row where
  | location (row : CameraLocation)
  | camera (row : CameraDevice)
deriving DecidableEq

def Row.key : Row → RowKey
  | .location row => .location row.locationId
  | .camera row => .camera row.cameraId

def Registry.row (reg : Registry) : RowKey → Option Row
  | .location id => (reg.locations.get? id).map Row.location
  | .camera id => (reg.cameras.get? id).map Row.camera

/-- `upsert_location` or `upsert_camera`. -/
def Registry.upsert (reg : Registry) : Row → Registry
  | .location row => reg.upsertLocation row
  | .camera row => reg.upsertCamera row

theorem row_upsert (reg : Registry) (r : Row) (key : RowKey) :
    (reg.upsert r).row key = if r.key = key then some r else reg.row key := by
  cases r with
  | location row =>
      cases key with
      | location id =>
          show ((reg.upsertLocation row).locations.get? id).map Row.location = _
          rw [get?_upsertLocation]
          by_cases hid : row.locationId = id
          · simp [Row.key, hid]
          · simp [Row.key, hid, Registry.row]
      | camera id => rfl
  | camera row =>
      cases key with
      | location id => rfl
      | camera id =>
          show ((reg.upsertCamera row).cameras.get? id).map Row.camera = _
          rw [get?_upsertCamera]
          by_cases hid : row.cameraId = id
          · simp [Row.key, hid]
          · simp [Row.key, hid, Registry.row]

/-! ## What a program may still write -/

/-- The pending keys after the outputs of a step. -/
def settle (pending : List RowKey) : List Access → List RowKey
  | [] => pending
  | .missed key :: out => settle (key :: pending) out
  | .wrote key :: out => settle (pending.filter fun k => decide (k ≠ key)) out

/-- A step leaves the rows alone whose keys are not pending, and misses only
rows that are not there. -/
def Placeholding (pending : List RowKey) (reg : Registry) (next : Registry × List Access) : Prop :=
  (∀ key, key ∉ pending → next.1.row key = reg.row key) ∧
    ∀ key, Access.missed key ∈ next.2 → reg.row key = none

/-- From these pending keys on, whatever others do in between, every step is
`Placeholding`. -/
abbrev Careful {α : Type} (x : RegistryAct α) (pending : List RowKey)
    (Q : α → List RowKey → Prop) : Prop :=
  Amid settle Placeholding x pending Q fun _ _ => True

theorem careful_read {α : Type} {f : Registry → α} {pending : List RowKey}
    {Q : α → List RowKey → Prop} (h : ∀ a, Q a pending) :
    Careful (Act.txn fun reg => .ok (f reg, reg, [])) pending Q := by
  apply Amid.txn
  intro reg
  exact ⟨⟨fun _ _ => rfl, fun _ hmem => absurd hmem List.not_mem_nil⟩, h _⟩

theorem careful_upsert {ρ : Type} {pending : List RowKey} {Q : ρ → List RowKey → Prop} {a : ρ}
    {r : Row} (hkey : r.key ∈ pending) (h : Q a (pending.filter fun k => decide (k ≠ r.key))) :
    Careful (Act.txn fun reg => .ok (a, reg.upsert r, [.wrote r.key])) pending Q := by
  apply Amid.txn
  intro reg
  refine ⟨⟨?_, ?_⟩, h⟩
  · intro key hnot
    show (reg.upsert r).row key = reg.row key
    rw [row_upsert, if_neg]
    rintro rfl
    exact hnot hkey
  · intro key hmem
    rw [List.mem_singleton] at hmem
    cases hmem

theorem careful_upsertLocation {location : CameraLocation} {pending : List RowKey}
    {Q : CameraLocation → List RowKey → Prop} (hkey : .location location.locationId ∈ pending)
    (h : Q location (pending.filter fun k => decide (k ≠ .location location.locationId))) :
    Careful (upsertLocation location) pending Q :=
  careful_upsert (r := .location location) hkey h

theorem careful_upsertCamera {camera : CameraDevice} {pending : List RowKey}
    {Q : CameraDevice → List RowKey → Prop} (hkey : .camera camera.cameraId ∈ pending)
    (h : Q camera (pending.filter fun k => decide (k ≠ .camera camera.cameraId))) :
    Careful (upsertCamera camera) pending Q :=
  careful_upsert (r := .camera camera) hkey h

theorem careful_getLocation {locationId : String} {pending : List RowKey}
    {Q : Option CameraLocation → List RowKey → Prop} (hfound : ∀ row, Q (some row) pending)
    (hmissed : Q none (.location locationId :: pending)) :
    Careful (getLocation locationId) pending Q := by
  apply Amid.txn
  intro reg
  cases hrow : reg.locations.get? locationId with
  | none =>
      refine ⟨⟨fun _ _ => rfl, ?_⟩, hmissed⟩
      intro key hmem
      rw [missedIfNone, List.mem_singleton] at hmem
      cases hmem
      exact congrArg (Option.map Row.location) hrow
  | some row => exact ⟨⟨fun _ _ => rfl, fun _ hmem => absurd hmem List.not_mem_nil⟩, hfound row⟩

theorem careful_getCamera {cameraId : String} {pending : List RowKey}
    {Q : Option CameraDevice → List RowKey → Prop} (hfound : ∀ row, Q (some row) pending)
    (hmissed : Q none (.camera cameraId :: pending)) :
    Careful (getCamera cameraId) pending Q := by
  apply Amid.txn
  intro reg
  cases hrow : reg.cameras.get? cameraId with
  | none =>
      refine ⟨⟨fun _ _ => rfl, ?_⟩, hmissed⟩
      intro key hmem
      rw [missedIfNone, List.mem_singleton] at hmem
      cases hmem
      exact congrArg (Option.map Row.camera) hrow
  | some row => exact ⟨⟨fun _ _ => rfl, fun _ hmem => absurd hmem List.not_mem_nil⟩, hfound row⟩

/-! ## The programs are careful -/

theorem careful_provisionCamera (cameraId : String) :
    Careful (provisionCamera cameraId) [.camera cameraId] fun _ _ => True := by
  unfold provisionCamera
  apply Amid.bind
  apply careful_getLocation
  · intro row
    exact careful_upsertCamera List.mem_cons_self trivial
  · apply Amid.bind
    apply careful_upsertLocation List.mem_cons_self
    apply careful_upsertCamera _ trivial
    rw [List.mem_filter]
    exact ⟨by simp [placeholderCamera], by simp⟩

theorem careful_cameraOf (cameraId : String) :
    Careful (cameraOf cameraId) [] fun _ _ => True := by
  unfold cameraOf
  apply Amid.bind
  apply careful_getCamera
  · intro row
    exact Amid.pure trivial
  · exact careful_provisionCamera cameraId

theorem careful_locationOf (locationId : String) (pending : List RowKey) :
    Careful (locationOf locationId) pending fun _ _ => True := by
  unfold locationOf
  apply Amid.bind
  apply careful_getLocation
  · intro row
    exact Amid.pure trivial
  · exact careful_upsertLocation List.mem_cons_self trivial

/-- A resolution writes a placeholder only where it missed a row. -/
theorem careful_resolveVideoContext (videoId defaultPolicyId : String) :
    Careful (resolveVideoContext videoId defaultPolicyId) [] fun _ _ => True := by
  unfold resolveVideoContext
  apply Amid.bind
  apply careful_read
  rintro (_ | source)
  · exact Amid.throw trivial
  · apply Amid.bind
    apply (careful_cameraOf source.cameraId).imp
    intro camera pending _
    apply Amid.bind
    apply (careful_locationOf camera.locationId pending).imp
    intro location pending' _
    apply Amid.bind
    apply careful_read
    intro policy
    exact Amid.pure trivial

/-- The rows a seed run writes without looking. -/
def seededKeys : List RowKey :=
  [.location autoLocationId, .location "loc_lobby_01", .camera "cam_lobby_01"]

theorem careful_seedPrincipal (pending : List RowKey) :
    Careful seedPrincipal pending fun _ pending' => pending' = pending := by
  unfold seedPrincipal
  apply Amid.bind
  apply careful_read
  rintro (_ | principal)
  · apply Amid.txn
    intro reg
    cases hins : reg.principals.insert? devPrincipal with
    | none => exact ⟨⟨fun _ _ => rfl, fun _ hmem => absurd hmem List.not_mem_nil⟩, trivial⟩
    | some principals =>
        refine ⟨⟨?_, fun _ hmem => absurd hmem List.not_mem_nil⟩, rfl⟩
        rintro (id | id) _
        · rfl
        · rfl
  · exact Amid.pure rfl

theorem careful_upsertAccessPolicy (policy : AccessPolicy) (pending : List RowKey) :
    Careful (upsertAccessPolicy policy) pending fun _ pending' => pending' = pending := by
  apply Amid.txn
  intro reg
  refine ⟨⟨?_, fun _ hmem => absurd hmem List.not_mem_nil⟩, rfl⟩
  rintro (id | id) _
  · rfl
  · rfl

theorem careful_seedLocalDefaults :
    Careful seedLocalDefaults seededKeys fun _ _ => True := by
  unfold seedLocalDefaults
  apply Amid.bind
  apply careful_upsertLocation (by decide)
  apply Amid.bind
  apply (careful_upsertAccessPolicy _ _).imp
  rintro _ _ rfl
  apply Amid.bind
  apply (careful_seedPrincipal _).imp
  rintro _ _ rfl
  apply Amid.bind
  apply careful_upsertLocation (by decide)
  apply Amid.bind
  apply careful_upsertCamera (by decide)
  exact Amid.pure trivial

/-! ## The site -/

/-- A running program: the calls it has left and its pending keys. -/
structure Running where
  rest : Act.Prog Registry Access (Except RegistryError Unit)
  pending : List RowKey

def Running.resolve (videoId defaultPolicyId : String) : Running where
  rest := ExceptT.run (do
    let _ ← resolveVideoContext videoId defaultPolicyId
    (pure () : RegistryAct Unit))
  pending := []

def Running.seed : Running where
  rest := ExceptT.run seedLocalDefaults
  pending := seededKeys

/-- `registered` holds each row as its last registration wrote it. -/
structure Site (ι : Type) where
  registry : Registry
  running : ι → Option Running
  registered : RowKey → Option Row

inductive SiteEvent (ι : Type) where
  | resolve (i : ι) (videoId defaultPolicyId : String)
  | seed (i : ι)
  | call (i : ι)
  | register (row : Row)
  | setVideos (t : Table VideoSource VideoSource.videoId)
  | setPolicies (t : Table AccessPolicy AccessPolicy.accessPolicyId)
  | setPrincipals (t : Table Principal Principal.principalId)

variable {ι : Type}

/-- What one event does; `none` where it cannot happen. -/
def siteStep [DecidableEq ι] (s : Site ι) : SiteEvent ι → Option (Site ι)
  | .resolve i videoId defaultPolicyId => match s.running i with
      | none => some { s with
          running := Function.update s.running i (some (.resolve videoId defaultPolicyId)) }
      | some _ => none
  | .seed i => match s.running i with
      | none => some { s with running := Function.update s.running i (some .seed) }
      | some _ => none
  | .call i => match s.running i with
      | some ⟨.atomic next k, pending⟩ => some { s with
          registry := (next s.registry).1
          running := Function.update s.running i
            (some ⟨k s.registry, settle pending (next s.registry).2⟩) }
      | _ => none
  | .register row => some { s with
      registry := s.registry.upsert row
      registered := Function.update s.registered row.key (some row) }
  | .setVideos t => some { s with registry := { s.registry with videos := t } }
  | .setPolicies t => some { s with registry := { s.registry with policies := t } }
  | .setPrincipals t => some { s with registry := { s.registry with principals := t } }

/-- Every registered row is stored as it was registered. -/
def Kept (s : Site ι) : Prop :=
  ∀ key row, s.registered key = some row → s.registry.row key = some row

/-- A site where nothing runs yet. -/
def Quiet (s : Site ι) : Prop := (∀ i, s.running i = none) ∧ Kept s

/-- No row is registered while a program has its key pending, and no seed run
starts once a seeded row was registered. -/
def Timely (s : Site ι) : SiteEvent ι → Prop
  | .seed _ => ∀ key ∈ seededKeys, s.registered key = none
  | .register row => ∀ i r, s.running i = some r → row.key ∉ r.pending
  | _ => True

/-- Runs in which every registration is timely. -/
abbrev TimelyRun [DecidableEq ι] : List (SiteEvent ι) → Site ι → Prop :=
  Trace.Run Quiet fun s e s' => siteStep s e = some s' ∧ Timely s e

/-! ## The invariant -/

structure Apart (s : Site ι) : Prop where
  careful : ∀ i r, s.running i = some r →
    r.rest.Amid settle Placeholding r.pending fun _ _ => True
  apart : ∀ i r key, s.running i = some r → key ∈ r.pending → s.registered key = none
  kept : Kept s

theorem mem_settle {pending : List RowKey} {out : List Access} {key : RowKey}
    (h : key ∈ settle pending out) : key ∈ pending ∨ Access.missed key ∈ out := by
  induction out generalizing pending with
  | nil => exact Or.inl h
  | cons access out ih =>
      cases access with
      | missed key' =>
          rcases ih h with hmem | hmissed
          · rcases List.mem_cons.mp hmem with rfl | hmem
            · exact Or.inr List.mem_cons_self
            · exact Or.inl hmem
          · exact Or.inr (List.mem_cons_of_mem _ hmissed)
      | wrote key' =>
          rcases ih h with hmem | hmissed
          · exact Or.inl (List.mem_filter.mp hmem).1
          · exact Or.inr (List.mem_cons_of_mem _ hmissed)

/-- The programs that run after `i` was given `r`. -/
theorem running_update [DecidableEq ι] {running : ι → Option Running} {i j : ι} {r r' : Running}
    (h : Function.update running i (some r) j = some r') : r' = r ∨ running j = some r' := by
  rw [Function.update_apply] at h
  split at h
  · exact Or.inl (Option.some.inj h).symm
  · exact Or.inr h

theorem Running.amid_resolve (videoId defaultPolicyId : String) :
    (Running.resolve videoId defaultPolicyId).rest.Amid settle Placeholding []
      fun _ _ => True := by
  have h : Careful (do
      let _ ← resolveVideoContext videoId defaultPolicyId
      (pure () : RegistryAct Unit)) [] fun _ _ => True := by
    apply Amid.bind
    apply (careful_resolveVideoContext videoId defaultPolicyId).imp
    intro ctx pending _
    exact Amid.pure trivial
  apply Act.Prog.Amid.imp h
  intro r pending _
  trivial

theorem Running.amid_seed :
    Running.seed.rest.Amid settle Placeholding seededKeys fun _ _ => True := by
  apply Act.Prog.Amid.imp careful_seedLocalDefaults
  intro r pending _
  trivial

namespace Apart

variable {s s' : Site ι}

theorem of_quiet (h : Quiet s) : Apart s where
  careful i r hr := by rw [h.1] at hr; cases hr
  apart i r key hr := by rw [h.1] at hr; cases hr
  kept := h.2

/-- A program is started with pending keys that nobody registered. -/
theorem start [DecidableEq ι] (h : Apart s) {i : ι} {r : Running}
    (hcareful : r.rest.Amid settle Placeholding r.pending fun _ _ => True)
    (hapart : ∀ key ∈ r.pending, s.registered key = none) :
    Apart { s with running := Function.update s.running i (some r) } := by
  constructor
  · intro j r' hr
    rcases running_update hr with rfl | hr
    · exact hcareful
    · exact h.careful j r' hr
  · intro j r' key hr hkey
    rcases running_update hr with rfl | hr
    · exact hapart key hkey
    · exact h.apart j r' key hr hkey
  · exact h.kept

/-- A call of a running program: it writes pending keys only, and a key it
misses is no registered one, as registered rows are stored. -/
theorem call [DecidableEq ι] (h : Apart s) {i : ι} {next : Registry → Registry × List Access}
    {k : Registry → Act.Prog Registry Access (Except RegistryError Unit)} {pending : List RowKey}
    (hrun : s.running i = some ⟨.atomic next k, pending⟩) :
    Apart { s with
      registry := (next s.registry).1
      running := Function.update s.running i
        (some ⟨k s.registry, settle pending (next s.registry).2⟩) } := by
  obtain ⟨⟨hwrites, hmisses⟩, hrest⟩ := h.careful i _ hrun s.registry
  constructor
  · intro j r' hr
    rcases running_update hr with rfl | hr
    · exact hrest
    · exact h.careful j r' hr
  · intro j r' key hr hkey
    rcases running_update hr with rfl | hr
    · rcases mem_settle hkey with hpending | hmissed
      · exact h.apart i _ key hrun hpending
      · have habsent := hmisses key hmissed
        rw [Option.eq_none_iff_forall_ne_some]
        intro row hreg
        rw [h.kept key row hreg] at habsent
        cases habsent
    · exact h.apart j r' key hr hkey
  · intro key row hreg
    show (next s.registry).1.row key = some row
    have hnot : key ∉ pending := by
      intro hpending
      have hnone : s.registered key = none := h.apart i _ key hrun hpending
      rw [hreg] at hnone
      cases hnone
    rw [hwrites key hnot]
    exact h.kept key row hreg

theorem register (h : Apart s) {row : Row}
    (htimely : ∀ i r, s.running i = some r → row.key ∉ r.pending) :
    Apart { s with
      registry := s.registry.upsert row
      registered := Function.update s.registered row.key (some row) } := by
  constructor
  · exact h.careful
  · intro i r key hr hkey
    show Function.update s.registered row.key (some row) key = none
    rw [Function.update_of_ne]
    · exact h.apart i r key hr hkey
    · rintro rfl
      exact htimely i r hr hkey
  · intro key row' hreg
    show (s.registry.upsert row).row key = some row'
    change Function.update s.registered row.key (some row) key = some row' at hreg
    rw [row_upsert]
    by_cases hkey : row.key = key
    · subst hkey
      rw [Function.update_self] at hreg
      rw [if_pos rfl, hreg]
    · rw [Function.update_of_ne (Ne.symm hkey)] at hreg
      rw [if_neg hkey]
      exact h.kept key row' hreg

/-- Videos, policies and principals are other tables. -/
theorem otherTable (h : Apart s) {reg : Registry} (hrows : ∀ key, reg.row key = s.registry.row key) :
    Apart { s with registry := reg } where
  careful := h.careful
  apart := h.apart
  kept key row hreg := (hrows key).trans (h.kept key row hreg)

theorem step [DecidableEq ι] (h : Apart s) {e : SiteEvent ι} (htimely : Timely s e)
    (hstep : siteStep s e = some s') : Apart s' := by
  cases e with
  | resolve i videoId defaultPolicyId =>
      cases hrun : s.running i with
      | none =>
          simp only [siteStep, hrun] at hstep
          cases hstep
          apply h.start (Running.amid_resolve videoId defaultPolicyId)
          intro key hkey
          cases hkey
      | some r =>
          simp only [siteStep, hrun] at hstep
          cases hstep
  | seed i =>
      cases hrun : s.running i with
      | none =>
          simp only [siteStep, hrun] at hstep
          cases hstep
          exact h.start Running.amid_seed htimely
      | some r =>
          simp only [siteStep, hrun] at hstep
          cases hstep
  | call i =>
      rcases hrun : s.running i with _ | ⟨_ | ⟨next, k⟩, pending⟩
      · simp only [siteStep, hrun] at hstep
        cases hstep
      · simp only [siteStep, hrun] at hstep
        cases hstep
      · simp only [siteStep, hrun] at hstep
        cases hstep
        exact h.call hrun
  | register row =>
      cases hstep
      exact h.register htimely
  | setVideos t =>
      cases hstep
      exact h.otherTable fun key => by cases key <;> rfl
  | setPolicies t =>
      cases hstep
      exact h.otherTable fun key => by cases key <;> rfl
  | setPrincipals t =>
      cases hstep
      exact h.otherTable fun key => by cases key <;> rfl

end Apart

/-- In every run in which registrations keep clear of pending keys and seed runs
precede the registration of seeded rows, each registered row is stored as it was
last registered. -/
theorem registrations_are_kept [DecidableEq ι] {es : List (SiteEvent ι)} {s : Site ι}
    (h : TimelyRun es s) : Kept s := by
  have hinv : Apart s := by
    apply Trace.Run.invariant_of_state (p := fun _ => True) _ _ h
    · exact fun _ _ => trivial
    · exact fun s hquiet => Apart.of_quiet hquiet
    · intro s e t hapart _ hstep
      exact hapart.step hstep.2 hstep.1
  exact hinv.kept

/-! ## Three orders -/

/-- The office before anybody works there. -/
def openingDay : Site ℕ := ⟨office, fun _ => none, fun _ => none⟩

theorem quiet_openingDay : Quiet openingDay :=
  ⟨fun _ => rfl, fun key row hreg => by cases hreg⟩

/-- The administrator's row of the new camera: the lobby's, for its own policy. -/
def vaultCamera : CameraDevice where
  cameraId := "cam_new"
  cameraName := "Vault Cam"
  locationId := "loc_lobby_01"
  accessPolicyId := some "policy_vault"

/-- A camera registered before its first video keeps its row. -/
theorem registered_first : ∃ s : Site ℕ,
    TimelyRun [.call 0, .call 0, .resolve 0 "vid_2" devPolicyId, .register (.camera vaultCamera)] s ∧
      Kept s := by
  have hregister : TimelyRun [.register (.camera vaultCamera)] _ :=
    (Trace.Run.start quiet_openingDay).next ⟨rfl, fun i r hr => by cases hr⟩
  have hresolve : TimelyRun
      [.resolve 0 "vid_2" devPolicyId, .register (.camera vaultCamera)] _ :=
    hregister.next ⟨rfl, trivial⟩
  have hvideo : TimelyRun
      [.call 0, .resolve 0 "vid_2" devPolicyId, .register (.camera vaultCamera)] _ :=
    hresolve.next ⟨rfl, trivial⟩
  have hcamera : TimelyRun
      [.call 0, .call 0, .resolve 0 "vid_2" devPolicyId, .register (.camera vaultCamera)] _ :=
    hvideo.next ⟨rfl, trivial⟩
  exact ⟨_, hcamera, registrations_are_kept hcamera⟩

/-- A camera registered between the lookup and the placeholder of a worker loses
its location, name and policy to the placeholder. -/
theorem provisioning_resets_registration : Quiet openingDay ∧ ∃ s,
    Trace.exec siteStep [.resolve 0 "vid_2" devPolicyId, .call 0, .call 0,
      .register (.camera vaultCamera), .call 0, .call 0] openingDay = some s ∧
    s.registry.row (.camera "cam_new") = some (.camera (placeholderCamera "cam_new")) ∧
    ¬ Kept s := by
  refine ⟨quiet_openingDay, _, rfl, rfl, ?_⟩
  intro hkept
  exact absurd (hkept (.camera "cam_new") (.camera vaultCamera) rfl) (by decide)

/-- A seed run resets a location that was registered under another policy. -/
theorem seeding_resets_registration : Quiet openingDay ∧ ∃ s,
    Trace.exec siteStep [.register (.location { lobbyLocation with
        accessPolicyId := some "policy_vault" }),
      .seed 0, .call 0, .call 0, .call 0, .call 0] openingDay = some s ∧
    s.registry.row (.location "loc_lobby_01") = some (.location lobbyLocation) ∧
    ¬ Kept s := by
  refine ⟨quiet_openingDay, _, rfl, rfl, ?_⟩
  intro hkept
  exact absurd (hkept (.location "loc_lobby_01") (.location { lobbyLocation with
    accessPolicyId := some "policy_vault" }) rfl) (by decide)

end CctvMemory.Provisioning
