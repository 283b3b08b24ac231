import Boomux.Nodes.Steps

/-!
# Registrations over time

`RegistrationState.Sound` is what holds of the registrations behind the lock, whoever calls.
`Proceeds C E G s s'` says, Node by Node, what a critical section does to them: a snapshot that
changes gets a new revision, an admission epoch never goes back, admission is left closed
without a lease only for the Nodes in `C`, a lease ends only as `E` allows, and the tokens of
new leases are in `G`.
-/

set_option autoImplicit false

namespace Boomux.Nodes

open Rust

variable {s s' t : RegistrationState} {n : String} {r r' : Registration} {i now : Nat}

/-! ## Sound registrations -/

structure RegistrationState.Sound (s : RegistrationState) : Prop where
  distinct : s.Distinct
  aliases : Keyed.Distinct (·.snapshot.nodeAlias) s.registrations
  canonical : ∀ r ∈ s.registrations,
    isCanonicalUuid r.nodeId = true ∧ isCanonicalUuid r.snapshot.nodeAlias = false
  bounded : ∀ r ∈ s.registrations, r.snapshot.revision ≤ s.revision
  leased : ∀ r ∈ s.registrations, r.maintenance.isSome = true → r.admissionOpen = false

/-- Admission is closed without a lease. -/
def Registration.Pending (r : Registration) : Prop :=
  r.admissionOpen = false ∧ r.maintenance = none

/-- A selector names at most one registration. -/
theorem RegistrationState.Sound.findIndex_eq (h : s.Sound) {selector : String}
    (hr : lookup s n = some r) (hnamed : r.named selector = true) :
    ∃ i, findIndex s selector = some (i, r) := by
  have hmem : r ∈ s.registrations := Keyed.mem_of_get hr
  cases hfind : findIndex s selector with
  | none =>
      have hnot := locate_eq_none hfind r hmem
      rw [hnamed] at hnot
      cases hnot
  | some found =>
      obtain ⟨i, r'⟩ := found
      obtain ⟨hi, hnamed'⟩ := locate_eq_some hfind
      have hmem' : r' ∈ s.registrations := List.mem_of_getElem? hi
      have halias := (h.canonical r hmem).2
      have halias' := (h.canonical r' hmem').2
      have hid := (h.canonical r hmem).1
      have hid' := (h.canonical r' hmem').1
      simp only [Registration.named, Bool.or_eq_true, beq_iff_eq] at hnamed hnamed'
      refine ⟨i, ?_⟩
      rcases hnamed with hn | hn <;> rcases hnamed' with hn' | hn'
      · rw [List.inj_on_of_nodup_map h.aliases hmem hmem' (hn.trans hn'.symm)]
      · rw [hn, ← hn', ← Registration.nodeId, hid'] at halias
        cases halias
      · rw [hn', ← hn, ← Registration.nodeId, hid] at halias'
        cases halias'
      · rw [List.inj_on_of_nodup_map h.distinct hmem hmem' (hn.trans hn'.symm)]

/-! ## Loading -/

theorem validateNodeId_eq_ok {nodeId : String} (h : validateNodeId nodeId = .ok ()) :
    isCanonicalUuid nodeId = true := by
  unfold validateNodeId at h
  split at h
  next => cases h
  next =>
    split at h
    next => cases h
    next hcanonical => simpa using hcanonical

theorem validateAlias_eq_ok {nodeAlias : String} (h : validateAlias nodeAlias = .ok ()) :
    isCanonicalUuid nodeAlias = false := by
  unfold validateAlias at h
  split at h
  next => cases h
  next hnot =>
    simp only [Bool.or_eq_true, not_or, Bool.not_eq_true] at hnot
    exact hnot.2

/-- Appending a registration whose Node and alias are new. -/
theorem RegistrationState.Sound.append {revision : Nat} (tombstoneEpoch : Nat) (h : s.Sound)
    (hrevision : s.revision ≤ revision) (hbound : r.snapshot.revision ≤ revision)
    (hid : isCanonicalUuid r.nodeId = true)
    (halias : isCanonicalUuid r.snapshot.nodeAlias = false)
    (hleased : r.maintenance.isSome = true → r.admissionOpen = false)
    (hnewId : ∀ q ∈ s.registrations, q.nodeId ≠ r.nodeId)
    (hnewAlias : ∀ q ∈ s.registrations, q.snapshot.nodeAlias ≠ r.snapshot.nodeAlias) :
    RegistrationState.Sound ⟨revision, tombstoneEpoch, s.registrations ++ [r]⟩ where
  distinct := h.distinct.append_singleton (Keyed.get_eq_none.mpr hnewId)
  aliases := h.aliases.append_singleton (Keyed.get_eq_none.mpr hnewAlias)
  canonical q hq := by
    rcases List.mem_append.mp hq with hold | hlast
    · exact h.canonical q hold
    · rw [List.mem_singleton.mp hlast]
      exact ⟨hid, halias⟩
  bounded q hq := by
    rcases List.mem_append.mp hq with hold | hlast
    · exact (h.bounded q hold).trans hrevision
    · rw [List.mem_singleton.mp hlast]
      exact hbound
  leased q hq := by
    rcases List.mem_append.mp hq with hold | hlast
    · exact h.leased q hold
    · rw [List.mem_singleton.mp hlast]
      exact hleased

theorem validateSnapshots_sound {revision tombstoneEpoch : Nat}
    {snapshots : List NodeRegistrationSnapshot} {before after : List Registration}
    (h : RegistrationState.Sound ⟨revision, tombstoneEpoch, before⟩)
    (hidle : ∀ r ∈ before, r.admitted = 0 ∧ r.admissionOpen = true)
    (hok : snapshots.foldlM (validateSnapshot revision tombstoneEpoch) before = .ok after) :
    RegistrationState.Sound ⟨revision, tombstoneEpoch, after⟩ ∧
      ∀ r ∈ after, r.admitted = 0 ∧ r.admissionOpen = true := by
  induction snapshots generalizing before with
  | nil =>
      cases hok
      exact ⟨h, hidle⟩
  | cons snapshot snapshots ih =>
      rw [List.foldlM_cons, bind_eq_ok] at hok
      obtain ⟨next, hnext, hrest⟩ := hok
      simp only [validateSnapshot, bind_eq_ok, mapError_eq_ok, require_eq_ok,
        Except.ok.injEq] at hnext
      obtain ⟨_, halias, _, -, _, hid, _, hguard, rfl⟩ := hnext
      simp only [Bool.and_eq_true, Bool.not_eq_true', List.any_eq_false, decide_eq_true_eq]
        at hguard
      obtain ⟨⟨⟨⟨⟨-, hbound⟩, -⟩, hnewAlias⟩, -⟩, hnewId⟩ := hguard
      have hsound := h.append (r := .ofSnapshot snapshot) tombstoneEpoch le_rfl hbound
        (validateNodeId_eq_ok hid) (validateAlias_eq_ok halias)
        (fun hleased => absurd hleased Bool.false_ne_true) hnewId hnewAlias
      refine ih hsound (fun r hr => ?_) hrest
      rcases List.mem_append.mp hr with hold | hlast
      · exact hidle r hold
      · rw [List.mem_singleton.mp hlast]
        exact ⟨rfl, rfl⟩

theorem empty_sound {revision tombstoneEpoch : Nat} :
    RegistrationState.Sound ⟨revision, tombstoneEpoch, []⟩ :=
  ⟨List.nodup_nil, List.nodup_nil, nofun, nofun, nofun⟩

/-- What `load` accepts is sound, and nothing is admitted or closed. -/
theorem validatePersisted_sound {revision tombstoneEpoch : Nat}
    {snapshots : List NodeRegistrationSnapshot}
    (hok : validatePersisted revision tombstoneEpoch snapshots = .ok s) :
    s.Sound ∧ ∀ r ∈ s.registrations, r.admitted = 0 ∧ r.admissionOpen = true := by
  simp only [validatePersisted, bind_eq_ok, Except.ok.injEq] at hok
  obtain ⟨_, -, registrations, hregistrations, rfl⟩ := hok
  exact validateSnapshots_sound empty_sound (by simp) hregistrations

/-! ## The relation -/

/-- The registrations hold a lease with this token. -/
def RegistrationState.Leased (s : RegistrationState) (token : Nat) : Prop :=
  ∃ r ∈ s.registrations, ∃ lease ∈ r.maintenance, lease.token = token

instance (s : RegistrationState) (token : Nat) : Decidable (s.Leased token) :=
  inferInstanceAs (Decidable (∃ r ∈ s.registrations, ∃ lease ∈ r.maintenance, lease.token = token))

structure Proceeds (C : String → Prop) (E : String → MaintenanceLease → Prop) (G : Nat → Prop)
    (s s' : RegistrationState) : Prop where
  sound : s'.Sound
  revision_le : s.revision ≤ s'.revision
  kept : ∀ n r', lookup s' n = some r' →
    (s.revision < r'.snapshot.revision ∧ (r'.Pending → C n)) ∨
    ∃ r, lookup s n = some r ∧ r'.snapshot = r.snapshot ∧ r.admissionEpoch ≤ r'.admissionEpoch ∧
      (r'.Pending → r.Pending ∨ C n)
  leases : ∀ n r lease, lookup s n = some r → r.maintenance = some lease → E n lease ∨
    ∃ r' lease', lookup s' n = some r' ∧ r'.maintenance = some lease' ∧
      lease'.token = lease.token ∧ lease.deadline ≤ lease'.deadline
  granted : ∀ token, s'.Leased token → G token ∨ s.Leased token

section Relation

variable {C C' : String → Prop} {E E' : String → MaintenanceLease → Prop} {G : Nat → Prop}

theorem Proceeds.refl (h : s.Sound) : Proceeds C E G s s where
  sound := h
  revision_le := le_rfl
  kept _ r' hr' := .inr ⟨r', hr', rfl, le_rfl, .inl⟩
  leases _ r lease hr hlease := .inr ⟨r, lease, hr, hlease, rfl, le_rfl⟩
  granted _ := .inr

theorem Proceeds.mono (h : Proceeds C E G s s') (hC : ∀ n, C n → C' n)
    (hE : ∀ n r lease, lookup s n = some r → r.maintenance = some lease → E n lease →
      E' n lease) : Proceeds C' E' G s s' where
  sound := h.sound
  revision_le := h.revision_le
  kept n r' hr' := by
    rcases h.kept n r' hr' with ⟨hnew, hpending⟩ | ⟨r, hr, hsnapshot, hepoch, hpending⟩
    · exact .inl ⟨hnew, fun hp => hC n (hpending hp)⟩
    · exact .inr ⟨r, hr, hsnapshot, hepoch, fun hp => (hpending hp).imp_right (hC n)⟩
  leases n r lease hr hlease := (h.leases n r lease hr hlease).imp_left (hE n r lease hr hlease)
  granted := h.granted

/-- A lease that the second part ends may have been prolonged by the first. -/
theorem Proceeds.trans (h : Proceeds C E G s t) (h' : Proceeds C' E' G t s')
    (hE : ∀ n lease lease', lease'.token = lease.token → lease.deadline ≤ lease'.deadline →
      E' n lease' → E n lease) : Proceeds (fun n => C n ∨ C' n) E G s s' where
  sound := h'.sound
  revision_le := h.revision_le.trans h'.revision_le
  kept n r' hr' := by
    rcases h'.kept n r' hr' with ⟨hnew, hpending'⟩ | ⟨q, hq, hsnapshot', hepoch', hpending'⟩
    · exact .inl ⟨h.revision_le.trans_lt hnew, fun hp => .inr (hpending' hp)⟩
    · rcases h.kept n q hq with ⟨hnew, hpending⟩ | ⟨r, hr, hsnapshot, hepoch, hpending⟩
      · exact .inl ⟨hsnapshot' ▸ hnew, fun hp => (hpending' hp).imp_left hpending⟩
      · refine .inr ⟨r, hr, hsnapshot'.trans hsnapshot, hepoch.trans hepoch', fun hp => ?_⟩
        rcases hpending' hp with hq' | hc
        · exact (hpending hq').imp_right .inl
        · exact .inr (.inr hc)
  leases n r lease hr hlease := by
    rcases h.leases n r lease hr hlease with he | ⟨q, lease', hq, hlease', htoken, hdeadline⟩
    · exact .inl he
    · rcases h'.leases n q lease' hq hlease' with he | ⟨r', lease'', hr', hl, ht, hd⟩
      · exact .inl (hE n lease lease' htoken hdeadline he)
      · exact .inr ⟨r', lease'', hr', hl, ht.trans htoken, hdeadline.trans hd⟩
  granted token htoken := (h'.granted token htoken).elim .inl (h.granted token)

/-- Editing one registration: under its snapshot, or with the next revision. -/
theorem Proceeds.modify {f : Registration → Registration} {revision : Nat} (h : s.Sound)
    (hi : s.registrations[i]? = some r) (hrevision : s.revision ≤ revision)
    (hn : (f r).nodeId = r.nodeId)
    (halias : (f r).snapshot.nodeAlias = r.snapshot.nodeAlias ∨
      isCanonicalUuid (f r).snapshot.nodeAlias = false ∧
        ∀ q ∈ s.registrations.eraseIdx i, q.snapshot.nodeAlias ≠ (f r).snapshot.nodeAlias)
    (hleased : (f r).maintenance.isSome = true → (f r).admissionOpen = false)
    (hkept : (s.revision < (f r).snapshot.revision ∧ (f r).snapshot.revision = revision ∧
        ((f r).Pending → C r.nodeId)) ∨
      ((f r).snapshot = r.snapshot ∧ r.admissionEpoch ≤ (f r).admissionEpoch ∧
        ((f r).Pending → r.Pending ∨ C r.nodeId)))
    (hlease : ∀ lease, r.maintenance = some lease → E r.nodeId lease ∨
      ∃ lease', (f r).maintenance = some lease' ∧ lease'.token = lease.token ∧
        lease.deadline ≤ lease'.deadline)
    (hgrant : ∀ lease', (f r).maintenance = some lease' → G lease'.token ∨
      ∃ lease, r.maintenance = some lease ∧ lease.token = lease'.token) :
    Proceeds C E G s { modifyAt s i f with revision := revision } := by
  set after : RegistrationState := { modifyAt s i f with revision := revision } with hafter
  have hdistinct : after.Distinct := h.distinct.modify hi hn
  have hget : ∀ n, lookup after n = if r.nodeId = n then some (f r) else lookup s n :=
    fun n => h.distinct.get_modify hi hn
  have hmem : ∀ q ∈ after.registrations, q = f r ∨ q ∈ s.registrations :=
    fun q hq => ((h.distinct.mem_modify hi hn).mp hq).imp_right And.left
  have hr : r ∈ s.registrations := List.mem_of_getElem? hi
  refine ⟨⟨hdistinct, ?_, fun q hq => ?_, fun q hq => ?_, fun q hq => ?_⟩, hrevision,
    fun n r' hr' => ?_, fun n q lease hq hl => ?_, fun token hleasedAfter => ?_⟩
  -- The aliases differ still: the edit keeps its own, or brings a new one.
  · rcases halias with hsame | ⟨-, hnew⟩
    · exact h.aliases.modify hi hsame
    · exact h.aliases.modify_new hi hnew
  · rcases hmem q hq with rfl | hold
    · refine ⟨hn ▸ (h.canonical r hr).1, ?_⟩
      rcases halias with hsame | ⟨hcanonical, -⟩
      · exact hsame ▸ (h.canonical r hr).2
      · exact hcanonical
    · exact h.canonical q hold
  -- No snapshot is ahead of the revision.
  · rcases hmem q hq with rfl | hold
    · rcases hkept with ⟨-, hnext, -⟩ | ⟨hsame, -⟩
      · exact hnext.le
      · exact hsame ▸ (h.bounded r hr).trans hrevision
    · exact (h.bounded q hold).trans hrevision
  · rcases hmem q hq with rfl | hold
    · exact hleased
    · exact h.leased q hold
  -- What a reader of this registration finds, and of the others.
  · rw [hget] at hr'
    split at hr'
    next he =>
      subst he
      cases hr'
      rcases hkept with ⟨hnew, -, hpending⟩ | hsame
      · exact .inl ⟨hnew, hpending⟩
      · exact .inr ⟨r, h.distinct.lookup_of_getElem? hi, hsame⟩
    next => exact (Proceeds.refl (E := E) (G := G) h).kept n r' hr'
  -- A lease goes on, or it ends as `E` allows.
  · rw [hget]
    split
    next he =>
      subst he
      rw [h.distinct.lookup_of_getElem? hi] at hq
      cases hq
      exact (hlease lease hl).imp_right fun ⟨lease', hl'⟩ => ⟨f r, lease', rfl, hl'⟩
    next => exact (Proceeds.refl (C := C) (G := G) h).leases n q lease hq hl
  -- A lease that is there now was granted, or was there before.
  · obtain ⟨q, hq, lease', hl', rfl⟩ := hleasedAfter
    rcases hmem q hq with rfl | hold
    · exact (hgrant lease' hl').imp_right fun ⟨lease, hl, ht⟩ => ⟨r, hr, lease, hl, ht⟩
    · exact .inr ⟨q, hold, lease', hl', rfl⟩

/-- Editing one registration under its snapshot. -/
theorem Proceeds.edit {f : Registration → Registration} (h : s.Sound)
    (hi : s.registrations[i]? = some r) (hsnapshot : (f r).snapshot = r.snapshot)
    (hepoch : r.admissionEpoch ≤ (f r).admissionEpoch)
    (hleased : (f r).maintenance.isSome = true → (f r).admissionOpen = false)
    (hpending : (f r).Pending → r.Pending ∨ C r.nodeId)
    (hlease : ∀ lease, r.maintenance = some lease → E r.nodeId lease ∨
      ∃ lease', (f r).maintenance = some lease' ∧ lease'.token = lease.token ∧
        lease.deadline ≤ lease'.deadline)
    (hgrant : ∀ lease', (f r).maintenance = some lease' → G lease'.token ∨
      ∃ lease, r.maintenance = some lease ∧ lease.token = lease'.token) :
    Proceeds C E G s (modifyAt s i f) :=
  Proceeds.modify h hi le_rfl (congrArg NodeRegistrationSnapshot.nodeId hsnapshot)
    (.inl (congrArg NodeRegistrationSnapshot.nodeAlias hsnapshot)) hleased
    (.inr ⟨hsnapshot, hepoch, hpending⟩) hlease hgrant

/-- A registration gets a new snapshot, with the next revision. -/
theorem Proceeds.retitle (snapshot : NodeRegistrationSnapshot) (h : s.Sound)
    (hi : s.registrations[i]? = some r) (hn : snapshot.nodeId = r.nodeId)
    (hrevision : s.revision < snapshot.revision)
    (halias : snapshot.nodeAlias = r.snapshot.nodeAlias ∨
      isCanonicalUuid snapshot.nodeAlias = false ∧
        ∀ q ∈ s.registrations.eraseIdx i, q.snapshot.nodeAlias ≠ snapshot.nodeAlias)
    (hpending : r.Pending → C r.nodeId) :
    Proceeds C E G s
      { modifyAt s i ({ · with snapshot }) with revision := snapshot.revision } :=
  Proceeds.modify h hi hrevision.le hn halias (h.leased r (List.mem_of_getElem? hi))
    (.inl ⟨hrevision, rfl, hpending⟩) (fun lease hlease => .inr ⟨lease, hlease, rfl, le_rfl⟩)
    fun lease hlease => .inr ⟨lease, hlease, rfl⟩

/-- Removing a registration. -/
theorem Proceeds.erase (tombstoneEpoch : Nat) (h : s.Sound) (hi : s.registrations[i]? = some r)
    (hE : ∀ lease, r.maintenance = some lease → E r.nodeId lease) :
    Proceeds C E G s { s with tombstoneEpoch, registrations := s.registrations.eraseIdx i } := by
  have hget : ∀ n, Keyed.get Registration.nodeId (s.registrations.eraseIdx i) n =
      if r.nodeId = n then none else lookup s n := fun n => h.distinct.get_eraseIdx hi
  have hmem : ∀ q ∈ s.registrations.eraseIdx i, q ∈ s.registrations :=
    fun q hq => List.mem_of_mem_eraseIdx hq
  refine ⟨⟨h.distinct.eraseIdx, h.aliases.eraseIdx, fun q hq => h.canonical q (hmem q hq),
    fun q hq => h.bounded q (hmem q hq), fun q hq => h.leased q (hmem q hq)⟩, le_rfl,
    fun n r' hr' => ?_, fun n q lease hq hl => ?_,
    fun token ⟨q, hq, hl⟩ => .inr ⟨q, hmem q hq, hl⟩⟩
  · change Keyed.get _ _ n = _ at hr'
    rw [hget] at hr'
    split at hr'
    next => cases hr'
    next => exact (Proceeds.refl (E := E) (G := G) h).kept n r' hr'
  · change _ ∨ ∃ r' lease', Keyed.get _ _ n = _ ∧ _
    rw [hget]
    split
    next he =>
      subst he
      rw [h.distinct.lookup_of_getElem? hi] at hq
      cases hq
      exact .inl (hE lease hl)
    next => exact (Proceeds.refl (C := C) (G := G) h).leases n q lease hq hl

/-- Appending a new registration. -/
theorem Proceeds.append {revision : Nat} (h : s.Sound) (hrevision : s.revision < revision)
    (hsnapshot : r.snapshot.revision = revision) (hid : isCanonicalUuid r.nodeId = true)
    (halias : isCanonicalUuid r.snapshot.nodeAlias = false) (hopen : r.admissionOpen = true)
    (hlease : r.maintenance = none) (hnewId : ∀ q ∈ s.registrations, q.nodeId ≠ r.nodeId)
    (hnewAlias : ∀ q ∈ s.registrations, q.snapshot.nodeAlias ≠ r.snapshot.nodeAlias) :
    Proceeds C E G s { s with revision, registrations := s.registrations ++ [r] } := by
  have hget : ∀ n, Keyed.get Registration.nodeId (s.registrations ++ [r]) n =
      if r.nodeId = n then some r else lookup s n :=
    fun n => Keyed.get_append_singleton (Keyed.get_eq_none.mpr hnewId)
  refine ⟨h.append s.tombstoneEpoch hrevision.le hsnapshot.le hid halias ?_ hnewId hnewAlias,
    hrevision.le, fun n r' hr' => ?_, fun n q lease hq hl => ?_, fun token hleased => ?_⟩
  · rw [hlease]
    nofun
  · change Keyed.get _ _ n = _ at hr'
    rw [hget] at hr'
    split at hr'
    next =>
      cases hr'
      refine .inl ⟨hsnapshot ▸ hrevision, fun hp => ?_⟩
      rw [hp.1] at hopen
      cases hopen
    next => exact (Proceeds.refl (E := E) (G := G) h).kept n r' hr'
  · change _ ∨ ∃ r' lease', Keyed.get _ _ n = _ ∧ _
    rw [hget]
    split
    next he =>
      exact absurd he.symm (Keyed.key_of_get hq ▸ (hnewId q (Keyed.mem_of_get hq)).symm).symm
    next => exact (Proceeds.refl (C := C) (G := G) h).leases n q lease hq hl
  · obtain ⟨q, hq, lease, hl, ht⟩ := hleased
    rcases List.mem_append.mp hq with hold | hlast
    · exact .inr ⟨q, hold, lease, hl, ht⟩
    · rw [List.mem_singleton.mp hlast, hlease] at hl
      cases hl

/-- Leases run out. -/
theorem expireMaintenance_proceeds (now : Nat) (h : s.Sound) :
    Proceeds C (fun _ lease => lease.deadline ≤ now) G s (expireMaintenance now s) := by
  have hmem : ∀ q ∈ (expireMaintenance now s).registrations,
      ∃ r ∈ s.registrations, q = r.expire now := by
    intro q hq
    obtain ⟨r, hr, rfl⟩ := List.mem_map.mp hq
    exact ⟨r, hr, rfl⟩
  refine ⟨⟨h.distinct.map fun r => r.expire_nodeId now,
    h.aliases.map fun r => by rw [r.expire_snapshot], fun q hq => ?_, fun q hq => ?_,
    fun q hq => ?_⟩, le_rfl, fun n r' hr' => ?_, fun n q lease hq hl => ?_,
    fun token ⟨q, hq, lease, hl, ht⟩ => ?_⟩
  · obtain ⟨r, hr, rfl⟩ := hmem q hq
    rw [r.expire_nodeId, r.expire_snapshot]
    exact h.canonical r hr
  · obtain ⟨r, hr, rfl⟩ := hmem q hq
    rw [r.expire_snapshot]
    exact h.bounded r hr
  · obtain ⟨r, hr, rfl⟩ := hmem q hq
    unfold Registration.expire
    split
    next => nofun
    next => exact h.leased r hr
  · rw [lookup_expireMaintenance] at hr'
    obtain ⟨r, hr, rfl⟩ := Option.map_eq_some_iff.mp hr'
    refine .inr ⟨r, hr, r.expire_snapshot now, ?_, fun hp => .inl ?_⟩
    · unfold Registration.expire
      split <;> exact le_rfl
    · unfold Registration.expire at hp
      split at hp
      next => cases hp.1
      next => exact hp
  · rw [lookup_expireMaintenance, hq]
    by_cases hexpired : q.expired now = true
    · left
      simpa [Registration.expired, hl] using hexpired
    · right
      refine ⟨q, lease, ?_, hl, rfl, le_rfl⟩
      rw [Option.map_some, Registration.expire, if_neg hexpired]
  · obtain ⟨r, hr, rfl⟩ := hmem q hq
    refine .inr ⟨r, hr, lease, ?_, ht⟩
    unfold Registration.expire at hl
    split at hl
    next => cases hl
    next => exact hl

end Relation

/-! ## The calls -/

/-- A lease that has run out. -/
def Lapsed (now : Nat) (_ : String) (lease : MaintenanceLease) : Prop := lease.deadline ≤ now

/-- A call that expires leases first. -/
theorem Proceeds.afterExpiry {C : String → Prop} {E : String → MaintenanceLease → Prop}
    {G : Nat → Prop} (h : s.Sound)
    (hcall : (expireMaintenance now s).Sound → Proceeds C E G (expireMaintenance now s) s') :
    Proceeds C (fun n lease => Lapsed now n lease ∨ E n lease) G s s' := by
  have hexpire : Proceeds (fun _ => False) (fun _ _ => True) G s (expireMaintenance now s) :=
    (expireMaintenance_proceeds now h).mono (fun _ => id) fun _ _ _ _ _ _ => trivial
  have hnext := hcall hexpire.sound
  have hboth := hexpire.trans hnext fun _ _ _ _ _ _ => trivial
  refine ⟨hboth.sound, hboth.revision_le, (hboth.mono (fun _ hc => hc.resolve_left id)
    fun _ _ _ _ _ => id).kept, fun n r lease hr hlease => ?_, hboth.granted⟩
  by_cases hexpired : r.expired now = true
  · have hlapsed : lease.deadline ≤ now := by simpa [Registration.expired, hlease] using hexpired
    exact .inl (.inl hlapsed)
  · have hsame : lookup (expireMaintenance now s) n = some r := by
      rw [lookup_expireMaintenance, hr, Option.map_some, Registration.expire, if_neg hexpired]
    exact (hnext.leases n r lease hsame hlease).imp_left .inr

/-- A call that only expires leases, or edits what no lease depends on. -/
theorem Proceeds.afterExpiry' {C : String → Prop} {G : Nat → Prop} (h : s.Sound)
    (hcall : (expireMaintenance now s).Sound →
      Proceeds C (fun _ _ => False) G (expireMaintenance now s) s') :
    Proceeds C (Lapsed now) G s s' :=
  (Proceeds.afterExpiry h hcall).mono (fun _ => id) fun _ _ _ _ _ he => he.resolve_right id

section Calls

variable {C : String → Prop} {G : Nat → Prop}

theorem observe_proceeds (h : s.Sound) (expected : NodeRegistrationSnapshot) :
    Proceeds C (Lapsed now) G s (observe now s expected).2 := by
  refine .afterExpiry' h fun he => ?_
  unfold observe
  dsimp only
  split
  · exact .refl he
  · split <;> exact .refl he

theorem withCurrent_proceeds (h : s.Sound) (expected : NodeRegistrationSnapshot) :
    Proceeds C (Lapsed now) G s (withCurrent now s expected).2 := by
  refine .afterExpiry' h fun he => ?_
  unfold withCurrent
  dsimp only
  split <;> exact .refl he

theorem withObservation_proceeds (h : s.Sound) (expected : NodeRegistrationSnapshot)
    (epoch : Nat) : Proceeds C (Lapsed now) G s (withObservation now s expected epoch).2 := by
  refine .afterExpiry' h fun he => ?_
  unfold withObservation
  dsimp only
  split <;> exact .refl he

/-- The counter of admitted operations is all that changes. -/
theorem Proceeds.count {E : String → MaintenanceLease → Prop} {f : Nat → Nat} (h : s.Sound)
    (hi : s.registrations[i]? = some r) :
    Proceeds C E G s (modifyAt s i fun r => { r with admitted := f r.admitted }) :=
  .edit h hi rfl le_rfl (h.leased r (List.mem_of_getElem? hi)) .inl
    (fun lease hlease => .inr ⟨lease, hlease, rfl, le_rfl⟩)
    fun lease hlease => .inr ⟨lease, hlease, rfl⟩

theorem admitOperation_proceeds (now : Nat) (h : s.Sound) (expected : NodeRegistrationSnapshot) :
    Proceeds C (Lapsed now) G s (admitOperation now s expected).2 := by
  refine .afterExpiry' h fun he => ?_
  unfold admitOperation
  dsimp only
  split
  · exact .refl he
  next i r hpos =>
    split
    · exact .refl he
    split
    · exact .refl he
    next admitted _ => exact .count (f := fun _ => admitted) he (position_eq_some hpos).1

theorem release_proceeds {E : String → MaintenanceLease → Prop} (h : s.Sound)
    (expected : NodeRegistrationSnapshot) : Proceeds C E G s (release s expected) := by
  unfold release
  split
  · exact .refl h
  next i r hpos =>
    split
    · exact .count (f := (· - 1)) h (position_eq_some hpos).1
    · exact .refl h

theorem next_eq_ok {value result : Nat} {label : String} (h : next value label = .ok result) :
    result = value + 1 := by
  unfold next at h
  split at h
  next hadd =>
    cases h
    exact (checkedAdd_eq_some.mp hadd).2
  next => cases h

theorem add_proceeds {E : String → MaintenanceLease → Prop} (h : s.Sound)
    (nodeAlias target nodeId localNodeId : String) (saved : Bool) :
    Proceeds C E G s (add s nodeAlias target nodeId localNodeId saved).2 := by
  unfold add
  split
  · exact .refl h
  · exact .refl h
  · exact .refl h
  next halias _ hid =>
    split
    · exact .refl h
    split
    · split <;> exact .refl h
    next hnew =>
      split
      · exact .refl h
      split
      · exact .refl h
      next revision hrevision =>
        split
        · have hdiffer : ∀ q ∈ s.registrations, q.snapshot.nodeAlias ≠ nodeAlias ∧
              q.nodeId ≠ nodeId := by
            intro q hq
            have hnot := List.find?_eq_none.mp hnew q hq
            simp only [Bool.or_eq_true, beq_iff_eq, not_or] at hnot
            exact ⟨hnot.1.1, hnot.2⟩
          have hnext := next_eq_ok hrevision
          exact .append h (by omega) rfl (validateNodeId_eq_ok hid) (validateAlias_eq_ok halias)
            rfl rfl (fun q hq => (hdiffer q hq).2) fun q hq => (hdiffer q hq).1
        · exact .refl h

theorem rename_proceeds (h : s.Sound) (selector nodeAlias : String) (expectedRevision : Nat)
    (saved : Bool) :
    Proceeds C (Lapsed now) G s (rename now s selector nodeAlias expectedRevision saved).2 := by
  unfold rename
  split
  · exact (Proceeds.refl h)
  next halias =>
    refine .afterExpiry' h fun he => ?_
    dsimp only
    split
    · exact .refl he
    next i r hloc =>
      split
      · exact .refl he
      split
      · exact .refl he
      next hopen =>
        split
        · exact .refl he
        split
        · exact .refl he
        next hnew =>
          split
          · exact .refl he
          next revision hrevision =>
            split
            · have hnext := next_eq_ok hrevision
              refine .retitle { r.snapshot with nodeAlias, revision } he (locate_eq_some hloc).1
                rfl ?_ (.inr ⟨validateAlias_eq_ok halias, fun q hq => ?_⟩)
                fun hp => absurd hp.1 hopen
              · show (expireMaintenance now s).revision < revision
                omega
              simp only [List.any_eq_true, beq_iff_eq, not_exists, not_and] at hnew
              exact hnew q hq
            · exact .refl he

/-! ## Leases -/

theorem beginMaintenance_proceeds (h : s.Sound) (selector : String)
    (expectedRevision lease token : Nat) (idle : Bool) :
    Proceeds C (Lapsed now) (fun granted => idle = true ∧ granted = token) s
      (beginMaintenance now s selector expectedRevision lease token idle).2 := by
  refine .afterExpiry' h fun he => ?_
  unfold beginMaintenance
  dsimp only
  split
  · exact .refl he
  next hidle =>
    split
    · exact .refl he
    next i r hloc =>
      have hi := (locate_eq_some hloc).1
      split
      · exact .refl he
      split
      · exact .refl he
      next hopen =>
        split
        · exact .refl he
        next epoch hepoch =>
          have hnext := next_eq_ok hepoch
          refine .edit he hi rfl (by show r.admissionEpoch ≤ epoch; omega) (fun _ => rfl)
            (fun hp => by cases hp.2) (fun lease hlease => ?_) fun lease hlease => ?_
          · have hclosed := he.leased r (List.mem_of_getElem? hi) (by rw [hlease]; rfl)
            exact absurd hclosed hopen
          · cases hlease
            exact .inl ⟨by simpa using hidle, rfl⟩

theorem finishUpgradeMaintenance_proceeds (h : s.Sound) (nodeId : String) (token : Nat) :
    Proceeds C (fun n lease => Lapsed now n lease ∨ (n = nodeId ∧ lease.token = token)) G s
      (finishUpgradeMaintenance now s nodeId token).2 := by
  refine .afterExpiry h fun he => ?_
  unfold finishUpgradeMaintenance
  dsimp only
  split
  · exact .refl he
  next i r hpos =>
    obtain ⟨hi, hn⟩ := position_eq_some hpos
    split
    · exact .refl he
    next hholds =>
      refine .edit he hi rfl le_rfl nofun (fun hp => by cases hp.1)
        (fun lease hlease => .inl ⟨hn, ?_⟩) nofun
      simpa [Registration.holds, hlease] using hholds

theorem finishUninstallMaintenance_proceeds (h : s.Sound) (nodeId : String) (token : Nat)
    (saved : Bool) :
    Proceeds C (fun n lease => Lapsed now n lease ∨
      (n = nodeId ∧ lookup (finishUninstallMaintenance now s nodeId token saved).2 n = none)) G s
      (finishUninstallMaintenance now s nodeId token saved).2 := by
  refine .afterExpiry h fun he => ?_
  unfold finishUninstallMaintenance
  dsimp only
  split
  · exact .refl he
  next i r hpos =>
    obtain ⟨hi, hn⟩ := position_eq_some hpos
    split
    · exact .refl he
    split
    · exact .refl he
    split
    · exact .refl he
    split
    · refine .erase _ he hi fun lease hlease => ⟨hn, ?_⟩
      exact (he.distinct.get_eraseIdx hi).trans (if_pos rfl)
    · exact .refl he

theorem renewUpgradeMaintenance_proceeds (h : s.Sound) (nodeId : String) (token duration : Nat) :
    Proceeds C (fun n lease => Lapsed now n lease ∨
      (n = nodeId ∧ lease.token = token ∧ now + duration < lease.deadline)) G s
      (renewUpgradeMaintenance now s nodeId token duration).2 := by
  refine .afterExpiry h fun he => ?_
  unfold renewUpgradeMaintenance
  dsimp only
  split
  · exact .refl he
  next i r hpos =>
    obtain ⟨hi, hn⟩ := position_eq_some hpos
    split
    · exact .refl he
    next hholds =>
      obtain ⟨current, hcurrent, htoken⟩ : ∃ lease, r.maintenance = some lease ∧
          lease.token = token := by
        cases hm : r.maintenance with
        | none => simp [Registration.holds, hm] at hholds
        | some lease => exact ⟨lease, rfl, by simpa [Registration.holds, hm] using hholds⟩
      refine .edit he hi rfl le_rfl
        (fun _ => he.leased r (List.mem_of_getElem? hi) (by rw [hcurrent]; rfl))
        (fun hp => by cases hp.2) (fun lease hlease => ?_) fun lease hlease => ?_
      · obtain rfl : current = lease := Option.some.inj (hcurrent.symm.trans hlease)
        rcases Nat.lt_or_ge (now + duration) current.deadline with hlt | hle
        · exact .inl ⟨hn, htoken, hlt⟩
        · exact .inr ⟨⟨token, now + duration⟩, rfl, htoken.symm, hle⟩
      · cases hlease
        exact .inr ⟨current, hcurrent, htoken⟩

/-! ## Draining calls -/

/-- The Node whose admission a call has just closed. -/
def Begun (begun : Call Nat) (n : String) : Prop :=
  ∃ i r, begun.1 = .ok i ∧ begun.2.registrations[i]? = some r ∧ r.nodeId = n

theorem beginDrain_proceeds (h : s.Sound) (kind : DrainKind) (selector : String)
    (expectedRevision : Nat) :
    Proceeds (Begun (beginDrain now s kind selector expectedRevision)) (Lapsed now) G s
      (beginDrain now s kind selector expectedRevision).2 := by
  refine .afterExpiry' h fun he => ?_
  unfold beginDrain
  dsimp only
  split
  · exact .refl he
  next i r hloc =>
    have hi := (locate_eq_some hloc).1
    split
    · exact .refl he
    split
    · exact .refl he
    split
    · exact .refl he
    next epoch hepoch =>
      have hnext := next_eq_ok hepoch
      refine .edit he hi rfl (by show r.admissionEpoch ≤ epoch; omega) (fun _ => rfl)
        (fun _ => .inr ⟨i, { r with admissionEpoch := epoch, admissionOpen := false }, rfl,
          ?_, rfl⟩)
        (fun lease hlease => .inr ⟨lease, hlease, rfl, le_rfl⟩)
        fun lease hlease => .inr ⟨lease, hlease, rfl⟩
      rw [modifyAt, List.getElem?_modify_eq, hi]
      rfl

theorem DrainKind.reopen_not_pending {kind : DrainKind} : ¬ (kind.reopen r).Pending := by
  rintro ⟨hopen, hlease⟩
  unfold DrainKind.reopen at hopen hlease
  split at hopen
  next => cases hopen
  next hm =>
    rw [if_neg hm] at hlease
    dsimp only at hopen hlease
    rw [hlease] at hopen
    cases hopen

theorem DrainKind.reopen_proceeds {E : String → MaintenanceLease → Prop} {kind : DrainKind}
    (h : s.Sound) (hi : s.registrations[i]? = some r)
    (hE : kind.isMaintenance = true → ∀ lease, r.maintenance = some lease → E r.nodeId lease) :
    Proceeds C E G s (modifyAt s i kind.reopen) := by
  by_cases hm : kind.isMaintenance = true
  · refine .edit h hi ?_ ?_ ?_ (fun hp => absurd hp reopen_not_pending)
      (fun lease hlease => .inl (hE hm lease hlease)) ?_
    all_goals simp [reopen, hm]
  · refine .edit h hi ?_ ?_ ?_ (fun hp => absurd hp reopen_not_pending)
      (fun lease hlease => .inr ⟨lease, ?_, rfl, le_rfl⟩)
      fun lease hlease => .inr ⟨lease, ?_, rfl⟩
    · simp [reopen, hm]
    · simp [reopen, hm]
    · simp only [reopen, if_neg hm]
      intro hsome
      simpa using hsome
    · simpa [reopen, hm] using hlease
    · simpa [reopen, hm] using hlease

/-- Nothing is left closed without a lease where the relation allowed it. -/
theorem Proceeds.settle {E : String → MaintenanceLease → Prop} (h : Proceeds C E G s s')
    (hsettled : ∀ n, C n → ∀ r', lookup s' n = some r' → ¬ r'.Pending) :
    Proceeds (fun _ => False) E G s s' where
  sound := h.sound
  revision_le := h.revision_le
  kept n r' hr' := by
    rcases h.kept n r' hr' with ⟨hnew, hpending⟩ | ⟨r, hr, hsnapshot, hepoch, hpending⟩
    · exact .inl ⟨hnew, fun hp => hsettled n (hpending hp) r' hr' hp⟩
    · refine .inr ⟨r, hr, hsnapshot, hepoch, fun hp => .inl ?_⟩
      exact (hpending hp).resolve_right fun hc => hsettled n hc r' hr' hp
  leases := h.leases
  granted := h.granted

theorem DrainKind.mutate_proceeds {kind : DrainKind} {result : NodeRegistrationSnapshot}
    (h : s.Sound) (hi : s.registrations[i]? = some r)
    (hok : kind.mutate s i r = .ok (result, t)) :
    result.nodeId = r.nodeId ∧ (kind = .forget → lookup t r.nodeId = none) ∧
      Proceeds (· = r.nodeId) (fun n _ => kind = .forget ∧ n = r.nodeId) G s t := by
  unfold DrainKind.mutate at hok
  split at hok
  · split at hok
    · cases hok
    split at hok
    · cases hok
      exact ⟨rfl, nofun, .refl h⟩
    split at hok
    · cases hok
    split at hok
    · cases hok
    next revision hrevision =>
      have hnext := next_eq_ok hrevision
      cases hok
      refine ⟨rfl, nofun, .retitle { r.snapshot with target := _, revision := revision } h hi rfl
        ?_ (.inl rfl) fun _ => rfl⟩
      show s.revision < revision
      omega
  · split at hok
    · cases hok
    · cases hok
      refine ⟨rfl, fun _ => ?_, .erase _ h hi fun _ _ => ⟨rfl, rfl⟩⟩
      exact (h.distinct.get_eraseIdx hi).trans (if_pos rfl)
  · cases hok
    exact ⟨rfl, nofun, .refl h⟩

/-- A forget that ends a lease removes its registration. -/
def Forgotten (kind : DrainKind) (s' : RegistrationState) (n : String) (_ : MaintenanceLease) :
    Prop :=
  kind = .forget ∧ lookup s' n = none

/-- A call that is not a maintenance call leaves the registration that it found open, or gone,
or under a lease. -/
theorem DrainCall.commit_proceeds (call : DrainCall) (saved : Bool) (h : s.Sound)
    (hi : s.registrations[i]? = some r) :
    Proceeds C (Forgotten call.kind (call.commit s i r saved).2) G s
        (call.commit s i r saved).2 ∧
      (call.kind.isMaintenance = false → ∀ r', lookup (call.commit s i r saved).2 r.nodeId =
        some r' → ¬ r'.Pending) := by
  unfold DrainCall.commit
  split
  next hm => exact ⟨.refl h, fun hnot => by rw [hm] at hnot; cases hnot⟩
  next hm =>
    have hreopen : ∀ {s : RegistrationState} {i : Nat} {r : Registration}
        {C : String → Prop} {E : String → MaintenanceLease → Prop}, s.Sound →
        s.registrations[i]? = some r → Proceeds C E G s (modifyAt s i call.kind.reopen) ∧
          ∀ r', lookup (modifyAt s i call.kind.reopen) r.nodeId = some r' → ¬ r'.Pending := by
      intro s i r C E h hi
      refine ⟨DrainKind.reopen_proceeds h hi fun hyes => absurd hyes hm, fun r' hr' => ?_⟩
      rw [lookup, modifyAt, h.distinct.get_modify hi (call.kind.reopen_nodeId r),
        if_pos rfl] at hr'
      cases hr'
      exact DrainKind.reopen_not_pending
    split
    · exact ⟨(hreopen h hi).1, fun _ => (hreopen (C := C) (E := fun _ _ => True) h hi).2⟩
    next result t hmutate =>
      obtain ⟨hid, hgone, hproceeds⟩ := DrainKind.mutate_proceeds (G := G) h hi hmutate
      split
      · split
        next hpos =>
          have hnone := position_eq_none hpos
          rw [hid] at hnone
          refine ⟨?_, fun _ r' hr' => by rw [hnone] at hr'; cases hr'⟩
          have hsettled := hproceeds.settle fun n hn r' hr' => by
            rw [hn, hnone] at hr'
            cases hr'
          exact hsettled.mono (fun _ hf => hf.elim) fun n _ _ _ _ he => ⟨he.1, he.2 ▸ hnone⟩
        next found q hpos =>
          obtain ⟨hfound, hq⟩ := position_eq_some hpos
          rw [hid] at hq
          have hnotForget : call.kind ≠ .forget := by
            intro hforget
            have hsome := hproceeds.sound.distinct.lookup_of_getElem? hfound
            rw [hq, hgone hforget] at hsome
            cases hsome
          obtain ⟨hopened, hsettled⟩ := hreopen (C := fun _ => False)
            (E := fun _ _ => False) hproceeds.sound hfound
          rw [hq] at hsettled
          refine ⟨?_, fun _ => hsettled⟩
          have hboth := (hproceeds.mono (fun _ => id) fun _ _ _ _ _ he => hnotForget he.1).trans
            hopened fun _ _ _ _ _ hf => hf
          refine (hboth.settle fun n hn r' hr' => ?_).mono (fun _ hf => hf.elim)
            fun _ _ _ _ _ hf => hf.elim
          rcases hn with rfl | hf
          · exact hsettled r' hr'
          · exact hf.elim
      · exact ⟨(hreopen h hi).1, fun _ => (hreopen (C := C) (E := fun _ _ => True) h hi).2⟩

/-- A maintenance call gives up its drain, on the registration that its selector names now. -/
def DrainCall.GivesUp (call : DrainCall) (now : Nat) (timedOut : Bool) (s : RegistrationState)
    (n : String) : Prop :=
  call.kind.isMaintenance = true ∧ ∃ i r, findIndex s call.selector = some (i, r) ∧ r.nodeId = n ∧
    (timedOut = true ∨ (r.snapshot.revision = call.expectedRevision ∧ r.admitted ≠ 0 ∧
      call.deadline < now))

/-- The call finds this registration, under the revision that it expects. -/
def DrainCall.Finds (call : DrainCall) (r : Registration) : Prop :=
  r.named call.selector = true ∧ r.snapshot.revision = call.expectedRevision

theorem requireRevision_eq_ok {expected : Nat} {u : Unit}
    (h : requireRevision r expected = .ok u) : r.snapshot.revision = expected := by
  unfold requireRevision at h
  split at h
  next heq => exact heq
  next => cases h

theorem DrainCall.poll_proceeds (call : DrainCall) (now : Nat) (saved : Bool) (h : s.Sound) :
    Proceeds C (fun n lease => Forgotten call.kind (call.poll now s saved).2 n lease ∨
      call.GivesUp now false s n) G s (call.poll now s saved).2 := by
  unfold DrainCall.poll
  split
  · exact .refl h
  next i r hloc =>
    have hi := (locate_eq_some hloc).1
    split
    · exact .refl h
    next hrevision =>
      split
      · exact (call.commit_proceeds saved h hi).1.mono (fun _ => id) fun _ _ _ _ _ => .inl
      next hadmitted =>
        split
        next hlate =>
          exact DrainKind.reopen_proceeds h hi fun hm _ _ =>
            .inr ⟨hm, i, r, hloc, rfl, .inr ⟨requireRevision_eq_ok hrevision, hadmitted, hlate⟩⟩
        · exact .refl h

/-- A call that returns does not leave what it finds closed without a lease. -/
theorem DrainCall.poll_settles (call : DrainCall) {saved : Bool} (h : s.Sound)
    (hm : call.kind.isMaintenance = false) (hr : lookup s n = some r) (hfinds : call.Finds r)
    (hreturns : (call.poll now s saved).1.isSome = true) :
    ∀ r', lookup (call.poll now s saved).2 n = some r' → ¬ r'.Pending := by
  obtain ⟨i, hloc⟩ := h.findIndex_eq hr hfinds.1
  have hi := (locate_eq_some hloc).1
  have hn : r.nodeId = n := Keyed.key_of_get hr
  have hrevision : requireRevision r call.expectedRevision = .ok () := if_pos hfinds.2
  unfold DrainCall.poll at hreturns ⊢
  rw [hloc] at hreturns ⊢
  dsimp only at hreturns ⊢
  rw [hrevision] at hreturns ⊢
  dsimp only at hreturns ⊢
  split
  · exact hn ▸ (call.commit_proceeds (C := fun _ => False) (G := fun _ => False) saved h hi).2 hm
  next hadmitted =>
    rw [if_neg hadmitted] at hreturns
    split
    · intro r' hr'
      rw [lookup, modifyAt, h.distinct.get_modify hi (call.kind.reopen_nodeId r), if_pos hn] at hr'
      cases hr'
      exact DrainKind.reopen_not_pending
    next hlate =>
      rw [if_neg hlate] at hreturns
      cases hreturns

theorem DrainCall.wakeTimedOut_proceeds (call : DrainCall) (now : Nat) (h : s.Sound) :
    Proceeds C (fun n _ => call.GivesUp now true s n) G s (call.wakeTimedOut s).2 := by
  unfold DrainCall.wakeTimedOut
  split
  · exact .refl h
  next i r hloc =>
    exact DrainKind.reopen_proceeds h (locate_eq_some hloc).1 fun hm _ _ =>
      ⟨hm, i, r, hloc, rfl, .inl rfl⟩

theorem DrainCall.wakeTimedOut_settles (call : DrainCall) (h : s.Sound)
    (hr : lookup s n = some r) (hfinds : call.Finds r) :
    ∀ r', lookup (call.wakeTimedOut s).2 n = some r' → ¬ r'.Pending := by
  obtain ⟨i, hloc⟩ := h.findIndex_eq hr hfinds.1
  have hi := (locate_eq_some hloc).1
  intro r' hr'
  unfold DrainCall.wakeTimedOut at hr'
  rw [hloc] at hr'
  dsimp only at hr'
  rw [lookup, modifyAt, h.distinct.get_modify hi (call.kind.reopen_nodeId r),
    if_pos (Keyed.key_of_get hr : r.nodeId = n)] at hr'
  cases hr'
  exact DrainKind.reopen_not_pending

end Calls

end Boomux.Nodes
