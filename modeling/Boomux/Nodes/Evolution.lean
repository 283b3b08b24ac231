import Boomux.Nodes.Machine

/-!
# What a call does to the registrations

`Evolves O s s'` says, Node by Node, what one critical section may do: a registration that
disappears had nothing admitted; one that stays keeps its counter, and only the Nodes in `O` have
their admission opened or their lease removed. Every call except `admitOperation`, `release` and
`add` evolves the state (`World.step_evolves`), so the invariants of the later files need one case
for all of them.
-/

set_option autoImplicit false

namespace Boomux.Nodes

open Rust

variable {s s' t : RegistrationState} {O O' : String → Prop} {n : String}
  {r : Registration} {i now : Nat}

abbrev RegistrationState.Distinct (s : RegistrationState) : Prop :=
  Keyed.Distinct Registration.nodeId s.registrations

/-! ## Locating -/

theorem locate_eq_some {p : Registration → Bool} (h : locate p s = some (i, r)) :
    s.registrations[i]? = some r ∧ p r = true := by
  obtain ⟨j, hj, hr⟩ := Option.bind_eq_some_iff.mp h
  obtain ⟨r', hr', he⟩ := Option.map_eq_some_iff.mp hr
  obtain ⟨rfl, rfl⟩ := Prod.mk.inj he
  obtain ⟨hlt, hp, -⟩ := List.findIdx?_eq_some_iff_getElem.mp hj
  rw [List.getElem?_eq_getElem hlt, Option.some.injEq] at hr'
  subst hr'
  exact ⟨List.getElem?_eq_getElem hlt, hp⟩

theorem locate_eq_none {p : Registration → Bool} (h : locate p s = none) :
    ∀ r ∈ s.registrations, p r = false := by
  intro r hr
  cases hj : s.registrations.findIdx? p with
  | none => exact List.findIdx?_eq_none_iff.mp hj r hr
  | some j =>
      obtain ⟨hlt, -⟩ := List.findIdx?_eq_some_iff_getElem.mp hj
      simp [locate, hj, List.getElem?_eq_getElem hlt] at h

theorem position_eq_some (h : position s n = some (i, r)) :
    s.registrations[i]? = some r ∧ r.nodeId = n := by
  obtain ⟨hi, hp⟩ := locate_eq_some h
  exact ⟨hi, by simpa using hp⟩

theorem position_eq_none (h : position s n = none) : lookup s n = none :=
  Keyed.get_eq_none.mpr fun r hr => by simpa using locate_eq_none h r hr

theorem RegistrationState.Distinct.lookup_of_getElem? (hd : s.Distinct)
    (hi : s.registrations[i]? = some r) : lookup s r.nodeId = some r :=
  Keyed.Distinct.get_of_getElem? hd hi

theorem RegistrationState.Distinct.position_eq (hd : s.Distinct) (h : lookup s n = some r) :
    ∃ i, position s n = some (i, r) := by
  cases hp : position s n with
  | none => rw [position_eq_none hp] at h; cases h
  | some p =>
      obtain ⟨hi, hn⟩ := position_eq_some (i := p.1) (r := p.2) hp
      have := hd.lookup_of_getElem? hi
      rw [hn, h, Option.some.injEq] at this
      exact ⟨p.1, by rw [this]⟩

/-! ## The relation -/

/-- What happens to one registration that stays. `opened` says that its Node is in `O`. -/
structure Kept (opened : Prop) (r r' : Registration) : Prop where
  admitted : r'.admitted = r.admitted
  closed : r.admissionOpen = false → r'.admissionOpen = true → opened

structure Evolves (O : String → Prop) (s s' : RegistrationState) : Prop where
  distinct : s.Distinct → s'.Distinct
  removed : s.Distinct → ∀ n r, lookup s n = some r → lookup s' n = none → r.admitted = 0
  kept : s.Distinct → ∀ n r', lookup s' n = some r' →
    ∃ r, lookup s n = some r ∧ Kept (O n) r r'

theorem Evolves.refl : Evolves O s s := by
  refine ⟨id, fun _ n r h h' => ?_, fun _ n r' h => ⟨r', h, rfl, fun h1 h2 => ?_⟩⟩
  · rw [h] at h'; cases h'
  · rw [h1] at h2; cases h2

theorem Evolves.mono (h : Evolves O s s') (hO : ∀ n, O n → O' n) : Evolves O' s s' :=
  ⟨h.distinct, h.removed, fun hd n r' hr' => by
    obtain ⟨r, hr, hk⟩ := h.kept hd n r' hr'
    exact ⟨r, hr, hk.admitted, fun h1 h2 => hO n (hk.closed h1 h2)⟩⟩

theorem Evolves.trans (h : Evolves O s t) (h' : Evolves O' t s') :
    Evolves (fun n => O n ∨ O' n) s s' := by
  refine ⟨fun hd => h'.distinct (h.distinct hd), fun hd n r hr hnone => ?_, fun hd n r' hr' => ?_⟩
  · cases ht : lookup t n with
    | none => exact h.removed hd n r hr ht
    | some rt =>
        obtain ⟨r0, hr0, hk⟩ := h.kept hd n rt ht
        rw [hr, Option.some.injEq] at hr0
        subst hr0
        rw [← hk.admitted]
        exact h'.removed (h.distinct hd) n rt ht hnone
  · obtain ⟨rt, ht, hk'⟩ := h'.kept (h.distinct hd) n r' hr'
    obtain ⟨r, hr, hk⟩ := h.kept hd n rt ht
    refine ⟨r, hr, hk'.admitted.trans hk.admitted, fun h1 h2 => ?_⟩
    by_cases h3 : rt.admissionOpen = true
    · exact .inl (hk.closed h1 h3)
    · exact .inr (hk'.closed (by simpa using h3) h2)

/-- Editing one registration in place. -/
theorem Evolves.modify {f : Registration → Registration} {revision tombstoneEpoch : Nat}
    (hi : s.registrations[i]? = some r) (hn : (f r).nodeId = r.nodeId)
    (hk : Kept (O r.nodeId) r (f r)) :
    Evolves O s ⟨revision, tombstoneEpoch, s.registrations.modify i f⟩ := by
  have hget : s.Distinct → ∀ n, lookup ⟨revision, tombstoneEpoch, s.registrations.modify i f⟩ n
      = if r.nodeId = n then some (f r) else lookup s n := fun hd n => hd.get_modify hi hn
  refine ⟨fun hd => hd.modify hi hn, fun hd n r0 hr0 hnone => ?_, fun hd n r' hr' => ?_⟩
  · rw [hget hd] at hnone
    split at hnone
    · cases hnone
    · rw [hr0] at hnone; cases hnone
  · rw [hget hd] at hr'
    split at hr'
    next he =>
      subst he
      cases hr'
      exact ⟨r, hd.lookup_of_getElem? hi, hk⟩
    next => exact Evolves.refl.kept hd n r' hr'

/-- Removing one registration with nothing admitted. -/
theorem Evolves.erase {revision tombstoneEpoch : Nat} (hi : s.registrations[i]? = some r)
    (h0 : r.admitted = 0) :
    Evolves O s ⟨revision, tombstoneEpoch, s.registrations.eraseIdx i⟩ := by
  have hget : s.Distinct → ∀ n, lookup ⟨revision, tombstoneEpoch, s.registrations.eraseIdx i⟩ n
      = if r.nodeId = n then none else lookup s n := fun hd n => hd.get_eraseIdx hi
  refine ⟨fun hd => hd.eraseIdx, fun hd n r0 hr0 hnone => ?_, fun hd n r' hr' => ?_⟩
  · rw [hget hd] at hnone
    split at hnone
    next he =>
      rw [← he, hd.lookup_of_getElem? hi] at hr0
      cases hr0
      exact h0
    next => rw [hr0] at hnone; cases hnone
  · rw [hget hd] at hr'
    split at hr'
    next => cases hr'
    next => exact Evolves.refl.kept hd n r' hr'

/-! ## Expiry -/

/-- The registration of a Node has a lease that has run out at `now`. -/
def Expiring (now : Nat) (s : RegistrationState) (n : String) : Prop :=
  ∃ r, lookup s n = some r ∧ r.expired now = true

@[simp] theorem Registration.expire_nodeId (now : Nat) (r : Registration) :
    (r.expire now).nodeId = r.nodeId := by
  unfold Registration.expire
  split <;> rfl

@[simp] theorem Registration.expire_snapshot (now : Nat) (r : Registration) :
    (r.expire now).snapshot = r.snapshot := by
  unfold Registration.expire
  split <;> rfl

@[simp] theorem Registration.expire_admitted (now : Nat) (r : Registration) :
    (r.expire now).admitted = r.admitted := by
  unfold Registration.expire
  split <;> rfl

theorem lookup_expireMaintenance :
    lookup (expireMaintenance now s) n = (lookup s n).map (Registration.expire now) :=
  Keyed.get_map fun r => r.expire_nodeId now

theorem getElem?_expireMaintenance {r' : Registration}
    (h : (expireMaintenance now s).registrations[i]? = some r') :
    ∃ r, s.registrations[i]? = some r ∧ r.expire now = r' := by
  rw [expireMaintenance, List.getElem?_map] at h
  exact Option.map_eq_some_iff.mp h

theorem evolves_expireMaintenance (now : Nat) (s : RegistrationState) :
    Evolves (Expiring now s) s (expireMaintenance now s) := by
  refine ⟨fun hd => hd.map fun r => r.expire_nodeId now, fun _ n r hr hnone => ?_,
    fun _ n r' hr' => ?_⟩
  · rw [lookup_expireMaintenance, hr] at hnone
    cases hnone
  · rw [lookup_expireMaintenance] at hr'
    obtain ⟨r, hr, rfl⟩ := Option.map_eq_some_iff.mp hr'
    refine ⟨r, hr, r.expire_admitted now, fun h1 h2 => ⟨r, hr, ?_⟩⟩
    by_contra hne
    rw [Registration.expire, if_neg hne, h1] at h2
    cases h2

/-- A call that expires leases first and then edits the state. -/
theorem Evolves.afterExpiry (h : Evolves (fun _ => False) (expireMaintenance now s) s') :
    Evolves (Expiring now s) s s' :=
  ((evolves_expireMaintenance _ _).trans h).mono fun _ h => h.resolve_right id

/-! ## Calls that only look -/

theorem observe_evolves (expected : NodeRegistrationSnapshot) :
    Evolves (Expiring now s) s (observe now s expected).2 := by
  unfold observe
  apply Evolves.afterExpiry
  dsimp only
  split
  · exact .refl
  · split <;> exact .refl

theorem withCurrent_evolves (expected : NodeRegistrationSnapshot) :
    Evolves (Expiring now s) s (withCurrent now s expected).2 := by
  unfold withCurrent
  apply Evolves.afterExpiry
  dsimp only
  split <;> exact .refl

theorem withObservation_evolves (expected : NodeRegistrationSnapshot) (epoch : Nat) :
    Evolves (Expiring now s) s (withObservation now s expected epoch).2 := by
  unfold withObservation
  apply Evolves.afterExpiry
  dsimp only
  split <;> exact .refl

/-! ## Calls that edit one registration -/

theorem rename_evolves (selector nodeAlias : String) (expectedRevision : Nat) (saved : Bool) :
    Evolves (fun n => (validateAlias nodeAlias).isOk = true ∧ Expiring now s n) s
      (rename now s selector nodeAlias expectedRevision saved).2 := by
  unfold rename
  split
  · exact .refl
  next halias =>
    refine Evolves.mono (O := Expiring now s) ?_ fun n hn => ⟨by rw [halias]; rfl, hn⟩
    apply Evolves.afterExpiry
    dsimp only
    split
    · exact .refl
    next i r hloc =>
      obtain ⟨hi, -⟩ := locate_eq_some hloc
      split
      · exact .refl
      split
      · exact .refl
      split
      · exact .refl
      split
      · exact .refl
      split
      · exact .refl
      split
      · exact .modify hi rfl ⟨rfl, fun h1 h2 => by rw [h1] at h2; cases h2⟩
      · exact .refl

/-- Admission after a drain that did not commit is open only without a lease, or for a
maintenance call. -/
theorem DrainKind.kept_reopen (kind : DrainKind)
    (hO : kind.isMaintenance = true ∨ r.maintenance = none → O r.nodeId) :
    Kept (O r.nodeId) r (kind.reopen r) := by
  unfold DrainKind.reopen
  split
  next hm => exact ⟨rfl, fun _ _ => hO (.inl hm)⟩
  next hm =>
    refine ⟨rfl, fun _ h2 => hO (.inr ?_)⟩
    exact Option.isNone_iff_eq_none.mp h2

theorem DrainKind.reopen_nodeId (kind : DrainKind) (r : Registration) :
    (kind.reopen r).nodeId = r.nodeId := by
  unfold DrainKind.reopen
  split <;> rfl

theorem beginDrain_evolves (kind : DrainKind) (selector : String) (expectedRevision : Nat) :
    Evolves (Expiring now s) s (beginDrain now s kind selector expectedRevision).2 := by
  unfold beginDrain
  apply Evolves.afterExpiry
  dsimp only
  split
  · exact .refl
  next i r hloc =>
    obtain ⟨hi, -⟩ := locate_eq_some hloc
    split
    · exact .refl
    split
    · exact .refl
    split
    · exact .refl
    · exact .modify hi rfl ⟨rfl, fun _ h2 => by cases h2⟩

theorem beginMaintenance_evolves (selector : String) (expectedRevision lease token : Nat)
    (idle : Bool) :
    Evolves (Expiring now s) s
      (beginMaintenance now s selector expectedRevision lease token idle).2 := by
  unfold beginMaintenance
  apply Evolves.afterExpiry
  dsimp only
  split
  · exact .refl
  split
  · exact .refl
  next i r hloc =>
    obtain ⟨hi, -⟩ := locate_eq_some hloc
    split
    · exact .refl
    split
    · exact .refl
    split
    · exact .refl
    · exact .modify hi rfl ⟨rfl, fun _ h2 => by cases h2⟩

theorem finishUpgradeMaintenance_evolves (nodeId : String) (token : Nat) :
    Evolves (fun n => Expiring now s n ∨
        ∃ r, lookup (expireMaintenance now s) n = some r ∧ n = nodeId ∧ r.holds token = true)
      s (finishUpgradeMaintenance now s nodeId token).2 := by
  unfold finishUpgradeMaintenance
  by_cases hd : s.Distinct
  · refine (evolves_expireMaintenance _ _).trans ?_
    dsimp only
    split
    · exact .refl
    next i r hpos =>
      obtain ⟨hi, hn⟩ := position_eq_some hpos
      split
      · exact .refl
      next hh =>
        have hget := ((evolves_expireMaintenance _ _).distinct hd).lookup_of_getElem? hi
        exact .modify hi rfl ⟨rfl, fun _ _ => ⟨r, hget, hn, by simpa using hh⟩⟩
  · -- the relation only speaks about states with distinct Nodes
    refine ⟨fun h => absurd h hd, fun h => absurd h hd, fun h => absurd h hd⟩

theorem finishUninstallMaintenance_evolves (nodeId : String) (token : Nat) (saved : Bool) :
    Evolves (Expiring now s) s (finishUninstallMaintenance now s nodeId token saved).2 := by
  unfold finishUninstallMaintenance
  apply Evolves.afterExpiry
  dsimp only
  split
  · exact .refl
  next i r hpos =>
    obtain ⟨hi, -⟩ := position_eq_some hpos
    split
    · exact .refl
    split
    · exact .refl
    next hadm =>
      split
      · exact .refl
      split
      · exact .erase hi (by simpa using hadm)
      · exact .refl

theorem renewUpgradeMaintenance_evolves (nodeId : String) (token lease : Nat) :
    Evolves (Expiring now s) s (renewUpgradeMaintenance now s nodeId token lease).2 := by
  unfold renewUpgradeMaintenance
  apply Evolves.afterExpiry
  dsimp only
  split
  · exact .refl
  next i r hpos =>
    obtain ⟨hi, -⟩ := position_eq_some hpos
    split
    · exact .refl
    · exact .modify hi rfl ⟨rfl, fun h1 h2 => by rw [h1] at h2; cases h2⟩

/-! ## Turns of a draining call -/

/-- The Node that a call finds by its selector, when a turn that `ends` the call opens its
admission: the call is a maintenance call, or there is no lease. -/
def DrainCall.Opens (call : DrainCall) (s : RegistrationState) (ends : Registration → Prop)
    (n : String) : Prop :=
  ∃ i r, findIndex s call.selector = some (i, r) ∧ r.nodeId = n ∧
    (call.kind.isMaintenance = true ∨ r.maintenance = none) ∧ ends r

/-- A turn of the loop that ends the call with a commit, with an error of the commit, or with
the timeout. -/
def DrainCall.Ends (call : DrainCall) (now : Nat) (r : Registration) : Prop :=
  r.snapshot.revision = call.expectedRevision ∧
    (r.admitted = 0 ∧ call.kind.isMaintenance = false ∨ r.admitted ≠ 0 ∧ call.deadline < now)

theorem DrainCall.evolves_reopen (call : DrainCall) {ends : Registration → Prop}
    (hloc : findIndex s call.selector = some (i, r)) (he : ends r) :
    Evolves (call.Opens s ends) s (modifyAt s i call.kind.reopen) :=
  .modify (locate_eq_some hloc).1 (call.kind.reopen_nodeId r)
    (call.kind.kept_reopen fun h => ⟨i, r, hloc, rfl, h, he⟩)

theorem DrainCall.wakeTimedOut_evolves (call : DrainCall) :
    Evolves (call.Opens s fun _ => True) s (call.wakeTimedOut s).2 := by
  unfold DrainCall.wakeTimedOut
  split
  · exact .refl
  next hloc => exact call.evolves_reopen hloc trivial

/-- What a successful `mutate` leaves: the registration under its Node with the same counter
and the same lease, or no registration of the Node. -/
theorem DrainKind.mutate_ok {kind : DrainKind} {result : NodeRegistrationSnapshot}
    (hd : s.Distinct) (hi : s.registrations[i]? = some r) (h0 : r.admitted = 0)
    (h : kind.mutate s i r = .ok (result, t)) :
    result.nodeId = r.nodeId ∧ Evolves (fun _ => False) s t ∧
      ∀ r', lookup t r.nodeId = some r' → r'.maintenance = r.maintenance := by
  have hget := hd.lookup_of_getElem? hi
  have hsame : ∀ r', lookup s r.nodeId = some r' → r'.maintenance = r.maintenance := by
    intro r' hr'
    rw [hget] at hr'
    cases hr'
    rfl
  unfold DrainKind.mutate at h
  split at h
  · split at h
    · cases h
    split at h
    · cases h
      exact ⟨rfl, .refl, hsame⟩
    split at h
    · cases h
    split at h
    · cases h
    · cases h
      refine ⟨rfl, .modify hi rfl ⟨rfl, fun h1 h2 => by rw [h1] at h2; cases h2⟩, fun r' hr' => ?_⟩
      rw [lookup, modifyAt, hd.get_modify hi rfl, if_pos rfl] at hr'
      cases hr'
      rfl
  · split at h
    · cases h
    · cases h
      refine ⟨rfl, .erase hi h0, fun r' hr' => ?_⟩
      rw [lookup, hd.get_eraseIdx hi, if_pos rfl] at hr'
      cases hr'
  · cases h
    exact ⟨rfl, .refl, hsame⟩

theorem DrainCall.commit_evolves (call : DrainCall) (saved : Bool)
    (hloc : findIndex s call.selector = some (i, r)) (h0 : r.admitted = 0)
    (hrev : r.snapshot.revision = call.expectedRevision) :
    Evolves (call.Opens s (call.Ends now)) s (call.commit s i r saved).2 := by
  by_cases hd : s.Distinct
  case neg => exact ⟨fun h => absurd h hd, fun h => absurd h hd, fun h => absurd h hd⟩
  have hi := (locate_eq_some hloc).1
  unfold DrainCall.commit
  split
  · exact .refl
  next hm =>
    have hends : call.Ends now r := ⟨hrev, .inl ⟨h0, by simpa using hm⟩⟩
    split
    · exact call.evolves_reopen hloc hends
    next result t hmut =>
      obtain ⟨hn, hev, hlease⟩ := DrainKind.mutate_ok hd hi h0 hmut
      split
      · split
        · exact hev.mono fun _ h => h.elim
        next j r' hpos =>
          obtain ⟨hj, hn'⟩ := position_eq_some hpos
          have hget : lookup t r.nodeId = some r' := by
            rw [← hn, ← hn']
            exact (hev.distinct hd).lookup_of_getElem? hj
          refine (hev.trans (.modify hj (call.kind.reopen_nodeId r') (call.kind.kept_reopen
            (O := call.Opens s (call.Ends now)) fun h => ?_))).mono fun _ h => h.resolve_left id
          refine ⟨i, r, hloc, hn'.symm ▸ hn.symm, ?_, hends⟩
          rwa [hlease r' hget] at h
      · exact call.evolves_reopen hloc hends

theorem DrainCall.poll_evolves (call : DrainCall) (now : Nat) (s : RegistrationState)
    (saved : Bool) :
    Evolves (call.Opens s (call.Ends now)) s (call.poll now s saved).2 := by
  unfold DrainCall.poll
  split
  · exact .refl
  next i r hloc =>
    split
    · exact .refl
    next hrev =>
      have hrev' : r.snapshot.revision = call.expectedRevision := by
        unfold requireRevision at hrev
        split at hrev
        · assumption
        · cases hrev
      split
      next h0 => exact call.commit_evolves saved hloc h0 hrev'
      next h0 =>
        split
        next hlt => exact call.evolves_reopen hloc ⟨hrev', .inr ⟨h0, hlt⟩⟩
        · exact .refl

/-- A call that goes on waiting leaves the state as it was. -/
theorem DrainCall.poll_none {call : DrainCall} {saved : Bool}
    (h : (call.poll now s saved).1 = none) : (call.poll now s saved).2 = s := by
  unfold DrainCall.poll at h ⊢
  split
  · rfl
  · simp_all only
    split
    · rfl
    · simp_all only
      split
      · simp_all
      · split <;> simp_all

end Boomux.Nodes
