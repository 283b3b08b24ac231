import Boomux.Nodes.Proceeds

/-!
# Observations, recovery of admission, and leases

What a Node's projection worker relies on. An epoch that `observe` returned is only good for a
registration that nothing has drained, renamed or removed since; admission is closed for ever
for nobody; and a lease is its holder's. The last of these has an exception: a maintenance call
that gives up its drain clears whatever lease its selector finds (`fresh_recovered_iff`).
-/

set_option autoImplicit false

namespace Boomux.Nodes

open Rust Transition

variable {w u : World} {a : Action} {n : String} {r : Registration}

/-! ## One step -/

/-- A manager that a daemon has just loaded. -/
structure World.Restored (w : World) : Prop where
  loaded : ∃ revision tombstoneEpoch snapshots,
    validatePersisted revision tombstoneEpoch snapshots = .ok w.manager
  waiting : w.waiting = []
  admitted : w.admitted = []

/-- A call other than a maintenance call waits for the registration of the Node. -/
def World.Awaited (w : World) (n : String) : Prop :=
  ∃ d ∈ w.waiting, d.call.kind.isMaintenance = false ∧
    ∀ r, lookup w.manager n = some r → d.call.Finds r

/-- The leases that a step can end or shorten. -/
def World.Touches (w : World) (a : Action) (u : World) (n : String) (lease : MaintenanceLease) :
    Prop :=
  Lapsed w.now n lease ∨
  match a with
  | .finishUpgradeMaintenance nodeId token => n = nodeId ∧ lease.token = token
  | .renewUpgradeMaintenance nodeId token duration =>
      n = nodeId ∧ lease.token = token ∧ w.now + duration < lease.deadline
  | .finishUninstallMaintenance nodeId _ _ => n = nodeId ∧ lookup u.manager n = none
  | .forget .. => lookup u.manager n = none
  | .wake index timedOut _ => ∃ d, w.waiting[index]? = some d ∧
      (Forgotten d.call.kind u.manager n lease ∨ d.call.GivesUp w.now timedOut w.manager n)
  | _ => False

/-- The token of the lease that an action can grant. -/
def World.Grants (w : World) (a : Action) (token : Nat) : Prop :=
  match a with
  | .beginUpgradeMaintenance _ _ _ _ transitionIdle => transitionIdle = true ∧ token = w.tokens
  | _ => False

theorem starts_proceeds {call : DrainCall} {begun : Call Nat} {saved : Bool}
    (h : w.manager.Sound) (hst : w.starts a = some (call, begun, saved)) :
    Proceeds (fun n => Begun begun n ∧ call.kind.isMaintenance = false) (Lapsed w.now)
      (w.Grants a) w.manager begun.2 := by
  unfold World.starts at hst
  split at hst
  · split at hst
    · obtain ⟨rfl, rfl, -⟩ : _ ∧ _ ∧ _ := by simpa using hst
      exact (beginDrain_proceeds h _ _ _).mono (fun _ hb => ⟨hb, rfl⟩) fun _ _ _ _ _ => id
    · cases hst
  · obtain ⟨rfl, rfl, -⟩ : _ ∧ _ ∧ _ := by simpa using hst
    exact (beginDrain_proceeds h _ _ _).mono (fun _ hb => ⟨hb, rfl⟩) fun _ _ _ _ _ => id
  · obtain ⟨rfl, rfl, -⟩ : _ ∧ _ ∧ _ := by simpa using hst
    exact beginMaintenance_proceeds h _ _ _ _ _
  · cases hst

/-- The registration that a draining call has just closed: it is at the next epoch. -/
def ClosedAt (s : RegistrationState) (expectedRevision : Nat) (t : RegistrationState) (i : Nat) :
    Prop :=
  ∃ r r', s.registrations[i]? = some r ∧ t.registrations[i]? = some r' ∧
    r'.snapshot = r.snapshot ∧ r.snapshot.revision = expectedRevision ∧
    r'.admissionEpoch = r.admissionEpoch + 1

theorem beginDrain_closedAt {s t : RegistrationState} {now revision i : Nat} {kind : DrainKind}
    {selector : String} (h : beginDrain now s kind selector revision = (.ok i, t)) :
    ClosedAt (expireMaintenance now s) revision t i := by
  unfold beginDrain at h
  dsimp only at h
  split at h
  · cases h
  next j r hloc =>
    have hi := (locate_eq_some hloc).1
    split at h
    · cases h
    next hrevision =>
      split at h
      · cases h
      split at h
      · cases h
      next epoch hepoch =>
        cases h
        refine ⟨r, { r with admissionEpoch := epoch, admissionOpen := false }, hi, ?_, rfl,
          requireRevision_eq_ok hrevision, next_eq_ok hepoch⟩
        rw [modifyAt, List.getElem?_modify_eq, hi]
        rfl

theorem beginMaintenance_closedAt {s t : RegistrationState} {now revision lease token i : Nat}
    {idle : Bool} {selector : String}
    (h : beginMaintenance now s selector revision lease token idle = (.ok i, t)) :
    ClosedAt (expireMaintenance now s) revision t i := by
  unfold beginMaintenance at h
  dsimp only at h
  split at h
  · cases h
  split at h
  · cases h
  next j r hloc =>
    have hi := (locate_eq_some hloc).1
    split at h
    · cases h
    next hrevision =>
      split at h
      · cases h
      split at h
      · cases h
      next epoch hepoch =>
        cases h
        refine ⟨r, { r with
            admissionEpoch := epoch
            admissionOpen := false
            maintenance := some ⟨token, now + lease⟩ }, hi, ?_, rfl,
          requireRevision_eq_ok hrevision, next_eq_ok hepoch⟩
        rw [modifyAt, List.getElem?_modify_eq, hi]
        rfl

theorem starts_closedAt {call : DrainCall} {t : RegistrationState} {i : Nat} {saved : Bool}
    (hst : w.starts a = some (call, (.ok i, t), saved)) :
    ClosedAt (expireMaintenance w.now w.manager) call.expectedRevision t i := by
  unfold World.starts at hst
  split at hst
  · split at hst
    · obtain ⟨rfl, hb, -⟩ : _ ∧ _ ∧ _ := by simpa using hst
      exact beginDrain_closedAt hb
    · cases hst
  · obtain ⟨rfl, hb, -⟩ : _ ∧ _ ∧ _ := by simpa using hst
    exact beginDrain_closedAt hb
  · obtain ⟨rfl, hb, -⟩ : _ ∧ _ ∧ _ := by simpa using hst
    exact beginMaintenance_closedAt hb
  · cases hst

/-- A call that begins to drain closes a registration: it returns and leaves nothing pending, or
it waits for it. -/
theorem start_proceeds {call : DrainCall} {begun : Call Nat} {saved : Bool}
    (h : w.manager.Sound) (hst : w.starts a = some (call, begun, saved)) :
    Proceeds (w.start call begun saved).Awaited
      (fun n lease => Lapsed w.now n lease ∨
        Forgotten call.kind (w.start call begun saved).manager n lease)
      (w.Grants a) w.manager (w.start call begun saved).manager := by
  have hbegin := starts_proceeds h hst
  obtain ⟨result, t⟩ := begun
  cases result with
  | error e =>
      exact hbegin.mono (fun _ hc => by obtain ⟨⟨i, r, hi, -⟩, -⟩ := hc; cases hi)
        fun _ _ _ _ _ => .inl
  | ok i =>
      obtain ⟨-, r', -, hloc, -, -, -, hdeadline, -⟩ := starts_ok hst
      obtain ⟨q, q', -, hq', hsnapshot, hrevision, -⟩ := starts_closedAt hst
      obtain ⟨hi, hnamed⟩ := locate_eq_some hloc
      obtain rfl : r' = q' := Option.some.inj (hi.symm.trans hq')
      have hfinds : call.Finds r' := ⟨hnamed, hsnapshot ▸ hrevision⟩
      have hr' : lookup t r'.nodeId = some r' := hbegin.sound.distinct.lookup_of_getElem? hi
      have hclosed : ∀ n, Begun (.ok i, t) n → n = r'.nodeId := by
        rintro n ⟨j, p, hj, hp, rfl⟩
        cases hj
        rw [Option.some.inj (hp.symm.trans hi)]
      have hgives : ∀ n, ¬ call.GivesUp w.now false t n := by
        rintro n ⟨-, -, -, -, -, hf | ⟨-, -, hlate⟩⟩
        · cases hf
        · exact hdeadline hlate
      have hpoll := call.poll_proceeds (C := fun _ => False) (G := w.Grants a) w.now saved
        hbegin.sound
      cases hturn : call.poll w.now t saved with
      | mk result t' =>
          rw [hturn] at hpoll
          have hmanager : (w.start call (.ok i, t) saved).manager = t' := by
            rw [World.start_manager hi, hturn]
          rw [hmanager]
          have hlapsed : Proceeds _ (fun n lease => Lapsed w.now n lease ∨
              Forgotten call.kind t' n lease) (w.Grants a) w.manager t :=
            hbegin.mono (fun _ => id) fun _ _ _ _ _ => .inl
          have hboth := hlapsed.trans hpoll
            fun n _ _ _ _ he => he.elim .inr fun hg => absurd hg (hgives n)
          cases result with
          | some result =>
              have hsettles := fun hm => call.poll_settles
                hbegin.sound hm hr' hfinds (by rw [hturn]; rfl)
              refine (hboth.settle fun n hn => ?_).mono (fun _ hf => hf.elim) fun _ _ _ _ _ => id
              obtain ⟨hb, hm⟩ := hn.resolve_right id
              rw [hclosed n hb]
              have := hsettles hm
              rwa [hturn] at this
          | none =>
              refine hboth.mono (fun n hn => ?_) fun _ _ _ _ _ => id
              obtain ⟨hb, hm⟩ := hn.resolve_right id
              have hsame : t' = t := by
                have := call.poll_none (s := t) (by rw [hturn])
                rwa [hturn] at this
              refine ⟨⟨call, r'.nodeId, w.added r'.nodeId⟩, ?_, hm, fun p hp => ?_⟩
              · simp [World.start, hi, hturn]
              · rw [hmanager, hsame, hclosed n hb, hr'] at hp
                cases hp
                exact hfinds

theorem starts_forget {call : DrainCall} {begun : Call Nat} {saved : Bool}
    (hst : w.starts a = some (call, begun, saved)) (hkind : call.kind = .forget) :
    ∃ selector revision timeout saved, a = .forget selector revision timeout saved := by
  unfold World.starts at hst
  split at hst
  · split at hst
    · obtain ⟨rfl, -⟩ : _ ∧ _ := by simpa using hst
      cases hkind
    · cases hst
  · exact ⟨_, _, _, _, rfl⟩
  · obtain ⟨rfl, -⟩ : _ ∧ _ := by simpa using hst
    cases hkind
  · cases hst

/-- What one step does: it leaves closed without a lease only what a call waits for. -/
theorem World.step_proceeds (h : w.manager.Sound) (hs : w.step a = some u) :
    Proceeds u.Awaited (w.Touches a u) (w.Grants a) w.manager u.manager := by
  -- Most calls touch a registration only by letting a lapsed lease go.
  have hlapsed : ∀ {s' : RegistrationState},
      Proceeds u.Awaited (Lapsed w.now) (w.Grants a) w.manager s' →
      Proceeds u.Awaited (w.Touches a u) (w.Grants a) w.manager s' :=
    fun hp => hp.mono (fun _ => id) fun _ _ _ _ _ => .inl
  cases a with
  | tick duration => cases hs; exact .refl h
  | observe expected => cases hs; exact hlapsed (observe_proceeds h expected)
  | withCurrent expected => cases hs; exact hlapsed (withCurrent_proceeds h expected)
  | withObservation expected epoch =>
      cases hs; exact hlapsed (withObservation_proceeds h expected epoch)
  | hasActiveUpgradeMaintenance => cases hs; exact hlapsed (expireMaintenance_proceeds _ h)
  | admitOperation expected =>
      have hadmit := admitOperation_proceeds (C := u.Awaited)
        (G := w.Grants (.admitOperation expected)) w.now h expected
      simp only [World.step] at hs
      split at hs
      next heq =>
        cases hs
        rw [heq] at hadmit
        exact hlapsed hadmit
      next heq =>
        cases hs
        rw [heq] at hadmit
        exact hlapsed hadmit
  | release index =>
      obtain ⟨op, -, rfl⟩ := Option.map_eq_some_iff.mp hs
      exact release_proceeds h _
  | add nodeAlias target nodeId localNodeId saved =>
      cases hs
      exact add_proceeds h nodeAlias target nodeId localNodeId saved
  | rename selector nodeAlias revision saved =>
      cases hs
      exact hlapsed (rename_proceeds h selector nodeAlias revision saved)
  | retarget selector target nodeId revision timeout saved =>
      simp only [World.step] at hs
      split at hs
      · cases hs; exact .refl h
      next hst =>
        cases hs
        -- Only a forget closes for good, and a retarget is none.
        refine (start_proceeds h hst).mono (fun _ => id) fun n _ _ _ _ he =>
          .inl (he.resolve_right ?_)
        rintro ⟨hkind, -⟩
        obtain ⟨_, _, _, _, he⟩ := starts_forget hst hkind
        cases he
  | forget selector revision timeout saved =>
      simp only [World.step] at hs
      split at hs
      · cases hs; exact .refl h
      next hst =>
        cases hs
        exact (start_proceeds h hst).mono (fun _ => id) fun _ _ _ _ _ he => he.imp_right (·.2)
  | beginUpgradeMaintenance selector revision timeout lease idle =>
      simp only [World.step] at hs
      split at hs
      · cases hs; exact .refl h
      next hst =>
        cases hs
        -- Nor is the begin of a maintenance.
        refine (start_proceeds h hst).mono (fun _ => id) fun n _ _ _ _ he =>
          .inl (he.resolve_right ?_)
        rintro ⟨hkind, -⟩
        obtain ⟨_, _, _, _, he⟩ := starts_forget hst hkind
        cases he
  | finishUpgradeMaintenance nodeId token =>
      cases hs
      exact finishUpgradeMaintenance_proceeds h nodeId token
  | finishUninstallMaintenance nodeId token saved =>
      cases hs
      exact finishUninstallMaintenance_proceeds h nodeId token saved
  | renewUpgradeMaintenance nodeId token duration =>
      cases hs
      exact renewUpgradeMaintenance_proceeds h nodeId token duration
  | wake index timedOut saved =>
      simp only [World.step] at hs
      split at hs
      · cases hs
      next d hw =>
        split at hs
        -- A call that has waited too long gives up and reopens what it had closed.
        next ht =>
          split at hs
          next =>
            cases hs
            refine (d.call.wakeTimedOut_proceeds w.now h).mono (fun _ => id)
              fun n _ _ _ _ hg => .inr ⟨d, hw, .inr ?_⟩
            rw [ht]
            exact hg
          next => cases hs
        -- A call that is woken in time tries again.
        next ht =>
          have hpoll := d.call.poll_proceeds (C := u.Awaited)
            (G := w.Grants (.wake index timedOut saved)) w.now saved h
          cases hturn : d.call.poll w.now w.manager saved with
          | mk result t =>
              rw [hturn] at hpoll hs
              have hmanager : u.manager = t := by
                cases result <;> cases hs <;> rfl
              rw [hmanager]
              refine hpoll.mono (fun _ => id) fun n _ _ _ _ he => .inr ⟨d, hw, ?_⟩
              rw [hmanager]
              refine he.imp_right fun hg => ?_
              rwa [Bool.not_eq_true _ |>.mp ht]

/-! ## Recovery of admission -/

/-- Only a call that waits keeps admission closed without a lease. -/
structure World.Recoverable (w : World) : Prop where
  sound : w.manager.Sound
  awaited : ∀ n r, lookup w.manager n = some r → r.Pending → w.Awaited n

/-- Admission is open exactly without a lease, unless a call waits. -/
def World.Recovered (w : World) : Prop :=
  w.waiting = [] → ∀ r ∈ w.manager.registrations, r.admissionOpen = r.maintenance.isNone

theorem World.Restored.recoverable (h : w.Restored) : w.Recoverable := by
  obtain ⟨revision, tombstoneEpoch, snapshots, hloaded⟩ := h.loaded
  obtain ⟨hsound, hopen⟩ := validatePersisted_sound hloaded
  refine ⟨hsound, fun n r hr hp => ?_⟩
  have := (hopen r (Keyed.mem_of_get hr)).2
  rw [hp.1] at this
  cases this

theorem World.Recoverable.recovered (h : w.Recoverable) : w.Recovered := by
  intro hidle r hr
  cases hlease : r.maintenance with
  | some lease => exact h.sound.leased r hr (by rw [hlease]; rfl)
  | none =>
      by_contra hopen
      obtain ⟨d, hd, -⟩ := h.awaited r.nodeId r (h.sound.distinct.get_of_mem hr)
        ⟨by simpa using hopen, hlease⟩
      rw [hidle] at hd
      cases hd

theorem mem_start_waiting {call : DrainCall} {begun : Call Nat} {saved : Bool} {d : Waiting}
    (hd : d ∈ w.waiting) : d ∈ (w.start call begun saved).waiting := by
  unfold World.start
  split
  · exact hd
  · split
    · exact hd
    · split
      · exact hd
      · exact List.mem_append_left _ hd

theorem eq_or_mem_eraseIdx {α : Type*} {l : List α} {x y : α} {i : Nat} (hx : x ∈ l)
    (hy : l[i]? = some y) : x = y ∨ x ∈ l.eraseIdx i := by
  obtain ⟨j, hj⟩ := List.mem_iff_getElem?.mp hx
  by_cases hij : j = i
  · subst hij
    exact .inl (Option.some.inj (hj.symm.trans hy))
  · exact .inr (List.mem_eraseIdx_iff_getElem?.mpr ⟨j, hij, hj⟩)

/-- A waiting call that a step ends has settled what it waited for. -/
theorem step_settles (h : w.manager.Sound) (hs : w.step a = some u) {d : Waiting}
    (hd : d ∈ w.waiting) (hm : d.call.kind.isMaintenance = false)
    (hr : lookup w.manager n = some r) (hfinds : d.call.Finds r) :
    d ∈ u.waiting ∨ ∀ r', lookup u.manager n = some r' → ¬ r'.Pending := by
  cases a with
  | admitOperation expected =>
      simp only [World.step] at hs
      split at hs <;> cases hs <;> exact .inl hd
  | release index =>
      obtain ⟨op, -, rfl⟩ := Option.map_eq_some_iff.mp hs
      exact .inl hd
  | retarget selector target nodeId revision timeout saved =>
      simp only [World.step] at hs
      split at hs <;> cases hs
      · exact .inl hd
      · exact .inl (mem_start_waiting hd)
  | forget selector revision timeout saved =>
      simp only [World.step] at hs
      split at hs <;> cases hs
      · exact .inl hd
      · exact .inl (mem_start_waiting hd)
  | beginUpgradeMaintenance selector revision timeout lease idle =>
      simp only [World.step] at hs
      split at hs <;> cases hs
      · exact .inl hd
      · exact .inl (mem_start_waiting (w := w) hd)
  | wake index timedOut saved =>
      simp only [World.step] at hs
      split at hs
      · cases hs
      next d' hw =>
        split at hs
        next =>
          split at hs
          next =>
            cases hs
            rcases eq_or_mem_eraseIdx hd hw with rfl | hstays
            · exact .inr (d.call.wakeTimedOut_settles h hr hfinds)
            · exact .inl hstays
          next => cases hs
        next =>
          split at hs
          next hturn =>
            cases hs
            rcases eq_or_mem_eraseIdx hd hw with rfl | hstays
            · have hsettles := d.call.poll_settles h hm hr hfinds
                (by rw [hturn]; rfl)
              rw [hturn] at hsettles
              exact .inr hsettles
            · exact .inl hstays
          next => cases hs; exact .inl hd
  | _ => cases hs; exact .inl hd

theorem World.Recoverable.step (h : w.Recoverable) (hs : w.step a = some u) : u.Recoverable := by
  have hproceeds := World.step_proceeds h.sound hs
  refine ⟨hproceeds.sound, fun n r' hr' hp => ?_⟩
  rcases hproceeds.kept n r' hr' with ⟨-, hpending⟩ | ⟨r, hr, hsnapshot, -, hpending⟩
  · exact hpending hp
  · rcases hpending hp with hold | hawaited
    · obtain ⟨d, hd, hm, hfinds⟩ := h.awaited n r hr hold
      have hsettles := step_settles h.sound hs hd hm hr (hfinds r hr)
      have hstays : d ∈ u.waiting := hsettles.resolve_right fun hnot => hnot r' hr' hp
      refine ⟨d, hstays, hm, fun q hq => ?_⟩
      obtain rfl : r' = q := Option.some.inj (hr'.symm.trans hq)
      obtain ⟨hnamed, hrevision⟩ := hfinds r hr
      refine ⟨?_, hsnapshot ▸ hrevision⟩
      unfold Registration.named at hnamed ⊢
      rw [hsnapshot]
      exact hnamed
    · exact hawaited

/-! ## Freshness of observations -/

/-- The action begins to drain the registration of the Node, or replaces its snapshot: by
renaming, retargeting or removing it. -/
def World.Disturbs (w : World) (a : Action) (n : String) : Prop :=
  (∃ call begun saved, w.starts a = some (call, begun, saved) ∧ Begun begun n) ∨
    ∃ u, w.step a = some u ∧
      (lookup u.manager n).map (·.snapshot) ≠ (lookup w.manager n).map (·.snapshot)

/-- `with_observation` runs its operation only when nothing has disturbed the registration since
the `observe` that returned its epoch. -/
def World.Fresh (w : World) (actions : List Action) : Prop :=
  ∀ before expected since after w₁ w₂ epoch,
    actions = before ++ .observe expected :: since ++ after →
    exec World.step w before = some w₁ →
    exec World.step w₁ (.observe expected :: since) = some w₂ →
    (observe w₁.now w₁.manager expected).1 = .ok (some epoch) →
    (withObservation w₂.now w₂.manager expected epoch).1 = .ok true →
    Meets World.step (fun w a => ¬ w.Disturbs a expected.nodeId) w₁ (.observe expected :: since)

theorem step_of_starts {call : DrainCall} {begun : Call Nat} {saved : Bool}
    (hst : w.starts a = some (call, begun, saved)) (hs : w.step a = some u) :
    u.manager = (w.start call begun saved).manager := by
  cases a with
  | retarget selector target nodeId revision timeout saved =>
      simp only [World.step, hst] at hs
      cases hs
      rfl
  | forget selector revision timeout saved =>
      simp only [World.step, hst] at hs
      cases hs
      rfl
  | beginUpgradeMaintenance selector revision timeout lease idle =>
      simp only [World.step, hst] at hs
      cases hs
      rfl
  | _ => cases hst

/-- A drain that begins moves the admission epoch on. -/
theorem begun_epoch_lt {call : DrainCall} {begun : Call Nat} {saved : Bool} {r' : Registration}
    (h : w.manager.Sound) (hst : w.starts a = some (call, begun, saved)) (hb : Begun begun n)
    (hs : w.step a = some u) (hr : lookup w.manager n = some r)
    (hr' : lookup u.manager n = some r')
    (hrevision : r'.snapshot.revision ≤ w.manager.revision) :
    r.admissionEpoch < r'.admissionEpoch := by
  have hbegin := starts_proceeds h hst
  obtain ⟨i, closed, hi, hclosed, rfl⟩ := hb
  obtain ⟨result, t⟩ := begun
  obtain rfl : result = .ok i := hi
  obtain ⟨re, closed', hre, hclosed', hsnapshot, -, hepoch⟩ := starts_closedAt hst
  obtain rfl : closed = closed' := Option.some.inj (hclosed.symm.trans hclosed')
  have hlookup : lookup t closed.nodeId = some closed :=
    hbegin.sound.distinct.lookup_of_getElem? hclosed
  rw [step_of_starts hst hs, World.start_manager hclosed] at hr'
  have hpoll := call.poll_proceeds (C := fun _ => False) (G := w.Grants a) w.now saved
    hbegin.sound
  have hle : closed.admissionEpoch ≤ r'.admissionEpoch := by
    rcases hpoll.kept closed.nodeId r' hr' with ⟨hnew, -⟩ | ⟨q, hq, -, hle, -⟩
    · have hgrows : w.manager.revision ≤ t.revision := hbegin.revision_le
      have hnew' : t.revision < r'.snapshot.revision := hnew
      omega
    · rw [hlookup] at hq
      cases hq
      exact hle
  obtain ⟨r₀, hr₀, rfl⟩ := getElem?_expireMaintenance hre
  have hsame : r₀ = r := by
    have hid : closed.nodeId = r₀.nodeId := by
      rw [Registration.nodeId, hsnapshot, Registration.expire_snapshot]
      rfl
    rw [hid, h.distinct.lookup_of_getElem? hr₀] at hr
    exact Option.some.inj hr
  subst hsame
  have hexpire : (r₀.expire w.now).admissionEpoch = r₀.admissionEpoch := by
    unfold Registration.expire
    split <;> rfl
  omega

/-- What a run leaves under an old revision it has kept, and its epoch never went back. -/
theorem run_kept {actions : List Action} {r' : Registration} (h : w.manager.Sound)
    (hrun : exec World.step w actions = some u) (hr' : lookup u.manager n = some r')
    (hrevision : r'.snapshot.revision ≤ w.manager.revision) :
    ∃ r, lookup w.manager n = some r ∧ r'.snapshot = r.snapshot ∧
      r.admissionEpoch ≤ r'.admissionEpoch := by
  induction actions generalizing w with
  | nil =>
      cases hrun
      exact ⟨r', hr', rfl, le_rfl⟩
  | cons a actions ih =>
      obtain ⟨v, hv, hrest⟩ := Option.bind_eq_some_iff.mp hrun
      have hproceeds := World.step_proceeds h hv
      obtain ⟨q, hq, hsnapshot, hepoch⟩ := ih hproceeds.sound hrest
        (hrevision.trans hproceeds.revision_le)
      rcases hproceeds.kept n q hq with ⟨hnew, -⟩ | ⟨r, hr, hsnapshot', hepoch', -⟩
      · rw [hsnapshot] at hrevision
        omega
      · exact ⟨r, hr, hsnapshot.trans hsnapshot', hepoch'.trans hepoch⟩

/-- A run at whose end the registration has the same revision and epoch has not disturbed it. -/
theorem undisturbed {actions : List Action} {r' : Registration} (h : w.manager.Sound)
    (hrun : exec World.step w actions = some u) (hr : lookup w.manager n = some r)
    (hr' : lookup u.manager n = some r')
    (hrevision : r'.snapshot.revision = r.snapshot.revision)
    (hepoch : r'.admissionEpoch = r.admissionEpoch) :
    Meets World.step (fun w a => ¬ w.Disturbs a n) w actions := by
  induction actions generalizing w r with
  | nil => trivial
  | cons a actions ih =>
      have hbound : r'.snapshot.revision ≤ w.manager.revision :=
        hrevision ▸ h.bounded r (Keyed.mem_of_get hr)
      obtain ⟨v, hv, hrest⟩ := Option.bind_eq_some_iff.mp hrun
      have hproceeds := World.step_proceeds h hv
      obtain ⟨q, hq, hsnapshot, hle⟩ := run_kept hproceeds.sound hrest hr'
        (hbound.trans hproceeds.revision_le)
      have hqbound : q.snapshot.revision ≤ w.manager.revision := hsnapshot ▸ hbound
      obtain ⟨hsame, hle'⟩ : q.snapshot = r.snapshot ∧ r.admissionEpoch ≤ q.admissionEpoch := by
        rcases hproceeds.kept n q hq with ⟨hnew, -⟩ | ⟨r₁, hr₁, hsnapshot', hepoch', -⟩
        · omega
        · obtain rfl : r = r₁ := Option.some.inj (hr.symm.trans hr₁)
          exact ⟨hsnapshot', hepoch'⟩
      refine Meets.cons hv ?_ (ih hproceeds.sound hrest hq ?_ ?_)
      · rintro (⟨call, begun, saved, hst, hb⟩ | ⟨v', hv', hdiffer⟩)
        · have hlt := begun_epoch_lt h hst hb hv hr hq hqbound
          omega
        · obtain rfl : v = v' := Option.some.inj (hv.symm.trans hv')
          rw [hq, hr, Option.map_some, Option.map_some, hsame] at hdiffer
          exact hdiffer rfl
      · rw [hsnapshot]
      · omega

theorem World.Recoverable.sound_of_exec {actions : List Action} (h : w.Recoverable)
    (hrun : exec World.step w actions = some u) : u.Recoverable :=
  (reach_of_exec_true hrun).invariant h fun _ _ _ ht _ hs => ht.step hs

/-- A registration after the expiry of leases has the snapshot and the epoch from before. -/
theorem lookup_of_expired {now : Nat} {s : RegistrationState} {nodeId : String}
    {r : Registration} (h : lookup (expireMaintenance now s) nodeId = some r) :
    ∃ r₀, lookup s nodeId = some r₀ ∧ r₀.snapshot = r.snapshot ∧
      r₀.admissionEpoch = r.admissionEpoch := by
  rw [lookup_expireMaintenance] at h
  obtain ⟨r₀, hr₀, rfl⟩ := Option.map_eq_some_iff.mp h
  refine ⟨r₀, hr₀, (r₀.expire_snapshot now).symm, ?_⟩
  unfold Registration.expire
  split <;> rfl

theorem revision_of_current {expected : NodeRegistrationSnapshot}
    (h : r.current expected = true) : r.snapshot.revision = expected.revision := by
  simp only [Registration.current, Bool.and_eq_true, beq_iff_eq] at h
  exact h.1.1.1

theorem observed_current {now epoch : Nat} {s : RegistrationState}
    {expected : NodeRegistrationSnapshot}
    (h : (observe now s expected).1 = .ok (some epoch)) :
    ∃ r, lookup s expected.nodeId = some r ∧ r.snapshot.revision = expected.revision ∧
      r.admissionEpoch = epoch := by
  unfold observe at h
  dsimp only at h
  split at h
  next => cases h
  next r hr =>
    split at h
    next hcurrent =>
      cases h
      obtain ⟨r₀, hr₀, hsnapshot, hepoch⟩ := lookup_of_expired hr
      exact ⟨r₀, hr₀, hsnapshot ▸ revision_of_current hcurrent, hepoch⟩
    next => cases h

theorem withObservation_current {now epoch : Nat} {s : RegistrationState}
    {expected : NodeRegistrationSnapshot}
    (h : (withObservation now s expected epoch).1 = .ok true) :
    ∃ r, lookup s expected.nodeId = some r ∧ r.snapshot.revision = expected.revision ∧
      r.admissionEpoch = epoch := by
  unfold withObservation at h
  dsimp only at h
  split at h
  next => cases h
  next r hr =>
    obtain ⟨r₀, hr₀, hsnapshot, hepoch⟩ := lookup_of_expired hr
    rw [Except.ok.injEq, Bool.and_eq_true, beq_iff_eq] at h
    exact ⟨r₀, hr₀, hsnapshot ▸ revision_of_current h.1, hepoch.trans h.2⟩

theorem World.Recoverable.fresh (h : w.Recoverable) (actions : List Action) :
    w.Fresh actions := by
  intro before expected since after w₁ w₂ epoch _ hbefore hsince hobserve hwith
  obtain ⟨r, hr, hrevision, hepoch⟩ := observed_current hobserve
  obtain ⟨r', hr', hrevision', hepoch'⟩ := withObservation_current hwith
  exact undisturbed (h.sound_of_exec hbefore).sound hsince hr hr' (hrevision'.trans hrevision.symm)
    (hepoch'.trans hepoch.symm)

/-! ## Leases -/

/-- Why a step may end a lease: the lease has run out, its holder finishes it, the call that
began it gives up, or its registration is removed by a forget or an uninstall. -/
def World.Ends (w : World) (a : Action) (u : World) (n : String) (lease : MaintenanceLease) :
    Prop :=
  Lapsed w.now n lease ∨
  match a with
  | .finishUpgradeMaintenance nodeId token => n = nodeId ∧ lease.token = token
  | .finishUninstallMaintenance nodeId _ _ => n = nodeId ∧ lookup u.manager n = none
  | .forget .. => lookup u.manager n = none
  | .wake index timedOut _ => ∃ d, w.waiting[index]? = some d ∧
      (d.call.kind = .forget ∧ lookup u.manager n = none ∨
        d.call.kind = .maintenance lease.token ∧
          d.call.GivesUp w.now timedOut w.manager n)
  | _ => False

/-- A step removes or shortens a lease only for one of these reasons. -/
def World.LeaseSafe (w : World) (a : Action) : Prop :=
  ∀ u, w.step a = some u → ∀ n r lease, lookup w.manager n = some r →
    r.maintenance = some lease → w.Ends a u n lease ∨
      ∃ r' lease', lookup u.manager n = some r' ∧ r'.maintenance = some lease' ∧
        lease'.token = lease.token ∧ lease.deadline ≤ lease'.deadline

/-- A maintenance call that gives up finds no lease of another call that still runs, and a
renewal does not ask for less than what is left. -/
def World.LeavesLeases (w : World) (a : Action) : Prop :=
  match a with
  | .wake index timedOut _ => ∀ d, w.waiting[index]? = some d → ∀ n r lease,
      d.call.GivesUp w.now timedOut w.manager n → lookup w.manager n = some r →
      r.maintenance = some lease → d.call.kind = .maintenance lease.token ∨ lease.deadline ≤ w.now
  | .renewUpgradeMaintenance nodeId token duration => ∀ r lease,
      lookup w.manager nodeId = some r → r.maintenance = some lease → lease.token = token →
      lease.deadline ≤ w.now + duration
  | _ => True

theorem leaseSafe_of_leavesLeases (h : w.Recoverable) (hok : w.LeavesLeases a) :
    w.LeaseSafe a := by
  intro u hs n r lease hr hlease
  refine ((World.step_proceeds h.sound hs).leases n r lease hr hlease).imp_left fun htouch => ?_
  rcases htouch with hlapsed | htouch
  · exact .inl hlapsed
  · cases a with
    | finishUpgradeMaintenance nodeId token => exact .inr htouch
    | finishUninstallMaintenance nodeId token saved => exact .inr htouch
    | forget selector revision timeout saved => exact .inr htouch
    | renewUpgradeMaintenance nodeId token duration =>
        obtain ⟨rfl, htoken, hlt⟩ := htouch
        have := hok r lease hr hlease htoken
        omega
    | wake index timedOut saved =>
        obtain ⟨d, hd, hforgotten | hgives⟩ := htouch
        · exact .inr ⟨d, hd, .inl hforgotten⟩
        · rcases hok d hd n r lease hgives hr hlease with hown | hlapsed
          · exact .inr ⟨d, hd, .inr ⟨hown, hgives⟩⟩
          · exact .inl hlapsed
    | _ => exact htouch.elim

/-- What a maintenance call that gives up leaves of the registration that it finds. -/
theorem reopened_of_givesUp {d : Waiting} {index : Nat} {timedOut saved : Bool}
    (h : w.manager.Sound) (hd : w.waiting[index]? = some d)
    (hs : w.step (.wake index timedOut saved) = some u)
    (hgives : d.call.GivesUp w.now timedOut w.manager n) :
    ∃ r', lookup u.manager n = some r' ∧ r'.maintenance = none := by
  obtain ⟨hm, i, r, hloc, rfl, hwhen⟩ := hgives
  have hi := (locate_eq_some hloc).1
  have hreopened : lookup (modifyAt w.manager i d.call.kind.reopen) r.nodeId =
      some (d.call.kind.reopen r) := by
    rw [lookup, modifyAt, h.distinct.get_modify hi (d.call.kind.reopen_nodeId r), if_pos rfl]
  have hnone : (d.call.kind.reopen r).maintenance = none := by
    simp [DrainKind.reopen, hm]
  refine ⟨d.call.kind.reopen r, ?_, hnone⟩
  rw [← hreopened]
  simp only [World.step, hd] at hs
  cases timedOut with
  | true =>
      rw [if_pos rfl] at hs
      split at hs
      next =>
        cases hs
        simp only [DrainCall.wakeTimedOut, hloc]
      next => cases hs
  | false =>
      obtain ⟨hrevision, hadmitted, hlate⟩ := hwhen.resolve_left Bool.false_ne_true
      have hturn : d.call.poll w.now w.manager saved =
          (some (.error drainTimedOut), modifyAt w.manager i d.call.kind.reopen) := by
        simp [DrainCall.poll, hloc, requireRevision, hrevision, hadmitted, hlate]
      rw [if_neg Bool.false_ne_true, hturn] at hs
      cases hs
      rfl

theorem leavesLeases_of_leaseSafe (h : w.Recoverable) (hs : w.step a = some u)
    (hsafe : w.LeaseSafe a) : w.LeavesLeases a := by
  cases a with
  | wake index timedOut saved =>
      intro d hd n r lease hgives hr hlease
      obtain ⟨r', hr', hnone⟩ := reopened_of_givesUp h.sound hd hs hgives
      rcases hsafe u hs n r lease hr hlease with hends | ⟨q, lease', hq, hlease', -⟩
      · rcases hends with hlapsed | ⟨d', hd', ⟨hkind, -⟩ | ⟨hown, -⟩⟩
        · exact .inr hlapsed
        · obtain rfl : d = d' := Option.some.inj (hd.symm.trans hd')
          have hm := hgives.1
          rw [hkind] at hm
          cases hm
        · obtain rfl : d = d' := Option.some.inj (hd.symm.trans hd')
          exact .inl hown
      · obtain rfl : r' = q := Option.some.inj (hr'.symm.trans hq)
        rw [hnone] at hlease'
        cases hlease'
  | renewUpgradeMaintenance nodeId token duration =>
      intro r lease hr hlease htoken
      by_contra hlonger
      have hnot : r.expired w.now = false := by
        simp only [Registration.expired, hlease, Option.any_some, decide_eq_false_iff_not]
        omega
      have hr' : lookup (expireMaintenance w.now w.manager) nodeId = some r := by
        rw [lookup_expireMaintenance, hr, Option.map_some, Registration.expire, hnot,
          if_neg Bool.false_ne_true]
      have hdistinct := (expireMaintenance_proceeds (C := fun _ => False) (G := fun _ => False)
        w.now h.sound).sound.distinct
      obtain ⟨i, hpos⟩ := hdistinct.position_eq hr'
      have hholds : r.holds token = true := by simp [Registration.holds, hlease, htoken]
      have hrenewed : lookup u.manager nodeId =
          some { r with maintenance := some ⟨token, w.now + duration⟩ } := by
        obtain ⟨hi, hn⟩ := position_eq_some hpos
        cases hs
        simp only [renewUpgradeMaintenance, hpos, hholds, Bool.true_eq_false, if_false]
        rw [lookup, modifyAt, hdistinct.get_modify hi rfl, if_pos hn]
      rcases hsafe u hs nodeId r lease hr hlease with hends | ⟨q, lease', hq, hlease', -, hle⟩
      · have hlapsed : lease.deadline ≤ w.now := hends.resolve_right id
        omega
      · rw [hrenewed] at hq
        cases hq
        cases hlease'
        exact hlonger hle
  | _ => trivial

/-! ## The theorem -/

/-- Observations are fresh, admission recovers, and the leases are safe, along a run. -/
structure World.FreshAndRecovered (w : World) (actions : List Action) : Prop where
  fresh : w.Fresh actions
  recovered : Along World.step World.Recovered w actions
  leases : Meets World.step World.LeaseSafe w actions

/-- Freshness and recovery hold in every run. The leases are safe exactly when no maintenance
call that gives up finds the lease of another. -/
theorem fresh_recovered_iff (h : w.Restored) (actions : List Action) :
    w.FreshAndRecovered actions ↔ Meets World.step World.LeavesLeases w actions := by
  have hstep : ∀ (s : World) (a : Action) (u : World), s.Recoverable → s.step a = some u →
      u.Recoverable := fun s a u hs hu => hs.step hu
  have hleases : Meets World.step World.LeaseSafe w actions ↔
      Meets World.step World.LeavesLeases w actions :=
    meets_congr hstep (fun s a u hs hu =>
      ⟨leavesLeases_of_leaseSafe hs hu, leaseSafe_of_leavesLeases hs⟩) h.recoverable
  constructor
  · exact fun hall => hleases.mp hall.leases
  · exact fun hmeets => ⟨h.recoverable.fresh actions,
      Along.of_invariant hstep (fun s hs => hs.recovered) h.recoverable, hleases.mpr hmeets⟩

theorem World.fresh_restored : World.fresh.Restored where
  loaded := ⟨0, 0, [], rfl⟩
  waiting := rfl
  admitted := rfl

private def aNodeId : String := "00000000-0000-0000-0000-000000000001"

/-- `NODE_REGISTRATION_DRAIN_TIMEOUT` and `NODE_UPGRADE_MAINTENANCE_LEASE`, in nanoseconds. -/
private def drainTimeout : Nat := 250000000
private def leaseDuration : Nat := 600000000000

/-- A Node is observed, upgraded, and observed again. -/
def upgradeRun : List Action :=
  [.add "a" "host" aNodeId "00000000-0000-0000-0000-000000000002" true,
   .observe ⟨aNodeId, "a", "host", 1, 0⟩,
   .beginUpgradeMaintenance "a" 1 drainTimeout leaseDuration true,
   .finishUpgradeMaintenance aNodeId 0,
   .withObservation ⟨aNodeId, "a", "host", 1, 0⟩ 0]

theorem fresh_recovered_iff_upgradeRun :
    World.fresh.FreshAndRecovered upgradeRun ∧
      (exec World.step World.fresh upgradeRun).isSome = true := by
  refine ⟨(fresh_recovered_iff World.fresh_restored upgradeRun).mpr ?_, by decide⟩
  exact fun _ _ => ⟨trivial, fun _ _ => ⟨trivial, fun _ _ => ⟨trivial, fun _ _ => ⟨trivial,
    fun _ _ => ⟨trivial, trivial⟩⟩⟩⟩⟩

/-- An upgrade waits for an admitted operation until its drain times out. Before it has the lock
again the operation ends, a forget removes the registration, the Node is added again and a second
upgrade begins; then the first one gives up. -/
def secondUpgradeRun : List Action :=
  [.add "a" "host" aNodeId "00000000-0000-0000-0000-000000000002" true,
   .admitOperation ⟨aNodeId, "a", "host", 1, 0⟩,
   .beginUpgradeMaintenance "a" 1 drainTimeout leaseDuration true,
   .tick 200000000,
   .forget "a" 1 drainTimeout true,
   .tick 50000000,
   .release 0,
   .wake 1 false true,
   .add "a" "host" aNodeId "00000000-0000-0000-0000-000000000002" true,
   .beginUpgradeMaintenance "a" 2 drainTimeout leaseDuration true]

/-- The first upgrade, token 0, ends the lease of the second, token 1. -/
theorem not_leaseSafe_secondUpgradeRun :
    ¬ ∀ (w : World) (actions : List Action), w.Restored → w.FreshAndRecovered actions := by
  intro hall
  have hrun : (exec World.step World.fresh secondUpgradeRun).map (fun w =>
      ((lookup w.manager aNodeId).map (·.maintenance),
        (w.step (.wake 0 true true)).map fun u => (lookup u.manager aNodeId).map (·.maintenance),
        w.waiting.map (·.call.kind), w.now)) =
      some (some (some ⟨1, 600250000000⟩), some (some none), [.maintenance 0], 250000000) := by
    decide
  obtain ⟨w, hw, he⟩ := Option.map_eq_some_iff.mp hrun
  simp only [Prod.mk.injEq] at he
  obtain ⟨hbefore, hafter, hwaiting, hnow⟩ := he
  obtain ⟨r, hr, hlease⟩ := Option.map_eq_some_iff.mp hbefore
  obtain ⟨u, hu, hcleared⟩ := Option.map_eq_some_iff.mp hafter
  have hsafe : w.LeaseSafe (.wake 0 true true) :=
    (hall World.fresh (secondUpgradeRun ++ [.wake 0 true true]) World.fresh_restored).leases.at_step
      hw hu
  rcases hsafe u hu aNodeId r _ hr hlease with hends | ⟨r', lease', hr', hlease', -⟩
  · rcases hends with hlapsed | ⟨d, hd, hkind⟩
    · simp only [Lapsed] at hlapsed
      omega
    · have hd' : (w.waiting.map (·.call.kind))[0]? = some d.call.kind := by
        rw [List.getElem?_map, hd]
        rfl
      rw [hwaiting] at hd'
      have hmaintenance : d.call.kind = .maintenance 0 := (Option.some.inj hd').symm
      rw [hmaintenance] at hkind
      rcases hkind with ⟨hforget, -⟩ | ⟨hown, -⟩
      · cases hforget
      · cases hown
  · rw [hr'] at hcleared
    rw [Option.map_some, hlease'] at hcleared
    cases hcleared

end Boomux.Nodes
