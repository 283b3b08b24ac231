import Boomux.Nodes.Evolution
import Mathlib.Data.List.Perm.Basic

/-!
# One step of the registration world

`World.Reopens w a n` names the Nodes whose admission the action `a` may open, read off the state
before the step. `World.step_evolves` says that every action except `admitOperation`, `release` and
`add` evolves the manager within it and leaves the ghosts alone.
-/

set_option autoImplicit false

namespace Boomux.Nodes

open Rust

variable {s t : RegistrationState} {n : String} {r : Registration} {i now : Nat}
  {w u : World} {a : Action}

/-! ## Starting a draining call -/

theorem findIdx?_modify {α : Type*} {p : α → Bool} {f : α → α} (hp : ∀ a, p (f a) = p a)
    (l : List α) (i : Nat) : (l.modify i f).findIdx? p = l.findIdx? p := by
  induction l generalizing i with
  | nil => simp
  | cons b l ih =>
      cases i with
      | zero => rw [List.modify_zero_cons, List.findIdx?_cons, List.findIdx?_cons, hp]
      | succ i => rw [List.modify_succ_cons, List.findIdx?_cons, List.findIdx?_cons, ih]

/-- Editing the located registration does not change what is located. -/
theorem locate_modifyAt {p : Registration → Bool} {f : Registration → Registration}
    (hp : ∀ r, p (f r) = p r) (h : locate p s = some (i, r)) :
    locate p (modifyAt s i f) = some (i, f r) := by
  obtain ⟨hi, -⟩ := locate_eq_some h
  obtain ⟨j, hj, hr⟩ := Option.bind_eq_some_iff.mp h
  obtain ⟨r', -, he⟩ := Option.map_eq_some_iff.mp hr
  obtain ⟨rfl, rfl⟩ := Prod.mk.inj he
  have hidx : (s.registrations.modify j f).findIdx? p = some j :=
    (findIdx?_modify hp _ _).trans hj
  simp [locate, modifyAt, hidx, hi]

theorem beginDrain_ok {kind : DrainKind} {selector : String} {revision : Nat}
    (h : beginDrain now s kind selector revision = (.ok i, t)) :
    ∃ r epoch, findIndex (expireMaintenance now s) selector = some (i, r) ∧
      (r.admissionOpen = true ∨ r.maintenance.isSome = true) ∧
      t = modifyAt (expireMaintenance now s) i
        ({ · with admissionEpoch := epoch, admissionOpen := false }) := by
  unfold beginDrain at h
  dsimp only at h
  split at h
  · cases h
  next j r hloc =>
    split at h
    · cases h
    split at h
    · cases h
    next hbusy =>
      split at h
      · cases h
      next epoch _ =>
        cases h
        refine ⟨r, epoch, hloc, ?_, rfl⟩
        by_contra hcon
        simp_all

theorem beginMaintenance_ok {selector : String} {revision lease token : Nat} {idle : Bool}
    (h : beginMaintenance now s selector revision lease token idle = (.ok i, t)) :
    ∃ r epoch, findIndex (expireMaintenance now s) selector = some (i, r) ∧
      r.admissionOpen = true ∧
      t = modifyAt (expireMaintenance now s) i ({ · with
        admissionEpoch := epoch
        admissionOpen := false
        maintenance := some ⟨token, now + lease⟩ }) := by
  unfold beginMaintenance at h
  dsimp only at h
  split at h
  · cases h
  split at h
  · cases h
  next j r hloc =>
    split at h
    · cases h
    split at h
    · cases h
    next hopen =>
      split at h
      · cases h
      next epoch _ =>
        cases h
        exact ⟨r, epoch, hloc, by simpa using hopen, rfl⟩

/-- What an action that starts a draining call has done when the loop begins: the call finds
the registration it has just closed, which was open unless the call bypasses its lease. -/
theorem starts_ok {call : DrainCall} {saved : Bool}
    (h : w.starts a = some (call, (.ok i, t), saved)) :
    ∃ r r', findIndex (expireMaintenance w.now w.manager) call.selector = some (i, r) ∧
      findIndex t call.selector = some (i, r') ∧ r'.nodeId = r.nodeId ∧
      r'.admissionOpen = false ∧ r'.admitted = r.admitted ∧ ¬ call.deadline < w.now ∧
      (r.admissionOpen = true ∨ call.kind.isMaintenance = false ∧ r'.maintenance.isSome = true)
      := by
  unfold World.starts at h
  split at h
  · split at h
    · obtain ⟨rfl, hb, -⟩ : _ ∧ _ ∧ _ := by simpa using h
      obtain ⟨r, epoch, hloc, hopen, rfl⟩ := beginDrain_ok hb
      refine ⟨r, _, hloc, locate_modifyAt (fun _ => rfl) hloc, rfl, rfl, rfl, by simp, ?_⟩
      exact hopen.imp_right fun h => ⟨rfl, h⟩
    · cases h
  · obtain ⟨rfl, hb, -⟩ : _ ∧ _ ∧ _ := by simpa using h
    obtain ⟨r, epoch, hloc, hopen, rfl⟩ := beginDrain_ok hb
    refine ⟨r, _, hloc, locate_modifyAt (fun _ => rfl) hloc, rfl, rfl, rfl, by simp, ?_⟩
    exact hopen.imp_right fun h => ⟨rfl, h⟩
  · obtain ⟨rfl, hb, -⟩ : _ ∧ _ ∧ _ := by simpa using h
    obtain ⟨r, epoch, hloc, hopen, rfl⟩ := beginMaintenance_ok hb
    exact ⟨r, _, hloc, locate_modifyAt (fun _ => rfl) hloc, rfl, rfl, rfl, by simp, .inl hopen⟩
  · cases h

theorem starts_evolves {call : DrainCall} {begun : Call Nat} {saved : Bool}
    (h : w.starts a = some (call, begun, saved)) :
    Evolves (Expiring w.now w.manager) w.manager begun.2 := by
  unfold World.starts at h
  split at h
  · split at h
    · obtain ⟨-, rfl, -⟩ : _ ∧ _ ∧ _ := by simpa using h
      exact beginDrain_evolves _ _ _
    · cases h
  · obtain ⟨-, rfl, -⟩ : _ ∧ _ ∧ _ := by simpa using h
    exact beginDrain_evolves _ _ _
  · obtain ⟨-, rfl, -⟩ : _ ∧ _ ∧ _ := by simpa using h
    exact beginMaintenance_evolves _ _ _ _ _
  · cases h

/-- The first turn opens only an admission that was open before the call. -/
theorem starts_opens {call : DrainCall} {saved : Bool} (hd : w.manager.Distinct)
    (h : w.starts a = some (call, (.ok i, t), saved)) (ho : call.Opens t (call.Ends w.now) n)
    (hr : lookup w.manager n = some r) (hclosed : r.admissionOpen = false) :
    Expiring w.now w.manager n := by
  obtain ⟨re, rt, hloc, hloct, hn, -, -, hdead, hopen⟩ := starts_ok h
  obtain ⟨j, r', hlocj, hn', hk, -, hends⟩ := ho
  obtain ⟨rfl, rfl⟩ : i = j ∧ rt = r' := by simpa [hloct] using hlocj
  have hm : call.kind.isMaintenance = false :=
    hends.elim (fun h => h.2) fun h => absurd h.2 hdead
  have hopen' : re.admissionOpen = true := by
    refine hopen.resolve_right fun h => ?_
    rw [hk.resolve_left (by simp [hm])] at h
    exact Bool.noConfusion h.2
  obtain ⟨r0, hr0, rfl⟩ := getElem?_expireMaintenance (locate_eq_some hloc).1
  have hget := hd.lookup_of_getElem? hr0
  rw [← Registration.expire_nodeId w.now, ← hn, hn', hr] at hget
  cases hget
  refine ⟨r, hr, ?_⟩
  by_contra hne
  rw [Registration.expire, if_neg hne, hclosed] at hopen'
  cases hopen'

/-- The manager after the first critical section of a draining call. -/
theorem World.start_manager {call : DrainCall} {saved : Bool} {r' : Registration}
    (hi : t.registrations[i]? = some r') :
    (w.start call (.ok i, t) saved).manager = (call.poll w.now t saved).2 := by
  simp only [World.start, hi]
  cases hp : call.poll w.now t saved with
  | mk result t' => cases result <;> rfl

theorem World.start_ghosts {call : DrainCall} {begun : Call Nat} {saved : Bool} :
    (w.start call begun saved).admitted = w.admitted ∧
      (w.start call begun saved).added = w.added := by
  unfold World.start
  split
  · exact ⟨rfl, rfl⟩
  · split
    · exact ⟨rfl, rfl⟩
    · split <;> exact ⟨rfl, rfl⟩

/-! ## Which admissions an action may open -/

/-- The Nodes whose admission an action may open, other than by adding a registration. A rename or
a retarget that fails its validation does not look at the leases. -/
def World.Reopens (w : World) (a : Action) (n : String) : Prop :=
  match a with
  | .tick _ | .release _ | .add .. => False
  | .rename _ nodeAlias _ _ => (validateAlias nodeAlias).isOk = true ∧ Expiring w.now w.manager n
  | .retarget .. => (w.starts a).isSome = true ∧ Expiring w.now w.manager n
  | .finishUpgradeMaintenance nodeId token =>
      Expiring w.now w.manager n ∨ ∃ r, lookup (expireMaintenance w.now w.manager) n = some r ∧
        n = nodeId ∧ r.holds token = true
  | .wake index timedOut _ =>
      ∃ d, w.waiting[index]? = some d ∧
        d.call.Opens w.manager (fun r => timedOut = true ∨ d.call.Ends w.now r) n
  | _ => Expiring w.now w.manager n

/-- The actions whose effect on the registrations is not an evolution. -/
def Action.counts : Action → Bool
  | .admitOperation _ | .release _ | .add .. => true
  | _ => false

theorem World.start_evolves {call : DrainCall} {begun : Call Nat} {saved : Bool}
    (hd : w.manager.Distinct) (h : w.starts a = some (call, begun, saved)) :
    Evolves (Expiring w.now w.manager) w.manager (w.start call begun saved).manager := by
  have hbeg := starts_evolves h
  obtain ⟨result, t⟩ := begun
  cases result with
  | error e => exact hbeg
  | ok i =>
      obtain ⟨re, rt, hloc, hloct, -⟩ := starts_ok h
      rw [World.start_manager (locate_eq_some hloct).1]
      have hall := hbeg.trans (call.poll_evolves w.now _ saved)
      refine ⟨hall.distinct, hall.removed, fun _ n r' hr' => ?_⟩
      obtain ⟨r, hr, hk⟩ := hall.kept hd n r' hr'
      refine ⟨r, hr, hk.admitted, fun h1 h2 => ?_⟩
      exact (hk.closed h1 h2).elim id fun ho => starts_opens hd h ho hr h1

/-- Every action that neither admits, releases nor adds evolves the manager, opens no more
than `World.Reopens` allows, and leaves the operations and the additions alone. -/
theorem World.step_evolves (hd : w.manager.Distinct) (ha : a.counts = false)
    (h : w.step a = some u) :
    Evolves (w.Reopens a) w.manager u.manager ∧ u.admitted = w.admitted ∧ u.added = w.added := by
  cases a with
  | tick duration => cases h; exact ⟨.refl, rfl, rfl⟩
  | observe expected => cases h; exact ⟨observe_evolves expected, rfl, rfl⟩
  | withCurrent expected => cases h; exact ⟨withCurrent_evolves expected, rfl, rfl⟩
  | withObservation expected epoch =>
      cases h; exact ⟨withObservation_evolves expected epoch, rfl, rfl⟩
  | hasActiveUpgradeMaintenance => cases h; exact ⟨evolves_expireMaintenance _ _, rfl, rfl⟩
  | admitOperation expected => cases ha
  | release index => cases ha
  | add nodeAlias target nodeId localNodeId saved => cases ha
  | rename selector nodeAlias revision saved =>
      cases h; exact ⟨rename_evolves selector nodeAlias revision saved, rfl, rfl⟩
  | retarget selector target nodeId revision timeout saved =>
      simp only [World.step] at h
      split at h
      -- A call that fails at once changes no registration.
      · cases h; exact ⟨.refl, rfl, rfl⟩
      next hs =>
        cases h
        exact ⟨(World.start_evolves hd hs).mono fun n hn => ⟨by rw [hs]; rfl, hn⟩,
          World.start_ghosts⟩
  | forget selector revision timeout saved =>
      simp only [World.step] at h
      split at h
      · cases h; exact ⟨.refl, rfl, rfl⟩
      next hs => cases h; exact ⟨World.start_evolves hd hs, World.start_ghosts⟩
  | beginUpgradeMaintenance selector revision timeout lease idle =>
      simp only [World.step] at h
      split at h
      · cases h; exact ⟨.refl, rfl, rfl⟩
      next hs => cases h; exact ⟨World.start_evolves hd hs, World.start_ghosts⟩
  | finishUpgradeMaintenance nodeId token =>
      cases h; exact ⟨finishUpgradeMaintenance_evolves nodeId token, rfl, rfl⟩
  | finishUninstallMaintenance nodeId token saved =>
      cases h; exact ⟨finishUninstallMaintenance_evolves nodeId token saved, rfl, rfl⟩
  | renewUpgradeMaintenance nodeId token lease =>
      cases h; exact ⟨renewUpgradeMaintenance_evolves nodeId token lease, rfl, rfl⟩
  | wake index timedOut saved =>
      simp only [World.step] at h
      split at h
      · cases h
      next d hw =>
        split at h
        next ht =>
          split at h
          · cases h
            refine ⟨d.call.wakeTimedOut_evolves.mono fun n => ?_, rfl, rfl⟩
            rintro ⟨i, r, hloc, hn, hk, -⟩
            exact ⟨d, hw, i, r, hloc, hn, hk, .inl ht⟩
          · cases h
        · have hev : Evolves (w.Reopens (.wake index timedOut saved)) w.manager
              (d.call.poll w.now w.manager saved).2 := by
            refine (d.call.poll_evolves w.now w.manager saved).mono fun n => ?_
            rintro ⟨i, r, hloc, hn, hk, he⟩
            exact ⟨d, hw, i, r, hloc, hn, hk, .inr he⟩
          split at h
          next hp => cases h; rw [hp] at hev; exact ⟨hev, rfl, rfl⟩
          next hp => cases h; rw [hp] at hev; exact ⟨hev, rfl, rfl⟩

end Boomux.Nodes
