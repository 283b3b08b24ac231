import Boomux.Nodes.Admission

/-!
# Draining calls and admission

A call that drains a registration closes its admission and waits. `drain_exclusive` says what
the wait is worth: nothing is admitted on the registration before the call returns, and a
successful return finds nothing outstanding. The first part needs that no other step opens
the admission again (`NoReopen`): a lease that expires or is finished, and a call that gives
up, open it without looking at the calls that still wait.
-/

set_option autoImplicit false

namespace Boomux.Nodes

open Rust Transition

variable {s t : RegistrationState} {n : String} {r : Registration} {i now : Nat}
  {w u : World} {a : Action}

/-! ## What a step does to an admission -/

/-- The Nodes whose admission was closed and is open after `s'`. -/
def ClosedKept (O : String → Prop) (s s' : RegistrationState) : Prop :=
  ∀ n r', lookup s' n = some r' → ∃ r, lookup s n = some r ∧
    (r.admissionOpen = false → r'.admissionOpen = true → O n)

theorem Evolves.closedKept {O : String → Prop} (hd : s.Distinct) (h : Evolves O s t) :
    ClosedKept O s t := by
  intro n r' hr'
  obtain ⟨r, hr, hk⟩ := h.kept hd n r' hr'
  exact ⟨r, hr, hk.closed⟩

theorem ClosedKept.refl {O : String → Prop} : ClosedKept O s s :=
  fun _ r' hr' => ⟨r', hr', fun h1 h2 => by rw [h1] at h2; cases h2⟩

/-- Editing a registration without touching its admission. -/
theorem closedKept_modify {f : Registration → Registration} (hd : s.Distinct)
    (hi : s.registrations[i]? = some r) (hn : (f r).nodeId = r.nodeId)
    (ho : (f r).admissionOpen = r.admissionOpen) :
    ClosedKept (fun _ => False) s (modifyAt s i f) := by
  intro n r' hr'
  rw [lookup, modifyAt, hd.get_modify hi hn] at hr'
  split at hr'
  next he =>
    cases hr'
    subst he
    exact ⟨r, hd.lookup_of_getElem? hi, fun h1 h2 => by rw [ho, h1] at h2; cases h2⟩
  next => exact ClosedKept.refl (O := fun _ => False) n r' hr'

theorem admit_closedKept (hd : s.Distinct) (expected : NodeRegistrationSnapshot) :
    ClosedKept (Expiring now s) s (admitOperation now s expected).2 := by
  have hev := (evolves_expireMaintenance now s).closedKept hd
  by_cases hok : (admitOperation now s expected).1 = .ok true
  · obtain ⟨i, r, hpos, -, ht⟩ :=
      admit_true (t := (admitOperation now s expected).2) (Prod.ext hok rfl)
    intro n r' hr'
    rw [ht] at hr'
    have hde := (evolves_expireMaintenance now s).distinct hd
    obtain ⟨re, hre, hc⟩ := closedKept_modify (f := ({ · with admitted := r.admitted + 1 })) hde
      (position_eq_some hpos).1 rfl rfl n r' hr'
    obtain ⟨r0, hr0, hc0⟩ := hev n re hre
    refine ⟨r0, hr0, fun h1 h2 => hc0 h1 ?_⟩
    by_contra hne
    exact hc (by simpa using hne) h2
  · rw [admit_not_true hok]
    exact hev

theorem release_closedKept (hd : s.Distinct) (expected : NodeRegistrationSnapshot) :
    ClosedKept (fun _ => False) s (release s expected) := by
  rcases release_cases s expected with ⟨i, r, hi, -, -, hst⟩ | ⟨hst, -⟩
  · rw [hst]
    exact closedKept_modify hd hi rfl rfl
  · rw [hst]
    exact .refl

/-- After a step a registration is the one that its Node had before, and is open only if it was
or if the action may open it; or it has just been added. -/
theorem step_closedKept (h : w.Live) (hs : w.step a = some u) (n : String) (r' : Registration)
    (hr' : lookup u.manager n = some r') :
    (∃ r, lookup w.manager n = some r ∧ u.added n = w.added n ∧
        (r.admissionOpen = false → r'.admissionOpen = true → w.Reopens a n)) ∨
      u.added n = w.added n + 1 := by
  cases a with
  | admitOperation expected =>
      have hman : u.manager = (admitOperation w.now w.manager expected).2 ∧ u.added = w.added := by
        simp only [World.step] at hs
        split at hs
        next hadm => cases hs; rw [hadm]; exact ⟨rfl, rfl⟩
        next hadm => cases hs; rw [hadm]; exact ⟨rfl, rfl⟩
      rw [hman.1] at hr'
      obtain ⟨r, hr, hc⟩ := admit_closedKept h.distinct expected n r' hr'
      exact .inl ⟨r, hr, by rw [hman.2], hc⟩
  | release index =>
      obtain ⟨op, -, rfl⟩ := Option.map_eq_some_iff.mp hs
      obtain ⟨r, hr, hc⟩ := release_closedKept h.distinct op.snapshot n r' hr'
      exact .inl ⟨r, hr, rfl, fun h1 h2 => (hc h1 h2).elim⟩
  | add nodeAlias target nodeId localNodeId saved =>
      obtain rfl := Option.some.inj hs
      change lookup (add w.manager nodeAlias target nodeId localNodeId saved).2 n = some r' at hr'
      rcases add_cases (s := w.manager) nodeAlias target nodeId localNodeId saved with
        hst | ⟨r, revision, rfl, -, hnew, hst⟩
      · rw [hst] at hr'
        refine .inl ⟨r', hr', ?_, fun h1 h2 => by rw [h1] at h2; cases h2⟩
        rw [hst]
        simp
      · by_cases hn : n = r.nodeId
        · right
          change (if _ then _ else _) = _
          rw [if_pos]
          refine ⟨hn, ?_⟩
          rw [hst]
          simp
        · have hget : lookup (add w.manager nodeAlias target r.nodeId localNodeId saved).2 n
              = lookup w.manager n := by
            rw [hst]
            exact (Keyed.get_append_singleton hnew).trans (if_neg (Ne.symm hn))
          rw [hget] at hr'
          exact .inl ⟨r', hr', if_neg fun hc => hn hc.1, fun h1 h2 => by rw [h1] at h2; cases h2⟩
  | _ =>
      obtain ⟨hev, -, hadd⟩ := w.step_evolves h.distinct rfl hs
      obtain ⟨r, hr, hc⟩ := hev.closedKept h.distinct n r' hr'
      exact .inl ⟨r, hr, by rw [hadd], hc⟩

/-! ## The calls that wait -/

/-- A call that waits after a step waited before it, or it is the one that the action started
and its registration is closed. A call whose own turn it was leaves the manager alone. -/
def StillWaiting (w u : World) (a : Action) (d : Waiting) : Prop :=
  (∃ j, w.waiting[j]? = some d ∧ ∀ i timedOut saved, a = .wake i timedOut saved → i ≠ j) ∨
    (d ∈ w.waiting ∧ u.manager = w.manager ∧ u.added = w.added) ∨
    d.born = u.added d.nodeId ∧
      ∀ r', lookup u.manager d.nodeId = some r' → r'.admissionOpen = false

theorem stillWaiting_of_mem {d : Waiting} (hd : d ∈ w.waiting)
    (ha : ∀ i timedOut saved, a ≠ .wake i timedOut saved) : StillWaiting w u a d := by
  obtain ⟨j, hj⟩ := List.mem_iff_getElem?.mp hd
  exact .inl ⟨j, hj, fun i t s he => absurd he (ha i t s)⟩

theorem start_stillWaiting (h : w.Live) {call : DrainCall} {begun : Call Nat} {saved : Bool}
    (hst : w.starts a = some (call, begun, saved)) {d : Waiting}
    (hmem : d ∈ (w.start call begun saved).waiting)
    (hman : u.manager = (w.start call begun saved).manager) (hadd : u.added = w.added)
    (ha : ∀ i timedOut saved, a ≠ .wake i timedOut saved) : StillWaiting w u a d := by
  have hdis := (starts_evolves hst).distinct h.distinct
  obtain ⟨result, t⟩ := begun
  cases result with
  | error e => exact stillWaiting_of_mem hmem ha
  | ok i =>
      obtain ⟨-, r', -, hloc, -, hclosed, -⟩ := starts_ok hst
      have hi := (locate_eq_some hloc).1
      rw [World.start_manager hi] at hman
      simp only [World.start, hi] at hmem
      split at hmem
      · exact stillWaiting_of_mem hmem ha
      next t' hp =>
        rcases List.mem_append.mp hmem with hmem | hmem
        · exact stillWaiting_of_mem hmem ha
        · obtain rfl := List.mem_singleton.mp hmem
          refine .inr (.inr ⟨by rw [hadd], fun r'' hr'' => ?_⟩)
          rw [hman, call.poll_none (by rw [hp]), hdis.lookup_of_getElem? hi] at hr''
          cases hr''
          exact hclosed

theorem wake_stillWaiting {index : Nat} {timedOut saved : Bool}
    (hs : w.step (.wake index timedOut saved) = some u) {d : Waiting} (hd : d ∈ u.waiting) :
    StillWaiting w u (.wake index timedOut saved) d := by
  have herase : d ∈ w.waiting.eraseIdx index →
      StillWaiting w u (.wake index timedOut saved) d := by
    intro hmem
    obtain ⟨j, hj, hdj⟩ := List.mem_eraseIdx_iff_getElem?.mp hmem
    exact .inl ⟨j, hdj, fun i t s he => by cases he; exact hj.symm⟩
  simp only [World.step] at hs
  split at hs
  · cases hs
  next d' hw =>
    split at hs
    · split at hs
      · cases hs
        exact herase hd
      · cases hs
    · split at hs
      · cases hs
        exact herase hd
      next hp =>
        cases hs
        refine .inr (.inl ⟨hd, ?_, rfl⟩)
        have hkeep : (d'.call.poll w.now w.manager saved).2 = w.manager :=
          d'.call.poll_none (by rw [hp])
        rwa [hp] at hkeep

theorem step_stillWaiting (h : w.Live) (hs : w.step a = some u) {d : Waiting}
    (hd : d ∈ u.waiting) : StillWaiting w u a d := by
  cases a with
  | wake index timedOut saved => exact wake_stillWaiting hs hd
  | retarget selector target nodeId revision timeout saved =>
      simp only [World.step] at hs
      split at hs <;> cases hs
      · exact stillWaiting_of_mem hd (by simp)
      next hst => exact start_stillWaiting h hst hd rfl World.start_ghosts.2 (by simp)
  | forget selector revision timeout saved =>
      simp only [World.step] at hs
      split at hs <;> cases hs
      · exact stillWaiting_of_mem hd (by simp)
      next hst => exact start_stillWaiting h hst hd rfl World.start_ghosts.2 (by simp)
  | beginUpgradeMaintenance selector revision timeout lease idle =>
      simp only [World.step] at hs
      split at hs <;> cases hs
      · exact stillWaiting_of_mem hd (by simp)
      next hst => exact start_stillWaiting h hst hd rfl World.start_ghosts.2 (by simp)
  | admitOperation expected =>
      simp only [World.step] at hs
      split at hs <;> cases hs <;> exact stillWaiting_of_mem hd (by simp)
  | release index =>
      obtain ⟨op, -, rfl⟩ := Option.map_eq_some_iff.mp hs
      exact stillWaiting_of_mem (w := w) hd (by simp)
  | _ =>
      cases hs
      exact stillWaiting_of_mem (w := w) hd (by simp)

theorem step_added_le (h : w.Live) (hs : w.step a = some u) (n : String) :
    w.added n ≤ u.added n := by
  cases a with
  | admitOperation expected =>
      simp only [World.step] at hs
      split at hs <;> cases hs <;> rfl
  | release index =>
      obtain ⟨op, -, rfl⟩ := Option.map_eq_some_iff.mp hs
      rfl
  | add nodeAlias target nodeId localNodeId saved =>
      cases hs
      dsimp only
      split <;> omega
  | _ => rw [(w.step_evolves h.distinct rfl hs).2.2]

/-! ## The invariant -/

/-- No admission that a waiting call closed is opened by a step that is not that call's own. -/
def NoReopen (w : World) (a : Action) : Prop :=
  ∀ j d, w.waiting[j]? = some d → (∀ i timedOut saved, a = .wake i timedOut saved → i ≠ j) →
    (∃ r, w.Drains d r) → ¬ w.Reopens a d.nodeId

/-- Every waiting call finds the admission of its registration closed. -/
structure World.Closed (w : World) : Prop extends World.Live w where
  closed : ∀ d ∈ w.waiting, ∀ r, w.Drains d r → r.admissionOpen = false
  bornLe : ∀ d ∈ w.waiting, d.born ≤ w.added d.nodeId

theorem World.Loaded.closed (h : w.Loaded) : w.Closed where
  toLive := h.live
  closed := by simp [h.waiting]
  bornLe := by simp [h.waiting]

theorem World.Closed.step (h : w.Closed) (ha : NoReopen w a) (hs : w.step a = some u) :
    u.Closed := by
  refine ⟨h.toLive.step hs, fun d hd r' hdr => ?_, fun d hd => ?_⟩
  · rcases step_stillWaiting h.toLive hs hd with ⟨j, hj, hown⟩ | ⟨hmem, hman, hadd⟩ | ⟨-, hnew⟩
    · have hmem := List.mem_of_getElem? hj
      rcases step_closedKept h.toLive hs d.nodeId r' hdr.1 with ⟨r, hr, hadd, hc⟩ | hadd
      · have hdrw : w.Drains d r := ⟨hr, by rw [← hadd]; exact hdr.2⟩
        by_contra hopen
        exact ha j d hj hown ⟨r, hdrw⟩ (hc (h.closed d hmem r hdrw) (by simpa using hopen))
      · -- the Node was added again, so the call waits on an earlier registration
        have h1 := h.bornLe d hmem
        have h2 := hdr.2
        omega
    · refine h.closed d hmem r' ⟨?_, ?_⟩
      · rw [← hman]
        exact hdr.1
      · rw [← hadd]
        exact hdr.2
    · exact hnew r' hdr.1
  · have hle := step_added_le h.toLive hs d.nodeId
    rcases step_stillWaiting h.toLive hs hd with ⟨j, hj, -⟩ | ⟨hmem, -⟩ | ⟨hb, -⟩
    · have := h.bornLe d (List.mem_of_getElem? hj)
      omega
    · have := h.bornLe d hmem
      omega
    · exact hb.le

/-! ## Exclusion -/

/-- The draining call whose turn of the loop an action is, with the state it finds. -/
def World.turn (w : World) (a : Action) : Option (DrainCall × RegistrationState × Bool) :=
  match a with
  | .wake index false saved => w.waiting[index]?.map fun d => (d.call, w.manager, saved)
  | a =>
      match w.starts a with
      | some (call, (.ok _, t), saved) => some (call, t, saved)
      | _ => none

/-- Nothing is admitted on a registration that a waiting call drains, and a call that returns
successfully finds no operation outstanding. -/
structure World.Exclusive (w : World) (a : Action) : Prop where
  admits : ∀ expected, a = .admitOperation expected →
    (admitOperation w.now w.manager expected).1 = .ok true →
      ∀ d ∈ w.waiting, d.nodeId = expected.nodeId → d.born ≠ w.added d.nodeId
  drained : ∀ call t saved snapshot, w.turn a = some (call, t, saved) →
    (call.poll w.now t saved).1 = some (.ok snapshot) → w.outstanding snapshot.nodeId = 0

theorem DrainCall.commit_nodeId {call : DrainCall} {saved : Bool}
    {snapshot : NodeRegistrationSnapshot} (h : (call.commit s i r saved).1 = .ok snapshot) :
    snapshot.nodeId = r.nodeId := by
  unfold DrainCall.commit at h
  split at h
  · cases h; rfl
  · split at h
    · cases h
    next result t hmut =>
      have hn : result.nodeId = r.nodeId := by
        unfold DrainKind.mutate at hmut
        split at hmut
        · split at hmut
          · cases hmut
          split at hmut
          · cases hmut; rfl
          split at hmut
          · cases hmut
          split at hmut
          · cases hmut
          · cases hmut; rfl
        · split at hmut
          · cases hmut
          · cases hmut; rfl
        · cases hmut; rfl
      split at h
      · split at h <;> cases h <;> exact hn
      · cases h

theorem DrainCall.poll_ok {call : DrainCall} {saved : Bool}
    {snapshot : NodeRegistrationSnapshot}
    (h : (call.poll now s saved).1 = some (.ok snapshot)) :
    ∃ i r, findIndex s call.selector = some (i, r) ∧ r.admitted = 0 ∧
      snapshot.nodeId = r.nodeId := by
  unfold DrainCall.poll at h
  split at h
  · cases h
  next i r hloc =>
    split at h
    · cases h
    split at h
    next h0 => exact ⟨i, r, hloc, h0, DrainCall.commit_nodeId (Option.some.inj h)⟩
    · split at h <;> cases h

/-- A call that returns successfully does so with nothing outstanding, in every reachable
world. -/
theorem World.Live.drained (h : w.Live) {call : DrainCall} {saved : Bool}
    {snapshot : NodeRegistrationSnapshot} (ht : w.turn a = some (call, t, saved))
    (hp : (call.poll w.now t saved).1 = some (.ok snapshot)) :
    w.outstanding snapshot.nodeId = 0 := by
  obtain ⟨i, r, hloc, h0, hn⟩ := DrainCall.poll_ok hp
  rw [hn]
  unfold World.turn at ht
  split at ht
  · obtain ⟨d, -, he⟩ := Option.map_eq_some_iff.mp ht
    obtain ⟨rfl, rfl, rfl⟩ : _ ∧ _ ∧ _ := by simpa using he
    exact h.outstanding_eq_zero (h.distinct.lookup_of_getElem? (locate_eq_some hloc).1) h0
  · split at ht
    next hst =>
      obtain ⟨rfl, rfl, rfl⟩ : _ ∧ _ ∧ _ := by simpa using ht
      obtain ⟨re, rt, hloce, hloct, hne, -, hadm, -⟩ := starts_ok hst
      obtain ⟨rfl, rfl⟩ : _ ∧ rt = r := by simpa [hloct] using hloc
      obtain ⟨r0, hr0, rfl⟩ := getElem?_expireMaintenance (locate_eq_some hloce).1
      rw [hne, Registration.expire_nodeId]
      refine h.outstanding_eq_zero (h.distinct.lookup_of_getElem? hr0) ?_
      rw [← Registration.expire_admitted w.now, ← hadm, h0]
    · cases ht

/-- **Draining excludes admission.** In a run in which no step reopens an admission that another
call is draining, no operation is admitted on a registration between the closing of its
admission and the return of the call, and every successful return finds nothing outstanding. -/
theorem drain_exclusive {w₀ : World} (h : w₀.Loaded) (hr : Reach World.step NoReopen w₀ w)
    (ha : NoReopen w a) : w.Exclusive a := by
  have hc : w.Closed := hr.invariant h.closed fun t b v ht hb hs => ht.step hb hs
  refine ⟨?_, fun call t saved snapshot ht hp => hc.toLive.drained ht hp⟩
  rintro expected rfl hok d hd hn hborn
  obtain ⟨i, r, hpos, hopen, -⟩ := admit_true (t := (admitOperation w.now w.manager expected).2)
    (Prod.ext hok rfl)
  obtain ⟨hi, hnr⟩ := position_eq_some hpos
  obtain ⟨r0, hr0, rfl⟩ := getElem?_expireMaintenance hi
  have hget : lookup w.manager d.nodeId = some r0 := by
    rw [hn, ← hnr, Registration.expire_nodeId]
    exact hc.distinct.lookup_of_getElem? hr0
  have hdr : w.Drains d r0 := ⟨hget, hborn.symm⟩
  obtain ⟨j, hj⟩ := List.mem_iff_getElem?.mp hd
  refine ha j d hj nofun ⟨r0, hdr⟩ ⟨r0, hget, ?_⟩
  by_contra hne
  rw [Registration.expire, if_neg hne, hc.closed d hd r0 hdr] at hopen
  cases hopen

theorem noReopen_of_waiting (h : w.waiting = []) : NoReopen w a := by
  intro j d hj
  rw [h] at hj
  cases hj

/-- An operation is admitted, and a forget waits for it. -/
def forgetRun : List Action :=
  [.add "a" "host" "00000000-0000-0000-0000-000000000001" "00000000-0000-0000-0000-000000000002"
     true,
   .admitOperation ⟨"00000000-0000-0000-0000-000000000001", "a", "host", 1, 0⟩,
   .forget "a" 1 250 true]

theorem drain_exclusive_forgetRun :
    ∃ w, exec World.step World.fresh forgetRun = some w ∧ w.waiting.length = 1 ∧
      w.Exclusive (.admitOperation ⟨"00000000-0000-0000-0000-000000000001", "a", "host", 1,
        0⟩) := by
  have hrun : (exec World.step World.fresh forgetRun).map (fun w => (w.waiting.length,
      (lookup w.manager "00000000-0000-0000-0000-000000000001").map (·.maintenance),
      w.waiting.map (·.nodeId))) =
        some (1, some none, ["00000000-0000-0000-0000-000000000001"]) := by
    decide
  obtain ⟨w, hw, he⟩ := Option.map_eq_some_iff.mp hrun
  obtain ⟨hlen, he⟩ := Prod.mk.inj he
  obtain ⟨hlease, hnode⟩ := Prod.mk.inj he
  obtain ⟨r', hr', hm⟩ := Option.map_eq_some_iff.mp hlease
  refine ⟨w, hw, hlen, drain_exclusive World.fresh_loaded (reach_of_exec ?_ hw) ?_⟩
  · refine fun u hu => ⟨noReopen_of_waiting rfl, fun u' hu' => ⟨noReopen_of_waiting ?_,
      fun u'' hu'' => ⟨noReopen_of_waiting ?_, trivial⟩⟩⟩
    · cases hu; rfl
    · simp only [World.step] at hu'
      split at hu' <;> cases hu' <;> cases hu <;> rfl
  · rintro j d hj - - ⟨r, hr, hexp⟩
    have hd := List.mem_map_of_mem (f := (·.nodeId)) (List.mem_of_getElem? hj)
    rw [hnode, List.mem_singleton] at hd
    rw [hd, hr'] at hr
    cases hr
    simp [Registration.expired, hm] at hexp

/-- A maintenance begin and a forget wait for one admitted operation; the maintenance begin
gives up first. -/
def reopenRun : List Action :=
  [.add "a" "host" "00000000-0000-0000-0000-000000000001" "00000000-0000-0000-0000-000000000002"
     true,
   .admitOperation ⟨"00000000-0000-0000-0000-000000000001", "a", "host", 1, 0⟩,
   .beginUpgradeMaintenance "a" 1 250 600000 true,
   .tick 100,
   .forget "a" 1 250 true,
   .tick 150,
   .wake 0 true true]

/-- After `reopenRun` a second operation is admitted while the forget still waits. -/
theorem not_exclusive_reopenRun :
    ¬ ∀ (w₀ w : World) (a : Action), w₀.Loaded →
      Reach World.step (fun _ _ => True) w₀ w → w.Exclusive a := by
  intro hall
  have hrun : (exec World.step World.fresh reopenRun).map (fun w => (w.waiting.map (·.call.kind),
      w.waiting.all fun d => d.nodeId = "00000000-0000-0000-0000-000000000001" ∧
        d.born = w.added d.nodeId,
      (admitOperation w.now w.manager
        ⟨"00000000-0000-0000-0000-000000000001", "a", "host", 1, 0⟩).1.toOption)) =
      some ([.forget], true, some true) := by
    decide
  obtain ⟨w, hw, he⟩ := Option.map_eq_some_iff.mp hrun
  obtain ⟨hkind, hall', hadm⟩ : _ ∧ _ ∧ _ := by simpa using he
  have hex := hall World.fresh w
    (.admitOperation ⟨"00000000-0000-0000-0000-000000000001", "a", "host", 1, 0⟩) World.fresh_loaded
    (reach_of_exec_true hw)
  cases hwait : w.waiting with
  | nil => simp [hwait] at hkind
  | cons d ds =>
      have hd : d ∈ w.waiting := by simp [hwait]
      obtain ⟨hn, hb⟩ := hall' d hd
      refine hex.admits _ rfl ?_ d hd hn hb
      cases hr : (admitOperation w.now w.manager
          ⟨"00000000-0000-0000-0000-000000000001", "a", "host", 1, 0⟩).1 with
      | error e => simp [hr] at hadm
      | ok b => simpa [hr, Except.toOption] using hadm

end Boomux.Nodes
