import Boomux.Nodes.Steps

/-!
# The admitted counter

`World.Live` holds in every reachable world: an operation that is not yet released belongs to
the present registration of its Node, and no counter is below the number of operations that
are outstanding on it. The counters are exact as long as every `release` still finds the
revision that its operation was admitted under; a `rename` in between breaks that, and from
then on the counter stays above zero for ever (`admission_exact_iff`).
-/

set_option autoImplicit false

namespace Boomux.Nodes

open Rust Transition

variable {s t : RegistrationState} {n : String} {r : Registration} {i now : Nat}
  {w u : World} {a : Action}

/-! ## Admitting, releasing and adding -/

theorem admit_true {expected : NodeRegistrationSnapshot}
    (h : admitOperation now s expected = (.ok true, t)) :
    ∃ i r, position (expireMaintenance now s) expected.nodeId = some (i, r) ∧
      r.admissionOpen = true ∧
      t = modifyAt (expireMaintenance now s) i ({ · with admitted := r.admitted + 1 }) := by
  unfold admitOperation at h
  dsimp only at h
  split at h
  · cases h
  next j r hpos =>
    split at h
    · cases h
    next hguard =>
      split at h
      · cases h
      next m hm =>
        cases h
        obtain ⟨-, rfl⟩ := checkedAdd_eq_some.mp hm
        refine ⟨j, r, hpos, ?_, rfl⟩
        by_contra hcon
        exact hguard (.inr (.inr (by simpa using hcon)))

theorem admit_not_true {expected : NodeRegistrationSnapshot}
    (h : (admitOperation now s expected).1 ≠ .ok true) :
    (admitOperation now s expected).2 = expireMaintenance now s := by
  unfold admitOperation at h ⊢
  dsimp only at h ⊢
  split
  · rfl
  next hpos =>
    rw [hpos] at h
    dsimp only at h
    split
    · rfl
    next hguard =>
      rw [if_neg hguard] at h
      split
      · rfl
      next hm => simp [hm] at h

theorem add_cases (nodeAlias target nodeId localNodeId : String) (saved : Bool) :
    (add s nodeAlias target nodeId localNodeId saved).2 = s ∨
      ∃ r revision, r.nodeId = nodeId ∧ r.admitted = 0 ∧ lookup s nodeId = none ∧
        (add s nodeAlias target nodeId localNodeId saved).2 =
          { s with revision, registrations := s.registrations ++ [r] } := by
  unfold add
  split
  · exact .inl rfl
  · exact .inl rfl
  · exact .inl rfl
  · split
    · exact .inl rfl
    split
    · split <;> exact .inl rfl
    next hnew =>
      split
      · exact .inl rfl
      split
      · exact .inl rfl
      next revision _ =>
        split
        · refine .inr ⟨_, revision, rfl, rfl, ?_, rfl⟩
          refine Keyed.get_eq_none.mpr fun r hr => ?_
          have := List.find?_eq_none.mp hnew r hr
          simp only [Bool.or_eq_true, beq_iff_eq, not_or] at this
          exact this.2
        · exact .inl rfl

/-- `release` lowers the counter of the registration of its Node if that still has the revision
of the snapshot, and does nothing otherwise. -/
theorem release_cases (s : RegistrationState) (expected : NodeRegistrationSnapshot) :
    (∃ i r, s.registrations[i]? = some r ∧ r.nodeId = expected.nodeId ∧
        r.snapshot.revision = expected.revision ∧
        release s expected = modifyAt s i fun r => { r with admitted := r.admitted - 1 }) ∨
      release s expected = s ∧ (s.Distinct → ∀ r, lookup s expected.nodeId = some r →
        r.snapshot.revision ≠ expected.revision) := by
  unfold release
  split
  next hpos =>
    refine .inr ⟨rfl, fun _ r hr => ?_⟩
    rw [position_eq_none hpos] at hr
    cases hr
  next i r hpos =>
    obtain ⟨hi, hn⟩ := position_eq_some hpos
    split
    next hrev => exact .inl ⟨i, r, hi, hn, hrev, rfl⟩
    next hrev =>
      refine .inr ⟨rfl, fun hd r' hr' => ?_⟩
      rw [← hn, hd.lookup_of_getElem? hi] at hr'
      cases hr'
      exact hrev

/-! ## Outstanding operations -/

theorem countP_eraseIdx {α : Type*} {l : List α} {b : α} {p : α → Bool} (h : l[i]? = some b) :
    l.countP p = (l.eraseIdx i).countP p + if p b then 1 else 0 := by
  obtain ⟨hlt, rfl⟩ := List.getElem?_eq_some_iff.mp h
  rw [← (List.getElem_cons_eraseIdx_perm hlt).countP_eq, List.countP_cons]

theorem outstanding_eq (hadm : u.admitted = w.admitted) (hadd : u.added = w.added) :
    u.outstanding n = w.outstanding n := by
  rw [World.outstanding, World.outstanding, hadm, hadd]

/-- What holds of every reachable world. -/
structure World.Live (w : World) : Prop where
  distinct : w.manager.Distinct
  born : ∀ op ∈ w.admitted, op.born = w.added op.snapshot.nodeId
  present : ∀ op ∈ w.admitted, lookup w.manager op.snapshot.nodeId ≠ none
  covered : ∀ n r, lookup w.manager n = some r → w.outstanding n ≤ r.admitted

/-- Every counter is the number of operations outstanding on its registration. -/
def World.CountersExact (w : World) : Prop :=
  ∀ n r, lookup w.manager n = some r → r.admitted = w.outstanding n

theorem World.Loaded.live (h : w.Loaded) : w.Live where
  distinct := h.distinct
  born := by simp [h.admitted]
  present := by simp [h.admitted]
  covered := by simp [World.outstanding, h.admitted]

theorem World.Loaded.countersExact (h : w.Loaded) : w.CountersExact := by
  intro n r hr
  rw [h.idle r (Keyed.mem_of_get hr), World.outstanding, h.admitted]
  rfl

theorem World.Live.outstanding_pos (h : w.Live) {op : Admission} (hop : op ∈ w.admitted) :
    0 < w.outstanding op.snapshot.nodeId :=
  List.countP_pos_iff.mpr ⟨op, hop, by simp [h.born op hop]⟩

/-- A removed registration had no operation outstanding. -/
theorem World.Live.outstanding_eq_zero (h : w.Live) (hr : lookup w.manager n = some r)
    (h0 : r.admitted = 0) : w.outstanding n = 0 := by
  have := h.covered n r hr
  omega

/-! ## The step lemma -/

/-- Both sides of the counter after a step, for the registrations that exist then. -/
inductive Balance (w u : World) (n : String) (r' : Registration) : Prop
  | kept {r : Registration} (hr : lookup w.manager n = some r)
      (hb : r'.admitted + w.outstanding n = r.admitted + u.outstanding n)
  | fresh (h0 : r'.admitted = 0) (hu : u.outstanding n = 0)

theorem Balance.le {r' : Registration} (h : Balance w u n r')
    (hw : ∀ n r, lookup w.manager n = some r → w.outstanding n ≤ r.admitted) :
    u.outstanding n ≤ r'.admitted := by
  cases h with
  | kept hr hb => have := hw n _ hr; omega
  | fresh h0 hu => omega

theorem Balance.eq {r' : Registration} (h : Balance w u n r') (hw : w.CountersExact) :
    r'.admitted = u.outstanding n := by
  cases h with
  | kept hr hb => have := hw n _ hr; omega
  | fresh h0 hu => omega

/-- A release under the revision that the registration still has. -/
def ReleaseCurrent (w : World) : Action → Prop
  | .release index => ∀ op, w.admitted[index]? = some op →
      ∀ r, lookup w.manager op.snapshot.nodeId = some r →
        r.snapshot.revision = op.snapshot.revision
  | _ => True

/-- `ReleaseCurrent`, computed. -/
def releaseCurrent (w : World) : Action → Bool
  | .release index => w.admitted[index]?.all fun op =>
      (lookup w.manager op.snapshot.nodeId).all fun r =>
        r.snapshot.revision == op.snapshot.revision
  | _ => true

instance (w : World) (a : Action) : Decidable (ReleaseCurrent w a) :=
  decidable_of_iff (releaseCurrent w a = true) (by
    cases a with
    | release index => simp [ReleaseCurrent, releaseCurrent, Option.all_eq_true]
    | _ => simp [ReleaseCurrent, releaseCurrent])

theorem admit_balance {expected : NodeRegistrationSnapshot} (hd : w.manager.Distinct)
    (h : admitOperation w.now w.manager expected = (.ok true, t))
    (hu : u = { w with
      manager := t, admitted := w.admitted ++ [⟨expected, w.added expected.nodeId⟩] }) :
    t.Distinct ∧ lookup t expected.nodeId ≠ none ∧
      (∀ n, lookup w.manager n ≠ none → lookup t n ≠ none) ∧
      ∀ n r', lookup t n = some r' → Balance w u n r' := by
  obtain ⟨i, r, hpos, -, rfl⟩ := admit_true h
  obtain ⟨hi, hn⟩ := position_eq_some hpos
  have hde : (expireMaintenance w.now w.manager).Distinct :=
    (evolves_expireMaintenance _ _).distinct hd
  have hget : ∀ m, lookup (modifyAt (expireMaintenance w.now w.manager) i
        ({ · with admitted := r.admitted + 1 })) m
      = if r.nodeId = m then some { r with admitted := r.admitted + 1 }
        else (lookup w.manager m).map (Registration.expire w.now) := by
    intro m
    rw [lookup, modifyAt, hde.get_modify hi rfl]
    exact if_congr Iff.rfl rfl lookup_expireMaintenance
  obtain ⟨r0, hr0, rfl⟩ := getElem?_expireMaintenance hi
  have hget0 : lookup w.manager expected.nodeId = some r0 := by
    rw [← hn, Registration.expire_nodeId]
    exact hd.lookup_of_getElem? hr0
  have hout : ∀ m, u.outstanding m
      = w.outstanding m + if m = expected.nodeId then 1 else 0 := by
    intro m
    subst hu
    simp only [World.outstanding, List.countP_append, List.countP_singleton, Bool.and_eq_true,
      beq_iff_eq]
    by_cases hm : m = expected.nodeId
    · simp [hm]
    · simp [hm, Ne.symm hm]
  refine ⟨hde.modify hi rfl, ?_, fun m hm => ?_, fun m r' hr' => ?_⟩
  · rw [hget, if_pos hn]
    simp
  · rw [hget]
    split
    · simp
    · simpa using hm
  · rw [hget] at hr'
    split at hr'
    next he =>
      cases hr'
      have hm : m = expected.nodeId := he.symm.trans hn
      refine .kept (r := r0) (hm ▸ hget0) ?_
      rw [hout, if_pos hm]
      simp only [Registration.expire_admitted]
      omega
    next he =>
      obtain ⟨r1, hr1, rfl⟩ := Option.map_eq_some_iff.mp hr'
      refine .kept hr1 ?_
      rw [hout, if_neg fun hm => he (hn.trans hm.symm), Registration.expire_admitted]
      omega

theorem evolves_balance (h : w.Live) (hadm : u.admitted = w.admitted) (hadd : u.added = w.added)
    {O : String → Prop} (hev : Evolves O w.manager u.manager) :
    u.Live ∧ ∀ n r', lookup u.manager n = some r' → Balance w u n r' := by
  have hbal : ∀ n r', lookup u.manager n = some r' → Balance w u n r' := by
    intro n r' hr'
    obtain ⟨r, hr, hk⟩ := hev.kept h.distinct n r' hr'
    exact .kept hr (by rw [hk.admitted, outstanding_eq hadm hadd])
  refine ⟨⟨hev.distinct h.distinct, ?_, ?_, fun n r' hr' => (hbal n r' hr').le h.covered⟩, hbal⟩
  · rw [hadm, hadd]
    exact h.born
  · intro op hop hnone
    rw [hadm] at hop
    obtain ⟨r, hr⟩ := Option.ne_none_iff_exists'.mp (h.present op hop)
    have h0 := h.outstanding_eq_zero hr (hev.removed h.distinct _ r hr hnone)
    have := h.outstanding_pos hop
    omega

theorem admit_step (h : w.Live) {expected : NodeRegistrationSnapshot}
    (hs : w.step (.admitOperation expected) = some u) :
    u.Live ∧ ∀ n r', lookup u.manager n = some r' → Balance w u n r' := by
  simp only [World.step] at hs
  split at hs
  next t hadm =>
    obtain ⟨hd, hnew, hold, hbal⟩ := admit_balance (u := u) h.distinct hadm (by simpa using hs.symm)
    cases hs
    refine ⟨⟨hd, ?_, ?_, fun n r' hr' => (hbal n r' hr').le h.covered⟩, hbal⟩
    · intro op hop
      rcases List.mem_append.mp hop with hop | hop
      · exact h.born op hop
      · rw [List.mem_singleton.mp hop]
    · intro op hop
      rcases List.mem_append.mp hop with hop | hop
      · exact hold _ (h.present op hop)
      · rw [List.mem_singleton.mp hop]
        exact hnew
  next result t hne hadm =>
    cases hs
    have hst : t = expireMaintenance w.now w.manager := by
      have hkeep : (admitOperation w.now w.manager expected).2 =
          expireMaintenance w.now w.manager :=
        admit_not_true (by rw [hadm]; exact hne)
      rwa [hadm] at hkeep
    refine evolves_balance h rfl rfl (O := Expiring w.now w.manager) ?_
    rw [hst]
    exact evolves_expireMaintenance _ _

theorem add_step (h : w.Live) {nodeAlias target nodeId localNodeId : String} {saved : Bool}
    (hs : w.step (.add nodeAlias target nodeId localNodeId saved) = some u) :
    u.Live ∧ ∀ n r', lookup u.manager n = some r' → Balance w u n r' := by
  simp only [World.step, Option.some.injEq] at hs
  have hman : u.manager = (add w.manager nodeAlias target nodeId localNodeId saved).2 := by
    rw [← hs]
  have hadm : u.admitted = w.admitted := by rw [← hs]
  have hadded : ∀ m, m ≠ nodeId → u.added m = w.added m := by
    intro m hm
    rw [← hs]
    exact if_neg fun hc => hm hc.1
  rcases add_cases (s := w.manager) nodeAlias target nodeId localNodeId saved with
    hst | ⟨r, revision, rfl, h0, hnew, hst⟩
  · refine evolves_balance h hadm ?_ (O := fun _ => False) ?_
    · rw [← hs, hst]
      simp
    · rw [hman, hst]
      exact .refl
  · -- no operation is outstanding on a Node without a registration
    have hfree : ∀ op ∈ w.admitted, op.snapshot.nodeId ≠ r.nodeId := fun op hop he =>
      h.present op hop (he ▸ hnew)
    have hget : ∀ n, lookup u.manager n = if r.nodeId = n then some r else lookup w.manager n := by
      intro n
      rw [hman, hst]
      exact Keyed.get_append_singleton hnew
    have hbal : ∀ n r', lookup u.manager n = some r' → Balance w u n r' := by
      intro n r' hr'
      rw [hget] at hr'
      split at hr'
      next he =>
        cases hr'
        subst he
        refine .fresh h0 (List.countP_eq_zero.mpr fun op hop => ?_)
        rw [hadm] at hop
        simp [hfree op hop]
      next he =>
        refine .kept hr' ?_
        rw [World.outstanding, World.outstanding, hadm, hadded n fun hc => he hc.symm]
    refine ⟨⟨?_, fun op hop => ?_, fun op hop => ?_, fun n r' hr' => (hbal n r' hr').le h.covered⟩,
      hbal⟩
    · rw [hman, hst]
      exact Keyed.Distinct.append_singleton h.distinct hnew
    · rw [hadm] at hop
      rw [h.born op hop, hadded _ (hfree op hop)]
    · rw [hadm] at hop
      rw [hget, if_neg fun hc => hfree op hop hc.symm]
      exact h.present op hop

/-- After a release the two sides agree again, or the operation was admitted under a revision
that its registration no longer has. -/
theorem release_step (h : w.Live) {index : Nat} (hs : w.step (.release index) = some u) :
    u.Live ∧ (ReleaseCurrent w (.release index) →
        ∀ n r', lookup u.manager n = some r' → Balance w u n r') ∧
      (¬ ReleaseCurrent w (.release index) →
        ∃ n r, lookup u.manager n = some r ∧ lookup w.manager n = some r ∧
          w.outstanding n = u.outstanding n + 1) := by
  obtain ⟨op, hop, rfl⟩ := Option.map_eq_some_iff.mp hs
  have hmem := List.mem_of_getElem? hop
  -- How many admitted operations name a Node, with and without the one that is released.
  have hborn := h.born op hmem
  have hout : ∀ n, w.outstanding n = World.outstanding
      { w with manager := release w.manager op.snapshot, admitted := w.admitted.eraseIdx index } n
        + if op.snapshot.nodeId = n then 1 else 0 := by
    intro n
    rw [World.outstanding, countP_eraseIdx hop]
    congr 1
    by_cases hn : op.snapshot.nodeId = n
    · simp [hn, hborn]
    · simp [hn]
  have hsub : ∀ op' ∈ w.admitted.eraseIdx index, op' ∈ w.admitted := fun op' hop' =>
    (List.eraseIdx_sublist _ _).subset hop'
  -- The release finds the registration under the operation's revision, or it finds nothing.
  rcases release_cases w.manager op.snapshot with ⟨i, r, hi, hn, hrev, hst⟩ | ⟨hst, hne⟩
  · have hget : ∀ n, lookup (release w.manager op.snapshot) n
        = if r.nodeId = n then some { r with admitted := r.admitted - 1 }
          else lookup w.manager n := by
      intro n
      rw [hst]
      exact h.distinct.get_modify hi rfl
    have hr := h.distinct.lookup_of_getElem? hi
    have hcur : ReleaseCurrent w (.release index) := by
      intro op' hop' r' hr'
      rw [hop] at hop'
      cases hop'
      rw [← hn, hr] at hr'
      cases hr'
      -- The counter of the registration and the number of the operations both go down by one.
      exact hrev
    have hbal : ∀ n r', lookup (release w.manager op.snapshot) n = some r' →
        Balance w { w with
          manager := release w.manager op.snapshot
          admitted := w.admitted.eraseIdx index } n r' := by
      intro n r' hr'
      rw [hget] at hr'
      have houtn := hout n
      split at hr'
      next he =>
        cases hr'
        have hpos := h.outstanding_pos hmem
        rw [← hn, he] at hpos
        have hcov := h.covered n r (he ▸ hr)
        rw [← hn, if_pos he] at houtn
        refine .kept (he ▸ hr) ?_
        simp only
        omega
      next he =>
        rw [← hn, if_neg he] at houtn
        exact .kept hr' (by omega)
    refine ⟨⟨?_, ?_, ?_, fun n r' hr' => (hbal n r' hr').le h.covered⟩, fun _ => hbal,
      fun hc => absurd hcur hc⟩
    · change (release w.manager op.snapshot).Distinct
      rw [hst]
      exact h.distinct.modify hi rfl
    · exact fun op' hop' => h.born op' (hsub op' hop')
    · intro op' hop'
      change lookup (release w.manager op.snapshot) _ ≠ none
      rw [hget]
      split
      · simp
      · exact h.present op' (hsub op' hop')
  -- The counter stays, and one operation less is admitted.
  · obtain ⟨r, hr⟩ := Option.ne_none_iff_exists'.mp (h.present op hmem)
    have hnot : ¬ ReleaseCurrent w (.release index) := fun hc =>
      hne h.distinct r hr (hc op hop r hr)
    refine ⟨⟨?_, ?_, ?_, fun n r' hr' => ?_⟩, fun hc => absurd hc hnot, fun _ => ?_⟩
    · change (release w.manager op.snapshot).Distinct
      rw [hst]
      exact h.distinct
    · exact fun op' hop' => h.born op' (hsub op' hop')
    · intro op' hop'
      change lookup (release w.manager op.snapshot) _ ≠ none
      rw [hst]
      exact h.present op' (hsub op' hop')
    · change lookup (release w.manager op.snapshot) n = some r' at hr'
      rw [hst] at hr'
      have := h.covered n r' hr'
      have := hout n
      omega
    · refine ⟨op.snapshot.nodeId, r, ?_, hr, ?_⟩
      · change lookup (release w.manager op.snapshot) _ = some r
        rw [hst]
        exact hr
      · rw [hout, if_pos rfl]

theorem step_balance (h : w.Live) (hs : w.step a = some u) :
    u.Live ∧ (ReleaseCurrent w a → ∀ n r', lookup u.manager n = some r' → Balance w u n r') := by
  by_cases hc : a.counts = true
  · cases a with
    | admitOperation expected => exact ⟨(admit_step h hs).1, fun _ => (admit_step h hs).2⟩
    | release index => exact ⟨(release_step h hs).1, (release_step h hs).2.1⟩
    | add nodeAlias target nodeId localNodeId saved =>
        exact ⟨(add_step h hs).1, fun _ => (add_step h hs).2⟩
    | _ => cases hc
  · obtain ⟨hev, hadm, hadd⟩ := w.step_evolves h.distinct (by simpa using hc) hs
    exact ⟨(evolves_balance h hadm hadd hev).1, fun _ => (evolves_balance h hadm hadd hev).2⟩

theorem World.Live.step (h : w.Live) (hs : w.step a = some u) : u.Live := (step_balance h hs).1

/-- One step keeps the counters exact exactly if it does not release an operation under a
revision that has been replaced. -/
theorem step_countersExact (h : w.Live) (hw : w.CountersExact) (hs : w.step a = some u) :
    u.CountersExact ↔ ReleaseCurrent w a := by
  constructor
  · intro hu
    by_contra hc
    cases a with
    | release index =>
        obtain ⟨n, r, hr, hr', hout⟩ := (release_step h hs).2.2 hc
        have h1 := hu n r hr
        have h2 := hw n r hr'
        omega
    | _ => exact hc trivial
  · exact fun hc n r' hr' => ((step_balance h hs).2 hc n r' hr').eq hw

/-! ## Runs -/

/-- The counters are exact, and a draining call that starts on a registration with no operation
outstanding does not wait. -/
structure World.AdmissionExact (w : World) : Prop where
  counters : w.CountersExact
  noWait : ∀ a call i t saved r, w.starts a = some (call, (.ok i, t), saved) →
    t.registrations[i]? = some r → w.outstanding r.nodeId = 0 →
      (call.poll w.now t saved).1 ≠ none

theorem DrainCall.poll_drained {call : DrainCall} {saved : Bool}
    (hloc : findIndex s call.selector = some (i, r)) (h0 : r.admitted = 0) :
    (call.poll now s saved).1 ≠ none := by
  unfold DrainCall.poll
  rw [hloc]
  dsimp only
  split
  · simp
  · simp [h0]

theorem World.CountersExact.admissionExact (hc : w.CountersExact) (hl : w.Live) :
    w.AdmissionExact := by
  refine ⟨hc, fun a call i t saved r hs hr h0 => ?_⟩
  obtain ⟨re, rt, hloc, hloct, hn, -, hadm, -⟩ := starts_ok hs
  have hrt := (locate_eq_some hloct).1
  rw [hr] at hrt
  cases hrt
  obtain ⟨r0, hr0, rfl⟩ := getElem?_expireMaintenance (locate_eq_some hloc).1
  have hget : lookup w.manager r.nodeId = some r0 := by
    rw [hn, Registration.expire_nodeId]
    exact hl.distinct.lookup_of_getElem? hr0
  refine DrainCall.poll_drained hloct ?_
  rw [hadm, Registration.expire_admitted, hc _ r0 hget, h0]

theorem World.Loaded.admissionExact (h : w.Loaded) : w.AdmissionExact :=
  h.countersExact.admissionExact h.live

/-- **The counters stay exact along a run exactly if every release of the run still finds the
revision that its operation was admitted under.** -/
theorem admission_exact_iff (h : w.Loaded) (as : List Action) :
    Along World.step World.AdmissionExact w as ↔ Meets World.step ReleaseCurrent w as := by
  refine along_iff_meets (I := World.Live) (fun s a u hl _ _ hs => hl.step hs)
    (fun s a u hl hp hs => ?_) h.live h.admissionExact
  rw [← step_countersExact hl hp.counters hs]
  exact ⟨fun hu => hu.counters, fun hu => hu.admissionExact (hl.step hs)⟩

/-- An operation is admitted and released, the registration is renamed, and an operation under
its new revision is admitted and released. -/
def releaseRun : List Action :=
  [.add "a" "host" "00000000-0000-0000-0000-000000000001" "00000000-0000-0000-0000-000000000002"
     true,
   .admitOperation ⟨"00000000-0000-0000-0000-000000000001", "a", "host", 1, 0⟩,
   .release 0,
   .rename "a" "b" 1 true,
   .admitOperation ⟨"00000000-0000-0000-0000-000000000001", "b", "host", 2, 0⟩,
   .release 0]

theorem admission_exact_iff_releaseRun :
    (exec World.step World.fresh releaseRun).isSome = true ∧
      Along World.step World.AdmissionExact World.fresh releaseRun :=
  ⟨by decide, (admission_exact_iff World.fresh_loaded releaseRun).mpr
    (meets_of_allMeet (by decide))⟩

/-- One operation is admitted, the registration is renamed, the operation is released. -/
def renameRun : List Action :=
  [.add "a" "host" "00000000-0000-0000-0000-000000000001" "00000000-0000-0000-0000-000000000002"
     true,
   .admitOperation ⟨"00000000-0000-0000-0000-000000000001", "a", "host", 1, 0⟩,
   .rename "a" "b" 1 true,
   .release 0]

/-- After `renameRun` nothing is outstanding, but the counter is one. -/
theorem not_admissionExact_renameRun :
    ¬ ∀ (w : World) (as : List Action), w.Loaded → Along World.step World.AdmissionExact w as := by
  intro hall
  have hrun : (exec World.step World.fresh renameRun).map (fun w =>
      ((lookup w.manager "00000000-0000-0000-0000-000000000001").map (·.admitted),
        w.outstanding "00000000-0000-0000-0000-000000000001")) = some (some 1, 0) := by
    decide
  obtain ⟨w, hw, he⟩ := Option.map_eq_some_iff.mp hrun
  obtain ⟨hcount, hout⟩ := Prod.mk.inj he
  obtain ⟨r, hr, h1⟩ := Option.map_eq_some_iff.mp hcount
  have := ((hall World.fresh renameRun World.fresh_loaded).last hw).counters _ r hr
  omega

end Boomux.Nodes
