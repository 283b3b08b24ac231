import Boomux.Basic.Run
import Boomux.Coordinator.Cancellation
import Boomux.Coordinator.Effects

/-!
# Every run of the coordinator store

The state in memory and the state in the file are sound in every reachable world: both pass
`validate` and fit the size limit, no operation is pending on a closing Workspace, and every
pending operation has its fingerprint and its reservation. So the daemon can always be started
again on its own file.
-/

set_option autoImplicit false

namespace Boomux.Coordinator

open Rust Keyed Transition PersistedGlobalWorkspaces

variable {s t : PersistedGlobalWorkspaces} {r : Option Request}

/-! ## One operation -/

theorem PersistedGlobalWorkspaces.Sound.edited (hs : s.Sound) (h : Edited r s t) (hvalid : t.Valid)
    (hfits : t.fits = true) : t.Sound :=
  ⟨hvalid, hfits, h.bound hs.bound, h.quiet hs.quiet⟩

theorem PersistedGlobalWorkspaces.Sound.empty : PersistedGlobalWorkspaces.empty.Sound where
  valid := validate_eq_ok.mp rfl
  fits := by decide +kernel
  bound := fun _ hp => absurd hp List.not_mem_nil
  quiet := fun _ _ => List.not_mem_nil

/-- What `persist` stores passes its checks. -/
theorem persist_eq_ok {written : Bool} {st : Store} :
    persist t written = .ok st ↔ t.Valid ∧ t.fits = true ∧ written = true ∧ st = ⟨t, some t⟩ := by
  simp only [persist, save, bind_eq_ok, require_eq_ok, Except.ok.injEq]
  constructor
  · rintro ⟨_, hvalid, _, ⟨_, hfits, hwritten⟩, rfl⟩
    exact ⟨validate_eq_ok.mp hvalid, hfits, hwritten, rfl⟩
  · rintro ⟨hvalid, hfits, hwritten, rfl⟩
    exact ⟨(), validate_eq_ok.mpr hvalid, (), ⟨(), hfits, hwritten⟩, rfl⟩

theorem Store.mutate_iff {st st' : Store} {op : Operation} {written : Bool} {reply : Reply} :
    st.mutate op written = .ok (st', reply) ↔ ∃ t, op.edit st.memory = .ok (t, reply)
      ∧ t.Valid ∧ t.fits = true ∧ written = true ∧ st' = ⟨t, some t⟩ := by
  simp only [Store.mutate, bind_eq_ok, persist_eq_ok, Except.ok.injEq, Prod.mk.injEq]
  constructor
  · rintro ⟨⟨t, reply'⟩, hedit, _, ⟨hvalid, hfits, hwritten, rfl⟩, rfl, rfl⟩
    exact ⟨t, hedit, hvalid, hfits, hwritten, rfl⟩
  · rintro ⟨t, hedit, hvalid, hfits, hwritten, rfl⟩
    exact ⟨(t, reply), hedit, _, ⟨hvalid, hfits, hwritten, rfl⟩, rfl, rfl⟩

/-! ## Staged operations -/

/-- Noting that the owner is asked does not make the encoding longer. -/
theorem fits_mark {a : ResourceRequest} {operationId : String} {p : PendingWorkspaceResource}
    (hp : s.pendingResource? operationId = some p) (hfits : s.fits = true) :
    (s.editPendingResource operationId fun _ => a.mark p).fits = true := by
  have hmark : Json.prettyLen 2 (a.mark p).toJson ≤ Json.prettyLen 2 p.toJson := by
    unfold ResourceRequest.mark
    split
    · have hsame (f : String × Json) : f.1 = f.1 ∧ Json.prettyLen 3 f.2 ≤ Json.prettyLen 3 f.2 :=
        ⟨rfl, Nat.le_refl _⟩
      have hattempted : Json.prettyLen 3 (.bool true) ≤ Json.prettyLen 3
          (.bool p.ownerAttempted) := by
        cases p.ownerAttempted <;> decide
      exact Json.prettyLen_object_le
        (.cons (hsame _) (.cons (hsame _) (.cons (hsame _) (.cons (hsame _)
        (.cons (hsame _) (.cons ⟨rfl, hattempted⟩ (List.forall₂_same.mpr fun f _ => hsame f)))))))
    · exact Nat.le_refl _
  have hrecords : List.Forall₂ (fun v' v => Json.prettyLen 2 v' ≤ Json.prettyLen 2 v)
      ((editFirst (·.operationId == operationId) (fun _ => a.mark p) s.pendingResources).map
        (·.toJson))
      (s.pendingResources.map (·.toJson)) := by
    rw [List.forall₂_map_left_iff, List.forall₂_map_right_iff]
    unfold pendingResource? at hp
    generalize s.pendingResources = l at hp
    induction l with
    | nil => exact .nil
    | cons q l ih =>
        rw [List.find?_cons] at hp
        unfold editFirst
        split at hp
        next hq =>
          rw [if_pos hq]
          obtain rfl := Option.some.inj hp
          exact .cons hmark (List.forall₂_same.mpr fun _ _ => Nat.le_refl _)
        next hq =>
          rw [if_neg (by simp [hq])]
          exact .cons (Nat.le_refl _) (ih hp)
  have hlen : (s.editPendingResource operationId fun _ => a.mark p).toJson.prettyLen 0
      ≤ s.toJson.prettyLen 0 :=
    Json.prettyLen_object_le (.cons ⟨rfl, Nat.le_refl _⟩ (.cons ⟨rfl, Nat.le_refl _⟩
      (.cons ⟨rfl, Nat.le_refl _⟩ (.cons ⟨rfl, Json.prettyLen_array_le_of_forall₂ hrecords⟩
        (.cons ⟨rfl, Nat.le_refl _⟩
          (.cons ⟨rfl, Nat.le_refl _⟩ (.cons ⟨rfl, Nat.le_refl _⟩ .nil)))))))
  unfold fits at hfits ⊢
  rw [decide_eq_true_iff] at hfits ⊢
  exact hlen.trans hfits

theorem fits_prepareResource {a : ResourceRequest} {prepared : PreparedWorkspaceResource}
    (hs : s.Sound)
    (h : s.prepareResource a = .ok (t, prepared)) : t.fits = true := by
  simp only [prepareResource, bind_eq_ok] at h
  obtain ⟨_, -, h⟩ := h
  split at h
  next =>
    split at h
    · obtain ⟨rfl, -⟩ := Prod.mk.inj (Except.ok.inj h)
      exact hs.fits
    · cases h
  next =>
    split at h
    next pending hpending =>
      rw [retryResource_eq_ok hpending (hs.bound _ (mem_of_pendingResource? hpending))] at h
      obtain ⟨-, rfl, -⟩ := h
      exact fits_mark hpending hs.fits
    next =>
      simp only [prepareNewResource, bind_eq_ok] at h
      obtain ⟨_, -, _, -, v, -, _, -, _, -, h⟩ := h
      split at h
      all_goals
        simp only [bind_eq_ok] at h
        obtain ⟨_, -, _, -, _, -, u, hcompact, h⟩ := h
        obtain ⟨rfl, -⟩ := Prod.mk.inj (Except.ok.inj h)
        obtain ⟨_, _, -, -, hfits, -⟩ := compactPreparedState_eq_ok hcompact
        exact hfits

/-- A pending operation is completed under an id that the completed ones do not have. -/
theorem fits_completeResource {pending : PendingWorkspaceResource} {owner : WorkspaceSnapshot}
    {resource : RoutedOperationResult} {c : CompletedWorkspaceOperation} (hs : s.Sound)
    (h : s.completeResource pending owner resource = .ok (t, c)) : t.fits = true := by
  unfold completeResource at h
  split at h
  · split at h
    · obtain ⟨rfl, -⟩ := Prod.mk.inj (Except.ok.inj h)
      exact hs.fits
    · cases h
  next candidate hcandidate =>
    rw [require_bind_eq_ok] at h
    simp only [finishResource, bind_eq_ok] at h
    obtain ⟨-, _, -, _, -, v, -, placed, -, h⟩ := h
    split at h
    · cases h
    next fingerprint _ =>
      simp only [bind_eq_ok] at h
      obtain ⟨_, -, u, hpush, h⟩ := h
      obtain ⟨rfl, -⟩ := Prod.mk.inj (Except.ok.inj h)
      rcases pushCompleted_eq_ok hpush with heq | ⟨-, hfits, -⟩
      · -- The ledger would have the completed operation already.
        unfold PersistedGlobalWorkspaces.pushCompleted at hpush
        split at hpush
        next existing hexisting =>
          have hmem : existing ∈ s.completedOperations := List.mem_of_find?_eq_some hexisting
          have hid : existing.operationId = candidate.operationId := by
            simpa using List.find?_some hexisting
          refine absurd ?_ (hs.valid.completed _ hmem).2
          exact hid ▸ List.mem_map_of_mem (mem_of_pendingResource? hcandidate)
        next =>
          obtain ⟨_, -, hfits, -⟩ := dropOldest_eq_ok (by simp) hpush
          exact hfits
      · exact hfits

/-- A staged operation leaves the copy sound. -/
theorem sound_stage {op : StagedOperation} (hs : s.Sound) : (stage s op).Sound := by
  unfold stage
  split
  next t reply h =>
    simp only [Operation.run, bind_eq_ok, Except.ok.injEq, Prod.mk.injEq] at h
    obtain ⟨⟨u, reply'⟩, hedit, _, hvalid, rfl, rfl⟩ := h
    refine hs.edited (Operation.edited hs hedit) (validate_eq_ok.mp hvalid) ?_
    cases op with
    | prepareResourceForAttempt a =>
        simp only [StagedOperation.operation, Operation.edit, replying_eq_ok] at hedit
        obtain ⟨_, hedit, -⟩ := hedit
        exact fits_prepareResource hs hedit
    | completeResource p owner resource =>
        simp only [StagedOperation.operation, Operation.edit, replying_eq_ok] at hedit
        obtain ⟨_, hedit, -⟩ := hedit
        exact fits_completeResource hs hedit
  next => exact hs

theorem foldl_stageNoting_fst (ops : List StagedOperation)
    (c : PersistedGlobalWorkspaces × Requests) :
    (ops.foldl stageNoting c).1 = ops.foldl stage c.1 := by
  induction ops generalizing c with
  | nil => rfl
  | cons op ops ih => exact ih _

theorem sound_foldl_stage {ops : List StagedOperation} (hs : s.Sound) :
    (ops.foldl stage s).Sound := by
  induction ops generalizing s with
  | nil => exact hs
  | cons op ops ih => exact ih (sound_stage hs)

/-! ## Starting and migrating -/

/-- The file of a sound state is loaded as it is, and nothing is written. -/
theorem Store.load_eq (hs : s.Sound) (written : Bool) :
    Store.load (some s) written = .ok ⟨s, some s⟩ := by
  have hversion : s.version = coordinatorWorkspaceVersion := by
    have hsizes := hs.valid.sizes
    simp only [sizesValid, Bool.and_eq_true, beq_iff_eq] at hsizes
    exact hsizes.1.1.1.1.1
  have hvalid : validate s = .ok () := validate_eq_ok.mpr hs.valid
  have hold : ¬(1 ≤ s.version ∧ s.version < 6) ∧ s.version ≠ 7 := by
    rw [hversion]
    decide
  simp only [Store.load, hs.fits, hvalid, require, bind, Except.bind, if_neg hold.1, if_neg hold.2,
    if_true]

theorem Store.load_none (written : Bool) : Store.load none written = .ok ⟨.empty, none⟩ := by
  have hvalid : validate .empty = .ok () := rfl
  simp only [Store.load, hvalid, bind, Except.bind]

/-- The Workspaces that were there before global Workspaces are added as open ones. -/
theorem sound_initializeLocalOnce {st st' : Store} {nodeId : String}
    {workspaces : List WorkspaceSnapshot}
    {written : Bool} (hs : st.memory.Sound)
    (h : st.initializeLocalOnce nodeId workspaces written = .ok (st', true)) :
    st'.memory.Sound ∧ st'.file = some st'.memory := by
  unfold Store.initializeLocalOnce at h
  split at h
  · cases (Prod.mk.inj (Except.ok.inj h)).2
  · simp only [bind_eq_ok, persist_eq_ok] at h
    obtain ⟨_, -, _, ⟨hvalid, hfits, -, rfl⟩, h⟩ := h
    obtain ⟨rfl, -⟩ := Prod.mk.inj (Except.ok.inj h)
    refine ⟨⟨hvalid, hfits, hs.bound, fun id hid => ?_⟩, rfl⟩
    obtain ⟨v, hv, hclosing, rfl⟩ := mem_closingIds.mp hid
    rcases List.mem_append.mp hv with hv | hv
    · exact hs.quiet _ (mem_closingIds_of_mem hv hclosing)
    · obtain ⟨_, -, rfl⟩ := List.mem_map.mp hv
      exact absurd hclosing Bool.false_ne_true

/-! ## Runs -/

/-- Both states of a world are sound. -/
structure World.Sound (w : World) : Prop where
  memory : w.store.memory.Sound
  file : ∀ s, w.store.file = some s → s.Sound

theorem World.Sound.initial : World.initial.Sound :=
  ⟨.empty, fun _ h => absurd h (by simp [World.initial])⟩

theorem World.Sound.saved {w : World} {requests saved : Requests} {s : PersistedGlobalWorkspaces}
    (hs : s.Sound) (hw : w = ⟨⟨s, some s⟩, requests, saved⟩) : w.Sound := by
  subst hw
  exact ⟨hs, fun _ h => Option.some.inj h ▸ hs⟩

/-- Every action keeps both states sound. -/
theorem step_sound {w w' : World} {a : Action} (hw : w.Sound) (h : step w a = some w') :
    w'.Sound := by
  cases a with
  | mutate op written =>
      simp only [step] at h
      -- A call that is refused leaves the store.
      split at h
      · exact Option.some.inj h ▸ hw
      next st reply hmutate =>
        obtain ⟨t, hedit, hvalid, hfits, -, rfl⟩ := Store.mutate_iff.mp hmutate
        exact .saved (hw.memory.edited (Operation.edited hw.memory hedit) hvalid hfits)
          (Option.some.inj h).symm
  | transaction ops =>
      simp only [step, foldl_stageNoting_fst] at h
      split at h
      · exact Option.some.inj h ▸ hw
      next st hcommit =>
        simp only [Store.commit, bind_eq_ok, Except.ok.injEq] at hcommit
        obtain ⟨_, -, rfl⟩ := hcommit
        obtain rfl := Option.some.inj h
        exact ⟨sound_foldl_stage hw.memory, hw.file⟩
  | checkpoint written =>
      simp only [step] at h
      split at h
      · exact Option.some.inj h ▸ hw
      next st hcheckpoint =>
        obtain ⟨-, -, -, rfl⟩ := persist_eq_ok.mp hcheckpoint
        exact .saved hw.memory (Option.some.inj h).symm
  | initializeLocalOnce nodeId workspaces written =>
      simp only [step] at h
      split at h
      · exact Option.some.inj h ▸ hw
      · exact Option.some.inj h ▸ hw
      next st hinitialize =>
        obtain ⟨hmemory, hfile⟩ := sound_initializeLocalOnce hw.memory hinitialize
        obtain rfl := Option.some.inj h
        exact ⟨hmemory, fun s hs => Option.some.inj (hfile.symm.trans hs) ▸ hmemory⟩
  | restart written =>
      -- The file that is loaded was sound when it was written.
      cases hfile : w.store.file with
      | none =>
          simp only [step, hfile, Store.load_none] at h
          obtain rfl := Option.some.inj h
          exact ⟨.empty, fun _ hs => absurd hs (by simp)⟩
      | some s =>
          simp only [step, hfile, Store.load_eq (hw.file s hfile)] at h
          exact .saved (hw.file s hfile) (Option.some.inj h).symm

theorem sound_of_reach {w : World} (h : Reach step (fun _ _ => True) World.initial w) : w.Sound :=
  h.invariant .initial fun _ _ _ hw _ hstep => step_sound hw hstep

/-! ## What a reader may rely on -/

/-- The state passes `validate`; an operation id is in at most one of the four ledgers, a Workspace
of an owner Node in at most one placement; a placement waits for its close exactly when its
Workspace is closing, and then no operation is pending on the Workspace. -/
structure Consistent (s : PersistedGlobalWorkspaces) : Prop where
  valid : validate s = .ok ()
  ledgers : (s.pendingIds ++ s.completedIds ++ s.defaultCwdIds).Nodup
  owners : (owners s.workspaces).Nodup
  closing : ∀ w ∈ s.workspaces, ∀ p ∈ w.placements, p.state = .closePending ↔ w.closing = true
  quiet : ∀ w ∈ s.workspaces, w.closing = true →
    (∀ p ∈ s.pendingResources, p.globalWorkspaceId ≠ w.id)
      ∧ ∀ d ∈ s.pendingDefaultCwdOperations, d.globalWorkspaceId ≠ w.id

theorem PersistedGlobalWorkspaces.Valid.ledgers (h : s.Valid) :
    (s.pendingIds ++ s.completedIds ++ s.defaultCwdIds).Nodup := by
  refine List.nodup_append.mpr ⟨List.nodup_append.mpr ⟨h.pendingIds, h.completedIds, ?_⟩,
    h.defaultCwdIds, ?_⟩
  · rintro id hpending _ hcompleted rfl
    obtain ⟨c, hc, rfl⟩ := List.mem_map.mp hcompleted
    exact (h.completed c hc).2 hpending
  · rintro id hresource _ hdefault rfl
    rcases List.mem_append.mp hdefault with hmem | hmem
    · obtain ⟨d, hd, rfl⟩ := List.mem_map.mp hmem
      obtain ⟨-, -, hpending, hcompleted⟩ := h.pendingDefaultCwd d hd
      exact (List.mem_append.mp hresource).elim hpending hcompleted
    · obtain ⟨c, hc, rfl⟩ := List.mem_map.mp hmem
      obtain ⟨-, hpending, hcompleted⟩ := h.completedDefaultCwd c hc
      exact (List.mem_append.mp hresource).elim hpending hcompleted

theorem PersistedGlobalWorkspaces.Sound.consistent (hs : s.Sound) : Consistent s where
  valid := validate_eq_ok.mpr hs.valid
  ledgers := hs.valid.ledgers
  owners := hs.valid.owners
  closing := by
    intro w hw p hp
    have hstate := ((hs.valid.workspaces w hw).placements p hp).2.2
    cases hclosing : w.closing <;> simpa [hclosing] using hstate
  quiet := by
    intro w hw hclosing
    have hnone := hs.quiet _ (mem_closingIds_of_mem hw hclosing)
    exact ⟨fun p hp he => hnone (mem_referred.mpr (.inl ⟨p, hp, he⟩)),
      fun d hd he => hnone (mem_referred.mpr (.inr ⟨d, hd, he⟩))⟩

/-- Whatever calls, transactions, checkpoints, failed writes and restarts came before: both states
are consistent, the daemon starts again on its file and has the state in it, and a checkpoint
can fail only at the write. -/
theorem store_consistent {w : World} (h : Reach step (fun _ _ => True) World.initial w) :
    Consistent w.store.memory ∧ (∀ s, w.store.file = some s → Consistent s)
      ∧ (∀ written, ∃ w', step w (.restart written) = some w'
        ∧ w'.store = ⟨w.store.file.getD .empty, w.store.file⟩)
      ∧ w.store.checkpoint true = .ok ⟨w.store.memory, some w.store.memory⟩ := by
  have hw : w.Sound := sound_of_reach h
  refine ⟨hw.memory.consistent, fun s hs => (hw.file s hs).consistent, fun written => ?_,
    persist_eq_ok.mpr ⟨hw.memory.valid, hw.memory.fits, rfl, rfl⟩⟩
  cases hfile : w.store.file with
  | none =>
      refine ⟨⟨⟨.empty, none⟩, w.saved, w.saved⟩, ?_, rfl⟩
      simp only [step, hfile, Store.load_none]
  | some s =>
      refine ⟨⟨⟨s, some s⟩, w.saved, w.saved⟩, ?_, rfl⟩
      simp only [step, hfile, Store.load_eq (hw.file s hfile)]

/-- A Workspace with a Shell is prepared, another Shell in a transaction, and the daemon restarts.
-/
def projectRun : List Action :=
  [.mutate (.prepareWorkspaceShell projectRequest) true,
    .transaction [.prepareResourceForAttempt shellRequest], .checkpoint false, .restart true]

theorem store_consistent_projectRun : ∃ w, exec step World.initial projectRun = some w
    ∧ w.store.checkpoint true = .ok ⟨w.store.memory, some w.store.memory⟩ := by
  obtain ⟨w, hw⟩ := Option.isSome_iff_exists.mp
    (show (exec step World.initial projectRun).isSome = true by decide +kernel)
  exact ⟨w, hw, (store_consistent (reach_of_exec_true hw)).2.2.2⟩

end Boomux.Coordinator
