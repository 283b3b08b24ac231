import Boomux.Coordinator.Machine
import Boomux.Coordinator.Validity

/-!
# Cancelling what was never attempted

`prepareWorkspaceShell` makes a Workspace and a pending operation that creates it; further
operations may be prepared on the Workspace. Cancelling a pending operation takes the Workspace
away when it is the last one on the Workspace, the Workspace has no placement, and it is this
operation that creates the Workspace. The order of the cancellations decides which one is last.
-/

set_option autoImplicit false

namespace Boomux.Coordinator

open Rust Keyed

namespace PersistedGlobalWorkspaces

/-- The pending operations that refer to a Workspace. -/
def referring (s : PersistedGlobalWorkspaces) (workspaceId : String) :
    List PendingWorkspaceResource :=
  s.pendingResources.filter (·.globalWorkspaceId = workspaceId)

/-- The state without the pending operations that refer to a Workspace. -/
def withoutPending (s : PersistedGlobalWorkspaces) (workspaceId : String) :
    PersistedGlobalWorkspaces :=
  { s with pendingResources := s.pendingResources.filter (·.globalWorkspaceId ≠ workspaceId) }

/-- The state without a Workspace and the pending operations that refer to it. -/
def without (s : PersistedGlobalWorkspaces) (workspaceId : String) : PersistedGlobalWorkspaces :=
  { s.withoutPending workspaceId with workspaces := s.workspaces.filter (·.id ≠ workspaceId) }

/-- The state without one pending operation. -/
def withoutOperation (s : PersistedGlobalWorkspaces) (operationId : String) :
    PersistedGlobalWorkspaces :=
  { s with pendingResources := s.pendingResources.filter (·.operationId ≠ operationId) }

end PersistedGlobalWorkspaces

/-- The calls that cancel a pending operation. -/
inductive Cancels (q : PendingWorkspaceResource) : Operation → Prop
  | resource (p : PendingWorkspaceResource) (hid : p.operationId = q.operationId)
      (hfingerprint : p.requestFingerprint = q.requestFingerprint) : Cancels q (.cancelResource p)
  | operation (fingerprint : String)
      (hfingerprint : q.requestFingerprint.all (· == fingerprint) = true) :
      Cancels q (.cancelPendingOperationIfNeverAttempted q.operationId fingerprint)

/-- Calls one after the other; each write to the file is taken. -/
def Store.runAll (st : Store) (ops : List Operation) : Except IoError Store :=
  ops.foldlM (fun st op => (st.mutate op true).map Prod.fst) st

section Cancelling

variable {s : PersistedGlobalWorkspaces} {w : GlobalWorkspaceSnapshot}
    {q : PendingWorkspaceResource}
  {op : Operation}

open PersistedGlobalWorkspaces

/-! ## One cancellation -/

/-- Both calls remove the operation as `removePending` does. -/
theorem Cancels.edit (h : Cancels q op) (hvalid : s.Valid) (hq : q ∈ s.pendingResources)
    (hnever : q.ownerAttempted = false) : ∃ reply, op.edit s = .ok (s.removePending q, reply) := by
  have hdistinct : Distinct (·.operationId) s.pendingResources := hvalid.pendingIds
  have hfind : s.pendingResource? q.operationId = some q := hdistinct.get_of_mem hq
  cases h with
  | resource p hid hfingerprint =>
      refine ⟨.done, ?_⟩
      simp [Operation.edit, replying, cancelResource, hid, hfingerprint, hfind, hnever,
        require, bind,
        Except.bind, Except.map]
  | operation fingerprint hfingerprint =>
      refine ⟨.cancelled true, ?_⟩
      simp [Operation.edit, replying, cancelPendingOperationIfNeverAttempted, hfind, hfingerprint,
        hnever,
        require, bind, Except.bind, Except.map]

/-- While another operation refers to the Workspace, the Workspace stays. -/
theorem removePending_of_others (hvalid : s.Valid) (hq : q ∈ s.pendingResources)
    {r : PendingWorkspaceResource} (hr : r ∈ s.pendingResources)
    (hne : r.operationId ≠ q.operationId)
    (hsame : r.globalWorkspaceId = q.globalWorkspaceId) :
    s.removePending q = s.withoutOperation q.operationId := by
  have hdistinct : Distinct (·.operationId) s.pendingResources := hvalid.pendingIds
  have herase : s.pendingResources.eraseP (·.operationId == q.operationId)
      = s.pendingResources.filter (·.operationId ≠ q.operationId) :=
    hdistinct.eraseP_eq_remove hq (by simp) (by simp)
  have hrest : (s.erasePendingResource q.operationId).pendingResources.any
      (·.globalWorkspaceId == q.globalWorkspaceId) = true := by
    show (s.pendingResources.eraseP _).any _ = true
    rw [herase, List.any_eq_true]
    exact ⟨r, List.mem_filter.mpr ⟨hr, decide_eq_true hne⟩, beq_iff_eq.mpr hsame⟩
  unfold removePending
  dsimp only
  rw [hrest, Bool.not_true, Bool.and_false, if_neg Bool.false_ne_true, erasePendingResource, herase]
  rfl

/-- The last operation on a Workspace without placements takes the Workspace away if it creates it.
-/
theorem removePending_last (hvalid : s.Valid) (hw : w ∈ s.workspaces)
    (hplacements : w.placements = [])
    (hlast : s.referring w.id = [q]) :
    s.removePending q = if q.createsWorkspace then s.without w.id else s.withoutPending w.id := by
  have hmem : q ∈ s.referring w.id := hlast ▸ List.mem_singleton_self q
  obtain ⟨hq, hid⟩ := List.mem_filter.mp hmem
  have hid : q.globalWorkspaceId = w.id := of_decide_eq_true hid
  have hdistinct : Distinct (·.operationId) s.pendingResources := hvalid.pendingIds
  have honly (r : PendingWorkspaceResource) (hr : r ∈ s.pendingResources)
      (href : r.globalWorkspaceId = w.id) : r = q :=
    List.mem_singleton.mp (hlast ▸ List.mem_filter.mpr ⟨hr, decide_eq_true href⟩)
  have herase : s.pendingResources.eraseP (·.operationId == q.operationId)
      = s.pendingResources.filter (·.globalWorkspaceId ≠ w.id) := by
    rw [hdistinct.eraseP_eq_remove hq (by simp) (by simp), remove]
    refine List.filter_congr fun r hr =>
      decide_eq_decide.mpr (not_congr ⟨fun he => ?_, fun he => ?_⟩)
    · rw [List.inj_on_of_nodup_map hdistinct hr hq he]
      exact hid
    · rw [honly r hr he]
  have hnone : (s.erasePendingResource q.operationId).pendingResources.any
      (·.globalWorkspaceId == q.globalWorkspaceId) = false := by
    show (s.pendingResources.eraseP _).any _ = false
    rw [herase, List.any_eq_false]
    intro r hr
    rw [hid, beq_iff_eq]
    exact of_decide_eq_true (List.mem_filter.mp hr).2
  have hprepared : (s.erasePendingResource q.operationId).workspaces.any
      (fun v => v.id == q.globalWorkspaceId && v.placements.isEmpty) = true :=
    List.any_eq_true.mpr ⟨w, hw, by simp [hid, hplacements]⟩
  have hworkspaces : s.workspaces.eraseP
      (fun v => v.id == q.globalWorkspaceId && v.placements.isEmpty)
      = s.workspaces.filter (·.id ≠ w.id) :=
    Distinct.eraseP_eq_remove hvalid.workspaceIds hw (by simp [hid, hplacements])
      (by simp +contextual [hid])
  unfold removePending
  dsimp only
  rw [hnone, Bool.not_false, Bool.and_true]
  cases q.createsWorkspace with
  | false =>
      rw [Bool.false_and, if_neg Bool.false_ne_true, if_neg Bool.false_ne_true,
        erasePendingResource, herase]
      rfl
  | true =>
      rw [Bool.true_and, if_pos hprepared, if_pos rfl]
      unfold erasePendingResource
      dsimp only
      rw [herase, hworkspaces]
      rfl

/-! ## The state after a cancellation is stored -/

/-- With fewer Workspaces and pending operations the state still fits. -/
theorem fits_sublist {workspaces : List GlobalWorkspaceSnapshot}
    {pendingResources : List PendingWorkspaceResource} (hfits : s.fits = true)
    (hw : workspaces.Sublist s.workspaces) (hp : pendingResources.Sublist s.pendingResources) :
    ({ s with workspaces := workspaces, pendingResources := pendingResources } :
      PersistedGlobalWorkspaces).fits = true := by
  have hlen : ({ s with workspaces := workspaces, pendingResources := pendingResources } :
      PersistedGlobalWorkspaces).toJson.prettyLen 0 ≤ s.toJson.prettyLen 0 :=
    Json.prettyLen_object_le (.cons ⟨rfl, Nat.le_refl _⟩ (.cons ⟨rfl, Nat.le_refl _⟩
      (.cons ⟨rfl, Json.prettyLen_array_le (hw.map _)⟩
        (.cons ⟨rfl, Json.prettyLen_array_le (hp.map _)⟩
        (.cons ⟨rfl, Nat.le_refl _⟩
          (.cons ⟨rfl, Nat.le_refl _⟩ (.cons ⟨rfl, Nat.le_refl _⟩ .nil)))))))
  unfold fits at hfits ⊢
  rw [decide_eq_true_iff] at hfits ⊢
  exact hlen.trans hfits

/-- A call whose edit is valid and fits is stored. -/
theorem Store.mutate_eq_ok {st : Store} {t : PersistedGlobalWorkspaces} {reply : Reply}
    (hedit : op.edit st.memory = .ok (t, reply)) (hvalid : t.Valid) (hfits : t.fits = true) :
    (st.mutate op true).map Prod.fst = .ok ⟨t, some t⟩ := by
  have hchecked : validate t = .ok () := validate_eq_ok.mpr hvalid
  simp [Store.mutate, hedit, persist, hchecked, save, hfits, require, bind, Except.bind, Except.map]

/-- What a call stores was valid. -/
theorem Store.valid_of_mutate {st st' : Store} {reply : Reply} {written : Bool}
    (h : st.mutate op written = .ok (st', reply)) : st'.memory.Valid := by
  simp only [Store.mutate, persist, bind_eq_ok] at h
  obtain ⟨⟨edited, reply'⟩, -, _, ⟨_, hvalid, _, -, hstored⟩, hout⟩ := h
  obtain rfl := Except.ok.inj hstored
  obtain ⟨rfl, -⟩ := Prod.mk.inj (Except.ok.inj hout)
  exact validate_eq_ok.mp hvalid

/-! ## Cancelling all of them -/

theorem Store.runAll_append (st : Store) (front ops : List Operation) :
    st.runAll (front ++ ops) = (st.runAll front >>= fun st => st.runAll ops) :=
  List.foldlM_append ..

theorem withoutOperation_eq (s : PersistedGlobalWorkspaces) (q : PendingWorkspaceResource)
    (hq : q.globalWorkspaceId = w.id) (hdistinct : Distinct (·.operationId) s.pendingResources)
    (hmem : q ∈ s.pendingResources) :
    (s.withoutOperation q.operationId).withoutPending w.id = s.withoutPending w.id
      ∧ (s.withoutOperation q.operationId).without w.id = s.without w.id := by
  have hfilter : (s.pendingResources.filter (·.operationId ≠ q.operationId)).filter
      (·.globalWorkspaceId ≠ w.id) = s.pendingResources.filter (·.globalWorkspaceId ≠ w.id) := by
    rw [List.filter_filter]
    refine List.filter_congr fun r hr => ?_
    by_cases href : r.globalWorkspaceId = w.id
    · simp [href]
    · have hne : r.operationId ≠ q.operationId := fun he =>
        href ((List.inj_on_of_nodup_map hdistinct hr hmem he) ▸ hq)
      simp [hne]
  unfold without withoutPending withoutOperation
  dsimp only
  rw [hfilter]
  exact ⟨rfl, rfl⟩

/-- Until the last one is cancelled the Workspace stays and only the pending operations go. -/
theorem Store.runAll_front {st : Store} {front : List PendingWorkspaceResource}
    {ops : List Operation}
    (hvalid : st.memory.Valid) (hfits : st.memory.fits = true) (hw : w ∈ st.memory.workspaces)
    (hops : List.Forall₂ Cancels front ops) (hperm : (front ++ [q]).Perm (st.memory.referring w.id))
    (hnever : ∀ p ∈ front, p.ownerAttempted = false) :
    ∃ st', st.runAll ops = .ok st' ∧ st'.memory.Valid ∧ st'.memory.fits = true
      ∧ w ∈ st'.memory.workspaces ∧ st'.memory.referring w.id = [q]
      ∧ st'.memory.withoutPending w.id = st.memory.withoutPending w.id
      ∧ st'.memory.without w.id = st.memory.without w.id
      ∧ st'.memory.pendingDefaultCwdOperations = st.memory.pendingDefaultCwdOperations := by
  -- Each cancellation leaves a valid state with the rest of the operations and the Workspace.
  induction hops generalizing st with
  | nil =>
      exact ⟨st, rfl, hvalid, hfits, hw, (List.perm_singleton.mp hperm.symm), rfl, rfl, rfl⟩
  | @cons p op front ops hcancels hops ih =>
      obtain ⟨hp, hrest⟩ := List.forall_mem_cons.mp hnever
      have hdistinct : Distinct (·.operationId) st.memory.pendingResources := hvalid.pendingIds
      have hreferring (r : PendingWorkspaceResource) (hr : r ∈ p :: front ++ [q]) :
          r ∈ st.memory.pendingResources ∧ r.globalWorkspaceId = w.id := by
        obtain ⟨hmem, hid⟩ := List.mem_filter.mp (hperm.mem_iff.mp hr)
        exact ⟨hmem, of_decide_eq_true hid⟩
      obtain ⟨hmem, hid⟩ := hreferring p List.mem_cons_self
      have hnodup : Distinct (·.operationId) (p :: (front ++ [q])) :=
        (hdistinct.filter _).perm hperm.symm
      have hother := hreferring q (List.mem_append_right _ (List.mem_singleton_self q))
      have hne : q.operationId ≠ p.operationId :=
        hnodup.head_ne (List.mem_append_right _ (List.mem_singleton_self q))
      obtain ⟨reply, hedit⟩ := hcancels.edit hvalid hmem hp
      rw [removePending_of_others hvalid hmem hother.1 hne (hother.2.trans hid.symm)] at hedit
      have hsub : (st.memory.pendingResources.filter (·.operationId ≠ p.operationId)).Sublist
          st.memory.pendingResources := List.filter_sublist
      have hvalid' : (st.memory.withoutOperation p.operationId).Valid :=
        hvalid.sublist (.refl _) hsub (fun r hr => (hvalid.pending r (hsub.subset hr)).2)
          fun d hd => (hvalid.pendingDefaultCwd d hd).2.1
      have hfits' : (st.memory.withoutOperation p.operationId).fits = true :=
        fits_sublist (s := st.memory) hfits (.refl _) hsub
      have hperm' : (front ++ [q]).Perm
          ((st.memory.withoutOperation p.operationId).referring w.id) := by
        have hfiltered := hperm.filter (·.operationId ≠ p.operationId)
        have hkeep : (p :: front ++ [q]).filter (·.operationId ≠ p.operationId) = front ++ [q] := by
          rw [List.cons_append, List.filter_cons, if_neg (by simp)]
          exact List.filter_eq_self.mpr fun r hr => decide_eq_true (hnodup.head_ne hr)
        rw [hkeep] at hfiltered
        refine hfiltered.trans (.of_eq ?_)
        rw [referring, referring, withoutOperation, List.filter_comm]
      obtain ⟨st', hrun, hv, hf, hw', hlast, hpending, hwithout, hdefault⟩ :=
        @ih ⟨st.memory.withoutOperation p.operationId,
          some (st.memory.withoutOperation p.operationId)⟩
          hvalid' hfits' hw hperm' hrest
      obtain ⟨hpendingEq, hwithoutEq⟩ := withoutOperation_eq st.memory p hid hdistinct hmem
      refine ⟨st', ?_, hv, hf, hw', hlast, hpending.trans hpendingEq, hwithout.trans hwithoutEq,
        hdefault⟩
      rw [Store.runAll, List.foldlM_cons, Store.mutate_eq_ok hedit hvalid' hfits']
      exact hrun

/-- The last cancellation takes the Workspace with it if the operation creates it. -/
theorem Store.runAll_last {st : Store} {front : List PendingWorkspaceResource}
    {ops : List Operation}
    (hvalid : st.memory.Valid) (hfits : st.memory.fits = true) (hw : w ∈ st.memory.workspaces)
    (hplacements : w.placements = []) (hops : List.Forall₂ Cancels front ops) (hop : Cancels q op)
    (hperm : (front ++ [q]).Perm (st.memory.referring w.id))
    (hnever : ∀ p ∈ front ++ [q], p.ownerAttempted = false)
    (hdefault : q.createsWorkspace = true →
      ∀ d ∈ st.memory.pendingDefaultCwdOperations, d.globalWorkspaceId ≠ w.id) :
    st.runAll (ops ++ [op]) = .ok
      (if q.createsWorkspace then ⟨st.memory.without w.id, some (st.memory.without w.id)⟩
      else ⟨st.memory.withoutPending w.id, some (st.memory.withoutPending w.id)⟩) := by
  -- The cancellations before the last one leave the Workspace with this operation alone.
  obtain ⟨st', hrun, hv, hf, hw', hlast, hpending, hwithout, hdefaultEq⟩ :=
    Store.runAll_front hvalid hfits hw hops hperm fun p hp => hnever p (List.mem_append_left _ hp)
  have hq : q ∈ st'.memory.pendingResources :=
    List.mem_of_mem_filter (hlast ▸ List.mem_singleton_self q : q ∈ st'.memory.referring w.id)
  obtain ⟨reply, hedit⟩ :=
      hop.edit hv hq (hnever q (List.mem_append_right _ (List.mem_singleton_self q)))
  rw [removePending_last hv hw' hplacements hlast] at hedit
  have hpsub : (st'.memory.pendingResources.filter (·.globalWorkspaceId ≠ w.id)).Sublist
      st'.memory.pendingResources := List.filter_sublist
  have hstep (t : PersistedGlobalWorkspaces) (hedit : op.edit st'.memory = .ok (t, reply))
      (ht : t.Valid) (htfits : t.fits = true) : st.runAll (ops ++ [op]) = .ok ⟨t, some t⟩ := by
    rw [Store.runAll_append, hrun]
    show ([op].foldlM (fun st op => (st.mutate op true).map Prod.fst) st') = _
    rw [List.foldlM_cons, Store.mutate_eq_ok hedit ht htfits]
    rfl
  cases hcreates : q.createsWorkspace with
  -- The Workspace was there before.
  | false =>
      rw [hcreates, if_neg Bool.false_ne_true] at hedit
      have hvalid' : (st'.memory.withoutPending w.id).Valid :=
        hv.sublist (.refl _) hpsub (fun r hr => (hv.pending r (hpsub.subset hr)).2)
          fun d hd => (hv.pendingDefaultCwd d hd).2.1
      have hfits' : (st'.memory.withoutPending w.id).fits = true :=
        fits_sublist (s := st'.memory) hf (.refl _) hpsub
      rw [if_neg Bool.false_ne_true, ← hpending]
      exact hstep _ hedit hvalid' hfits'
  -- The operation creates it, and nothing else refers to it.
  | true =>
      rw [hcreates, if_pos rfl] at hedit
      have hwsub : (st'.memory.workspaces.filter (·.id ≠ w.id)).Sublist st'.memory.workspaces :=
        List.filter_sublist
      have hkept (id : String) (hid : id ∈ st'.memory.workspaceIds) (hne : id ≠ w.id) :
          id ∈ (st'.memory.workspaces.filter (·.id ≠ w.id)).map (·.id) := by
        obtain ⟨v, hv, rfl⟩ := List.mem_map.mp hid
        exact List.mem_map_of_mem (List.mem_filter.mpr ⟨hv, decide_eq_true hne⟩)
      have hvalid' : (st'.memory.without w.id).Valid := by
        refine hv.sublist hwsub hpsub (fun r hr => ?_) fun d hd => ?_
        · exact hkept _ (hv.pending r (hpsub.subset hr)).2
            (of_decide_eq_true (List.mem_filter.mp hr).2)
        · exact hkept _ (hv.pendingDefaultCwd d hd).2.1 (hdefault hcreates d (hdefaultEq ▸ hd))
      have hfits' : (st'.memory.without w.id).fits = true :=
        fits_sublist (s := st'.memory) hf hwsub hpsub
      rw [if_pos rfl, ← hwithout]
      exact hstep _ hedit hvalid' hfits'

/-! ## Every order -/

/-- Whatever the order and the calls that cancel the pending operations on a Workspace: the
Workspace is there until the last one, which takes it away, and what is stored is the same. -/
def CancelledTogether (st : Store) (w : GlobalWorkspaceSnapshot) : Prop :=
  ∀ order ops, order.Perm (st.memory.referring w.id) → List.Forall₂ Cancels order ops →
    st.runAll ops = .ok ⟨st.memory.without w.id, some (st.memory.without w.id)⟩
      ∧ ∀ front op, ops = front ++ [op] →
        ∃ st', st.runAll front = .ok st' ∧ w ∈ st'.memory.workspaces

theorem forall₂_cancelResource (order : List PendingWorkspaceResource) :
    List.Forall₂ Cancels order (order.map .cancelResource) := by
  induction order with
  | nil => exact .nil
  | cons q order ih => exact .cons (.resource q rfl rfl) ih

theorem forall₂_append_singleton {order : List PendingWorkspaceResource} {front : List Operation}
    (h : List.Forall₂ Cancels order (front ++ [op])) :
    ∃ before q, order = before ++ [q] ∧ List.Forall₂ Cancels before front ∧ Cancels q op := by
  induction front generalizing order with
  | nil =>
      cases h with
      | cons hop hnil =>
          cases hnil
          exact ⟨[], _, rfl, .nil, hop⟩
  | cons op' front ih =>
      cases h with
      | cons hop' hrest =>
          obtain ⟨before, q, rfl, hbefore, hop⟩ := ih hrest
          exact ⟨_ :: before, q, rfl, .cons hop' hbefore, hop⟩

/-- The Workspace goes with the last cancellation in every order, and its name is free, exactly when
every pending operation on it creates it and no prepared default directory refers to it. -/
theorem cancelledTogether_iff {st : Store} (hvalid : validate st.memory = .ok ())
    (hfits : st.memory.fits = true) (hw : w ∈ st.memory.workspaces)
    (hplacements : w.placements = [])
    (hpending : st.memory.referring w.id ≠ [])
    (hnever : ∀ p ∈ st.memory.referring w.id, p.ownerAttempted = false) :
    (CancelledTogether st w ∧ ∀ v ∈ (st.memory.without w.id).workspaces, v.name ≠ w.name) ↔
      (∀ p ∈ st.memory.referring w.id, p.createsWorkspace = true)
        ∧ ∀ d ∈ st.memory.pendingDefaultCwdOperations, d.globalWorkspaceId ≠ w.id := by
  have hv := validate_eq_ok.mp hvalid
  constructor
  · rintro ⟨htogether, -⟩
    refine ⟨fun q hq => ?_, ?_⟩
    · -- An operation that does not create the Workspace leaves it when it is cancelled last.
      by_contra hcreates
      rw [Bool.not_eq_true] at hcreates
      have hperm : ((st.memory.referring w.id).erase q ++ [q]).Perm (st.memory.referring w.id) :=
        (List.perm_append_singleton q _).trans (List.perm_cons_erase hq).symm
      have hrun := (htogether _ _ hperm (forall₂_cancelResource _)).1
      rw [List.map_append, List.map_singleton, Store.runAll_last hv hfits hw hplacements
        (forall₂_cancelResource _) (.resource q rfl rfl) hperm (fun p hp =>
          hnever p (hperm.mem_iff.mp hp))
        (fun h => absurd (hcreates.symm.trans h) Bool.false_ne_true), hcreates,
        if_neg Bool.false_ne_true] at hrun
      have hsame : st.memory.workspaces = (st.memory.without w.id).workspaces :=
        congrArg (fun st => st.memory.workspaces) (Except.ok.inj hrun)
      rw [hsame] at hw
      exact of_decide_eq_true (List.mem_filter.mp hw).2 rfl
    · -- A prepared default directory would refer to a Workspace that what is stored has not.
      intro d hd href
      have hrun := (htogether _ _ (.refl _) (forall₂_cancelResource _)).1
      obtain ⟨front, q, hlast⟩ :=
        (List.eq_nil_or_concat (st.memory.referring w.id)).resolve_left hpending
      rw [hlast, List.concat_eq_append, List.map_append, Store.runAll_append, bind_eq_ok] at hrun
      obtain ⟨st', -, hrun⟩ := hrun
      have hstored : (st.memory.without w.id).Valid := by
        simp only [List.map_singleton, Store.runAll, List.foldlM_cons, List.foldlM_nil, bind_eq_ok,
          map_eq_ok, pure, Except.pure, Except.ok.injEq] at hrun
        obtain ⟨_, ⟨⟨st'', reply⟩, hmutate, rfl⟩, hst⟩ := hrun
        have hmemory := Store.valid_of_mutate hmutate
        rw [show st'' = _ from hst] at hmemory
        exact hmemory
      obtain ⟨v, hvmem, hid⟩ := List.mem_map.mp (hstored.pendingDefaultCwd d hd).2.1
      exact of_decide_eq_true (List.mem_filter.mp hvmem).2 (hid.trans href)
  · rintro ⟨hcreates, hdefault⟩
    refine ⟨fun order ops hperm hops => ?_, fun v hmem hname => ?_⟩
    · -- Whichever operation comes last creates the Workspace, so its cancellation takes it away.
      obtain ⟨front, op, rfl⟩ : ∃ front op, ops = front ++ [op] := by
        rcases List.eq_nil_or_concat ops with rfl | ⟨front, op, rfl⟩
        · cases hops
          exact absurd (List.nil_perm.mp hperm) hpending
        · exact ⟨front, op, List.concat_eq_append⟩
      obtain ⟨before, q, rfl, hbefore, hop⟩ := forall₂_append_singleton hops
      have hmem (p : PendingWorkspaceResource) (hp : p ∈ before ++ [q]) :
          p ∈ st.memory.referring w.id := hperm.mem_iff.mp hp
      have hrun := Store.runAll_last hv hfits hw hplacements hbefore hop hperm
        (fun p hp => hnever p (hmem p hp)) fun _ => hdefault
      rw [hcreates q (hmem q (List.mem_append_right _ (List.mem_singleton_self q))),
        if_pos rfl] at hrun
      refine ⟨hrun, fun front' op' hsplit => ?_⟩
      obtain ⟨rfl, -⟩ := List.append_inj' hsplit rfl
      obtain ⟨st', hst, -, -, hw', -⟩ := Store.runAll_front hv hfits hw hbefore hperm
        fun p hp => hnever p (hmem p (List.mem_append_left _ hp))
      exact ⟨st', hst, hw'⟩
    · obtain ⟨hmem, hne⟩ := List.mem_filter.mp hmem
      exact of_decide_eq_true hne (congrArg _ (List.inj_on_of_nodup_map hv.names hmem hw hname))

end Cancelling

/-! ## Two operations on a prepared Workspace -/

def projectId : String := "10000000-0000-4000-8000-000000000001"

/-- A request for a Workspace with a Shell. -/
def projectRequest : WorkspaceShellRequest where
  operationId := "20000000-0000-4000-8000-000000000001"
  requestFingerprint := "aaaaaaaaaaaaaaaaaaaaaaaaaaaaaaaaaaaaaaaaaaaaaaaaaaaaaaaaaaaaaaaa"
  requestBytes := 100
  semanticFingerprint := "bbbbbbbbbbbbbbbbbbbbbbbbbbbbbbbbbbbbbbbbbbbbbbbbbbbbbbbbbbbbbbbb"
  globalWorkspaceId := projectId
  name := "project"
  nodeId := "30000000-0000-4000-8000-000000000001"
  requestedOwnerWorkspaceId := "40000000-0000-4000-8000-000000000001"
  defaultCwd := "/home/project"
  shellId := "50000000-0000-4000-8000-000000000001"

/-- A request for another Shell on the same Workspace. -/
def shellRequest : ResourceRequest where
  globalId := projectId
  operationId := "20000000-0000-4000-8000-000000000002"
  requestFingerprint := "cccccccccccccccccccccccccccccccccccccccccccccccccccccccccccccccc"
  requestBytes := 100
  expectedGlobalRevision := 1
  nodeId := "30000000-0000-4000-8000-000000000001"
  requestedOwnerWorkspaceId := "40000000-0000-4000-8000-000000000001"
  ownerWorkspaceName := "project"
  defaultCwd := some "/home/project"
  resourceId := "50000000-0000-4000-8000-000000000002"
  kind := .shell
  ownerAttempted := false

def cancelProject : Operation :=
  .cancelPendingOperationIfNeverAttempted projectRequest.operationId
    projectRequest.requestFingerprint

def cancelShell : Operation :=
  .cancelPendingOperationIfNeverAttempted shellRequest.operationId shellRequest.requestFingerprint

/-- The Workspaces and the pending operations that calls leave, by their ids. -/
def Store.left (st : Store) (ops : List Operation) : Except IoError (List String × List String) :=
  (st.runAll ops).map fun st => (st.memory.workspaceIds, st.memory.pendingIds)

set_option synthInstance.maxSize 1000 in
/-- A Workspace with a Shell is prepared and then another Shell on it. Cancelling the Workspace's
own operation last takes the Workspace away; cancelling it first leaves the Workspace for good. -/
theorem cancellation_order_matters :
    ((Store.mk .empty none).runAll
      [.prepareWorkspaceShell projectRequest, .prepareResource shellRequest]).map
        (fun st => (st.memory.workspaces.map (·.placements.length),
          st.memory.pendingResources.map (·.ownerAttempted),
          st.left [cancelProject, cancelShell], st.left [cancelShell, cancelProject]))
      = .ok ([0], [false, false], .ok ([projectId], []), .ok ([], [])) := by decide +kernel

/-- The request for the Workspace again, under another id: what it asks for is the same. -/
def repeatedRequest : WorkspaceShellRequest :=
  { projectRequest with
    operationId := "20000000-0000-4000-8000-000000000003"
    requestFingerprint := "dddddddddddddddddddddddddddddddddddddddddddddddddddddddddddddddd"
    requestedOwnerWorkspaceId := "40000000-0000-4000-8000-000000000003"
    shellId := "50000000-0000-4000-8000-000000000003" }

def cancelRepeated : Operation :=
  .cancelPendingOperationIfNeverAttempted repeatedRequest.operationId
    repeatedRequest.requestFingerprint

/-- The store after the Workspace is asked for twice. -/
def preparedTwice : Store where
  memory := { PersistedGlobalWorkspaces.empty with
    workspaces := [PersistedGlobalWorkspaces.newWorkspace projectRequest]
    pendingResources :=
      [{ PersistedGlobalWorkspaces.newWorkspaceShell
        projectRequest with completionReservation := 66394 },
        { PersistedGlobalWorkspaces.twinResource repeatedRequest
            (PersistedGlobalWorkspaces.newWorkspaceShell projectRequest) with
          completionReservation := 66394 }] }
  file := none

/-- The two requests leave its Workspace and its pending operations. -/
theorem preparedTwice_run :
    ((Store.mk .empty none).runAll
      [.prepareWorkspaceShell projectRequest, .prepareWorkspaceShell repeatedRequest]).map
        (fun st => (st.memory.workspaces, st.memory.pendingResources))
      = .ok (preparedTwice.memory.workspaces, preparedTwice.memory.pendingResources) := by
  decide +kernel

/-- The Workspace's two operations both create it: whichever is cancelled first leaves it to the
other, which takes it away, and both orders store the same state. -/
theorem preparedTwice_cancelledTogether :
    (preparedTwice.memory.referring projectId).map (·.operationId)
        = [projectRequest.operationId, repeatedRequest.operationId]
      ∧ CancelledTogether preparedTwice (PersistedGlobalWorkspaces.newWorkspace projectRequest)
      ∧ preparedTwice.runAll [cancelProject, cancelRepeated]
        = preparedTwice.runAll [cancelRepeated, cancelProject] := by
  have hvalid : validate preparedTwice.memory = .ok () := by decide +kernel
  have htogether := ((cancelledTogether_iff
    (w := PersistedGlobalWorkspaces.newWorkspace projectRequest) hvalid (by decide +kernel)
      (List.mem_singleton_self _) rfl (by decide +kernel) (by decide +kernel)).mpr
      ⟨by decide +kernel, by decide +kernel⟩).1
  refine ⟨by decide +kernel, htogether, ?_⟩
  have hproject := (htogether _ [cancelProject, cancelRepeated] (.refl _)
    (.cons (.operation _ rfl) (.cons (.operation _ rfl) .nil))).1
  have hrepeated := (htogether _ [cancelRepeated, cancelProject] (.swap _ _ [])
    (.cons (.operation _ rfl) (.cons (.operation _ rfl) .nil))).1
  exact hproject.trans hrepeated.symm

end Boomux.Coordinator
