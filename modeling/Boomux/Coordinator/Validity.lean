import Boomux.Coordinator.Store
import Mathlib.Data.List.Flatten

/-!
# What the validation of the coordinator store accepts

`validate` goes through the Workspaces and the four ledgers and collects the identities it meets.
It accepts exactly the states described by `PersistedGlobalWorkspaces.Valid`; a state that lost some
Workspaces and pending operations is still one of them if no operation refers to what is gone.
-/

set_option autoImplicit false

namespace Boomux.Coordinator

open Rust

/-! ## Workspaces -/

def WorkspacePlacementSnapshot.Valid (p : WorkspacePlacementSnapshot) (closing : Bool) : Prop :=
  uuidParses p.nodeId = true ∧ p.workspaceId.isEmpty = false
    ∧ (closing == (p.state == .closePending)) = true

theorem checkPlacement_eq_ok {closing : Bool} {owners owners' : List (String × String)}
    {p : WorkspacePlacementSnapshot} : checkPlacement closing owners p = .ok owners' ↔
      p.Valid closing ∧ p.owner ∉ owners ∧ owners' = p.owner :: owners := by
  unfold checkPlacement WorkspacePlacementSnapshot.Valid
  simp only [require_bind_eq_ok, Except.ok.injEq, Bool.and_eq_true, Bool.not_eq_true',
    List.contains_eq_mem, decide_eq_false_iff_not]
  constructor
  · rintro ⟨⟨⟨hnode, hid⟩, hnew⟩, hclosing, rfl⟩
    exact ⟨⟨hnode, hid, hclosing⟩, hnew, rfl⟩
  · rintro ⟨⟨hnode, hid, hclosing⟩, hnew, rfl⟩
    exact ⟨⟨⟨hnode, hid⟩, hnew⟩, hclosing, rfl⟩

/-- A Workspace that `validate` accepts among others. -/
structure GlobalWorkspaceSnapshot.Valid (w : GlobalWorkspaceSnapshot) : Prop where
  name : validateName w.name = .ok ()
  id : uuidParses w.id = true
  revision : (w.revision != 0) = true
  length : w.placements.length ≤ maxPlacements
  placements : ∀ p ∈ w.placements, p.Valid w.closing

/-- The placements' owners. -/
def GlobalWorkspaceSnapshot.owners (w : GlobalWorkspaceSnapshot) : List (String × String) :=
  w.placements.map (·.owner)

theorem checkWorkspace_eq_ok {seen seen' : Seen} {w : GlobalWorkspaceSnapshot} :
    checkWorkspace seen w = .ok seen' ↔
      w.Valid ∧ w.id ∉ seen.ids ∧ w.name ∉ seen.names ∧ w.owners.Nodup
        ∧ (∀ owner ∈ w.owners, owner ∉ seen.owners)
        ∧ seen' = ⟨w.id :: seen.ids, w.name :: seen.names, w.owners.reverse ++ seen.owners⟩ := by
  have hplacements (owners : List (String × String)) :
      w.placements.foldlM (checkPlacement w.closing) seen.owners = .ok owners ↔ _ :=
    foldlM_collect fun _ _ _ => checkPlacement_eq_ok
  unfold checkWorkspace GlobalWorkspaceSnapshot.owners
  simp only [bind_eq_ok, require_eq_ok, hplacements, Except.ok.injEq, Bool.and_eq_true,
    Bool.not_eq_true', List.contains_eq_mem, decide_eq_false_iff_not, decide_eq_true_iff,
    List.forall_mem_map]
  constructor
  · rintro ⟨_, hname, _, ⟨⟨⟨⟨hid, hrev⟩, hlen⟩, hnewId⟩, hnewName⟩, _, ⟨hp, hd, hnew, rfl⟩, rfl⟩
    exact ⟨⟨hname, hid, hrev, hlen, hp⟩, hnewId, hnewName, hd, hnew, rfl⟩
  · rintro ⟨⟨hname, hid, hrev, hlen, hp⟩, hnewId, hnewName, hd, hnew, rfl⟩
    exact ⟨(), hname, (), ⟨⟨⟨⟨hid, hrev⟩, hlen⟩, hnewId⟩, hnewName⟩, _, ⟨hp, hd, hnew, rfl⟩, rfl⟩

/-- The owners of all placements. -/
def owners (workspaces : List GlobalWorkspaceSnapshot) : List (String × String) :=
  workspaces.flatMap (·.owners)

theorem foldlM_checkWorkspace_eq_ok {l : List GlobalWorkspaceSnapshot} {seen seen' : Seen} :
    l.foldlM checkWorkspace seen = .ok seen' ↔
      (∀ w ∈ l, w.Valid) ∧ (l.map (·.id)).Nodup ∧ (∀ w ∈ l, w.id ∉ seen.ids)
        ∧ (l.map (·.name)).Nodup ∧ (∀ w ∈ l, w.name ∉ seen.names)
        ∧ (owners l).Nodup ∧ (∀ owner ∈ owners l, owner ∉ seen.owners)
        ∧ seen' = ⟨(l.map (·.id)).reverse ++ seen.ids, (l.map (·.name)).reverse ++ seen.names,
            (owners l).reverse ++ seen.owners⟩ := by
  induction l generalizing seen with
  | nil => simp [owners, pure, Except.pure, eq_comm]
  | cons w l ih =>
      have howners : owners (w :: l) = w.owners ++ owners l := rfl
      rw [List.foldlM_cons, bind_eq_ok, howners]
      simp only [checkWorkspace_eq_ok, ih, List.forall_mem_cons, List.map_cons, List.nodup_cons,
        List.nodup_append, List.reverse_cons, List.reverse_append, List.append_assoc,
        List.singleton_append]
      constructor
      · rintro ⟨_, ⟨hw, hid, hname, hd, hnew, rfl⟩, hl, hids, hidsNew, hnames, hnamesNew, hds,
          hdsNew, rfl⟩
        simp only [List.mem_cons, List.mem_append, List.mem_reverse,
          not_or] at hidsNew hnamesNew hdsNew
        refine ⟨⟨hw, hl⟩, ⟨?_, hids⟩, ⟨hid, fun v hv => (hidsNew v hv).2⟩, ⟨?_, hnames⟩,
          ⟨hname, fun v hv => (hnamesNew v hv).2⟩, ⟨hd, hds, ?_⟩, ?_, rfl⟩
        · intro hmem
          obtain ⟨v, hv, he⟩ := List.mem_map.mp hmem
          exact (hidsNew v hv).1 he
        · intro hmem
          obtain ⟨v, hv, he⟩ := List.mem_map.mp hmem
          exact (hnamesNew v hv).1 he
        · rintro a ha b hb rfl
          exact (hdsNew a hb).1 ha
        · intro owner howner
          rcases List.mem_append.mp howner with howner | howner
          · exact hnew owner howner
          · exact (hdsNew owner howner).2
      · rintro ⟨⟨hw, hl⟩, ⟨hidHead, hids⟩, ⟨hid, hidsNew⟩, ⟨hnameHead, hnames⟩, ⟨hname, hnamesNew⟩,
          ⟨hd, hds, hdisjoint⟩, hnew, rfl⟩
        refine ⟨_, ⟨hw, hid, hname, hd, fun owner howner =>
          hnew owner (List.mem_append_left _ howner), rfl⟩,
          hl, hids, ?_, hnames, ?_, hds, ?_, rfl⟩
        · intro v hv hmem
          rcases List.mem_cons.mp hmem with he | hmem
          · exact hidHead (he ▸ List.mem_map_of_mem hv)
          · exact hidsNew v hv hmem
        · intro v hv hmem
          rcases List.mem_cons.mp hmem with he | hmem
          · exact hnameHead (he ▸ List.mem_map_of_mem hv)
          · exact hnamesNew v hv hmem
        · intro owner howner hmem
          rcases List.mem_append.mp hmem with hmem | hmem
          · exact hdisjoint owner (List.mem_reverse.mp hmem) owner howner rfl
          · exact hnew owner (List.mem_append_right _ howner) hmem

/-! ## Ledgers -/

/-- A pending operation that `validate` accepts, apart from the Workspace it refers to. -/
structure PendingWorkspaceResource.Valid (p : PendingWorkspaceResource) : Prop where
  ids : (uuidParses p.globalWorkspaceId && uuidParses p.operationId && uuidParses p.nodeId &&
    uuidParses p.requestedOwnerWorkspaceId && uuidParses p.ownerWorkspaceId &&
    uuidParses p.resourceId && p.expectedGlobalRevision != 0) = true
  fingerprints : p.requestFingerprint.all validFingerprint = true
    ∧ p.semanticFingerprint.all validFingerprint = true
  reservation : p.completionReservation ≤ maxCompletionReservationBytes
    ∧ (p.completionReservation == 0 || p.requestFingerprint.isSome) = true
  name : validateName p.ownerWorkspaceName = .ok ()

theorem checkPendingResource_eq_ok {ids pending pending' : List String}
    {p : PendingWorkspaceResource} :
    checkPendingResource ids pending p = .ok pending' ↔
      (p.Valid ∧ p.globalWorkspaceId ∈ ids) ∧ p.operationId ∉ pending
        ∧ pending' = p.operationId :: pending := by
  unfold checkPendingResource
  simp only [bind_eq_ok, require_eq_ok, Except.ok.injEq, Bool.and_eq_true, Bool.not_eq_true',
    List.contains_eq_mem, decide_eq_false_iff_not, decide_eq_true_iff]
  constructor
  · rintro ⟨_, ⟨⟨⟨⟨⟨⟨hids, hworkspace⟩, hnew⟩, hrequest⟩, hsemantic⟩, hsize⟩, hreserved⟩, _,
      hname, rfl⟩
    exact ⟨⟨⟨by simpa only [Bool.and_eq_true] using hids, ⟨hrequest, hsemantic⟩, ⟨hsize, hreserved⟩,
      hname⟩,
      hworkspace⟩, hnew, rfl⟩
  · rintro ⟨⟨⟨hids, ⟨hrequest, hsemantic⟩, ⟨hsize, hreserved⟩, hname⟩, hworkspace⟩, hnew, rfl⟩
    exact ⟨(), ⟨⟨⟨⟨⟨⟨by simpa only [Bool.and_eq_true] using hids, hworkspace⟩, hnew⟩, hrequest⟩,
      hsemantic⟩,
      hsize⟩, hreserved⟩, (), hname, rfl⟩

/-- A prepared default directory that `validate` accepts, apart from the Workspace it refers to. -/
def PendingDefaultCwdOperation.Valid (d : PendingDefaultCwdOperation) : Prop :=
  (uuidParses d.operationId && uuidParses d.globalWorkspaceId && uuidParses d.nodeId &&
    uuidParses d.ownerWorkspaceId && d.expectedGlobalRevision != 0 &&
    d.expectedOwnerRevision != 0 && isAbsolute d.defaultCwd &&
    d.completionReservation == defaultCwdReservation) = true

theorem checkPendingDefaultCwd_eq_ok {ids pending completed operations operations' : List String}
    {d : PendingDefaultCwdOperation} :
    checkPendingDefaultCwd ids pending completed operations d = .ok operations' ↔
      (d.Valid ∧ d.globalWorkspaceId ∈ ids ∧ d.operationId ∉ pending ∧ d.operationId ∉ completed)
        ∧ d.operationId ∉ operations ∧ operations' = d.operationId :: operations := by
  unfold checkPendingDefaultCwd PendingDefaultCwdOperation.Valid
  simp only [require_bind_eq_ok, Except.ok.injEq, Bool.and_eq_true, Bool.not_eq_true',
    List.contains_eq_mem, decide_eq_false_iff_not, decide_eq_true_iff]
  constructor
  · rintro ⟨⟨⟨⟨⟨hvalid, hworkspace⟩, hpending⟩, hcompleted⟩, hnew⟩, rfl⟩
    exact ⟨⟨hvalid, hworkspace, hpending, hcompleted⟩, hnew, rfl⟩
  · rintro ⟨⟨hvalid, hworkspace, hpending, hcompleted⟩, hnew, rfl⟩
    exact ⟨⟨⟨⟨⟨hvalid, hworkspace⟩, hpending⟩, hcompleted⟩, hnew⟩, rfl⟩

/-- A completed operation that `validate` accepts. -/
def CompletedWorkspaceOperation.Valid (c : CompletedWorkspaceOperation) : Prop :=
  ∃ resourceWorkspaceId, c.resource.workspaceId? = some resourceWorkspaceId
    ∧ (uuidParses c.operationId && validFingerprint c.requestFingerprint &&
      c.semanticFingerprint.all validFingerprint && uuidParses c.workspace.id &&
      c.workspace.revision != 0 && decide (c.workspace.placements.length ≤ maxPlacements) &&
      c.workspace.placements.any (·.workspaceId == resourceWorkspaceId)) = true

theorem checkCompleted_eq_ok {pending completed completed' : List String}
    {c : CompletedWorkspaceOperation} : checkCompleted pending completed c = .ok completed' ↔
      (c.Valid ∧ c.operationId ∉ pending) ∧ c.operationId ∉ completed
        ∧ completed' = c.operationId :: completed := by
  unfold checkCompleted CompletedWorkspaceOperation.Valid
  cases hresource : c.resource.workspaceId? with
  | none => simp
  | some resourceWorkspaceId =>
      simp only [require_bind_eq_ok, Except.ok.injEq, Bool.and_eq_true, Bool.not_eq_true',
        List.contains_eq_mem, decide_eq_false_iff_not, decide_eq_true_iff, Option.some.injEq,
        exists_eq_left']
      constructor
      · rintro ⟨⟨⟨hvalid, hnew⟩, hpending⟩, rfl⟩
        exact ⟨⟨hvalid, hpending⟩, hnew, rfl⟩
      · rintro ⟨⟨hvalid, hpending⟩, hnew, rfl⟩
        exact ⟨⟨⟨hvalid, hnew⟩, hpending⟩, rfl⟩

/-- A completed default directory that `validate` accepts. -/
def CompletedDefaultCwdOperation.Valid (c : CompletedDefaultCwdOperation) : Prop :=
  (uuidParses c.request.operationId && uuidParses c.request.globalWorkspaceId &&
    uuidParses c.request.nodeId && uuidParses c.request.ownerWorkspaceId &&
    c.request.expectedGlobalRevision != 0 && c.request.expectedOwnerRevision != 0 &&
    isAbsolute c.request.defaultCwd && c.request.completionReservation == 0 &&
    (c.result.result == "updated" || c.result.result == "unchanged") &&
    c.result.workspaceId == c.request.globalWorkspaceId && c.result.nodeId == c.request.nodeId &&
    c.result.ownerWorkspaceId == c.request.ownerWorkspaceId &&
    c.result.defaultCwd == c.request.defaultCwd &&
    completedDefaultCwdRevisionsAreValid c.request c.result) = true

theorem checkCompletedDefaultCwd_eq_ok {pending completed operations operations' : List String}
    {c : CompletedDefaultCwdOperation} :
    checkCompletedDefaultCwd pending completed operations c = .ok operations' ↔
      (c.Valid ∧ c.request.operationId ∉ pending ∧ c.request.operationId ∉ completed)
        ∧ c.request.operationId ∉ operations
          ∧ operations' = c.request.operationId :: operations := by
  unfold checkCompletedDefaultCwd CompletedDefaultCwdOperation.Valid
  simp only [require_bind_eq_ok, Except.ok.injEq, Bool.and_eq_true, Bool.not_eq_true',
    List.contains_eq_mem, decide_eq_false_iff_not]
  constructor
  · rintro ⟨⟨⟨⟨hvalid, hpending⟩, hcompleted⟩, hnew⟩, rfl⟩
    exact ⟨⟨hvalid, hpending, hcompleted⟩, hnew, rfl⟩
  · rintro ⟨⟨hvalid, hpending, hcompleted⟩, hnew, rfl⟩
    exact ⟨⟨⟨⟨hvalid, hpending⟩, hcompleted⟩, hnew⟩, rfl⟩

/-! ## States -/

namespace PersistedGlobalWorkspaces

/-- The bounds on the lists. -/
def sizesValid (s : PersistedGlobalWorkspaces) : Bool :=
  s.version == coordinatorWorkspaceVersion && decide (s.workspaces.length ≤ maxWorkspaces) &&
    decide (s.pendingResources.length ≤ maxPendingResources) &&
    decide (s.completedOperations.length ≤ maxCompletedOperations) &&
    decide (s.pendingDefaultCwdOperations.length ≤ maxPendingResources) &&
    decide (s.completedDefaultCwdOperations.length ≤ maxCompletedOperations)

def workspaceIds (s : PersistedGlobalWorkspaces) : List String := s.workspaces.map (·.id)

def pendingIds (s : PersistedGlobalWorkspaces) : List String :=
  s.pendingResources.map (·.operationId)

def completedIds (s : PersistedGlobalWorkspaces) : List String :=
  s.completedOperations.map (·.operationId)

/-- The operation ids of the two ledgers of default directories. -/
def defaultCwdIds (s : PersistedGlobalWorkspaces) : List String :=
  s.pendingDefaultCwdOperations.map (·.operationId) ++
    s.completedDefaultCwdOperations.map (·.request.operationId)

/-- What `validate` asks of a state. -/
structure Valid (s : PersistedGlobalWorkspaces) : Prop where
  sizes : s.sizesValid = true
  workspaces : ∀ w ∈ s.workspaces, w.Valid
  workspaceIds : s.workspaceIds.Nodup
  names : (s.workspaces.map (·.name)).Nodup
  owners : (owners s.workspaces).Nodup
  pending : ∀ p ∈ s.pendingResources, p.Valid ∧ p.globalWorkspaceId ∈ s.workspaceIds
  pendingIds : s.pendingIds.Nodup
  completed : ∀ c ∈ s.completedOperations, c.Valid ∧ c.operationId ∉ s.pendingIds
  completedIds : s.completedIds.Nodup
  pendingDefaultCwd : ∀ d ∈ s.pendingDefaultCwdOperations, d.Valid
    ∧ d.globalWorkspaceId ∈ s.workspaceIds ∧ d.operationId ∉ s.pendingIds
      ∧ d.operationId ∉ s.completedIds
  completedDefaultCwd : ∀ c ∈ s.completedDefaultCwdOperations, c.Valid
    ∧ c.request.operationId ∉ s.pendingIds ∧ c.request.operationId ∉ s.completedIds
  defaultCwdIds : s.defaultCwdIds.Nodup

variable {s : PersistedGlobalWorkspaces}

theorem validate_eq_ok : validate s = .ok () ↔ s.Valid := by
  -- Each loop collects the ids that the next one must not have.
  have hpending (ids pending : List String) :
      s.pendingResources.foldlM (checkPendingResource ids) [] = .ok pending ↔ _ :=
    foldlM_collect fun _ _ _ => checkPendingResource_eq_ok
  have hcompleted (pending completed : List String) :
      s.completedOperations.foldlM (checkCompleted pending) [] = .ok completed ↔ _ :=
    foldlM_collect fun _ _ _ => checkCompleted_eq_ok
  have hdefault (ids pending completed operations : List String) :
      s.pendingDefaultCwdOperations.foldlM (checkPendingDefaultCwd ids pending completed) []
        = .ok operations ↔ _ :=
    foldlM_collect fun _ _ _ => checkPendingDefaultCwd_eq_ok
  have hfinished (pending completed operations operations' : List String) :
      s.completedDefaultCwdOperations.foldlM (checkCompletedDefaultCwd pending completed) operations
        = .ok operations' ↔ _ :=
    foldlM_collect fun _ _ _ => checkCompletedDefaultCwd_eq_ok
  -- The two ledgers of default directories share one set of ids.
  have hids : s.defaultCwdIds.Nodup ↔ (s.pendingDefaultCwdOperations.map (·.operationId)).Nodup
      ∧ (s.completedDefaultCwdOperations.map (·.request.operationId)).Nodup
      ∧ ∀ c ∈ s.completedDefaultCwdOperations,
        c.request.operationId ∉ s.pendingDefaultCwdOperations.map (·.operationId) := by
    rw [PersistedGlobalWorkspaces.defaultCwdIds, List.nodup_append]
    refine and_congr_right fun _ => and_congr_right fun _ => ⟨?_, ?_⟩
    · intro h c hc hmem
      exact h _ hmem _ (List.mem_map_of_mem hc) rfl
    · rintro h a ha b hb rfl
      obtain ⟨c, hc, rfl⟩ := List.mem_map.mp hb
      exact h c hc ha
  unfold validate
  simp only [bind_eq_ok, require_eq_ok, foldlM_checkWorkspace_eq_ok, hpending, hcompleted, hdefault,
    hfinished, and_true, List.append_nil]
  constructor
  · rintro ⟨_, hsizes, _, ⟨hws, hwids, -, hnames, -, howners, -, rfl⟩, _, ⟨hp, hpids, -, rfl⟩, _,
      ⟨hc, hcids, -, rfl⟩, _, ⟨hd, hdids, -, rfl⟩, _, hf, hfids, hfnew, rfl⟩
    simp only [List.mem_reverse] at hp hc hd hf hfnew
    exact ⟨hsizes, hws, hwids, hnames, howners, hp, hpids, hc, hcids, hd, hf,
      hids.mpr ⟨hdids, hfids, hfnew⟩⟩
  · rintro ⟨hsizes, hws, hwids, hnames, howners, hp, hpids, hc, hcids, hd, hf, hdefaultIds⟩
    obtain ⟨hdids, hfids, hfnew⟩ := hids.mp hdefaultIds
    refine ⟨(), hsizes, _, ⟨hws, hwids, fun _ _ => List.not_mem_nil, hnames, fun _ _ =>
      List.not_mem_nil,
      howners, fun _ _ => List.not_mem_nil, rfl⟩, _,
      ⟨fun p hmem => ?_, hpids, fun _ _ => List.not_mem_nil, rfl⟩, _,
      ⟨fun c hmem => ?_, hcids, fun _ _ => List.not_mem_nil, rfl⟩, _,
      ⟨fun d hmem => ?_, hdids, fun _ _ => List.not_mem_nil, rfl⟩, _,
      fun c hmem => ?_, hfids, fun c hmem => List.mem_reverse.not.mpr (hfnew c hmem), rfl⟩
    all_goals simp only [List.mem_reverse]
    · exact hp p hmem
    · exact hc c hmem
    · exact hd d hmem
    · exact hf c hmem

/-- With fewer Workspaces and fewer pending operations a state is still valid, when what remains
refers to none of the Workspaces that are gone. -/
theorem Valid.sublist {workspaces : List GlobalWorkspaceSnapshot}
    {pendingResources : List PendingWorkspaceResource} (h : s.Valid)
    (hw : workspaces.Sublist s.workspaces) (hp : pendingResources.Sublist s.pendingResources)
    (hpref : ∀ p ∈ pendingResources, p.globalWorkspaceId ∈ workspaces.map (·.id))
    (hdref : ∀ d ∈ s.pendingDefaultCwdOperations, d.globalWorkspaceId ∈ workspaces.map (·.id)) :
    ({ s with workspaces := workspaces, pendingResources := pendingResources } :
      PersistedGlobalWorkspaces).Valid := by
  have hpids : (pendingResources.map (·.operationId)).Sublist s.pendingIds := hp.map _
  have hlost {id : String} (hid : id ∉ s.pendingIds) : id ∉ pendingResources.map (·.operationId) :=
    fun hmem => hid (hpids.subset hmem)
  have hsizes : workspaces.length ≤ s.workspaces.length
      ∧ pendingResources.length ≤ s.pendingResources.length :=
    ⟨hw.length_le, hp.length_le⟩
  refine ⟨?_, fun w hmem => h.workspaces w (hw.subset hmem), h.workspaceIds.sublist (hw.map _),
    h.names.sublist (hw.map _), h.owners.sublist (hw.flatMap _),
    fun p hmem => ⟨(h.pending p (hp.subset hmem)).1, hpref p hmem⟩,
    h.pendingIds.sublist hpids, fun c hc => ⟨(h.completed c hc).1, hlost (h.completed c hc).2⟩,
    h.completedIds, fun d hd => ?_, fun c hc => ?_, h.defaultCwdIds⟩
  · have hs := h.sizes
    simp only [sizesValid, Bool.and_eq_true, decide_eq_true_iff] at hs ⊢
    obtain ⟨⟨⟨⟨⟨hversion, hws⟩, hps⟩, hcs⟩, hds⟩, hfs⟩ := hs
    exact ⟨⟨⟨⟨⟨hversion, by omega⟩, by omega⟩, hcs⟩, hds⟩, hfs⟩
  · obtain ⟨hvalid, -, hpending, hcompleted⟩ := h.pendingDefaultCwd d hd
    exact ⟨hvalid, hdref d hd, hlost hpending, hcompleted⟩
  · obtain ⟨hvalid, hpending, hcompleted⟩ := h.completedDefaultCwd c hc
    exact ⟨hvalid, hlost hpending, hcompleted⟩

end PersistedGlobalWorkspaces

end Boomux.Coordinator
