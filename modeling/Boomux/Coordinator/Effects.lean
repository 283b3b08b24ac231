import Boomux.Coordinator.Machine
import Boomux.Coordinator.Validity

/-!
# What an operation does to the coordinator store

`Edited` says what every later invariant needs to know of a successful edit: which Workspaces
are closing after it, and where each record of the four ledgers comes from. A record is either
one that was there, with its identity kept, or the one that a request made. There is one lemma
for each operation, and `Operation.edited` collects them.
-/

set_option autoImplicit false

namespace Boomux.Coordinator

open Rust Keyed

/-! ## Identities -/

/-- What no operation changes on a pending record that has a fingerprint. -/
def PendingWorkspaceResource.identity (p : PendingWorkspaceResource) : PendingWorkspaceResource :=
  { p with completionReservation := 0, ownerAttempted := false, semanticFingerprint := none }

/-- What no operation changes on the record of a default directory. -/
def PendingDefaultCwdOperation.identity (d : PendingDefaultCwdOperation) :
    PendingDefaultCwdOperation :=
  { d with completionReservation := 0, ownerAttempted := false }

/-- The record `p` is the record `q` after an edit. -/
structure Keeps (q p : PendingWorkspaceResource) : Prop where
  identity : p.identity = q.identity
  reserved : q.completionReservation ≠ 0 → p.completionReservation ≠ 0
  attempted : q.ownerAttempted = true → p.ownerAttempted = true

theorem Keeps.refl (p : PendingWorkspaceResource) : Keeps p p := ⟨rfl, id, id⟩

theorem Keeps.trans {p q r : PendingWorkspaceResource} (h : Keeps p q) (h' : Keeps q r) :
    Keeps p r :=
  ⟨h'.identity.trans h.identity, h'.reserved ∘ h.reserved, h'.attempted ∘ h.attempted⟩

theorem Keeps.operationId {p q : PendingWorkspaceResource} (h : Keeps q p) :
    p.operationId = q.operationId :=
  (congrArg PendingWorkspaceResource.operationId h.identity : p.identity.operationId =
    q.identity.operationId)

theorem Keeps.requestFingerprint {p q : PendingWorkspaceResource} (h : Keeps q p) :
    p.requestFingerprint = q.requestFingerprint :=
  (congrArg PendingWorkspaceResource.requestFingerprint h.identity :
    p.identity.requestFingerprint = q.identity.requestFingerprint)

theorem Keeps.globalWorkspaceId {p q : PendingWorkspaceResource} (h : Keeps q p) :
    p.globalWorkspaceId = q.globalWorkspaceId :=
  (congrArg PendingWorkspaceResource.globalWorkspaceId h.identity :
    p.identity.globalWorkspaceId = q.identity.globalWorkspaceId)

/-- The fingerprint of a request for a Shell or a Launcher. -/
def Request.fingerprint? : Request → Option String
  | defaultCwd _ => none
  | resource a => some a.requestFingerprint
  | workspaceShell a => some a.requestFingerprint

/-- The record after a retry; `prepare_resource_for_attempt` notes that the owner is asked. -/
def ResourceRequest.mark (a : ResourceRequest) (p : PendingWorkspaceResource) :
    PendingWorkspaceResource :=
  if a.ownerAttempted then { p with ownerAttempted := true } else p

theorem ResourceRequest.keeps_mark (a : ResourceRequest) (p : PendingWorkspaceResource) :
    Keeps p (a.mark p) := by
  unfold ResourceRequest.mark
  split
  · exact ⟨rfl, id, fun _ => rfl⟩
  · exact .refl p

/-- Whether a pending record is what the request asks for. -/
def ResourceRequest.describes (a : ResourceRequest) (p : PendingWorkspaceResource) : Bool :=
  p.globalWorkspaceId == a.globalId && p.expectedGlobalRevision == a.expectedGlobalRevision &&
    p.nodeId == a.nodeId && p.requestedOwnerWorkspaceId == a.requestedOwnerWorkspaceId &&
    p.ownerWorkspaceName == a.ownerWorkspaceName && p.defaultCwd == a.defaultCwd &&
    p.resourceId == a.resourceId && p.kind == a.kind &&
    p.requestFingerprint.all (· == a.requestFingerprint)

def WorkspaceShellRequest.describes (a : WorkspaceShellRequest)
    (p : PendingWorkspaceResource) : Bool :=
  p.createsWorkspace && p.globalWorkspaceId == a.globalWorkspaceId && p.nodeId == a.nodeId &&
    p.requestedOwnerWorkspaceId == a.requestedOwnerWorkspaceId && p.ownerWorkspaceName == a.name &&
    p.defaultCwd == some a.defaultCwd && p.resourceId == a.shellId && p.kind == .shell &&
    p.requestFingerprint.all (· == a.requestFingerprint)

/-- The call, if it makes a request, makes this one. -/
def Makes (r : Option Request) (operationId fingerprint : String) : Prop :=
  ∃ request, r = some request ∧ request.operationId = operationId ∧
    request.fingerprint? = some fingerprint

/-! ## States -/

namespace PersistedGlobalWorkspaces

/-- The Workspaces that pending operations refer to. -/
def referred (s : PersistedGlobalWorkspaces) : List String :=
  s.pendingResources.map (·.globalWorkspaceId) ++
    s.pendingDefaultCwdOperations.map (·.globalWorkspaceId)

/-- The Workspaces that are closing. -/
def closingIds (s : PersistedGlobalWorkspaces) : List String :=
  (s.workspaces.filter (·.closing)).map (·.id)

/-- Whether a ledger of Shells and Launchers has a record under the operation id. -/
def holdsResource (s : PersistedGlobalWorkspaces) (operationId : String) : Bool :=
  (s.pendingResource? operationId).isSome || (s.completedOperation? operationId).isSome

/-- Whether a ledger of default directories has a record under the operation id. -/
def holdsDefaultCwd (s : PersistedGlobalWorkspaces) (operationId : String) : Bool :=
  (s.pendingDefaultCwd? operationId).isSome || (s.completedDefaultCwd? operationId).isSome

/-- What holds of every state in memory and in the file. `validate` asks for the first part only. -/
structure Sound (s : PersistedGlobalWorkspaces) : Prop where
  valid : s.Valid
  fits : s.fits = true
  bound : ∀ p ∈ s.pendingResources, p.requestFingerprint.isSome = true ∧ p.completionReservation ≠ 0
  quiet : ∀ id ∈ s.closingIds, id ∉ s.referred

/-- A record that the call made, under an id that no ledger of Shells and Launchers had. -/
structure Prepared (r : Option Request) (s : PersistedGlobalWorkspaces)
    (p : PendingWorkspaceResource) : Prop where
  made : ∃ fingerprint, p.requestFingerprint = some fingerprint ∧ Makes r p.operationId fingerprint
  fresh : s.holdsResource p.operationId = false
  reserved : p.completionReservation ≠ 0
  workspace : p.globalWorkspaceId ∉ s.closingIds

/-- The record of a default directory that the call made. -/
structure PreparedDefaultCwd (r : Option Request) (s : PersistedGlobalWorkspaces)
    (d : PendingDefaultCwdOperation) : Prop where
  made : ∃ a, r = some (.defaultCwd a) ∧ d = a.operation
  fresh : s.holdsDefaultCwd d.operationId = false
  workspace : d.globalWorkspaceId ∉ s.closingIds

/-- The state `t` is `s` after an edit that makes the request `r` or none. -/
structure Edited (r : Option Request) (s t : PersistedGlobalWorkspaces) : Prop where
  closing : ∀ id ∈ t.closingIds, id ∈ s.closingIds ∨ id ∉ t.referred
  pending : ∀ p ∈ t.pendingResources, (∃ q ∈ s.pendingResources, Keeps q p) ∨ Prepared r s p
  completed : ∀ c ∈ t.completedOperations, c ∈ s.completedOperations
    ∨ (∃ q ∈ s.pendingResources, q.operationId = c.operationId
      ∧ q.requestFingerprint = some c.requestFingerprint)
    ∨ Makes r c.operationId c.requestFingerprint ∧ s.holdsResource c.operationId = false
  pendingDefaultCwd : ∀ d ∈ t.pendingDefaultCwdOperations,
    (∃ e ∈ s.pendingDefaultCwdOperations, d.identity = e.identity) ∨ PreparedDefaultCwd r s d
  completedDefaultCwd : ∀ c ∈ t.completedDefaultCwdOperations, c ∈ s.completedDefaultCwdOperations
    ∨ ∃ e ∈ s.pendingDefaultCwdOperations, c.request.identity = e.identity

section Edits

variable {r : Option Request} {s t u : PersistedGlobalWorkspaces}

theorem mem_closingIds {id : String} :
    id ∈ s.closingIds ↔ ∃ w ∈ s.workspaces, w.closing = true ∧ w.id = id := by
  simp [closingIds, and_assoc]

theorem mem_referred {id : String} : id ∈ s.referred ↔
    (∃ p ∈ s.pendingResources, p.globalWorkspaceId = id)
      ∨ ∃ d ∈ s.pendingDefaultCwdOperations, d.globalWorkspaceId = id := by
  simp [referred]

theorem Edited.refl (s : PersistedGlobalWorkspaces) : Edited r s s :=
  ⟨fun _ h => .inl h, fun p hp => .inl ⟨p, hp, .refl p⟩, fun _ hc => .inl hc,
    fun d hd => .inl ⟨d, hd, rfl⟩, fun _ hc => .inl hc⟩

/-- An edit of the Workspaces alone. -/
theorem Edited.workspaces {workspaces : List GlobalWorkspaceSnapshot}
    (h : ∀ w ∈ workspaces, w.closing = true → w.id ∈ s.closingIds ∨ w.id ∉ s.referred) :
    Edited r s { s with workspaces := workspaces } := by
  refine ⟨fun id hid => ?_, fun p hp => .inl ⟨p, hp, .refl p⟩, fun _ hc => .inl hc,
    fun d hd => .inl ⟨d, hd, rfl⟩, fun _ hc => .inl hc⟩
  obtain ⟨w, hw, hclosing, rfl⟩ := mem_closingIds.mp hid
  exact h w hw hclosing

/-- An edited state with fewer completed records. -/
theorem Edited.fewer {completed : List CompletedWorkspaceOperation}
    {completedDefaultCwd : List CompletedDefaultCwdOperation} (h : Edited r s u)
    (hcompleted : completed ⊆ u.completedOperations)
    (hdefault : completedDefaultCwd ⊆ u.completedDefaultCwdOperations) :
    Edited r s { u with
      completedOperations := completed
      completedDefaultCwdOperations := completedDefaultCwd } :=
  ⟨h.closing, h.pending, fun _ hc => h.completed _ (hcompleted hc), h.pendingDefaultCwd,
    fun _ hc => h.completedDefaultCwd _ (hdefault hc)⟩

/-- After an edit still no pending operation refers to a closing Workspace. -/
theorem Edited.quiet (h : Edited r s t) (hquiet : ∀ id ∈ s.closingIds, id ∉ s.referred) :
    ∀ id ∈ t.closingIds, id ∉ t.referred := by
  intro id hclosing hreferred
  rcases h.closing id hclosing with hid | hid
  · rcases mem_referred.mp hreferred with ⟨p, hp, rfl⟩ | ⟨d, hd, rfl⟩
    · rcases h.pending p hp with ⟨q, hq, hkeeps⟩ | hprepared
      · exact hquiet _ hid (mem_referred.mpr (.inl ⟨q, hq, hkeeps.globalWorkspaceId.symm⟩))
      · exact hprepared.workspace hid
    · rcases h.pendingDefaultCwd d hd with ⟨e, he, hsame⟩ | hprepared
      · exact hquiet _ hid (mem_referred.mpr
          (.inr ⟨e, he, (congrArg PendingDefaultCwdOperation.globalWorkspaceId hsame).symm⟩))
      · exact hprepared.workspace hid
  · exact hid hreferred

/-- After an edit still every pending operation has a fingerprint and a reservation. -/
theorem Edited.bound (h : Edited r s t)
    (hbound : ∀ p ∈ s.pendingResources, p.requestFingerprint.isSome = true
      ∧ p.completionReservation ≠ 0) :
    ∀ p ∈ t.pendingResources, p.requestFingerprint.isSome = true ∧ p.completionReservation ≠ 0 := by
  intro p hp
  rcases h.pending p hp with ⟨q, hq, hkeeps⟩ | hprepared
  · exact ⟨by rw [hkeeps.requestFingerprint]; exact (hbound q hq).1,
      hkeeps.reserved (hbound q hq).2⟩
  · obtain ⟨fingerprint, hfingerprint, -⟩ := hprepared.made
    exact ⟨by rw [hfingerprint]; rfl, hprepared.reserved⟩

/-! ## Compaction -/

theorem dropDefaultCwdOperations_eq_ok {l : List CompletedDefaultCwdOperation}
    (h : s.dropDefaultCwdOperations l = .ok t) :
    ∃ l', l' <:+ l ∧ t = { s with completedDefaultCwdOperations := l' } ∧ t.fits = true := by
  induction l with
  | nil =>
      unfold dropDefaultCwdOperations at h
      split at h
      next hfits => exact ⟨[], List.suffix_refl _, (Except.ok.inj h).symm, Except.ok.inj h ▸ hfits⟩
      next => cases h
  | cons c l ih =>
      unfold dropDefaultCwdOperations at h
      split at h
      next hfits => exact ⟨c :: l, List.suffix_refl _, (Except.ok.inj h).symm,
        Except.ok.inj h ▸ hfits⟩
      next =>
        obtain ⟨l', hl', ht⟩ := ih h
        exact ⟨l', hl'.trans (List.suffix_cons c l), ht⟩

theorem dropOperations_eq_ok {l : List CompletedWorkspaceOperation}
    (h : s.dropOperations l = .ok t) :
    ∃ completed completedDefaultCwd, completed <:+ l
      ∧ completedDefaultCwd <:+ s.completedDefaultCwdOperations ∧ t.fits = true
      ∧ t = { s with
        completedOperations := completed
        completedDefaultCwdOperations := completedDefaultCwd } := by
  induction l with
  | nil =>
      unfold dropOperations at h
      obtain ⟨l', hl', rfl, hfits⟩ := dropDefaultCwdOperations_eq_ok h
      exact ⟨[], l', List.suffix_refl _, hl', hfits, rfl⟩
  | cons c l ih =>
      unfold dropOperations at h
      split at h
      next hfits =>
        obtain rfl := Except.ok.inj h
        exact ⟨c :: l, s.completedDefaultCwdOperations, List.suffix_refl _, List.suffix_refl _,
          hfits, rfl⟩
      next =>
        obtain ⟨completed, completedDefaultCwd, hl, ht⟩ := ih h
        exact ⟨completed, completedDefaultCwd, hl.trans (List.suffix_cons c l), ht⟩

/-- Compaction forgets the oldest completed operations, and the result fits. -/
theorem compactPreparedState_eq_ok (h : s.compactPreparedState = .ok t) :
    ∃ completed completedDefaultCwd, completed <:+ s.completedOperations
      ∧ completedDefaultCwd <:+ s.completedDefaultCwdOperations ∧ t.fits = true
      ∧ t = { s with
        completedOperations := completed
        completedDefaultCwdOperations := completedDefaultCwd } :=
  dropOperations_eq_ok h

theorem Edited.compact (h : Edited r s u) (hcompact : u.compactPreparedState = .ok t) :
    Edited r s t := by
  obtain ⟨completed, completedDefaultCwd, hcompleted, hdefault, -, rfl⟩ :=
    compactPreparedState_eq_ok hcompact
  exact h.fewer hcompleted.subset hdefault.subset

/-- Pushing a completed operation forgets the oldest ones, and the result fits. -/
theorem dropOldest_eq_ok {l : List CompletedWorkspaceOperation} (hl : l ≠ [])
    (h : s.dropOldest l = .ok t) :
    ∃ l', l' <:+ l ∧ t.fits = true ∧ t = { s with completedOperations := l' } := by
  induction l with
  | nil => exact absurd rfl hl
  | cons c l ih =>
      unfold dropOldest at h
      split at h
      next =>
        split at h
        · cases h
        · next hrest =>
            obtain ⟨l', hl', ht⟩ := ih (fun he => hrest (he ▸ rfl)) h
            exact ⟨l', hl'.trans (List.suffix_cons c l), ht⟩
      next hfits =>
        obtain rfl := Except.ok.inj h
        rw [Bool.or_eq_true, not_or, Bool.not_eq_true', Bool.not_eq_false] at hfits
        exact ⟨c :: l, List.suffix_refl _, hfits.2, rfl⟩

/-- The ledger after a push: nothing new, or the pushed operation under an id that it did not have.
-/
theorem pushCompleted_eq_ok {c : CompletedWorkspaceOperation} (h : s.pushCompleted c = .ok t) :
    t = s ∨ s.completedOperation? c.operationId = none ∧ t.fits = true
      ∧ ∃ l, l ⊆ s.completedOperations ++ [c] ∧ t = { s with completedOperations := l } := by
  unfold pushCompleted at h
  split at h
  next existing _ =>
    split at h
    · exact .inl (Except.ok.inj h).symm
    · cases h
  next hnone =>
    obtain ⟨l, hl, hfits, rfl⟩ := dropOldest_eq_ok (by simp) h
    exact .inr ⟨hnone, hfits, l, hl.subset, rfl⟩

/-! ## Reservations -/

theorem completionReservationBytes_ne_zero {workspace : GlobalWorkspaceSnapshot}
    {requestBytes n : Nat}
    (h : completionReservationBytes workspace requestBytes = .ok n) : n ≠ 0 := by
  unfold completionReservationBytes at h
  dsimp only at h
  split at h
  · cases h
  next reservation hreservation =>
    rw [require_bind_eq_ok] at h
    obtain ⟨-, h⟩ := h
    obtain rfl := Except.ok.inj h
    simp only [Option.bind_eq_some_iff, checkedAdd_eq_some] at hreservation
    obtain ⟨_, -, _, -, -, rfl⟩ := hreservation
    unfold completionReservationOverhead
    omega

theorem keeps_of_growReservation {globalId : String} {growth : Nat} {p q : PendingWorkspaceResource}
    (h : growReservation globalId growth q = .ok p) : Keeps q p := by
  unfold growReservation at h
  split at h
  · exact Except.ok.inj h ▸ .refl q
  · split at h
    · cases h
    next hreserved =>
      split at h
      · cases h
      next expanded hexpanded =>
        rw [require_bind_eq_ok] at h
        obtain rfl := Except.ok.inj h.2
        obtain ⟨-, rfl⟩ := checkedAdd_eq_some.mp hexpanded
        exact ⟨rfl, fun _ he => hreserved (Nat.eq_zero_of_add_eq_zero_right he), id⟩

theorem mem_mapM_ok {α β ε : Type} {f : α → Except ε β} {l : List α} {l' : List β}
    (h : l.mapM f = .ok l') : ∀ b ∈ l', ∃ a ∈ l, f a = .ok b := by
  induction l generalizing l' with
  | nil =>
      obtain rfl : [] = l' := Except.ok.inj h
      exact fun b hb => absurd hb List.not_mem_nil
  | cons a l ih =>
      rw [List.mapM_cons, bind_eq_ok] at h
      obtain ⟨b, hb, h⟩ := h
      rw [bind_eq_ok] at h
      obtain ⟨rest, hrest, h⟩ := h
      obtain rfl : b :: rest = l' := Except.ok.inj h
      refine List.forall_mem_cons.mpr ⟨⟨a, List.mem_cons_self, hb⟩, fun c hc => ?_⟩
      obtain ⟨x, hx, hf⟩ := ih hrest c hc
      exact ⟨x, List.mem_cons_of_mem a hx, hf⟩

/-- The pushed record is the prepared one with a reservation; the others keep their identity. -/
theorem pushPending_eq_ok {workspace : GlobalWorkspaceSnapshot}
    {pending reserved : PendingWorkspaceResource}
    {requestBytes : Nat} (h : s.pushPending workspace pending requestBytes = .ok (t, reserved)) :
    ∃ grown reservation, reservation ≠ 0
      ∧ reserved = { pending with completionReservation := reservation }
      ∧ t = { s with pendingResources := grown ++ [reserved] }
      ∧ ∀ p ∈ grown, ∃ q ∈ s.pendingResources, Keeps q p := by
  simp only [pushPending, reserveNewPendingCompletion, bind_eq_ok] at h
  obtain ⟨⟨grown, record⟩, ⟨before, -, after, -, hgrown⟩, hout⟩ := h
  obtain ⟨rfl, rfl⟩ := Prod.mk.inj (Except.ok.inj hout)
  split at hgrown <;> simp only [bind_eq_ok] at hgrown
  · obtain ⟨resources, hresources, reservation, hreservation, hrecord⟩ := hgrown
    obtain ⟨rfl, rfl⟩ := Prod.mk.inj (Except.ok.inj hrecord)
    refine ⟨resources, reservation, completionReservationBytes_ne_zero hreservation, rfl, rfl,
      fun p hp => ?_⟩
    obtain ⟨q, hq, hgrow⟩ := mem_mapM_ok hresources p hp
    exact ⟨q, hq, keeps_of_growReservation hgrow⟩
  · obtain ⟨resources, hresources, reservation, hreservation, hrecord⟩ := hgrown
    obtain rfl := Except.ok.inj hresources
    obtain ⟨rfl, rfl⟩ := Prod.mk.inj (Except.ok.inj hrecord)
    exact ⟨s.pendingResources, reservation, completionReservationBytes_ne_zero hreservation,
      rfl, rfl,
      fun p hp => ⟨p, hp, .refl p⟩⟩

/-! ## Workspaces -/

variable {w : GlobalWorkspaceSnapshot} {id : String}

theorem get_eq_ok (h : s.get id = .ok w) : w ∈ s.workspaces ∧ w.id = id := by
  unfold get at h
  split at h
  next v hv =>
    obtain rfl := Except.ok.inj h
    exact ⟨List.mem_of_find?_eq_some hv, by simpa using List.find?_some hv⟩
  next => cases h

theorem mem_closingIds_of_mem (hw : w ∈ s.workspaces) (hclosing : w.closing = true) :
    w.id ∈ s.closingIds :=
  mem_closingIds.mpr ⟨w, hw, hclosing, rfl⟩

/-- A valid state has one Workspace of each id. -/
theorem Valid.not_mem_closingIds (hvalid : s.Valid) (hw : w ∈ s.workspaces)
    (hopen : w.closing = false) :
    w.id ∉ s.closingIds := by
  intro hid
  obtain ⟨v, hv, hclosing, he⟩ := mem_closingIds.mp hid
  rw [List.inj_on_of_nodup_map hvalid.workspaceIds hv hw he, hopen] at hclosing
  exact Bool.false_ne_true hclosing

/-- A new Workspace that is not closing. -/
theorem Edited.append (hopen : w.closing = false) :
    Edited r s { s with workspaces := s.workspaces ++ [w] } := by
  refine .workspaces fun v hv hclosing => ?_
  rcases List.mem_append.mp hv with hv | hv
  · exact .inl (mem_closingIds_of_mem hv hclosing)
  · rw [List.mem_singleton.mp hv, hopen] at hclosing
    exact absurd hclosing Bool.false_ne_true

/-- A Workspace in the place of another. -/
theorem Edited.setWorkspace (h : w.closing = true → w.id ∈ s.closingIds ∨ w.id ∉ s.referred) :
    Edited r s (s.setWorkspace id w) := by
  refine .workspaces fun v hv hclosing => ?_
  rcases mem_editFirst hv with hv | ⟨_, -, rfl⟩
  · exact .inl (mem_closingIds_of_mem hv hclosing)
  · exact h hclosing

theorem Edited.removeWorkspace : Edited r s (s.removeWorkspace id) :=
  .workspaces fun _ hv hclosing => .inl (mem_closingIds_of_mem (List.mem_of_mem_eraseP hv) hclosing)

theorem place_eq_ok {w' : GlobalWorkspaceSnapshot} {p : WorkspacePlacementSnapshot}
    (h : w.place p = .ok w') : w'.id = w.id ∧ w'.closing = w.closing := by
  simp only [GlobalWorkspaceSnapshot.place, bind_eq_ok] at h
  obtain ⟨revision, -, h⟩ := h
  obtain rfl := Except.ok.inj h
  exact ⟨rfl, rfl⟩

theorem edited_create {name : String} {w : GlobalWorkspaceSnapshot}
    (h : s.create name id = .ok (t, w)) :
    Edited r s t := by
  simp only [create, bind_eq_ok, Except.ok.injEq, Prod.mk.injEq] at h
  obtain ⟨_, -, _, -, _, -, rfl, -⟩ := h
  exact .append rfl

theorem edited_adopt {nodeId : String} {owner : WorkspaceSnapshot} {expected : Nat}
    (h : s.adopt nodeId owner expected id = .ok (t, w)) : Edited r s t := by
  simp only [adopt, bind_eq_ok, Except.ok.injEq, Prod.mk.injEq] at h
  obtain ⟨_, -, _, -, _, -, rfl, -⟩ := h
  exact .append rfl

theorem edited_link {globalId nodeId : String} {owner : WorkspaceSnapshot}
    {expected ownerExpected : Nat}
    (h : s.link globalId expected nodeId owner ownerExpected = .ok (t, w)) : Edited r s t := by
  simp only [link, bind_eq_ok, require_eq_ok, Except.ok.injEq, Prod.mk.injEq] at h
  obtain ⟨_, -, _, -, _, -, v, -, _, -, _, hopen, _, -, linked, hlinked, rfl, -⟩ := h
  rw [Bool.not_eq_true'] at hopen
  refine .setWorkspace fun hclosing => ?_
  rw [(place_eq_ok hlinked).2, hopen] at hclosing
  exact absurd hclosing Bool.false_ne_true

theorem edited_rename {name : String} {expected : Nat}
    (h : s.rename id expected name = .ok (t, w)) :
    Edited r s t := by
  simp only [rename, bind_eq_ok, require_eq_ok] at h
  obtain ⟨_, -, _, -, _, -, v, -, _, -, _, hopen, h⟩ := h
  rw [Bool.not_eq_true'] at hopen
  split at h
  · simp only [bind_eq_ok, Except.ok.injEq, Prod.mk.injEq] at h
    obtain ⟨revision, -, rfl, -⟩ := h
    refine .setWorkspace fun hclosing => ?_
    rw [show _ = false from hopen] at hclosing
    exact absurd hclosing Bool.false_ne_true
  · obtain ⟨rfl, -⟩ := Prod.mk.inj (Except.ok.inj h)
    exact .refl s

theorem not_referred_of_ensureNoPendingResource {u : Unit}
    (h : s.ensureNoPendingResource id = .ok u) :
    id ∉ s.referred := by
  simp only [ensureNoPendingResource, require_eq_ok, Bool.not_eq_true', Bool.or_eq_false_iff,
    List.any_eq_false, beq_iff_eq] at h
  intro hid
  rcases mem_referred.mp hid with ⟨p, hp, he⟩ | ⟨d, hd, he⟩
  · exact h.1 p hp he
  · exact h.2 d hd he

/-- Closing begins only when no pending operation refers to the Workspace. -/
theorem edited_beginClose {expected : Nat} (h : s.beginClose id expected = .ok (t, w)) :
    Edited r s t := by
  simp only [beginClose, bind_eq_ok] at h
  obtain ⟨_, hnone, v, hv, _, -, h⟩ := h
  split at h
  · obtain ⟨rfl, -⟩ := Prod.mk.inj (Except.ok.inj h)
    exact .refl s
  · simp only [bind_eq_ok, Except.ok.injEq, Prod.mk.injEq] at h
    obtain ⟨revision, -, rfl, -⟩ := h
    refine .setWorkspace fun _ => .inr ?_
    have hid : v.id = id := (get_eq_ok hv).2
    exact hid ▸ not_referred_of_ensureNoPendingResource hnone

theorem edited_confirmClosed {nodeId ownerId : String} {closed : Option GlobalWorkspaceSnapshot}
    (h : s.confirmClosed id nodeId ownerId = .ok (t, closed)) : Edited r s t := by
  simp only [confirmClosed, bind_eq_ok, require_eq_ok] at h
  obtain ⟨v, hv, _, hclosing, h⟩ := h
  split at h
  · obtain ⟨rfl, -⟩ := Prod.mk.inj (Except.ok.inj h)
    exact .removeWorkspace
  · simp only [bind_eq_ok, Except.ok.injEq, Prod.mk.injEq] at h
    obtain ⟨revision, -, rfl, -⟩ := h
    have hid : v.id ∈ s.closingIds := mem_closingIds_of_mem (get_eq_ok hv).1 hclosing
    exact .setWorkspace fun _ => .inl hid

theorem edited_confirmEmptyClosed {u : Unit} (h : s.confirmEmptyClosed id = .ok (t, u)) :
    Edited r s t := by
  simp only [confirmEmptyClosed, bind_eq_ok, Except.ok.injEq, Prod.mk.injEq] at h
  obtain ⟨_, -, _, -, rfl, -⟩ := h
  exact .removeWorkspace

/-! ## Default working directories -/

/-- An edit of the pending default directories that keeps their identities. -/
theorem Edited.defaultCwds {operations : List PendingDefaultCwdOperation}
    (h : ∀ d ∈ operations, ∃ e ∈ s.pendingDefaultCwdOperations, d.identity = e.identity) :
    Edited r s { s with pendingDefaultCwdOperations := operations } := by
  refine ⟨fun id hid => .inl hid, fun p hp => .inl ⟨p, hp, .refl p⟩, fun _ hc => .inl hc,
    fun d hd => .inl (h d hd), fun _ hc => .inl hc⟩

theorem Edited.erasePendingDefaultCwd {operationId : String} :
    Edited r s (s.erasePendingDefaultCwd operationId) :=
  .defaultCwds fun d hd => ⟨d, List.mem_of_mem_eraseP hd, rfl⟩

theorem edited_prepareDefaultCwd {a : DefaultCwdRequest} {prepared : PreparedDefaultCwdOperation}
    (hvalid : s.Valid) (h : s.prepareDefaultCwd a = .ok (t, prepared)) :
    Edited (some (.defaultCwd a)) s t := by
  simp only [prepareDefaultCwd, bind_eq_ok] at h
  obtain ⟨_, -, h⟩ := h
  split at h
  next =>
    simp only [bind_eq_ok, Except.ok.injEq, Prod.mk.injEq] at h
    obtain ⟨_, -, rfl, -⟩ := h
    exact .refl s
  next hcompleted =>
    split at h
    next =>
      simp only [bind_eq_ok, Except.ok.injEq, Prod.mk.injEq] at h
      obtain ⟨_, -, rfl, -⟩ := h
      exact .refl s
    next hpending =>
      simp only [prepareNewDefaultCwd, bind_eq_ok, require_eq_ok] at h
      obtain ⟨_, -, v, hv, _, -, _, hopen, h⟩ := h
      split at h
      · cases h
      · simp only [bind_eq_ok, Except.ok.injEq, Prod.mk.injEq] at h
        obtain ⟨_, -, _, -, u, hcompact, rfl, -⟩ := h
        have hfresh : s.holdsDefaultCwd a.operationId = false := by
          rw [holdsDefaultCwd, hpending, hcompleted]
          rfl
        obtain ⟨hmem, hid⟩ := get_eq_ok hv
        have hworkspace : a.globalWorkspaceId ∉ s.closingIds :=
          hid ▸ hvalid.not_mem_closingIds hmem (by simpa using hopen)
        refine Edited.compact (u := { s with
          pendingDefaultCwdOperations := s.pendingDefaultCwdOperations ++ [a.operation] })
          ⟨fun id hid => .inl hid, fun p hp => .inl ⟨p, hp, .refl p⟩, fun _ hc => .inl hc,
            fun d hd => ?_, fun _ hc => .inl hc⟩ hcompact
        rcases List.mem_append.mp hd with hd | hd
        · exact .inl ⟨d, hd, rfl⟩
        · rw [List.mem_singleton.mp hd]
          exact .inr ⟨⟨a, rfl, rfl⟩, hfresh, hworkspace⟩

theorem edited_markDefaultCwdOwnerAttempted {operation pending : PendingDefaultCwdOperation}
    (h : s.markDefaultCwdOwnerAttempted operation = .ok (t, pending)) : Edited r s t := by
  unfold markDefaultCwdOwnerAttempted at h
  split at h
  · cases h
  · simp only [bind_eq_ok, Except.ok.injEq, Prod.mk.injEq] at h
    obtain ⟨_, -, rfl, -⟩ := h
    refine .defaultCwds fun d hd => ?_
    rcases mem_editFirst hd with hd | ⟨e, he, rfl⟩
    · exact ⟨d, hd, rfl⟩
    · exact ⟨e, List.mem_of_find?_eq_some he, rfl⟩

theorem edited_cancelDefaultCwd {operation : PendingDefaultCwdOperation} {removed : Bool}
    (h : s.cancelDefaultCwd operation = .ok (t, removed)) : Edited r s t := by
  unfold cancelDefaultCwd at h
  split at h
  · obtain ⟨rfl, -⟩ := Prod.mk.inj (Except.ok.inj h)
    exact .refl s
  · simp only [bind_eq_ok, Except.ok.injEq, Prod.mk.injEq] at h
    obtain ⟨_, -, rfl, -⟩ := h
    exact .erasePendingDefaultCwd

theorem edited_cancelDefaultCwdIfNeverAttempted {operation : PendingDefaultCwdOperation}
    {removed : Bool}
    (h : s.cancelDefaultCwdIfNeverAttempted operation = .ok (t, removed)) : Edited r s t := by
  unfold cancelDefaultCwdIfNeverAttempted at h
  split at h
  · obtain ⟨rfl, -⟩ := Prod.mk.inj (Except.ok.inj h)
    exact .refl s
  · rw [require_bind_eq_ok] at h
    obtain ⟨-, h⟩ := h
    split at h <;> obtain ⟨rfl, -⟩ := Prod.mk.inj (Except.ok.inj h)
    · exact .refl s
    · exact .erasePendingDefaultCwd

/-- Completing moves a pending default directory to the completed ones. -/
theorem Edited.completedDefaultCwdOperation {pending : PendingDefaultCwdOperation}
    {v updated : GlobalWorkspaceSnapshot} {operations : List CompletedDefaultCwdOperation}
    (hpending : pending ∈ s.pendingDefaultCwdOperations) (hv : v ∈ s.workspaces)
    (hid : updated.id = v.id) (hclosing : updated.closing = v.closing)
    (hoperations : ∀ c ∈ operations, c ∈ s.completedDefaultCwdOperations
      ∨ c.request = { pending with completionReservation := 0 }) :
    Edited r s { (s.setWorkspace id updated).erasePendingDefaultCwd pending.operationId with
      completedDefaultCwdOperations := operations } := by
  refine ⟨fun id' hid' => .inl ?_, fun p hp => .inl ⟨p, hp, .refl p⟩, fun _ hc => .inl hc,
    fun d hd => .inl ⟨d, List.mem_of_mem_eraseP hd, rfl⟩, fun c hc => ?_⟩
  · obtain ⟨w, hw, hw', rfl⟩ := mem_closingIds.mp hid'
    rcases mem_editFirst hw with hw | ⟨_, -, rfl⟩
    · exact mem_closingIds_of_mem hw hw'
    · exact hid ▸ mem_closingIds_of_mem hv (hclosing ▸ hw')
  · rcases hoperations c hc with hc | hc
    · exact .inl hc
    · exact .inr ⟨pending, hpending, by rw [hc]; rfl⟩

theorem edited_finishDefaultCwd {pending : PendingDefaultCwdOperation} {owner : WorkspaceSnapshot}
    {changed : Bool} {result : WorkspaceDefaultCwdResult}
    (hpending : pending ∈ s.pendingDefaultCwdOperations)
    (h : s.finishDefaultCwd pending owner changed = .ok (t, result)) : Edited r s t := by
  have htail {c : CompletedDefaultCwdOperation} {l : List CompletedDefaultCwdOperation}
      (hc : c ∈ if maxCompletedOperations < l.length then l.tail else l) : c ∈ l := by
    split at hc
    · exact List.mem_of_mem_tail hc
    · exact hc
  unfold finishDefaultCwd at h
  dsimp only at h
  split at h
  · cases h
  next v hv =>
    have hmem : v ∈ s.workspaces := List.mem_of_find?_eq_some hv
    split at h
    · cases h
    · rw [require_bind_eq_ok] at h
      obtain ⟨-, h⟩ := h
      split at h
      all_goals
        simp only [bind_eq_ok] at h
        obtain ⟨revision, -, u, hcompact, h⟩ := h
        obtain ⟨rfl, -⟩ := Prod.mk.inj (Except.ok.inj h)
        refine Edited.compact ?_ hcompact
        refine .completedDefaultCwdOperation hpending hmem rfl rfl fun c hc => ?_
        refine (List.mem_append.mp (htail hc)).imp_right fun hc => ?_
        rw [List.mem_singleton.mp hc]

theorem edited_completeDefaultCwd {operation : PendingDefaultCwdOperation}
    {owner : WorkspaceSnapshot}
    {result : WorkspaceDefaultCwdResult} (h : s.completeDefaultCwd operation owner = .ok
      (t, result)) :
    Edited r s t := by
  unfold completeDefaultCwd at h
  split at h
  · simp only [bind_eq_ok, Except.ok.injEq, Prod.mk.injEq] at h
    obtain ⟨_, -, rfl, -⟩ := h
    exact .refl s
  · split at h
    · cases h
    next pending hpending =>
      have hmem : pending ∈ s.pendingDefaultCwdOperations := List.mem_of_find?_eq_some hpending
      rw [require_bind_eq_ok] at h
      obtain ⟨-, h⟩ := h
      split at h
      · exact edited_finishDefaultCwd hmem h
      · split at h
        · exact edited_finishDefaultCwd hmem h
        · cases h

/-! ## Shells and Launchers -/

/-- An edit of the pending operations alone. -/
theorem Edited.pendings {resources : List PendingWorkspaceResource}
    (h : ∀ p ∈ resources, (∃ q ∈ s.pendingResources, Keeps q p) ∨ Prepared r s p) :
    Edited r s { s with pendingResources := resources } :=
  ⟨fun _ hid => .inl hid, h, fun _ hc => .inl hc, fun d hd => .inl ⟨d, hd, rfl⟩, fun _ hc =>
    .inl hc⟩

theorem Edited.editPendingResource {operationId : String} {f : PendingWorkspaceResource →
    PendingWorkspaceResource}
    (h : ∀ q, s.pendingResource? operationId = some q → Keeps q (f q)) :
    Edited r s (s.editPendingResource operationId f) := by
  refine .pendings fun p hp => .inl ?_
  rcases mem_editFirst hp with hp | ⟨q, hq, rfl⟩
  · exact ⟨p, hp, .refl p⟩
  · exact ⟨q, List.mem_of_find?_eq_some hq, h q hq⟩

theorem Edited.erasePendingResource {operationId : String} :
    Edited r s (s.erasePendingResource operationId) :=
  .pendings fun p hp => .inl ⟨p, List.mem_of_mem_eraseP hp, .refl p⟩

theorem operationId_of_pendingResource? {operationId : String} {p : PendingWorkspaceResource}
    (h : s.pendingResource? operationId = some p) : p.operationId = operationId := by
  simpa using List.find?_some h

theorem mem_of_pendingResource? {operationId : String} {p : PendingWorkspaceResource}
    (h : s.pendingResource? operationId = some p) : p ∈ s.pendingResources :=
  List.mem_of_find?_eq_some h

theorem editPendingResource_self {operationId : String} {p : PendingWorkspaceResource}
    (h : s.pendingResource? operationId = some p) :
      (s.editPendingResource operationId fun _ => p) = s := by
  unfold PersistedGlobalWorkspaces.editPendingResource
  rw [editFirst_eq_self fun q hq => Option.some.inj (h.symm.trans hq)]

/-- A retry of a record with a fingerprint and a reservation adds nothing to it. -/
theorem adoptRetry_of_bound {pending : PendingWorkspaceResource}
    {operationId fingerprint missing : String}
    {semantic : Option String} {requestBytes : Nat}
    (hp : s.pendingResource? operationId = some pending)
    (hbound : pending.requestFingerprint.isSome = true ∧ pending.completionReservation ≠ 0) :
    s.adoptRetry pending fingerprint semantic requestBytes missing = .ok (s, pending) := by
  have hnone : pending.requestFingerprint.isNone = false := by
    rw [← Option.not_isSome, hbound.1]
    rfl
  unfold adoptRetry
  dsimp only
  rw [hnone, if_neg Bool.false_ne_true, if_neg hbound.2, operationId_of_pendingResource? hp,
    editPendingResource_self hp]

/-- A retry under a pending id is accepted when the record is what it asks for, and only marks it.
-/
theorem retryResource_eq_ok {a : ResourceRequest} {pending : PendingWorkspaceResource}
    {prepared : PreparedWorkspaceResource} (hp : s.pendingResource? a.operationId = some pending)
    (hbound : pending.requestFingerprint.isSome = true ∧ pending.completionReservation ≠ 0) :
    s.retryResource a pending = .ok (t, prepared) ↔ a.describes pending = true
      ∧ t = (s.editPendingResource a.operationId fun _ => a.mark pending)
      ∧ prepared = .pending (a.mark pending) false := by
  unfold retryResource
  rw [require_bind_eq_ok, adoptRetry_of_bound hp hbound]
  refine and_congr Iff.rfl ?_
  simp only [bind, Except.bind, Except.ok.injEq, Prod.mk.injEq, ResourceRequest.mark]
  exact and_congr eq_comm eq_comm

theorem retryWorkspaceShell_eq_ok {a : WorkspaceShellRequest} {pending : PendingWorkspaceResource}
    {prepared : PreparedWorkspaceShell} (hp : s.pendingResource? a.operationId = some pending)
    (hbound : pending.requestFingerprint.isSome = true ∧ pending.completionReservation ≠ 0) :
    s.retryWorkspaceShell a pending = .ok (t, prepared) ↔ a.describes pending = true ∧ t = s
      ∧ ∃ w, s.workspace? pending.globalWorkspaceId = some w ∧ prepared = .pending w pending := by
  unfold retryWorkspaceShell
  rw [require_bind_eq_ok, adoptRetry_of_bound hp hbound]
  refine and_congr Iff.rfl ?_
  simp only [bind, Except.bind]
  cases s.workspace? pending.globalWorkspaceId with
  | none => simp
  | some w =>
      simp only [Except.ok.injEq, Prod.mk.injEq, Option.some.injEq, exists_eq_left']
      exact and_congr eq_comm eq_comm

theorem holdsResource_eq_false {operationId : String} (hp : s.pendingResource? operationId = none)
    (hc : s.completedOperation? operationId = none) : s.holdsResource operationId = false := by
  rw [holdsResource, hp, hc]
  rfl

/-- Pushing a record that the call made, onto records that keep their identity. -/
theorem Edited.pushPending {resources : List PendingWorkspaceResource}
    {workspace : GlobalWorkspaceSnapshot}
    {pending reserved : PendingWorkspaceResource} {requestBytes : Nat} {fingerprint : String}
    (hkeeps : ∀ p ∈ resources, ∃ q ∈ s.pendingResources, Keeps q p)
    (h : ({ s with pendingResources := resources } : PersistedGlobalWorkspaces).pushPending
      workspace pending
      requestBytes = .ok (t, reserved))
    (hfingerprint : pending.requestFingerprint = some fingerprint)
    (hmakes : Makes r pending.operationId fingerprint)
    (hfresh : s.holdsResource pending.operationId = false)
    (hworkspace : pending.globalWorkspaceId ∉ s.closingIds) : Edited r s t := by
  obtain ⟨grown, reservation, hreserved, rfl, rfl, hgrown⟩ := pushPending_eq_ok h
  refine .pendings fun p hp => ?_
  rcases List.mem_append.mp hp with hp | hp
  · obtain ⟨q, hq, hqp⟩ := hgrown p hp
    obtain ⟨q', hq', hq'q⟩ := hkeeps q hq
    exact .inl ⟨q', hq', hq'q.trans hqp⟩
  · rw [List.mem_singleton.mp hp]
    exact .inr ⟨⟨fingerprint, hfingerprint, hmakes⟩, hfresh, hreserved, hworkspace⟩

theorem edited_prepareResource {a : ResourceRequest} {prepared : PreparedWorkspaceResource}
    (hs : s.Sound)
    (h : s.prepareResource a = .ok (t, prepared)) : Edited (some (.resource a)) s t := by
  simp only [prepareResource, bind_eq_ok] at h
  obtain ⟨_, -, h⟩ := h
  split at h
  next =>
    split at h
    · obtain ⟨rfl, -⟩ := Prod.mk.inj (Except.ok.inj h)
      exact .refl s
    · cases h
  next hcompleted =>
    split at h
    next pending hpending =>
      rw [retryResource_eq_ok hpending (hs.bound _ (mem_of_pendingResource? hpending))] at h
      obtain ⟨-, rfl, -⟩ := h
      refine .editPendingResource fun q hq => ?_
      obtain rfl := Option.some.inj (hpending.symm.trans hq)
      exact a.keeps_mark pending
    next hpending =>
      simp only [prepareNewResource, bind_eq_ok, require_eq_ok] at h
      obtain ⟨_, -, _, -, v, hv, _, -, _, hopen, h⟩ := h
      obtain ⟨hmem, hid⟩ := get_eq_ok hv
      have hworkspace : a.globalId ∉ s.closingIds :=
        hid ▸ hs.valid.not_mem_closingIds hmem (by simpa using hopen)
      have hpushed {u : PersistedGlobalWorkspaces} {reserved : PendingWorkspaceResource}
          (hpush : s.pushPending v (s.newResource a v) a.requestBytes = .ok (u, reserved)) :
          Edited (some (.resource a)) s u :=
        .pushPending (fun p hp => ⟨p, hp, .refl p⟩) hpush rfl ⟨_, rfl, rfl, rfl⟩
          (holdsResource_eq_false hpending hcompleted) hworkspace
      split at h
      all_goals
        simp only [bind_eq_ok] at h
        obtain ⟨_, -, _, -, ⟨u, reserved⟩, hpush, u', hcompact, h⟩ := h
        obtain ⟨rfl, -⟩ := Prod.mk.inj (Except.ok.inj h)
        exact (hpushed hpush).compact hcompact

/-- Pushing a completed operation that was pending, or that the call made. -/
theorem Edited.pushCompleted {c : CompletedWorkspaceOperation} (hu : Edited r s u)
    (h : u.pushCompleted c = .ok t)
    (hc : (∃ q ∈ s.pendingResources, q.operationId = c.operationId
        ∧ q.requestFingerprint = some c.requestFingerprint)
      ∨ Makes r c.operationId c.requestFingerprint ∧ s.holdsResource c.operationId = false) :
    Edited r s t := by
  rcases pushCompleted_eq_ok h with rfl | ⟨-, -, l, hl, rfl⟩
  · exact hu
  · refine ⟨hu.closing, hu.pending, fun d hd => ?_, hu.pendingDefaultCwd, hu.completedDefaultCwd⟩
    rcases List.mem_append.mp (hl hd) with hd | hd
    · exact hu.completed d hd
    · rw [List.mem_singleton.mp hd]
      exact .inr hc

theorem edited_prepareOnNamed {a : WorkspaceShellRequest} {prepared : PreparedWorkspaceShell}
    (hs : s.Sound)
    (hpending : s.pendingResource? a.operationId = none)
    (hcompleted : s.completedOperation? a.operationId = none)
    (h : s.prepareOnNamed a w = .ok (t, prepared)) : Edited (some (.workspaceShell a)) s t := by
  have hfresh : s.holdsResource a.operationId = false := holdsResource_eq_false hpending hcompleted
  unfold prepareOnNamed at h
  split at h
  · simp only [bind_eq_ok] at h
    obtain ⟨u, hpush, h⟩ := h
    obtain ⟨rfl, -⟩ := Prod.mk.inj (Except.ok.inj h)
    exact Edited.pushCompleted (.refl s) hpush (.inr ⟨⟨_, rfl, rfl, rfl⟩, hfresh⟩)
  · split at h
    next existing hexisting =>
      simp only [bind_eq_ok] at h
      obtain ⟨_, -, ⟨u, reserved⟩, hpush, u', hcompact, h⟩ := h
      obtain ⟨rfl, -⟩ := Prod.mk.inj (Except.ok.inj h)
      -- The twin is pending on the Workspace, which is therefore not closing.
      have hmem : existing ∈ s.pendingResources := List.mem_of_find?_eq_some hexisting
      have hworkspace : existing.globalWorkspaceId ∉ s.closingIds := fun hid =>
        hs.quiet _ hid (mem_referred.mpr (.inl ⟨existing, hmem, rfl⟩))
      have hnoted : ∃ resources,
          s.noteSemantic a existing = { s with pendingResources := resources }
          ∧ ∀ p ∈ resources, ∃ q ∈ s.pendingResources, Keeps q p := by
        unfold noteSemantic
        split
        · refine ⟨_, rfl, fun p hp => ?_⟩
          rcases mem_editFirst hp with hp | ⟨q, hq, rfl⟩
          · exact ⟨p, hp, .refl p⟩
          · exact ⟨q, List.mem_of_find?_eq_some hq, rfl, id, id⟩
        · exact ⟨s.pendingResources, rfl, fun p hp => ⟨p, hp, .refl p⟩⟩
      obtain ⟨resources, hresources, hkeeps⟩ := hnoted
      rw [hresources] at hpush
      exact (Edited.pushPending hkeeps hpush rfl ⟨_, rfl, rfl, rfl⟩ hfresh hworkspace).compact
        hcompact
    next => cases h

theorem edited_prepareNewWorkspaceShell {a : WorkspaceShellRequest}
    {prepared : PreparedWorkspaceShell}
    (hpending : s.pendingResource? a.operationId = none)
    (hcompleted : s.completedOperation? a.operationId = none)
    (h : s.prepareNewWorkspaceShell a = .ok (t, prepared)) :
      Edited (some (.workspaceShell a)) s t := by
  simp only [prepareNewWorkspaceShell, bind_eq_ok, require_eq_ok, Bool.not_eq_true',
    Bool.or_eq_false_iff] at h
  obtain ⟨_, -, _, ⟨hnew, -⟩, ⟨u, reserved⟩, hpush, u', hcompact, h⟩ := h
  obtain ⟨rfl, -⟩ := Prod.mk.inj (Except.ok.inj h)
  have hworkspace : a.globalWorkspaceId ∉ s.closingIds := by
    intro hid
    obtain ⟨v, hv, -, he⟩ := mem_closingIds.mp hid
    simpa [he] using List.any_eq_false.mp hnew v hv
  have hedited : Edited (some (.workspaceShell a)) s u :=
    .pushPending (fun p hp => ⟨p, hp, .refl p⟩) hpush rfl ⟨_, rfl, rfl, rfl⟩
      (holdsResource_eq_false hpending hcompleted) hworkspace
  obtain ⟨grown, reservation, -, -, rfl, -⟩ := pushPending_eq_ok hpush
  refine Edited.compact ?_ hcompact
  refine ⟨fun id hid => .inl ?_, hedited.pending, hedited.completed, hedited.pendingDefaultCwd,
    hedited.completedDefaultCwd⟩
  obtain ⟨v, hv, hclosing, rfl⟩ := mem_closingIds.mp hid
  rcases List.mem_append.mp hv with hv | hv
  · exact mem_closingIds_of_mem hv hclosing
  · rw [List.mem_singleton.mp hv] at hclosing
    exact absurd hclosing Bool.false_ne_true

theorem edited_prepareWorkspaceShell {a : WorkspaceShellRequest} {prepared : PreparedWorkspaceShell}
    (hs : s.Sound) (h : s.prepareWorkspaceShell a = .ok (t, prepared)) :
    Edited (some (.workspaceShell a)) s t := by
  simp only [prepareWorkspaceShell, bind_eq_ok] at h
  obtain ⟨_, -, h⟩ := h
  split at h
  next =>
    split at h
    · obtain ⟨rfl, -⟩ := Prod.mk.inj (Except.ok.inj h)
      exact .refl s
    · cases h
  next hcompleted =>
    split at h
    next pending hpending =>
      rw [retryWorkspaceShell_eq_ok hpending (hs.bound _ (mem_of_pendingResource? hpending))] at h
      obtain ⟨-, rfl, -⟩ := h
      exact .refl t
    next hpending =>
      split at h
      · exact edited_prepareOnNamed hs hpending hcompleted h
      · exact edited_prepareNewWorkspaceShell hpending hcompleted h

/-! ## Cancelling and completing -/

theorem edited_removePending {pending : PendingWorkspaceResource} :
    Edited r s (s.removePending pending) := by
  unfold removePending
  dsimp only
  split
  · refine ⟨fun id hid => .inl ?_, fun p hp => .inl ⟨p, List.mem_of_mem_eraseP hp, .refl p⟩,
      fun _ hc => .inl hc, fun d hd => .inl ⟨d, hd, rfl⟩, fun _ hc => .inl hc⟩
    obtain ⟨v, hv, hclosing, rfl⟩ := mem_closingIds.mp hid
    exact mem_closingIds_of_mem (List.mem_of_mem_eraseP hv) hclosing
  · exact .erasePendingResource

theorem edited_cancelResource {pending : PendingWorkspaceResource} {u : Unit}
    (h : s.cancelResource pending = .ok (t, u)) : Edited r s t := by
  unfold cancelResource at h
  split at h
  · split at h
    · obtain ⟨rfl, -⟩ := Prod.mk.inj (Except.ok.inj h)
      exact .refl s
    · cases h
  · rw [require_bind_eq_ok] at h
    obtain ⟨-, h⟩ := h
    split at h <;> obtain ⟨rfl, -⟩ := Prod.mk.inj (Except.ok.inj h)
    · exact .refl s
    · exact edited_removePending

theorem edited_cancelPendingOperationIfNeverAttempted {operationId fingerprint : String}
    {removed : Bool}
    (h : s.cancelPendingOperationIfNeverAttempted operationId fingerprint = .ok (t, removed)) :
    Edited r s t := by
  unfold cancelPendingOperationIfNeverAttempted at h
  split at h
  · obtain ⟨rfl, -⟩ := Prod.mk.inj (Except.ok.inj h)
    exact .refl s
  · rw [require_bind_eq_ok] at h
    obtain ⟨-, h⟩ := h
    split at h <;> obtain ⟨rfl, -⟩ := Prod.mk.inj (Except.ok.inj h)
    · exact .refl s
    · exact edited_removePending

theorem edited_markOwnerAttempted {pending marked : PendingWorkspaceResource}
    (h : s.markOwnerAttempted pending = .ok (t, marked)) : Edited r s t := by
  unfold markOwnerAttempted at h
  split at h
  · cases h
  · simp only [bind_eq_ok, Except.ok.injEq, Prod.mk.injEq] at h
    obtain ⟨_, -, rfl, -⟩ := h
    exact .editPendingResource fun q _ => ⟨rfl, id, fun _ => rfl⟩

theorem placeOwner_eq_ok {pending : PendingWorkspaceResource} {owner : WorkspaceSnapshot}
    {placed : GlobalWorkspaceSnapshot} (h : placeOwner w pending owner = .ok placed) :
    placed.id = w.id ∧ placed.closing = w.closing := by
  unfold placeOwner at h
  split at h
  · rw [require_bind_eq_ok] at h
    obtain rfl := Except.ok.inj h.2
    exact ⟨rfl, rfl⟩
  · exact place_eq_ok h

theorem edited_finishResource {pending : PendingWorkspaceResource} {owner : WorkspaceSnapshot}
    {resource : RoutedOperationResult} {c : CompletedWorkspaceOperation}
    (hmem : pending ∈ s.pendingResources)
    (h : s.finishResource pending owner resource = .ok (t, c)) : Edited r s t := by
  simp only [finishResource, bind_eq_ok] at h
  obtain ⟨_, -, _, -, v, hv, placed, hplaced, h⟩ := h
  split at h
  · cases h
  next fingerprint hfingerprint =>
    simp only [bind_eq_ok, Except.ok.injEq, Prod.mk.injEq] at h
    obtain ⟨_, -, u, hpush, rfl, rfl⟩ := h
    obtain ⟨hid, hclosing⟩ := placeOwner_eq_ok hplaced
    refine Edited.pushCompleted ?_ hpush (.inl ⟨pending, hmem, rfl, hfingerprint⟩)
    refine ⟨fun id hid' => .inl ?_, fun p hp => .inl ⟨p, List.mem_of_mem_eraseP hp, .refl p⟩,
      fun _ hc => .inl hc, fun d hd => .inl ⟨d, hd, rfl⟩, fun _ hc => .inl hc⟩
    obtain ⟨x, hx, hx', rfl⟩ := mem_closingIds.mp hid'
    rcases mem_editFirst hx with hx | ⟨_, -, rfl⟩
    · exact mem_closingIds_of_mem hx hx'
    · exact hid ▸ mem_closingIds_of_mem (get_eq_ok hv).1 (hclosing ▸ hx')

theorem edited_completeResource {pending : PendingWorkspaceResource} {owner : WorkspaceSnapshot}
    {resource : RoutedOperationResult} {c : CompletedWorkspaceOperation}
    (h : s.completeResource pending owner resource = .ok (t, c)) : Edited r s t := by
  unfold completeResource at h
  split at h
  · split at h
    · obtain ⟨rfl, -⟩ := Prod.mk.inj (Except.ok.inj h)
      exact .refl s
    · cases h
  next candidate hcandidate =>
    rw [require_bind_eq_ok] at h
    exact edited_finishResource (mem_of_pendingResource? hcandidate) h.2

theorem edited_reconcileResource {pending : PendingWorkspaceResource}
    {observed : Option (WorkspaceSnapshot × RoutedOperationResult)}
    {c : Option CompletedWorkspaceOperation}
    (h : s.reconcileResource pending observed = .ok (t, c)) : Edited r s t := by
  unfold reconcileResource at h
  split at h
  · simp only [bind_eq_ok, Except.ok.injEq, Prod.mk.injEq] at h
    obtain ⟨⟨u, c'⟩, hcomplete, rfl, -⟩ := h
    exact edited_completeResource hcomplete
  · obtain ⟨rfl, -⟩ := Prod.mk.inj (Except.ok.inj h)
    exact .refl s

end Edits

end PersistedGlobalWorkspaces

/-! ## Every operation -/

open PersistedGlobalWorkspaces

theorem replying_eq_ok {α : Type} {f : α → Reply}
    {x : Except IoError (PersistedGlobalWorkspaces × α)}
    {t : PersistedGlobalWorkspaces} {reply : Reply} :
    replying f x = .ok (t, reply) ↔ ∃ a, x = .ok (t, a) ∧ f a = reply := by
  cases x with
  | error e => simp [replying, Except.map]
  | ok y =>
      obtain ⟨s, a⟩ := y
      simp only [replying, Except.map, Except.ok.injEq, Prod.mk.injEq]
      constructor
      · rintro ⟨rfl, rfl⟩
        exact ⟨a, ⟨rfl, rfl⟩, rfl⟩
      · rintro ⟨_, ⟨rfl, rfl⟩, rfl⟩
        exact ⟨rfl, rfl⟩

/-- What an operation does to a sound state. -/
theorem Operation.edited {op : Operation} {s t : PersistedGlobalWorkspaces} {reply : Reply}
    (hs : s.Sound)
    (h : op.edit s = .ok (t, reply)) : Edited op.request? s t := by
  cases op <;> simp only [Operation.edit, replying_eq_ok] at h <;> obtain ⟨_, h, -⟩ := h
  case create => exact edited_create h
  case adopt => exact edited_adopt h
  case link => exact edited_link h
  case rename => exact edited_rename h
  case beginClose => exact edited_beginClose h
  case confirmClosed => exact edited_confirmClosed h
  case confirmEmptyClosed => exact edited_confirmEmptyClosed h
  case prepareDefaultCwd => exact edited_prepareDefaultCwd hs.valid h
  case markDefaultCwdOwnerAttempted => exact edited_markDefaultCwdOwnerAttempted h
  case cancelDefaultCwd => exact edited_cancelDefaultCwd h
  case cancelDefaultCwdIfNeverAttempted => exact edited_cancelDefaultCwdIfNeverAttempted h
  case completeDefaultCwd => exact edited_completeDefaultCwd h
  case prepareResource => exact edited_prepareResource hs h
  case prepareWorkspaceShell => exact edited_prepareWorkspaceShell hs h
  case markOwnerAttempted => exact edited_markOwnerAttempted h
  case cancelResource => exact edited_cancelResource h
  case cancelPendingOperationIfNeverAttempted =>
      exact edited_cancelPendingOperationIfNeverAttempted h
  case completeResource => exact edited_completeResource h
  case reconcileResource => exact edited_reconcileResource h

end Boomux.Coordinator
