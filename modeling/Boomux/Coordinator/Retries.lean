import Boomux.Coordinator.Runs

/-!
# Retries of a recorded operation

A client repeats a request under the same operation id until it has an answer. While a ledger of
Shells and Launchers has a record under the id, the record can only move from pending to completed,
whatever other calls, transactions and restarts come between, and a call under the id is answered
from the record or refused.
-/

set_option autoImplicit false

namespace Boomux.Coordinator

open Rust Keyed Transition PersistedGlobalWorkspaces

/-! ## Records -/

inductive Record
  | pending (p : PendingWorkspaceResource)
  | completed (c : CompletedWorkspaceOperation)

/-- The record that the ledgers of Shells and Launchers have under the operation id. -/
def PersistedGlobalWorkspaces.record? (s : PersistedGlobalWorkspaces) (operationId : String) :
    Option Record :=
  match s.pendingResource? operationId with
  | some p => some (.pending p)
  | none => (s.completedOperation? operationId).map .completed

/-- The fingerprint of the request that the record is of. -/
def Record.fingerprint : Record → Option String
  | pending p => p.requestFingerprint
  | completed c => some c.requestFingerprint

/-- What a record may become. -/
inductive Record.Becomes : Record → Record → Prop
  | kept {q p : PendingWorkspaceResource} (h : Keeps q p) : Becomes (.pending q) (.pending p)
  | completed {q : PendingWorkspaceResource} {c : CompletedWorkspaceOperation}
      (h : q.requestFingerprint = some c.requestFingerprint) : Becomes (.pending q) (.completed c)
  | done (c : CompletedWorkspaceOperation) : Becomes (.completed c) (.completed c)

theorem Record.Becomes.refl (R : Record) : R.Becomes R := by
  cases R with
  | pending p => exact .kept (.refl p)
  | completed c => exact .done c

theorem Record.Becomes.trans {R R' R'' : Record} (h : R.Becomes R') (h' : R'.Becomes R'') :
    R.Becomes R'' := by
  cases h with
  | kept h =>
      cases h' with
      | kept h' => exact .kept (h.trans h')
      | completed h' => exact .completed (h.requestFingerprint.symm.trans h')
  | completed h =>
      cases h'
      exact .completed h
  | done c => exact h'

theorem Record.Becomes.fingerprint {R R' : Record} (h : R.Becomes R') :
    R'.fingerprint = R.fingerprint := by
  cases h with
  | kept h => exact h.requestFingerprint
  | completed h => exact h.symm
  | done c => rfl

section Records

variable {s t : PersistedGlobalWorkspaces} {r : Option Request} {operationId : String}
    {R R' : Record}

theorem record?_of_pending {p : PendingWorkspaceResource} (hvalid : s.Valid)
    (hp : p ∈ s.pendingResources) :
    s.record? p.operationId = some (.pending p) := by
  have hget : s.pendingResource? p.operationId = some p := Distinct.get_of_mem hvalid.pendingIds hp
  rw [record?, hget]

theorem record?_of_completed {c : CompletedWorkspaceOperation} (hvalid : s.Valid)
    (hc : c ∈ s.completedOperations) : s.record? c.operationId = some (.completed c) := by
  have hnone : s.pendingResource? c.operationId = none :=
    get_eq_none.mpr fun p hp he => (hvalid.completed c hc).2 (he ▸ List.mem_map_of_mem hp)
  have hget : s.completedOperation? c.operationId = some c :=
    Distinct.get_of_mem hvalid.completedIds hc
  rw [record?, hnone, hget]
  rfl

/-- A record is read off the pending ledger first. -/
theorem record?_cases (h : s.record? operationId = some R) :
    (∃ p, s.pendingResource? operationId = some p ∧ R = .pending p) ∨
      ∃ c, s.completedOperation? operationId = some c ∧ R = .completed c := by
  unfold record? at h
  split at h
  next p hp => exact .inl ⟨p, hp, (Option.some.inj h).symm⟩
  next =>
    obtain ⟨c, hc, rfl⟩ := Option.map_eq_some_iff.mp h
    exact .inr ⟨c, hc, rfl⟩

theorem holdsResource_of_record? (h : s.record? operationId = some R) :
    s.holdsResource operationId = true := by
  unfold holdsResource
  rw [Bool.or_eq_true]
  rcases record?_cases h with ⟨p, hp, -⟩ | ⟨c, hc, -⟩
  · rw [hp]
    exact .inl rfl
  · rw [hc]
    exact .inr rfl

theorem exists_record? (h : s.holdsResource operationId = true) :
    ∃ R, s.record? operationId = some R := by
  unfold holdsResource at h
  unfold record?
  split
  next p _ => exact ⟨_, rfl⟩
  next hp =>
    rw [hp, Bool.or_eq_true] at h
    obtain ⟨c, hc⟩ := Option.isSome_iff_exists.mp (h.resolve_left (by simp))
    exact ⟨_, by rw [hc]; rfl⟩

theorem mem_of_record? (h : s.record? operationId = some R) :
    (∃ p ∈ s.pendingResources, p.operationId = operationId ∧ R = .pending p)
      ∨ ∃ c ∈ s.completedOperations, c.operationId = operationId ∧ R = .completed c := by
  rcases record?_cases h with ⟨p, hp, rfl⟩ | ⟨c, hc, rfl⟩
  · exact .inl ⟨p, mem_of_pendingResource? hp, operationId_of_pendingResource? hp, rfl⟩
  · exact .inr ⟨c, List.mem_of_find?_eq_some hc, by simpa using List.find?_some hc, rfl⟩

/-- An edit moves a record at most from pending to completed. -/
theorem Edited.becomes (hs : s.Valid) (h : Edited r s t) (hR : s.record? operationId = some R)
    (hR' : t.record? operationId = some R') : R.Becomes R' := by
  have hheld : s.holdsResource operationId = true := holdsResource_of_record? hR
  have hsame {Q : Record} (hQ : s.record? operationId = some Q) : R = Q :=
    Option.some.inj (hR.symm.trans hQ)
  rcases mem_of_record? hR' with ⟨p, hp, hid, rfl⟩ | ⟨c, hc, hid, rfl⟩
  · rcases h.pending p hp with ⟨q, hq, hkeeps⟩ | hprepared
    · have hQ := record?_of_pending hs hq
      rw [← hkeeps.operationId, hid] at hQ
      exact hsame hQ ▸ .kept hkeeps
    · have hfresh := hprepared.fresh
      rw [hid, hheld] at hfresh
      cases hfresh
  · rcases h.completed c hc with hmem | ⟨q, hq, hqid, hfingerprint⟩ | ⟨-, hfresh⟩
    · have hQ := record?_of_completed hs hmem
      rw [hid] at hQ
      exact hsame hQ ▸ .done c
    · have hQ := record?_of_pending hs hq
      rw [hqid, hid] at hQ
      exact hsame hQ ▸ .completed hfingerprint
    · rw [hid, hheld] at hfresh
      cases hfresh

end Records

/-! ## Runs that keep a record -/

/-- A record is there before each staged operation and after the last. -/
def retainedBy (operationId : String) : PersistedGlobalWorkspaces → List StagedOperation → Bool
  | s, [] => s.holdsResource operationId
  | s, op :: ops => s.holdsResource operationId && retainedBy operationId (stage s op) ops

/-- The action does not take the record under the operation id out of the ledgers. -/
def retains (operationId : String) (w : World) : Action → Bool
  | .transaction ops => retainedBy operationId w.store.memory ops
  | a => (step w a).all fun w' => w'.store.memory.holdsResource operationId

theorem holdsResource_of_retains {w w' : World} {a : Action} {operationId : String}
    (h : (step w a).all (fun w' => w'.store.memory.holdsResource operationId) = true)
    (hstep : step w a = some w') : w'.store.memory.holdsResource operationId = true := by
  rw [hstep] at h
  exact h

/-- The record in memory and the one in the file come from the record `R`. -/
structure Follows (operationId : String) (R : Record) (w : World) : Prop where
  memory : ∃ R', w.store.memory.record? operationId = some R' ∧ R.Becomes R'
  file : ∀ s R', w.store.file = some s → s.record? operationId = some R' → R.Becomes R'

section Runs

variable {w w' : World} {operationId : String} {R : Record} {a : Action}

theorem Follows.saved {s : PersistedGlobalWorkspaces} {requests saved : Requests}
    (hs : ∃ R', s.record? operationId = some R' ∧ R.Becomes R') :
    Follows operationId R ⟨⟨s, some s⟩, requests, saved⟩ := by
  obtain ⟨R', hR', hbecomes⟩ := hs
  refine ⟨⟨R', hR', hbecomes⟩, fun u Q hu hQ => ?_⟩
  obtain rfl := Option.some.inj hu
  obtain rfl := Option.some.inj (hR'.symm.trans hQ)
  exact hbecomes

/-- A record that is still there after an edit comes from the same record. -/
theorem becomes_of_edited {s t : PersistedGlobalWorkspaces} {r : Option Request} (hs : s.Sound)
    (h : Edited r s t) (hR : ∃ R', s.record? operationId = some R' ∧ R.Becomes R')
    (hheld : t.holdsResource operationId = true) :
    ∃ R', t.record? operationId = some R' ∧ R.Becomes R' := by
  obtain ⟨Q, hQ, hbecomes⟩ := hR
  obtain ⟨Q', hQ'⟩ := exists_record? hheld
  exact ⟨Q', hQ', hbecomes.trans (Edited.becomes hs.valid h hQ hQ')⟩

theorem edited_stage {s : PersistedGlobalWorkspaces} (hs : s.Sound) (op : StagedOperation) :
    Edited op.operation.request? s (stage s op) := by
  unfold stage
  split
  next t reply h =>
    simp only [Operation.run, bind_eq_ok, Except.ok.injEq, Prod.mk.injEq] at h
    obtain ⟨⟨u, reply'⟩, hedit, _, -, rfl, rfl⟩ := h
    exact Operation.edited hs hedit
  next => exact .refl s

theorem becomes_of_stages {s : PersistedGlobalWorkspaces} {ops : List StagedOperation}
    (hs : s.Sound)
    (hret : retainedBy operationId s ops = true)
    (hR : ∃ R', s.record? operationId = some R' ∧ R.Becomes R') :
    ∃ R', (ops.foldl stage s).record? operationId = some R' ∧ R.Becomes R' := by
  induction ops generalizing s with
  | nil => exact hR
  | cons op ops ih =>
      have hrest : retainedBy operationId (stage s op) ops = true :=
        (Bool.and_eq_true_iff.mp hret).2
      have hheld : (stage s op).holdsResource operationId = true := by
        cases ops with
        | nil => exact hrest
        | cons op' ops => exact (Bool.and_eq_true_iff.mp hrest).1
      exact ih (sound_stage hs) hrest (becomes_of_edited hs (edited_stage hs op) hR hheld)

/-- One action that retains the record. -/
theorem Follows.step (hw : w.Sound) (hf : Follows operationId R w)
    (hret : retains operationId w a = true)
    (h : step w a = some w') : Follows operationId R w' := by
  cases a with
  | mutate op written =>
      have hheld := holdsResource_of_retains hret h
      simp only [Coordinator.step] at h
      split at h
      · exact Option.some.inj h ▸ hf
      next st reply hmutate =>
        obtain ⟨t, hedit, -, -, -, rfl⟩ := Store.mutate_iff.mp hmutate
        obtain rfl := Option.some.inj h
        exact .saved (becomes_of_edited hw.memory
          (Operation.edited hw.memory hedit) hf.memory hheld)
  | transaction ops =>
      simp only [Coordinator.step, foldl_stageNoting_fst] at h
      split at h
      · exact Option.some.inj h ▸ hf
      next st hcommit =>
        simp only [Store.commit, bind_eq_ok, Except.ok.injEq] at hcommit
        obtain ⟨_, -, rfl⟩ := hcommit
        obtain rfl := Option.some.inj h
        exact ⟨becomes_of_stages hw.memory hret hf.memory, hf.file⟩
  | checkpoint written =>
      simp only [Coordinator.step] at h
      split at h
      · exact Option.some.inj h ▸ hf
      next st hcheckpoint =>
        obtain ⟨-, -, -, rfl⟩ := persist_eq_ok.mp hcheckpoint
        obtain rfl := Option.some.inj h
        exact .saved hf.memory
  | initializeLocalOnce nodeId workspaces written =>
      simp only [Coordinator.step, Store.initializeLocalOnce] at h
      split at h
      · exact Option.some.inj h ▸ hf
      · exact Option.some.inj h ▸ hf
      next st hinitialize =>
        split at hinitialize
        · cases (Prod.mk.inj (Except.ok.inj hinitialize)).2
        · simp only [bind_eq_ok, persist_eq_ok] at hinitialize
          obtain ⟨_, -, _, ⟨-, -, -, rfl⟩, hout⟩ := hinitialize
          obtain ⟨rfl, -⟩ := Prod.mk.inj (Except.ok.inj hout)
          obtain rfl := Option.some.inj h
          exact .saved hf.memory
  | restart written =>
      have hheld := holdsResource_of_retains hret h
      cases hfile : w.store.file with
      | none =>
          simp only [Coordinator.step, hfile, Store.load_none] at h
          obtain rfl := Option.some.inj h
          exact absurd hheld (by simp [holdsResource, pendingResource?, completedOperation?,
            PersistedGlobalWorkspaces.empty])
      | some s =>
          simp only [Coordinator.step, hfile, Store.load_eq (hw.file s hfile)] at h
          obtain rfl := Option.some.inj h
          obtain ⟨R', hR'⟩ := exists_record? hheld
          exact .saved ⟨R', hR', hf.file s R' hfile hR'⟩

/-- A run that retains the record. -/
theorem follows_of_reach {v : World} (hv : v.Sound) (hf : Follows operationId R v)
    (h : Reach Coordinator.step (retains operationId · ·) v w) : w.Sound
      ∧ Follows operationId R w := by
  refine h.invariant (I := fun w => w.Sound ∧ Follows operationId R w) ⟨hv, hf⟩ ?_
  rintro u a u' ⟨hu, hfu⟩ hret hstep
  exact ⟨step_sound hu hstep, hfu.step hu hret hstep⟩

end Runs

/-! ## Answers -/

/-- The reply to a request that the record answers. -/
inductive Record.Answers (s : PersistedGlobalWorkspaces) : Record → Request → Reply → Prop
  | pending {p : PendingWorkspaceResource} {a : ResourceRequest} (h : a.describes p = true) :
      Answers s (.pending p) (.resource a) (.preparedResource (.pending (a.mark p) false))
  | pendingShell {p : PendingWorkspaceResource} {a : WorkspaceShellRequest}
      {w : GlobalWorkspaceSnapshot}
      (h : a.describes p = true) (hw : s.workspace? p.globalWorkspaceId = some w) :
      Answers s (.pending p) (.workspaceShell a) (.preparedShell (.pending w p))
  | completed {c : CompletedWorkspaceOperation} {a : ResourceRequest}
      (hname : validateName a.ownerWorkspaceName = .ok ())
      (h : c.requestFingerprint = a.requestFingerprint) :
      Answers s (.completed c) (.resource a) (.preparedResource (.completed c))
  | completedShell {c : CompletedWorkspaceOperation} {a : WorkspaceShellRequest}
      (hname : validateName a.name = .ok ()) (h : c.requestFingerprint = a.requestFingerprint) :
      Answers s (.completed c) (.workspaceShell a) (.preparedShell (.completed c))

/-- The state after a call that the record answers: `prepare_resource_for_attempt` marks it. -/
def PersistedGlobalWorkspaces.retried (s : PersistedGlobalWorkspaces) : Record → Request →
    PersistedGlobalWorkspaces
  | .pending p, .resource a => s.editPendingResource a.operationId fun _ => a.mark p
  | _, _ => s

section Answers

variable {s t : PersistedGlobalWorkspaces} {R R' : Record} {request : Request} {reply : Reply}

theorem all_fingerprint {p : PendingWorkspaceResource} {fingerprint : String}
    (hbound : p.requestFingerprint.isSome = true)
    (h : p.requestFingerprint.all (· == fingerprint) = true) :
    p.requestFingerprint = some fingerprint := by
  cases hp : p.requestFingerprint with
  | none => simp [hp] at hbound
  | some f => simpa [hp] using h

/-- A request is answered only from the record of a request with its fingerprint. -/
theorem Record.Answers.fingerprint (hs : s.Sound) (hR : s.record? request.operationId = some R)
    (h : R.Answers s request reply) : request.fingerprint? = R.fingerprint := by
  have hbound {p : PendingWorkspaceResource} (hp : R = .pending p) :
      p.requestFingerprint.isSome = true := by
    rcases mem_of_record? hR with ⟨q, hq, -, hR'⟩ | ⟨c, -, -, hR'⟩
    · rw [hp] at hR'
      exact Record.pending.inj hR' ▸ (hs.bound q hq).1
    · rw [hp] at hR'
      cases hR'
  cases h with
  | pending h =>
      simp only [ResourceRequest.describes, Bool.and_eq_true] at h
      exact (all_fingerprint (hbound rfl) h.2).symm
  | pendingShell h _ =>
      simp only [WorkspaceShellRequest.describes, Bool.and_eq_true] at h
      exact (all_fingerprint (hbound rfl) h.2).symm
  | completed _ h => exact congrArg some h.symm
  | completedShell _ h => exact congrArg some h.symm

theorem completedOperation?_of_pending {p : PendingWorkspaceResource} {operationId : String}
    (hs : s.Valid)
    (hp : s.pendingResource? operationId = some p) : s.completedOperation? operationId = none := by
  refine get_eq_none.mpr fun c hc he => (hs.completed c hc).2 ?_
  rw [he, ← operationId_of_pendingResource? hp]
  exact List.mem_map_of_mem (mem_of_pendingResource? hp)

theorem validateName_of_describes {p : PendingWorkspaceResource} {name : String} (hs : s.Valid)
    (hp : p ∈ s.pendingResources) (h : (p.ownerWorkspaceName == name) = true) :
      validateName name = .ok () :=
  beq_iff_eq.mp h ▸ (hs.pending p hp).1.name

/-- A call under an id that a ledger has is answered from the record or refused. -/
theorem edit_of_record (hs : s.Sound) (hR : s.record? request.operationId = some R) :
    request.operation.edit s = .ok (t, reply) ↔ R.Answers s request reply
      ∧ t = s.retried R request := by
  cases request with
  | defaultCwd a =>
      -- A default directory keeps no record, so that an id in a ledger is refused.
      have hheld : (s.pendingResources.any (·.operationId == a.operationId) ||
          s.completedOperations.any (·.operationId == a.operationId)) = true := by
        rw [Bool.or_eq_true, List.any_eq_true, List.any_eq_true]
        rcases mem_of_record? hR with ⟨p, hp, hid, -⟩ | ⟨c, hc, hid, -⟩
        · exact .inl ⟨p, hp, beq_iff_eq.mpr hid⟩
        · exact .inr ⟨c, hc, beq_iff_eq.mpr hid⟩
      constructor
      · intro h
        simp only [Request.operation, Operation.edit, replying_eq_ok, prepareDefaultCwd,
          require_bind_eq_ok, hheld] at h
        obtain ⟨_, ⟨h, -⟩, -⟩ := h
        exact absurd h (by simp)
      · rintro ⟨h, -⟩
        cases h
  | resource a =>
      simp only [Request.operation, Operation.edit, replying_eq_ok, prepareResource, bind_eq_ok]
      rcases record?_cases hR with ⟨p, hp, rfl⟩ | ⟨c, hc, rfl⟩
      -- The operation is pending: the retry is compared with what is stored.
      · have hp : s.pendingResource? a.operationId = some p := hp
        have hmem := mem_of_pendingResource? hp
        have hnone := completedOperation?_of_pending hs.valid hp
        rw [hnone, hp]
        simp only [retryResource_eq_ok hp (hs.bound p hmem)]
        constructor
        · rintro ⟨prepared, ⟨_, -, h, rfl, rfl⟩, rfl⟩
          exact ⟨.pending h, rfl⟩
        · rintro ⟨h, rfl⟩
          cases h with
          | pending h =>
              have hname : (p.ownerWorkspaceName == a.ownerWorkspaceName) = true := by
                simp only [ResourceRequest.describes, Bool.and_eq_true] at h
                exact h.1.1.1.1.2
              exact ⟨_, ⟨(), validateName_of_describes hs.valid hmem hname, h, rfl, rfl⟩, rfl⟩
      -- The operation is completed: only its fingerprint is left to compare.
      · have hc : s.completedOperation? a.operationId = some c := hc
        simp only [hc]
        constructor
        · rintro ⟨prepared, ⟨_, hname, h⟩, rfl⟩
          split at h
          next hfingerprint =>
            obtain ⟨rfl, rfl⟩ := Prod.mk.inj (Except.ok.inj h)
            exact ⟨.completed hname hfingerprint, rfl⟩
          next => cases h
        · rintro ⟨h, rfl⟩
          cases h with
          | completed hname h => exact ⟨_, ⟨(), hname, by rw [if_pos h]⟩, rfl⟩
  | workspaceShell a =>
      simp only [Request.operation, Operation.edit, replying_eq_ok, prepareWorkspaceShell,
        bind_eq_ok]
      rcases record?_cases hR with ⟨p, hp, rfl⟩ | ⟨c, hc, rfl⟩
      -- The same two cases, where the answer names the Workspace as well.
      · have hp : s.pendingResource? a.operationId = some p := hp
        have hmem := mem_of_pendingResource? hp
        have hnone := completedOperation?_of_pending hs.valid hp
        rw [hnone, hp]
        simp only [retryWorkspaceShell_eq_ok hp (hs.bound p hmem)]
        constructor
        · rintro ⟨prepared, ⟨_, -, h, rfl, w, hw, rfl⟩, rfl⟩
          exact ⟨.pendingShell h hw, rfl⟩
        · rintro ⟨h, rfl⟩
          cases h with
          | pendingShell h hw =>
              have hname : (p.ownerWorkspaceName == a.name) = true := by
                simp only [WorkspaceShellRequest.describes, Bool.and_eq_true] at h
                exact h.1.1.1.1.2
              exact ⟨_, ⟨(), validateName_of_describes hs.valid hmem hname, h, rfl, _, hw, rfl⟩,
                rfl⟩
      · have hc : s.completedOperation? a.operationId = some c := hc
        simp only [hc]
        constructor
        · rintro ⟨prepared, ⟨_, hname, h⟩, rfl⟩
          split at h
          next hfingerprint =>
            obtain ⟨rfl, rfl⟩ := Prod.mk.inj (Except.ok.inj h)
            exact ⟨.completedShell hname hfingerprint, rfl⟩
          next => cases h
        · rintro ⟨h, rfl⟩
          cases h with
          | completedShell hname h => exact ⟨_, ⟨(), hname, by rw [if_pos h]⟩, rfl⟩

/-- Marking a pending record keeps the state valid. -/
theorem valid_mark {a : ResourceRequest} {p : PendingWorkspaceResource} {operationId : String}
    (hs : s.Valid)
    (hp : s.pendingResource? operationId = some p) :
    (s.editPendingResource operationId fun _ => a.mark p).Valid := by
  have hids : (s.editPendingResource operationId fun _ => a.mark p).pendingIds = s.pendingIds := by
    refine map_key_editFirst fun q hq => ?_
    obtain rfl := Option.some.inj (hp.symm.trans hq)
    exact (a.keeps_mark p).operationId
  have hlength : (s.editPendingResource operationId fun _ => a.mark p).pendingResources.length
      = s.pendingResources.length := by
    have h := congrArg List.length hids
    simpa only [pendingIds, List.length_map] using h
  have hmark : p.Valid → (a.mark p).Valid := by
    intro h
    unfold ResourceRequest.mark
    split
    · exact ⟨h.ids, h.fingerprints, h.reservation, h.name⟩
    · exact h
  refine ⟨?_, hs.workspaces, hs.workspaceIds, hs.names, hs.owners, fun q hq => ?_,
    hids ▸ hs.pendingIds, hids ▸ hs.completed, hs.completedIds, hids ▸ hs.pendingDefaultCwd,
    hids ▸ hs.completedDefaultCwd, hs.defaultCwdIds⟩
  · have hsizes := hs.sizes
    unfold sizesValid at hsizes ⊢
    rw [hlength]
    exact hsizes
  · rcases mem_editFirst hq with hq | ⟨q', hq', rfl⟩
    · exact hs.pending q hq
    · obtain ⟨hvalid, hworkspace⟩ := hs.pending p (mem_of_pendingResource? hp)
      refine ⟨hmark hvalid, ?_⟩
      rw [(a.keeps_mark p).globalWorkspaceId]
      exact hworkspace

theorem sound_retried (hs : s.Sound) (hR : s.record? request.operationId = some R)
    (h : R.Answers s request reply) : (s.retried R request).Valid
      ∧ (s.retried R request).fits = true := by
  cases h with
  | @pending p a h =>
      have hp : s.pendingResource? a.operationId = some p := by
        rcases mem_of_record? hR with ⟨q, hq, hid, he⟩ | ⟨_, -, -, he⟩
        · obtain rfl := Record.pending.inj he
          exact (Distinct.get_eq_some hs.valid.pendingIds).mpr ⟨hq, hid⟩
        · cases he
      exact ⟨valid_mark hs.valid hp, fits_mark hp hs.fits⟩
  | pendingShell => exact ⟨hs.valid, hs.fits⟩
  | completed => exact ⟨hs.valid, hs.fits⟩
  | completedShell => exact ⟨hs.valid, hs.fits⟩

/-- A call under an id that a ledger has succeeds exactly when the record answers the request and
the write is taken, and then it stores the state with at most the record's mark changed. -/
theorem mutate_of_record {st st' : Store} {written : Bool} (hs : st.memory.Sound)
    (hR : st.memory.record? request.operationId = some R) :
    st.mutate request.operation written = .ok (st', reply) ↔ R.Answers st.memory request reply
      ∧ written = true ∧ st' = ⟨st.memory.retried R request,
        some (st.memory.retried R request)⟩ := by
  simp only [Store.mutate_iff, edit_of_record hs hR]
  constructor
  · rintro ⟨t, ⟨hanswers, rfl⟩, -, -, hwritten, hst⟩
    exact ⟨hanswers, hwritten, hst⟩
  · rintro ⟨hanswers, hwritten, hst⟩
    obtain ⟨hvalid, hfits⟩ := sound_retried hs hR hanswers
    exact ⟨_, ⟨hanswers, rfl⟩, hvalid, hfits, hwritten, hst⟩

end Answers

/-! ## Retries -/

section Retries

variable {v w : World} {request : Request}

/-- From a saved state on, through any calls, transactions, checkpoints and restarts that leave a
record under the id in the ledgers: the record stays, or moves from pending to completed; a call
under the id is answered from it, as a request with its fingerprint, or refused; and an answered
call stores the same state, with at most the mark that the owner was asked. -/
theorem retained_answers {R : Record} (hv : Reach step (fun _ _ => True) World.initial v)
    (hsaved : v.store.file = some v.store.memory)
    (hR : v.store.memory.record? request.operationId = some R)
    (hrun : Reach step (retains request.operationId · ·) v w) :
    ∃ R', w.store.memory.record? request.operationId = some R' ∧ R.Becomes R'
      ∧ (∀ reply, R'.Answers w.store.memory request reply → request.fingerprint? = R.fingerprint)
      ∧ ∀ written st reply, w.store.mutate request.operation written = .ok (st, reply) ↔
          R'.Answers w.store.memory request reply ∧ written = true
            ∧ st = ⟨w.store.memory.retried R' request,
              some (w.store.memory.retried R' request)⟩ := by
  have hfollows : Follows request.operationId R v := by
    refine ⟨⟨R, hR, .refl R⟩, fun s R' hs hR' => ?_⟩
    rw [hsaved] at hs
    obtain rfl := Option.some.inj hs
    obtain rfl := Option.some.inj (hR.symm.trans hR')
    exact .refl R
  obtain ⟨hw, ⟨R', hR', hbecomes⟩, -⟩ := follows_of_reach (sound_of_reach hv) hfollows hrun
  exact ⟨R', hR', hbecomes,
    fun reply h => (Record.Answers.fingerprint hw.memory hR' h).trans hbecomes.fingerprint,
    fun written st reply => mutate_of_record hw.memory hR'⟩

theorem store_of_mutate {op : Operation} {written : Bool} {st : Store} {reply : Reply}
    (hcall : v.store.mutate op written = .ok (st, reply))
    (h : step v (.mutate op written) = some w) :
    w.store = st ∧ w.store.file = some w.store.memory := by
  simp only [step, hcall] at h
  obtain rfl := Option.some.inj h
  obtain ⟨t, -, -, -, -, rfl⟩ := Store.mutate_iff.mp hcall
  exact ⟨rfl, rfl⟩

/-- A Workspace with a Shell is prepared, then another Shell on it, and the daemon restarts. -/
def retryRun : List Action := [.mutate (.prepareResource shellRequest) true, .restart true]

/-- The record of the first request is still there. -/
theorem retained_answers_retryRun : ∃ v w R', step World.initial
      (.mutate (.prepareWorkspaceShell projectRequest) true) = some v
    ∧ exec step v retryRun = some w ∧ w.store.memory.record? projectRequest.operationId = some R'
    ∧ R'.fingerprint = some projectRequest.requestFingerprint := by
  have hcomputed : (World.initial.store.mutate
      (.prepareWorkspaceShell projectRequest) true).toOption.isSome = true
      ∧ (step World.initial (.mutate (.prepareWorkspaceShell projectRequest) true)).any (fun v =>
        (exec step v retryRun).isSome && allMeet step
          (retains projectRequest.operationId · ·) v retryRun
          && (v.store.memory.record? projectRequest.operationId).any
            (·.fingerprint == some projectRequest.requestFingerprint)) = true := by decide +kernel
  obtain ⟨hcall, hstep⟩ := hcomputed
  obtain ⟨⟨st, reply⟩, hcall⟩ := Option.isSome_iff_exists.mp hcall
  obtain ⟨v, hv, hstep⟩ := (Option.any_eq_true ..).mp hstep
  simp only [Bool.and_eq_true] at hstep
  obtain ⟨⟨hrun, hmeets⟩, hrecord⟩ := hstep
  obtain ⟨w, hw⟩ := Option.isSome_iff_exists.mp hrun
  obtain ⟨R, hR, hfingerprint⟩ := (Option.any_eq_true ..).mp hrecord
  have hrequest : v.store.memory.record? (Request.workspaceShell projectRequest).operationId =
      some R := hR
  obtain ⟨R', hR', hbecomes, -⟩ := retained_answers (Reach.refl.tail trivial hv)
    (store_of_mutate (toOption_eq_some.mp hcall) hv).2 hrequest
    (reach_of_exec (meets_of_allMeet hmeets) hw)
  exact ⟨v, w, R', hv, hw, hR', hbecomes.fingerprint.trans (beq_iff_eq.mp hfingerprint)⟩

/-! ## Identical retries -/

theorem describes_of_keeps {a : ResourceRequest} {q p : PendingWorkspaceResource} (h : Keeps q p) :
    a.describes p = a.describes q := by
  have hidentity (p : PendingWorkspaceResource) : a.describes p = a.describes p.identity := rfl
  rw [hidentity p, hidentity q, h.identity]

/-- A newly prepared record is the request's own, apart from the owner's name and directory. -/
theorem describes_newResource {s : PersistedGlobalWorkspaces} {a : ResourceRequest}
    {workspace : GlobalWorkspaceSnapshot} {reservation : Nat} :
    a.describes { s.newResource a workspace with completionReservation := reservation } = true ↔
      ∀ q, s.preparedOwner a = some q → q.ownerWorkspaceName = a.ownerWorkspaceName
        ∧ q.defaultCwd = a.defaultCwd := by
  cases howner : s.preparedOwner a with
  | none => simp [ResourceRequest.describes, newResource, howner]
  | some q => simp [ResourceRequest.describes, newResource, howner]

/-- What `prepare_resource` stores when it answers that the operation is newly prepared. -/
theorem prepareResource_new {s t : PersistedGlobalWorkspaces} {a : ResourceRequest}
    {p : PendingWorkspaceResource}
    (hs : s.Sound) (h : s.prepareResource a = .ok (t, .pending p true)) :
    validateName a.ownerWorkspaceName = .ok () ∧ p ∈ t.pendingResources ∧ ∃ workspace reservation,
      p = { s.newResource a workspace with completionReservation := reservation } := by
  simp only [prepareResource, bind_eq_ok] at h
  obtain ⟨_, hname, h⟩ := h
  refine ⟨hname, ?_⟩
  split at h
  next =>
    split at h
    · cases (Prod.mk.inj (Except.ok.inj h)).2
    · cases h
  next =>
    split at h
    next pending hpending =>
      rw [retryResource_eq_ok hpending (hs.bound _ (mem_of_pendingResource? hpending))] at h
      cases h.2.2
    next =>
      simp only [prepareNewResource, bind_eq_ok] at h
      obtain ⟨_, -, _, -, workspace, -, _, -, _, -, h⟩ := h
      split at h
      all_goals
        simp only [bind_eq_ok] at h
        obtain ⟨_, -, _, -, ⟨u, reserved⟩, hpush, u', hcompact, h⟩ := h
        obtain ⟨rfl, hp⟩ := Prod.mk.inj (Except.ok.inj h)
        obtain ⟨rfl, -⟩ := PreparedWorkspaceResource.pending.inj hp
        obtain ⟨grown, reservation, -, hreserved, rfl, -⟩ := pushPending_eq_ok hpush
        obtain ⟨completed, completedDefaultCwd, -, -, -, rfl⟩ := compactPreparedState_eq_ok hcompact
        exact ⟨List.mem_append_right _ (List.mem_singleton_self _), workspace, reservation,
          hreserved⟩

/-- A request for a Shell or a Launcher that was newly prepared is answered when it is repeated, for
as long as its record is in the ledgers, exactly when it is completed by then or the operation that
was pending on the Workspace and Node before it had the same owner name and directory. -/
theorem repeated_answered_iff {u : World} {a : ResourceRequest} {st : Store}
    {p : PendingWorkspaceResource}
    (hu : Reach step (fun _ _ => True) World.initial u)
    (hcall : u.store.mutate (.prepareResource a) true = .ok (st,
      .preparedResource (.pending p true)))
    (hv : step u (.mutate (.prepareResource a) true) = some v)
    (hrun : Reach step (retains a.operationId · ·) v w) :
    (∃ st' reply, w.store.mutate (.prepareResource a) true = .ok (st', reply)) ↔
      w.store.memory.pendingResource? a.operationId = none
        ∨ ∀ q, u.store.memory.preparedOwner a = some q →
          q.ownerWorkspaceName = a.ownerWorkspaceName ∧ q.defaultCwd = a.defaultCwd := by
  have hsu : u.Sound := sound_of_reach hu
  have hsv : v.Sound := step_sound hsu hv
  obtain ⟨hst, hfile⟩ := store_of_mutate hcall hv
  obtain ⟨t, hedit, hvalid, -, -, rfl⟩ := Store.mutate_iff.mp hcall
  simp only [Operation.edit, replying_eq_ok] at hedit
  obtain ⟨_, hedit, hreply⟩ := hedit
  obtain rfl := Reply.preparedResource.inj hreply
  -- What the new record says, and that it is in the ledger and in the file after the call.
  obtain ⟨hname, hmem, workspace, reservation, hp⟩ := prepareResource_new hsu.memory hedit
  have hid : p.operationId = a.operationId := by rw [hp]; rfl
  have hfingerprint : p.requestFingerprint = some a.requestFingerprint := by rw [hp]; rfl
  have hR : v.store.memory.record? a.operationId = some (.pending p) := by
    rw [hst, ← hid]
    exact record?_of_pending hvalid hmem
  have hfollows : Follows a.operationId (.pending p) v := by
    refine ⟨⟨_, hR, .refl _⟩, fun s R' hs hR' => ?_⟩
    rw [hfile] at hs
    obtain rfl := Option.some.inj hs
    obtain rfl := Option.some.inj (hR.symm.trans hR')
    exact .refl _
  -- The run keeps a record under the id, so that the second call is answered from the record.
  obtain ⟨hw, ⟨R', hR', hbecomes⟩, -⟩ := follows_of_reach hsv hfollows hrun
  have hcalls (st' : Store) (reply : Reply) :
      w.store.mutate (Request.resource a).operation true = .ok (st', reply) ↔ _ :=
    mutate_of_record hw.memory hR'
  have hdescribes : a.describes p = true ↔ ∀ q, u.store.memory.preparedOwner a = some q →
      q.ownerWorkspaceName = a.ownerWorkspaceName ∧ q.defaultCwd = a.defaultCwd := by
    rw [hp]
    exact describes_newResource
  simp only [Request.operation] at hcalls
  rw [← hdescribes]
  simp only [hcalls]
  cases hbecomes with
  -- A pending record is compared with the request, a completed one only its fingerprint.
  | @kept _ p' hkeeps =>
      have hpending : w.store.memory.pendingResource? a.operationId = some p' := by
        rcases mem_of_record? hR' with ⟨q, hq, hid, he⟩ | ⟨_, -, -, he⟩
        · obtain rfl := Record.pending.inj he
          exact (Distinct.get_eq_some hw.memory.valid.pendingIds).mpr ⟨hq, hid⟩
        · cases he
      rw [hpending, ← describes_of_keeps hkeeps]
      constructor
      · rintro ⟨_, _, hanswers, -⟩
        cases hanswers with
        | pending h => exact .inr h
      · rintro (h | h)
        · cases h
        · exact ⟨_, _, .pending h, trivial, rfl⟩
  | @completed _ c hcompleted =>
      have hnone : w.store.memory.pendingResource? a.operationId = none := by
        unfold record? at hR'
        split at hR'
        · cases hR'
        next hnone => exact hnone
      refine ⟨fun _ => .inl hnone, fun _ => ⟨_, _, .completed hname ?_, trivial, rfl⟩⟩
      exact Option.some.inj (hcompleted.symm.trans hfingerprint)

/-- The record of a reply that says it is new. -/
def Reply.newlyPrepared? : Reply → Option PendingWorkspaceResource
  | .preparedResource (.pending p true) => some p
  | _ => none

theorem eq_of_newlyPrepared? {reply : Reply} {p : PendingWorkspaceResource}
    (h : reply.newlyPrepared? = some p) : reply = .preparedResource (.pending p true) := by
  unfold Reply.newlyPrepared? at h
  split at h
  · rw [Option.some.inj h]
  · cases h

/-- Another Shell on a Workspace is prepared with the Workspace's name and directory, and the daemon
restarts. -/
theorem repeated_answered_iff_shell : ∃ u v w, exec step World.initial
      [.mutate (.prepareWorkspaceShell projectRequest) true] = some u
    ∧ step u (.mutate (.prepareResource shellRequest) true) = some v
    ∧ step v (.restart false) = some w
    ∧ ∃ st reply, w.store.mutate (.prepareResource shellRequest) true = .ok (st, reply) := by
  have hcomputed : (exec step World.initial
      [.mutate (.prepareWorkspaceShell projectRequest) true]).any
      (fun u => (u.store.mutate (.prepareResource shellRequest) true).toOption.any
            (fun x => x.2.newlyPrepared?.isSome)
        && (step u (.mutate (.prepareResource shellRequest) true)).any (fun v =>
          (exec step v [.restart false]).isSome
            && allMeet step (retains shellRequest.operationId · ·) v [.restart false])
        && (u.store.memory.preparedOwner shellRequest).all (fun q =>
          q.ownerWorkspaceName == shellRequest.ownerWorkspaceName
            && q.defaultCwd == shellRequest.defaultCwd)) = true := by decide +kernel
  obtain ⟨u, hu, hcomputed⟩ := (Option.any_eq_true ..).mp hcomputed
  simp only [Bool.and_eq_true] at hcomputed
  obtain ⟨⟨hcall, hstep⟩, howner⟩ := hcomputed
  obtain ⟨⟨st, reply⟩, hcall, hnew⟩ := (Option.any_eq_true ..).mp hcall
  obtain ⟨p, hp⟩ := Option.isSome_iff_exists.mp hnew
  obtain rfl := eq_of_newlyPrepared? hp
  obtain ⟨v, hv, hstep⟩ := (Option.any_eq_true ..).mp hstep
  simp only [Bool.and_eq_true] at hstep
  obtain ⟨w, hw⟩ := Option.isSome_iff_exists.mp hstep.1
  refine ⟨u, v, w, hu, hv, by simpa using hw, ?_⟩
  refine (repeated_answered_iff (reach_of_exec_true hu) (toOption_eq_some.mp hcall) hv
    (reach_of_exec (meets_of_allMeet hstep.2) hw)).mpr (.inr fun q hq => ?_)
  rw [hq, Option.all_some] at howner
  simpa using howner

end Retries

end Boomux.Coordinator
