import Boomux.Coordinator.Prepare

/-!
# Runs of the coordinator store

The store is its state in memory together with the state in its file. An operation on the
store runs under the lock: the edited copy is validated and saved before it replaces the state
in memory. A transaction edits a copy without saving it and is committed to memory only. The
file is written whole and renamed into place, so a failed write leaves the old one. Starting
the daemon again loads the file.
-/

set_option autoImplicit false

namespace Boomux.Coordinator

open Rust

/-! ## Operations and replies -/

inductive Operation
  | create (name id : String)
  | adopt (nodeId : String) (owner : WorkspaceSnapshot) (expectedRevision : Nat) (id : String)
  | link (globalId : String) (expectedGlobalRevision : Nat) (nodeId : String)
      (owner : WorkspaceSnapshot) (expectedOwnerRevision : Nat)
  | rename (id : String) (expectedRevision : Nat) (name : String)
  | beginClose (id : String) (expectedRevision : Nat)
  | confirmClosed (id nodeId ownerId : String)
  | confirmEmptyClosed (id : String)
  | prepareDefaultCwd (request : DefaultCwdRequest)
  | markDefaultCwdOwnerAttempted (operation : PendingDefaultCwdOperation)
  | cancelDefaultCwd (operation : PendingDefaultCwdOperation)
  | cancelDefaultCwdIfNeverAttempted (operation : PendingDefaultCwdOperation)
  | completeDefaultCwd (operation : PendingDefaultCwdOperation) (owner : WorkspaceSnapshot)
  | prepareResource (request : ResourceRequest)
  | prepareWorkspaceShell (request : WorkspaceShellRequest)
  | markOwnerAttempted (pending : PendingWorkspaceResource)
  | cancelResource (pending : PendingWorkspaceResource)
  | cancelPendingOperationIfNeverAttempted (operationId requestFingerprint : String)
  | completeResource (pending : PendingWorkspaceResource) (owner : WorkspaceSnapshot)
      (resource : RoutedOperationResult)
  | reconcileResource (pending : PendingWorkspaceResource)
      (observed : Option (WorkspaceSnapshot × RoutedOperationResult))

inductive Reply
  | workspace (workspace : GlobalWorkspaceSnapshot)
  | closed (workspace : Option GlobalWorkspaceSnapshot)
  | done
  | cancelled (removed : Bool)
  | preparedDefaultCwd (prepared : PreparedDefaultCwdOperation)
  | pendingDefaultCwd (operation : PendingDefaultCwdOperation)
  | defaultCwd (result : WorkspaceDefaultCwdResult)
  | preparedResource (prepared : PreparedWorkspaceResource)
  | preparedShell (prepared : PreparedWorkspaceShell)
  | pendingResource (pending : PendingWorkspaceResource)
  | completed (operation : CompletedWorkspaceOperation)
  | reconciled (operation : Option CompletedWorkspaceOperation)

/-- The result of an edit as a reply. -/
def replying {α : Type} (f : α → Reply) (x : Except IoError (PersistedGlobalWorkspaces × α)) :
    Except IoError (PersistedGlobalWorkspaces × Reply) :=
  x.map fun y => (y.1, f y.2)

/-- The closure that an operation passes to `mutate`. -/
def Operation.edit (s : PersistedGlobalWorkspaces) :
    Operation → Except IoError (PersistedGlobalWorkspaces × Reply)
  | create name id => replying .workspace (s.create name id)
  | adopt nodeId owner expected id => replying .workspace (s.adopt nodeId owner expected id)
  | link globalId expected nodeId owner ownerExpected =>
      replying .workspace (s.link globalId expected nodeId owner ownerExpected)
  | rename id expected name => replying .workspace (s.rename id expected name)
  | beginClose id expected => replying .workspace (s.beginClose id expected)
  | confirmClosed id nodeId ownerId => replying .closed (s.confirmClosed id nodeId ownerId)
  | confirmEmptyClosed id => replying (fun _ => .done) (s.confirmEmptyClosed id)
  | prepareDefaultCwd a => replying .preparedDefaultCwd (s.prepareDefaultCwd a)
  | markDefaultCwdOwnerAttempted d =>
      replying .pendingDefaultCwd (s.markDefaultCwdOwnerAttempted d)
  | cancelDefaultCwd d => replying .cancelled (s.cancelDefaultCwd d)
  | cancelDefaultCwdIfNeverAttempted d =>
      replying .cancelled (s.cancelDefaultCwdIfNeverAttempted d)
  | completeDefaultCwd d owner => replying .defaultCwd (s.completeDefaultCwd d owner)
  | prepareResource a => replying .preparedResource (s.prepareResource a)
  | prepareWorkspaceShell a => replying .preparedShell (s.prepareWorkspaceShell a)
  | markOwnerAttempted p => replying .pendingResource (s.markOwnerAttempted p)
  | cancelResource p => replying (fun _ => .done) (s.cancelResource p)
  | cancelPendingOperationIfNeverAttempted id fingerprint =>
      replying .cancelled (s.cancelPendingOperationIfNeverAttempted id fingerprint)
  | completeResource p owner resource => replying .completed (s.completeResource p owner resource)
  | reconcileResource p observed => replying .reconciled (s.reconcileResource p observed)

/-- The edited copy, validated. -/
def Operation.run (s : PersistedGlobalWorkspaces) (op : Operation) :
    Except IoError (PersistedGlobalWorkspaces × Reply) := do
  let (edited, reply) ← op.edit s
  validate edited
  .ok (edited, reply)

/-! ## The store -/

/-- `save`; `written` says whether the file system took the write. -/
def save (s : PersistedGlobalWorkspaces) (written : Bool) : Except IoError Unit := do
  require s.fits (invalid "global Workspace store exceeds the size limit")
  require written (.ofMessage "could not write global Workspace store")

structure Store where
  memory : PersistedGlobalWorkspaces
  file : Option PersistedGlobalWorkspaces

/-- Validating and saving a copy, and only then using it. -/
def persist (replacement : PersistedGlobalWorkspaces) (written : Bool) : Except IoError Store := do
  validate replacement
  save replacement written
  .ok ⟨replacement, some replacement⟩

/-- `mutate` on the persisted store. -/
def Store.mutate (st : Store) (op : Operation) (written : Bool) :
    Except IoError (Store × Reply) := do
  let (edited, reply) ← op.edit st.memory
  let persisted ← persist edited written
  .ok (persisted, reply)

/-- The operations of a `GlobalWorkspaceTransaction`. -/
inductive StagedOperation
  | prepareResourceForAttempt (request : ResourceRequest)
  | completeResource (pending : PendingWorkspaceResource) (owner : WorkspaceSnapshot)
      (resource : RoutedOperationResult)

def StagedOperation.operation : StagedOperation → Operation
  | prepareResourceForAttempt a => .prepareResource { a with ownerAttempted := true }
  | completeResource p owner resource => .completeResource p owner resource

/-- `mutate` on the staged copy, which is not saved. A failed operation leaves the copy. -/
def stage (s : PersistedGlobalWorkspaces) (op : StagedOperation) : PersistedGlobalWorkspaces :=
  match op.operation.run s with
  | .ok (edited, _) => edited
  | .error _ => s

/-- `commit`. -/
def Store.commit (st : Store) (staged : PersistedGlobalWorkspaces) : Except IoError Store := do
  validate staged
  .ok { st with memory := staged }

/-- `checkpoint`. -/
def Store.checkpoint (st : Store) (written : Bool) : Except IoError Store :=
  persist st.memory written

/-- `initialize_local_once`, with the Workspaces of the snapshot. -/
def Store.initializeLocalOnce (st : Store) (nodeId : String) (workspaces : List WorkspaceSnapshot)
    (written : Bool) : Except IoError (Store × Bool) :=
  if st.memory.localMigrationComplete then .ok (st, false)
  else do
    require (decide (st.memory.workspaces.length + workspaces.length ≤ maxWorkspaces))
      (invalid "coordinator Workspace limit reached during migration")
    let initialized ← persist { st.memory with
      workspaces := st.memory.workspaces ++ workspaces.map fun w =>
        ⟨w.id, 1, w.name, false, [placement nodeId w .active]⟩
      localMigrationComplete := true } written
    .ok (initialized, true)

/-- A record of an older schema, which cannot prove whether the owner was asked. -/
def PendingWorkspaceResource.migrate (p : PendingWorkspaceResource) : PendingWorkspaceResource :=
  { p with
    operationId := if p.operationId.isEmpty then p.resourceId else p.operationId
    requestedOwnerWorkspaceId :=
      if p.requestedOwnerWorkspaceId.isEmpty then p.ownerWorkspaceId
      else p.requestedOwnerWorkspaceId
    ownerAttempted := true }

/-- `load_at`, with the parsed file. -/
def Store.load (file : Option PersistedGlobalWorkspaces) (written : Bool) :
    Except IoError Store :=
  match file with
  | none => do
      validate .empty
      .ok ⟨.empty, none⟩
  | some s => do
      require s.fits (invalid "global Workspace store exceeds the size limit")
      if 1 ≤ s.version ∧ s.version < 6 then
        persist { s with
          pendingResources := s.pendingResources.map (·.migrate)
          version := coordinatorWorkspaceVersion } written
      else if s.version = 7 then
        persist { s with version := coordinatorWorkspaceVersion } written
      else
        validate s
        .ok ⟨s, file⟩

/-! ## Runs -/

/-- A request that a client made under an operation id. -/
inductive Request
  | defaultCwd (a : DefaultCwdRequest)
  | resource (a : ResourceRequest)
  | workspaceShell (a : WorkspaceShellRequest)

def Request.operationId : Request → String
  | defaultCwd a => a.operationId
  | resource a => a.operationId
  | workspaceShell a => a.operationId

/-- The call that makes the request. -/
def Request.operation : Request → Operation
  | defaultCwd a => .prepareDefaultCwd a
  | resource a => .prepareResource a
  | workspaceShell a => .prepareWorkspaceShell a

def Operation.request? : Operation → Option Request
  | prepareDefaultCwd a => some (.defaultCwd a)
  | prepareResource a => some (.resource a)
  | prepareWorkspaceShell a => some (.workspaceShell a)
  | _ => none

/-- Whether a ledger has a record under the operation id. -/
def PersistedGlobalWorkspaces.holds (s : PersistedGlobalWorkspaces) (operationId : String) : Bool :=
  (s.pendingResource? operationId).isSome || (s.completedOperation? operationId).isSome ||
    (s.pendingDefaultCwd? operationId).isSome || (s.completedDefaultCwd? operationId).isSome

/-- For every operation id the request that its record was made for. The store does not keep
this; it is the history that `retained_answers` and `repeated_answered_iff` speak of. -/
abbrev Requests := String → Option Request

/-- The history after a call: a request is noted when the call made a record for it. -/
def Requests.note (requests : Requests) (op : Operation)
    (before after : PersistedGlobalWorkspaces) :
    Requests :=
  match op.request? with
  | none => requests
  | some r =>
      if !before.holds r.operationId && after.holds r.operationId then
        Function.update requests r.operationId (some r)
      else requests

structure World where
  store : Store
  requests : Requests
  /-- The history of the records in the file. -/
  saved : Requests

/-- What happens to the store. `written` is the outcome of the write to the file. -/
inductive Action
  | mutate (op : Operation) (written : Bool)
  | transaction (ops : List StagedOperation)
  | checkpoint (written : Bool)
  | initializeLocalOnce (nodeId : String) (workspaces : List WorkspaceSnapshot) (written : Bool)
  | restart (written : Bool)

/-- One staged operation with its history. -/
def stageNoting (c : PersistedGlobalWorkspaces × Requests) (op : StagedOperation) :
    PersistedGlobalWorkspaces × Requests :=
  (stage c.1 op, c.2.note op.operation c.1 (stage c.1 op))

/-- One action. A call that fails leaves the store; a restart that fails does not happen. -/
def step (w : World) : Action → Option World
  | .mutate op written =>
      match w.store.mutate op written with
      | .error _ => some w
      | .ok (store, _) =>
          let requests := w.requests.note op w.store.memory store.memory
          some ⟨store, requests, requests⟩
  | .transaction ops =>
      let (staged, requests) := ops.foldl stageNoting (w.store.memory, w.requests)
      match w.store.commit staged with
      | .error _ => some w
      | .ok store => some { w with store := store, requests := requests }
  | .checkpoint written =>
      match w.store.checkpoint written with
      | .error _ => some w
      | .ok store => some { w with store := store, saved := w.requests }
  | .initializeLocalOnce nodeId workspaces written =>
      match w.store.initializeLocalOnce nodeId workspaces written with
      | .error _ => some w
      | .ok (_, false) => some w
      | .ok (store, true) => some { w with store := store, saved := w.requests }
  | .restart written =>
      match Store.load w.store.file written with
      | .error _ => none
      | .ok store => some ⟨store, w.saved, w.saved⟩

/-- The first start, without a file. -/
def World.initial : World := ⟨⟨.empty, none⟩, fun _ => none, fun _ => none⟩

end Boomux.Coordinator
