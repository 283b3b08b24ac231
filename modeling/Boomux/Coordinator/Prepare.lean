import Boomux.Coordinator.Operations

/-!
# Prepared operations

The operations of the store that move a client's operation through the ledgers: preparing it,
marking that its owner was asked, cancelling it and completing it, for the default working
directory of a placement and for the creation of a Shell or a Launcher.
-/

set_option autoImplicit false

namespace Boomux.Coordinator.PersistedGlobalWorkspaces

open Rust

variable (s : PersistedGlobalWorkspaces)

/-! ## Default working directories -/

def defaultCwdNotFound : IoError := ⟨.notFound, "prepared default cwd operation not found"⟩

/-- `completed_default_cwd`, a read. -/
def completedDefaultCwd (operationId globalWorkspaceId : String) (expectedGlobalRevision : Nat)
    (nodeId ownerWorkspaceId : String) (expectedOwnerRevision : Nat)
    (requestedDefaultCwd : String) : Except IoError (Option WorkspaceDefaultCwdResult) :=
  match s.completedDefaultCwd? operationId with
  | none => .ok none
  | some completed => do
      let request := completed.request
      require (request.globalWorkspaceId == globalWorkspaceId &&
          request.expectedGlobalRevision == expectedGlobalRevision && request.nodeId == nodeId &&
          request.ownerWorkspaceId == ownerWorkspaceId &&
          request.expectedOwnerRevision == expectedOwnerRevision &&
          request.requestedDefaultCwd == requestedDefaultCwd) operationConflict
      .ok (some completed.result)

/-- `prepare_default_cwd` for an operation id that no ledger has. -/
def prepareNewDefaultCwd (a : DefaultCwdRequest) :
    Except IoError (PersistedGlobalWorkspaces × PreparedDefaultCwdOperation) := do
  s.ensureNoPendingResource a.globalWorkspaceId
  let workspace ← s.get a.globalWorkspaceId
  requireRevision workspace.revision a.expectedGlobalRevision "global Workspace"
  require (!workspace.closing) closeInProgress
  match workspace.placementOn a.nodeId with
  | none => .error ⟨.notFound, "Workspace placement not found"⟩
  | some placement => do
      require (placement.workspaceId == a.ownerWorkspaceId)
        ⟨.notFound, "exact owner Workspace placement not found"⟩
      requireRevision placement.ownerRevision a.expectedOwnerRevision "owner Workspace"
      let prepared ← ({ s with
        pendingDefaultCwdOperations :=
          s.pendingDefaultCwdOperations ++ [a.operation] } :
            PersistedGlobalWorkspaces).compactPreparedState
      .ok (prepared, .pending a.operation)

def prepareDefaultCwd (a : DefaultCwdRequest) :
    Except IoError (PersistedGlobalWorkspaces × PreparedDefaultCwdOperation) := do
  require (!(s.pendingResources.any (·.operationId == a.operationId) ||
    s.completedOperations.any (·.operationId == a.operationId))) operationConflict
  match s.completedDefaultCwd? a.operationId with
  | some completed => do
      require (sameDefaultCwdRequest completed.request a.operation) operationConflict
      .ok (s, .completed completed.result)
  | none =>
      match s.pendingDefaultCwd? a.operationId with
      | some pending => do
          require (sameDefaultCwdRequest pending a.operation) operationConflict
          .ok (s, .pending pending)
      | none => s.prepareNewDefaultCwd a

def markDefaultCwdOwnerAttempted (operation : PendingDefaultCwdOperation) :
    Except IoError (PersistedGlobalWorkspaces × PendingDefaultCwdOperation) :=
  match s.pendingDefaultCwd? operation.operationId with
  | none => .error defaultCwdNotFound
  | some pending => do
      require (sameDefaultCwdRequest pending operation) operationConflict
      .ok ({ s with
        pendingDefaultCwdOperations := Keyed.editFirst (·.operationId == operation.operationId)
          (fun p => { p with ownerAttempted := true }) s.pendingDefaultCwdOperations },
        { pending with ownerAttempted := true })

def cancelDefaultCwd (operation : PendingDefaultCwdOperation) :
    Except IoError (PersistedGlobalWorkspaces × Bool) :=
  match s.pendingDefaultCwd? operation.operationId with
  | none => .ok (s, false)
  | some pending => do
      require (sameDefaultCwdRequest pending operation) operationConflict
      .ok (s.erasePendingDefaultCwd operation.operationId, true)

def cancelDefaultCwdIfNeverAttempted (operation : PendingDefaultCwdOperation) :
    Except IoError (PersistedGlobalWorkspaces × Bool) :=
  match s.pendingDefaultCwd? operation.operationId with
  | none => .ok (s, false)
  | some pending => do
      require (sameDefaultCwdRequest pending operation) operationConflict
      if pending.ownerAttempted then .ok (s, false)
      else .ok (s.erasePendingDefaultCwd operation.operationId, true)

/-- `complete_default_cwd` for a pending operation whose owner answered with `owner`. -/
def finishDefaultCwd (pending : PendingDefaultCwdOperation) (owner : WorkspaceSnapshot)
    (changed : Bool) : Except IoError (PersistedGlobalWorkspaces × WorkspaceDefaultCwdResult) :=
  let onOwner (p : WorkspacePlacementSnapshot) : Bool :=
    p.nodeId == pending.nodeId && p.workspaceId == pending.ownerWorkspaceId
  match s.workspace? pending.globalWorkspaceId with
  | none => .error (invalid "prepared global Workspace is missing")
  | some workspace =>
      match workspace.placements.find? onOwner with
      | none => .error (invalid "prepared Workspace placement is missing")
      | some placement => do
          require (placement.ownerRevision == pending.expectedOwnerRevision) operationConflict
          let revision ← if changed then next workspace.revision else .ok workspace.revision
          let updated := { workspace.editPlacement onOwner fun p =>
            { p with ownerRevision := owner.revision, defaultCwd := some pending.defaultCwd } with
            revision := revision }
          let result : WorkspaceDefaultCwdResult := {
            workspaceId := workspace.id
            nodeId := pending.nodeId
            ownerWorkspaceId := pending.ownerWorkspaceId
            defaultCwd := pending.defaultCwd
            globalRevision := revision
            ownerRevision := owner.revision
            result := if changed then "updated" else "unchanged" }
          let completed := s.completedDefaultCwdOperations ++
            [⟨{ pending with completionReservation := 0 }, result⟩]
          let edited := (s.setWorkspace pending.globalWorkspaceId updated).erasePendingDefaultCwd
            pending.operationId
          let compacted ← ({ edited with
            completedDefaultCwdOperations :=
              if maxCompletedOperations < completed.length then completed.tail else completed } :
                PersistedGlobalWorkspaces).compactPreparedState
          .ok (compacted, result)

def completeDefaultCwd (operation : PendingDefaultCwdOperation) (owner : WorkspaceSnapshot) :
    Except IoError (PersistedGlobalWorkspaces × WorkspaceDefaultCwdResult) :=
  match s.completedDefaultCwd? operation.operationId with
  | some completed => do
      require (sameDefaultCwdRequest completed.request operation) operationConflict
      .ok (s, completed.result)
  | none =>
      match s.pendingDefaultCwd? operation.operationId with
      | none => .error defaultCwdNotFound
      | some pending => do
          require (sameDefaultCwdRequest pending operation &&
            owner.id == pending.ownerWorkspaceId && owner.defaultCwd == some pending.defaultCwd)
            operationConflict
          if owner.revision = pending.expectedOwnerRevision then
            s.finishDefaultCwd pending owner false
          else if owner.revision = pending.expectedOwnerRevision + 1 then
            s.finishDefaultCwd pending owner true
          else .error operationConflict

/-! ## Preparing Shells and Launchers -/

/-- What a pending record from before request fingerprints takes over from a retry: the
fingerprint, and a completion reservation. -/
def adoptRetry (pending : PendingWorkspaceResource) (requestFingerprint : String)
    (semanticFingerprint : Option String) (requestBytes : Nat) (missing : String) :
    Except IoError (PersistedGlobalWorkspaces × PendingWorkspaceResource) := do
  let known := if pending.requestFingerprint.isNone then
    { pending with
      requestFingerprint := some requestFingerprint, semanticFingerprint := semanticFingerprint }
    else pending
  let noted := s.editPendingResource pending.operationId fun _ => known
  if known.completionReservation = 0 then
    match noted.workspace? pending.globalWorkspaceId with
    | none => .error (invalid missing)
    | some workspace => do
        let projected ← noted.projectedWorkspaceWithPending workspace
        let reservation ← completionReservationBytes projected requestBytes
        let reserved := { known with completionReservation := reservation }
        let compacted ←
          (noted.editPendingResource pending.operationId fun _ => reserved).compactPreparedState
        .ok (compacted, reserved)
  else .ok (noted, known)

/-- `prepare_resource_inner` for a pending operation id. -/
def retryResource (a : ResourceRequest) (pending : PendingWorkspaceResource) :
    Except IoError (PersistedGlobalWorkspaces × PreparedWorkspaceResource) := do
  require (pending.globalWorkspaceId == a.globalId &&
      pending.expectedGlobalRevision == a.expectedGlobalRevision && pending.nodeId == a.nodeId &&
      pending.requestedOwnerWorkspaceId == a.requestedOwnerWorkspaceId &&
      pending.ownerWorkspaceName == a.ownerWorkspaceName && pending.defaultCwd == a.defaultCwd &&
      pending.resourceId == a.resourceId && pending.kind == a.kind &&
      pending.requestFingerprint.all (· == a.requestFingerprint)) operationConflict
  let (adopted, known) ←
    s.adoptRetry pending a.requestFingerprint pending.semanticFingerprint a.requestBytes
      "prepared Workspace is missing"
  let marked := if a.ownerAttempted then { known with ownerAttempted := true } else known
  .ok (adopted.editPendingResource a.operationId fun _ => marked, .pending marked false)

/-- The pending operation on the same global Workspace and Node, whose owner metadata a new
operation takes over. -/
def preparedOwner (a : ResourceRequest) : Option PendingWorkspaceResource :=
  s.pendingResources.find? fun p => p.globalWorkspaceId == a.globalId && p.nodeId == a.nodeId

/-- The record that `prepare_resource_inner` stores. -/
def newResource (a : ResourceRequest) (workspace : GlobalWorkspaceSnapshot) :
    PendingWorkspaceResource where
  operationId := a.operationId
  createsWorkspace := false
  requestFingerprint := some a.requestFingerprint
  semanticFingerprint := none
  completionReservation := 0
  ownerAttempted := a.ownerAttempted
  globalWorkspaceId := a.globalId
  expectedGlobalRevision := a.expectedGlobalRevision
  nodeId := a.nodeId
  requestedOwnerWorkspaceId := a.requestedOwnerWorkspaceId
  ownerWorkspaceId := (((workspace.placementOn a.nodeId).map (·.workspaceId)).or
    ((s.preparedOwner a).map (·.ownerWorkspaceId))).getD a.requestedOwnerWorkspaceId
  ownerWorkspaceName := ((s.preparedOwner a).map (·.ownerWorkspaceName)).getD a.ownerWorkspaceName
  defaultCwd := ((s.preparedOwner a).map (·.defaultCwd)).getD a.defaultCwd
  resourceId := a.resourceId
  kind := a.kind

/-- Reserving a new operation's completion and pushing it. -/
def pushPending (workspace : GlobalWorkspaceSnapshot) (pending : PendingWorkspaceResource)
    (requestBytes : Nat) :
    Except IoError (PersistedGlobalWorkspaces × PendingWorkspaceResource) := do
  let (grown, reserved) ← s.reserveNewPendingCompletion workspace pending requestBytes
  .ok ({ grown with pendingResources := grown.pendingResources ++ [reserved] }, reserved)

/-- `prepare_resource_inner` for an operation id that no Resource ledger has. -/
def prepareNewResource (a : ResourceRequest) :
    Except IoError (PersistedGlobalWorkspaces × PreparedWorkspaceResource) := do
  require (!s.pendingResources.any fun p => p.nodeId == a.nodeId && p.resourceId == a.resourceId)
    ⟨.alreadyExists, "resource UUID is already reserved by another prepared operation"⟩
  require (decide (s.pendingResources.length < maxPendingResources))
    (invalid "coordinator pending resource limit reached")
  let workspace ← s.get a.globalId
  requireRevision workspace.revision a.expectedGlobalRevision "global Workspace"
  require (!workspace.closing) closeInProgress
  match workspace.placementOn a.nodeId with
  | some placement => s.ensureOwnerUnlinkedExcept a.globalId a.nodeId placement.workspaceId
  | none => .ok ()
  let pending := s.newResource a workspace
  s.ensureOwnerUnlinkedExcept a.globalId a.nodeId pending.ownerWorkspaceId
  let (pushed, reserved) ← s.pushPending workspace pending a.requestBytes
  let compacted ← pushed.compactPreparedState
  .ok (compacted, .pending reserved true)

/-- `prepare_resource` and `prepare_resource_for_attempt`. -/
def prepareResource (a : ResourceRequest) :
    Except IoError (PersistedGlobalWorkspaces × PreparedWorkspaceResource) := do
  validateName a.ownerWorkspaceName
  match s.completedOperation? a.operationId with
  | some completed =>
      if completed.requestFingerprint = a.requestFingerprint then .ok (s, .completed completed)
      else .error operationConflict
  | none =>
      match s.pendingResource? a.operationId with
      | some pending => s.retryResource a pending
      | none => s.prepareNewResource a

/-! ## Preparing a Workspace with a Shell -/

/-- `prepare_workspace_shell` for a pending operation id. -/
def retryWorkspaceShell (a : WorkspaceShellRequest) (pending : PendingWorkspaceResource) :
    Except IoError (PersistedGlobalWorkspaces × PreparedWorkspaceShell) := do
  require (pending.createsWorkspace && pending.globalWorkspaceId == a.globalWorkspaceId &&
      pending.nodeId == a.nodeId && pending.requestedOwnerWorkspaceId ==
        a.requestedOwnerWorkspaceId &&
      pending.ownerWorkspaceName == a.name && pending.defaultCwd == some a.defaultCwd &&
      pending.resourceId == a.shellId && pending.kind == .shell &&
      pending.requestFingerprint.all (· == a.requestFingerprint)) operationConflict
  let (adopted, known) ←
    s.adoptRetry pending a.requestFingerprint (some a.semanticFingerprint) a.requestBytes
      "prepared project Workspace is missing"
  match adopted.workspace? known.globalWorkspaceId with
  | none => .error (invalid "prepared project Workspace is missing")
  | some workspace => .ok (adopted, .pending workspace known)

/-- Whether a completed operation on the Workspace is the request under another id. -/
def completedTwin (a : WorkspaceShellRequest) (workspaceId : String) :
    Option CompletedWorkspaceOperation :=
  s.completedOperations.reverse.find? fun c => c.createsWorkspace && c.workspace.id ==
    workspaceId &&
    c.semanticFingerprint == some a.semanticFingerprint

/-- Whether a pending operation on the Workspace is the request under another id. -/
def pendingTwin (a : WorkspaceShellRequest) (workspaceId : String) :
    Option PendingWorkspaceResource :=
  s.pendingResources.find? fun p => p.createsWorkspace && p.globalWorkspaceId == workspaceId &&
    (p.semanticFingerprint == some a.semanticFingerprint ||
      (p.semanticFingerprint.isNone && p.nodeId == a.nodeId && p.ownerWorkspaceName == a.name &&
        p.defaultCwd == some a.defaultCwd)) && p.kind == .shell

/-- The record of a request whose twin is pending: its identity with the twin's metadata. -/
def twinResource (a : WorkspaceShellRequest) (existing : PendingWorkspaceResource) :
    PendingWorkspaceResource where
  operationId := a.operationId
  createsWorkspace := true
  requestFingerprint := some a.requestFingerprint
  semanticFingerprint := some a.semanticFingerprint
  completionReservation := 0
  ownerAttempted := false
  globalWorkspaceId := existing.globalWorkspaceId
  expectedGlobalRevision := existing.expectedGlobalRevision
  nodeId := existing.nodeId
  requestedOwnerWorkspaceId := a.requestedOwnerWorkspaceId
  ownerWorkspaceId := existing.ownerWorkspaceId
  ownerWorkspaceName := existing.ownerWorkspaceName
  defaultCwd := existing.defaultCwd
  resourceId := existing.resourceId
  kind := .shell

/-- A twin from before semantic fingerprints takes the request's over. -/
def noteSemantic (a : WorkspaceShellRequest) (existing : PendingWorkspaceResource) :
    PersistedGlobalWorkspaces :=
  if existing.semanticFingerprint.isNone then
    s.editPendingResource existing.operationId fun p =>
      { p with semanticFingerprint := some a.semanticFingerprint }
  else s

/-- `prepare_workspace_shell` for a new operation id whose name a Workspace already has. -/
def prepareOnNamed (a : WorkspaceShellRequest) (workspace : GlobalWorkspaceSnapshot) :
    Except IoError (PersistedGlobalWorkspaces × PreparedWorkspaceShell) :=
  match s.completedTwin a workspace.id with
  | some completed => do
      let replay := { completed with
        operationId := a.operationId, requestFingerprint := a.requestFingerprint }
      let pushed ← s.pushCompleted replay
      .ok (pushed, .completed replay)
  | none =>
      match s.pendingTwin a workspace.id with
      | some existing => do
          require (decide (s.pendingResources.length < maxPendingResources))
            (invalid "coordinator pending resource limit reached")
          let (pushed, reserved) ← (s.noteSemantic a existing).pushPending workspace
            (twinResource a existing) a.requestBytes
          let compacted ← pushed.compactPreparedState
          .ok (compacted, .pending workspace reserved)
      | none => .error ⟨.alreadyExists, "global Workspace name already exists"⟩

/-- The Workspace that a request for a new name prepares. -/
def newWorkspace (a : WorkspaceShellRequest) : GlobalWorkspaceSnapshot :=
  ⟨a.globalWorkspaceId, 1, a.name, false, []⟩

/-- The record of a request for a new Workspace. -/
def newWorkspaceShell (a : WorkspaceShellRequest) : PendingWorkspaceResource where
  operationId := a.operationId
  createsWorkspace := true
  requestFingerprint := some a.requestFingerprint
  semanticFingerprint := some a.semanticFingerprint
  completionReservation := 0
  ownerAttempted := false
  globalWorkspaceId := a.globalWorkspaceId
  expectedGlobalRevision := (newWorkspace a).revision
  nodeId := a.nodeId
  requestedOwnerWorkspaceId := a.requestedOwnerWorkspaceId
  ownerWorkspaceId := a.requestedOwnerWorkspaceId
  ownerWorkspaceName := a.name
  defaultCwd := some a.defaultCwd
  resourceId := a.shellId
  kind := .shell

/-- `prepare_workspace_shell` for a new operation id and a new name. -/
def prepareNewWorkspaceShell (a : WorkspaceShellRequest) :
    Except IoError (PersistedGlobalWorkspaces × PreparedWorkspaceShell) := do
  require (decide (s.workspaces.length < maxWorkspaces) &&
      decide (s.pendingResources.length < maxPendingResources))
    (invalid "coordinator Workspace preparation limit reached")
  require (!(s.workspaces.any (·.id == a.globalWorkspaceId) ||
      s.pendingResources.any (·.operationId == a.operationId)))
    ⟨.alreadyExists, "prepared project identity already exists"⟩
  let (pushed, reserved) ← s.pushPending (newWorkspace a) (newWorkspaceShell a) a.requestBytes
  let compacted ← ({ pushed with workspaces := pushed.workspaces ++ [newWorkspace a] } :
    PersistedGlobalWorkspaces).compactPreparedState
  .ok (compacted, .pending (newWorkspace a) reserved)

def prepareWorkspaceShell (a : WorkspaceShellRequest) :
    Except IoError (PersistedGlobalWorkspaces × PreparedWorkspaceShell) := do
  validateName a.name
  match s.completedOperation? a.operationId with
  | some completed =>
      if completed.requestFingerprint = a.requestFingerprint then .ok (s, .completed completed)
      else .error operationConflict
  | none =>
      match s.pendingResource? a.operationId with
      | some pending => s.retryWorkspaceShell a pending
      | none =>
          match s.workspaces.find? (·.name == a.name) with
          | some workspace => s.prepareOnNamed a workspace
          | none => s.prepareNewWorkspaceShell a

/-! ## Cancelling and completing -/

def resourceNotFound : IoError := ⟨.notFound, "pending Workspace resource not found"⟩

/-- `remove_pending_at`: a prepared Workspace goes with its last pending operation. -/
def removePending (pending : PendingWorkspaceResource) : PersistedGlobalWorkspaces :=
  let erased := s.erasePendingResource pending.operationId
  let prepared (w : GlobalWorkspaceSnapshot) : Bool :=
    w.id == pending.globalWorkspaceId && w.placements.isEmpty
  if pending.createsWorkspace && erased.workspaces.any prepared &&
      !erased.pendingResources.any (·.globalWorkspaceId == pending.globalWorkspaceId) then
    { erased with workspaces := erased.workspaces.eraseP prepared }
  else erased

def cancelResource (pending : PendingWorkspaceResource) :
    Except IoError (PersistedGlobalWorkspaces × Unit) :=
  match s.pendingResource? pending.operationId with
  | none =>
      if s.completedOperations.any fun c => c.operationId == pending.operationId &&
          some c.requestFingerprint == pending.requestFingerprint then .ok (s, ())
      else .error resourceNotFound
  | some candidate => do
      require (candidate.requestFingerprint == pending.requestFingerprint) operationConflict
      if candidate.createsWorkspace && candidate.ownerAttempted then .ok (s, ())
      else .ok (s.removePending candidate, ())

def cancelPendingOperationIfNeverAttempted (operationId requestFingerprint : String) :
    Except IoError (PersistedGlobalWorkspaces × Bool) :=
  match s.pendingResource? operationId with
  | none => .ok (s, false)
  | some pending => do
      require (pending.requestFingerprint.all (· == requestFingerprint)) operationConflict
      if pending.ownerAttempted then .ok (s, false)
      else .ok (s.removePending pending, true)

/-- The Workspace of a completed operation with the placement that its owner reported. -/
def placeOwner (workspace : GlobalWorkspaceSnapshot) (pending : PendingWorkspaceResource)
    (owner : WorkspaceSnapshot) : Except IoError GlobalWorkspaceSnapshot :=
  match workspace.placementOn pending.nodeId with
  | some existing => do
      require (existing.workspaceId == owner.id)
        ⟨.alreadyExists, "Workspace already has a different placement on this Node"⟩
      .ok (workspace.editPlacement (·.nodeId == pending.nodeId) fun p =>
        { placement pending.nodeId owner .active with
          nodeId := p.nodeId, workspaceId := p.workspaceId })
  | none => workspace.place (placement pending.nodeId owner .active)

/-- `complete_resource` for a pending operation. -/
def finishResource (pending : PendingWorkspaceResource) (owner : WorkspaceSnapshot)
    (resource : RoutedOperationResult) :
    Except IoError (PersistedGlobalWorkspaces × CompletedWorkspaceOperation) := do
  require (owner.id == pending.ownerWorkspaceId && owner.name == pending.ownerWorkspaceName &&
      owner.defaultCwd == pending.defaultCwd)
    (invalid "owner Workspace metadata does not match the prepared operation")
  s.ensureOwnerUnlinkedExcept pending.globalWorkspaceId pending.nodeId owner.id
  let workspace ← s.get pending.globalWorkspaceId
  let placed ← placeOwner workspace pending owner
  match pending.requestFingerprint with
  | none => .error (invalid "legacy prepared operation has no request fingerprint")
  | some requestFingerprint => do
      let completed : CompletedWorkspaceOperation := {
        operationId := pending.operationId
        requestFingerprint := requestFingerprint
        semanticFingerprint := pending.semanticFingerprint
        createsWorkspace := pending.createsWorkspace
        workspace := placed
        resource := resource }
      require (pending.completionReservation == 0 ||
          decide (completed.toJson.compactLen ≤ pending.completionReservation))
        (invalid "completed Workspace operation exceeded its prepared capacity reservation")
      let pushed ← ((s.setWorkspace pending.globalWorkspaceId placed).erasePendingResource
        pending.operationId).pushCompleted completed
      .ok (pushed, completed)

def completeResource (pending : PendingWorkspaceResource) (owner : WorkspaceSnapshot)
    (resource : RoutedOperationResult) :
    Except IoError (PersistedGlobalWorkspaces × CompletedWorkspaceOperation) :=
  match s.pendingResource? pending.operationId with
  | none =>
      match s.completedOperations.find? fun c => c.operationId == pending.operationId &&
          some c.requestFingerprint == pending.requestFingerprint with
      | some completed => .ok (s, completed)
      | none => .error resourceNotFound
  | some candidate => do
      require (candidate.requestFingerprint == pending.requestFingerprint) operationConflict
      s.finishResource candidate owner resource

def markOwnerAttempted (pending : PendingWorkspaceResource) :
    Except IoError (PersistedGlobalWorkspaces × PendingWorkspaceResource) :=
  match s.pendingResource? pending.operationId with
  | none => .error resourceNotFound
  | some candidate => do
      require (candidate.requestFingerprint == pending.requestFingerprint) operationConflict
      .ok (s.editPendingResource pending.operationId fun p => { p with ownerAttempted := true },
        { candidate with ownerAttempted := true })

/-- `reconcile_resource`. -/
def reconcileResource (pending : PendingWorkspaceResource)
    (observed : Option (WorkspaceSnapshot × RoutedOperationResult)) :
    Except IoError (PersistedGlobalWorkspaces × Option CompletedWorkspaceOperation) :=
  match observed with
  | some (owner, resource) => do
      let (completed, operation) ← s.completeResource pending owner resource
      .ok (completed, some operation)
  | none => .ok (s, none)

end Boomux.Coordinator.PersistedGlobalWorkspaces
