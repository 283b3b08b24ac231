import Boomux.Coordinator.Store
import Mathlib.Data.List.Sort

/-!
# The operations of the coordinator store

Every operation as the closure that `GlobalWorkspaceStore::mutate` runs on a copy of the
state: it returns the edited copy with the operation's result, or an error, after which the
copy is dropped. The checks that an operation makes before `mutate` come first. The UUID that
`create` and `adopt` draw is an argument.
-/

set_option autoImplicit false

namespace Boomux.Coordinator

open Rust

/-! ## Requests and results -/

/-- The arguments of `prepare_default_cwd`. -/
structure DefaultCwdRequest where
  operationId : String
  globalWorkspaceId : String
  expectedGlobalRevision : Nat
  nodeId : String
  ownerWorkspaceId : String
  expectedOwnerRevision : Nat
  requestedDefaultCwd : String
  defaultCwd : String
  deriving DecidableEq, Repr

/-- The arguments of `prepare_resource_inner`; `ownerAttempted` tells `prepare_resource` and
`prepare_resource_for_attempt` apart. -/
structure ResourceRequest where
  globalId : String
  operationId : String
  requestFingerprint : String
  requestBytes : Nat
  expectedGlobalRevision : Nat
  nodeId : String
  requestedOwnerWorkspaceId : String
  ownerWorkspaceName : String
  defaultCwd : Option String
  resourceId : String
  kind : PendingResourceKind
  ownerAttempted : Bool
  deriving DecidableEq, Repr

/-- The arguments of `prepare_workspace_shell`. -/
structure WorkspaceShellRequest where
  operationId : String
  requestFingerprint : String
  requestBytes : Nat
  semanticFingerprint : String
  globalWorkspaceId : String
  name : String
  nodeId : String
  requestedOwnerWorkspaceId : String
  defaultCwd : String
  shellId : String
  deriving DecidableEq, Repr

inductive PreparedDefaultCwdOperation
  | pending (operation : PendingDefaultCwdOperation)
  | completed (result : WorkspaceDefaultCwdResult)

inductive PreparedWorkspaceResource
  | pending (pending : PendingWorkspaceResource) (newlyPrepared : Bool)
  | completed (operation : CompletedWorkspaceOperation)

inductive PreparedWorkspaceShell
  | pending (workspace : GlobalWorkspaceSnapshot) (pending : PendingWorkspaceResource)
  | completed (operation : CompletedWorkspaceOperation)

/-- The record that `prepare_default_cwd` stores. -/
def DefaultCwdRequest.operation (a : DefaultCwdRequest) : PendingDefaultCwdOperation where
  operationId := a.operationId
  globalWorkspaceId := a.globalWorkspaceId
  expectedGlobalRevision := a.expectedGlobalRevision
  nodeId := a.nodeId
  ownerWorkspaceId := a.ownerWorkspaceId
  expectedOwnerRevision := a.expectedOwnerRevision
  requestedDefaultCwd := a.requestedDefaultCwd
  defaultCwd := a.defaultCwd
  ownerAttempted := false
  completionReservation := defaultCwdReservation

/-- `placement`. -/
def placement (nodeId : String) (workspace : WorkspaceSnapshot) (state : WorkspacePlacementState) :
    WorkspacePlacementSnapshot where
  nodeId := nodeId
  workspaceId := workspace.id
  ownerWorkspaceName := some workspace.name
  ownerRevision := workspace.revision
  defaultCwd := workspace.defaultCwd
  state := state

/-- `placements.sort_by(|left, right| left.node_id.cmp(&right.node_id))`. -/
def sortPlacements (placements : List WorkspacePlacementSnapshot) :
    List WorkspacePlacementSnapshot :=
  placements.insertionSort fun left right => left.nodeId ≤ right.nodeId

def GlobalWorkspaceSnapshot.placementOn (w : GlobalWorkspaceSnapshot) (nodeId : String) :
    Option WorkspacePlacementSnapshot :=
  w.placements.find? (·.nodeId == nodeId)

/-- Editing the first placement on the Node. -/
def GlobalWorkspaceSnapshot.editPlacement (w : GlobalWorkspaceSnapshot)
    (test : WorkspacePlacementSnapshot → Bool)
    (f : WorkspacePlacementSnapshot → WorkspacePlacementSnapshot) : GlobalWorkspaceSnapshot :=
  { w with placements := Keyed.editFirst test f w.placements }

/-- The Workspace with a new placement and the next revision. -/
def GlobalWorkspaceSnapshot.place (w : GlobalWorkspaceSnapshot) (p : WorkspacePlacementSnapshot) :
    Except IoError GlobalWorkspaceSnapshot := do
  let revision ← next w.revision
  .ok { w with revision := revision, placements := sortPlacements (w.placements ++ [p]) }

namespace PersistedGlobalWorkspaces

variable (s : PersistedGlobalWorkspaces)

/-! ## Reading and editing records -/

def workspace? (id : String) : Option GlobalWorkspaceSnapshot := s.workspaces.find? (·.id == id)

def pendingResource? (operationId : String) : Option PendingWorkspaceResource :=
  s.pendingResources.find? (·.operationId == operationId)

def completedOperation? (operationId : String) : Option CompletedWorkspaceOperation :=
  s.completedOperations.find? (·.operationId == operationId)

def pendingDefaultCwd? (operationId : String) : Option PendingDefaultCwdOperation :=
  s.pendingDefaultCwdOperations.find? (·.operationId == operationId)

def completedDefaultCwd? (operationId : String) : Option CompletedDefaultCwdOperation :=
  s.completedDefaultCwdOperations.find? (·.request.operationId == operationId)

/-- `get`. -/
def get (id : String) : Except IoError GlobalWorkspaceSnapshot :=
  match s.workspace? id with
  | some w => .ok w
  | none => .error workspaceNotFound

def setWorkspace (id : String) (w : GlobalWorkspaceSnapshot) : PersistedGlobalWorkspaces :=
  { s with workspaces := Keyed.editFirst (·.id == id) (fun _ => w) s.workspaces }

def removeWorkspace (id : String) : PersistedGlobalWorkspaces :=
  { s with workspaces := s.workspaces.eraseP (·.id == id) }

def editPendingResource (operationId : String)
    (f : PendingWorkspaceResource → PendingWorkspaceResource) : PersistedGlobalWorkspaces :=
  { s with pendingResources := Keyed.editFirst (·.operationId == operationId) f s.pendingResources }

def erasePendingResource (operationId : String) : PersistedGlobalWorkspaces :=
  { s with pendingResources := s.pendingResources.eraseP (·.operationId == operationId) }

def erasePendingDefaultCwd (operationId : String) : PersistedGlobalWorkspaces :=
  { s with
    pendingDefaultCwdOperations :=
      s.pendingDefaultCwdOperations.eraseP (·.operationId == operationId) }

/-! ## Guards -/

def ensureOwnerUnlinked (nodeId ownerId : String) : Except IoError Unit :=
  require (!(s.workspaces.flatMap (·.placements)).any fun p =>
      p.nodeId == nodeId && p.workspaceId == ownerId)
    ⟨.alreadyExists, "Node-local Workspace is already linked"⟩

def ensureOwnerUnlinkedExcept (globalId nodeId ownerId : String) : Except IoError Unit :=
  require (!((s.workspaces.filter (·.id != globalId)).flatMap (·.placements)).any fun p =>
      p.nodeId == nodeId && p.workspaceId == ownerId)
    ⟨.alreadyExists, "Node-local Workspace is already linked"⟩

def ensureNoPendingResource (globalId : String) : Except IoError Unit :=
  require (!(s.pendingResources.any (·.globalWorkspaceId == globalId) ||
      s.pendingDefaultCwdOperations.any (·.globalWorkspaceId == globalId)))
    ⟨.wouldBlock, "global Workspace resource recovery is pending"⟩

/-! ## Compaction -/

/-- The loop of `compact_prepared_state` when no completed Resource operation is left. -/
def dropDefaultCwdOperations :
    List CompletedDefaultCwdOperation → Except IoError PersistedGlobalWorkspaces
  | [] =>
      if ({ s with completedDefaultCwdOperations := [] } : PersistedGlobalWorkspaces).fits then
        .ok { s with completedDefaultCwdOperations := [] }
      else .error (invalid
        "coordinator store has insufficient capacity to reserve the completed Workspace operation")
  | c :: rest =>
      if ({ s with completedDefaultCwdOperations := c :: rest } :
        PersistedGlobalWorkspaces).fits then
        .ok { s with completedDefaultCwdOperations := c :: rest }
      else dropDefaultCwdOperations rest

/-- The loop of `compact_prepared_state`. -/
def dropOperations :
    List CompletedWorkspaceOperation → Except IoError PersistedGlobalWorkspaces
  | [] =>
      ({ s with completedOperations := [] } : PersistedGlobalWorkspaces).dropDefaultCwdOperations
        s.completedDefaultCwdOperations
  | c :: rest =>
      if ({ s with completedOperations := c :: rest } : PersistedGlobalWorkspaces).fits then
        .ok { s with completedOperations := c :: rest }
      else dropOperations rest

def compactPreparedState : Except IoError PersistedGlobalWorkspaces :=
  s.dropOperations s.completedOperations

/-- The loop of `push_completed`, which keeps the operation just pushed. -/
def dropOldest : List CompletedWorkspaceOperation → Except IoError PersistedGlobalWorkspaces
  | [] => .ok { s with completedOperations := [] }
  | c :: rest =>
      if maxCompletedOperations < (c :: rest).length ||
          !({ s with completedOperations := c :: rest } : PersistedGlobalWorkspaces).fits then
        if rest.isEmpty then
          .error (invalid "completed Workspace operation exceeds the coordinator store limit")
        else dropOldest rest
      else .ok { s with completedOperations := c :: rest }

def pushCompleted (completed : CompletedWorkspaceOperation) :
    Except IoError PersistedGlobalWorkspaces :=
  match s.completedOperation? completed.operationId with
  | some existing => if existing == completed then .ok s else .error operationConflict
  | none => s.dropOldest (s.completedOperations ++ [completed])

/-! ## Completion reservations -/

def completionReservationBytes (workspace : GlobalWorkspaceSnapshot) (requestBytes : Nat) :
    Except IoError Nat :=
  let workspaceBytes := workspace.toJson.compactLen
  match (checkedMul requestBytes 2).bind fun bytes =>
      (checkedAdd bytes (saturatingMul workspaceBytes 2)).bind fun bytes =>
        checkedAdd bytes completionReservationOverhead with
  | none => .error (invalid "completed Workspace operation capacity overflow")
  | some reservation => do
      require (decide (reservation ≤ maxCompletionReservationBytes))
        (invalid "Workspace resource request is too large for durable completion replay")
      .ok reservation

def projectedPlacement (pending : PendingWorkspaceResource) : WorkspacePlacementSnapshot where
  nodeId := pending.nodeId
  workspaceId := pending.ownerWorkspaceId
  ownerWorkspaceName := some pending.ownerWorkspaceName
  ownerRevision := u64Max
  defaultCwd := pending.defaultCwd
  state := .active

def projectedCompletedWorkspace (workspace : GlobalWorkspaceSnapshot)
    (pending : PendingWorkspaceResource) : Except IoError GlobalWorkspaceSnapshot :=
  match workspace.placementOn pending.nodeId with
  | some _ => .ok (workspace.editPlacement (·.nodeId == pending.nodeId) fun p =>
      { projectedPlacement pending with nodeId := p.nodeId })
  | none => workspace.place (projectedPlacement pending)

/-- `projected_workspace_with_pending` without an additional operation. -/
def projectedWorkspaceWithPending (workspace : GlobalWorkspaceSnapshot) :
    Except IoError GlobalWorkspaceSnapshot :=
  (s.pendingResources.filter (·.globalWorkspaceId == workspace.id)).foldlM
    projectedCompletedWorkspace workspace

/-- One turn of the loop of `reserve_new_pending_completion`. -/
def growReservation (globalId : String) (growth : Nat) (existing : PendingWorkspaceResource) :
    Except IoError PendingWorkspaceResource :=
  if existing.globalWorkspaceId != globalId then .ok existing
  else if existing.completionReservation = 0 then
    .error (invalid ("legacy pending Workspace operation must reserve completion capacity " ++
      "before another placement is prepared"))
  else match checkedAdd existing.completionReservation growth with
    | none => .error (invalid "completed Workspace operation capacity overflow")
    | some expanded => do
        require (decide (expanded ≤ maxCompletionReservationBytes))
          (invalid "Workspace placement growth exceeds durable completion replay capacity")
        .ok { existing with completionReservation := expanded }

/-- `reserve_new_pending_completion`: the state with the grown reservations, and the new
operation with its own. -/
def reserveNewPendingCompletion (workspace : GlobalWorkspaceSnapshot)
    (pending : PendingWorkspaceResource) (requestBytes : Nat) :
    Except IoError (PersistedGlobalWorkspaces × PendingWorkspaceResource) := do
  let before ← s.projectedWorkspaceWithPending workspace
  let after ← projectedCompletedWorkspace before pending
  let growth := saturatingMul (after.toJson.compactLen - before.toJson.compactLen) 2
  let grown ← if 0 < growth then s.pendingResources.mapM (growReservation workspace.id growth)
    else .ok s.pendingResources
  let reservation ← completionReservationBytes after requestBytes
  .ok ({ s with pendingResources := grown }, { pending with completionReservation := reservation })

/-! ## Workspaces -/

def create (name id : String) :
    Except IoError (PersistedGlobalWorkspaces × GlobalWorkspaceSnapshot) := do
  validateName name
  require (!s.workspaces.any (·.name == name))
    ⟨.alreadyExists, "global Workspace name already exists"⟩
  require (decide (s.workspaces.length < maxWorkspaces))
    (invalid "coordinator Workspace limit reached")
  let workspace := ⟨id, 1, name, false, []⟩
  .ok ({ s with workspaces := s.workspaces ++ [workspace] }, workspace)

def adopt (nodeId : String) (owner : WorkspaceSnapshot) (expectedRevision : Nat) (id : String) :
    Except IoError (PersistedGlobalWorkspaces × GlobalWorkspaceSnapshot) := do
  requireRevision owner.revision expectedRevision "owner Workspace"
  s.ensureOwnerUnlinked nodeId owner.id
  require (!s.workspaces.any (·.name == owner.name))
    ⟨.alreadyExists, "global Workspace name already exists; equal names are never merged"⟩
  let workspace := ⟨id, 1, owner.name, false, [placement nodeId owner .active]⟩
  .ok ({ s with workspaces := s.workspaces ++ [workspace] }, workspace)

def link (globalId : String) (expectedGlobalRevision : Nat) (nodeId : String)
    (owner : WorkspaceSnapshot) (expectedOwnerRevision : Nat) :
    Except IoError (PersistedGlobalWorkspaces × GlobalWorkspaceSnapshot) := do
  requireRevision owner.revision expectedOwnerRevision "owner Workspace"
  s.ensureOwnerUnlinked nodeId owner.id
  s.ensureNoPendingResource globalId
  let workspace ← s.get globalId
  requireRevision workspace.revision expectedGlobalRevision "global Workspace"
  require (!workspace.closing) closeInProgress
  require (workspace.placementOn nodeId).isNone
    ⟨.alreadyExists, "Workspace already has a placement on this Node"⟩
  let linked ← workspace.place (placement nodeId owner .active)
  .ok (s.setWorkspace globalId linked, linked)

def rename (id : String) (expectedRevision : Nat) (name : String) :
    Except IoError (PersistedGlobalWorkspaces × GlobalWorkspaceSnapshot) := do
  validateName name
  s.ensureNoPendingResource id
  require (!s.workspaces.any fun w => w.id != id && w.name == name)
    ⟨.alreadyExists, "global Workspace name already exists"⟩
  let workspace ← s.get id
  requireRevision workspace.revision expectedRevision "global Workspace"
  require (!workspace.closing) closeInProgress
  if workspace.name != name then
    let revision ← next workspace.revision
    let renamed := { workspace with name := name, revision := revision }
    .ok (s.setWorkspace id renamed, renamed)
  else .ok (s, workspace)

def beginClose (id : String) (expectedRevision : Nat) :
    Except IoError (PersistedGlobalWorkspaces × GlobalWorkspaceSnapshot) := do
  s.ensureNoPendingResource id
  let workspace ← s.get id
  requireRevision workspace.revision expectedRevision "global Workspace"
  if workspace.closing then .ok (s, workspace)
  else
    let revision ← next workspace.revision
    let closing := { workspace with
      revision := revision
      closing := true
      placements := workspace.placements.map fun p => { p with state := .closePending } }
    .ok (s.setWorkspace id closing, closing)

def confirmClosed (id nodeId ownerId : String) :
    Except IoError (PersistedGlobalWorkspaces × Option GlobalWorkspaceSnapshot) := do
  let workspace ← s.get id
  require workspace.closing ⟨.invalidInput, "global Workspace is not closing"⟩
  let placements := workspace.placements.filter fun p =>
    !(p.nodeId == nodeId && p.workspaceId == ownerId)
  if placements.isEmpty then .ok (s.removeWorkspace id, none)
  else
    let revision ← next workspace.revision
    let rest := { workspace with placements := placements, revision := revision }
    .ok (s.setWorkspace id rest, some rest)

def confirmEmptyClosed (id : String) : Except IoError (PersistedGlobalWorkspaces × Unit) := do
  let workspace ← s.get id
  require (workspace.closing && workspace.placements.isEmpty)
    ⟨.invalidInput, "global Workspace still has unresolved placements"⟩
  .ok (s.removeWorkspace id, ())

end PersistedGlobalWorkspaces

end Boomux.Coordinator
