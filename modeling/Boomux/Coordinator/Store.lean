import Boomux.Basic.Json
import Boomux.Basic.Keyed
import Boomux.Basic.Rust

/-!
# The coordinator store of global Workspaces

The persisted state of `global_workspace_store.rs`: the global Workspaces with their
placements, and four ledgers of operations that carry a client's operation id. An operation on
a Node's Workspace is recorded as pending before the owner is asked, and as completed with its
result afterwards. `validate` is the check that every stored state passes.

A completion reservation is a string of spaces in the source. Only its length is kept.
-/

set_option autoImplicit false

namespace Boomux.Coordinator

open Rust

def coordinatorWorkspaceVersion : Nat := 8
def maxStoreBytes : Nat := 1024 * 1024
def maxWorkspaces : Nat := 1024
def maxPlacements : Nat := 128
def maxPendingResources : Nat := 1024
def maxCompletedOperations : Nat := 256
def maxCompletionReservationBytes : Nat := 768 * 1024
def completionReservationOverhead : Nat := 64 * 1024
/-- The spaces that `prepare_default_cwd` reserves. -/
def defaultCwdReservation : Nat := 8 * 1024

/-! ## Data -/

inductive WorkspacePlacementState
  | active | closePending | unavailable
  deriving DecidableEq, Repr

structure WorkspacePlacementSnapshot where
  nodeId : String
  workspaceId : String
  ownerWorkspaceName : Option String
  ownerRevision : Nat
  defaultCwd : Option String
  state : WorkspacePlacementState
  deriving DecidableEq, Repr

structure GlobalWorkspaceSnapshot where
  id : String
  revision : Nat
  name : String
  closing : Bool
  placements : List WorkspacePlacementSnapshot
  deriving DecidableEq, Repr

/-- A Workspace as its owner Node reports it. -/
structure WorkspaceSnapshot where
  id : String
  revision : Nat
  name : String
  defaultCwd : Option String
  deriving DecidableEq, Repr

structure PendingDefaultCwdOperation where
  operationId : String
  globalWorkspaceId : String
  expectedGlobalRevision : Nat
  nodeId : String
  ownerWorkspaceId : String
  expectedOwnerRevision : Nat
  requestedDefaultCwd : String
  defaultCwd : String
  ownerAttempted : Bool
  completionReservation : Nat
  deriving DecidableEq, Repr

structure WorkspaceDefaultCwdResult where
  workspaceId : String
  nodeId : String
  ownerWorkspaceId : String
  defaultCwd : String
  globalRevision : Nat
  ownerRevision : Nat
  result : String
  deriving DecidableEq, Repr

structure CompletedDefaultCwdOperation where
  request : PendingDefaultCwdOperation
  result : WorkspaceDefaultCwdResult
  deriving DecidableEq, Repr

inductive PendingResourceKind
  | shell | launcher
  deriving DecidableEq, Repr

structure PendingWorkspaceResource where
  operationId : String
  createsWorkspace : Bool
  requestFingerprint : Option String
  semanticFingerprint : Option String
  completionReservation : Nat
  ownerAttempted : Bool
  globalWorkspaceId : String
  expectedGlobalRevision : Nat
  nodeId : String
  requestedOwnerWorkspaceId : String
  ownerWorkspaceId : String
  ownerWorkspaceName : String
  defaultCwd : Option String
  resourceId : String
  kind : PendingResourceKind
  deriving DecidableEq, Repr

/-- The result of an owner operation: a Shell or a Launcher with the Workspace it belongs to
and its encoding, or any other result. -/
inductive RoutedOperationResult
  | shell (workspaceId : String) (content : Json)
  | launcher (workspaceId : String) (content : Json)
  | other (content : Json)
  deriving BEq, Repr

structure CompletedWorkspaceOperation where
  operationId : String
  requestFingerprint : String
  semanticFingerprint : Option String
  createsWorkspace : Bool
  workspace : GlobalWorkspaceSnapshot
  resource : RoutedOperationResult
  deriving BEq, Repr

structure PersistedGlobalWorkspaces where
  version : Nat
  localMigrationComplete : Bool
  workspaces : List GlobalWorkspaceSnapshot
  pendingResources : List PendingWorkspaceResource
  completedOperations : List CompletedWorkspaceOperation
  pendingDefaultCwdOperations : List PendingDefaultCwdOperation
  completedDefaultCwdOperations : List CompletedDefaultCwdOperation
  deriving Repr

/-- What `load_at` starts from when there is no file. -/
def PersistedGlobalWorkspaces.empty : PersistedGlobalWorkspaces where
  version := coordinatorWorkspaceVersion
  localMigrationComplete := false
  workspaces := []
  pendingResources := []
  completedOperations := []
  pendingDefaultCwdOperations := []
  completedDefaultCwdOperations := []

/-! ## Encodings -/

def WorkspacePlacementState.toJson : WorkspacePlacementState → Json
  | active => .string "active"
  | closePending => .string "close_pending"
  | unavailable => .string "unavailable"

def WorkspacePlacementSnapshot.toJson (p : WorkspacePlacementSnapshot) : Json :=
  .object ([("node_id", .string p.nodeId), ("workspace_id", .string p.workspaceId)] ++
    Json.optionalField "owner_workspace_name" p.ownerWorkspaceName ++
    [("owner_revision", .number p.ownerRevision)] ++
    Json.optionalField "default_cwd" p.defaultCwd ++ [("state", p.state.toJson)])

def GlobalWorkspaceSnapshot.toJson (w : GlobalWorkspaceSnapshot) : Json :=
  .object [("id", .string w.id), ("revision", .number w.revision), ("name", .string w.name),
    ("closing", .bool w.closing), ("placements", .array (w.placements.map (·.toJson)))]

def PendingDefaultCwdOperation.toJson (d : PendingDefaultCwdOperation) : Json :=
  .object [("operation_id", .string d.operationId),
    ("global_workspace_id", .string d.globalWorkspaceId),
    ("expected_global_revision", .number d.expectedGlobalRevision),
    ("node_id", .string d.nodeId), ("owner_workspace_id", .string d.ownerWorkspaceId),
    ("expected_owner_revision", .number d.expectedOwnerRevision),
    ("requested_default_cwd", .string d.requestedDefaultCwd),
    ("default_cwd", .string d.defaultCwd), ("owner_attempted", .bool d.ownerAttempted),
    ("completion_reservation", .spaces d.completionReservation)]

def WorkspaceDefaultCwdResult.toJson (r : WorkspaceDefaultCwdResult) : Json :=
  .object [("workspace_id", .string r.workspaceId), ("node_id", .string r.nodeId),
    ("owner_workspace_id", .string r.ownerWorkspaceId), ("default_cwd", .string r.defaultCwd),
    ("global_revision", .number r.globalRevision), ("owner_revision", .number r.ownerRevision),
    ("result", .string r.result)]

def CompletedDefaultCwdOperation.toJson (c : CompletedDefaultCwdOperation) : Json :=
  .object [("request", c.request.toJson), ("result", c.result.toJson)]

def PendingResourceKind.toJson : PendingResourceKind → Json
  | shell => .string "shell"
  | launcher => .string "launcher"

def PendingWorkspaceResource.toJson (p : PendingWorkspaceResource) : Json :=
  .object [("operation_id", .string p.operationId), ("creates_workspace", .bool p.createsWorkspace),
    ("request_fingerprint", .ofOption p.requestFingerprint),
    ("semantic_fingerprint", .ofOption p.semanticFingerprint),
    ("completion_reservation", .spaces p.completionReservation),
    ("owner_attempted", .bool p.ownerAttempted),
    ("global_workspace_id", .string p.globalWorkspaceId),
    ("expected_global_revision", .number p.expectedGlobalRevision), ("node_id", .string p.nodeId),
    ("requested_owner_workspace_id", .string p.requestedOwnerWorkspaceId),
    ("owner_workspace_id", .string p.ownerWorkspaceId),
    ("owner_workspace_name", .string p.ownerWorkspaceName),
    ("default_cwd", .ofOption p.defaultCwd), ("resource_id", .string p.resourceId),
    ("kind", p.kind.toJson)]

def RoutedOperationResult.toJson : RoutedOperationResult → Json
  | shell _ content => .object [("result", .string "shell"), ("shell", content)]
  | launcher _ content => .object [("result", .string "launcher"), ("launcher", content)]
  | other content => content

def CompletedWorkspaceOperation.toJson (c : CompletedWorkspaceOperation) : Json :=
  .object [("operation_id", .string c.operationId),
    ("request_fingerprint", .string c.requestFingerprint),
    ("semantic_fingerprint", .ofOption c.semanticFingerprint),
    ("creates_workspace", .bool c.createsWorkspace), ("workspace", c.workspace.toJson),
    ("resource", c.resource.toJson)]

def PersistedGlobalWorkspaces.toJson (s : PersistedGlobalWorkspaces) : Json :=
  .object [("version", .number s.version),
    ("local_migration_complete", .bool s.localMigrationComplete),
    ("workspaces", .array (s.workspaces.map (·.toJson))),
    ("pending_resources", .array (s.pendingResources.map (·.toJson))),
    ("completed_operations", .array (s.completedOperations.map (·.toJson))),
    ("pending_default_cwd_operations", .array (s.pendingDefaultCwdOperations.map (·.toJson))),
    ("completed_default_cwd_operations", .array (s.completedDefaultCwdOperations.map (·.toJson)))]

/-- `serde_json::to_vec_pretty(state).len() <= MAX_STORE_BYTES`. -/
def PersistedGlobalWorkspaces.fits (s : PersistedGlobalWorkspaces) : Bool :=
  s.toJson.prettyLen 0 ≤ maxStoreBytes

/-! ## Errors -/

def invalid (message : String) : IoError := ⟨.invalidData, message⟩

def operationConflict : IoError :=
  ⟨.alreadyExists, "prepared operation identity exists with a different request fingerprint"⟩

def workspaceNotFound : IoError := ⟨.notFound, "global Workspace not found"⟩

def closeInProgress : IoError := ⟨.wouldBlock, "global Workspace close is in progress"⟩

/-! ## Checks -/

def requireRevision (actual expected : Nat) (label : String) : Except IoError Unit :=
  require (actual == expected && decide (0 < expected)) ⟨.invalidInput,
    label ++ " revision changed: expected " ++ toString expected ++ ", current " ++ toString actual⟩

def next (revision : Nat) : Except IoError Nat :=
  match checkedAdd revision 1 with
  | some n => .ok n
  | none => .error (.ofMessage "global Workspace revision exhausted")

def validateName (name : String) : Except IoError Unit :=
  require (!(name.isEmpty || decide (256 < name.utf8ByteSize) || name.toList.any isControl))
    (invalid "global Workspace name is invalid")

def validFingerprint (fingerprint : String) : Bool :=
  fingerprint.utf8ByteSize == 64 && fingerprint.toList.all isLowerHexDigit

def sameDefaultCwdRequest (left right : PendingDefaultCwdOperation) : Bool :=
  left.operationId == right.operationId && left.globalWorkspaceId == right.globalWorkspaceId &&
  left.expectedGlobalRevision == right.expectedGlobalRevision && left.nodeId == right.nodeId &&
  left.ownerWorkspaceId == right.ownerWorkspaceId &&
  left.expectedOwnerRevision == right.expectedOwnerRevision &&
  left.requestedDefaultCwd == right.requestedDefaultCwd && left.defaultCwd == right.defaultCwd

def completedDefaultCwdRevisionsAreValid (request : PendingDefaultCwdOperation)
    (result : WorkspaceDefaultCwdResult) : Bool :=
  if result.result == "unchanged" then
    result.globalRevision == request.expectedGlobalRevision &&
      result.ownerRevision == request.expectedOwnerRevision
  else if result.result == "updated" then
    checkedAdd request.expectedGlobalRevision 1 == some result.globalRevision &&
      checkedAdd request.expectedOwnerRevision 1 == some result.ownerRevision
  else false

/-! ## Validation -/

/-- The `HashSet`s that `validate` fills while it goes through the Workspaces. -/
structure Seen where
  ids : List String
  names : List String
  owners : List (String × String)

def WorkspacePlacementSnapshot.owner (p : WorkspacePlacementSnapshot) : String × String :=
  (p.nodeId, p.workspaceId)

def checkPlacement (closing : Bool) (owners : List (String × String))
    (p : WorkspacePlacementSnapshot) : Except IoError (List (String × String)) := do
  require (uuidParses p.nodeId && !p.workspaceId.isEmpty && !owners.contains p.owner)
    (invalid "global Workspace store contains an invalid or duplicate placement")
  require (closing == (p.state == .closePending))
    (invalid "global Workspace close progress is inconsistent")
  .ok (p.owner :: owners)

def checkWorkspace (seen : Seen) (w : GlobalWorkspaceSnapshot) : Except IoError Seen := do
  validateName w.name
  require (uuidParses w.id && w.revision != 0 && decide (w.placements.length ≤ maxPlacements) &&
      !seen.ids.contains w.id && !seen.names.contains w.name)
    (invalid "global Workspace store contains invalid or duplicate metadata")
  let owners ← w.placements.foldlM (checkPlacement w.closing) seen.owners
  .ok ⟨w.id :: seen.ids, w.name :: seen.names, owners⟩

def checkPendingResource (ids : List String) (pending : List String)
    (p : PendingWorkspaceResource) : Except IoError (List String) := do
  require (uuidParses p.globalWorkspaceId && uuidParses p.operationId && uuidParses p.nodeId &&
      uuidParses p.requestedOwnerWorkspaceId && uuidParses p.ownerWorkspaceId &&
      uuidParses p.resourceId && p.expectedGlobalRevision != 0 &&
      ids.contains p.globalWorkspaceId && !pending.contains p.operationId &&
      p.requestFingerprint.all validFingerprint && p.semanticFingerprint.all validFingerprint &&
      decide (p.completionReservation ≤ maxCompletionReservationBytes) &&
      (p.completionReservation == 0 || p.requestFingerprint.isSome))
    (invalid "global Workspace pending resource is invalid")
  validateName p.ownerWorkspaceName
  .ok (p.operationId :: pending)

def RoutedOperationResult.workspaceId? : RoutedOperationResult → Option String
  | shell workspaceId _ => some workspaceId
  | launcher workspaceId _ => some workspaceId
  | other _ => none

def checkCompleted (pending completed : List String) (c : CompletedWorkspaceOperation) :
    Except IoError (List String) :=
  match c.resource.workspaceId? with
  | none => .error (invalid "completed Workspace operation has an invalid result")
  | some resourceWorkspaceId => do
      require (uuidParses c.operationId && validFingerprint c.requestFingerprint &&
          c.semanticFingerprint.all validFingerprint && uuidParses c.workspace.id &&
          c.workspace.revision != 0 && decide (c.workspace.placements.length ≤ maxPlacements) &&
          c.workspace.placements.any (·.workspaceId == resourceWorkspaceId) &&
          !completed.contains c.operationId && !pending.contains c.operationId)
        (invalid "completed Workspace operation is invalid")
      .ok (c.operationId :: completed)

def checkPendingDefaultCwd (ids pending completed operations : List String)
    (d : PendingDefaultCwdOperation) : Except IoError (List String) := do
  require (uuidParses d.operationId && uuidParses d.globalWorkspaceId && uuidParses d.nodeId &&
      uuidParses d.ownerWorkspaceId && d.expectedGlobalRevision != 0 &&
      d.expectedOwnerRevision != 0 && isAbsolute d.defaultCwd &&
      d.completionReservation == defaultCwdReservation && ids.contains d.globalWorkspaceId &&
      !pending.contains d.operationId && !completed.contains d.operationId &&
      !operations.contains d.operationId)
    (invalid "prepared default cwd operation is invalid")
  .ok (d.operationId :: operations)

def checkCompletedDefaultCwd (pending completed operations : List String)
    (c : CompletedDefaultCwdOperation) : Except IoError (List String) := do
  let request := c.request
  let result := c.result
  require (uuidParses request.operationId && uuidParses request.globalWorkspaceId &&
      uuidParses request.nodeId && uuidParses request.ownerWorkspaceId &&
      request.expectedGlobalRevision != 0 && request.expectedOwnerRevision != 0 &&
      isAbsolute request.defaultCwd && request.completionReservation == 0 &&
      (result.result == "updated" || result.result == "unchanged") &&
      result.workspaceId == request.globalWorkspaceId && result.nodeId == request.nodeId &&
      result.ownerWorkspaceId == request.ownerWorkspaceId &&
      result.defaultCwd == request.defaultCwd &&
      completedDefaultCwdRevisionsAreValid request result &&
      !pending.contains request.operationId && !completed.contains request.operationId &&
      !operations.contains request.operationId)
    (invalid "completed default cwd operation is invalid")
  .ok (request.operationId :: operations)

def validate (s : PersistedGlobalWorkspaces) : Except IoError Unit := do
  require (s.version == coordinatorWorkspaceVersion &&
      decide (s.workspaces.length ≤ maxWorkspaces) &&
      decide (s.pendingResources.length ≤ maxPendingResources) &&
      decide (s.completedOperations.length ≤ maxCompletedOperations) &&
      decide (s.pendingDefaultCwdOperations.length ≤ maxPendingResources) &&
      decide (s.completedDefaultCwdOperations.length ≤ maxCompletedOperations))
    (invalid "unsupported or oversized global Workspace store")
  let seen ← s.workspaces.foldlM checkWorkspace ⟨[], [], []⟩
  let pending ← s.pendingResources.foldlM (checkPendingResource seen.ids) []
  let completed ← s.completedOperations.foldlM (checkCompleted pending) []
  let operations ← s.pendingDefaultCwdOperations.foldlM
    (checkPendingDefaultCwd seen.ids pending completed) []
  let _ ← s.completedDefaultCwdOperations.foldlM
    (checkCompletedDefaultCwd pending completed) operations
  .ok ()

end Boomux.Coordinator
