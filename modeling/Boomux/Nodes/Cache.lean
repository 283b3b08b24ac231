import Boomux.Daemon.Agent
import Boomux.Daemon.Stream
import Boomux.Nodes.Manager
import Mathlib.Data.List.Sort

/-!
# The Node projection cache

The cache of what other Nodes have shown of themselves: one entry for a Node, in memory and in a
file. Each call is one critical section of the cache's lock; `saved` is what the file system
answers when the call writes the file, which it refuses also when the text is too long. Of the
projected Shells, launchers and agents only the fields are kept that the cache reads.
-/

set_option autoImplicit false

namespace Boomux.Nodes

open Rust
open Daemon (EventCursor AgentAttentionReason)

def maxNodes : Nat := 128
def maxWorkspacesPerNode : Nat := 1024
def maxShellsPerNode : Nat := 4096
def maxLaunchersPerNode : Nat := 4096
def maxAgentsPerNode : Nat := 4096
def maxCapabilities : Nat := 128
def maxCapabilityBytes : Nat := 128
def maxHelperVersionBytes : Nat := 128
def maxNameBytes : Nat := 256
def maxNotificationClaimsPerNode : Nat := 512
def maxDigestClaimsPerNode : Nat := 128
def maxNotificationReasonBytes : Nat := 64
def maxDismissedShellsPerNode : Nat := 4096

/-! ## Data -/

inductive NodeProjectionHealthCode
  | unobserved | online | reconnecting | stale | unreachable | authenticationRequired
  | identityChanged | identityConflict | unsupported
  deriving DecidableEq, Repr

structure NodeProjectionHealth where
  code : NodeProjectionHealthCode
  stale : Bool
  cacheGeneration : Nat
  streamId : Option String
  cursor : Option Nat
  lastAttemptAtMs : Option Nat
  lastSuccessAtMs : Option Nat
  retryAtMs : Option Nat
  capabilities : List String
  observedHelperVersion : Option String
  deriving DecidableEq, Repr

structure NodeProjectionWorkspace where
  id : String
  name : String
  itemCount : Nat
  attentionCount : Nat
  deriving DecidableEq, Repr

structure NodeProjectionShell where
  id : String
  workspaceId : String
  name : String
  deriving DecidableEq, Repr

structure NodeProjectionLauncher where
  id : String
  workspaceId : String
  name : String
  deriving DecidableEq, Repr

structure NodeProjectionAttention where
  reason : AgentAttentionReason
  observationRevision : Nat
  observedAtMs : Nat
  deriving DecidableEq, Repr

structure NodeProjectionAgent where
  id : String
  workspaceId : String
  shellId : String
  name : String
  attention : Option NodeProjectionAttention
  deriving DecidableEq, Repr

structure NodeProjectionSnapshot where
  nodeId : String
  workspaces : List NodeProjectionWorkspace
  shells : List NodeProjectionShell
  launchers : List NodeProjectionLauncher
  agents : List NodeProjectionAgent
  deriving DecidableEq, Repr

inductive RemoteNotificationCategory
  | agentBlocked | agentCompleted
  deriving DecidableEq, Repr

structure RemoteNotificationClaim where
  streamId : String
  entityId : String
  revision : Nat
  category : RemoteNotificationCategory
  reason : String
  deriving DecidableEq, Repr

structure RemoteDigestClaim where
  streamId : String
  priorCursor : Nat
  throughCursor : Nat
  enabledCategories : List RemoteNotificationCategory
  deriving DecidableEq, Repr

structure CachedNode where
  nodeId : String
  registrationRevision : Nat
  tombstoneEpoch : Nat
  generation : Nat
  health : NodeProjectionHealthCode
  lastAttemptAtMs : Option Nat
  lastSuccessAtMs : Option Nat
  retryAtMs : Option Nat
  capabilities : List String
  observedHelperVersion : Option String
  cursor : Option EventCursor
  projection : Option NodeProjectionSnapshot
  notificationClaims : List RemoteNotificationClaim
  digestClaims : List RemoteDigestClaim
  dismissedShellIds : List String
  deriving DecidableEq, Repr

structure ProjectionObservation where
  cursor : EventCursor
  projection : NodeProjectionSnapshot
  capabilities : List String
  helperVersion : String
  observedAtMs : Nat
  deriving DecidableEq, Repr

structure ProjectionCommit where
  generation : Nat
  previousHealth : Option NodeProjectionHealthCode
  previousCursor : Option EventCursor
  deriving DecidableEq, Repr

structure NodeProjectionView where
  health : NodeProjectionHealth
  projection : Option NodeProjectionSnapshot
  deriving DecidableEq, Repr

/-- `NodeProjectionCache`: the entries in memory, and those of the file, if there is one. -/
structure NodeProjectionCache where
  nodes : List CachedNode
  file : Option (List CachedNode)
  deriving DecidableEq, Repr

/-! ## Checks -/

/-- `invalid`. -/
def invalid (message : String) : IoError := ⟨.invalidData, message⟩

/-- `validate_name` of the cache: spaces alone are a name here. -/
def validateCacheName (value : String) : Except IoError Unit :=
  require (!value.isEmpty && decide (value.utf8ByteSize ≤ maxNameBytes) &&
    !value.toList.any isControl)
    (invalid "Node projection contains an invalid bounded string")

/-- The loop over the Workspaces in `validate_projection`. -/
def validateWorkspaces (ids : List String) :
    List NodeProjectionWorkspace → Except IoError Unit
  | [] => .ok ()
  | workspace :: workspaces => do
      validateCacheName workspace.id
      validateCacheName workspace.name
      require (workspace.id ∉ ids) (invalid "Node projection contains duplicate workspace IDs")
      validateWorkspaces (workspace.id :: ids) workspaces

/-- `validate_projection`. -/
def validateProjection (projection : NodeProjectionSnapshot) : Except IoError Unit := do
  require
    (uuidParses projection.nodeId && decide (projection.workspaces.length ≤ maxWorkspacesPerNode) &&
      decide (projection.shells.length ≤ maxShellsPerNode) &&
      decide (projection.launchers.length ≤ maxLaunchersPerNode) &&
      decide (projection.agents.length ≤ maxAgentsPerNode))
    (invalid "Node projection exceeds its structural bounds")
  validateWorkspaces [] projection.workspaces
  (projection.shells.map (·.name) ++ projection.launchers.map (·.name) ++
    projection.agents.map (·.name)).forM validateCacheName

/-- `validate_capabilities`. -/
def validateCapabilities (capabilities : List String) : Except IoError Unit :=
  require
    (decide (capabilities.length ≤ maxCapabilities) && capabilities.all fun capability =>
      !capability.isEmpty && decide (capability.utf8ByteSize ≤ maxCapabilityBytes) &&
        capability.toList.all fun c => c.isLower || c.isDigit || c = '_')
    (invalid "Node projection capabilities exceed their bounds")

/-- `validate_helper_version`. -/
def validateHelperVersion (version : String) : Except IoError Unit :=
  require
    (!version.isEmpty && decide (version.utf8ByteSize ≤ maxHelperVersionBytes) &&
      version.toList.all fun c => 0x21 ≤ c.toNat && c.toNat ≤ 0x7e)
    (invalid "Node helper version exceeds its bounds")

/-- `validate_notification_claim`. -/
def validateNotificationClaim (claim : RemoteNotificationClaim) : Except IoError Unit :=
  require
    (uuidParses claim.streamId && !claim.entityId.isEmpty &&
      decide (claim.entityId.utf8ByteSize ≤ maxNameBytes) && decide (claim.revision ≠ 0) &&
      !claim.reason.isEmpty && decide (claim.reason.utf8ByteSize ≤ maxNotificationReasonBytes) &&
      !claim.reason.toList.any isControl)
    (invalid "Node notification claim is invalid")

/-- The categories are what sorting them and dropping repetitions makes of them. -/
def sortedCategories (categories : List RemoteNotificationCategory) : Bool :=
  categories = [.agentBlocked] || categories = [.agentCompleted] ||
    categories = [.agentBlocked, .agentCompleted]

/-- `validate_digest_claim`. -/
def validateDigestClaim (claim : RemoteDigestClaim) : Except IoError Unit :=
  require
    (uuidParses claim.streamId && decide (claim.priorCursor ≤ claim.throughCursor) &&
      sortedCategories claim.enabledCategories)
    (invalid "Node notification digest claim is invalid")

/-! ## Reading -/

namespace CachedNode

/-- `health_snapshot`. -/
def healthSnapshot (node : CachedNode) : NodeProjectionHealth where
  code := node.health
  stale := node.health ≠ .online
  cacheGeneration := node.generation
  streamId := node.cursor.map (·.streamId)
  cursor := node.cursor.map (·.eventId)
  lastAttemptAtMs := node.lastAttemptAtMs
  lastSuccessAtMs := node.lastSuccessAtMs
  retryAtMs := node.retryAtMs
  capabilities := node.capabilities
  observedHelperVersion := node.observedHelperVersion

/-- `visible_projection`. -/
def visibleProjection (node : CachedNode) : Option NodeProjectionSnapshot :=
  node.projection.map fun projection =>
    if node.dismissedShellIds.isEmpty then projection
    else
      let shells := projection.shells.filter (·.id ∉ node.dismissedShellIds)
      let agents := projection.agents.filter (·.shellId ∉ node.dismissedShellIds)
      let workspaces := projection.workspaces.map fun workspace =>
        let items := (shells.filter (·.workspaceId = workspace.id)).length +
          (projection.launchers.filter (·.workspaceId = workspace.id)).length
        let attentions := (agents.filter fun agent =>
          agent.workspaceId = workspace.id && agent.attention.isSome).length
        { workspace with
          itemCount := min items (2 ^ 32 - 1), attentionCount := min attentions (2 ^ 32 - 1) }
      { projection with workspaces := workspaces, shells := shells, agents := agents }

/-- A Node that was online when the daemon stopped is stale. -/
def recovered (node : CachedNode) : CachedNode :=
  if node.health = .online then { node with health := .stale } else node

end CachedNode

/-- `unobserved_health`. -/
def unobservedHealth : NodeProjectionHealth :=
  ⟨.unobserved, true, 0, none, none, none, none, none, [], none⟩

namespace NodeProjectionCache

variable (c : NodeProjectionCache)

/-- The entry of a Node. -/
def find (nodeId : String) : Option CachedNode := Keyed.get CachedNode.nodeId c.nodes nodeId

/-- The entry of a Node, if it was recorded for this registration. -/
def visible (registration : NodeRegistrationSnapshot) : Option CachedNode :=
  (c.find registration.nodeId).filter (·.tombstoneEpoch = registration.tombstoneEpoch)

/-- `health`. -/
def health (registration : NodeRegistrationSnapshot) : NodeProjectionHealth :=
  ((c.visible registration).map (·.healthSnapshot)).getD unobservedHealth

/-- `view`. -/
def view (registration : NodeRegistrationSnapshot) : NodeProjectionView :=
  ((c.visible registration).map fun node =>
    ⟨node.healthSnapshot, node.visibleProjection⟩).getD ⟨unobservedHealth, none⟩

/-- `cursor_and_generation`. -/
def cursorAndGeneration (registration : NodeRegistrationSnapshot) : Option EventCursor × Nat :=
  ((c.visible registration).map fun node => (node.cursor, node.generation)).getD (none, 0)

/-- The generation that `commit_projection` and `mark_health` compare. -/
def actualGeneration (registration : NodeRegistrationSnapshot) : Nat :=
  ((c.visible registration).map (·.generation)).getD 0

/-! ## Writing -/

/-- `sort_nodes`. -/
def sortNodes (nodes : List CachedNode) : List CachedNode :=
  nodes.insertionSort fun left right => left.nodeId ≤ right.nodeId

/-- `save`, and then the memory. -/
def store (nodes : List CachedNode) (saved : Except IoError Unit) :
    Except IoError NodeProjectionCache := do
  saved
  .ok ⟨nodes, some nodes⟩

/-- The entry of a Node is replaced, or a new one is added. -/
def replace (node : CachedNode) (limit : String) (saved : Except IoError Unit) :
    Except IoError NodeProjectionCache := do
  require ((c.find node.nodeId).isSome || c.nodes.length < maxNodes) (invalid limit)
  store (sortNodes (Keyed.upsert CachedNode.nodeId c.nodes node)) saved

/-- The entry of `commit_projection`: the claims and the dismissed Shells of `previous` stay. -/
def committed (previous : Option CachedNode) (registration : NodeRegistrationSnapshot)
    (generation : Nat) (observation : ProjectionObservation) : CachedNode where
  nodeId := registration.nodeId
  registrationRevision := registration.revision
  tombstoneEpoch := registration.tombstoneEpoch
  generation := generation
  health := .online
  lastAttemptAtMs := some observation.observedAtMs
  lastSuccessAtMs := some observation.observedAtMs
  retryAtMs := none
  capabilities := observation.capabilities
  observedHelperVersion := some observation.helperVersion
  cursor := some observation.cursor
  projection := some observation.projection
  notificationClaims := (previous.map (·.notificationClaims)).getD []
  digestClaims := (previous.map (·.digestClaims)).getD []
  dismissedShellIds := ((previous.map (·.dismissedShellIds)).getD []).filter fun shellId =>
    (observation.projection.shells.map (·.id)).contains shellId

/-- `commit_projection`. -/
def commitProjection (registration : NodeRegistrationSnapshot) (expectedGeneration : Nat)
    (observation : ProjectionObservation) (saved : Except IoError Unit) :
    Except IoError (Option ProjectionCommit × NodeProjectionCache) := do
  validateProjection observation.projection
  validateCapabilities observation.capabilities
  validateHelperVersion observation.helperVersion
  require (observation.projection.nodeId = registration.nodeId)
    ⟨.permissionDenied, "projection owner does not match the pinned Node identity"⟩
  if c.actualGeneration registration ≠ expectedGeneration then .ok (none, c)
  else
    match checkedAdd expectedGeneration 1 with
    | none => .error (.ofMessage "Node cache generation exhausted")
    | some generation => do
        let previous := c.visible registration
        let c ← c.replace (committed previous registration generation observation)
          "Node cache registration limit reached" saved
        .ok (some ⟨generation, previous.map (·.health), previous.bind (·.cursor)⟩, c)

/-- What `mark_health` starts from when there is no entry. -/
def unobserved (registration : NodeRegistrationSnapshot) : CachedNode where
  nodeId := registration.nodeId
  registrationRevision := registration.revision
  tombstoneEpoch := registration.tombstoneEpoch
  generation := 0
  health := .unobserved
  lastAttemptAtMs := none
  lastSuccessAtMs := none
  retryAtMs := none
  capabilities := []
  observedHelperVersion := none
  cursor := none
  projection := none
  notificationClaims := []
  digestClaims := []
  dismissedShellIds := []

/-- The entry of `mark_health`. -/
def marked (current : CachedNode) (registration : NodeRegistrationSnapshot) (generation : Nat)
    (health : NodeProjectionHealthCode) (attemptAtMs : Nat) (retryAtMs : Option Nat) : CachedNode :=
  { current with
    registrationRevision := registration.revision
    tombstoneEpoch := registration.tombstoneEpoch
    generation := generation
    health := health
    lastAttemptAtMs := some attemptAtMs
    retryAtMs := retryAtMs }

/-- `mark_health`. The entry it edits may have been recorded for another registration. -/
def markHealth (registration : NodeRegistrationSnapshot) (expectedGeneration : Nat)
    (health : NodeProjectionHealthCode) (attemptAtMs : Nat) (retryAtMs : Option Nat)
    (saved : Except IoError Unit) : Except IoError (Option Nat × NodeProjectionCache) :=
  if c.actualGeneration registration ≠ expectedGeneration then .ok (none, c)
  else
    match checkedAdd expectedGeneration 1 with
    | none => .error (.ofMessage "Node cache generation exhausted")
    | some generation => do
        let current := (c.find registration.nodeId).getD (unobserved registration)
        let c ← c.replace (marked current registration generation health attemptAtMs retryAtMs)
          "Node cache limit reached" saved
        .ok (some generation, c)

/-- `drain(..len - limit)` when the list is too long. -/
def retainLast {α : Type} (limit : Nat) (l : List α) : List α := l.drop (l.length - limit)

/-- The loop over the claims: which of them are new, and all of them. -/
def acceptClaims (known : List RemoteNotificationClaim) :
    List RemoteNotificationClaim → List Bool × List RemoteNotificationClaim
  | [] => ([], known)
  | claim :: claims =>
      if claim ∈ known then
        let (accepted, known) := acceptClaims known claims
        (false :: accepted, known)
      else
        let (accepted, known) := acceptClaims (known ++ [claim]) claims
        (true :: accepted, known)

/-- An edit of the entry of a Node, at its place. -/
def edit (node : CachedNode) (saved : Except IoError Unit) : Except IoError NodeProjectionCache :=
  store (Keyed.adjust CachedNode.nodeId c.nodes node.nodeId fun _ => node) saved

/-- The entry of `claim_notifications`. -/
def claimed (node : CachedNode) (claims : List RemoteNotificationClaim)
    (digest : Option RemoteDigestClaim) : CachedNode :=
  let digests := node.digestClaims ++ digest.toList.filter (· ∉ node.digestClaims)
  { node with
    notificationClaims :=
      retainLast maxNotificationClaimsPerNode (acceptClaims node.notificationClaims claims).2
    digestClaims := retainLast maxDigestClaimsPerNode digests }

/-- `claim_notifications`. -/
def claimNotifications (registration : NodeRegistrationSnapshot) (expectedCursor : EventCursor)
    (claims : List RemoteNotificationClaim) (digest : Option RemoteDigestClaim)
    (saved : Except IoError Unit) :
    Except IoError (Option (List Bool × Bool) × NodeProjectionCache) := do
  claims.forM validateNotificationClaim
  digest.forM validateDigestClaim
  match (c.visible registration).filter (·.cursor = some expectedCursor) with
  | none => .ok (none, c)
  | some node => do
      let accepted := (acceptClaims node.notificationClaims claims).1
      let digestAccepted := digest.any (· ∉ node.digestClaims)
      if !accepted.any id && !digestAccepted then .ok (some (accepted, false), c)
      else do
        let c ← c.edit (claimed node claims digest) saved
        .ok (some (accepted, digestAccepted), c)

/-- `remove`. -/
def remove (nodeId : String) (saved : Except IoError Unit) :
    Except IoError (Bool × NodeProjectionCache) :=
  if (c.find nodeId).isNone then .ok (false, c)
  else do
    let c ← store (Keyed.remove CachedNode.nodeId c.nodes nodeId) saved
    .ok (true, c)

/-- The entry of `dismiss_shell`. -/
def dismissed (node : CachedNode) (shellId : String) : CachedNode :=
  { node with
    dismissedShellIds := (node.dismissedShellIds ++ [shellId]).insertionSort (· ≤ ·) }

/-- `dismiss_shell`. -/
def dismissShell (registration : NodeRegistrationSnapshot) (shellId : String)
    (saved : Except IoError Unit) :
    Except IoError ((NodeProjectionHealth × Bool) × NodeProjectionCache) := do
  validateCacheName shellId
  match c.visible registration with
  | none => .error ⟨.notFound, "Node has no cached projection"⟩
  | some node => do
      require (node.health ≠ .online)
        ⟨.invalidInput, "online Node shells must be closed by their owner"⟩
      require (node.projection.any fun projection =>
        (projection.shells.map (·.id)).contains shellId)
        ⟨.notFound, "shell is not present in the cached Node projection"⟩
      if shellId ∈ node.dismissedShellIds then .ok ((node.healthSnapshot, false), c)
      else do
        require (node.dismissedShellIds.length < maxDismissedShellsPerNode)
          (invalid "dismissed Node shell limit reached")
        let c ← c.edit (dismissed node shellId) saved
        .ok ((node.healthSnapshot, true), c)

/-- `restore_dismissed_shells`. -/
def restoreDismissedShells (registration : NodeRegistrationSnapshot)
    (saved : Except IoError Unit) :
    Except IoError ((NodeProjectionHealth × Bool) × NodeProjectionCache) :=
  match c.visible registration with
  | none => .error ⟨.notFound, "Node has no cached projection"⟩
  | some node =>
      if node.dismissedShellIds.isEmpty then .ok ((node.healthSnapshot, false), c)
      else do
        let c ← c.edit { node with dismissedShellIds := [] } saved
        .ok ((node.healthSnapshot, true), c)

/-! ## Loading -/

/-- What `load` checks of an entry, apart from its id. -/
def validateNode (node : CachedNode) : Except IoError Unit := do
  require (node.generation ≠ 0) (invalid "Node cache contains duplicate or invalid generations")
  validateCapabilities node.capabilities
  node.observedHelperVersion.forM validateHelperVersion
  require
    (decide (node.notificationClaims.length ≤ maxNotificationClaimsPerNode) &&
      decide (node.digestClaims.length ≤ maxDigestClaimsPerNode) &&
      decide (node.dismissedShellIds.length ≤ maxDismissedShellsPerNode))
    (invalid "Node cache metadata exceeds its bounds")
  node.dismissedShellIds.forM validateCacheName
  require (decide node.dismissedShellIds.Nodup)
    (invalid "Node cache contains duplicate dismissed shells")
  node.notificationClaims.forM validateNotificationClaim
  node.digestClaims.forM validateDigestClaim
  match node.projection with
  | none => .ok ()
  | some projection => do
      require (projection.nodeId = node.nodeId)
        (invalid "Node cache projection identity mismatch")
      validateProjection projection

/-- `load`, of a file that can be read. -/
def load (nodes : List CachedNode) : Except IoError Unit := do
  require (nodes.length ≤ maxNodes) (invalid "unsupported or oversized Node cache")
  require (decide (nodes.map (·.nodeId)).Nodup)
    (invalid "Node cache contains duplicate or invalid generations")
  nodes.forM validateNode

/-- `load_at`. A file that cannot be read or is not valid is moved away; `saved` is the answer
when the recovered entries are written back. -/
def loadAt (readable : Bool) (saved : Except IoError Unit) : NodeProjectionCache :=
  match c.file with
  | none => ⟨[], none⟩
  | some nodes =>
      match readable, load nodes with
      | true, .ok () =>
          let recovered := nodes.map CachedNode.recovered
          let file := match saved with
            | .ok () => recovered
            | .error _ => nodes
          ⟨recovered, some file⟩
      | _, _ => ⟨[], none⟩

end NodeProjectionCache

end Boomux.Nodes
