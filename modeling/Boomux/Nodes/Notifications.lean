import Boomux.Basic.Run
import Boomux.Nodes.Epochs
import Boomux.Nodes.Owner

/-!
# Notifications of another Node's agents

The worker that synchronizes the projection of one Node: it fetches a sync, commits it to the
cache, looks for agents that the transitions since the last cursor have made blocked or completed,
claims their notifications, and sends them one by one. There is one worker for a Node, so its state
is that of the one thread; the daemon may stop at any point, and comes back with the file of the
cache. What `with_observation` answers is an argument, and so is everything that other threads do to
the cache.

`RemoteDigestCandidate.counted`, `Notice.told` and `NotificationWorld.delivered` are not in the
source: they say which claims a notification is about.
-/

set_option autoImplicit false

namespace Boomux.Nodes

open Rust Transition
open Daemon

/-! ## Requests -/

/-- `NotificationReason`. -/
inductive NotificationReason
  | blocked | completed
  deriving DecidableEq, Repr

/-- `NotificationDigest`; the counts are `u16`. -/
structure NotificationDigest where
  blocked : Nat
  completed : Nat
  deriving DecidableEq, Repr

structure NotificationNodeContext where
  nodeAlias : String
  nodeId : String
  deriving DecidableEq, Repr

structure NotificationRequest where
  reason : NotificationReason
  agent : String
  workspace : String
  shell : String
  node : Option NotificationNodeContext
  digest : Option NotificationDigest
  deriving DecidableEq, Repr

/-- What `category_enabled` reads of the settings. -/
structure NotificationDeliverySettings where
  desktopEnabled : Bool
  soundEnabled : Bool
  blocked : Bool
  completed : Bool
  deriving DecidableEq, Repr

/-- `category_enabled`. -/
def categoryEnabled (settings : NotificationDeliverySettings) (reason : NotificationReason) :
    Bool :=
  (settings.desktopEnabled || settings.soundEnabled) &&
    match reason with
    | .blocked => settings.blocked
    | .completed => settings.completed

/-- `remote_notification_reason`. -/
def remoteNotificationReason : RemoteNotificationCategory → NotificationReason
  | .agentBlocked => .blocked
  | .agentCompleted => .completed

/-- `remote_notification_reason_key`. -/
def remoteNotificationReasonKey : RemoteNotificationCategory → String
  | .agentBlocked => "blocked"
  | .agentCompleted => "completed"

/-! ## Candidates -/

structure RemoteNotificationCandidate where
  claim : RemoteNotificationClaim
  request : NotificationRequest
  deriving DecidableEq, Repr

structure RemoteDigestCandidate where
  claim : RemoteDigestClaim
  request : NotificationRequest
  counted : List RemoteNotificationClaim
  deriving DecidableEq, Repr

/-- The category of an agent with an attention of its present revision. -/
def remoteNotificationCategory (agent : ObservedAgent) (attention : NodeProjectionAttention) :
    Option RemoteNotificationCategory :=
  match agent.state, attention.reason with
  | .blocked, .blocked => some .agentBlocked
  | .done, .completed => some .agentCompleted
  | _, _ => none

/-- The value under a key in a `HashMap` that is collected from pairs: the last one. -/
def collected (pairs : List (String × String)) (key : String) : Option String :=
  (pairs.reverse.find? fun pair => pair.1 = key).map (·.2)

/-- The candidate of one transition. -/
def transitionCandidate (registration : NodeRegistrationSnapshot) (sync : NodeSync)
    (settings : NotificationDeliverySettings) (transition : NodeProjectionTransition) :
    Option RemoteNotificationCandidate :=
  match transition.kind with
  | .agent workspaceId agentId revision => do
      let agent ← sync.observed.find? fun agent =>
        agent.id = agentId && agent.observationRevision = revision
      let attention ← agent.attention.filter (·.observationRevision = revision)
      let category ← remoteNotificationCategory agent attention
      if categoryEnabled settings (remoteNotificationReason category) then
        some
          { claim :=
              { streamId := sync.cursor.streamId
                entityId := agent.id
                revision := revision
                category := category
                reason := remoteNotificationReasonKey category }
            request :=
              { reason := remoteNotificationReason category
                agent := agent.name
                workspace := (collected (sync.projection.workspaces.map fun workspace =>
                  (workspace.id, workspace.name)) workspaceId).getD workspaceId
                shell := (collected (sync.projection.shells.map fun shell =>
                  (shell.id, shell.name)) agent.shellId).getD agent.shellId
                node := some ⟨registration.nodeAlias, registration.nodeId⟩
                digest := none } }
      else none
  | _ => none

/-- The candidates whose claim was not seen before. -/
def unseen (seen : List RemoteNotificationClaim) :
    List RemoteNotificationCandidate → List RemoteNotificationCandidate
  | [] => []
  | candidate :: candidates =>
      if candidate.claim ∈ seen then unseen seen candidates
      else candidate :: unseen (candidate.claim :: seen) candidates

/-- How many claims have the category, as `u16`. -/
def counted (claims : List RemoteNotificationClaim) (category : RemoteNotificationCategory) : Nat :=
  min (claims.countP (·.category = category)) (2 ^ 16 - 1)

/-- `remote_notification_candidates`. -/
def remoteNotificationCandidates (registration : NodeRegistrationSnapshot) (sync : NodeSync)
    (commit : ProjectionCommit) (settings : NotificationDeliverySettings) :
    List RemoteNotificationCandidate × Option RemoteDigestCandidate :=
  match sync.mode, commit.previousCursor.filter fun prior =>
      prior.streamId = sync.cursor.streamId && prior.eventId ≤ sync.cursor.eventId with
  | .resumed, some prior =>
      let candidates := unseen []
        (sync.transitions.filterMap (transitionCandidate registration sync settings))
      if commit.previousHealth = some .online then (candidates, none)
      else
        let claims := candidates.map (·.claim)
        -- sorting and dropping repetitions
        let enabledCategories := [RemoteNotificationCategory.agentBlocked, .agentCompleted].filter
          fun category => category ∈ claims.map (·.category)
        match enabledCategories with
        | [] => ([], none)
        | category :: _ =>
            ([], some
              { claim :=
                  { streamId := sync.cursor.streamId
                    priorCursor := prior.eventId
                    throughCursor := sync.cursor.eventId
                    enabledCategories := enabledCategories }
                request :=
                  { reason := remoteNotificationReason category
                    agent := ""
                    workspace := ""
                    shell := ""
                    node := some ⟨registration.nodeAlias, registration.nodeId⟩
                    digest := some
                      ⟨counted claims .agentBlocked, counted claims .agentCompleted⟩ }
                counted := claims })
  | _, _ => ([], none)

/-! ## The worker -/

/-- A notification that will be sent, with the claims it tells of. -/
structure Notice where
  request : NotificationRequest
  told : List RemoteNotificationClaim
  deriving DecidableEq, Repr

/-- The notifications of the claims that were accepted. -/
def claimedNotices (candidates : List RemoteNotificationCandidate)
    (digest : Option RemoteDigestCandidate) (accepted : List Bool) (digestAccepted : Bool) :
    List Notice :=
  ((candidates.zip accepted).filterMap fun (candidate, accepted) =>
    if accepted then some ⟨candidate.request, [candidate.claim]⟩ else none) ++
    if digestAccepted then digest.toList.map fun digest => ⟨digest.request, digest.counted⟩ else []

/-- What one turn of the worker's loop has come to. -/
inductive Worker
  | idle
  | fetching (registration : NodeRegistrationSnapshot) (after : Option EventCursor)
      (expectedGeneration : Nat)
  | fetched (registration : NodeRegistrationSnapshot) (expectedGeneration : Nat) (sync : NodeSync)
  | committed (registration : NodeRegistrationSnapshot) (sync : NodeSync)
      (candidates : List RemoteNotificationCandidate) (digest : Option RemoteDigestCandidate)
  | notifying (registration : NodeRegistrationSnapshot) (sync : NodeSync) (notices : List Notice)
  deriving DecidableEq, Repr

/-- A notification that was sent, with the sync it comes from and the Node's entry at that time. -/
structure Delivery where
  sync : NodeSync
  notice : Notice
  entry : Option CachedNode
  deriving DecidableEq, Repr

/-- The owner of the projection, and the daemon that observes it. -/
structure NotificationWorld where
  nodeId : String
  owner : ProjectionOwner
  cache : NodeProjectionCache
  settings : NotificationDeliverySettings
  worker : Worker
  delivered : List Delivery
  deriving DecidableEq, Repr

inductive NotificationAction
  | owner (action : OwnerAction)
  | cache (call : CacheCall)
  | start (registration : NodeRegistrationSnapshot)
  | fetch (frame : NodeProjectionSnapshot) (capabilities : List String)
  | failFetch (observed : Bool) (health : NodeProjectionHealthCode) (attemptAtMs : Nat)
      (retryAtMs : Option Nat) (saved : Except IoError Unit)
  | commit (observed : Bool) (capabilities : List String) (helperVersion : String)
      (observedAtMs : Nat) (saved : Except IoError Unit)
  | claim (observed : Bool) (saved : Except IoError Unit)
  | notify
  | restart (readable : Bool) (saved : Except IoError Unit)
      (settings : NotificationDeliverySettings)

/-- What other threads may do to the entry of the Node: all but the worker's own calls. -/
def CacheCall.ofOthers (nodeId : String) : CacheCall → Bool
  | .commitProjection registration .. | .markHealth registration ..
  | .claimNotifications registration .. => registration.nodeId ≠ nodeId
  | .dismissShell .. | .restoreDismissedShells .. | .remove .. => true
  | .reload .. => false

namespace NotificationWorld

variable (w : NotificationWorld)

/-- The commit of a fetched sync. -/
def commit (registration : NodeRegistrationSnapshot) (expectedGeneration : Nat) (sync : NodeSync)
    (capabilities : List String) (helperVersion : String) (observedAtMs : Nat)
    (saved : Except IoError Unit) : NotificationWorld :=
  match w.cache.commitProjection registration expectedGeneration
      ⟨sync.cursor, sync.projection, capabilities, helperVersion, observedAtMs⟩ saved with
  | .ok (some commit, cache) =>
      let (candidates, digest) :=
        remoteNotificationCandidates registration sync commit w.settings
      if candidates.isEmpty && digest.isNone then { w with cache := cache, worker := .idle }
      else { w with cache := cache, worker := .committed registration sync candidates digest }
  | .ok (none, _) | .error _ => { w with worker := .idle }

/-- The claims of a committed sync. -/
def claim (registration : NodeRegistrationSnapshot) (sync : NodeSync)
    (candidates : List RemoteNotificationCandidate) (digest : Option RemoteDigestCandidate)
    (saved : Except IoError Unit) : NotificationWorld :=
  match w.cache.claimNotifications registration sync.cursor (candidates.map (·.claim))
      (digest.map (·.claim)) saved with
  | .ok (some (accepted, digestAccepted), cache) =>
      { w with
        cache := cache
        worker := .notifying registration sync
          (claimedNotices candidates digest accepted digestAccepted) }
  | .ok (none, _) | .error _ => { w with worker := .idle }

/-- `node_projection_worker`, and what happens around it. -/
def step : NotificationAction → Option NotificationWorld
  | .owner action => (w.owner.step action).map fun owner => { w with owner := owner }
  | .cache call =>
      if call.ofOthers w.nodeId then
        (w.cache.step call).map fun cache => { w with cache := cache }
      else none
  | .start registration =>
      match w.worker with
      | .idle =>
          if registration.nodeId = w.nodeId then
            let (after, expectedGeneration) := w.cache.cursorAndGeneration registration
            some { w with worker := .fetching registration after expectedGeneration }
          else none
      | _ => none
  | .fetch frame capabilities =>
      match w.worker with
      | .fetching registration after expectedGeneration =>
          if frame.nodeId = registration.nodeId then
            some { w with
              worker := .fetched registration expectedGeneration
                (w.owner.sync frame capabilities after) }
          else none
      | _ => none
  | .failFetch observed health attemptAtMs retryAtMs saved =>
      match w.worker with
      | .fetching registration _ expectedGeneration =>
          if observed then
            match w.cache.markHealth registration expectedGeneration health attemptAtMs retryAtMs
                saved with
            | .ok (_, cache) => some { w with cache := cache, worker := .idle }
            | .error _ => some { w with worker := .idle }
          else some { w with worker := .idle }
      | _ => none
  | .commit observed capabilities helperVersion observedAtMs saved =>
      match w.worker with
      | .fetched registration expectedGeneration sync =>
          if observed then
            some (w.commit registration expectedGeneration sync capabilities helperVersion
              observedAtMs saved)
          else some { w with worker := .idle }
      | _ => none
  | .claim observed saved =>
      match w.worker with
      | .committed registration sync candidates digest =>
          if observed then some (w.claim registration sync candidates digest saved)
          else some { w with worker := .idle }
      | _ => none
  | .notify =>
      match w.worker with
      | .notifying _ _ [] => some { w with worker := .idle }
      | .notifying registration sync (notice :: notices) =>
          some { w with
            worker := .notifying registration sync notices
            delivered := w.delivered ++ [⟨sync, notice, w.cache.visible registration⟩] }
      | _ => none
  | .restart readable saved settings =>
      some { w with
        cache := w.cache.loadAt readable saved
        worker := .idle
        settings := settings }

end NotificationWorld

end Boomux.Nodes
