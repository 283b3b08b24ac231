import Boomux.Basic.HashMap
import Boomux.Daemon.Error
import Boomux.Daemon.Registry

/-!
# Inside a lifecycle transaction

`lifecycle_transaction` from its first to its last line: the stop loop, the flush, the loop that
finalizes the stopped Shells, the durable apply, the capture and the save, and after a failure of
any of them what puts the Shells and the maps back. The caller holds the mutation lock, so no
lifecycle of a Shell and no map changes under it; other threads publish runtime events between
its transactions, and what the processes, the file system and those threads do is an `Outcome`.

The locks of a run (`ended`), of `last_run` and of `output_wait` may be poisoned, which is how a
finalize fails; a poisoned `lifecycle` lock makes the stop before it fail instead. No other lock
is. What no step here reads of a Workspace, a launcher or an agent is a parameter.
-/

set_option autoImplicit false

namespace Boomux.Daemon.Lifecycle

open Rust

variable {W L A : Type}

/-! ## The durable state -/

/-- `Workspace`. A revision is positive when it is loaded, and stays so. -/
structure Workspace (W : Type) where
  revision : Nat
  shellIds : List String
  launcherIds : List String
  agentIds : List String
  rest : W
  revision_pos : 0 < revision

/-- Which locks of a Shell are poisoned, for good. -/
structure Poisoned where
  ended : Bool
  lastRun : Bool
  outputWait : Bool
  deriving DecidableEq, Repr

/-- `Shell`, with its revision and its locks. -/
structure LockedShell extends Shell where
  revision : Nat
  poisoned : Poisoned
  deriving DecidableEq, Repr

/-- `DurableState`. -/
structure DurableState (W L A : Type) where
  workspaces : HashMap String (Workspace W)
  shells : HashMap String LockedShell
  launchers : HashMap String L
  agents : HashMap String A

/-- `bump_revision` of a Workspace. -/
def Workspace.bumpRevision (workspace : Workspace W) : Except IoError (Workspace W) :=
  if workspace.revision + 1 ≤ u64Max then
    .ok { workspace with revision := workspace.revision + 1, revision_pos := Nat.succ_pos _ }
  else .error (.ofMessage "workspace revision exhausted")

/-- `rollback_bump`. -/
def Workspace.rollbackBump (workspace : Workspace W) : Workspace W :=
  { workspace with
    revision := max (workspace.revision - 1) 1
    revision_pos := Nat.lt_of_lt_of_le Nat.zero_lt_one (Nat.le_max_right ..) }

/-! ## Removals -/

/-- The two kinds of `DurableUndo` that a lifecycle transaction records. -/
inductive DurableUndo (W L A : Type)
  | removedShell (workspaceId shellId : String) (shell : LockedShell) (index : Nat)
  | removedWorkspace (workspaceId : String) (workspace : Workspace W)
      (shells : List (String × LockedShell)) (launchers : List (String × L))
      (agents : List (String × A))

namespace DurableState

variable (d : DurableState W L A)

/-- `remove_shell_mutation`: the revision is bumped last, when the Shell is gone already. -/
def removeShellMutation (shellId : String) :
    Except IoError (DurableUndo W L A) × DurableState W L A :=
  match d.shells.lookup shellId with
  | none => (.error (notFound "shell" shellId), d)
  | some shell =>
      match d.workspaces.lookup shell.workspaceId with
      | none => (.error (notFound "workspace" shell.workspaceId), d)
      | some workspace =>
          match workspace.shellIds.findIdx? (· = shellId) with
          | none => (.error (notFound "shell" shellId), d)
          | some index =>
              let removed := { workspace with shellIds := workspace.shellIds.eraseIdx index }
              let shells := d.shells.erase shellId
              match removed.bumpRevision with
              | .error e =>
                  (.error e, { d with
                    shells := shells
                    workspaces := d.workspaces.insert shell.workspaceId removed })
              | .ok bumped =>
                  (.ok (.removedShell shell.workspaceId shellId shell index), { d with
                    shells := shells
                    workspaces := d.workspaces.insert shell.workspaceId bumped })

/-- `remove_workspace_mutation`. -/
def removeWorkspaceMutation (workspaceId : String) :
    Except IoError (DurableUndo W L A) × DurableState W L A :=
  match d.workspaces.lookup workspaceId with
  | none => (.error (notFound "workspace" workspaceId), d)
  | some workspace =>
      (.ok (.removedWorkspace workspaceId workspace
          (HashMap.entries d.shells workspace.shellIds)
          (HashMap.entries d.launchers workspace.launcherIds)
          (HashMap.entries d.agents workspace.agentIds)),
        { workspaces := d.workspaces.erase workspaceId
          shells := HashMap.eraseAll d.shells workspace.shellIds
          launchers := HashMap.eraseAll d.launchers workspace.launcherIds
          agents := HashMap.eraseAll d.agents workspace.agentIds })

/-- `DurableRegistry::rollback`. A removed Shell's Workspace is the one that is still there. -/
def rollback : DurableUndo W L A → DurableState W L A
  | .removedShell workspaceId shellId shell index =>
      { d with
        shells := d.shells.insert shellId shell
        workspaces := match d.workspaces.lookup workspaceId with
          | some workspace => d.workspaces.insert workspaceId
              ({ workspace with
                shellIds := workspace.shellIds.insertIdx index shellId }.rollbackBump)
          | none => d.workspaces }
  | .removedWorkspace workspaceId workspace shells launchers agents =>
      { workspaces := d.workspaces.insert workspaceId workspace
        shells := HashMap.insertAll d.shells shells
        launchers := HashMap.insertAll d.launchers launchers
        agents := HashMap.insertAll d.agents agents }

end DurableState

/-! ## Stopping a Shell -/

/-- `StopRuntimeError`. -/
structure StopRuntimeError where
  source : IoError
  stopped : Bool
  deriving DecidableEq, Repr

/-- `stop_runtime`, given what its process does. -/
def stopRuntime (shell : LockedShell) (outcome : Except StopRuntimeError Unit) :
    Except StopRuntimeError Unit :=
  match shell.lifecycle with
  | .pending | .closed | .exited _ _ _ false => .ok ()
  | .running .. | .exited _ _ _ true => outcome

/-- A poisoned lock. -/
def lockPoisoned : IoError := .ofMessage "daemon state lock poisoned"

/-- `finalize_stop`, with the Shell it leaves. -/
def finalizeStop (shellId : String) (shell : LockedShell) :
    Except IoError StopRollback × LockedShell :=
  match shell.lifecycle with
  | .pending => (.ok ⟨.pending, none⟩, { shell with lifecycle := .closed })
  | .running profile run =>
      if shell.poisoned.ended then (.error lockPoisoned, shell)
      else
        let run := run.finish .terminated
        let finished := { shell with lifecycle := .running profile run }
        if shell.poisoned.lastRun then (.error lockPoisoned, finished)
        else
          let recorded := { finished with lastRun := some (run.persisted profile) }
          if shell.poisoned.outputWait then (.error lockPoisoned, recorded)
          else
            (.ok ⟨.pending, some (.runExited shell.workspaceId shellId run)⟩,
              { recorded with lifecycle := .closed })
  | .exited code profile run runtime =>
      if shell.poisoned.ended || shell.poisoned.lastRun then (.error lockPoisoned, shell)
      else
        (.ok ⟨.exited code profile run runtime, none⟩,
          { shell with lastRun := some (run.persisted profile), lifecycle := .closed })
  | .closed => (.ok ⟨.closed, none⟩, shell)

/-- `restore_stopped`. -/
def restoreStopped (shell : LockedShell) (rollback : StopRollback) : LockedShell :=
  match shell.lifecycle with
  | .closed => { shell with lifecycle := rollback.lifecycle }
  | _ => shell

/-- `compensate_stopped`. -/
def compensateStopped (shellId : String) (shell : LockedShell) :
    Except IoError (Option DaemonEventKind) × LockedShell :=
  match finalizeStop shellId shell with
  | (.ok rollback, stopped) => (.ok rollback.event, restoreStopped stopped rollback)
  | (.error e, left) => (.error e, left)

/-! ## The loops -/

/-- The stop loop: the Shells it has stopped, and the error it ended with. -/
def stopAll (m : HashMap String LockedShell) (stop : Nat → Except StopRuntimeError Unit) :
    Nat → List String → List String × Option IoError
  | _, [] => ([], none)
  | index, shellId :: shells =>
      match m.lookup shellId with
      | none => stopAll m stop (index + 1) shells
      | some shell =>
          match stopRuntime shell (stop index) with
          | .ok () =>
              let rest := stopAll m stop (index + 1) shells
              (shellId :: rest.1, rest.2)
          | .error error => (if error.stopped then [shellId] else [], some error.source)

/-- The loop of `compensate_stopped_locked`: the Shells, the events and the first error. -/
def compensateAll (m : HashMap String LockedShell) :
    List String → HashMap String LockedShell × List DaemonEventKind × Except IoError Unit
  | [] => (m, [], .ok ())
  | shellId :: shells =>
      match m.lookup shellId with
      | none => compensateAll m shells
      | some shell =>
          match compensateStopped shellId shell with
          | (.ok event, shell) =>
              let rest := compensateAll (m.insert shellId shell) shells
              (rest.1, event.toList ++ rest.2.1, rest.2.2)
          | (.error e, shell) =>
              let rest := compensateAll (m.insert shellId shell) shells
              (rest.1, rest.2.1, .error e)

/-- What the loop over `finalize_stop` leaves: the Shells, the rollbacks, and after a failure the
Shells from the failed one on. -/
structure Finalized where
  shells : HashMap String LockedShell
  rollbacks : List (String × StopRollback)
  failed : Option (List String × IoError)

/-- The loop over `finalize_stop`. -/
def finalizeAll (m : HashMap String LockedShell) : List String → Finalized
  | [] => ⟨m, [], none⟩
  | shellId :: shells =>
      match m.lookup shellId with
      | none => finalizeAll m shells
      | some shell =>
          match finalizeStop shellId shell with
          | (.ok rollback, stopped) =>
              let rest := finalizeAll (m.insert shellId stopped) shells
              { rest with rollbacks := (shellId, rollback) :: rest.rollbacks }
          | (.error e, left) => ⟨m.insert shellId left, [], some (shellId :: shells, e)⟩

/-- The loop of `restore_finalized_locked`. -/
def restoreAll (m : HashMap String LockedShell) :
    List (String × StopRollback) → HashMap String LockedShell
  | [] => m
  | (shellId, rollback) :: rollbacks =>
      match m.lookup shellId with
      | none => restoreAll m rollbacks
      | some shell => restoreAll (m.insert shellId (restoreStopped shell rollback)) rollbacks

/-! ## The daemon -/

/-- What another thread publishes. -/
inductive RuntimeEvent
  | outputChanged (workspaceId shellId runId : String) (outputRevision : Nat)
  | nodeProjectionChanged (nodeId : String) (cacheGeneration : Nat)
  | focusedTerminalPresentationChanged
  deriving DecidableEq, Repr

def RuntimeEvent.kind : RuntimeEvent → DaemonEventKind
  | .outputChanged workspaceId shellId runId outputRevision =>
      .outputChanged workspaceId shellId runId outputRevision
  | .nodeProjectionChanged nodeId cacheGeneration => .nodeProjectionChanged nodeId cacheGeneration
  | .focusedTerminalPresentationChanged => .focusedTerminalPresentationChanged

/-- What the daemon's surroundings do during one call. -/
structure Outcome where
  checkpoint : Except IoError Unit
  stop : Nat → Except StopRuntimeError Unit
  /-- published while the Shells are stopped -/
  whileStopping : List RuntimeEvent
  flushCapture : Except IoError Unit
  whileFlushing : List RuntimeEvent
  flushSave : Except IoError Unit
  /-- published before the Shells are finalized -/
  afterFlush : List RuntimeEvent
  capture : Except IoError Unit
  whileSaving : List RuntimeEvent
  save : Except IoError Unit

/-- What a transaction reads and writes. -/
structure State (W L A : Type) where
  durable : DurableState W L A
  events : EventTransaction
  persistenceRevision : Nat
  persistenceDirty : Bool
  stopping : Bool

inductive Removal
  | shell (shellId : String)
  | workspace (workspaceId : String)
  deriving DecidableEq, Repr

/-- The arguments of `lifecycle_transaction`: `removal` is what `durable_apply` does. -/
structure LifecycleCall (W L A : Type) where
  stopping : Bool
  selectShells : DurableState W L A → Except DaemonError (List String)
  removal : Option Removal
  committedEvents : DurableState W L A → List String → List DaemonEventKind

/-- `require_guard`. -/
def requireGuard (actual expected : Nat) (resource : String) : Except DaemonError Unit :=
  require (actual = expected) (.lifecycle .revisionAhead
    (resource ++ " revision is " ++ toString actual ++ "; guarded operation supplied " ++
      toString expected))

/-- `close_shell_guarded`. -/
def closeShellGuarded (shellId : String) (expectedRevision : Option Nat) :
    LifecycleCall W L A where
  stopping := false
  selectShells d :=
    match d.shells.lookup shellId with
    | none => .error (.ofIo (notFound "shell" shellId))
    | some shell => do
        if let some expected := expectedRevision then requireGuard shell.revision expected "shell"
        .ok [shellId]
  removal := some (.shell shellId)
  committedEvents d shells :=
    [.shellClosed ((shells.head?.bind d.shells.lookup).map (·.workspaceId)) shellId]

/-- `close_workspace_guarded`. -/
def closeWorkspaceGuarded (workspaceId : String) (expectedRevision : Option Nat) :
    LifecycleCall W L A where
  stopping := false
  selectShells d :=
    match d.workspaces.lookup workspaceId with
    | none => .error (.ofIo (notFound "workspace" workspaceId))
    | some workspace => do
        if let some expected := expectedRevision then
          requireGuard workspace.revision expected "workspace"
        .ok (workspace.shellIds.filter fun id => (d.shells.lookup id).isSome)
  removal := some (.workspace workspaceId)
  committedEvents _ _ := [.workspaceClosed workspaceId]

/-- `shutdown`. -/
def shutdown : LifecycleCall W L A where
  stopping := true
  selectShells d := .ok d.shells.keys
  removal := none
  committedEvents _ _ := []

/-- `durable_apply`. -/
def LifecycleCall.durableApply (call : LifecycleCall W L A) (d : DurableState W L A) :
    Except IoError (List (DurableUndo W L A)) × DurableState W L A :=
  match call.removal with
  | none => (.ok [], d)
  | some (.shell shellId) =>
      let r := d.removeShellMutation shellId
      (r.1.map fun undo => [undo], r.2)
  | some (.workspace workspaceId) =>
      let r := d.removeWorkspaceMutation workspaceId
      (r.1.map fun undo => [undo], r.2)

/-- `DurableUndoLog::rollback`: newest first. -/
def DurableState.rollbackAll (d : DurableState W L A) (undo : List (DurableUndo W L A)) :
    DurableState W L A :=
  undo.reverse.foldl DurableState.rollback d

/-- `publish_runtime_batch` of other threads, one event each. -/
def publishRuntime (x : EventTransaction) (events : List RuntimeEvent) : EventTransaction :=
  events.foldl (fun x event => (x.publishRuntimeBatch [event.kind]).2) x

/-- `lifecycle_failure`. -/
def lifecycleFailure (primary : DaemonError) (compensation : Except IoError Unit) : DaemonError :=
  match compensation with
  | .ok () => primary
  | .error e => primary.appendErrorContext ("lifecycle compensation also failed: " ++ e.message)

namespace State

variable (s : State W L A)

/-- `queue_durable_batch_locked`, which marks the registry dirty. The number of the batch is not
in the source. -/
def queueDurableBatchLocked (kinds : List DaemonEventKind) : State W L A :=
  let queued := s.events.queueDurableBatch ⟨0, kinds⟩
  if queued.1 then
    { s with
      events := queued.2
      persistenceRevision := (s.persistenceRevision + 1) % 2 ^ 64
      persistenceDirty := true }
  else { s with events := queued.2 }

/-- `compensate_stopped_locked`. -/
def compensateStoppedLocked (shells : List String) : Except IoError Unit × State W L A :=
  let batch := s.events.transition.pendingRuntimeEvents
  let r := compensateAll s.durable.shells shells
  (r.2.2, { s with
    durable := { s.durable with shells := r.1 }
    events := s.events.drainRuntimeEvents }.queueDurableBatchLocked (batch ++ r.2.1))

/-- `restore_finalized_locked`. The `lifecycle` locks have just been taken, so nothing fails. -/
def restoreFinalizedLocked (rollbacks : List (String × StopRollback)) : State W L A :=
  let batch := s.events.transition.pendingRuntimeEvents
  { s with
    durable := { s.durable with shells := restoreAll s.durable.shells rollbacks }
    events := s.events.drainRuntimeEvents }.queueDurableBatchLocked
      (batch ++ rollbacks.filterMap fun p : String × StopRollback => p.2.event)

def releaseLifecycleReservation : State W L A :=
  { s with events := s.events.releaseLifecycleReservation }

def finishPersistence : State W L A := { s with events := s.events.finishPersistence }

/-- `cancel_stopping`, if the call is stopping. -/
def cancelStopping (call : LifecycleCall W L A) : State W L A :=
  if call.stopping then { s with stopping := false } else s

def publish (events : List RuntimeEvent) : State W L A :=
  { s with events := publishRuntime s.events events }

/-- `write_persisted_state` of a state that was captured at `revision`. -/
def writePersistedState (revision : Nat) (saved : Except IoError Unit) : State W L A :=
  match saved with
  | .ok () => if s.persistenceRevision = revision then { s with persistenceDirty := false } else s
  | .error _ => { s with persistenceDirty := true }

/-- `flush_pending`. -/
def flushPending (o : Outcome) : Except DaemonError Unit × State W L A :=
  let pending := s.events.transition.pendingDurableEvents
  if pending.isEmpty && !s.persistenceDirty then (.ok (), s)
  else
    match s.events.reserveWithPending 0 with
    | .error e => (.error (.ofIo e), s)
    | .ok () =>
        match o.flushCapture with
        | .error e => (.error (.ofIo e), s)
        | .ok () =>
            let begun := { s with
              events := s.events.takePendingDurable.beginPersistence
                s.events.pendingDurableEventCount }
            let written := (begun.publish o.whileFlushing).writePersistedState
              s.persistenceRevision o.flushSave
            match o.flushSave with
            | .error e =>
                (.error (.persistence e),
                  { written with
                    events := (written.events.restorePendingDurable pending).finishPersistence })
            | .ok () =>
                match written.events.reserveWithPending 0 with
                | .error e => (.error (.ofIo e), written)
                | .ok () =>
                    (.ok (), { written with
                      events := (pending.foldl EventTransaction.appendBatch
                        written.events).finishPersistence })

/-- The last part of the call: the write of the captured state and the commit. -/
def saveStage (call : LifecycleCall W L A) (o : Outcome) (committed : List DaemonEventKind)
    (capacity : Nat) (rollbacks : List (String × StopRollback)) (undo : List (DurableUndo W L A)) :
    Except DaemonError Unit × State W L A :=
  let begun := { s with
    events := s.events.transferLifecycleReservationToPersistence committed.length
      (capacity - committed.length) }
  let written := (begun.publish o.whileSaving).writePersistedState s.persistenceRevision o.save
  match o.save with
  | .error e =>
      let undone := { written with durable := written.durable.rollbackAll undo }
      (.error (.persistence e),
        ((undone.restoreFinalizedLocked
          rollbacks).releaseLifecycleReservation.finishPersistence.cancelStopping call))
  | .ok () =>
      (.ok (), { written with
        events :=
          written.events.appendBatch ⟨0, committed⟩ }.releaseLifecycleReservation.finishPersistence)

/-- The durable apply and the capture. -/
def applyStage (call : LifecycleCall W L A) (o : Outcome) (committed : List DaemonEventKind)
    (capacity : Nat) (rollbacks : List (String × StopRollback)) :
    Except DaemonError Unit × State W L A :=
  match call.durableApply s.durable with
  | (.error e, left) =>
      (.error (.ofIo e),
        (({ s with durable := left }.restoreFinalizedLocked rollbacks).cancelStopping
          call).releaseLifecycleReservation)
  | (.ok undo, applied) =>
      match o.capture with
      | .error e =>
          (.error (.ofIo e),
            (({ s with durable := applied.rollbackAll undo }.restoreFinalizedLocked
              rollbacks).cancelStopping call).releaseLifecycleReservation)
      | .ok () => { s with durable := applied }.saveStage call o committed capacity rollbacks undo

/-- The loop over `finalize_stop`. -/
def finalizeStage (call : LifecycleCall W L A) (o : Outcome) (committed : List DaemonEventKind)
    (capacity : Nat) (shells : List String) : Except DaemonError Unit × State W L A :=
  let finalized := finalizeAll s.durable.shells shells
  let s := { s with durable := { s.durable with shells := finalized.shells } }
  match finalized.failed with
  | some (remaining, e) =>
      let compensated := (s.restoreFinalizedLocked finalized.rollbacks).compensateStoppedLocked
        remaining
      (.error (lifecycleFailure (.ofIo e) compensated.1),
        (compensated.2.cancelStopping call).releaseLifecycleReservation)
  | none => s.applyStage call o committed capacity finalized.rollbacks

/-- What a failed stop or flush leaves. -/
def stopFailed (call : LifecycleCall W L A) (stopped : List String) (error : DaemonError) :
    Except DaemonError Unit × State W L A :=
  let compensated := s.compensateStoppedLocked stopped
  (.error (lifecycleFailure error compensated.1),
    compensated.2.releaseLifecycleReservation.cancelStopping call)

/-- The stop loop and the flush. -/
def stopStage (call : LifecycleCall W L A) (o : Outcome) (committed : List DaemonEventKind)
    (capacity : Nat) (shells : List String) : Except DaemonError Unit × State W L A :=
  let stopped := stopAll s.durable.shells o.stop 0 shells
  let s := s.publish o.whileStopping
  match stopped.2 with
  | some e => s.stopFailed call stopped.1 (.ofIo e)
  | none =>
      match s.flushPending o with
      | (.error e, s) => (s.publish o.afterFlush).stopFailed call stopped.1 e
      | (.ok (), s) => (s.publish o.afterFlush).finalizeStage call o committed capacity shells

/-- `lifecycle_transaction`. -/
def lifecycleTransaction (call : LifecycleCall W L A) (o : Outcome) :
    Except DaemonError Unit × State W L A :=
  match o.checkpoint with
  | .error e => (.error (.persistence e), s)
  | .ok () =>
      if s.stopping then
        if call.stopping then (.ok (), s)
        else (.error (.ofIo ⟨.connectionAborted, "Boomux daemon is stopping"⟩), s)
      else
        let s := { s with stopping := call.stopping }
        match call.selectShells s.durable with
        | .error e => (.error e, s.cancelStopping call)
        | .ok shells =>
            let committed := call.committedEvents s.durable shells
            let capacity := max committed.length shells.length
            match s.events.reserveWithPending capacity with
            | .error e => (.error (.ofIo e), s.cancelStopping call)
            | .ok () =>
                { s with events := s.events.beginLifecycleReservation capacity }.stopStage call o
                  committed capacity shells

end State

end Boomux.Daemon.Lifecycle
