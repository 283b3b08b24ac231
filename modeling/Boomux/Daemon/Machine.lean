import Boomux.Daemon.Registry

/-!
# The daemon's transactions as a machine

`World.step` runs one atomic piece of a path: what a thread does between taking the locks
`events.transitions` and `events.state` and releasing them, or the answer of the persistence
writer. Several threads are inside `durable_mutation_outcome`, `try_record_run_exit`,
`lifecycle_transaction`, `flush_pending` and `publish_runtime_batch` at once only as far as the
mutation lock and the persist lock let them; an action whose thread would wait is not enabled.
A path that returns without having changed anything is not a step.
-/

set_option autoImplicit false

namespace Boomux.Daemon

open Rust

variable {R : Type}

/-! ## Actions -/

/-- How a `stop_runtime` ends: well, before its reader paused, before its process was dead
(both leave the run alone), or after (`error.stopped`). -/
inductive StopOutcome
  | stopped | pauseFailed | killFailed | cleanupFailed
  deriving DecidableEq, Repr

/-- Where a lifecycle transaction fails under the persist lock. -/
inductive LifecycleFailure
  | finalize (index : Nat)
  | apply
  | capture
  deriving DecidableEq, Repr

/-- The events that are published outside a reader. -/
def DaemonEventKind.ofRuntime : DaemonEventKind → Bool
  | .nodeProjectionChanged .. | .focusedTerminalPresentationChanged | .handoffCompleted => true
  | _ => false

/-- One piece of a path. `captured` is whether `capture_persisted_state` succeeds, `ok` whether
a state save does. -/
inductive Action (R : Type)
  /-- `durable_mutation_outcome` takes the mutation lock -/
  | enter
  /-- the operation of `durable_mutation_outcome`, up to `begin_persistence` -/
  | mutate (op : Operation R) (captured : Bool)
  /-- the same for the start of an attached run, which reserves without the pending events -/
  | start (op : Operation R)
  /-- `flush_pending`, up to `begin_persistence` -/
  | flushBegin (byHolder captured : Bool)
  | flushWrite (ok : Bool)
  | flushFinish
  /-- `try_record_run_exit`, up to the persist lock, and then up to `begin_persistence` -/
  | exitBegin (reader : Nat)
  | exitRecord (code : Option Nat) (captured : Bool)
  /-- `lifecycle_transaction`: the reservation, one stop, a compensation, and the rest up to
  `begin_persistence` -/
  | lifecycleBegin (call : LifecycleCall R)
  | stopShell (outcome : StopOutcome)
  | compensate
  | lifecycleApply (failure : Option LifecycleFailure)
  /-- the answer to the holder's save, and its last transaction -/
  | write (ok : Bool)
  | finish
  /-- `publish_runtime_batch` -/
  | publish (kinds : List DaemonEventKind)
  /-- a reader takes output in, publishes it, leaves its loop, and publishes the last time -/
  | readOutput (reader : Nat)
  | publishOutput (reader : Nat)
  | leaveLoop (reader : Nat)
  | publishLast (reader : Nat)
  /-- `checkpoint_terminal_history` -/
  | checkpointTerminalHistory (shellId runId history : String)
  /-- `restart_shell`: an exited Shell becomes pending -/
  | restartShell (shellId : String)

/-- A reader in its loop is stopped; one that has left it is not disturbed. -/
def ReaderPhase.stop : ReaderPhase → ReaderPhase
  | .starting | .reading => .stopped
  | phase => phase

namespace World

variable (w : World R)

/-! ## Runtime events -/

/-- `publish_runtime_batch` of a reader, and what its thread does with the result. -/
def publishFrom (index : Nat) (ok failed : Reader → Reader) : Option (World R) :=
  w.readers[index]?.map fun reader =>
    match reader.pending with
    | none => { w with readers := w.readers.modify index ok }
    | some revision =>
        match w.events.publishRuntimeBatch [reader.outputChanged revision] with
        | (.ok (), events) =>
            { w with
              events := events
              readers := w.readers.modify index fun r => ok { r with pending := none } }
        | (.error _, _) => { w with readers := w.readers.modify index failed }

/-- Setting the phase of the readers of a run. -/
def setPhase (runId : String) (phase : ReaderPhase → ReaderPhase) : World R :=
  { w with
    readers := w.readers.map fun r =>
      if r.runId = runId then { r with phase := phase r.phase } else r }

/-- `pause_reader`: the reader publishes its last revision. Whether it succeeded is returned. -/
def pauseReader (runId : String) : Bool × World R :=
  match w.readers.findIdx? fun r => r.runId = runId with
  | none => (true, w)
  | some index =>
      match w.readers[index]? with
      | none => (true, w)
      | some reader =>
          match reader.phase with
          | .draining => (false, w)
          | .reading =>
              match reader.pending with
              | none => (true, w)
              | some revision =>
                  match w.events.publishRuntimeBatch [reader.outputChanged revision] with
                  | (.ok (), events) =>
                      (true, { w with
                        events := events
                        readers := w.readers.modify index ({ · with pending := none }) })
                  | (.error _, _) => (false, w.setPhase runId ReaderPhase.stop)
          | _ => (true, w)

/-- `stop_runtime` of a runtime; an error says whether the process was stopped nevertheless. -/
def stopRun (runId : String) (outcome : StopOutcome) : Except Bool Unit × World R :=
  match outcome with
  | .pauseFailed => (.error false, w)
  | outcome =>
      match w.pauseReader runId with
      | (false, w) => (.error false, w)
      | (true, w) =>
          match outcome with
          | .stopped => (.ok (), w.setPhase runId ReaderPhase.stop)
          | .cleanupFailed => (.error true, w.setPhase runId ReaderPhase.stop)
          | _ => (.error false, w)

/-- `stop_runtime`. -/
def stopRuntime (shellId : String) (outcome : StopOutcome) : Except Bool Unit × World R :=
  match (w.durable.state.shells.get shellId).map Shell.lifecycle with
  | some (.running _ run) | some (.exited _ _ run true) => w.stopRun run.id outcome
  | _ => (.ok (), w)

/-! ## Batches -/

/-- `queue_durable_batch_locked` of a new transition with these events, after its mutation. -/
def queueDurableBatch (mutation : Mutation R) (kinds : List DaemonEventKind) : World R :=
  let batch : Batch := ⟨w.next, kinds⟩
  let (queued, events) := w.events.queueDurableBatch batch
  if queued then
    { w with
      events := events
      durable := { w.durable.markPersistenceDirty with
        edits := w.durable.edits ++ [.transition w.next mutation] }
      next := w.next + 1
      begun := w.begun ++ [batch] }
  else
    { w with
      events := events
      durable := { w.durable with edits := w.durable.edits ++ [.silent mutation.apply] } }

/-- Shells have been restored, and `drain_runtime_events` has run. -/
def drained (shells : Shells) : World R :=
  { w with
    events := w.events.drainRuntimeEvents
    durable := { w.durable with state := { w.durable.state with shells := shells } } }

/-- `restore_finalized_locked`. -/
def restoreFinalized (rollbacks : List (String × StopRollback)) : World R :=
  let restored := restoreAll w.durable.state.shells rollbacks
  (w.drained restored.1).queueDurableBatch (.restore rollbacks)
    (w.events.transition.pendingRuntimeEvents ++ restored.2)

/-- `compensate_stopped_locked`. -/
def compensateStopped (shells : List String) : World R :=
  let compensated := compensateAll w.durable.state.shells shells
  (w.drained compensated.1).queueDurableBatch (.compensate shells)
    (w.events.transition.pendingRuntimeEvents ++ compensated.2)

/-- The end of a lifecycle transaction that has failed. -/
def lifecycleFailed (call : LifecycleCall R) : World R :=
  { w with
    events := w.events.releaseLifecycleReservation
    stopping := if call.stopping then false else w.stopping
    lifecycleActive := false
    holder := .free }

/-! ## The paths -/

/-- The operation of a durable mutation. `reserved` is the result of its capacity check. -/
def mutate (op : Operation R) (reserve : Nat → Except IoError Unit) (captured : Bool) :
    World R :=
  let outcome := op.run w.durable.state
  let undone : World R := { w with
    durable := w.durable.edit (.silent fun d => rollback (op.run d).undo (op.run d).state)
    holder := .free }
  match outcome.result with
  | none | some .unchanged => undone
  | some (.changed kinds) =>
      if outcome.undo.isEmpty then undone
      else
        let batch : Batch := ⟨w.next, kinds⟩
        match reserve kinds.length, captured with
        | .ok (), true =>
            let durable := w.durable.edit (.transition w.next (.operation op))
            { w with
              events := w.events.beginPersistence kinds.length
              durable := durable
              readers := w.readers ++
                outcome.started.map fun s => ⟨s.shellId, s.workspaceId, s.runId, 0, none, .starting⟩
              holder := .window
                ⟨.mutation outcome.undo outcome.started, batch, durable.capturePersistedState,
                  none⟩
              next := w.next + 1
              begun := w.begun ++ [batch] }
        | _, _ =>
            { undone with
              next := w.next + 1
              begun := w.begun ++ [batch]
              rolledBack := w.rolledBack ++ [w.next] }

/-- Where the holder goes when its `flush_pending` has returned. -/
def flushReturned (byHolder ok : Bool) : World R :=
  match byHolder, w.holder with
  | true, .entered => { w with holder := if ok then .flushed else .free }
  | true, .stopping call shells _ stopped =>
      { w with holder := if ok then .finalizing call shells else .compensating call stopped }
  | _, _ => w

/-- Whether the holder is about to call `flush_pending`. -/
def mayFlush : Bool :=
  match w.holder with
  | .entered | .stopping _ _ [] _ => true
  | _ => false

/-- `flush_pending`, up to `begin_persistence`. -/
def flushBegin (byHolder captured : Bool) : World R :=
  let pending := w.events.transition.pendingDurableEvents
  if pending.isEmpty && !w.durable.persistenceDirty then w.flushReturned byHolder true
  else
    match w.events.reserveWithPending 0, captured with
    | .ok (), true =>
        { w with
          events := w.events.takePendingDurable.beginPersistence w.events.pendingDurableEventCount
          flush := some ⟨byHolder, pending, w.durable.capturePersistedState, none⟩ }
    | _, _ => w.flushReturned byHolder false

/-- `flush_pending`, after its save. -/
def flushFinish (flush : Flush R) (written : Bool) : World R :=
  let returned : World R := { w with flush := none }
  if written then
    match w.events.reserveWithPending 0 with
    | .error _ => returned.flushReturned flush.byHolder false
    | .ok () =>
        flushReturned
          { returned with
            events := (flush.pending.foldl .appendBatch w.events).finishPersistence
            published := w.published ++ flush.pending }
          flush.byHolder true
  else
    flushReturned
      { returned with events := (w.events.restorePendingDurable flush.pending).finishPersistence }
      flush.byHolder false

/-- `try_record_run_exit` under both locks, up to `begin_persistence`. -/
def exitRecord (index : Nat) (code : Option Nat) (captured : Bool) : World R :=
  let returned : World R := { w with holder := .free }
  match w.readers[index]? with
  | none => returned
  | some reader =>
      match w.events.reserveWithPending 1 with
      | .error _ =>
          if w.events.capacityIsBlockedOnlyByLifecycleReservation 1 then returned
          else { returned with readers := w.readers.modify index ({ · with phase := .stopped }) }
      | .ok () =>
          match (w.durable.state.shells.get reader.shellId).bind fun shell =>
              finalizeRunExit reader.shellId shell reader.runId code with
          | none => returned
          | some (_, event) =>
              let kinds := w.events.transition.pendingRuntimeEvents ++ [event]
              let batch : Batch := ⟨w.next, kinds⟩
              let durable := w.durable.edit
                (.transition w.next (.runExit reader.shellId reader.runId code))
              let recorded : World R := { w with
                events := w.events.drainRuntimeEvents
                durable := durable
                next := w.next + 1
                begun := w.begun ++ [batch] }
              if captured then
                { recorded with
                  events := w.events.drainRuntimeEvents.beginPersistence
                    (saturatingAdd w.events.pendingDurableEventCount kinds.length)
                  holder := .window ⟨.runExit, batch, durable.capturePersistedState, none⟩ }
              else { recorded with holder := .free, lost := w.lost ++ [w.next] }

/-- The start of a lifecycle transaction, up to its reservation. -/
def lifecycleBegin (call : LifecycleCall R) : Option (World R) := do
  let shells ← call.selectShells w.durable.state
  let capacity := max (call.committedEvents w.durable.state shells).length shells.length
  match w.events.reserveWithPending capacity with
  | .error _ => none
  | .ok () =>
      some { w with
        events := w.events.beginLifecycleReservation capacity
        stopping := call.stopping || w.stopping
        lifecycleActive := true
        holder := .stopping call shells shells [] }

/-- A lifecycle transaction under the persist lock, up to `begin_persistence`. -/
def lifecycleApply (call : LifecycleCall R) (shells : List String)
    (failure : Option LifecycleFailure) : World R :=
  let before := w.durable.state
  let committed := call.committedEvents before shells
  match failure with
  | some (.finalize index) =>
      -- the lock that failed fails again in the compensation, which goes on with the others
      let (_, rollbacks) := finalizeAll before.shells (shells.take index)
      let stopped : World R := { w with
        durable := w.durable.edit (.silent fun d =>
          { d with shells := (finalizeAll d.shells (shells.take index)).1 }) }
      lifecycleFailed
        ((stopped.restoreFinalized rollbacks).compensateStopped (shells.drop (index + 1))) call
  | failure =>
      let (finalized, rollbacks) := finalizeAll before.shells shells
      let (_, undo) := call.durableApply { before with shells := finalized } shells
      let batch : Batch := ⟨w.next, committed⟩
      match failure with
      | none =>
          let durable := w.durable.edit (.transition w.next (.lifecycle call shells))
          { w with
            events := w.events.transferLifecycleReservationToPersistence committed.length
              (w.events.transition.lifecycleEventReservation - committed.length)
            durable := durable
            holder := .window
              ⟨.lifecycle call rollbacks undo, batch, durable.capturePersistedState, none⟩
            next := w.next + 1
            begun := w.begun ++ [batch] }
      | some failure =>
          let undone (d : Durable R) : Durable R :=
            let finalized := { d with shells := (finalizeAll d.shells shells).1 }
            match failure with
            | .capture =>
                rollback (call.durableApply finalized shells).2
                  (call.durableApply finalized shells).1
            | _ => finalized
          let stopped : World R := { w with
            durable := w.durable.edit (.silent undone)
            next := w.next + 1
            begun := w.begun ++ [batch]
            rolledBack := w.rolledBack ++ [w.next] }
          lifecycleFailed (stopped.restoreFinalized rollbacks) call

/-- The answer of the writer to the holder's save. A mutation rolls back at once. -/
def write (window : Window R) (ok : Bool) : World R :=
  let answered : World R := { w with
    durable := w.durable.writePersistedState window.saved ok
    holder := .window { window with written := some ok }
    saves := if ok then w.saves ++ [window.saved] else w.saves }
  match window.kind, ok with
  | .mutation undo started, false =>
      { answered with
        durable := answered.durable.edit (.rolledBack window.batch.transition undo)
        readers := w.readers.map fun r =>
          if started.any (·.runId = r.runId) then { r with phase := r.phase.stop } else r
        rolledBack := w.rolledBack ++ [window.batch.transition] }
  | _, _ => answered

/-- The last transaction of a path that holds the mutation lock. -/
def finish (window : Window R) (written : Bool) : World R :=
  let returned : World R := { w with holder := .free }
  match window.kind, written with
  | .mutation _ started, true =>
      { returned with
        events := (w.events.appendBatch window.batch).finishPersistence
        readers := w.readers.map fun r =>
          if started.any (·.runId = r.runId) && r.phase = .starting then
            { r with phase := .reading }
          else r
        published := w.published ++ [window.batch] }
  | .mutation _ _, false => { returned with events := w.events.finishPersistence }
  | .runExit, true =>
      { returned with
        events := (w.events.appendPendingDurable.appendBatch window.batch).finishPersistence
        published := w.published ++ w.events.transition.pendingDurableEvents ++ [window.batch] }
  | .runExit, false =>
      { returned with events := (w.events.queueDurableBatch window.batch).2.finishPersistence }
  | .lifecycle _ _ _, true =>
      { returned with
        events :=
          (w.events.appendBatch window.batch).releaseLifecycleReservation.finishPersistence
        lifecycleActive := false
        published := w.published ++ [window.batch] }
  | .lifecycle call rollbacks undo, false =>
      let undone : World R := { returned with
        durable := w.durable.edit (.rolledBack window.batch.transition undo)
        rolledBack := w.rolledBack ++ [window.batch.transition] }
      let failed := (undone.restoreFinalized rollbacks).lifecycleFailed call
      { failed with events := failed.events.finishPersistence }

end World

/-- A reader takes output in: the Shell's run and its last run follow. -/
def Shell.observeOutput (shell : Shell) (runId : String) (revision : Nat) : Shell :=
  { shell with
    lastRun := shell.lastRun.map fun last =>
      if last.id = runId then { last with outputRevision := revision } else last
    lifecycle :=
      match shell.lifecycle with
      | .running profile run =>
          .running profile (if run.id = runId then { run with outputRevision := revision } else run)
      | lifecycle => lifecycle }

/-- Editing one Shell of the registry. -/
def Durable.modifyShell (d : Durable R) (shellId : String) (f : Shell → Shell) : Durable R :=
  match d.shells.get shellId with
  | some shell => { d with shells := d.shells.insert shellId (f shell) }
  | none => d

/-- Whether the ids that an operation makes up are new: of the runs it starts, the Shells it
creates and the Workspaces it creates. -/
def World.fresh (w : World R) (op : Operation R) : Bool :=
  let before := w.durable.state
  let outcome := op.run before
  let started := outcome.started.map (·.runId)
  started.Nodup &&
    started.all (fun runId =>
      w.readers.all (·.runId ≠ runId) &&
      before.shells.keys.all (fun id =>
        (before.shells.get id).all fun shell => shell.running?.all (·.id ≠ runId)) &&
      w.history.all (!·.endsRun runId)) &&
    outcome.state.shells.keys.all (fun id =>
      (before.shells.get id).isSome || w.history.all (!·.endsShell id)) &&
    outcome.state.workspaces.all (fun id =>
      id ∈ before.workspaces || w.history.all (!·.endsWorkspace id))

/-- One step; `none` if the action is not enabled. -/
def World.step (w : World R) : Action R → Option (World R)
  | .enter =>
      match w.holder with
      | .free => if w.stopping then none else some { w with holder := .entered }
      | _ => none
  | .mutate op captured =>
      match w.holder with
      | .flushed =>
          if w.persistFree && w.fresh op then
            some (w.mutate op w.events.reserveWithPending captured)
          else none
      | _ => none
  | .start op =>
      match w.holder with
      | .flushed =>
          if w.persistFree && w.fresh op then some (w.mutate op w.events.reserve true)
          else none
      | _ => none
  | .flushBegin byHolder captured =>
      if w.persistFree && (!byHolder || w.mayFlush) then some (w.flushBegin byHolder captured)
      else none
  | .flushWrite ok =>
      match w.flush with
      | some flush =>
          match flush.written with
          | none =>
              some { w with
                durable := w.durable.writePersistedState flush.saved ok
                flush := some { flush with written := some ok }
                saves := if ok then w.saves ++ [flush.saved] else w.saves }
          | some _ => none
      | none => none
  | .flushFinish =>
      match w.flush with
      | some flush => flush.written.map (w.flushFinish flush)
      | none => none
  | .exitBegin index =>
      match w.holder, w.readers[index]? with
      | .free, some reader =>
          if reader.phase = .ended ∧
              (w.durable.state.shells.get reader.shellId).any
                (runExitIsCurrent · reader.runId) = true ∧
              (w.persistFree ∨ w.lifecycleActive = false) then
            some { w with holder := .exiting index }
          else none
      | _, _ => none
  | .exitRecord code captured =>
      match w.holder with
      | .exiting index => if w.persistFree then some (w.exitRecord index code captured) else none
      | _ => none
  | .lifecycleBegin call =>
      match w.holder with
      | .free => if w.stopping then none else w.lifecycleBegin call
      | _ => none
  | .stopShell outcome =>
      match w.holder with
      | .stopping call shells (id :: remaining) stopped =>
          match w.stopRuntime id outcome with
          | (.ok (), w) =>
              some { w with holder := .stopping call shells remaining (stopped ++ [id]) }
          | (.error ended, w) =>
              some { w with
                holder := .compensating call (if ended then stopped ++ [id] else stopped) }
      | _ => none
  | .compensate =>
      match w.holder with
      | .compensating call stopped => some ((w.compensateStopped stopped).lifecycleFailed call)
      | _ => none
  | .lifecycleApply failure =>
      match w.holder with
      | .finalizing call shells =>
          if w.persistFree then some (w.lifecycleApply call shells failure) else none
      | _ => none
  | .write ok =>
      match w.holder with
      | .window window => if window.written.isNone then some (w.write window ok) else none
      | _ => none
  | .finish =>
      match w.holder with
      | .window window => window.written.map (w.finish window)
      | _ => none
  | .publish kinds =>
      if kinds.all (·.ofRuntime) then
        some { w with events := (w.events.publishRuntimeBatch kinds).2 }
      else none
  | .readOutput index =>
      match w.readers[index]? with
      | some reader =>
          if reader.phase = .reading then
            match checkedAdd reader.revision 1 with
            | some revision =>
                some { w with
                  readers := w.readers.modify index
                    ({ · with revision := revision, pending := some revision })
                  durable := w.durable.edit (.silent
                    (·.modifyShell reader.shellId (·.observeOutput reader.runId revision))) }
            | none =>
                some { w with readers := w.readers.modify index ({ · with phase := .draining }) }
          else none
      | none => none
  | .publishOutput index =>
      if (w.readers[index]?.map (·.phase)) = some .reading then
        w.publishFrom index id ({ · with phase := .draining })
      else none
  | .leaveLoop index =>
      if (w.readers[index]?.map (·.phase)) = some .reading then
        some { w with readers := w.readers.modify index ({ · with phase := .draining }) }
      else none
  | .publishLast index =>
      if (w.readers[index]?.map (·.phase)) = some .draining then
        w.publishFrom index ({ · with phase := .ended }) ({ · with phase := .stopped })
      else none
  | .checkpointTerminalHistory shellId runId history =>
      match (w.durable.state.shells.get shellId).bind Shell.lastRun with
      | some last =>
          if last.id = runId ∧ last.terminalHistory ≠ some history then
            let checkpoint (shell : Shell) : Shell :=
              { shell with lastRun := some { last with terminalHistory := some history } }
            some { w with
              durable :=
                (w.durable.edit (.silent (·.modifyShell shellId checkpoint))).markPersistenceDirty }
          else none
      | none => none
  | .restartShell shellId =>
      match w.holder, (w.durable.state.shells.get shellId).map Shell.lifecycle with
      | .free, some (.exited ..) =>
          if w.stopping then none
          else
            some { w with
              durable := w.durable.edit
                (.silent (·.modifyShell shellId ({ · with lifecycle := .pending }))) }
      | _, _ => none

/-! ## The steps, one by one -/

/-- `World.step` as a relation: every enabled action with what its guard says. -/
inductive World.Step (w : World R) : Action R → World R → Prop
  | enter (hh : w.holder = .free) : Step w .enter { w with holder := .entered }
  | mutate (op : Operation R) (captured : Bool) (hh : w.holder = .flushed)
      (hfree : w.persistFree = true) (hfresh : w.fresh op = true) :
      Step w (.mutate op captured) (w.mutate op w.events.reserveWithPending captured)
  | start (op : Operation R) (hh : w.holder = .flushed)
      (hfree : w.persistFree = true) (hfresh : w.fresh op = true) :
      Step w (.start op) (w.mutate op w.events.reserve true)
  | flushBegin (byHolder captured : Bool) (hfree : w.persistFree = true)
      (hm : byHolder = true → w.mayFlush = true) :
      Step w (.flushBegin byHolder captured) (w.flushBegin byHolder captured)
  | flushWrite (ok : Bool) (flush : Flush R) (hf : w.flush = some flush)
      (hw : flush.written = none) :
      Step w (.flushWrite ok) { w with
        durable := w.durable.writePersistedState flush.saved ok
        flush := some { flush with written := some ok }
        saves := if ok then w.saves ++ [flush.saved] else w.saves }
  | flushFinish (flush : Flush R) (written : Bool) (hf : w.flush = some flush)
      (hw : flush.written = some written) : Step w .flushFinish (w.flushFinish flush written)
  | exitBegin (index : Nat) (reader : Reader) (hh : w.holder = .free)
      (hr : w.readers[index]? = some reader) (hphase : reader.phase = .ended) :
      Step w (.exitBegin index) { w with holder := .exiting index }
  | exitRecord (index : Nat) (code : Option Nat) (captured : Bool)
      (hh : w.holder = .exiting index) (hfree : w.persistFree = true) :
      Step w (.exitRecord code captured) (w.exitRecord index code captured)
  | lifecycleBegin (call : LifecycleCall R) (shells : List String) (hh : w.holder = .free)
      (hs : call.selectShells w.durable.state = some shells) :
      Step w (.lifecycleBegin call) { w with
        events := w.events.beginLifecycleReservation
          (max (call.committedEvents w.durable.state shells).length shells.length)
        stopping := call.stopping || w.stopping
        lifecycleActive := true
        holder := .stopping call shells shells [] }
  | stopShell (outcome : StopOutcome) (call : LifecycleCall R) (shells : List String)
      (id : String) (remaining stopped : List String)
      (hh : w.holder = .stopping call shells (id :: remaining) stopped)
      (hr : (w.stopRuntime id outcome).1 = .ok ()) :
      Step w (.stopShell outcome) { (w.stopRuntime id outcome).2 with
        holder := .stopping call shells remaining (stopped ++ [id]) }
  | stopShellError (outcome : StopOutcome) (call : LifecycleCall R) (shells : List String)
      (id : String) (remaining stopped : List String) (ended : Bool)
      (hh : w.holder = .stopping call shells (id :: remaining) stopped)
      (hr : (w.stopRuntime id outcome).1 = .error ended) :
      Step w (.stopShell outcome) { (w.stopRuntime id outcome).2 with
        holder := .compensating call (if ended then stopped ++ [id] else stopped) }
  | compensate (call : LifecycleCall R) (stopped : List String)
      (hh : w.holder = .compensating call stopped) :
      Step w .compensate ((w.compensateStopped stopped).lifecycleFailed call)
  | lifecycleApply (failure : Option LifecycleFailure) (call : LifecycleCall R)
      (shells : List String) (hh : w.holder = .finalizing call shells)
      (hfree : w.persistFree = true) :
      Step w (.lifecycleApply failure) (w.lifecycleApply call shells failure)
  | write (ok : Bool) (window : Window R) (hh : w.holder = .window window)
      (hw : window.written = none) : Step w (.write ok) (w.write window ok)
  | finish (window : Window R) (written : Bool) (hh : w.holder = .window window)
      (hw : window.written = some written) : Step w .finish (w.finish window written)
  | publish (kinds : List DaemonEventKind) (hk : ∀ kind ∈ kinds, kind.ofRuntime = true) :
      Step w (.publish kinds) { w with events := (w.events.publishRuntimeBatch kinds).2 }
  | readOutput (index : Nat) (reader : Reader) (revision : Nat)
      (hr : w.readers[index]? = some reader) (hphase : reader.phase = .reading) :
      Step w (.readOutput index) { w with
        readers := w.readers.modify index
          ({ · with revision := revision, pending := some revision })
        durable := w.durable.edit (.silent
          (·.modifyShell reader.shellId (·.observeOutput reader.runId revision))) }
  | leaveLoop (a : Action R) (index : Nat) (reader : Reader)
      (hr : w.readers[index]? = some reader) (hphase : reader.phase = .reading) :
      Step w a { w with readers := w.readers.modify index ({ · with phase := .draining }) }
  | publishOutput (index : Nat) (reader : Reader) (hr : w.readers[index]? = some reader)
      (hphase : reader.phase = .reading) (u : World R)
      (hu : w.publishFrom index id ({ · with phase := .draining }) = some u) :
      Step w (.publishOutput index) u
  | publishLast (index : Nat) (reader : Reader) (hr : w.readers[index]? = some reader)
      (hphase : reader.phase = .draining) (u : World R)
      (hu : w.publishFrom index ({ · with phase := .ended }) ({ · with phase := .stopped }) =
        some u) : Step w (.publishLast index) u
  | checkpointTerminalHistory (shellId runId history : String) (last : PersistedShellRun)
      (hl : (w.durable.state.shells.get shellId).bind Shell.lastRun = some last) :
      Step w (.checkpointTerminalHistory shellId runId history) { w with
        durable := (w.durable.edit (.silent (·.modifyShell shellId fun shell =>
          { shell with
            lastRun := some { last with
              terminalHistory := some history } }))).markPersistenceDirty }
  | restartShell (shellId : String) (hh : w.holder = .free)
      (hl : ∃ code profile run runtime,
        (w.durable.state.shells.get shellId).map Shell.lifecycle =
          some (.exited code profile run runtime)) :
      Step w (.restartShell shellId) { w with
        durable := w.durable.edit
          (.silent (·.modifyShell shellId ({ · with lifecycle := .pending }))) }

theorem World.Step.of_step {w u : World R} {a : Action R} (hs : w.step a = some u) :
    w.Step a u := by
  cases a with
  -- Each action is taken from one place of the holder, and the guards of `step` are the premises.
  | enter =>
      simp only [World.step] at hs
      split at hs
      next hh =>
        split at hs <;> cases hs
        exact .enter hh
      next => cases hs
  | mutate op captured =>
      simp only [World.step] at hs
      split at hs
      next hh =>
        split at hs <;> cases hs
        next hg => exact .mutate op captured hh (by simp_all) (by simp_all)
      next => cases hs
  | start op =>
      simp only [World.step] at hs
      split at hs
      next hh =>
        split at hs <;> cases hs
        next hg => exact .start op hh (by simp_all) (by simp_all)
      next => cases hs
  | flushBegin byHolder captured =>
      simp only [World.step] at hs
      split at hs <;> cases hs
      next hg => exact .flushBegin byHolder captured (by simp_all) (fun hb => by simp_all)
  | flushWrite ok =>
      simp only [World.step] at hs
      split at hs
      next flush hf =>
        split at hs <;> cases hs
        next hw => exact .flushWrite ok flush hf hw
      next => cases hs
  | flushFinish =>
      simp only [World.step] at hs
      split at hs
      next flush hf =>
        obtain ⟨written, hw, rfl⟩ := Option.map_eq_some_iff.mp hs
        exact .flushFinish flush written hf hw
      next => cases hs
  | exitBegin index =>
      simp only [World.step] at hs
      split at hs
      next reader hh hr =>
        split at hs <;> cases hs
        next hg => exact .exitBegin index reader hh hr hg.1
      next => cases hs
  | exitRecord code captured =>
      simp only [World.step] at hs
      split at hs
      next index hh =>
        split at hs <;> cases hs
        next hfree => exact .exitRecord index code captured hh hfree
      next => cases hs
  | lifecycleBegin call =>
      simp only [World.step] at hs
      split at hs
      next hh =>
        split at hs
        · cases hs
        · simp only [World.lifecycleBegin, Option.bind_eq_bind, Option.bind_eq_some_iff] at hs
          obtain ⟨shells, hsel, hs⟩ := hs
          split at hs <;> cases hs
          exact .lifecycleBegin call shells hh hsel
      next => cases hs
  | stopShell outcome =>
      simp only [World.step] at hs
      split at hs
      next call shells id remaining stopped hh =>
        split at hs
        next v hr =>
          cases hs
          -- The rule speaks of the result of the stop as a term, `step` of its value.
          have := World.Step.stopShell outcome call shells id remaining stopped hh (by rw [hr])
          rwa [hr] at this
        next ended v hr =>
          cases hs
          have := World.Step.stopShellError outcome call shells id remaining stopped ended hh
            (by rw [hr])
          rwa [hr] at this
      next => cases hs
  | compensate =>
      simp only [World.step] at hs
      split at hs
      next call stopped hh =>
        cases hs
        exact .compensate call stopped hh
      next => cases hs
  | lifecycleApply failure =>
      simp only [World.step] at hs
      split at hs
      next call shells hh =>
        split at hs <;> cases hs
        next hfree => exact .lifecycleApply failure call shells hh hfree
      next => cases hs
  | write ok =>
      simp only [World.step] at hs
      split at hs
      next window hh =>
        split at hs <;> cases hs
        next hw => exact .write ok window hh (Option.isNone_iff_eq_none.mp hw)
      next => cases hs
  | finish =>
      simp only [World.step] at hs
      split at hs
      next window hh =>
        obtain ⟨written, hw, rfl⟩ := Option.map_eq_some_iff.mp hs
        exact .finish window written hh hw
      next => cases hs
  | publish kinds =>
      simp only [World.step] at hs
      split at hs <;> cases hs
      next hk => exact .publish kinds (List.all_eq_true.mp hk)
  | readOutput index =>
      simp only [World.step] at hs
      split at hs
      next reader hr =>
        split at hs
        next hphase =>
          -- The reader reads on, or its loop ends.
          split at hs <;> cases hs
          · exact .readOutput index reader _ hr hphase
          · exact .leaveLoop _ index reader hr hphase
        next => cases hs
      next => cases hs
  | publishOutput index =>
      simp only [World.step] at hs
      split at hs
      next hphase =>
        obtain ⟨reader, hr, hp⟩ := Option.map_eq_some_iff.mp hphase
        exact .publishOutput index reader hr hp u hs
      next => cases hs
  | leaveLoop index =>
      simp only [World.step] at hs
      split at hs <;> cases hs
      next hphase =>
        obtain ⟨reader, hr, hp⟩ := Option.map_eq_some_iff.mp hphase
        exact .leaveLoop _ index reader hr hp
  | publishLast index =>
      simp only [World.step] at hs
      split at hs
      next hphase =>
        obtain ⟨reader, hr, hp⟩ := Option.map_eq_some_iff.mp hphase
        exact .publishLast index reader hr hp u hs
      next => cases hs
  | checkpointTerminalHistory shellId runId history =>
      simp only [World.step] at hs
      split at hs
      next last hl =>
        split at hs <;> cases hs
        exact .checkpointTerminalHistory shellId runId history last hl
      next => cases hs
  | restartShell shellId =>
      simp only [World.step] at hs
      split at hs
      next hh hl =>
        split at hs <;> cases hs
        exact .restartShell shellId hh ⟨_, _, _, _, hl⟩
      next => cases hs

end Boomux.Daemon
