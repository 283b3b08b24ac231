import Boomux.Handoff.Cursor

/-!
# Two daemons and the channel between them

The old daemon and the process it launches to replace it, each at its place in the handoff
exchange, and the messages in flight. An action is one step of one of them, a step of one of the
old daemon's connection handlers, a lost message or the death of a process. A step of an exchange
carries whether it succeeds: a read fails by a timeout or a closed channel, a write by a full
or closed one, an import for reasons of its own.

A reader is named by the run whose output it reads. Every step that needs the mutation lock is
possible only while the lock is free. The readers are gated in the replacement until it resumes
them. Three fields are not in the source and decide nothing but the fate of `evicted`:
`transferred`, the stream as `manifest` read it, `finalized`, whether FINALIZE was written, and
what clients of the old daemon were given.
-/

set_option autoImplicit false

namespace Boomux.Handoff

open Rust Daemon

/-! ## Messages -/

/-- What goes over the channel. `fragment` is what a failed write leaves of a longer message. -/
inductive Message
  | header
  | manifest (manifest : Manifest)
  | listener | runtimeLock | stateLock | opencodePidfd | pty | pidfd
  | reconstruction
  | fragment
  | ready | commit | prepared | finalize | committed | abort
  deriving DecidableEq, Repr

/-- What a failed write may leave in the channel: nothing of a single byte. -/
def Message.cut : Message → List Message
  | .header | .manifest _ | .reconstruction => [.fragment]
  | _ => []

/-- The messages that follow a manifest. -/
def Manifest.descriptors (m : Manifest) : List Message :=
  [.listener, .runtimeLock, .stateLock] ++ (m.opencodeRuntime.map fun _ => .opencodePidfd).toList ++
    m.runtimes.flatMap (fun _ => [.pty, .pidfd, .reconstruction]) ++
    m.exited.map (fun _ => .reconstruction)

/-- The messages before the replacement's first answer. -/
def Manifest.bootstrap (m : Manifest) : List Message := .header :: .manifest m :: m.descriptors

/-! ## The two daemons -/

/-- Where the old daemon is in `launch_replacement`. -/
inductive OldPhase
  /-- Not in `launch_replacement`. -/
  | serving
  /-- `prepare_handoff`, with the readers still to pause. -/
  | pausing (rest : List String)
  /-- Before `flush_pending`. -/
  | flush
  /-- In `flush_pending`, while the state is saved. -/
  | flushing (pending : List Batch)
  /-- Before `EventStream::manifest`. -/
  | takeManifest
  /-- Before the replacement is spawned. -/
  | collect (stream : EventStreamManifest)
  /-- Sending what comes before READY. -/
  | sending (rest : List Message)
  | readReady | writeCommit | readPrepared | writeFinalize | readCommitted
  /-- After an error: ABORT, then the replacement is killed and waited for. -/
  | writeAbort | kill
  /-- `cancel_stopping`, and the paused readers resume. -/
  | cancel
  /-- `launch_replacement` returned `Ok`. -/
  | handedOff
  /-- The process is gone. -/
  | exited
  deriving DecidableEq, Repr

structure OldDaemon where
  phase : OldPhase
  stopping : Bool
  /-- The readers of the runs, and whether they run. -/
  readers : List (String × Bool)
  /-- The runs whose CreateStartedShell call has committed and not yet resumed the reader. -/
  resuming : List String
  /-- The readers that `prepare_handoff` paused. -/
  paused : List String
  /-- The batch of a durable mutation that holds the mutation lock. -/
  committing : Option Batch
  events : EventTransaction

/-- Where the replacement is. -/
inductive NewPhase
  /-- Never spawned. -/
  | absent
  | readHeader | readManifest
  | readDescriptors (m : Manifest) (rest : List Message)
  /-- Checking the socket and the locks, and then READY. -/
  | writeReady (m : Manifest)
  | readDecision (m : Manifest)
  /-- `run_daemon` up to the import of the last transferred part. -/
  | importing (m : Manifest)
  | writePrepared | readFinal
  /-- After FINALIZE: arm the socket cleanup, publish, resume the readers, COMMITTED. -/
  | arm | publish
  | resume (rest : List String)
  | writeCommitted
  | serving
  /-- The process is gone. -/
  | exited
  deriving DecidableEq, Repr

structure NewDaemon where
  phase : NewPhase
  /-- The readers that the import created. -/
  gated : List String
  /-- The readers that were resumed. -/
  resumed : List String
  armed : Bool
  published : Bool
  finalizeRead : Bool
  events : EventTransaction

/-- No stream yet. -/
def NewDaemon.events₀ : EventTransaction := ⟨.idle, fromTransfer "" none []⟩

/-- A process that has just been spawned. -/
def NewDaemon.spawned : NewDaemon := ⟨.readHeader, [], [], false, false, false, events₀⟩

/-- Both daemons and the channel. -/
structure Exchange where
  old : OldDaemon
  new : NewDaemon
  toNew : List Message
  toOld : List Message
  transferred : EventStreamState
  finalized : Bool
  delivered : List DaemonEvent
  cursors : List EventCursor

inductive ExchangeAction
  /-- An attach call starts a run, and resumes its reader before it releases the lock. -/
  | start (runId : String)
  /-- A CreateStartedShell call commits and releases the lock. -/
  | createStarted (runId : String)
  /-- Its last step, without the lock: `resume_reader`. -/
  | resumeStarted (runId : String)
  /-- A lifecycle call stops a run. -/
  | stop (runId : String)
  /-- A reader sees its run end. -/
  | runEnds (runId : String)
  /-- A durable mutation takes the lock and begins to save the state. -/
  | beginCommit (batch : Batch)
  /-- The mutation appends its events, or could not save the state. -/
  | endCommit (saved : Bool)
  /-- A handler of the old daemon publishes runtime events. -/
  | publish (kinds : List DaemonEventKind)
  /-- A client of the old daemon takes a turn of `read_after`. -/
  | read (after : EventCursor) (limit : Nat) (waited stopping : Bool)
  /-- A client of the old daemon is given the current cursor. -/
  | snapshot
  /-- `launch_replacement` takes the lock. -/
  | launch
  /-- Its next step. -/
  | old (ok : Bool)
  /-- It has collected this manifest, and spawns the replacement. -/
  | spawn (m : Manifest)
  /-- The old daemon leaves after it has handed off, when its handlers are done. -/
  | leave
  | oldDies
  /-- The next step of the replacement. -/
  | new (ok : Bool)
  | newDies
  /-- A message to the replacement, or to the old daemon, is lost. -/
  | loseToNew (index : Nat)
  | loseToOld (index : Nat)
  /-- A handler of the replacement publishes runtime events. -/
  | newPublish (kinds : List DaemonEventKind)

/-- The steps of the connection handlers and clients of the old daemon. -/
def ExchangeAction.handler : ExchangeAction → Bool
  | .start _ | .createStarted _ | .resumeStarted _ | .stop _ | .runEnds _ | .beginCommit _
  | .endCommit _ | .publish _ | .read .. | .snapshot => true
  | _ => false

/-! ## Steps of the old daemon -/

/-- The reader of `runId` runs, or not. -/
def OldDaemon.setReader (old : OldDaemon) (running : Bool) (runId : String) : OldDaemon :=
  { old with readers := old.readers.map fun r => if r.1 = runId then (r.1, running) else r }

/-- `ensure_running`, with the mutation lock free. -/
def OldDaemon.free (old : OldDaemon) : Prop :=
  old.phase = .serving ∧ old.stopping = false ∧ old.committing = none

instance (old : OldDaemon) : Decidable old.free := by
  unfold OldDaemon.free
  infer_instance

/-- Whether the process is there. -/
def OldDaemon.alive (old : OldDaemon) : Bool := old.phase ≠ .exited

/-- The process is gone, and its threads with it. -/
def OldDaemon.gone (old : OldDaemon) : OldDaemon :=
  { old with phase := .exited, readers := [], resuming := [] }

namespace Exchange

variable (s : Exchange)

/-- The old daemon goes on at `phase`. -/
def oldAt (phase : OldPhase) : Exchange := { s with old := { s.old with phase } }

/-- The old daemon writes a message. -/
def write (ok : Bool) (message : Message) (next : OldPhase) : Exchange :=
  if ok then { s.oldAt next with toNew := s.toNew ++ [message] }
  else { s.oldAt .writeAbort with toNew := s.toNew ++ message.cut }

/-- The old daemon reads an answer. -/
def read (ok : Bool) (expected : Message) (next : OldPhase) : Option Exchange :=
  if ok then
    match s.toOld with
    | [] => none
    | message :: rest =>
        some { s.oldAt (if message = expected then next else .writeAbort) with toOld := rest }
  else some (s.oldAt .writeAbort)

/-- `flush_pending` up to the save. -/
def beginFlush : Exchange :=
  let x := s.old.events
  match x.reserveWithPending 0 with
  | .error _ => s.oldAt .cancel
  | .ok () =>
      { s with
        old := { s.old with
          phase := .flushing x.pending
          events := x.takePendingDurable.beginPersistence x.pendingDurableEventCount } }

/-- `flush_pending` after the save. -/
def endFlush (ok : Bool) (pending : List Batch) : Exchange :=
  let x := s.old.events
  if ok then
    match x.reserveWithPending 0 with
    | .error _ => s.oldAt .cancel
    | .ok () =>
        { s with
          old := { s.old with
            phase := .takeManifest
            events := (pending.foldl EventTransaction.appendBatch x).finishPersistence } }
  else
    { s with
      old := { s.old with
        phase := .cancel, events := (x.restorePendingDurable pending).finishPersistence } }

/-- The next step of `launch_replacement`. -/
def oldStep (ok : Bool) : Option Exchange :=
  match s.old.phase with
  | .serving | .handedOff | .exited => none
  -- the lock, the runtimes or the holders cannot be exported; else `spawn` comes next
  | .collect _ => if ok then none else some (s.oldAt .cancel)
  | .pausing [] => some (s.oldAt .flush)
  | .pausing (runId :: rest) =>
      if ok then
        some { s with
          old := { s.old.setReader false runId with
            phase := .pausing rest, paused := s.old.paused ++ [runId] } }
      else some (s.oldAt .cancel)
  | .flush => if ok then some s.beginFlush else some (s.oldAt .cancel)
  | .flushing pending => some (s.endFlush ok pending)
  | .takeManifest =>
      if ok then
        some { s.oldAt (.collect (manifest s.old.events.events)) with
          transferred := s.old.events.events }
      else some (s.oldAt .cancel)
  | .sending [] => some (s.oldAt .readReady)
  | .sending (message :: rest) => some (s.write ok message (.sending rest))
  | .readReady => s.read ok .ready .writeCommit
  | .writeCommit => some (s.write ok .commit .readPrepared)
  | .readPrepared => s.read ok .prepared .writeFinalize
  | .writeFinalize => some { s.write ok .finalize .readCommitted with finalized := ok }
  -- whatever the read returns, the old daemon has handed off
  | .readCommitted => some (s.oldAt .handedOff)
  | .writeAbort => some (s.write ok .abort .kill |>.oldAt .kill)
  | .kill => some { s.oldAt .cancel with new := { s.new with phase := .exited } }
  | .cancel =>
      some { s with
        old := { (if ok then s.old.paused.foldl (·.setReader true) s.old else s.old) with
          phase := .serving, stopping := false } }

/-! ## Steps of the replacement -/

/-- The replacement goes on at `phase`. -/
def newAt (phase : NewPhase) : Exchange := { s with new := { s.new with phase } }

/-- The replacement reads a message, and goes on with it. -/
def hear (ok : Bool) (next : Exchange → Message → Exchange) : Option Exchange :=
  if ok then
    match s.toNew with
    | [] => none
    | message :: rest => some (next { s with toNew := rest } message)
  else some (s.newAt .exited)

/-- The replacement answers. -/
def reply (ok : Bool) (message : Message) (next : NewPhase) : Exchange :=
  if ok then { s.newAt next with toOld := s.toOld ++ [message] } else s.newAt .exited

/-- `validate_manifest`, and the descriptors come next. -/
def hearManifest (message : Message) : Exchange :=
  match message with
  | .manifest m =>
      match m.validateManifest with
      | .ok () => s.newAt (.readDescriptors m m.descriptors)
      | .error _ => s.newAt .exited
  | _ => s.newAt .exited

/-- The decision of the bootstrap. -/
def hearDecision (m : Manifest) (message : Message) : Exchange :=
  match message with
  | .commit => s.newAt (.importing m)
  | _ => s.newAt .exited

/-- `run_daemon` up to `reserve(1)`: the readers are created, all of them paused. -/
def importHandoff (m : Manifest) : Exchange :=
  let events : EventTransaction :=
    ⟨.idle, fromTransfer "" (some m.eventStream) s.transferred.evicted⟩
  match events.reserve 1 with
  | .error _ => s.newAt .exited
  | .ok () =>
      { s with new := { s.new with phase := .writePrepared, gated := m.runtimeRunIds, events } }

/-- The final decision. -/
def hearFinal (message : Message) : Exchange :=
  match message with
  | .finalize => { s with new := { s.new with phase := .arm, finalizeRead := true } }
  | _ => s.newAt .exited

/-- The publication of HandoffCompleted, whose error ends the replacement. -/
def publishCompleted : Exchange :=
  match s.new.events.publishRuntimeBatch [.handoffCompleted] with
  | (.error _, _) => s.newAt .exited
  | (.ok (), events) =>
      { s with new := { s.new with phase := .resume s.new.gated, published := true, events } }

/-- The next step of the replacement. -/
def newStep (ok : Bool) : Option Exchange :=
  match s.new.phase with
  | .absent | .serving | .exited => none
  | .readHeader =>
      s.hear ok fun s message => s.newAt (if message = .header then .readManifest else .exited)
  | .readManifest => s.hear ok hearManifest
  | .readDescriptors m [] => some (s.newAt (.writeReady m))
  | .readDescriptors m (expected :: rest) =>
      s.hear ok fun s message =>
        s.newAt (if message = expected then .readDescriptors m rest else .exited)
  | .writeReady m => some (s.reply ok .ready (.readDecision m))
  | .readDecision m => s.hear ok fun s message => s.hearDecision m message
  | .importing m => some (if ok then s.importHandoff m else s.newAt .exited)
  | .writePrepared => some (s.reply ok .prepared .readFinal)
  | .readFinal => s.hear ok hearFinal
  | .arm => some { s with new := { s.new with phase := .publish, armed := true } }
  | .publish => some s.publishCompleted
  | .resume [] => some (s.newAt .writeCommitted)
  | .resume (runId :: rest) =>
      if ok then
        some { s with
          new := { s.new with phase := .resume rest, resumed := s.new.resumed ++ [runId] } }
      else some (s.newAt .exited)
  -- a failure to report COMMITTED is ignored
  | .writeCommitted => some { s.reply ok .committed .serving with new.phase := .serving }

/-! ## Steps -/

/-- What a client of the old daemon is given. -/
def deliver : Option (Except DaemonError EventsResponse) → Exchange
  | some (.ok response) =>
      { s with
        delivered := s.delivered ++ response.events, cursors := response.cursor :: s.cursors }
  | _ => s

/-- One step. -/
def step : ExchangeAction → Option Exchange
  | .start runId =>
      if s.old.free ∧ runId ∉ s.old.readers.map (·.1) ∧ runId ∉ s.old.resuming then
        some { s with old := { s.old with readers := s.old.readers ++ [(runId, true)] } }
      else none
  | .createStarted runId =>
      if s.old.free ∧ runId ∉ s.old.readers.map (·.1) ∧ runId ∉ s.old.resuming then
        some { s with
          old := { s.old with
            readers := s.old.readers ++ [(runId, false)]
            resuming := s.old.resuming ++ [runId] } }
      else none
  | .resumeStarted runId =>
      if runId ∈ s.old.resuming then
        some { s with
          old := { s.old.setReader true runId with
            resuming := s.old.resuming.filter (· ≠ runId) } }
      else none
  | .stop runId =>
      if s.old.free then
        some { s with old := { s.old with readers := s.old.readers.filter (·.1 ≠ runId) } }
      else none
  | .runEnds runId =>
      if (runId, true) ∈ s.old.readers then
        some { s with old := { s.old with readers := s.old.readers.filter (·.1 ≠ runId) } }
      else none
  | .beginCommit batch =>
      if s.old.free ∧ (s.old.events.reserveWithPending batch.kinds.length).toOption.isSome then
        some { s with
          old := { s.old with
            committing := some batch
            events := s.old.events.beginPersistence batch.kinds.length } }
      else none
  | .endCommit saved =>
      match s.old.committing with
      | none => none
      | some batch =>
          if s.old.alive then
            some { s with
              old := { s.old with
                committing := none
                events := (if saved then s.old.events.appendBatch batch
                  else s.old.events).finishPersistence } }
          else none
  | .publish kinds =>
      if s.old.alive then
        some { s with old := { s.old with events := (s.old.events.publishRuntimeBatch kinds).2 } }
      else none
  | .read after limit waited stopping =>
      if s.old.alive then
        some (s.deliver (readAfterTurn s.old.events.events after limit waited stopping))
      else none
  | .snapshot =>
      if s.old.alive then some { s with cursors := s.old.events.cursor :: s.cursors } else none
  | .launch =>
      if s.old.free then
        some { s with
          old := { s.old with
            phase := .pausing (s.old.readers.map (·.1)), stopping := true, paused := [] } }
      else none
  | .old ok => s.oldStep ok
  | .spawn m =>
      match s.old.phase with
      | .collect stream =>
          if m.eventStream = stream ∧ m.runtimeRunIds = s.old.paused then
            some { s.oldAt (.sending m.bootstrap) with
              new := .spawned, toNew := [], toOld := [] }
          else none
      | _ => none
  | .leave =>
      if s.old.phase = .handedOff ∧ s.old.resuming = [] then some { s with old := s.old.gone }
      else none
  | .oldDies => some { s with old := s.old.gone }
  | .new ok => s.newStep ok
  | .newDies => some { s with new := { s.new with phase := .exited, resumed := [] } }
  | .loseToNew index => some { s with toNew := s.toNew.eraseIdx index }
  | .loseToOld index => some { s with toOld := s.toOld.eraseIdx index }
  | .newPublish kinds =>
      if s.new.phase = .serving then
        some { s with new := { s.new with events := (s.new.events.publishRuntimeBatch kinds).2 } }
      else none

/-- An old daemon with this stream, and nothing else. -/
def init (stream : EventStreamState) : Exchange where
  old := ⟨.serving, false, [], [], [], none, ⟨.idle, stream⟩⟩
  new := ⟨.absent, [], [], false, false, false, NewDaemon.events₀⟩
  toNew := []
  toOld := []
  transferred := stream
  finalized := false
  delivered := []
  cursors := []

/-! ## What a step of the old daemon leaves as it is -/

/-- What a step of `launch_replacement` changes at most, and when. -/
structure OldFrame (s t : Exchange) : Prop where
  finalized : s.old.phase ≠ .writeFinalize → t.finalized = s.finalized
  transferred : s.old.phase ≠ .takeManifest → t.transferred = s.transferred
  delivered : t.delivered = s.delivered
  cursors : t.cursors = s.cursors
  committing : t.old.committing = s.old.committing
  new : t.new = s.new ∨ s.old.phase = .kill ∧ t.new = { s.new with phase := .exited }
  events : Extends s.old.events.events t.old.events.events

section

variable {s t : Exchange}

/-- Steps that only move the old daemon on. -/
theorem OldFrame.move (hfinalized : s.old.phase ≠ .writeFinalize → t.finalized = s.finalized)
    (htransferred : t.transferred = s.transferred) (hdelivered : t.delivered = s.delivered)
    (hcursors : t.cursors = s.cursors) (hcommitting : t.old.committing = s.old.committing)
    (hnew : t.new = s.new) (hevents : t.old.events = s.old.events) : s.OldFrame t where
  finalized := hfinalized
  transferred _ := htransferred
  delivered := hdelivered
  cursors := hcursors
  committing := hcommitting
  new := .inl hnew
  events := hevents ▸ .refl _

theorem oldAt_frame (phase : OldPhase) : s.OldFrame (s.oldAt phase) :=
  .move (fun _ => rfl) rfl rfl rfl rfl rfl rfl

theorem write_frame (ok : Bool) (message : Message) (next : OldPhase) :
    s.OldFrame (s.write ok message next) := by
  unfold write
  split <;> exact .move (fun _ => rfl) rfl rfl rfl rfl rfl rfl

theorem read_frame {ok : Bool} {expected : Message} {next : OldPhase}
    (hs : s.read ok expected next = some t) : s.OldFrame t := by
  unfold read at hs
  split at hs
  · split at hs
    · cases hs
    · cases hs
      exact .move (fun _ => rfl) rfl rfl rfl rfl rfl rfl
  · cases hs
    exact oldAt_frame _

theorem beginFlush_frame : s.OldFrame s.beginFlush := by
  unfold beginFlush
  simp only
  split
  · exact oldAt_frame _
  · exact ⟨fun _ => rfl, fun _ => rfl, rfl, rfl, rfl, .inl rfl, .refl _⟩

theorem endFlush_frame (ok : Bool) (pending : List Batch) : s.OldFrame (s.endFlush ok pending) := by
  unfold endFlush
  simp only
  split
  · split
    · exact oldAt_frame _
    · exact ⟨fun _ => rfl, fun _ => rfl, rfl, rfl, rfl, .inl rfl,
        (Extends.foldl_appendBatch pending s.old.events).trans (.finishPersistence _)⟩
  · exact ⟨fun _ => rfl, fun _ => rfl, rfl, rfl, rfl, .inl rfl,
      Extends.finishPersistence (s.old.events.restorePendingDurable pending)⟩

theorem oldStep_frame {ok : Bool} (hs : s.oldStep ok = some t) : s.OldFrame t := by
  unfold oldStep at hs
  split at hs
  · cases hs
  · cases hs
  · cases hs
  · split at hs
    · cases hs
    · cases hs
      exact oldAt_frame _
  · cases hs
    exact oldAt_frame _
  · split at hs
    · cases hs
      exact .move (fun _ => rfl) rfl rfl rfl rfl rfl rfl
    · cases hs
      exact oldAt_frame _
  · split at hs
    · cases hs
      exact beginFlush_frame
    · cases hs
      exact oldAt_frame _
  · cases hs
    exact endFlush_frame ok _
  next hphase =>
    -- The manifest is the one place where the transferred stream is set.
    split at hs
    · cases hs
      exact ⟨fun _ => rfl, fun h => absurd hphase h, rfl, rfl, rfl, .inl rfl, .refl _⟩
    · cases hs
      exact oldAt_frame _
  · cases hs
    exact oldAt_frame _
  · cases hs
    exact write_frame ok _ _
  · exact read_frame hs
  · cases hs
    exact write_frame ok _ _
  · exact read_frame hs
  next hphase =>
    -- The finalize message is the one that makes the old daemon's end definite.
    cases hs
    have hw := s.write_frame ok .finalize .readCommitted
    exact ⟨fun h => absurd hphase h, hw.transferred, hw.delivered, hw.cursors, hw.committing,
      hw.new, hw.events⟩
  · cases hs
    exact oldAt_frame _
  · cases hs
    have hw := s.write_frame ok .abort .kill
    exact ⟨hw.finalized, hw.transferred, hw.delivered, hw.cursors, hw.committing, hw.new,
      hw.events⟩
  next hphase =>
    -- The replacement is killed here.
    cases hs
    exact ⟨fun _ => rfl, fun _ => rfl, rfl, rfl, rfl, .inr ⟨hphase, rfl⟩, .refl _⟩
  · cases hs
    -- The readers resume, and the stream and the batch in commit stay.
    have hresume : ∀ (paused : List String) (old : OldDaemon),
        (paused.foldl (·.setReader true) old).committing = old.committing ∧
          (paused.foldl (·.setReader true) old).events = old.events := by
      intro paused
      induction paused with
      | nil => exact fun _ => ⟨rfl, rfl⟩
      | cons runId paused ih => exact fun old => ih (old.setReader true runId)
    refine .move (fun _ => rfl) rfl rfl rfl ?_ rfl ?_
    · cases ok
      · rfl
      · exact (hresume s.old.paused s.old).1
    · cases ok
      · rfl
      · exact (hresume s.old.paused s.old).2

end

/-! ## Steps of the handlers -/

/-- What a step of a handler or a client of the old daemon leaves as it is. -/
structure Handled (s t : Exchange) : Prop where
  phase : t.old.phase = s.old.phase
  new : t.new = s.new
  toNew : t.toNew = s.toNew
  toOld : t.toOld = s.toOld
  transferred : t.transferred = s.transferred
  finalized : t.finalized = s.finalized

theorem handled {s t : Exchange} {action : ExchangeAction} (ha : action.handler = true)
    (hs : s.step action = some t) : s.Handled t := by
  have same : s.Handled s := ⟨rfl, rfl, rfl, rfl, rfl, rfl⟩
  cases action with
  | start runId | createStarted runId | resumeStarted runId | stop runId | runEnds runId
  | beginCommit batch | publish kinds | snapshot =>
      simp only [step, Option.ite_none_right_eq_some, Option.some.injEq] at hs
      obtain ⟨-, rfl⟩ := hs
      exact ⟨rfl, rfl, rfl, rfl, rfl, rfl⟩
  | endCommit saved =>
      simp only [step] at hs
      split at hs
      · cases hs
      · simp only [Option.ite_none_right_eq_some, Option.some.injEq] at hs
        obtain ⟨-, rfl⟩ := hs
        exact ⟨rfl, rfl, rfl, rfl, rfl, rfl⟩
  | read after limit waited stopping =>
      simp only [step, Option.ite_none_right_eq_some, Option.some.injEq] at hs
      obtain ⟨-, rfl⟩ := hs
      unfold deliver
      split
      · exact ⟨rfl, rfl, rfl, rfl, rfl, rfl⟩
      · exact same
  | _ => cases ha

end Exchange

end Boomux.Handoff
