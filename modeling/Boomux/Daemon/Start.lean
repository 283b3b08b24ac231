import Boomux.Daemon.Error
import Boomux.Daemon.Output

/-!
# Starting runs

The two paths that start a run of a pending Shell: `handle_attach` and `recover_shells`. Both hold
the mutation lock and the persist lock from the moment their `flush_pending` has returned, which is
where the definitions begin; while the state is being saved only runtime events can come in between.
What the environment answers (the spawned process, its reader, the journal, the writer, and how
stopping a process goes) is an argument of the definitions.

`StartWorld.effects` is not in the source: it lists what was saved, journaled and appended, in
order.
-/

set_option autoImplicit false

namespace Boomux.Daemon

open Rust

variable {R : Type}

/-! ## The local Shell journal -/

/-- `LocalShellJournalRecord`; of a creation only its Shell is looked at. -/
inductive LocalShellJournalRecord
  | create (shellId : String)
  | start (shellId : String) (run : PersistedShellRun)
  deriving DecidableEq, Repr

/-- `JournalState`. -/
structure LocalShellJournal where
  records : List LocalShellJournalRecord
  failed : Bool
  deriving DecidableEq, Repr

/-- The loop of `validate_sequence`, with its two maps. -/
def validateSequence (generations : AList fun _ : String => Nat) (runIds : List String) :
    List LocalShellJournalRecord → Bool
  | [] => true
  | .create shellId :: records =>
      (generations.lookup shellId).isNone &&
        validateSequence (generations.insert shellId 0) runIds records
  | .start shellId run :: records =>
      match (generations.lookup shellId).bind (checkedAdd · 1) with
      | none => false
      | some expected =>
          run.generation = expected && run.exitReason.isNone && run.id ∉ runIds &&
            validateSequence (generations.insert shellId expected) (run.id :: runIds) records

/-- What an append does to the file: it is written; it exceeds the limit, or fails and is taken
back; or taking it back fails as well. -/
inductive AppendIo
  | written
  | refused (error : IoError)
  | ambiguous (error : IoError)
  deriving DecidableEq, Repr

namespace LocalShellJournal

variable (journal : LocalShellJournal)

/-- `ensure_usable`. -/
def ensureUsable : Except IoError Unit :=
  if journal.failed then
    .error (.ofMessage "local Shell transaction journal has an ambiguous failed append")
  else .ok ()

/-- `contains_create`. -/
def containsCreate (shellId : String) : Except IoError Bool :=
  journal.ensureUsable.map fun () => journal.records.any fun record => record = .create shellId

/-- `append`. -/
def append (record : LocalShellJournalRecord) (io : AppendIo) :
    Except IoError Unit × LocalShellJournal :=
  match journal.ensureUsable with
  | .error error => (.error error, journal)
  | .ok () =>
      if validateSequence ∅ [] (journal.records ++ [record]) then
        match io with
        | .written => (.ok (), { journal with records := journal.records ++ [record] })
        | .refused error => (.error error, journal)
        | .ambiguous error => (.error error, { journal with failed := true })
      else
        (.error ⟨.invalidData, "local Shell journal contains an invalid run sequence"⟩, journal)

end LocalShellJournal

/-! ## The state of a start -/

/-- What a start leaves outside of the daemon's memory, or in the log. -/
inductive StartEffect
  | saved (shells : Shells)
  | journaled (record : LocalShellJournalRecord)
  | appended (kinds : List DaemonEventKind)

/-- What a start reads and changes. -/
structure StartWorld (R : Type) where
  durable : DurableRegistry R
  events : EventTransaction
  journal : Option LocalShellJournal
  /-- the number of the next transition -/
  next : Nat
  effects : List StartEffect

/-- What the environment answers to the start of one process; `none` is success. `prepareError` is
the result of the lookups of its Workspace and its agent. -/
structure StartOutcome where
  prepareError : Option IoError
  spawnError : Option IoError
  readerError : Option IoError
  deriving DecidableEq, Repr

/-- How a call that starts runs ends. After `done` its runs are durable, and the client is told the
answer, or else the error of a reader that could not be resumed. -/
inductive StartResult (α : Type)
  | failed (error : DaemonError)
  | done (answer : α) (resumeError : Option DaemonError)

/-- How `stop_runtime` of the process goes, with the text of its error. -/
structure Cleanup where
  outcome : StopOutcome
  error : String
  deriving DecidableEq, Repr

/-- The first generation, or the one above the previous run. -/
def nextGeneration : Option PersistedShellRun → Option Nat
  | none => some 1
  | some run => checkedAdd run.generation 1

/-- `kill_with_event`, without the event, which every caller here drops: the Shell, and the text of
the error. The reader of a new run is still paused and has nothing to publish, so `stop_runtime`
changes no event. -/
def killShell (shellId : String) (shell : Shell) (cleanup : Cleanup) : Shell × Option String :=
  match shell.lifecycle, cleanup.outcome with
  | .running .., .pauseFailed | .running .., .killFailed => (shell, some cleanup.error)
  | .running .., .cleanupFailed =>
      ((finalizeStop shellId shell).1, some (cleanup.error ++ "; run exit was finalized"))
  | _, _ => ((finalizeStop shellId shell).1, none)

namespace StartWorld

variable (w : StartWorld R)

abbrev shells : Shells := w.durable.state.shells

def modifyShell (shellId : String) (f : Shell → Shell) : StartWorld R :=
  { w with durable := { w.durable with state := w.durable.state.modifyShell shellId f } }

/-- `spawn_runtime` has succeeded: the Shell is running, and its last run is the new one. -/
def startRun (shellId : String) (run : ShellRun) (profile : TerminalProfile) : StartWorld R :=
  w.modifyShell shellId fun shell =>
    { shell with lifecycle := .running profile run, lastRun := some (run.persisted profile) }

/-- `kill`. -/
def kill (shellId : String) (cleanup : Cleanup) : StartWorld R :=
  w.modifyShell shellId fun shell => (killShell shellId shell cleanup).1

/-- The error of `kill`. -/
def killError (shellId : String) (cleanup : Cleanup) : Option String :=
  (w.shells.get shellId).bind fun shell => (killShell shellId shell cleanup).2

/-- `begin_persistence`, and the runtime events that are published before the writer answers. -/
def beginPersistence (count : Nat) (meanwhile : List (List DaemonEventKind)) : StartWorld R :=
  { w with
    events := meanwhile.foldl (fun events kinds => (events.publishRuntimeBatch kinds).2)
      (w.events.beginPersistence count) }

/-- `finish_persistence`. -/
def finishPersistence : StartWorld R := { w with events := w.events.finishPersistence }

/-- `capture_persisted_state` and `write_persisted_state`. -/
def writePersistedState (saveError : Option IoError) : StartWorld R :=
  { w with
    durable := w.durable.writePersistedState w.durable.capturePersistedState saveError.isNone
    effects := if saveError.isNone then w.effects ++ [.saved w.shells] else w.effects }

/-- `append_batch` and `finish_persistence`. -/
def appendBatch (kinds : List DaemonEventKind) : StartWorld R :=
  { w with
    events := (w.events.appendBatch ⟨w.next, kinds⟩).finishPersistence
    next := w.next + 1
    effects := w.effects ++ [.appended kinds] }

end StartWorld

/-! ## Attaching -/

/-- The answers to an attach that starts a run. -/
structure AttachOutcome extends StartOutcome where
  cleanup : Cleanup
  appendIo : AppendIo
  saveError : Option IoError
  /-- of the checkpoint of the global Workspaces and of the reset of the journal -/
  checkpointError : Option IoError
  resetError : Option IoError
  meanwhile : List (List DaemonEventKind)
  /-- of `resume_reader`, after the locks are released -/
  resumeError : Option IoError

namespace StartWorld

variable (w : StartWorld R)

/-- Whether the Shell's creation is still in the journal. -/
def journaledStart (shellId : String) : Except IoError Bool :=
  match w.journal with
  | none => .ok false
  | some journal => journal.containsCreate shellId

/-- The full checkpoint that a failed append falls back to. -/
def fallback (o : AttachOutcome) : Option IoError × StartWorld R :=
  let written := w.writePersistedState o.saveError
  match o.saveError, o.checkpointError with
  | some error, _ => (some error, written)
  | none, some error => (some error, written)
  | none, none =>
      match o.resetError with
      | some error => (some error, written)
      | none => (none, { written with journal := w.journal.map fun _ => ⟨[], false⟩ })

/-- How a start becomes durable: through the journal if the creation is there, else by a save. -/
def persistStart (shellId : String) (run : PersistedShellRun) (journaled : Bool)
    (o : AttachOutcome) : Option IoError × StartWorld R :=
  match journaled, w.journal with
  | true, some journal =>
      let record := .start shellId run
      match journal.append record o.appendIo with
      | (.ok (), journal) =>
          (none, { w with journal := some journal, effects := w.effects ++ [.journaled record] })
      | (.error journalError, journal) =>
          let (error, w) := fallback { w with journal := some journal } o
          (error.map fun stateError => ⟨stateError.kind,
            "local Shell start journal failed: " ++ journalError.message ++
              "; state fallback also failed: " ++ stateError.message⟩, w)
  | _, _ => (o.saveError, w.writePersistedState o.saveError)

/-- The text of an error whose cleanup may have failed as well. -/
def withCleanup (message : String) (cleanup : Option String) : String :=
  match cleanup with
  | none => message
  | some error => message ++ "; process cleanup also failed: " ++ error

/-- `handle_attach`, as far as it concerns the start of a run; `runId` is the new UUID. -/
def attach (shellId : String) (profile : TerminalProfile) (runId : String) (o : AttachOutcome) :
    StartResult Unit × StartWorld R :=
  match w.shells.get shellId with
  | none => (.failed (.lifecycle .notFound ("shell not found: " ++ shellId)), w)
  | some shell =>
      match shell.lifecycle with
      | .running .. | .exited .. => (.done () none, w)
      | .closed => (.failed (.lifecycle .notFound ("shell not found: " ++ shellId)), w)
      | .pending =>
          match o.prepareError, w.journaledStart shellId, w.events.reserve 1,
            nextGeneration shell.lastRun, o.spawnError with
          | some error, _, _, _, _ | none, .error error, _, _, _
          | none, .ok _, .error error, _, _ => (.failed (.ofIo error), w)
          | _, _, _, none, _ => (.failed (.ofIo (.ofMessage "shell run generation exhausted")), w)
          | _, _, _, _, some error =>
              (.failed (.lifecycle .shellStartFailed
                ("could not start shell: " ++ error.message)), w)
          | none, .ok journaled, .ok (), some generation, none =>
              let run := ShellRun.new runId generation
              let started := w.startRun shellId run profile
              match o.readerError with
              | some error =>
                  (.failed (.lifecycle .shellStartFailed
                    (withCleanup ("could not start shell reader: " ++ error.message)
                      (started.killError shellId o.cleanup))),
                    (started.kill shellId o.cleanup).modifyShell shellId resetPending)
              | none =>
                  match (started.beginPersistence 1 o.meanwhile).persistStart shellId
                      (run.persisted profile) journaled o with
                  | (some error, failed) =>
                      (.failed (.persistenceContext error
                        (withCleanup ("could not persist started shell: " ++ error.message)
                          (failed.killError shellId o.cleanup))),
                        ((failed.kill shellId o.cleanup).modifyShell shellId
                          resetPending).finishPersistence)
                  | (none, saved) =>
                      (.done () (o.resumeError.map .ofIo),
                        saved.appendBatch [.runStarted shell.workspaceId shellId run])

end StartWorld

/-! ## Cold recovery -/

/-- `ShellRecoveryTarget`, with the new UUID and the answers to its start. -/
structure ShellRecoveryTarget where
  shellId : String
  expectedRunId : String
  profile : TerminalProfile
  runId : String
  outcome : StartOutcome
  deriving DecidableEq, Repr

/-- `ShellRecoveryResult`; of the snapshot of a started Shell only its run is kept. -/
inductive ShellRecoveryResult
  | started (shellId : String) (run : ShellRun)
  | unavailable (shellId : String) (error : DaemonError)
  deriving DecidableEq, Repr

/-- `StartedRecovery`. -/
structure StartedRecovery where
  shellId : String
  previous : PersistedShellRun
  deriving DecidableEq, Repr

/-- The state of the staging loop; it stops at the first error. -/
structure Staged (R : Type) where
  world : StartWorld R
  started : List StartedRecovery
  events : List DaemonEventKind
  results : List ShellRecoveryResult
  error : Option DaemonError

/-- `MAX_RECOVERY_SHELLS`. -/
def maxRecoveryShells : Nat := 4

namespace StartWorld

variable (w : StartWorld R)

/-- `recovery_target`. -/
def recoveryTarget (target : ShellRecoveryTarget) :
    Except DaemonError (Shell × PersistedShellRun) :=
  match w.shells.get target.shellId with
  | none => .error (.lifecycle .notFound ("shell not found: " ++ target.shellId))
  | some shell =>
      if shell.lifecycle = .pending then
        match shell.lastRun.filter (·.id = target.expectedRunId) with
        | none => .error (.lifecycle .runChanged "Previous ShellRun changed")
        | some previous =>
            if previous.exitReason = some .interrupted then .ok (shell, previous)
            else .error (.validation "Shell ended normally; start it explicitly")
      else .error (.lifecycle .runChanged "Shell is no longer pending")

end StartWorld

namespace Staged

variable (s : Staged R)

def unavailable (target : ShellRecoveryTarget) (error : DaemonError) : Staged R :=
  { s with results := s.results ++ [.unavailable target.shellId error] }

def fail (error : DaemonError) : Staged R := { s with error := some error }

/-- One turn of the staging loop. -/
def stage (target : ShellRecoveryTarget) : Staged R :=
  if s.error.isSome then s
  else
    match s.world.recoveryTarget target with
    | .error error => s.unavailable target error
    | .ok (shell, previous) =>
        match target.outcome.prepareError, checkedAdd previous.generation 1 with
        | some error, _ => s.fail (.ofIo error)
        | none, none => s.fail (.ofIo (.ofMessage "shell run generation exhausted"))
        | none, some generation =>
            match target.outcome.spawnError with
            | some error =>
                s.unavailable target (.lifecycle .shellStartFailed
                  ("could not start recovered Shell: " ++ error.message))
            | none =>
                let run := ShellRun.new target.runId generation
                let staged : Staged R := { s with
                  world := s.world.startRun target.shellId run target.profile
                  started := s.started ++ [⟨target.shellId, previous⟩] }
                match target.outcome.readerError with
                | some error => staged.fail (.ofIo error)
                | none =>
                    { staged with
                      events := s.events ++ [.runStarted shell.workspaceId target.shellId run]
                      results := s.results ++ [.started target.shellId run] }

end Staged

namespace StartWorld

variable (w : StartWorld R)

/-- The staging loop. -/
def stageAll (targets : List ShellRecoveryTarget) : Staged R :=
  targets.foldl Staged.stage ⟨w, [], [], [], none⟩

/-- One turn of `rollback_recovery`. -/
def rollbackOne (cleanup : String → Cleanup) (entry : StartedRecovery) : StartWorld R :=
  let killed := w.kill entry.shellId (cleanup entry.shellId)
  match w.killError entry.shellId (cleanup entry.shellId) with
  | some _ => killed
  | none =>
      killed.modifyShell entry.shellId fun shell =>
        resetPending { shell with lastRun := some entry.previous }

/-- `rollback_recovery`: what it leaves, and the error with what went wrong. -/
def rollbackRecovery (cleanup : String → Cleanup) (error : DaemonError)
    (started : List StartedRecovery) : DaemonError × StartWorld R :=
  started.reverse.foldl (fun (error, w) entry =>
    (match w.killError entry.shellId (cleanup entry.shellId) with
      | some text => error.appendErrorContext ("recovery rollback failed: " ++ text)
      | none => error,
     w.rollbackOne cleanup entry)) (error, w)

/-- `recover_shells`; `resume` is what `resume_reader` answers for each Shell. Every reader is
resumed, and the first error is told. -/
def recoverShells (targets : List ShellRecoveryTarget) (saveError : Option IoError)
    (meanwhile : List (List DaemonEventKind)) (cleanup : String → Cleanup)
    (resume : String → Option IoError) :
    StartResult (List ShellRecoveryResult) × StartWorld R :=
  if targets.isEmpty || maxRecoveryShells < targets.length then
    (.failed (.validation "recovery requires one to four Shells"), w)
  else if ¬ (targets.map (·.shellId)).Nodup then
    (.failed (.validation "duplicate recovery Shell"), w)
  else
    match w.events.reserveWithPending targets.length with
    | .error error => (.failed (.ofIo error), w)
    | .ok () =>
        let staged := w.stageAll targets
        match staged.error with
        | some error =>
            let (error, restored) := staged.world.rollbackRecovery cleanup error staged.started
            (.failed error, restored)
        | none =>
            if staged.started.isEmpty then (.done staged.results none, staged.world)
            else
              let written := (staged.world.beginPersistence staged.events.length
                meanwhile).writePersistedState saveError
              match saveError with
              | some error =>
                  let (error, restored) :=
                    written.rollbackRecovery cleanup (.persistence error) staged.started
                  (.failed error, restored.finishPersistence)
              | none =>
                  let failure := staged.started.findSome? fun entry => resume entry.shellId
                  (.done staged.results (failure.map fun error => .lifecycle .outcomeUnknown
                    ("recovery committed but reader resume failed: " ++ error.message)),
                    written.appendBatch staged.events)

end StartWorld

end Boomux.Daemon
