import Boomux.Basic.Rust
import Mathlib.Data.List.AList

/-!
# Shells, ShellRuns and daemon events

The runtime side of a Shell: its lifecycle, the run the lifecycle carries, the last persisted
run, and the functions that end a run (`finalizeStop`, `finalizeRunExit`, `compensateStopped`,
`resetPending`). The daemon's events come first, since ending a run produces one.

An `Arc<ShellRun>` is compared by its id, and a mutex is its content: a lock fails only when it
is poisoned, which the model leaves out.
-/

set_option autoImplicit false

namespace Boomux.Daemon

/-! ## Runs -/

/-- `TerminalProfile`. -/
structure TerminalProfile where
  term : Option String
  colorterm : Option String
  termProgram : Option String
  termProgramVersion : Option String
  rows : Nat
  cols : Nat
  pixelWidth : Nat
  pixelHeight : Nat
  deriving DecidableEq, Repr

/-- `ShellRunExitReason`. -/
inductive ShellRunExitReason
  | exited (code : Option Nat)
  | terminated
  | interrupted
  deriving DecidableEq, Repr

/-- `ShellRun`, and also `ShellRunSnapshot`, which has the same fields. -/
structure ShellRun where
  id : String
  generation : Nat
  exitReason : Option ShellRunExitReason
  outputRevision : Nat
  deriving DecidableEq, Repr

/-- `PersistedShellRun`. -/
structure PersistedShellRun where
  id : String
  generation : Nat
  exitReason : Option ShellRunExitReason
  outputRevision : Nat
  profile : TerminalProfile
  terminalHistory : Option String
  deriving DecidableEq, Repr

/-- `ShellRun::new`, under the fresh UUID `id`. -/
def ShellRun.new (id : String) (generation : Nat) : ShellRun := ⟨id, generation, none, 0⟩

/-- `ShellRun::finish`: only the first reason is kept. -/
def ShellRun.finish (run : ShellRun) (reason : ShellRunExitReason) : ShellRun :=
  match run.exitReason with
  | none => { run with exitReason := some reason }
  | some _ => run

/-- `ShellRun::persisted`. -/
def ShellRun.persisted (run : ShellRun) (profile : TerminalProfile) : PersistedShellRun :=
  ⟨run.id, run.generation, run.exitReason, run.outputRevision, profile, none⟩

@[simp] theorem ShellRun.finish_id (run : ShellRun) (reason : ShellRunExitReason) :
    (run.finish reason).id = run.id := by
  unfold ShellRun.finish
  split <;> rfl

@[simp] theorem ShellRun.persisted_id (run : ShellRun) (profile : TerminalProfile) :
    (run.persisted profile).id = run.id := rfl

/-! ## Events -/

/-- The fields of `AgentInstanceSnapshot` that an event's readers use: the id and the revision
of the observation. -/
structure AgentInstanceSnapshot where
  id : String
  revision : Nat
  deriving DecidableEq, Repr

/-- `DaemonEventKind`. -/
inductive DaemonEventKind
  | workspaceCreated (workspaceId name : String)
  | workspaceRenamed (workspaceId name : String)
  | workspaceDefaultCwdChanged (workspaceId defaultCwd : String)
  | workspaceClosed (workspaceId : String)
  | shellCreated (workspaceId shellId name : String)
  | shellRenamed (workspaceId shellId name : String)
  | shellClosed (workspaceId : Option String) (shellId : String)
  | launcherCreated (workspaceId launcherId name : String)
  | launcherRenamed (workspaceId launcherId name : String)
  | launcherRemoved (workspaceId launcherId : String)
  | runStarted (workspaceId shellId : String) (run : ShellRun)
  | outputChanged (workspaceId shellId runId : String) (outputRevision : Nat)
  | runExited (workspaceId shellId : String) (run : ShellRun)
  | agentRegistered (workspaceId shellId : String) (agent : AgentInstanceSnapshot)
  | agentStateChanged (workspaceId shellId : String) (agent : AgentInstanceSnapshot)
  | agentCompleted (workspaceId shellId : String) (agent : AgentInstanceSnapshot)
  | agentAttentionAcknowledged (workspaceId shellId : String) (agent : AgentInstanceSnapshot)
  | agentWorkingContextObserved (workspaceId shellId : String) (agent : AgentInstanceSnapshot)
  | agentSessionDisplayNameChanged (workspaceId sessionId : String)
      (userDisplayName : Option String) (workspaceRevision : Nat)
  | agentSessionHidden (workspaceId sessionId : String) (workspaceRevision : Nat)
  | nodeProjectionChanged (nodeId : String) (cacheGeneration : Nat)
  | focusedTerminalPresentationChanged
  | handoffCompleted
  deriving DecidableEq, Repr

/-- `NodeProjectionTransitionKind`. -/
inductive NodeProjectionTransitionKind
  | workspace (workspaceId : String)
  | shell (workspaceId shellId : String)
  | launcher (workspaceId launcherId : String)
  | agent (workspaceId agentId : String) (revision : Nat)
  | sessionContext (workspaceId agentId : String)
  | handoffCompleted
  deriving DecidableEq, Repr

/-- The match of `reduce_projection_transition`. -/
def DaemonEventKind.reduce : DaemonEventKind → Option NodeProjectionTransitionKind
  | .workspaceCreated workspaceId _ | .workspaceRenamed workspaceId _
  | .workspaceDefaultCwdChanged workspaceId _ | .workspaceClosed workspaceId =>
      some (.workspace workspaceId)
  | .shellCreated workspaceId shellId _ | .shellRenamed workspaceId shellId _
  | .runStarted workspaceId shellId _ | .outputChanged workspaceId shellId _ _
  | .runExited workspaceId shellId _ | .shellClosed (some workspaceId) shellId =>
      some (.shell workspaceId shellId)
  | .shellClosed none _ => none
  | .launcherCreated workspaceId launcherId _ | .launcherRenamed workspaceId launcherId _
  | .launcherRemoved workspaceId launcherId => some (.launcher workspaceId launcherId)
  | .agentRegistered workspaceId _ agent | .agentStateChanged workspaceId _ agent
  | .agentCompleted workspaceId _ agent | .agentAttentionAcknowledged workspaceId _ agent =>
      some (.agent workspaceId agent.id agent.revision)
  | .agentWorkingContextObserved workspaceId _ agent =>
      some (.sessionContext workspaceId agent.id)
  | .handoffCompleted => some .handoffCompleted
  | .nodeProjectionChanged _ _ | .focusedTerminalPresentationChanged
  | .agentSessionDisplayNameChanged .. | .agentSessionHidden .. => none

/-- Whether the event ends this run. -/
def DaemonEventKind.endsRun (runId : String) : DaemonEventKind → Bool
  | .runExited _ _ run => run.id = runId
  | _ => false

/-- Whether the event closes this Shell. -/
def DaemonEventKind.endsShell (shellId : String) : DaemonEventKind → Bool
  | .shellClosed _ id => id = shellId
  | _ => false

/-- Whether the event closes this Workspace. -/
def DaemonEventKind.endsWorkspace (workspaceId : String) : DaemonEventKind → Bool
  | .workspaceClosed id => id = workspaceId
  | _ => false

/-- Whether `event` ends the run whose output `out` reports. -/
def DaemonEventKind.ends (event out : DaemonEventKind) : Bool :=
  match out with
  | .outputChanged workspaceId shellId runId _ =>
      event.endsRun runId || event.endsShell shellId || event.endsWorkspace workspaceId
  | _ => false

/-! ## Lifecycles -/

/-- `ShellLifecycle`. The runtime of a running Shell is the reader of its run; of an exited one
only its presence is kept. -/
inductive ShellLifecycle
  | pending
  | running (profile : TerminalProfile) (run : ShellRun)
  | exited (code : Option Nat) (profile : TerminalProfile) (run : ShellRun) (runtime : Bool)
  | closed
  deriving DecidableEq, Repr

/-- `Shell`; the registry maps its id to it. -/
structure Shell where
  workspaceId : String
  lastRun : Option PersistedShellRun
  lifecycle : ShellLifecycle
  deriving DecidableEq, Repr

/-- The run of a running Shell. -/
def Shell.running? (shell : Shell) : Option ShellRun :=
  match shell.lifecycle with
  | .running _ run => some run
  | _ => none

/-- `StopRollback`. -/
structure StopRollback where
  lifecycle : ShellLifecycle
  event : Option DaemonEventKind
  deriving DecidableEq, Repr

/-- `finalize_stop`. -/
def finalizeStop (shellId : String) (shell : Shell) : Shell × StopRollback :=
  match shell.lifecycle with
  | .pending => ({ shell with lifecycle := .closed }, ⟨.pending, none⟩)
  | .running profile run =>
      let run := run.finish .terminated
      ({ shell with lastRun := some (run.persisted profile), lifecycle := .closed },
        ⟨.pending, some (.runExited shell.workspaceId shellId run)⟩)
  | .exited code profile run runtime =>
      ({ shell with lastRun := some (run.persisted profile), lifecycle := .closed },
        ⟨.exited code profile run runtime, none⟩)
  | .closed => (shell, ⟨.closed, none⟩)

/-- `restore_stopped`. -/
def restoreStopped (shell : Shell) (rollback : StopRollback) : Shell :=
  match shell.lifecycle with
  | .closed => { shell with lifecycle := rollback.lifecycle }
  | _ => shell

/-- `compensate_stopped`. -/
def compensateStopped (shellId : String) (shell : Shell) : Shell × Option DaemonEventKind :=
  let (stopped, rollback) := finalizeStop shellId shell
  (restoreStopped stopped rollback, rollback.event)

/-- `reset_pending`. -/
def resetPending (shell : Shell) : Shell :=
  match shell.lifecycle with
  | .closed => { shell with lifecycle := .pending }
  | _ => shell

/-- `run_exit_is_current`. -/
def runExitIsCurrent (shell : Shell) (runId : String) : Bool :=
  match shell.lifecycle with
  | .running _ run => run.id = runId
  | _ => false

/-- `finalize_run_exit`. -/
def finalizeRunExit (shellId : String) (shell : Shell) (runId : String) (code : Option Nat) :
    Option (Shell × DaemonEventKind) :=
  match shell.lifecycle with
  | .running profile run =>
      if run.id = runId then
        let run := run.finish (.exited code)
        some ({ shell with
            lastRun := some (run.persisted profile), lifecycle := .exited code profile run true },
          .runExited shell.workspaceId shellId run)
      else none
  | _ => none

/-! ### What ending a run leaves -/

@[simp] theorem finalizeStop_workspaceId (shellId : String) (shell : Shell) :
    (finalizeStop shellId shell).1.workspaceId = shell.workspaceId := by
  unfold finalizeStop
  split <;> rfl

@[simp] theorem finalizeStop_lifecycle (shellId : String) (shell : Shell) :
    (finalizeStop shellId shell).1.lifecycle = .closed := by
  unfold finalizeStop
  split
  case h_4 h => exact h
  all_goals rfl

/-- The only event of a stop is the exit of the run that was running. -/
theorem finalizeStop_event {shellId : String} {shell : Shell} {event : DaemonEventKind}
    (h : (finalizeStop shellId shell).2.event = some event) :
    ∃ run, shell.running? = some run ∧
      event = .runExited shell.workspaceId shellId (run.finish .terminated) := by
  unfold finalizeStop at h
  split at h
  case h_2 profile run hl =>
      cases h
      exact ⟨run, by simp [Shell.running?, hl], rfl⟩
  all_goals cases h

/-- A stop never leaves a running lifecycle behind, nor does its rollback. -/
theorem finalizeStop_rollback (shellId : String) (shell : Shell) (run : ShellRun)
    (profile : TerminalProfile) :
    (finalizeStop shellId shell).2.lifecycle ≠ .running profile run := by
  unfold finalizeStop
  split <;> nofun

theorem restoreStopped_running? {shellId : String} {shell shell' : Shell} :
    (restoreStopped shell (finalizeStop shellId shell').2).running? =
      if shell.lifecycle = .closed then none else shell.running? := by
  unfold restoreStopped
  split
  next h =>
    rw [if_pos h]
    unfold Shell.running?
    split
    next hr => exact absurd hr (finalizeStop_rollback _ _ _ _)
    next => rfl
  next h => rw [if_neg h]

@[simp] theorem restoreStopped_workspaceId (shell : Shell) (rollback : StopRollback) :
    (restoreStopped shell rollback).workspaceId = shell.workspaceId := by
  unfold restoreStopped
  split <;> rfl

@[simp] theorem compensateStopped_workspaceId (shellId : String) (shell : Shell) :
    (compensateStopped shellId shell).1.workspaceId = shell.workspaceId := by
  simp [compensateStopped]

theorem compensateStopped_running? (shellId : String) (shell : Shell) :
    (compensateStopped shellId shell).1.running? = none := by
  simp [compensateStopped, restoreStopped_running?]

theorem finalizeRunExit_eq_some {shellId runId : String} {shell shell' : Shell}
    {code : Option Nat} {event : DaemonEventKind}
    (h : finalizeRunExit shellId shell runId code = some (shell', event)) :
    ∃ run, shell.running? = some run ∧ run.id = runId ∧
      event = .runExited shell.workspaceId shellId (run.finish (.exited code)) ∧
      shell'.workspaceId = shell.workspaceId ∧ shell'.running? = none := by
  unfold finalizeRunExit at h
  split at h
  next profile run hl =>
    split at h
    next hid =>
      cases h
      exact ⟨run, by simp [Shell.running?, hl], hid, rfl, rfl, rfl⟩
    next => cases h
  next => cases h

end Boomux.Daemon
