import Boomux.Registry.Rollback

/-!
# Durable requests

The closures that `dispatch` hands to `durable_mutation_outcome`, and what that does with them: a
closure that has changed something is captured, saved and announced, and rolled back when any of it
fails. The requests that close a Shell or a Workspace go through `lifecycle_transaction`, which
applies, saves and rolls back in the same way.
-/

set_option autoImplicit false

namespace Boomux.Registry

open Rust Handoff Undo
open Daemon hiding ShellSpec ShellRun DurableMutation TerminalProfile
open Journal (ShellSpec TerminalProfile)

/-! ## Requests -/

/-- `OpenPlan`, which `conversations::plan` makes. -/
inductive OpenPlan
  | existing (shell : Shell)
  | resume (spec : ShellSpec)
  deriving DecidableEq, Repr

/-- A step of a closure that works on several agents: a check of its own, or a call. -/
inductive AgentCall
  | check (result : Except DaemonError Unit)
  | ensure (id : String) (millis : Nat) (shellId runId : String) (spec : AgentRegistrationSpec)
  | report (millis : Nat) (agentId runId : String) (report : AgentReport)

/-- A request that changes the registry, with the UUIDs that it takes and its reading of the clock.
`createShellWithWorkspace` is a CreateShell without a Workspace, a rename, a removal or a close is
guarded when it carries a revision, and `agentCalls` is any request about launch holders of Kiro or
claims of OpenCode. -/
inductive Request
  | createWorkspace (id name : String) (defaultCwd : Option String)
      (shells : List (String × ShellSpec))
  | openWorkspaceConversation (workspaceId shellId : String) (plan : Except String OpenPlan)
  | createWorkspaceShell (workspaceId workspaceName : String) (defaultCwd : Option String)
      (shellId : String)
      (spec : ShellSpec)
  | createWorkspaceLauncher (workspaceId workspaceName : String) (defaultCwd : Option String)
      (launcherId : String) (spec : WorkspaceLauncherSpec)
  | createShell (id workspaceId : String) (spec : ShellSpec)
  | createShellWithWorkspace (workspaceId id : String) (spec : ShellSpec)
  | createStartedShell (id workspaceId : String) (spec : ShellSpec) (profile : TerminalProfile)
      (runId : String) (millis : Nat) (spawn : Except String Unit)
  | createLauncher (id workspaceId : String) (spec : WorkspaceLauncherSpec)
  | registerAgent (id : String) (millis : Nat) (shellId runId : String)
      (spec : AgentRegistrationSpec)
  | ensureAgent (id : String) (millis : Nat) (shellId runId : String) (spec : AgentRegistrationSpec)
  | agentCalls (calls : List AgentCall)
  | reportAgent (millis : Nat) (agentId runId : String) (report : AgentReport)
  | observeAgentWorkingContext (millis : Nat) (agentId shellId runId : String)
      (context : AgentWorkingContextSnapshot)
  | acknowledgeAgentAttention (agentId : String) (observationRevision : Nat)
  | renameWorkspace (workspaceId name : String) (expectedRevision : Option Nat)
  | setWorkspaceDefaultCwd (workspaceId : String) (expectedRevision : Nat) (defaultCwd : String)
  | renameShell (shellId name : String) (expectedRevision : Option Nat)
  | renameLauncher (launcherId name : String) (expectedRevision : Option Nat)
  | removeLauncher (launcherId : String) (expectedRevision : Option Nat)
  | closeShell (shellId : String) (expectedRevision : Option Nat)
  | closeWorkspace (workspaceId : String) (expectedRevision : Option Nat)

/-- The records that a response is made of. -/
inductive Response
  | ok
  | workspace (workspace : Workspace)
  | shell (shell : Shell)
  | launcher (launcher : WorkspaceLauncher)
  | agent (agent : AgentInstance)

/-- `DurableMutation`. -/
inductive DurableMutation (α : Type)
  | changed (value : α) (kinds : List DaemonEventKind)
  | unchanged (value : α)

/-! ## Events -/

/-- `workspace_created_events`. -/
def workspaceCreatedEvents (w : Workspace) (shells : List Shell) : List DaemonEventKind :=
  .workspaceCreated w.id w.name :: shells.map fun shell => .shellCreated w.id shell.id shell.name

def shellCreated (shell : Shell) : DaemonEventKind :=
  .shellCreated shell.workspaceId shell.id shell.name

def launcherCreated (launcher : WorkspaceLauncher) : DaemonEventKind :=
  .launcherCreated launcher.workspaceId launcher.id launcher.name

def agentRegistered (agent : AgentInstance) : DaemonEventKind :=
  .agentRegistered agent.workspaceId agent.shellId agent.snapshot

/-- The event of a report that was accepted. -/
def agentReported (agent : AgentInstance) (completed : Bool) : DaemonEventKind :=
  if completed then .agentCompleted agent.workspaceId agent.shellId agent.snapshot
  else .agentStateChanged agent.workspaceId agent.shellId agent.snapshot

/-- The events of an agent that was registered, which may be done already. -/
def agentRegisteredEvents (agent : AgentInstance) : List DaemonEventKind :=
  agentRegistered agent ::
    if agent.state.endedAtMs.isSome then
      [.agentCompleted agent.workspaceId agent.shellId agent.snapshot]
    else []

/-- `Changed` when there are events. -/
def DurableMutation.ofEvents {α : Type} (value : α) (kinds : List DaemonEventKind) :
    DurableMutation α :=
  if kinds.isEmpty then .unchanged value else .changed value kinds

/-! ## The closures -/

section Closures

variable (isDir : String → Bool) (running : String → Option String)

/-- One step of `agentCalls`, with its events. -/
def runAgentCall : AgentCall → Mutation (List DaemonEventKind)
  | .check result => do
      Step.read fun _ => result
      pure []
  | .ensure id millis shellId runId spec => do
      let ensured ← ensureAgent running id millis shellId runId spec
      pure (if ensured.2 then [agentRegistered ensured.1] else [])
  | .report millis agentId runId report => do
      let reported ← reportAgent millis agentId runId report
      pure (if reported.2.changed then [agentReported reported.1 reported.2.completed] else [])

def runAgentCalls : List AgentCall → Mutation (List DaemonEventKind)
  | [] => pure []
  | call :: calls => do
      let events ← runAgentCall running call
      let rest ← runAgentCalls calls
      pure (events ++ rest)

/-- `create_workspace_exact`, with its event. -/
def placeWorkspace (workspaceId name : String) (defaultCwd : Option String) :
    Mutation (List DaemonEventKind) := do
  let placed ← createWorkspaceExact isDir workspaceId name defaultCwd
  pure (if placed.2 then [.workspaceCreated placed.1.id placed.1.name] else [])

/-- What a guarded request about a Workspace answers, and what one without a guard does. -/
def workspaceResponse (expectedRevision : Option Nat) (workspaceId : String) : Mutation Response :=
  match expectedRevision with
  | none => pure .ok
  | some _ => do
      let w ← workspace workspaceId
      pure (.workspace w)

/-- The same for a Shell or a launcher. -/
def memberResponse (k : Kind) (response : k.Record → Response) (expectedRevision : Option Nat)
    (id : String) : Mutation Response :=
  match expectedRevision with
  | none => pure .ok
  | some _ => do
      let r ← member k id
      pure (response r)

/-- The closure of a request. -/
def dispatch : Request → Mutation (DurableMutation Response)
  | .createWorkspace id name defaultCwd shells => do
      let created ← createWorkspace isDir id name defaultCwd shells
      pure (.changed (.workspace created.1) (workspaceCreatedEvents created.1 created.2))
  | .openWorkspaceConversation workspaceId shellId plan => do
      check (validateUuid shellId "conversation Shell key")
      let _ ← workspace workspaceId
      let plan ← Step.read fun _ => plan.mapError (DaemonError.lifecycle .notFound)
      match plan with
      | .existing shell => pure (.unchanged (.shell shell))
      | .resume spec =>
          let created ← createShellExact isDir workspaceId shellId spec
          pure (.ofEvents (.shell created.1) (if created.2 then [shellCreated created.1] else []))
  | .createWorkspaceShell workspaceId workspaceName defaultCwd shellId spec => do
      let placed ← placeWorkspace isDir workspaceId workspaceName defaultCwd
      let created ← createShellExact isDir workspaceId shellId spec
      pure (.ofEvents (.shell created.1) (placed ++ if created.2 then [shellCreated created.1]
        else []))
  | .createWorkspaceLauncher workspaceId workspaceName defaultCwd launcherId spec => do
      let placed ← placeWorkspace isDir workspaceId workspaceName defaultCwd
      let created ← createLauncherExact isDir workspaceId launcherId spec
      pure (.ofEvents (.launcher created.1)
        (placed ++ if created.2 then [launcherCreated created.1] else []))
  | .createShell id workspaceId spec => do
      let shell ← createShell isDir id workspaceId spec
      pure (.changed (.shell shell) [shellCreated shell])
  | .createShellWithWorkspace workspaceId id spec => do
      let created ← createShellWithWorkspace isDir workspaceId id spec
      pure (.changed (.workspace created.1) (workspaceCreatedEvents created.1 created.2))
  | .createStartedShell id workspaceId spec profile runId _ spawn => do
      check (validateTerminalProfile profile)
      let shell ← createShell isDir id workspaceId spec
      Step.read fun _ => spawn.mapError fun error =>
        DaemonError.lifecycle .shellStartFailed ("could not start shell: " ++ error)
      pure (.changed (.shell shell)
        [shellCreated shell, .runStarted shell.workspaceId shell.id (.new runId 1)])
  | .createLauncher id workspaceId spec => do
      let launcher ← createLauncher isDir id workspaceId spec
      pure (.changed (.launcher launcher) [launcherCreated launcher])
  | .registerAgent id millis shellId runId spec => do
      let agent ← registerAgent running id millis shellId runId spec
      pure (.changed (.agent agent) (agentRegisteredEvents agent))
  | .ensureAgent id millis shellId runId spec => do
      let ensured ← ensureAgent running id millis shellId runId spec
      pure (.ofEvents (.agent ensured.1) (if ensured.2 then agentRegisteredEvents ensured.1
        else []))
  | .agentCalls calls => do
      let events ← runAgentCalls running calls
      pure (.ofEvents .ok events)
  | .reportAgent millis agentId runId report => do
      let reported ← reportAgent millis agentId runId report
      pure (.ofEvents (.agent reported.1)
        (if reported.2.changed then [agentReported reported.1 reported.2.completed] else []))
  | .observeAgentWorkingContext millis agentId shellId runId context => do
      let observed ← observeAgentWorkingContext running millis agentId shellId runId context
      pure (.ofEvents (.agent observed.1) (if observed.2 then
        [.agentWorkingContextObserved observed.1.workspaceId observed.1.shellId observed.1.snapshot]
          else []))
  | .acknowledgeAgentAttention agentId observationRevision => do
      let acknowledged ← acknowledgeAgentAttention agentId observationRevision
      pure (.ofEvents (.agent acknowledged.1) (if acknowledged.2 then
        [.agentAttentionAcknowledged acknowledged.1.workspaceId acknowledged.1.shellId
          acknowledged.1.snapshot] else []))
  | .renameWorkspace workspaceId name expectedRevision => do
      guardWorkspace expectedRevision workspaceId
      let renamed ← renameWorkspace workspaceId name
      let response ← workspaceResponse expectedRevision workspaceId
      pure (.ofEvents response (renamed.toList.map fun w => .workspaceRenamed w.id w.name))
  | .setWorkspaceDefaultCwd workspaceId expectedRevision defaultCwd => do
      guardWorkspace (some expectedRevision) workspaceId
      let edited ← setWorkspaceDefaultCwd isDir workspaceId defaultCwd
      let response ← workspaceResponse (some expectedRevision) workspaceId
      pure (.ofEvents response (edited.toList.map fun w =>
        .workspaceDefaultCwdChanged w.id defaultCwd))
  | .renameShell shellId name expectedRevision => do
      guardMember .shell (·.revision) expectedRevision shellId
      let renamed ← renameShell shellId name
      let response ← memberResponse .shell Response.shell expectedRevision shellId
      pure (.ofEvents response (renamed.toList.map fun s =>
        .shellRenamed s.workspaceId s.id s.name))
  | .renameLauncher launcherId name expectedRevision => do
      guardMember .launcher (·.revision) expectedRevision launcherId
      let renamed ← renameLauncher launcherId name
      let response ← memberResponse .launcher Response.launcher expectedRevision launcherId
      pure (.ofEvents response (renamed.toList.map fun l =>
        .launcherRenamed l.workspaceId l.id l.name))
  | .removeLauncher launcherId expectedRevision => do
      guardMember .launcher (·.revision) expectedRevision launcherId
      let removed ← removeMember .launcher launcherId
      pure (.changed .ok [.launcherRemoved removed.workspaceId launcherId])
  | .closeShell shellId expectedRevision => do
      guardMember .shell (·.revision) expectedRevision shellId
      let removed ← removeMember .shell shellId
      pure (.changed .ok [.shellClosed (some removed.workspaceId) shellId])
  | .closeWorkspace workspaceId expectedRevision => do
      guardWorkspace expectedRevision workspaceId
      removeWorkspace workspaceId
      pure (.changed .ok [.workspaceClosed workspaceId])

end Closures

/-! ## Every closure can be rolled back -/

section Fine

variable {isDir : String → Bool} {running : String → Option String} {d : DurableState}
    {request : Request}

/-- The UUID that a call takes is new. -/
def AgentCall.fresh (d : DurableState) : AgentCall → Bool
  | .ensure id .. => decide (Fresh d id)
  | _ => true

/-- The UUIDs that the calls take are new when they take them. -/
def freshCalls (running : String → Option String) : List AgentCall → DurableState → Bool
  | [], _ => true
  | call :: calls, d =>
      call.fresh d && freshCalls running calls (runAgentCall running call d).state

/-- The UUIDs that the request takes are new. -/
def Request.fresh (running : String → Option String) (d : DurableState) : Request → Bool
  | .createWorkspace id _ _ shells =>
      decide (Fresh d id) && shells.all (fun s => decide (Fresh d s.1)) &&
      decide (shells.map Prod.fst).Nodup
  | .createShell id _ _ | .createStartedShell id .. | .createLauncher id _ _
  | .registerAgent id .. | .ensureAgent id .. => decide (Fresh d id)
  | .createShellWithWorkspace workspaceId id _ =>
      decide (Fresh d workspaceId) && decide (Fresh d id)
  | .agentCalls calls => freshCalls running calls d
  | _ => true

theorem runAgentCall_fine {call : AgentCall} (h : Sound d) (hfresh : call.fresh d = true)
    (hrun : ∀ shellId runId, running shellId = some runId → uuidParses runId = true) :
    Fine (runAgentCall running call) d := by
  cases call with
  | check result => exact .read_bind h fun _ _ => Safe.pure h
  | ensure id millis shellId runId spec =>
      exact .bind_pure (ensureAgent_fine h (of_decide_eq_true hfresh) hrun)
  | report millis agentId runId report => exact .bind_pure (reportAgent_fine h)

theorem runAgentCalls_fine {calls : List AgentCall} (h : Sound d)
    (hfresh : freshCalls running calls d = true)
    (hrun : ∀ shellId runId, running shellId = some runId → uuidParses runId = true) :
    Fine (runAgentCalls running calls) d := by
  induction calls generalizing d with
  | nil => exact Safe.pure h
  | cons call calls ih =>
      unfold freshCalls at hfresh
      rw [Bool.and_eq_true] at hfresh
      have hcall : Fine (runAgentCall running call) d := runAgentCall_fine h hfresh.1 hrun
      exact hcall.bind fun _ _ => .bind_pure (ih hcall.kept hfresh.2)

theorem workspaceResponse_reads {expected : Option Nat} {id : String} :
    Reads (workspaceResponse expected id) d := by
  unfold workspaceResponse
  split
  next => exact .pure
  next => exact Reads.read.bind fun _ => .pure

theorem memberResponse_reads {k : Kind} {response : k.Record → Response} {expected : Option Nat}
    {id : String} : Reads (memberResponse k response expected id) d := by
  unfold memberResponse
  split
  next => exact .pure
  next => exact Reads.read.bind fun _ => .pure

/-- A guard, an edit and a response. -/
theorem Fine.guarded_edit {α β : Type} {guard : Mutation Unit} {edit : Mutation α}
    {respond : Mutation Response} {f : α → Response → β} (h : Sound d) (hguard : Reads guard d)
    (hedit : Fine edit d) (hrespond : ∀ d, Reads respond d) :
    Fine (guard >>= fun _ => edit >>= fun a => respond >>= fun r => pure (f a r)) d :=
  hguard.safe_bind h fun _ _ => hedit.bind fun _ _ => .bind_pure ((hrespond _).safe hedit.kept)

theorem placeWorkspace_fine {workspaceId name : String} {defaultCwd : Option String} (h : Sound d) :
    Fine (placeWorkspace isDir workspaceId name defaultCwd) d :=
      .bind_pure (createWorkspaceExact_fine h)

theorem dispatch_fine (h : Sound d) (hfresh : request.fresh running d = true)
    (hrun : ∀ shellId runId, running shellId = some runId → uuidParses runId = true) :
    Fine (dispatch isDir running request) d := by
  cases request with
  | createWorkspace id name defaultCwd shells =>
      simp only [Request.fresh, Bool.and_eq_true, List.all_eq_true, decide_eq_true_eq] at hfresh
      exact .bind_pure (createWorkspace_fine h hfresh.1.1 hfresh.1.2 hfresh.2)
  | openWorkspaceConversation workspaceId shellId plan =>
      refine .check_bind h fun _ _ => .workspace_bind h fun _ _ _ => .read_bind h fun plan _ => ?_
      cases plan with
      | existing shell => exact Safe.pure h
      | resume spec => exact .bind_pure (createShellExact_fine h)
  | createWorkspaceShell workspaceId name defaultCwd shellId spec =>
      have hplace : Fine (placeWorkspace isDir workspaceId name defaultCwd) d :=
        placeWorkspace_fine h
      exact hplace.bind fun _ _ => .bind_pure (createShellExact_fine hplace.kept)
  | createWorkspaceLauncher workspaceId name defaultCwd launcherId spec =>
      have hplace : Fine (placeWorkspace isDir workspaceId name defaultCwd) d :=
        placeWorkspace_fine h
      exact hplace.bind fun _ _ => .bind_pure (createLauncherExact_fine hplace.kept)
  | createShell id workspaceId spec =>
      exact .bind_pure (createShell_fine h (of_decide_eq_true hfresh))
  | createShellWithWorkspace workspaceId id spec =>
      simp only [Request.fresh, Bool.and_eq_true, decide_eq_true_eq] at hfresh
      exact .bind_pure (createShellWithWorkspace_fine h hfresh.1 hfresh.2)
  | createStartedShell id workspaceId spec profile runId millis spawn =>
      refine .check_bind h fun _ _ => ?_
      have hcreate : Fine (createShell isDir id workspaceId spec) d :=
        createShell_fine h (of_decide_eq_true hfresh)
      exact hcreate.bind fun _ _ => .read_bind hcreate.kept fun _ _ => Safe.pure hcreate.kept
  | createLauncher id workspaceId spec =>
      exact .bind_pure (createLauncher_fine h (of_decide_eq_true hfresh))
  | registerAgent id millis shellId runId spec =>
      exact .bind_pure (registerAgent_fine h (of_decide_eq_true hfresh) hrun)
  | ensureAgent id millis shellId runId spec =>
      exact .bind_pure (ensureAgent_fine h (of_decide_eq_true hfresh) hrun)
  | agentCalls calls => exact .bind_pure (runAgentCalls_fine h hfresh hrun)
  | reportAgent millis agentId runId report => exact .bind_pure (reportAgent_fine h)
  | observeAgentWorkingContext millis agentId shellId runId context =>
      exact .bind_pure (observeAgentWorkingContext_fine h)
  | acknowledgeAgentAttention agentId revision =>
      exact .bind_pure (acknowledgeAgentAttention_fine h)
  | renameWorkspace workspaceId name expected =>
      exact .guarded_edit h guardWorkspace_reads (renameWorkspace_fine h) fun _ =>
        workspaceResponse_reads
  | setWorkspaceDefaultCwd workspaceId expected cwd =>
      exact .guarded_edit h guardWorkspace_reads (setWorkspaceDefaultCwd_fine h) fun _ =>
        workspaceResponse_reads
  | renameShell shellId name expected =>
      exact .guarded_edit h guardMember_reads (renameShell_fine h) fun _ => memberResponse_reads
  | renameLauncher launcherId name expected =>
      exact .guarded_edit h guardMember_reads (renameLauncher_fine h) fun _ => memberResponse_reads
  | removeLauncher launcherId expected =>
      exact guardMember_reads.safe_bind h fun _ _ => .bind_pure (removeMember_fine h)
  | closeShell shellId expected =>
      exact guardMember_reads.safe_bind h fun _ _ => .bind_pure (removeMember_fine h)
  | closeWorkspace workspaceId expected =>
      exact guardWorkspace_reads.safe_bind h fun _ _ => .bind_pure (removeWorkspace_fine h)

end Fine

end Boomux.Registry
