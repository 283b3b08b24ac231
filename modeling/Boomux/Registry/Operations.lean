import Boomux.Daemon.Agents
import Boomux.Daemon.Lifecycle
import Boomux.Registry.State

/-!
# The operations of the registry

What changes the four maps: a `Mutation` reads and changes the registry, may fail, and logs a
`DurableUndo` for every change. The caller holds the mutation lock, so that no other mutation comes
between its steps. UUIDs, the clock, the file system and the running runs of the Shells are
arguments.

The functions that create a record of a Workspace put it into its map and its Workspace's list and
only then bump the revision of the Workspace; when that fails they return with the record in place
and nothing logged.
-/

set_option autoImplicit false

namespace Boomux.Registry

open Rust Handoff Undo
open Daemon hiding ShellSpec
open Journal (ShellSpec)

/-! ## Undo -/

/-- `DurableUndo`. `created` is CreatedShell, CreatedLauncher or RegisteredAgent, `removed`
RemovedShell or RemovedLauncher. An id names one record as long as a log is kept. -/
inductive DurableUndo
  | createdWorkspace (workspaceId : String) (shellIds : List String)
  | created (k : Kind) (workspaceId id : String)
  | renamedWorkspace (workspaceId previous : String) (previousRevision : Nat)
  | setWorkspaceDefaultCwd (workspaceId : String) (previous : Option String)
      (previousRevision : Nat)
  | renamedShell (shellId previous : String) (previousRevision : Nat)
  | renamedLauncher (launcherId previous : String) (previousRevision : Nat)
  | agentState (agentId : String) (previous : AgentInstanceState)
  | removed (k : Kind) (workspaceId : String) (record : k.Record) (index : Nat)
  | removedWorkspace (workspace : Workspace) (members : (k : Kind) → List (String × k.Record))

namespace DurableState

variable (d : DurableState)

def modifyWorkspace (id : String) (f : Workspace → Workspace) : DurableState :=
  d.withWorkspaces (HashMap.modify d.workspaces id f)

def modifyMember (k : Kind) (id : String) (f : k.Record → k.Record) : DurableState :=
  d.withMembers k (HashMap.modify (d.members k) id f)

def putWorkspace (w : Workspace) : DurableState := d.withWorkspaces (d.workspaces.insert w.id w)

def putMember (k : Kind) (r : k.Record) : DurableState :=
  d.withMembers k ((d.members k).insert (k.id r) r)

/-- Replacing all members of every kind. -/
def mapMembers (f : (k : Kind) → HashMap String k.Record → HashMap String k.Record) :
    DurableState :=
  ⟨d.workspaces, f .shell d.shells, f .launcher d.launchers, f .agent d.agents⟩

@[simp] theorem members_mapMembers
    (f : (k : Kind) → HashMap String k.Record → HashMap String k.Record) (k : Kind) :
    (d.mapMembers f).members k = f k (d.members k) := by cases k <;> rfl

@[simp] theorem workspaces_mapMembers
    (f : (k : Kind) → HashMap String k.Record → HashMap String k.Record) :
    (d.mapMembers f).workspaces = d.workspaces := rfl

end DurableState

/-- `DurableRegistry::rollback`. -/
def DurableUndo.apply : DurableUndo → DurableState → DurableState
  | .createdWorkspace workspaceId shellIds, d =>
      (d.withMembers .shell (HashMap.eraseAll d.shells shellIds)).withWorkspaces
        (d.workspaces.erase workspaceId)
  | .created k workspaceId id, d =>
      (d.withMembers k ((d.members k).erase id)).modifyWorkspace workspaceId fun w =>
        (w.withIds ((w.ids k).filter (· ≠ id)) k).withRevision (rollbackBump w.revision)
  | .renamedWorkspace workspaceId previous previousRevision, d =>
      d.modifyWorkspace workspaceId fun w =>
        { w with name := previous, revision := previousRevision }
  | .setWorkspaceDefaultCwd workspaceId previous previousRevision, d =>
      d.modifyWorkspace workspaceId fun w =>
        { w with defaultCwd := previous, revision := previousRevision }
  | .renamedShell shellId previous previousRevision, d =>
      d.modifyMember .shell shellId fun s =>
        { s with name := previous, revision := previousRevision }
  | .renamedLauncher launcherId previous previousRevision, d =>
      d.modifyMember .launcher launcherId fun l =>
        { l with name := previous, revision := previousRevision }
  | .agentState agentId previous, d =>
      d.modifyMember .agent agentId fun a => { a with state := previous }
  | .removed k workspaceId record index, d =>
      (d.putMember k record).modifyWorkspace workspaceId fun w =>
        (w.withIds ((w.ids k).insertIdx index (k.id record)) k).withRevision
          (rollbackBump w.revision)
  | .removedWorkspace workspace members, d =>
      (d.mapMembers fun k m => HashMap.insertAll m (members k)).putWorkspace workspace

/-! ## Reading -/

/-- What changes the registry under the mutation lock. -/
abbrev Mutation (α : Type) : Type := Step DurableState DurableUndo DaemonError α

/-- A check that may fail with an `io::Error`. -/
def check {α : Type} (result : Except IoError α) : Mutation α := Step.read fun _ => liftIo result

/-- `DurableRegistry::workspace`. -/
def workspace (id : String) : Mutation Workspace :=
  Step.read fun d => liftIo (find "workspace" d.workspaces id)

/-- `shell`, `launcher` and `agent` of the registry. -/
def member (k : Kind) (id : String) : Mutation k.Record :=
  Step.read fun d => liftIo (find k.resource (d.members k) id)

/-- The check that no Workspace but `except` has the name. -/
def workspaceNameFree (except : Option String) (name : String) : Mutation Unit :=
  Step.read fun d => liftIo (require
    ((HashMap.toList d.workspaces).all fun e => e.2.name ≠ name || some e.1 = except)
    ⟨.alreadyExists, "workspace name already exists: " ++ name⟩)

/-- The check that none of the listed records has the name. -/
def memberNameFree (k : Kind) (ids : List String) (name : String) : Mutation Unit :=
  Step.read fun d => liftIo (require (!nameTaken k d ids name)
    ⟨.alreadyExists, k.resource ++ " name already exists: " ++ name⟩)

/-- The check of a request that is guarded by the revision of a Workspace. -/
def guardWorkspace (expectedRevision : Option Nat) (workspaceId : String) : Mutation Unit :=
  match expectedRevision with
  | none => pure ()
  | some expected => do
      let w ← workspace workspaceId
      Step.read fun _ => Lifecycle.requireGuard w.revision expected "workspace"

/-- The check of a request that is guarded by the revision of a Shell or a launcher. -/
def guardMember (k : Kind) (revision : k.Record → Nat) (expectedRevision : Option Nat)
    (id : String) :
    Mutation Unit :=
  match expectedRevision with
  | none => pure ()
  | some expected => do
      let r ← member k id
      Step.read fun _ => Lifecycle.requireGuard (revision r) expected k.resource

/-! ## Changing -/

/-- A new record, last in the list of its Workspace. -/
def addMember (k : Kind) (w : Workspace) (r : k.Record) : Mutation Unit := fun d =>
  let added := w.withIds (w.ids k ++ [k.id r]) k
  match bumpRevision "workspace" w.revision with
  | .error e => ⟨.error (.ofIo e), [], (d.putMember k r).putWorkspace added⟩
  | .ok revision =>
      ⟨.ok (), [.created k w.id (k.id r)], (d.putMember k r).putWorkspace
        (added.withRevision revision)⟩

/-- A record is taken out of its map and its Workspace's list. -/
def takeMember (k : Kind) (w : Workspace) (r : k.Record) (index : Nat) : Mutation Unit := fun d =>
  let removed := w.withIds ((w.ids k).eraseIdx index) k
  let d := d.withMembers k ((d.members k).erase (k.id r))
  match bumpRevision "workspace" w.revision with
  | .error e => ⟨.error (.ofIo e), [], d.putWorkspace removed⟩
  | .ok revision =>
      ⟨.ok (), [.removed k w.id r index], d.putWorkspace (removed.withRevision revision)⟩

/-- A new Workspace, with its Shells. -/
def addWorkspace (w : Workspace) (shells : List Shell) : Mutation Unit := fun d =>
  ⟨.ok (), [.createdWorkspace w.id (shells.map (·.id))],
    (d.withMembers .shell
      (HashMap.insertAll d.shells (shells.map fun s => (s.id, s)))).putWorkspace w⟩

def editWorkspace (undo : DurableUndo) (w : Workspace) : Mutation Unit := fun d =>
  ⟨.ok (), [undo], d.putWorkspace w⟩

def editMember (undo : DurableUndo) (k : Kind) (r : k.Record) : Mutation Unit := fun d =>
  ⟨.ok (), [undo], d.putMember k r⟩

/-! ## Workspaces -/

section Creating

/- Which paths are directories. -/
variable (isDir : String → Bool)

/-- `create_workspace`; every Shell comes with the UUID it gets. -/
def createWorkspace (id name : String) (defaultCwd : Option String)
    (specs : List (String × ShellSpec)) :
    Mutation (Workspace × List Shell) := do
  check (validateName name)
  check (validateDefaultCwd isDir defaultCwd)
  check (validateShellSpecs (specs.map Prod.snd))
  let shells ← check (specs.mapM fun s => createPendingShell isDir id s.1 s.2)
  workspaceNameFree none name
  let w : Workspace := ⟨id, 1, name, defaultCwd, shells.map (·.id), [], []⟩
  addWorkspace w shells
  pure (w, shells)

/-- `Option<PathBuf>::eq`. -/
def sameCwd : Option String → Option String → Bool
  | some a, some b => samePath a b
  | none, none => true
  | _, _ => false

/-- `create_workspace_exact`; the flag says that the Workspace is new. -/
def createWorkspaceExact (id name : String) (defaultCwd : Option String) :
    Mutation (Workspace × Bool) := do
  check (validateUuid id "workspace ID")
  check (validateName name)
  check (validateDefaultCwd isDir defaultCwd)
  match ← Step.read fun d => .ok (d.workspaces.lookup id) with
  | some existing =>
      check (require (decide (existing.name = name) && sameCwd existing.defaultCwd defaultCwd)
        ⟨.alreadyExists, "workspace idempotency identity exists with a different definition"⟩)
      pure (existing, false)
  | none =>
      workspaceNameFree none name
      let w : Workspace := ⟨id, 1, name, defaultCwd, [], [], []⟩
      addWorkspace w []
      pure (w, true)

/-- `next_workspace_name`. Among one more suffixes than there are Workspaces one is free. -/
def nextWorkspaceName (d : DurableState) : Except IoError String :=
  let candidates := (List.range' 1 ((HashMap.toList d.workspaces).length + 1)).map fun n =>
    "workspace-" ++ toString n
  match candidates.find? fun name => (HashMap.toList d.workspaces).all fun e => e.2.name ≠ name with
  | some name => .ok name
  | none => .error (.ofMessage "workspace name space exhausted")

/-! ## Shells and launchers -/

/-- The end of `create_shell` and `create_shell_exact`. -/
def insertShell (w : Workspace) (shell : Shell) : Mutation Unit := do
  memberNameFree .shell w.shellIds shell.name
  addMember .shell w shell

/-- `create_shell`. -/
def createShell (id workspaceId : String) (spec : ShellSpec) : Mutation Shell := do
  let w ← workspace workspaceId
  let shell ← check (createPendingShell isDir workspaceId id spec)
  insertShell w shell
  pure shell

/-- `create_shell_exact`; the flag says that the Shell is new. -/
def createShellExact (workspaceId shellId : String) (spec : ShellSpec) :
    Mutation (Shell × Bool) := do
  check (validateUuid shellId "Shell idempotency key")
  match ← Step.read fun d => .ok (d.shells.lookup shellId) with
  | some existing =>
      check (require (decide (existing.workspaceId = workspaceId) && decide
        (existing.name = spec.name) &&
          samePath existing.cwd spec.cwd && decide (existing.command = spec.command))
        ⟨.alreadyExists, "Shell idempotency key exists with a different definition"⟩)
      pure (existing, false)
  | none =>
      let w ← workspace workspaceId
      let shell ← check (createPendingShell isDir workspaceId shellId spec)
      insertShell w shell
      pure (shell, true)

/-- `create_shell_with_workspace`. The names of the Workspaces change only under the mutation lock,
so the name that is found is still free when it is used, and the loop of the source ends in its
first turn. -/
def createShellWithWorkspace (workspaceId id : String) (spec : ShellSpec) :
    Mutation (Workspace × List Shell) := do
  let name ← Step.read fun d => liftIo (nextWorkspaceName d)
  createWorkspace isDir workspaceId name (some spec.cwd) [(id, spec)]

/-- The end of `create_launcher` and `create_launcher_exact`. -/
def insertLauncher (workspaceId id : String) (spec : WorkspaceLauncherSpec) :
    Mutation WorkspaceLauncher := do
  check (validateLauncherSpec isDir spec)
  let w ← workspace workspaceId
  memberNameFree .launcher w.launcherIds spec.name
  let launcher := WorkspaceLauncher.new workspaceId id spec
  addMember .launcher w launcher
  pure launcher

/-- `create_launcher`. -/
def createLauncher (id workspaceId : String) (spec : WorkspaceLauncherSpec) :
    Mutation WorkspaceLauncher :=
  insertLauncher isDir workspaceId id spec

/-- `create_launcher_exact`; the flag says that the launcher is new. -/
def createLauncherExact (workspaceId launcherId : String) (spec : WorkspaceLauncherSpec) :
    Mutation (WorkspaceLauncher × Bool) := do
  check (validateUuid launcherId "launcher idempotency key")
  match ← Step.read fun d => .ok (d.launchers.lookup launcherId) with
  | some existing =>
      check (require (decide (existing.workspaceId = workspaceId) && decide
        (existing.name = spec.name) &&
          samePath existing.cwd spec.cwd && decide (existing.command = spec.command))
        ⟨.alreadyExists, "launcher idempotency key exists with a different definition"⟩)
      pure (existing, false)
  | none =>
      let launcher ← insertLauncher isDir workspaceId launcherId spec
      pure (launcher, true)

/-- `set_workspace_default_cwd`; `none` when nothing changes. -/
def setWorkspaceDefaultCwd (workspaceId defaultCwd : String) : Mutation (Option Workspace) := do
  check (validateCwd isDir defaultCwd)
  let w ← workspace workspaceId
  if sameCwd w.defaultCwd (some defaultCwd) then pure none
  else
    let revision ← check (bumpRevision "workspace" w.revision)
    let edited := { w with revision := revision, defaultCwd := some defaultCwd }
    editWorkspace (.setWorkspaceDefaultCwd workspaceId w.defaultCwd w.revision) edited
    pure (some edited)

end Creating

/-- `rename_workspace`; `none` when it has the name already. -/
def renameWorkspace (workspaceId name : String) : Mutation (Option Workspace) := do
  check (validateName name)
  let w ← workspace workspaceId
  workspaceNameFree (some workspaceId) name
  if w.name = name then pure none
  else
    let revision ← check (bumpRevision "workspace" w.revision)
    let edited := { w with revision := revision, name := name }
    editWorkspace (.renamedWorkspace workspaceId w.name w.revision) edited
    pure (some edited)

/-- `rename_shell`; `none` when it has the name already. -/
def renameShell (shellId name : String) : Mutation (Option Shell) := do
  check (validateName name)
  let shell ← member .shell shellId
  let w ← workspace shell.workspaceId
  memberNameFree .shell (w.shellIds.filter (· ≠ shellId)) name
  if shell.name = name then pure none
  else
    let revision ← check (bumpRevision "shell" shell.revision)
    let edited := { shell with revision := revision, name := name }
    editMember (.renamedShell shellId shell.name shell.revision) .shell edited
    pure (some edited)

/-- `rename_launcher`; `none` when it has the name already. -/
def renameLauncher (launcherId name : String) : Mutation (Option WorkspaceLauncher) := do
  check (validateName name)
  let launcher ← member .launcher launcherId
  let w ← workspace launcher.workspaceId
  memberNameFree .launcher (w.launcherIds.filter (· ≠ launcherId)) name
  if launcher.name = name then pure none
  else
    let revision ← check (bumpRevision "workspace launcher" launcher.revision)
    let edited := { launcher with revision := revision, name := name }
    editMember (.renamedLauncher launcherId launcher.name launcher.revision) .launcher edited
    pure (some edited)

/-! ## Removals -/

/-- `remove_shell_mutation` and `remove_launcher_mutation`. -/
def removeMember (k : Kind) (id : String) : Mutation k.Record := do
  let r ← member k id
  let w ← workspace (k.workspaceId r)
  let index ← check (match (w.ids k).findIdx? (· = id) with
    | some index => Except.ok index
    | none => .error (notFound k.resource id))
  takeMember k w r index
  pure r

/-- `remove_workspace_mutation`. -/
def removeWorkspace (workspaceId : String) : Mutation Unit := do
  let w ← workspace workspaceId
  fun d => ⟨.ok (), [.removedWorkspace w fun k => HashMap.entries (d.members k) (w.ids k)],
    (d.mapMembers fun k m => HashMap.eraseAll m (w.ids k)).withWorkspaces
      (d.workspaces.erase workspaceId)⟩

/-! ## Agents -/

section Agents

/- The id of the run that a Shell is running. -/
variable (running : String → Option String)

/-- `register_agent`, under the fresh UUID `id` at the time `millis`. -/
def registerAgent (id : String) (millis : Nat) (shellId runId : String)
    (spec : AgentRegistrationSpec) :
    Mutation AgentInstance := do
  check (validateAgentRegistration spec)
  check (validateExternalAgentAuthority spec.report.authority)
  let shell ← member .shell shellId
  let w ← workspace shell.workspaceId
  Step.read fun _ => require (running shellId = some runId)
    (.lifecycle .runChanged "shell does not have the requested active run")
  let agent := AgentInstance.new id shell.workspaceId shell.id runId (some shell.cwd)
    (unixTimeMs millis) spec
  addMember .agent w agent
  pure agent

/-- `ensure_agent`; the flag says that the agent is new. -/
def ensureAgent (id : String) (millis : Nat) (shellId runId : String)
    (spec : AgentRegistrationSpec) :
    Mutation (AgentInstance × Bool) := do
  check (validateAgentRegistration spec)
  check (validateExternalAgentAuthority spec.report.authority)
  let externalSessionId ← check (match spec.externalSessionId with
    | some externalSessionId => Except.ok externalSessionId
    | none => .error ⟨.invalidInput, "agent external_session_id is required for ensure"⟩)
  let existing ← Step.read fun d => AgentRegistry.ensuredAgent
    (((HashMap.toList d.agents).map Prod.snd).filter fun agent =>
    agent.integration = spec.integration ∧ agent.externalSessionId = some externalSessionId ∧
      agent.shellId = shellId ∧ agent.runId = runId)
  match existing with
  | some agent => pure (agent, false)
  | none =>
      let agent ← registerAgent running id millis shellId runId spec
      pure (agent, true)

/-- `report_agent`; the flag says that the observation changed. -/
def reportAgent (millis : Nat) (agentId runId : String) (report : AgentReport) :
    Mutation (AgentInstance × ReportOutcome) := do
  check (validateAgentReport report)
  check (validateExternalAgentAuthority report.authority)
  let agent ← member .agent agentId
  Step.read fun _ => require (agent.runId = runId)
    (.lifecycle .runChanged "agent instance is bound to a different shell run")
  let outcome ← Step.read fun _ => agent.state.report agent.startedAtMs (unixTimeMs millis) report
  if outcome.changed then
    let edited := { agent with state := outcome.state }
    editMember (.agentState agentId agent.state) .agent edited
    pure (edited, outcome)
  else pure (agent, outcome)

/-- `observe_agent_working_context`; `none` when nothing changes. -/
def observeAgentWorkingContext (millis : Nat) (agentId shellId runId : String)
    (context : AgentWorkingContextSnapshot) : Mutation (AgentInstance × Bool) := do
  check (validateWorkingContext context)
  let agent ← member .agent agentId
  Step.read fun _ => require (agent.shellId = shellId)
    (.lifecycle .runChanged "agent instance is bound to a different shell")
  Step.read fun _ => require (agent.runId = runId)
    (.lifecycle .runChanged "agent instance is bound to a different shell run")
  let _ ← member .shell shellId
  Step.read fun _ => require (running shellId = some runId)
    (.lifecycle .runChanged "shell does not have the requested active run")
  let observed := agent.state.observeWorkingContext agent.startedAtMs (unixTimeMs millis) context
  if observed.2 then
    let edited := { agent with state := observed.1 }
    editMember (.agentState agentId agent.state) .agent edited
    pure (edited, true)
  else pure (agent, false)

/-- `acknowledge_agent_attention`; the flag says that there was attention. -/
def acknowledgeAgentAttention (agentId : String) (observationRevision : Nat) :
    Mutation (AgentInstance × Bool) := do
  let agent ← member .agent agentId
  let acknowledged ← Step.read fun _ => agent.state.acknowledge observationRevision
  if acknowledged.2 then
    let edited := { agent with state := acknowledged.1 }
    editMember (.agentState agentId agent.state) .agent edited
    pure (edited, true)
  else pure (agent, false)

end Agents

end Boomux.Registry
