import Boomux.Basic.Rust
import Boomux.Daemon.Agent
import Boomux.Daemon.Integrations

/-!
# Workspace snapshots

A Workspace as the owner's daemon shows it to clients, with its Shells, Launchers and agents: the
fields that conversations and sessions are projected from. The daemon builds a snapshot from the
Workspace's lists of ids and from its maps by id, so no two Shells and no two agents share an id.
-/

set_option autoImplicit false

namespace Boomux.Workspaces

open Rust

export Daemon (AgentState AgentObservationSnapshot)
export Integrations (ResumeCapability TitleCapability IntegrationDescriptor byKey
  validateExternalSessionId)

/-! ## Snapshots -/

inductive ShellStatus
  | pending | running
  | exited (code : Option Nat)
  deriving DecidableEq

structure ShellRunSnapshot where
  id : String
  deriving DecidableEq

structure ShellSnapshot where
  id : String
  workspaceId : String
  name : String
  cwd : String
  command : List String
  status : ShellStatus
  run : Option ShellRunSnapshot
  deriving DecidableEq

structure WorkspaceLauncherSnapshot where
  cwd : String
  deriving DecidableEq

structure AgentInstanceSnapshot where
  id : String
  workspaceId : String
  shellId : String
  runId : String
  name : String
  integration : String
  externalSessionId : Option String
  cwd : Option String
  startedAtMs : Nat
  endedAtMs : Option Nat
  observation : AgentObservationSnapshot
  deriving DecidableEq

structure WorkspaceSnapshot where
  id : String
  revision : Nat
  name : String
  defaultCwd : Option String
  shells : List ShellSnapshot
  launchers : List WorkspaceLauncherSnapshot
  agents : List AgentInstanceSnapshot
  deriving DecidableEq

/-- No two agents and no two Shells of the snapshot share an id. -/
structure WorkspaceSnapshot.Distinct (w : WorkspaceSnapshot) : Prop where
  agents : (w.agents.map (·.id)).Nodup
  shells : (w.shells.map (·.id)).Nodup

/-- The snapshots differ in the order of the agents and the Shells alone. -/
structure WorkspaceSnapshot.Reordered (w w' : WorkspaceSnapshot) : Prop where
  id : w.id = w'.id
  revision : w.revision = w'.revision
  name : w.name = w'.name
  defaultCwd : w.defaultCwd = w'.defaultCwd
  launchers : w.launchers = w'.launchers
  shells : w.shells.Perm w'.shells
  agents : w.agents.Perm w'.agents

end Boomux.Workspaces
