import Boomux.Basic.Keyed
import Boomux.Daemon.Agent
import Boomux.Daemon.Registry

/-!
# The agents of the registry

The registry with its agents: `rest` is an `AgentContent`, which also has what never changes of a
Shell. `ensureAgent` and `reportAgent` are the two mutations that OpenCode claims use. The revision
of the Workspace that a registration bumps is left out.
-/

set_option autoImplicit false

namespace Boomux.Daemon

open Rust

/-! ## Data -/

/-- What a Shell was created with. -/
structure ShellSpec where
  cwd : String
  command : List String
  deriving DecidableEq, Repr

/-- The `HashMap` of the agents, and the Shells' directories and commands, by id. -/
structure AgentContent where
  specs : String → ShellSpec
  agents : List AgentInstance

/-- The registry with its agents. -/
abbrev AgentRegistry : Type := Durable AgentContent

/-- The agent as an event has it. -/
def AgentInstance.snapshot (agent : AgentInstance) : AgentInstanceSnapshot :=
  ⟨agent.id, agent.state.observation.revision⟩

namespace AgentRegistry

/-- The agents. -/
abbrev agents (d : AgentRegistry) : List AgentInstance := d.rest.agents

/-- Replacing the agents. -/
def withAgents (d : AgentRegistry) (agents : List AgentInstance) : AgentRegistry :=
  { d with rest := { d.rest with agents := agents } }

/-- Writing an agent's state. -/
def setAgentState (d : AgentRegistry) (agentId : String) (state : AgentInstanceState) :
    AgentRegistry :=
  d.withAgents (Keyed.adjust AgentInstance.id d.agents agentId fun agent =>
    { agent with state := state })

/-- The id of the run that a Shell is running. -/
def runningRun (d : AgentRegistry) (shellId : String) : Option String :=
  ((d.shells.get shellId).bind Shell.running?).map (·.id)

end AgentRegistry

/-- What a mutation of an agent leaves, and its `DurableUndo`. -/
structure AgentMutation where
  agent : AgentInstance
  registry : AgentRegistry
  changed : Bool
  completed : Bool
  undo : List (AgentRegistry → AgentRegistry)

namespace AgentRegistry

variable (d : AgentRegistry)

/-! ## Mutations -/

/-- `register_agent`, under the fresh UUID `agentId`. -/
def registerAgent (agentId : String) (nowMs : Nat) (shellId runId : String)
    (spec : AgentRegistrationSpec) : Except DaemonError AgentMutation := do
  (validateAgentRegistration spec).mapError .ofIo
  (validateExternalAgentAuthority spec.report.authority).mapError .ofIo
  match d.shells.get shellId with
  | none => .error (.ofIo (notFound "shell" shellId))
  | some shell =>
      if shell.workspaceId ∉ d.workspaces then
        .error (.ofIo (notFound "workspace" shell.workspaceId))
      else if shell.lifecycle = .closed then .error (.ofIo (notFound "shell" shellId))
      else if d.runningRun shellId = some runId then
        let agent := AgentInstance.new agentId shell.workspaceId shellId runId
          (some (d.rest.specs shellId).cwd) nowMs spec
        .ok
          { agent := agent
            registry := d.withAgents (Keyed.upsert AgentInstance.id d.agents agent)
            changed := true
            completed := false
            undo := [fun now => now.withAgents (Keyed.remove AgentInstance.id now.agents agentId)] }
      else .error (.lifecycle .runChanged "shell does not have the requested active run")

/-- The agent that an `ensure_agent` finds: the only one, or the only one that has not ended. -/
def ensuredAgent (found : List AgentInstance) : Except DaemonError (Option AgentInstance) :=
  match found with
  | [] => .ok none
  | [agent] => .ok (some agent)
  | agents =>
      match agents.filter (·.state.endedAtMs.isNone) with
      | [agent] => .ok (some agent)
      | _ => .error (.ofIo ⟨.alreadyExists,
          "multiple agent instances match the ensured identity"⟩)

/-- `ensure_agent`; `changed` says that the agent was registered. -/
def ensureAgent (agentId : String) (nowMs : Nat) (shellId runId : String)
    (spec : AgentRegistrationSpec) : Except DaemonError AgentMutation := do
  (validateAgentRegistration spec).mapError .ofIo
  (validateExternalAgentAuthority spec.report.authority).mapError .ofIo
  match spec.externalSessionId with
  | none =>
      .error (.ofIo ⟨.invalidInput, "agent external_session_id is required for ensure"⟩)
  | some externalSessionId =>
      let existing ← ensuredAgent (d.agents.filter fun agent =>
        agent.integration = spec.integration ∧ agent.externalSessionId = some externalSessionId ∧
          agent.shellId = shellId ∧ agent.runId = runId)
      match existing with
      | some agent => .ok ⟨agent, d, false, false, []⟩
      | none => d.registerAgent agentId nowMs shellId runId spec

/-- `report_agent`. -/
def reportAgent (nowMs : Nat) (agentId runId : String) (report : AgentReport) :
    Except DaemonError AgentMutation := do
  (validateAgentReport report).mapError .ofIo
  (validateExternalAgentAuthority report.authority).mapError .ofIo
  match Keyed.get AgentInstance.id d.agents agentId with
  | none => .error (.ofIo (notFound "agent instance" agentId))
  | some agent =>
      if agent.runId ≠ runId then
        .error (.lifecycle .runChanged "agent instance is bound to a different shell run")
      else
        let outcome ← agent.state.report agent.startedAtMs nowMs report
        .ok
          { agent := { agent with state := outcome.state }
            registry := if outcome.changed then d.setAgentState agentId outcome.state else d
            changed := outcome.changed
            completed := outcome.completed
            undo := if outcome.changed then [fun now => now.setAgentState agentId agent.state]
              else [] }

end AgentRegistry

end Boomux.Daemon
