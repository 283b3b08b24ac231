import Boomux.Basic.Keyed
import Boomux.Basic.Run
import Boomux.Daemon.Agent
import Boomux.Daemon.Integrations
import Boomux.Daemon.Registry
import Boomux.Handoff.Manifest
import Mathlib.Data.List.Sort

/-!
# Launch holders and bindings

Which process may speak for a Kiro session, and which Claude agent is bound to a Remote Control
session. Both are kept in memory only, beside the durable agents and the lifecycles of the
Shells; a map is the list of its records. A holder is kept under its id with the fields of its
manifest. What the platform says about processes is an argument: every call sees its own table.

Workspaces are not part of this state: a Shell's Workspace is always there, and its revision and
the working directory of the Shell decide nothing here.
-/

set_option autoImplicit false

namespace Boomux.Handoff

open Rust Daemon Integrations

/-! ## Processes -/

/-- What the platform reports of a process. No process starts at the time zero. -/
structure Process where
  startTime : Nat
  group : Nat
  argv : Option (List String)
  environment : String → Option String
  started : startTime ≠ 0

/-- The processes that exist, by PID. -/
abbrev ProcessTable : Type := Nat → Option Process

/-- `argv.windows(2)` has `kiro launch`. -/
def managedLauncher (argv : List String) : Bool :=
  (argv.zip argv.tail).any fun arguments => arguments = ("kiro", "launch")

/-- `kiro_holder_process_evidence`. -/
def kiroHolderProcessEvidence (table : ProcessTable) (pid : Nat) (shellId runId : String) :
    Except DaemonError (Nat × Bool) :=
  if pid = 0 then .error (.validation "Kiro launch holder PID must be nonzero")
  else
    match table pid with
    | none => .error (.lifecycle .notFound "Kiro launch holder process was not found")
    | some process =>
        match process.argv with
        | none => .error (.lifecycle .notFound "Kiro launch holder argv was not available")
        | some argv =>
            if managedLauncher argv && process.environment "BOOMUX_SHELL_ID" = some shellId &&
                process.environment "BOOMUX_RUN_ID" = some runId then
              .ok (process.startTime, process.group = pid)
            else .error (.validation
              "Kiro launch holder does not match the managed launcher ShellRun")

/-- `kiro_holder_is_live`. -/
def kiroHolderIsLive (table : ProcessTable) (holder : KiroLaunchHolderManifest) : Bool :=
  (table holder.pid).map (·.startTime) = some holder.startTime

/-! ## State -/

/-- The agents, the lifecycles, and the authority that rests on them. -/
structure Authority where
  shells : Shells
  agents : List AgentInstance
  bindings : List ClaudeRemoteControlBindingSnapshot
  holders : List KiroLaunchHolderManifest

/-- The record of an agent. -/
def agentOf (agents : List AgentInstance) (id : String) : Option AgentInstance :=
  Keyed.get AgentInstance.id agents id

/-- `KiroLaunchHolder::sessions.contains_key`. -/
def KiroLaunchHolderManifest.has (holder : KiroLaunchHolderManifest) (sessionId : String) : Bool :=
  (Keyed.get Prod.fst holder.sessions sessionId).isSome

/-- The Shell runs exactly this run. -/
def isCurrentRun (shells : Shells) (shellId runId : String) : Bool :=
  (shells.get shellId).any (runExitIsCurrent · runId)

/-- `validate_uuid`. -/
def validateUuid (value label : String) : Except IoError Unit := do
  require (uuidParses value) ⟨.invalidInput, "invalid " ++ label⟩
  require (isCanonicalUuid value) ⟨.invalidInput, label ++ " must use canonical UUID syntax"⟩

/-- `validate_id`. -/
def validateId (kind id : String) : Except IoError Unit :=
  require (uuidParses id) ⟨.invalidData, "persisted " ++ kind ++ " ID is invalid: " ++ id⟩

/-- An `io::Error` becomes a `DaemonError`. -/
def liftIo {α : Type} (result : Except IoError α) : Except DaemonError α :=
  result.mapError .ofIo

/-- `validate_current_running_shell`. -/
def validateCurrentRunningShell (shells : Shells) (shellId runId : String) :
    Except DaemonError Unit := do
  require (shells.get shellId).isSome (.lifecycle .runChanged "authority shell does not exist")
  require (isCurrentRun shells shellId runId)
    (.lifecycle .runChanged "authority does not match the current running ShellRun")

namespace Authority

variable (s : Authority)

/-! ## Agents -/

/-- `register_agent`, with the working directory `cwd` of the Shell. -/
def registerAgent (id : String) (now : Nat) (cwd : Option String) (shellId runId : String)
    (spec : AgentRegistrationSpec) : Except DaemonError (Authority × AgentInstance) := do
  liftIo (validateAgentRegistration spec)
  liftIo (validateExternalAgentAuthority spec.report.authority)
  match s.shells.get shellId with
  | none => .error (.ofIo (notFound "shell" shellId))
  | some shell =>
      if shell.lifecycle = .closed then .error (.ofIo (notFound "shell" shellId))
      else do
        require (runExitIsCurrent shell runId)
          (.lifecycle .runChanged "shell does not have the requested active run")
        let agent := AgentInstance.new id shell.workspaceId shellId runId cwd now spec
        .ok ({ s with agents := s.agents ++ [agent] }, agent)

/-- The agents that `ensure_agent` matches. -/
def matching (shellId runId integration externalSessionId : String) : List AgentInstance :=
  s.agents.filter fun agent =>
    agent.integration = integration && agent.externalSessionId = some externalSessionId &&
      agent.shellId = shellId && agent.runId = runId

/-- `ensure_agent`; the flag says whether the agent was created. -/
def ensureAgent (id : String) (now : Nat) (cwd : Option String) (shellId runId : String)
    (spec : AgentRegistrationSpec) : Except DaemonError (Authority × AgentInstance × Bool) := do
  liftIo (validateAgentRegistration spec)
  liftIo (validateExternalAgentAuthority spec.report.authority)
  match spec.externalSessionId with
  | none =>
      .error (.ofIo ⟨.invalidInput, "agent external_session_id is required for ensure"⟩)
  | some externalSessionId =>
      match s.matching shellId runId spec.integration externalSessionId with
      | [] => do
          let (s, agent) ← s.registerAgent id now cwd shellId runId spec
          .ok (s, agent, true)
      | [agent] => .ok (s, agent, false)
      | agents =>
          match agents.filter (·.state.endedAtMs.isNone) with
          | [agent] => .ok (s, agent, false)
          | _ => .error (.ofIo
              ⟨.alreadyExists, "multiple agent instances match the ensured identity"⟩)

/-- The agent's state is replaced. -/
def setAgentState (agentId : String) (state : AgentInstanceState) : Authority :=
  { s with
    agents := Keyed.adjust AgentInstance.id s.agents agentId fun agent =>
      { agent with state := state } }

/-- `report_agent`. -/
def reportAgent (now : Nat) (agentId runId : String) (report : AgentReport) :
    Except DaemonError (Authority × ReportOutcome) := do
  liftIo (validateAgentReport report)
  liftIo (validateExternalAgentAuthority report.authority)
  match agentOf s.agents agentId with
  | none => .error (.ofIo (notFound "agent" agentId))
  | some agent => do
      require (agent.runId = runId)
        (.lifecycle .runChanged "agent instance is bound to a different shell run")
      let outcome ← agent.state.report agent.startedAtMs now report
      .ok (s.setAgentState agentId outcome.state, outcome)

/-- `acknowledge_agent_attention`. -/
def acknowledgeAgentAttention (agentId : String) (observationRevision : Nat) :
    Except DaemonError Authority :=
  match agentOf s.agents agentId with
  | none => .error (.ofIo (notFound "agent" agentId))
  | some agent => do
      let (state, _) ← agent.state.acknowledge observationRevision
      .ok (s.setAgentState agentId state)

/-- `observe_agent_working_context`. -/
def observeAgentWorkingContext (now : Nat) (agentId shellId runId : String)
    (context : AgentWorkingContextSnapshot) : Except DaemonError Authority := do
  liftIo (validateWorkingContext context)
  match agentOf s.agents agentId with
  | none => .error (.ofIo (notFound "agent" agentId))
  | some agent => do
      require (agent.shellId = shellId)
        (.lifecycle .runChanged "agent instance is bound to a different shell")
      require (agent.runId = runId)
        (.lifecycle .runChanged "agent instance is bound to a different shell run")
      require (s.shells.get shellId).isSome (.ofIo (notFound "shell" shellId))
      require (isCurrentRun s.shells shellId runId)
        (.lifecycle .runChanged "shell does not have the requested active run")
      .ok (s.setAgentState agentId
        (agent.state.observeWorkingContext agent.startedAtMs now context).1)

/-! ## Kiro launch holders -/

/-- The report that a session without its process gets. -/
def inactiveReport (evidence : String) : AgentReport :=
  ⟨.inactive, .lifecycleIntegration, evidence, 100⟩

/-- What `inactivate_released_kiro_sessions` keeps while it goes through the sessions: the
authority, and the sessions that are handled. -/
structure Released where
  authority : Authority
  handled : List (String × String × String)

/-- One session of a removed holder. -/
def inactivateSession (now : Nat) (remaining : List KiroLaunchHolderManifest)
    (holder : KiroLaunchHolderManifest) (r : Released) (session : String × String) :
    Except DaemonError Released :=
  let key := (holder.shellId, holder.runId, session.1)
  if key ∈ r.handled then .ok r
  else
    let r : Released := { r with handled := r.handled ++ [key] }
    if (remaining.any fun candidate =>
          candidate.shellId = holder.shellId && candidate.runId = holder.runId &&
            candidate.has session.1) ||
        (agentOf r.authority.agents session.2).isNone then
      .ok r
    else do
      let (authority, _) ← r.authority.reportAgent now session.2 holder.runId
        (inactiveReport "Kiro managed process exited")
      .ok { r with authority := authority }

/-- `inactivate_released_kiro_sessions`. -/
def inactivateReleasedKiroSessions (now : Nat) (remaining removed : List KiroLaunchHolderManifest) :
    Except DaemonError Authority := do
  let r ← removed.foldlM (fun r holder =>
    holder.sessions.foldlM (inactivateSession now remaining holder) r) ⟨s, []⟩
  .ok r.authority

/-- `prune_dead_kiro_holders`, and then `inactivate_released_kiro_sessions` of those it removed
and of `released`. -/
def pruneDeadKiroHolders (table : ProcessTable) (now : Nat)
    (released : KiroLaunchHolderManifest → Bool) : Except DaemonError Authority :=
  let dead := s.holders.filter fun holder => !kiroHolderIsLive table holder
  let live := s.holders.filter (kiroHolderIsLive table)
  let remaining := live.filter fun holder => !released holder
  inactivateReleasedKiroSessions { s with holders := remaining } now remaining
    (dead ++ live.filter released)

/-- `acquire_kiro_launch_holder`, under the fresh UUID `holderId`; the table `before` is the one
that is read before the mutation. -/
def acquireKiroLaunchHolder (before table : ProcessTable) (now : Nat) (holderId : String)
    (pid : Nat) (shellId runId : String) : Except DaemonError Authority := do
  liftIo (validateId "shell" shellId)
  liftIo (validateId "run" runId)
  validateCurrentRunningShell s.shells shellId runId
  let evidence ← kiroHolderProcessEvidence before pid shellId runId
  let s ← s.pruneDeadKiroHolders table now fun _ => false
  require (s.holders.length < maxKiroLaunchHolders)
    (.lifecycle .busy "Kiro launch holder capacity is exhausted")
  validateCurrentRunningShell s.shells shellId runId
  let again ← kiroHolderProcessEvidence table pid shellId runId
  require (again = evidence)
    (.lifecycle .notFound "Kiro launch holder process identity changed before acquisition")
  .ok { s with
    holders := Keyed.upsert KiroLaunchHolderManifest.holderId s.holders
      ⟨holderId, pid, evidence.1, evidence.2, shellId, runId, []⟩ }

/-- `report_kiro_hook`. An agent that it registers gets the fresh UUID `agentId`. The holder may
be gone; what the removal of dead holders did stays then. -/
def reportKiroHook (table : ProcessTable) (now : Nat) (agentId : String) (cwd : Option String)
    (holderId sessionId : String) (report : AgentReport) :
    Except DaemonError (Authority × Except DaemonError ReportOutcome) := do
  liftIo (validateUuid holderId "Kiro launch holder ID")
  (validateExternalSessionId sessionId).mapError .validation
  liftIo (validateAgentReport report)
  require
    (report.authority = .lifecycleIntegration &&
      (report.state = .unknown || report.state = .working || report.state = .idle))
    (.validation
      "Kiro hooks may report only Unknown, Working, or Idle at lifecycle integration authority")
  let s ← s.pruneDeadKiroHolders table now fun _ => false
  match Keyed.get KiroLaunchHolderManifest.holderId s.holders holderId with
  | none => .ok (s, .error (.lifecycle .notFound "Kiro launch holder is not live"))
  | some holder => do
      validateCurrentRunningShell s.shells holder.shellId holder.runId
      require (holder.has sessionId || holder.sessions.length < maxKiroHolderSessions)
        (.lifecycle .busy "Kiro launch holder Session capacity is exhausted")
      let (s, agent, _) ← s.ensureAgent agentId now cwd holder.shellId holder.runId
        ⟨"Kiro CLI", "kiro", some sessionId, report⟩
      let holder :=
        { holder with sessions := Keyed.upsert Prod.fst holder.sessions (sessionId, agent.id) }
      let s : Authority := { s with
        holders := Keyed.upsert KiroLaunchHolderManifest.holderId s.holders holder }
      let (s, outcome) ← s.reportAgent now agent.id holder.runId report
      .ok (s, .ok outcome)

/-- `release_kiro_launch_holder`. -/
def releaseKiroLaunchHolder (table : ProcessTable) (now : Nat) (holderId : String) :
    Except DaemonError Authority := do
  liftIo (validateUuid holderId "Kiro launch holder ID")
  s.pruneDeadKiroHolders table now (·.holderId = holderId)

/-- Whether `inactivate_unowned_kiro_agents` reports the agent. -/
def unowned (agent : AgentInstance) : Bool :=
  agent.integration = "kiro" && !(s.holders.any fun holder =>
    holder.sessions.any fun session => session.2 = agent.id) &&
  agent.state.endedAtMs.isNone && agent.state.observation.authority = .lifecycleIntegration &&
  agent.state.observation.state ≠ .inactive && agent.state.observation.state ≠ .done

/-- `inactivate_unowned_kiro_agents`. -/
def inactivateUnownedKiroAgents (now : Nat) : Except DaemonError Authority :=
  (s.agents.filter s.unowned).foldlM (fun s agent => do
    let (s, _) ← s.reportAgent now agent.id agent.runId
      (inactiveReport "Kiro launch authority unavailable")
    .ok s) s

/-- `reconcile_dead_kiro_holders`. -/
def reconcileDeadKiroHolders (table : ProcessTable) (now : Nat) : Except DaemonError Authority := do
  let s ← s.pruneDeadKiroHolders table now fun _ => false
  s.inactivateUnownedKiroAgents now

/-! ## Claude Remote Control bindings -/

/-- `validate_claude_bridge_session_id`. -/
def validateClaudeBridgeSessionId (bridgeSessionId : String) : Except IoError Unit :=
  require (plainText maxClaudeBridgeSessionIdBytes bridgeSessionId) ⟨.invalidInput,
    "Claude bridge session ID must be nonempty, control-free, and at most " ++
      toString maxClaudeBridgeSessionIdBytes ++ " bytes"⟩

/-- `claude_binding_is_current`. -/
def claudeBindingIsCurrent (agentId shellId runId : String) : Bool :=
  match agentOf s.agents agentId with
  | none => false
  | some agent =>
      agent.integration = "claude" && agent.shellId = shellId && agent.runId = runId &&
        !agent.state.over && isCurrentRun s.shells shellId runId

/-- `validate_claude_binding_identity`. -/
def validateClaudeBindingIdentity (agentId shellId runId : String) :
    Except DaemonError Unit := do
  liftIo (validateUuid agentId "Claude Agent ID")
  liftIo (validateUuid shellId "Claude Shell ID")
  liftIo (validateUuid runId "Claude ShellRun ID")
  match agentOf s.agents agentId with
  | none => .error (.ofIo (notFound "agent" agentId))
  | some agent => do
      require (agent.integration = "claude")
        (.ofIo ⟨.invalidInput, "Claude Remote Control binding requires a Claude Agent"⟩)
      require (agent.shellId = shellId && agent.runId = runId)
        (.lifecycle .runChanged "Claude Remote Control binding does not match the Agent ShellRun")

/-- `validate_claude_binding_authority`. -/
def validateClaudeBindingAuthority (agentId shellId runId : String) :
    Except DaemonError Unit := do
  s.validateClaudeBindingIdentity agentId shellId runId
  require (s.claudeBindingIsCurrent agentId shellId runId) (.lifecycle .runChanged
    "Claude Remote Control binding does not match an active current ShellRun")

/-- `prune_claude_bindings`. -/
def pruneClaudeBindings : List ClaudeRemoteControlBindingSnapshot :=
  s.bindings.filter fun binding =>
    s.claudeBindingIsCurrent binding.agentId binding.shellId binding.runId

/-- `set_claude_remote_control_binding`. -/
def setClaudeRemoteControlBinding (agentId shellId runId : String)
    (bridgeSessionId : Option String) : Except DaemonError Authority :=
  let bindings := s.pruneClaudeBindings
  match bridgeSessionId with
  | none => do
      s.validateClaudeBindingIdentity agentId shellId runId
      .ok { s with
        bindings := Keyed.remove ClaudeRemoteControlBindingSnapshot.agentId bindings agentId }
  | some bridgeSessionId => do
      liftIo (validateClaudeBridgeSessionId bridgeSessionId)
      s.validateClaudeBindingAuthority agentId shellId runId
      require
        (!bindings.any fun binding =>
          binding.agentId ≠ agentId && binding.bridgeSessionId = bridgeSessionId)
        (.lifecycle .busy "Claude Remote Control session is already bound to another Agent")
      require
        ((Keyed.get ClaudeRemoteControlBindingSnapshot.agentId bindings agentId).isSome ||
          bindings.length < maxClaudeRemoteControlBindings)
        (.lifecycle .busy "Claude Remote Control binding capacity is exhausted")
      .ok { s with
        bindings := Keyed.upsert ClaudeRemoteControlBindingSnapshot.agentId bindings
          ⟨agentId, shellId, runId, bridgeSessionId⟩ }

/-- `get_claude_remote_control_binding`: what it does to the bindings. -/
def getClaudeRemoteControlBinding (agentId shellId runId : String) :
    Except DaemonError Authority := do
  s.validateClaudeBindingAuthority agentId shellId runId
  .ok { s with bindings := s.pruneClaudeBindings }

/-! ## The transfer -/

/-- `export_claude_remote_control_bindings`. -/
def exportClaudeRemoteControlBindings : List ClaudeRemoteControlBindingSnapshot :=
  s.pruneClaudeBindings.insertionSort fun a b => a.agentId ≤ b.agentId

/-- `export_kiro_launch_holders`. -/
def exportKiroLaunchHolders : List KiroLaunchHolderManifest :=
  s.holders.insertionSort fun a b => a.holderId ≤ b.holderId

/-- The loop of `import_claude_remote_control_bindings`. -/
def importBinding (bindings : List ClaudeRemoteControlBindingSnapshot)
    (binding : ClaudeRemoteControlBindingSnapshot) :
    Except IoError (List ClaudeRemoteControlBindingSnapshot) := do
  validateClaudeBridgeSessionId binding.bridgeSessionId
  (s.validateClaudeBindingAuthority binding.agentId binding.shellId binding.runId).mapError
    fun error => ⟨.invalidData, error.message⟩
  require (!bindings.any (·.bridgeSessionId = binding.bridgeSessionId))
    ⟨.invalidData, "duplicate Claude bridge session ID in handoff"⟩
  .ok (Keyed.upsert ClaudeRemoteControlBindingSnapshot.agentId bindings binding)

/-- `import_claude_remote_control_bindings`. -/
def importClaudeRemoteControlBindings (transferred : List ClaudeRemoteControlBindingSnapshot) :
    Except IoError Authority := do
  require s.bindings.isEmpty
    ⟨.invalidData, "replacement daemon already has Claude Remote Control bindings"⟩
  let bindings ← transferred.foldlM s.importBinding []
  .ok { s with bindings := bindings }

/-- What `import_kiro_launch_holders` does not accept of a session. -/
def sessionRefused (holder : KiroLaunchHolderManifest) (session : String × String) : Bool :=
  match agentOf s.agents session.2 with
  | none => true
  | some agent =>
      agent.integration ≠ "kiro" || agent.externalSessionId ≠ some session.1 ||
        agent.shellId ≠ holder.shellId || agent.runId ≠ holder.runId || agent.state.over

/-- The holder's process is there, and gives the evidence that it gave. -/
def processUnchanged (table : ProcessTable) (holder : KiroLaunchHolderManifest) : Bool :=
  match kiroHolderProcessEvidence table holder.pid holder.shellId holder.runId with
  | .ok evidence => evidence = (holder.startTime, holder.processGroupLeader)
  | .error _ => false

/-- What `import_kiro_launch_holders` does not accept of a holder. -/
def holderRefused (table : ProcessTable) (holder : KiroLaunchHolderManifest) : Bool :=
  !processUnchanged table holder || !(isCurrentRun s.shells holder.shellId holder.runId) ||
    holder.sessions.any (s.sessionRefused holder)

/-- The holder of a manifest: its sessions are collected in a map. -/
def collectSessions (manifest : KiroLaunchHolderManifest) : KiroLaunchHolderManifest :=
  { manifest with sessions := manifest.sessions.foldl (Keyed.upsert Prod.fst) [] }

/-- `import_kiro_launch_holders`. -/
def importKiroLaunchHolders (table : ProcessTable) (transferred : List KiroLaunchHolderManifest) :
    Except IoError Authority := do
  require s.holders.isEmpty
    ⟨.invalidData, "replacement daemon already has Kiro launch holders"⟩
  let holders ← transferred.foldlM (fun imported manifest => do
    require (!s.holderRefused table (collectSessions manifest))
      ⟨.invalidData, "Kiro launch holder handoff authority is no longer valid"⟩
    .ok (Keyed.upsert KiroLaunchHolderManifest.holderId imported (collectSessions manifest))) []
  .ok { s with holders := holders }

/-- What the replacement has when it imports: the durable agents and the lifecycles. -/
def transferred : Authority := { s with bindings := [], holders := [] }

/-- The replacement's import of what this daemon exports. -/
def transfer (table : ProcessTable) : Except IoError Authority := do
  let t ← s.transferred.importClaudeRemoteControlBindings s.exportClaudeRemoteControlBindings
  t.importKiroLaunchHolders table s.exportKiroLaunchHolders

end Authority

end Boomux.Handoff
