import Boomux.Basic.Run
import Boomux.Daemon.Agents
import Boomux.Daemon.Integrations
import Boomux.Daemon.Recovery

/-!
# Resuming agents

A pending Shell whose last run was interrupted is started with a resume command when its run
recorded exactly one session that can be resumed, and no other Shell's last run recorded it too.
The answer changes with every start, since a start replaces a last run. `ResumeWorld.launches` and
`ResumeWorld.undone` are not in the source: they list the resume commands that processes were
spawned with, each with the registry it was chosen from. The second has those whose start was rolled
back, so that the Shell has the run again that it had before.
-/

set_option autoImplicit false

namespace Boomux.Daemon

open Rust Integrations StartWorld Transition

/-- The `resume` of the descriptor of a key. -/
def resumeCapability (key : String) : Option ResumeCapability := (byKey key).bind (·.resume)

/-! ## The choice of a session -/

/-- `ResumableAgent`. -/
structure ResumableAgent where
  agentId : String
  integration : String
  externalSessionId : String
  command : List String
  deriving DecidableEq, Repr

/-- `resume_identity`. -/
def resumeIdentity (agent : AgentInstance) (shellId : String) (shell : Shell) (cwd : String)
    (previousRun : PersistedShellRun) : Option (String × String) :=
  if agent.workspaceId ≠ shell.workspaceId ∨ agent.shellId ≠ shellId ∨
      agent.runId ≠ previousRun.id ∨ !agent.cwd.any (samePath · cwd) ∨
      (resumeCapability agent.integration).isNone then none
  else
    match agent.externalSessionId.filter (· ≠ "") with
    | none => none
    | some externalSessionId =>
        if agent.state.endedAtMs.isSome ∨
            agent.state.observation.authority ≠ .lifecycleIntegration ∨
            agent.state.observation.state = .done then none
        else some (agent.integration, externalSessionId)

namespace AgentRegistry

variable (d : AgentRegistry)

/-- The sessions that the last run of a Shell recorded, with their agents and whether they are
inactive. -/
def resumeCandidates (shellId : String) (shell : Shell) (previousRun : PersistedShellRun) :
    List (String × (String × String) × Bool) :=
  d.agents.filterMap fun agent =>
    (resumeIdentity agent shellId shell (d.rest.specs shellId).cwd previousRun).map fun identity =>
      (agent.id, identity, agent.state.observation.state = .inactive)

/-- Some other Shell's last run recorded the session as well. -/
def duplicateSession (shellId : String) (identity : String × String) : Bool :=
  d.shells.keys.any fun other => other ≠ shellId ∧
    (d.shells.get other).any fun shell =>
      shell.lastRun.any fun lastRun =>
        d.agents.any fun agent =>
          resumeIdentity agent other shell (d.rest.specs other).cwd lastRun = some identity

/-- `DurableRegistry::resumable_agent`. -/
def resumableAgent (shellId : String) (shell : Shell) (previousRun : PersistedShellRun) :
    Option ResumableAgent :=
  let candidates := d.resumeCandidates shellId shell previousRun
  -- a session that has ended does not obscure the one that was still active
  let candidates := if candidates.any fun candidate => !candidate.2.2 then
      candidates.filter fun candidate => !candidate.2.2
    else candidates
  match candidates with
  | [(agentId, identity, _)] =>
      if d.duplicateSession shellId identity then none
      else
        ((resumeCapability identity.1).bind fun resume =>
          resume.command (d.rest.specs shellId).command identity.2).map fun command =>
            ⟨agentId, identity.1, identity.2, command⟩
  | _ => none

end AgentRegistry

/-- `resumable_agent` of the service: only an interrupted run is resumed. -/
def resumableAgent (resumeAgents : Bool) (d : AgentRegistry) (shellId : String) (shell : Shell)
    (previousRun : Option PersistedShellRun) : Option ResumableAgent :=
  if !resumeAgents then none
  else
    (previousRun.filter fun run => run.exitReason = some .interrupted).bind
      (d.resumableAgent shellId shell)

/-! ## Runs of starts -/

/-- A resume command that a Shell was started with. -/
structure Launch where
  shellId : String
  registry : AgentRegistry
  agent : ResumableAgent

/-- The session that the command resumes. -/
def Launch.identity (launch : Launch) : String × String :=
  (launch.agent.integration, launch.agent.externalSessionId)

/-- The resume command that a start of the Shell would use, if it is pending. -/
def AgentRegistry.launch (d : AgentRegistry) (resumeAgents : Bool) (shellId : String) :
    Option Launch :=
  (d.shells.get shellId).bind fun shell =>
    if shell.lifecycle = .pending then
      (Daemon.resumableAgent resumeAgents d shellId shell shell.lastRun).map (⟨shellId, d, ·⟩)
    else none

/-- A Shell that waits to be recovered. -/
def Shell.Waits (shell : Shell) : Prop :=
  shell.lifecycle = .pending ∧ ∃ run, shell.lastRun = some run ∧ run.exitReason = some .interrupted

/-- What other requests leave alone: the Shells that wait, and the agents of their last runs. No
Shell begins to wait. -/
structure Spares (d d' : AgentRegistry) : Prop where
  specs : d'.rest.specs = d.rest.specs
  shells : ∀ id shell, d'.shells.get id = some shell → shell.Waits → d.shells.get id = some shell
  agents : ∀ id shell run, d'.shells.get id = some shell → shell.Waits → shell.lastRun = some run →
    ∀ agent ∈ d'.agents, agent.shellId = id → agent.runId = run.id → agent ∈ d.agents

/-- Another change of the registry: the started Shells run, register agents, report and exit. No
report on an agent of a Shell that waits is among them. -/
structure OtherChange where
  run : AgentRegistry → AgentRegistry
  spares : ∀ d, Spares d (run d)

structure ResumeWorld where
  start : StartWorld AgentContent
  /-- `notification_settings.resume_agents` -/
  resumeAgents : Bool
  launches : List Launch
  undone : List Launch

inductive ResumeAction
  | start (call : StartCall)
  | other (change : OtherChange)

/-- The resume command of one turn of the staging loop, if it spawns a process. -/
def stagedLaunch (resumeAgents : Bool) (s : Staged AgentContent) (target : ShellRecoveryTarget) :
    Option Launch :=
  if (s.stage target).started.length = s.started.length then none
  else AgentRegistry.launch s.world.durable.state resumeAgents target.shellId

/-- The resume commands of a staging loop. -/
def stagedLaunches (resumeAgents : Bool) (s : Staged AgentContent) :
    List ShellRecoveryTarget → List Launch
  | [] => []
  | target :: targets =>
      (stagedLaunch resumeAgents s target).toList ++
        stagedLaunches resumeAgents (s.stage target) targets

namespace ResumeWorld

variable (w : ResumeWorld)

/-- The registry. -/
abbrev registry : AgentRegistry := w.start.durable.state

/-- The resume command of an attach, if it spawns a process. -/
def attachLaunch (shellId : String) (o : AttachOutcome) : Option Launch :=
  if (w.start.shells.get shellId).any fun shell =>
      w.start.attachSpawns shellId shell.lastRun o then
    AgentRegistry.launch w.registry w.resumeAgents shellId
  else none

/-- The resume commands of a recovery. -/
def recoveryLaunches (targets : List ShellRecoveryTarget) : List Launch :=
  if w.start.attempts targets then
    stagedLaunches w.resumeAgents ⟨w.start, [], [], [], none⟩ targets
  else []

/-- A failed recovery undoes the launches whose process it can stop. A failed attach undoes none:
its Shell keeps the failed run. -/
def call : StartCall → ResumeWorld
  | .attach shellId profile runId o =>
      { w with
        start := (w.start.attach shellId profile runId o).2
        launches := w.launches ++ (w.attachLaunch shellId o).toList }
  | .recoverShells targets saveError meanwhile cleanup resume =>
      match w.start.recoverShells targets saveError meanwhile cleanup resume with
      | (.done .., start) =>
          { w with start := start, launches := w.launches ++ w.recoveryLaunches targets }
      | (.failed _, start) =>
          { w with
            start := start
            launches := w.launches ++ (w.recoveryLaunches targets).filter fun launch =>
              (cleanup launch.shellId).outcome ≠ .stopped
            undone := w.undone ++ (w.recoveryLaunches targets).filter fun launch =>
              (cleanup launch.shellId).outcome = .stopped }

def step : ResumeAction → Option ResumeWorld
  | .start call => some (w.call call)
  | .other change =>
      some { w with start.durable.state := change.run w.registry }

end ResumeWorld

/-! ## What a launch is chosen from -/

/-- The last run of the Shell recorded the session with lifecycle authority, in the Shell's own
directory, and not ended; it was interrupted, and the command resumes that session. -/
structure Launch.RecordedBy (launch : Launch) (shell : Shell) (previous : PersistedShellRun)
    (agent : AgentInstance) : Prop where
  found : launch.registry.shells.get launch.shellId = some shell
  pending : shell.lifecycle = .pending
  lastRun : shell.lastRun = some previous
  interrupted : previous.exitReason = some .interrupted
  registered : agent ∈ launch.registry.agents
  agentId : agent.id = launch.agent.agentId
  workspaceId : agent.workspaceId = shell.workspaceId
  shellId : agent.shellId = launch.shellId
  runId : agent.runId = previous.id
  cwd : ∃ cwd, agent.cwd = some cwd ∧
    samePath cwd (launch.registry.rest.specs launch.shellId).cwd = true
  integration : agent.integration = launch.agent.integration
  externalSessionId : agent.externalSessionId = some launch.agent.externalSessionId
  notEnded : agent.state.endedAtMs = none ∧ agent.state.observation.state ≠ .done
  authority : agent.state.observation.authority = .lifecycleIntegration
  command : ∃ resume, resumeCapability launch.agent.integration = some resume ∧
    resume.command (launch.registry.rest.specs launch.shellId).command
      launch.agent.externalSessionId = some launch.agent.command

/-- The last run of a waiting Shell recorded the session. -/
def AgentRegistry.Records (d : AgentRegistry) (id : String) (identity : String × String) : Prop :=
  ∃ shell run, d.shells.get id = some shell ∧ shell.Waits ∧ shell.lastRun = some run ∧
    ∃ agent ∈ d.agents,
      resumeIdentity agent id shell (d.rest.specs id).cwd run = some identity

variable {d d' : AgentRegistry} {shellId : String} {shell : Shell} {resumeAgents : Bool}

theorem resumeIdentity_eq_some {agent : AgentInstance} {cwd : String} {run : PersistedShellRun}
    {identity : String × String}
    (h : resumeIdentity agent shellId shell cwd run = some identity) :
    agent.workspaceId = shell.workspaceId ∧ agent.shellId = shellId ∧ agent.runId = run.id ∧
      (∃ path, agent.cwd = some path ∧ samePath path cwd = true) ∧
      agent.integration = identity.1 ∧ agent.externalSessionId = some identity.2 ∧
      (agent.state.endedAtMs = none ∧ agent.state.observation.state ≠ .done) ∧
      agent.state.observation.authority = .lifecycleIntegration := by
  unfold resumeIdentity at h
  split at h
  · cases h
  next hsame =>
    simp only [ne_eq, not_or, not_not, Bool.not_eq_true', Bool.not_eq_false,
      Option.any_eq_true] at hsame
    split at h
    · cases h
    next externalSessionId hid =>
      split at h
      · cases h
      next hlive =>
        simp only [not_or, Bool.not_eq_true, Option.isSome_eq_false_iff, Option.isNone_iff_eq_none,
          not_not] at hlive
        cases h
        obtain ⟨hworkspace, hshell, hrun, hcwd, -⟩ := hsame
        exact ⟨hworkspace, hshell, hrun, hcwd, rfl, (Option.filter_eq_some_iff.mp hid).1,
          ⟨hlive.1, hlive.2.2⟩, hlive.2.1⟩

theorem resumableAgent_eq_some {previousRun : PersistedShellRun} {resumable : ResumableAgent}
    (h : d.resumableAgent shellId shell previousRun = some resumable) :
    d.duplicateSession shellId (resumable.integration, resumable.externalSessionId) = false ∧
      (∃ resume, resumeCapability resumable.integration = some resume ∧
        resume.command (d.rest.specs shellId).command resumable.externalSessionId =
          some resumable.command) ∧
      ∃ agent ∈ d.agents, agent.id = resumable.agentId ∧
        resumeIdentity agent shellId shell (d.rest.specs shellId).cwd previousRun =
          some (resumable.integration, resumable.externalSessionId) := by
  unfold AgentRegistry.resumableAgent at h
  dsimp only at h
  have hsub : ∀ candidate, candidate ∈ (if (d.resumeCandidates shellId shell previousRun).any
        (fun candidate => !candidate.2.2) then
          (d.resumeCandidates shellId shell previousRun).filter fun candidate => !candidate.2.2
        else d.resumeCandidates shellId shell previousRun) →
      candidate ∈ d.resumeCandidates shellId shell previousRun := by
    intro candidate hmem
    split at hmem
    · exact (List.mem_filter.mp hmem).1
    · exact hmem
  split at h
  next agentId identity inactive hone =>
    split at h
    · cases h
    next hunique =>
      obtain ⟨command, hcommand, rfl⟩ := Option.map_eq_some_iff.mp h
      obtain ⟨resume, hresume, hcommand⟩ := Option.bind_eq_some_iff.mp hcommand
      have hmem := hsub (agentId, identity, inactive)
        (by rw [hone]; exact List.mem_singleton_self _)
      obtain ⟨agent, hagent, hfound⟩ := List.mem_filterMap.mp hmem
      obtain ⟨identity', hidentity, heq⟩ := Option.map_eq_some_iff.mp hfound
      obtain ⟨rfl, rfl⟩ : agent.id = agentId ∧ identity' = identity :=
        ⟨(Prod.mk.inj heq).1, (Prod.mk.inj (Prod.mk.inj heq).2).1⟩
      exact ⟨by simpa using hunique, ⟨resume, hresume, hcommand⟩, agent, hagent, rfl, hidentity⟩
  next => cases h

/-- A launch is of a session that its own Shell recorded, and no other. -/
theorem launch_eq_some {launch : Launch} (h : d.launch resumeAgents shellId = some launch) :
    launch.shellId = shellId ∧ (∃ shell previous agent, launch.RecordedBy shell previous agent) ∧
      ∀ id, d.Records id launch.identity ↔ id = shellId := by
  obtain ⟨shell, hget, h⟩ := Option.bind_eq_some_iff.mp h
  split at h
  next hpending =>
    obtain ⟨resumable, hresumable, rfl⟩ := Option.map_eq_some_iff.mp h
    unfold resumableAgent at hresumable
    split at hresumable
    · cases hresumable
    · obtain ⟨previous, hprevious, hresumable⟩ := Option.bind_eq_some_iff.mp hresumable
      obtain ⟨hlast, hinterrupted⟩ := Option.filter_eq_some_iff.mp hprevious
      obtain ⟨hunique, hcommand, agent, hagent, hid, hidentity⟩ :=
        resumableAgent_eq_some hresumable
      obtain ⟨hworkspace, hshell, hrun, hcwd, hintegration, hexternal, hlive, hauthority⟩ :=
        resumeIdentity_eq_some hidentity
      refine ⟨rfl, ⟨shell, previous, agent, hget, hpending, hlast, by simpa using hinterrupted,
        hagent, hid, hworkspace, hshell, hrun, hcwd, hintegration, hexternal, hlive, hauthority,
        hcommand⟩, fun id => ⟨?_, ?_⟩⟩
      · rintro ⟨other, run, hother, -, hlastRun, agent', hagent', hidentity'⟩
        by_contra hne
        rw [AgentRegistry.duplicateSession, List.any_eq_false] at hunique
        refine hunique id (AList.lookup_isSome.mp (by
          show (d.shells.get id).isSome = true
          rw [hother]
          rfl)) ?_
        simp only [decide_eq_true_eq]
        refine ⟨hne, ?_⟩
        rw [hother, Option.any_some, hlastRun, Option.any_some, List.any_eq_true]
        exact ⟨agent', hagent', decide_eq_true hidentity'⟩
      · rintro rfl
        exact ⟨shell, previous, hget, ⟨hpending, previous, hlast, by simpa using hinterrupted⟩,
          hlast, agent, hagent, hidentity⟩
  next => cases h

/-! ## What a start leaves of the Shells that wait -/

theorem Spares.refl (d : AgentRegistry) : Spares d d :=
  ⟨rfl, fun _ _ h _ => h, fun _ _ _ _ _ _ _ h _ _ => h⟩

theorem Spares.trans {d'' : AgentRegistry} (h : Spares d d') (h' : Spares d' d'') :
    Spares d d'' where
  specs := h'.specs.trans h.specs
  shells id shell hget hw := h.shells id shell (h'.shells id shell hget hw) hw
  agents id shell run hget hw hlast agent hagent hshell hrun :=
    h.agents id shell run (h'.shells id shell hget hw) hw hlast agent
      (h'.agents id shell run hget hw hlast agent hagent hshell hrun) hshell hrun

/-- A change of the Shells alone. -/
theorem Spares.of_shells (hrest : d'.rest = d.rest)
    (h : ∀ id shell, d'.shells.get id = some shell → shell.Waits → d.shells.get id = some shell) :
    Spares d d' :=
  ⟨by rw [hrest], h, fun _ _ _ _ _ _ agent hagent _ _ => by
    rw [AgentRegistry.agents, hrest] at hagent
    exact hagent⟩

/-- What a waiting Shell has recorded it had recorded before. -/
theorem Spares.records (h : Spares d d') {id : String} {identity : String × String}
    (hr : d'.Records id identity) : d.Records id identity := by
  obtain ⟨shell, run, hget, hw, hlast, agent, hagent, hidentity⟩ := hr
  obtain ⟨-, hshell, hrun, -⟩ := resumeIdentity_eq_some hidentity
  refine ⟨shell, run, h.shells id shell hget hw, hw, hlast, agent,
    h.agents id shell run hget hw hlast agent hagent hshell hrun, ?_⟩
  rwa [h.specs] at hidentity

theorem started_not_waits (shell : Shell) (run : ShellRun) (profile : TerminalProfile) :
    ¬ (shell.started run profile).Waits := fun h => nomatch h.1

/-- A run that is stopped was not interrupted. -/
theorem killShell_not_interrupted (shellId : String) (shell : Shell) {run : ShellRun}
    (profile : TerminalProfile) (hrun : run.exitReason = none) (cleanup : Cleanup) :
    (killShell shellId (shell.started run profile) cleanup).1 = shell.started run profile ∨
      ((killShell shellId (shell.started run profile) cleanup).1.lifecycle = .closed ∧
        ∀ last, (killShell shellId (shell.started run profile) cleanup).1.lastRun = some last →
          last.exitReason = some .terminated) := by
  have hstop : (finalizeStop shellId (shell.started run profile)).1.lifecycle = .closed ∧
      ∀ last, (finalizeStop shellId (shell.started run profile)).1.lastRun = some last →
        last.exitReason = some .terminated := by
    refine ⟨finalizeStop_lifecycle _ _, ?_⟩
    rintro last ⟨⟩
    simp [ShellRun.finish, hrun, ShellRun.persisted]
  unfold killShell
  cases cleanup.outcome
  case stopped => exact .inr hstop
  case cleanupFailed => exact .inr hstop
  all_goals exact .inl rfl

theorem resetPending_not_waits {run : ShellRun} {profile : TerminalProfile}
    (hrun : run.exitReason = none) (cleanup : Cleanup) :
    ¬ (resetPending (killShell shellId (shell.started run profile) cleanup).1).Waits := by
  rcases killShell_not_interrupted shellId shell profile hrun cleanup with hsame | ⟨hclosed, hlast⟩
  · rw [hsame]
    exact started_not_waits shell run profile
  · rintro ⟨-, last, hsome, hinterrupted⟩
    have hreset : (resetPending (killShell shellId (shell.started run profile) cleanup).1).lastRun =
        (killShell shellId (shell.started run profile) cleanup).1.lastRun := by
      unfold resetPending
      split <;> rfl
    rw [hlast last (hreset ▸ hsome)] at hinterrupted
    cases hinterrupted

/-- A Shell that waits after a rollback is as it was. -/
theorem rollbackShell_waits {cleanup : String → Cleanup} {previous : PersistedShellRun}
    {run : ShellRun} {profile : TerminalProfile} (hrun : run.exitReason = none)
    (hpending : shell.lifecycle = .pending) (hlast : shell.lastRun = some previous)
    (h : (rollbackShell cleanup ⟨shellId, previous⟩ (shell.started run profile)).Waits) :
    rollbackShell cleanup ⟨shellId, previous⟩ (shell.started run profile) = shell := by
  have hkilled := killShell_not_interrupted shellId shell profile hrun (cleanup shellId)
  have hworkspace : (killShell shellId (shell.started run profile)
      (cleanup shellId)).1.workspaceId =
      shell.workspaceId := by
    unfold killShell
    split <;> rfl
  unfold rollbackShell at h ⊢
  cases hkill : killShell shellId (shell.started run profile) (cleanup shellId) with
  | mk killed error =>
      rw [hkill] at h hkilled hworkspace
      dsimp only at h hkilled hworkspace ⊢
      cases error with
      | some text =>
          rcases hkilled with rfl | ⟨hclosed, -⟩
          · exact absurd h (started_not_waits shell run profile)
          · rw [h.1] at hclosed
            cases hclosed
      | none =>
          dsimp only at h ⊢
          rcases hkilled with rfl | ⟨hclosed, -⟩
          · cases h.1
          · unfold resetPending
            rw [hclosed]
            cases shell
            simp_all

namespace StartWorld

variable {w u : StartWorld AgentContent}

theorem modifyShell_rest (id : String) (f : Shell → Shell) :
    (w.modifyShell id f).durable.state.rest = w.durable.state.rest := by
  unfold modifyShell Durable.modifyShell
  split <;> rfl

theorem writePersistedState_durable (saveError : Option IoError) :
    (w.writePersistedState saveError).durable.state = w.durable.state :=
  writePersistedState_state _ _ _

theorem persistStart_durable (w : StartWorld AgentContent) (shellId : String)
    (run : PersistedShellRun) (journaled : Bool) (o : AttachOutcome) :
    (w.persistStart shellId run journaled o).2.durable.state = w.durable.state := by
  have hfallback : ∀ w : StartWorld AgentContent,
      (w.fallback o).2.durable.state = w.durable.state := by
    intro w
    unfold fallback
    dsimp only
    split
    · exact writePersistedState_durable _
    · exact writePersistedState_durable _
    · split <;> exact writePersistedState_durable _
  unfold persistStart
  split
  · dsimp only
    split
    · rfl
    · exact hfallback _
  · exact writePersistedState_durable _

/-- Editing one Shell, so that it does not wait. -/
theorem spares_modifyShell {f : Shell → Shell}
    (h : ∀ shell, w.shells.get shellId = some shell → ¬ (f shell).Waits) :
    Spares w.durable.state (w.modifyShell shellId f).durable.state := by
  refine .of_shells (modifyShell_rest _ _) fun id shell hget hw => ?_
  have hget' := hget
  change (w.modifyShell shellId f).shells.get id = some shell at hget'
  rw [get_modifyShell] at hget'
  split at hget'
  next hid =>
    subst hid
    obtain ⟨old, hold, rfl⟩ := Option.map_eq_some_iff.mp hget'
    exact absurd hw (h old hold)
  next => exact hget'

theorem spares_startRun (run : ShellRun) (profile : TerminalProfile) :
    Spares w.durable.state (w.startRun shellId run profile).durable.state :=
  spares_modifyShell fun shell _ => started_not_waits shell run profile

theorem get_kill {shell : Shell} (hget : w.shells.get shellId = some shell) (cleanup : Cleanup) :
    (w.kill shellId cleanup).shells.get shellId = some (killShell shellId shell cleanup).1 := by
  rw [kill, get_modifyShell, if_pos rfl, hget, Option.map_some]

theorem kill_get_other {id : String} (hid : id ≠ shellId) (cleanup : Cleanup) :
    (w.kill shellId cleanup).shells.get id = w.shells.get id := by
  rw [kill, get_modifyShell, if_neg hid]

theorem cleaned_not_waits {shell shell' : Shell} {run : ShellRun} {profile : TerminalProfile}
    (hget : w.shells.get shellId = some (shell.started run profile)) (hrun : run.exitReason = none)
    {cleanup : Cleanup} (hget' :
      ((w.kill shellId cleanup).modifyShell shellId resetPending).shells.get
      shellId = some shell') : ¬ shell'.Waits := by
  rw [get_modifyShell, if_pos rfl, get_kill hget, Option.map_some] at hget'
  cases hget'
  exact resetPending_not_waits hrun cleanup

/-- A start that has failed and is cleaned up. -/
theorem spares_cleaned {shell : Shell} {run : ShellRun} {profile : TerminalProfile}
    (hget : w.shells.get shellId = some (shell.started run profile)) (hrun : run.exitReason = none)
    (cleanup : Cleanup) : Spares w.durable.state
      ((w.kill shellId cleanup).modifyShell shellId resetPending).durable.state := by
  refine .of_shells ?_ fun id shell' hget' hw => ?_
  · rw [modifyShell_rest, kill, modifyShell_rest]
  · by_cases hid : id = shellId
    · subst hid
      exact absurd hw (cleaned_not_waits hget hrun hget')
    · have hshell : ((w.kill shellId cleanup).modifyShell shellId resetPending).shells.get id =
        some shell' := hget'
      rwa [get_modifyShell, if_neg hid, kill_get_other hid] at hshell

/-- An attach leaves the other Shells that wait. When it has spawned a process, its own Shell does
not wait any more. -/
theorem attach_spares (w : StartWorld AgentContent) (shellId : String) (profile : TerminalProfile)
    (runId : String) (o : AttachOutcome) :
    Spares w.durable.state (w.attach shellId profile runId o).2.durable.state ∧
      ∀ shell, w.shells.get shellId = some shell → w.attachSpawns shellId shell.lastRun o = true →
        ∀ shell', (w.attach shellId profile runId o).2.shells.get shellId = some shell' →
          ¬ shell'.Waits := by
  -- Without a Shell nothing is attached.
  rcases Option.eq_none_or_eq_some (w.shells.get shellId) with hget | ⟨shell, hget⟩
  · have hsame : (w.attach shellId profile runId o).2 = w := by
      unfold attach
      rw [hget]
    rw [hsame]
    refine ⟨.refl _, fun shell hsome => ?_⟩
    rw [hget] at hsome
    cases hsome
  · by_cases hpending : shell.lifecycle = .pending
    -- The ways an attach of a waiting Shell can end.
    · have hends := attach_ends hget hpending profile runId o
      generalize w.attach shellId profile runId o = result at hends
      have hstarted : ∀ generation, (w.startRun shellId (.new runId generation)
          profile).shells.get shellId = some (shell.started (.new runId generation) profile) :=
        fun generation => get_startRun hget _ profile
      have hspawned : ∀ generation, Spares w.durable.state
          (w.startRun shellId (.new runId generation) profile).durable.state :=
        fun generation => spares_startRun _ _
      cases hends with
      -- It fails before the process is there.
      | early error hspawns =>
          refine ⟨.refl _, fun shell' heq ht => ?_⟩
          obtain rfl : shell = shell' := Option.some.inj (hget.symm.trans heq)
          rw [hspawns] at ht
          cases ht
      -- The process is there without its reader: it is cleaned up.
      | reader error generation =>
          exact ⟨(hspawned generation).trans (spares_cleaned (hstarted generation) rfl _),
            fun _ _ _ _ hget' => cleaned_not_waits (hstarted generation) rfl hget'⟩
      -- The save failed: the process is cleaned up.
      | save error journaled generation =>
          have hsame := persistStart_durable (w.attachStarted shellId (.new runId generation)
            profile o) shellId ((ShellRun.new runId generation).persisted profile) journaled o
          generalize ((w.attachStarted shellId (.new runId generation) profile o).persistStart
            shellId ((ShellRun.new runId generation).persisted profile) journaled o).2 = saved
            at hsame
          have hsaved : saved.shells.get shellId =
              some (shell.started (.new runId generation) profile) := by
            rw [StartWorld.shells, hsame]
            exact hstarted generation
          have hcleaned := spares_cleaned hsaved rfl o.cleanup
          rw [hsame] at hcleaned
          refine ⟨(hspawned generation).trans hcleaned, fun _ _ _ shell' hget' => ?_⟩
          change ((saved.kill shellId o.cleanup).modifyShell shellId resetPending).shells.get
            shellId = some shell' at hget'
          exact cleaned_not_waits hsaved rfl hget'
      -- The run has started.
      | done journaled generation =>
          have hsame := persistStart_durable (w.attachStarted shellId (.new runId generation)
            profile o) shellId ((ShellRun.new runId generation).persisted profile) journaled o
          have hdone : ∀ kinds, (((w.attachStarted shellId (.new runId generation) profile
              o).persistStart shellId ((ShellRun.new runId generation).persisted profile)
              journaled o).2.appendBatch kinds).durable.state =
              (w.startRun shellId (.new runId generation) profile).durable.state := fun _ => hsame
          refine ⟨?_, fun _ _ _ shell' hget' => ?_⟩
          · rw [hdone]
            exact hspawned generation
          · rw [StartWorld.shells, hdone] at hget'
            have : shell.started (.new runId generation) profile = shell' :=
              Option.some.inj ((hstarted generation).symm.trans hget')
            exact this ▸ started_not_waits _ _ _
    -- The Shell does not wait, and the attach finds it running or ended.
    · have hsame : (w.attach shellId profile runId o).2 = w := by
        unfold attach
        rw [hget]
        dsimp only
        cases hl : shell.lifecycle with
        | pending => exact absurd hl hpending
        | running | exited | closed => rfl
      rw [hsame]
      refine ⟨.refl _, fun _ _ _ shell' hget' hw => ?_⟩
      have : shell = shell' := Option.some.inj (hget.symm.trans hget')
      exact hpending (this ▸ hw.1)

/-! ## What a recovery leaves of them -/

theorem recovered_exitReason {target : ShellRecoveryTarget} {shell : Shell}
    {previous : PersistedShellRun} {run : ShellRun}
    (h : w.recovered target = some (shell, previous, run)) : run.exitReason = none := by
  unfold recovered at h
  split at h
  next =>
    obtain ⟨generation, -, heq⟩ := Option.map_eq_some_iff.mp h
    cases heq
    rfl
  next => cases h

theorem rollbackOne_rest (cleanup : String → Cleanup) (entry : StartedRecovery) :
    (w.rollbackOne cleanup entry).durable.state.rest = w.durable.state.rest := by
  unfold rollbackOne
  dsimp only
  split
  · rw [kill, modifyShell_rest]
  · rw [modifyShell_rest, kill, modifyShell_rest]

theorem rollbackRecovery_rest (cleanup : String → Cleanup) (error : DaemonError)
    (started : List StartedRecovery) : (w.rollbackRecovery cleanup error
      started).2.durable.state.rest = w.durable.state.rest := by
  rw [rollbackRecovery_world]
  induction started.reverse generalizing w with
  | nil => rfl
  | cons entry entries ih => rw [List.foldl_cons, ih, rollbackOne_rest]

theorem stageAll_rest (s : Staged AgentContent) (targets : List ShellRecoveryTarget) :
    (targets.foldl Staged.stage s).world.durable.state.rest = s.world.durable.state.rest := by
  induction targets generalizing s with
  | nil => rfl
  | cons target targets ih =>
      rw [List.foldl_cons, ih]
      cases he : s.error with
      | some error => rw [Staged.stage, if_pos (by rw [he]; rfl)]
      | none =>
          have hends := stage_ends he target
          generalize s.stage target = staged at hends
          cases hends with
          | unavailable | fail => rfl
          | reader | started => exact modifyShell_rest _ _

/-- What the registry is after a recovery that comes to its staging loop. -/
theorem recoverShells_state {targets : List ShellRecoveryTarget} (h : w.attempts targets = true)
    (saveError : Option IoError) (meanwhile : List (List DaemonEventKind))
    (cleanup : String → Cleanup) (resume : String → Option IoError) :
    match w.recoverShells targets saveError meanwhile cleanup resume with
    | (.done .., u) => u.durable.state = (w.stageAll targets).world.durable.state
    | (.failed _, u) => ((w.stageAll targets).error.isSome = true ∨ saveError.isSome = true) ∧
        ∃ (v : StartWorld AgentContent) (error : DaemonError),
          v.durable.state = (w.stageAll targets).world.durable.state ∧
          u.durable.state =
            (v.rollbackRecovery cleanup error (w.stageAll targets).started).2.durable.state := by
  simp only [attempts, Bool.and_eq_true, Bool.not_eq_true', decide_eq_true_eq] at h
  obtain ⟨⟨hsize, hn⟩, hreserve⟩ := h
  unfold recoverShells
  rw [if_neg (by rw [hsize]; simp), if_neg (not_not.mpr hn)]
  cases hres : w.events.reserveWithPending targets.length with
  | error error => simp [hres, Except.isOk, Except.toBool] at hreserve
  | ok value =>
      dsimp only
      generalize w.stageAll targets = s
      cases he : s.error with
      | some error => exact ⟨.inl rfl, s.world, error, rfl, rfl⟩
      | none =>
          dsimp only
          by_cases hempty : s.started.isEmpty = true
          · rw [if_pos hempty]
          · rw [if_neg hempty]
            cases saveError with
            | some error => exact ⟨.inr rfl, (s.world.beginPersistence s.events.length
                meanwhile).writePersistedState (some error), .persistence error,
                writePersistedState_durable _, rfl⟩
            | none => exact writePersistedState_durable _

end StartWorld

/-- A process that cannot be stopped leaves a Shell that does not wait. -/
theorem rollbackShell_left_not_waits {cleanup : String → Cleanup} {previous : PersistedShellRun}
    {run : ShellRun} {profile : TerminalProfile} (hrun : run.exitReason = none)
    (h : (cleanup shellId).outcome ≠ .stopped) :
    ¬ (rollbackShell cleanup ⟨shellId, previous⟩ (shell.started run profile)).Waits := by
  have hkilled := killShell_not_interrupted shellId shell profile hrun (cleanup shellId)
  have hsome := (killShell_stopped shellId shell run profile (cleanup shellId)).not.mpr h
  unfold rollbackShell
  split
  next killed hk =>
    rw [hk] at hsome
    exact absurd rfl hsome
  next killed text hk =>
    rw [hk] at hkilled
    rcases hkilled with rfl | ⟨hclosed, -⟩
    · exact started_not_waits shell run profile
    · intro hw
      rw [hw.1] at hclosed
      cases hclosed

/-- A rollback leaves the other Shells that wait, and puts back those whose process it stops. -/
theorem rolledBack_spares {w u v : StartWorld AgentContent} {targets : List ShellRecoveryTarget}
    {s : Staged AgentContent} (h : Staging w targets s) (hn : (targets.map (·.shellId)).Nodup)
    (hrest : s.world.durable.state.rest = w.durable.state.rest) (cleanup : String → Cleanup)
    (error : DaemonError) (hv : v.durable.state = s.world.durable.state)
    (hu : u.durable.state = (v.rollbackRecovery cleanup error s.started).2.durable.state) :
    Spares w.durable.state u.durable.state := by
  refine .of_shells ?_ fun id shell hget hw => ?_
  · rw [hu, rollbackRecovery_rest, hv, hrest]
  · rw [hu] at hget
    have hshells : v.shells = s.world.shells := by rw [StartWorld.shells, hv]
    by_cases hid : ∃ t ∈ targets, w.spawns t = true ∧ t.shellId = id
    · obtain ⟨t, ht, hs, rfl⟩ := hid
      obtain ⟨old, previous, run, hr, hrolled⟩ := h.rolledBack hn cleanup error hshells ht hs
      obtain ⟨hselected, -, -⟩ := recovered_eq_some hr
      obtain ⟨hold, hpending, hlast⟩ := recoveryTarget_eq_ok hselected
      have hsame := Option.some.inj (hrolled.symm.trans hget)
      rw [← hsame] at hw ⊢
      rw [rollbackShell_waits (recovered_exitReason hr) hpending hlast hw]
      exact hold
    · rw [← h.rolledBack_other cleanup error hshells fun t ht hs heq => hid ⟨t, ht, hs, heq⟩]
      exact hget

/-! ## Every run -/

/-- The sessions have been launched once, and no Shell that waits has recorded one of them. -/
structure Kept (launches : List Launch) (d : AgentRegistry) : Prop where
  nodup : (launches.map Launch.identity).Nodup
  free : ∀ launch ∈ launches, ∀ id, ¬ d.Records id launch.identity

variable {launches : List Launch}

theorem Kept.spares (h : Kept launches d) (hs : Spares d d') : Kept launches d' :=
  ⟨h.nodup, fun launch hl id hr => h.free launch hl id (hs.records hr)⟩

/-- One more launch: its session is a new one, and its Shell does not wait any more. -/
theorem Kept.launch (h : Kept launches d) (hs : Spares d d') {launch : Launch}
    (hl : d.launch resumeAgents shellId = some launch)
    (hown : ∀ shell, d'.shells.get shellId = some shell → ¬ shell.Waits) :
    Kept (launches ++ [launch]) d' := by
  obtain ⟨-, -, hrecords⟩ := launch_eq_some hl
  constructor
  · rw [List.map_append, List.nodup_append]
    refine ⟨h.nodup, List.nodup_singleton _, fun identity hmem identity' hmem' heq => ?_⟩
    obtain ⟨old, hold, rfl⟩ := List.mem_map.mp hmem
    rw [List.map_singleton, List.mem_singleton] at hmem'
    refine h.free old hold shellId ?_
    rw [heq, hmem']
    exact (hrecords shellId).mpr rfl
  · intro l hmem id hr
    rcases List.mem_append.mp hmem with hmem | hmem
    · exact h.free l hmem id (hs.records hr)
    · obtain rfl := List.mem_singleton.mp hmem
      obtain rfl := (hrecords id).mp (hs.records hr)
      obtain ⟨shell, run, hget, hw, -⟩ := hr
      exact hown shell hget hw

theorem Kept.launch? (h : Kept launches d) (hs : Spares d d') {launch : Option Launch}
    (hl : ∀ l, launch = some l → d.launch resumeAgents shellId = some l ∧
      ∀ shell, d'.shells.get shellId = some shell → ¬ shell.Waits) :
    Kept (launches ++ launch.toList) d' := by
  cases launch with
  | none =>
      rw [Option.toList_none, List.append_nil]
      exact h.spares hs
  | some l => exact h.launch hs (hl l rfl).1 (hl l rfl).2

/-- One turn of the staging loop. -/
theorem Kept.stage {s : Staged AgentContent} (h : Kept launches s.world.durable.state)
    (target : ShellRecoveryTarget) :
    Kept (launches ++ (stagedLaunch resumeAgents s target).toList)
      (s.stage target).world.durable.state := by
  have hnone : s.stage target = s → stagedLaunch resumeAgents s target = none := fun hsame => by
    rw [stagedLaunch, hsame, if_pos rfl]
  cases he : s.error with
  | some error =>
      have hsame : s.stage target = s := by rw [Staged.stage, if_pos (by rw [he]; rfl)]
      rw [hnone hsame, hsame, Option.toList_none, List.append_nil]
      exact h
  | none =>
      have hends := stage_ends he target
      unfold stagedLaunch
      generalize s.stage target = staged at hends
      have hspawned : ∀ shell previous run,
          s.world.recovered target = some (shell, previous, run) →
          Kept (launches ++
            (AgentRegistry.launch s.world.durable.state resumeAgents target.shellId).toList)
            (s.world.startRun target.shellId run target.profile).durable.state := by
        intro shell previous run hr
        obtain ⟨hget, -, -⟩ := recoveryTarget_eq_ok (recovered_eq_some hr).1
        refine h.launch? (spares_startRun _ _) fun l hl => ⟨hl, fun shell' hget' => ?_⟩
        have hsame := Option.some.inj ((get_startRun hget run target.profile).symm.trans hget')
        exact hsame ▸ started_not_waits shell run target.profile
      cases hends with
      | unavailable error =>
          rw [if_pos (show (s.unavailable target error).started.length = s.started.length from rfl),
            Option.toList_none, List.append_nil]
          exact h
      | fail error =>
          rw [if_pos (show (s.fail error).started.length = s.started.length from rfl),
            Option.toList_none, List.append_nil]
          exact h
      | reader error shell previous run hr =>
          rw [if_neg (by simp [Staged.fail])]
          exact hspawned shell previous run hr
      | started shell previous run hr =>
          rw [if_neg (by simp)]
          exact hspawned shell previous run hr

/-- The staging loop. -/
theorem Kept.stageAll {s : Staged AgentContent} (h : Kept launches s.world.durable.state)
    (targets : List ShellRecoveryTarget) :
    Kept (launches ++ stagedLaunches resumeAgents s targets)
      (targets.foldl Staged.stage s).world.durable.state := by
  induction targets generalizing launches s with
  | nil =>
      rw [stagedLaunches, List.append_nil]
      exact h
  | cons target targets ih =>
      rw [stagedLaunches, ← List.append_assoc]
      exact ih (h.stage target)

/-- A rollback: what it cannot undo stays launched. -/
theorem rolledBack_kept {w u v : StartWorld AgentContent} {targets : List ShellRecoveryTarget}
    {s : Staged AgentContent} (hstaging : Staging w targets s)
    (hn : (targets.map (·.shellId)).Nodup)
    (hrest : s.world.durable.state.rest = w.durable.state.rest) (cleanup : String → Cleanup)
    (error : DaemonError) (hv : v.durable.state = s.world.durable.state)
    (hu : u.durable.state = (v.rollbackRecovery cleanup error s.started).2.durable.state)
    {new : List Launch} (h : Kept launches w.durable.state)
    (hkept : Kept (launches ++ new) s.world.durable.state)
    (hstops : ∀ launch ∈ new, (cleanup launch.shellId).outcome ≠ .stopped → ∀ t ∈ targets,
      w.spawns t = true → (cleanup t.shellId).outcome = .stopped →
        ¬ AgentRegistry.Records w.durable.state t.shellId launch.identity) :
    Kept (launches ++ new.filter fun launch => (cleanup launch.shellId).outcome ≠ .stopped)
      u.durable.state := by
  have hspares := rolledBack_spares hstaging hn hrest cleanup error hv hu
  refine ⟨hkept.nodup.sublist ((List.filter_sublist.append_left launches).map _), ?_⟩
  intro launch hmem id hr
  rcases List.mem_append.mp hmem with hmem | hmem
  · exact h.free launch hmem id (hspares.records hr)
  · obtain ⟨hnew, hleft⟩ := List.mem_filter.mp hmem
    have hshells : v.shells = s.world.shells := by rw [StartWorld.shells, hv]
    have hrecords := hspares.records hr
    obtain ⟨shell, run, hget, hw, hlast, agent, hagent, hidentity⟩ := hr
    by_cases hid : ∃ t ∈ targets, w.spawns t = true ∧ t.shellId = id
    · -- a Shell of the recovery itself waits only if its process has been stopped
      obtain ⟨t, ht, hs, rfl⟩ := hid
      by_cases hstopped : (cleanup t.shellId).outcome = .stopped
      · exact hstops launch hnew (of_decide_eq_true hleft) t ht hs hstopped hrecords
      · obtain ⟨old, previous, started, hrecovered, hrolled⟩ :=
          hstaging.rolledBack hn cleanup error hshells ht hs
        rw [hu] at hget
        have hsame := Option.some.inj (hrolled.symm.trans hget)
        exact rollbackShell_left_not_waits (recovered_exitReason hrecovered) hstopped (hsame ▸ hw)
    · -- any other is as it was when the launch was chosen
      have hother : ∀ t ∈ targets, w.spawns t = true → t.shellId ≠ id := fun t ht hs heq =>
        hid ⟨t, ht, hs, heq⟩
      have hspared : u.durable.state.rest = s.world.durable.state.rest := by
        rw [hu, rollbackRecovery_rest, hv]
      refine hkept.free launch (List.mem_append_right _ hnew) id ⟨shell, run, ?_, hw, hlast, agent,
        ?_, ?_⟩
      · rw [hu] at hget
        exact (hstaging.others id hother).trans
          ((hstaging.rolledBack_other cleanup error hshells hother).symm.trans hget)
      · rw [AgentRegistry.agents, ← hspared]
        exact hagent
      · rw [← hspared]
        exact hidentity

theorem mem_stagedLaunches {s : Staged AgentContent} {targets : List ShellRecoveryTarget}
    {launch : Launch} (h : launch ∈ stagedLaunches resumeAgents s targets) :
    ∃ (d : AgentRegistry) (shellId : String), d.launch resumeAgents shellId = some launch := by
  induction targets generalizing s with
  | nil => cases h
  | cons target targets ih =>
      rcases List.mem_append.mp h with h | h
      · have hsome := Option.mem_toList.mp h
        rw [stagedLaunch] at hsome
        split at hsome
        · cases hsome
        · exact ⟨_, _, hsome⟩
      · exact ih h

namespace ResumeWorld

variable {w : ResumeWorld}

/-- A recovery that fails puts no Shell back that had recorded a session which the recovery has just
resumed in a process that it cannot stop. -/
def StopsResumed (w : ResumeWorld) : ResumeAction → Prop
  | .start (.recoverShells targets saveError _ cleanup _) =>
      targets.any w.start.breaks = true ∨ saveError.isSome = true →
        ∀ launch ∈ w.recoveryLaunches targets, (cleanup launch.shellId).outcome ≠ .stopped →
          ∀ t ∈ w.start.reached targets, w.start.spawns t = true →
            (cleanup t.shellId).outcome = .stopped →
              ¬ w.registry.Records t.shellId launch.identity
  | _ => True

/-- Each session is launched at most once, except by starts that have been undone; and each launch
is of a session that its own Shell recorded. -/
structure Exclusive (w : ResumeWorld) : Prop where
  once : (w.launches.map Launch.identity).Nodup
  recorded : ∀ launch ∈ w.launches ++ w.undone,
    ∃ shell previous agent, launch.RecordedBy shell previous agent

theorem attach_kept (h : Kept w.launches w.registry) (shellId : String) (profile : TerminalProfile)
    (runId : String) (o : AttachOutcome) :
    Kept (w.call (.attach shellId profile runId o)).launches
      (w.call (.attach shellId profile runId o)).registry := by
  obtain ⟨hspares, hown⟩ := attach_spares w.start shellId profile runId o
  have hlaunch : ∀ l, w.attachLaunch shellId o = some l →
      AgentRegistry.launch w.registry w.resumeAgents shellId = some l ∧
        ∀ shell, (w.start.attach shellId profile runId o).2.shells.get shellId = some shell →
          ¬ shell.Waits := by
    intro l hl
    rw [attachLaunch] at hl
    split at hl
    next hspawns =>
      rw [Option.any_eq_true] at hspawns
      obtain ⟨shell, hget, hspawns⟩ := hspawns
      exact ⟨hl, hown shell hget hspawns⟩
    next => cases hl
  exact h.launch? hspares hlaunch

theorem recovery_kept (h : Kept w.launches w.registry) {targets : List ShellRecoveryTarget}
    {saveError : Option IoError} {meanwhile : List (List DaemonEventKind)}
    {cleanup : String → Cleanup} {resume : String → Option IoError}
    (hstops : w.StopsResumed (.start (.recoverShells targets saveError meanwhile cleanup resume))) :
    Kept (w.call (.recoverShells targets saveError meanwhile cleanup resume)).launches
      (w.call (.recoverShells targets saveError meanwhile cleanup resume)).registry := by
  cases ha : w.start.attempts targets with
  | false =>
      obtain ⟨error, hr⟩ := recoverShells_of_not_attempts ha saveError meanwhile cleanup resume
      have hlaunches : w.recoveryLaunches targets = [] := by
        rw [recoveryLaunches, ha]
        rfl
      simp only [call, hr, hlaunches, List.filter_nil, List.append_nil]
      exact h
  | true =>
      have hlaunches : w.recoveryLaunches targets =
          stagedLaunches w.resumeAgents ⟨w.start, [], [], [], none⟩ targets := by
        rw [recoveryLaunches, if_pos ha]
      have hkept : Kept (w.launches ++ w.recoveryLaunches targets)
          (w.start.stageAll targets).world.durable.state := by
        rw [hlaunches]
        exact Kept.stageAll (s := ⟨w.start, [], [], [], none⟩) h targets
      have hstate := recoverShells_state ha saveError meanwhile cleanup resume
      unfold call
      dsimp only
      cases hresult : w.start.recoverShells targets saveError meanwhile cleanup resume with
      | mk result u =>
          rw [hresult] at hstate
          cases result with
          | done results resumeError =>
              dsimp only at hstate ⊢
              rw [registry, hstate]
              exact hkept
          | failed error =>
              dsimp only at hstate ⊢
              obtain ⟨hfails, v, error, hv, hu⟩ := hstate
              simp only [attempts, Bool.and_eq_true, decide_eq_true_eq] at ha
              obtain ⟨⟨-, hn⟩, -⟩ := ha
              obtain ⟨hstaging, herror⟩ := (Staging.start w.start).foldl rfl
                (show (([] ++ targets).map ShellRecoveryTarget.shellId).Nodup from hn)
              have hsub := reached_sublist (w := w.start) targets
              change (w.start.stageAll targets).error.isSome = _ at herror
              rw [herror] at hfails
              exact rolledBack_kept hstaging (hn.sublist (hsub.map _)) (stageAll_rest _ _) cleanup
                error hv hu h hkept (hstops hfails)

/-- One step. -/
theorem step_kept {action : ResumeAction} {u : ResumeWorld} (h : Kept w.launches w.registry)
    (hstops : w.StopsResumed action) (hs : step w action = some u) :
    Kept u.launches u.registry := by
  cases action with
  | start call =>
      cases hs
      cases call with
      | attach shellId profile runId o => exact attach_kept h shellId profile runId o
      | recoverShells targets saveError meanwhile cleanup resume => exact recovery_kept h hstops
  | other change =>
      cases hs
      exact h.spares (change.spares w.registry)

/-- The launches of a call are chosen when its processes are spawned. -/
theorem call_recorded (call : StartCall)
    (h : ∀ launch ∈ w.launches ++ w.undone,
      ∃ shell previous agent, launch.RecordedBy shell previous agent) :
    ∀ launch ∈ (w.call call).launches ++ (w.call call).undone,
      ∃ shell previous agent, launch.RecordedBy shell previous agent := by
  have hchosen : ∀ {d : AgentRegistry} {shellId : String} {launch : Launch},
      d.launch w.resumeAgents shellId = some launch →
        ∃ shell previous agent, launch.RecordedBy shell previous agent :=
    fun hl => (launch_eq_some hl).2.1
  intro launch hmem
  cases call with
  | attach shellId profile runId o =>
      simp only [ResumeWorld.call, List.mem_append, Option.mem_toList] at hmem
      rcases hmem with (hmem | hmem) | hmem
      · exact h launch (List.mem_append_left _ hmem)
      · rw [attachLaunch] at hmem
        split at hmem
        · exact hchosen hmem
        · cases hmem
      · exact h launch (List.mem_append_right _ hmem)
  | recoverShells targets saveError meanwhile cleanup resume =>
      have hnew : launch ∈ w.launches ++ w.undone ∨ launch ∈ w.recoveryLaunches targets := by
        unfold ResumeWorld.call at hmem
        dsimp only at hmem
        split at hmem <;>
          simp only [List.mem_append, List.mem_filter] at hmem ⊢ <;> tauto
      rcases hnew with hold | hnew
      · exact h launch hold
      · rw [recoveryLaunches] at hnew
        split at hnew
        · obtain ⟨d, shellId, hl⟩ := mem_stagedLaunches hnew
          exact hchosen hl
        · cases hnew

/-- For every durable state and every order of starts and other changes: each session is launched
at most once, if no recovery fails in such a way that it puts a Shell back that had recorded a
session which it has just resumed in a process it cannot stop. Every resume command is for the
session that the Shell's own last run recorded. -/
theorem exclusive_along {actions : List ResumeAction} (hnone : w.launches = [])
    (hnone' : w.undone = []) (h : Meets step StopsResumed w actions) :
    Along step Exclusive w actions := by
  have hkept : Kept w.launches w.registry := by
    rw [hnone]
    exact ⟨List.nodup_nil, nofun⟩
  have hrecorded : ∀ launch ∈ w.launches ++ w.undone,
      ∃ shell previous agent, launch.RecordedBy shell previous agent := by
    rw [hnone, hnone']
    exact nofun
  clear hnone hnone'
  induction actions generalizing w with
  | nil => exact ⟨hkept.nodup, hrecorded⟩
  | cons action actions ih =>
      refine ⟨⟨hkept.nodup, hrecorded⟩, fun u hu => ?_⟩
      obtain ⟨hstops, hrest⟩ := h u hu
      refine ih hrest (step_kept hkept hstops hu) ?_
      cases action with
      | start call =>
          cases hu
          exact call_recorded call hrecorded
      | other change =>
          cases hu
          exact hrecorded

/-! ### Two Shells with one session -/

/-- An agent of the last run of the Shell, with the session `"x"`. -/
def sharedAgent (shellId : String) : AgentInstance :=
  ⟨"agent-" ++ shellId, "w", shellId, "old-" ++ shellId, "Codex", "codex", some "x",
    some "/work", 0,
    ⟨none, ⟨1, .working, .lifecycleIntegration, "hook", 100, 0⟩, none, []⟩⟩

def sharedProfile : TerminalProfile := ⟨none, none, none, none, 24, 80, 0, 0⟩

def sharedShell (shellId : String) : Shell :=
  ⟨"w", some ⟨"old-" ++ shellId, 1, some .interrupted, 3, sharedProfile, none⟩, .pending⟩

/-- Two interrupted Shells, whose last runs recorded the same session. -/
def sharedWorld : ResumeWorld where
  start :=
    { durable :=
        { state :=
            { workspaces := ["w"]
              shells := (AList.singleton "a" (sharedShell "a")).insert "b" (sharedShell "b")
              rest := ⟨fun _ => ⟨"/work", []⟩, [sharedAgent "a", sharedAgent "b"]⟩ }
          persistenceRevision := 0
          persistenceDirty := false
          edits := [] }
      events := ⟨.idle, ⟨"stream", 0, [], []⟩⟩
      journal := none
      next := 0
      effects := [] }
  resumeAgents := true
  launches := []
  undone := []

def sharedAttach (shellId runId : String) : ResumeAction :=
  .start (.attach shellId sharedProfile runId
    { prepareError := none
      spawnError := none
      readerError := none
      cleanup := ⟨.stopped, ""⟩
      appendIo := .written
      saveError := none
      checkpointError := none
      resetError := none
      meanwhile := []
      resumeError := none })

/-- A recovery of both Shells whose save fails. -/
def sharedRecovery (cleanup : String → Cleanup) : ResumeAction :=
  .start (.recoverShells
    [⟨"a", "old-a", sharedProfile, "new-a", ⟨none, none, none⟩⟩,
      ⟨"b", "old-b", sharedProfile, "new-b", ⟨none, none, none⟩⟩]
    (some (.ofMessage "no space left on device")) [] cleanup fun _ => none)

/-- The Shells and the sessions of the launches. -/
def launched (w : ResumeWorld) : List (String × String × String) :=
  w.launches.map fun launch => (launch.shellId, launch.identity)

/-- The recovery starts the first Shell bare and resumes the session in the second; both are put
back. Then the first that is attached is started bare, and the session is resumed in the other. -/
theorem exclusive_along_sharedRecovery :
    Along step Exclusive sharedWorld [sharedRecovery fun _ => ⟨.stopped, ""⟩,
        sharedAttach "b" "third", sharedAttach "a" "fourth"] ∧
      (exec step sharedWorld [sharedRecovery fun _ => ⟨.stopped, ""⟩,
        sharedAttach "b" "third", sharedAttach "a" "fourth"]).map launched =
          some [("a", "codex", "x")] := by
  constructor
  · refine exclusive_along rfl rfl fun u hu => ⟨fun _ _ _ hleft => absurd rfl hleft, ?_⟩
    exact fun v hv => ⟨trivial, fun v' hv' => ⟨trivial, trivial⟩⟩
  · decide +kernel

/-- The process of the second Shell cannot be stopped, and keeps the session; the first Shell is put
back, and the session is resumed in it as well. -/
theorem not_exclusive_along_sharedRecovery :
    (∃ u, exec step sharedWorld [sharedRecovery fun id =>
          ⟨if id = "b" then .killFailed else .stopped, "kill failed"⟩, sharedAttach "a" "third"] =
        some u ∧ launched u = [("b", "codex", "x"), ("a", "codex", "x")] ∧
      ((u.start.shells.get "b").bind Shell.running?).map (·.id) = some "new-b") ∧
      ¬ Along step Exclusive sharedWorld [sharedRecovery fun id =>
          ⟨if id = "b" then .killFailed else .stopped, "kill failed"⟩,
            sharedAttach "a" "third"] := by
  have hrun : (exec step sharedWorld [sharedRecovery fun id =>
        ⟨if id = "b" then .killFailed else .stopped, "kill failed"⟩,
        sharedAttach "a" "third"]).map (fun u => (launched u,
          ((u.start.shells.get "b").bind Shell.running?).map (·.id))) =
      some ([("b", "codex", "x"), ("a", "codex", "x")], some "new-b") := by
    decide +kernel
  obtain ⟨u, hu, hresult⟩ := Option.map_eq_some_iff.mp hrun
  obtain ⟨hlaunched, hrunning⟩ := Prod.mk.inj hresult
  refine ⟨⟨u, hu, hlaunched, hrunning⟩, fun h => ?_⟩
  have honce := (h.last hu).once
  have hidentities : u.launches.map Launch.identity = (launched u).map (·.2) := by
    rw [launched, List.map_map]
    rfl
  rw [hidentities, hlaunched] at honce
  exact absurd honce (by decide)

end ResumeWorld

end Boomux.Daemon
