import Boomux.Handoff.Authority

/-!
# Whose session an agent is

The calls on agents, holders and bindings as one machine, beside the changes of the Shells'
lifecycles and a restart into a replacement. `Sound` is what every reachable state satisfies:
the agent of a holder's session, as long as it is registered, is the Kiro agent of exactly this
session, Shell and run, and every record passes the checks of the manifest.
-/

set_option autoImplicit false

namespace Boomux.Handoff

open Rust Daemon Transition

/-! ## The machine -/

/-- One call, or one change of a lifecycle. `now` is the time, `table` the processes. -/
inductive AuthorityAction
  | createShell (shellId workspaceId : String)
  | startRun (shellId runId : String) (generation : Nat) (profile : TerminalProfile)
  | exitRun (shellId runId : String) (code : Option Nat)
  /-- a stop that is compensated: the run is over, the Shell stays -/
  | stopFailed (shellId : String)
  | restartShell (shellId : String)
  | closeShell (shellId : String)
  | closeWorkspace (workspaceId : String)
  | registerAgent (id : String) (now : Nat) (cwd : Option String) (shellId runId : String)
      (spec : AgentRegistrationSpec)
  | ensureAgent (id : String) (now : Nat) (cwd : Option String) (shellId runId : String)
      (spec : AgentRegistrationSpec)
  | reportAgent (now : Nat) (agentId runId : String) (report : AgentReport)
  | acknowledgeAgentAttention (agentId : String) (observationRevision : Nat)
  | observeAgentWorkingContext (now : Nat) (agentId shellId runId : String)
      (context : AgentWorkingContextSnapshot)
  | setBinding (agentId shellId runId : String) (bridgeSessionId : Option String)
  | getBinding (agentId shellId runId : String)
  | acquireHolder (before table : ProcessTable) (now : Nat) (holderId : String) (pid : Nat)
      (shellId runId : String)
  | reportHook (table : ProcessTable) (now : Nat) (agentId : String) (cwd : Option String)
      (holderId sessionId : String) (report : AgentReport)
  | releaseHolder (table : ProcessTable) (now : Nat) (holderId : String)
  | reconcile (table : ProcessTable) (now : Nat)
  /-- the replacement takes over -/
  | replace (table : ProcessTable)

namespace Authority

variable (s : Authority)

/-- A Shell is edited. -/
def editShell (shellId : String) (edit : Shell → Option Shell) : Option Authority := do
  let shell ← s.shells.get shellId
  let shell ← edit shell
  some { s with shells := s.shells.insert shellId shell }

/-- A UUID that no record names. -/
def fresh (id : String) : Bool :=
  isCanonicalUuid id && (agentOf s.agents id).isNone &&
    s.holders.all fun holder => holder.holderId ≠ id && holder.sessions.all (·.2 ≠ id)

/-- What is left when a Workspace is closed. -/
def withoutWorkspace (workspaceId : String) : Authority :=
  { s with
    shells := (s.shells.keys.filter fun id =>
      (s.shells.get id).any (·.workspaceId = workspaceId)).foldl (fun m id => m.erase id) s.shells
    agents := s.agents.filter (·.workspaceId ≠ workspaceId) }

/-- One call. A call that fails changes nothing and is not a step. -/
def step : AuthorityAction → Option Authority
  | .createShell shellId workspaceId =>
      if (s.shells.get shellId).isNone then
        some { s with shells := s.shells.insert shellId ⟨workspaceId, none, .pending⟩ }
      else none
  | .startRun shellId runId generation profile =>
      s.editShell shellId fun shell =>
        match shell.lifecycle with
        | .pending => some { shell with lifecycle := .running profile (.new runId generation) }
        | _ => none
  | .exitRun shellId runId code =>
      s.editShell shellId fun shell => (finalizeRunExit shellId shell runId code).map (·.1)
  | .stopFailed shellId =>
      s.editShell shellId fun shell => some (compensateStopped shellId shell).1
  | .restartShell shellId =>
      s.editShell shellId fun shell =>
        match shell.lifecycle with
        | .exited .. => some { shell with lifecycle := .pending }
        | _ => none
  | .closeShell shellId => some { s with shells := s.shells.erase shellId }
  | .closeWorkspace workspaceId => some (s.withoutWorkspace workspaceId)
  | .registerAgent id now cwd shellId runId spec =>
      if s.fresh id then ((s.registerAgent id now cwd shellId runId spec).map (·.1)).toOption
      else none
  | .ensureAgent id now cwd shellId runId spec =>
      if s.fresh id then ((s.ensureAgent id now cwd shellId runId spec).map (·.1)).toOption
      else none
  | .reportAgent now agentId runId report =>
      ((s.reportAgent now agentId runId report).map (·.1)).toOption
  | .acknowledgeAgentAttention agentId observationRevision =>
      (s.acknowledgeAgentAttention agentId observationRevision).toOption
  | .observeAgentWorkingContext now agentId shellId runId context =>
      (s.observeAgentWorkingContext now agentId shellId runId context).toOption
  | .setBinding agentId shellId runId bridgeSessionId =>
      (s.setClaudeRemoteControlBinding agentId shellId runId bridgeSessionId).toOption
  | .getBinding agentId shellId runId =>
      (s.getClaudeRemoteControlBinding agentId shellId runId).toOption
  | .acquireHolder before table now holderId pid shellId runId =>
      if s.fresh holderId then
        (s.acquireKiroLaunchHolder before table now holderId pid shellId runId).toOption
      else none
  | .reportHook table now agentId cwd holderId sessionId report =>
      if s.fresh agentId then
        ((s.reportKiroHook table now agentId cwd holderId sessionId report).map (·.1)).toOption
      else none
  | .releaseHolder table now holderId =>
      (s.releaseKiroLaunchHolder table now holderId).toOption
  | .reconcile table now => (s.reconcileDeadKiroHolders table now).toOption
  | .replace table => (s.transfer table).toOption

/-- A daemon that has just restored its state: no process holds anything yet. -/
structure Started : Prop where
  agents : Keyed.Distinct AgentInstance.id s.agents
  ids : ∀ agent ∈ s.agents, uuidParses agent.id = true
  bindings : s.bindings = []
  holders : s.holders = []

end Authority

/-! ## The invariant -/

/-- The agent is the Kiro agent of this session of the holder. -/
structure HeldBy (agent : AgentInstance) (holder : KiroLaunchHolderManifest)
    (sessionId : String) : Prop where
  integration : agent.integration = "kiro"
  session : agent.externalSessionId = some sessionId
  shell : agent.shellId = holder.shellId
  run : agent.runId = holder.runId

/-- The ids of a binding are written as a UUID is. -/
def Canonical (binding : ClaudeRemoteControlBindingSnapshot) : Prop :=
  isCanonicalUuid binding.agentId = true ∧ isCanonicalUuid binding.shellId = true ∧
    isCanonicalUuid binding.runId = true

/-- What every reachable state satisfies. -/
structure Authority.Sound (s : Authority) : Prop where
  agents : Keyed.Distinct AgentInstance.id s.agents
  ids : ∀ agent ∈ s.agents, uuidParses agent.id = true
  holders : Keyed.Distinct KiroLaunchHolderManifest.holderId s.holders
  holders_le : s.holders.length ≤ maxKiroLaunchHolders
  valid : ∀ holder ∈ s.holders, holder.valid = true
  held : ∀ holder ∈ s.holders, ∀ session ∈ holder.sessions, ∀ agent ∈ s.agents,
    agent.id = session.2 → HeldBy agent holder session.1
  bindings : Keyed.Distinct ClaudeRemoteControlBindingSnapshot.agentId s.bindings
  bindings_le : s.bindings.length ≤ maxClaudeRemoteControlBindings
  bridges : Keyed.Distinct ClaudeRemoteControlBindingSnapshot.bridgeSessionId s.bindings
  bound : ∀ binding ∈ s.bindings, binding.valid = true ∧ Canonical binding

theorem KiroLaunchHolderManifest.valid_iff {holder : KiroLaunchHolderManifest} :
    holder.valid = true ↔
      holder.pid ≠ 0 ∧ holder.startTime ≠ 0 ∧ uuidParses holder.holderId = true ∧
        uuidParses holder.shellId = true ∧ uuidParses holder.runId = true ∧
        holder.sessions.length ≤ maxKiroHolderSessions ∧
        (∀ session ∈ holder.sessions,
          plainText maxKiroSessionIdBytes session.1 = true ∧ uuidParses session.2 = true) ∧
        Keyed.Distinct Prod.fst holder.sessions := by
  simp only [KiroLaunchHolderManifest.valid, Bool.and_eq_true, decide_eq_true_eq, ne_eq,
    decide_not, Bool.not_eq_true', decide_eq_false_iff_not, List.all_eq_true, Keyed.Distinct,
    and_assoc]

namespace Authority

variable {s t u : Authority}

theorem Started.sound (h : s.Started) : s.Sound where
  agents := h.agents
  ids := h.ids
  holders := by rw [h.holders]; exact List.nodup_nil
  holders_le := by rw [h.holders]; exact Nat.zero_le _
  valid := by rw [h.holders]; nofun
  held := by rw [h.holders]; nofun
  bindings := by rw [h.bindings]; exact List.nodup_nil
  bindings_le := by rw [h.bindings]; exact Nat.zero_le _
  bridges := by rw [h.bindings]; exact List.nodup_nil
  bound := by rw [h.bindings]; nofun

/-- Fewer agents, in a list with distinct ids. -/
theorem Sound.filterAgents (h : s.Sound) (shells : Shells) (p : AgentInstance → Bool) :
    Sound { s with shells := shells, agents := s.agents.filter p } :=
  { h with
    agents := h.agents.filter p
    ids := fun agent ha => h.ids agent (List.mem_of_mem_filter ha)
    held := fun holder hh session hs agent ha =>
      h.held holder hh session hs agent (List.mem_of_mem_filter ha) }

theorem Sound.setShells (h : s.Sound) (shells : Shells) : Sound { s with shells := shells } :=
  { h with }

theorem Sound.filterHolders (h : s.Sound) (p : KiroLaunchHolderManifest → Bool) :
    Sound { s with holders := s.holders.filter p } :=
  { h with
    holders := h.holders.filter p
    holders_le := (List.length_filter_le p s.holders).trans h.holders_le
    valid := fun holder hh => h.valid holder (List.mem_of_mem_filter hh)
    held := fun holder hh => h.held holder (List.mem_of_mem_filter hh) }

theorem Sound.filterBindings (h : s.Sound) (p : ClaudeRemoteControlBindingSnapshot → Bool) :
    Sound { s with bindings := s.bindings.filter p } :=
  { h with
    bindings := h.bindings.filter p
    bindings_le := (List.length_filter_le p s.bindings).trans h.bindings_le
    bridges := h.bridges.filter p
    bound := fun binding hb => h.bound binding (List.mem_of_mem_filter hb) }

/-! ## Reports -/

/-- Agents got another state, and nothing else has changed. -/
structure Updates (s t : Authority) : Prop where
  shells : t.shells = s.shells
  holders : t.holders = s.holders
  bindings : t.bindings = s.bindings
  distinct : Keyed.Distinct AgentInstance.id s.agents → Keyed.Distinct AgentInstance.id t.agents
  agents : ∀ agent' ∈ t.agents, ∃ agent ∈ s.agents, agent' = { agent with state := agent'.state }

theorem Updates.refl (s : Authority) : s.Updates s :=
  ⟨rfl, rfl, rfl, id, fun agent ha => ⟨agent, ha, rfl⟩⟩

theorem Updates.trans (h : s.Updates t) (h' : t.Updates u) : s.Updates u where
  shells := h'.shells.trans h.shells
  holders := h'.holders.trans h.holders
  bindings := h'.bindings.trans h.bindings
  distinct := h'.distinct ∘ h.distinct
  agents := by
    intro agent'' ha''
    obtain ⟨agent', ha', he'⟩ := h'.agents agent'' ha''
    obtain ⟨agent, ha, he⟩ := h.agents agent' ha'
    refine ⟨agent, ha, ?_⟩
    rw [he', he]

theorem Sound.updates (h : s.Sound) (hu : s.Updates t) : t.Sound where
  agents := hu.distinct h.agents
  ids := by
    intro agent' ha'
    obtain ⟨agent, ha, he⟩ := hu.agents agent' ha'
    rw [he]
    exact h.ids agent ha
  holders := hu.holders ▸ h.holders
  holders_le := hu.holders ▸ h.holders_le
  valid := hu.holders ▸ h.valid
  held := by
    rw [hu.holders]
    intro holder hh session hs agent' ha' hid
    obtain ⟨agent, ha, he⟩ := hu.agents agent' ha'
    rw [he] at hid ⊢
    obtain ⟨h₁, h₂, h₃, h₄⟩ := h.held holder hh session hs agent ha hid
    exact ⟨h₁, h₂, h₃, h₄⟩
  bindings := hu.bindings ▸ h.bindings
  bindings_le := hu.bindings ▸ h.bindings_le
  bridges := hu.bindings ▸ h.bridges
  bound := hu.bindings ▸ h.bound

theorem setAgentState_updates (s : Authority) (agentId : String) (state : AgentInstanceState) :
    s.Updates (s.setAgentState agentId state) where
  shells := rfl
  holders := rfl
  bindings := rfl
  distinct h := h.adjust fun _ _ hid => hid
  agents := by
    intro agent' ha'
    rcases Keyed.mem_adjust.mp ha' with ⟨ha, -⟩ | ⟨agent, ha, -, rfl⟩
    · exact ⟨agent', ha, rfl⟩
    · exact ⟨agent, ha, rfl⟩

theorem reportAgent_updates {now : Nat} {agentId runId : String} {report : AgentReport}
    {outcome : ReportOutcome} (h : s.reportAgent now agentId runId report = .ok (t, outcome)) :
    s.Updates t := by
  simp only [reportAgent, bind_eq_ok] at h
  obtain ⟨-, -, -, -, h⟩ := h
  split at h
  next => cases h
  next agent _ =>
    simp only [bind_eq_ok, Except.ok.injEq, Prod.mk.injEq] at h
    obtain ⟨-, -, outcome, -, rfl, rfl⟩ := h
    exact s.setAgentState_updates _ _

theorem inactivateSession_updates {now : Nat} {remaining : List KiroLaunchHolderManifest}
    {holder : KiroLaunchHolderManifest} {r r' : Released} {session : String × String}
    (h : inactivateSession now remaining holder r session = .ok r') :
    r.authority.Updates r'.authority := by
  unfold inactivateSession at h
  dsimp only at h
  split at h
  next => cases h; exact .refl _
  next =>
    split at h
    next => cases h; exact .refl _
    next =>
      simp only [bind_eq_ok, Except.ok.injEq] at h
      obtain ⟨⟨authority, outcome⟩, hr, rfl⟩ := h
      exact reportAgent_updates hr

/-- A loop of updates is an update. -/
theorem foldlM_updates {α β : Type} {g : β → Authority} {l : List α}
    {f : β → α → Except DaemonError β} {b b' : β}
    (hf : ∀ b a b', f b a = .ok b' → (g b).Updates (g b'))
    (h : l.foldlM f b = .ok b') : (g b).Updates (g b') := by
  induction l generalizing b with
  | nil =>
      cases h
      exact .refl _
  | cons a l ih =>
      rw [List.foldlM_cons, bind_eq_ok] at h
      obtain ⟨c, hc, hl⟩ := h
      exact (hf b a c hc).trans (ih hl)

theorem inactivateReleased_updates {now : Nat} {remaining removed : List KiroLaunchHolderManifest}
    (h : s.inactivateReleasedKiroSessions now remaining removed = .ok t) : s.Updates t := by
  simp only [inactivateReleasedKiroSessions, bind_eq_ok, Except.ok.injEq] at h
  obtain ⟨r, hr, rfl⟩ := h
  refine foldlM_updates (g := Released.authority) ?_ hr
  intro b holder b' hb
  exact foldlM_updates (fun _ _ _ => inactivateSession_updates) hb

theorem inactivateUnowned_updates {now : Nat} (h : s.inactivateUnownedKiroAgents now = .ok t) :
    s.Updates t := by
  refine foldlM_updates (g := id) ?_ h
  intro b agent b' hb
  simp only [bind_eq_ok, Except.ok.injEq] at hb
  obtain ⟨⟨b'', outcome⟩, hr, rfl⟩ := hb
  exact reportAgent_updates hr

/-! ## Holders -/

/-- The removal of dead holders keeps some of the holders, and updates agents. -/
theorem pruneDead_eq_ok {table : ProcessTable} {now : Nat}
    {released : KiroLaunchHolderManifest → Bool}
    (h : s.pruneDeadKiroHolders table now released = .ok t) :
    ∃ p, Updates { s with holders := s.holders.filter p } t := by
  simp only [pruneDeadKiroHolders] at h
  have hu := inactivateReleased_updates h
  rw [List.filter_filter] at hu
  exact ⟨_, hu⟩

theorem Sound.pruneDead (h : s.Sound) {table : ProcessTable} {now : Nat}
    {released : KiroLaunchHolderManifest → Bool}
    (hp : s.pruneDeadKiroHolders table now released = .ok t) : t.Sound := by
  obtain ⟨p, hu⟩ := pruneDead_eq_ok hp
  exact (h.filterHolders p).updates hu

/-! ## New agents -/

/-- What `fresh` says. -/
theorem fresh_iff {id : String} : s.fresh id = true ↔
    isCanonicalUuid id = true ∧ (∀ agent ∈ s.agents, agent.id ≠ id) ∧
      ∀ holder ∈ s.holders, holder.holderId ≠ id ∧
        ∀ session ∈ holder.sessions, session.2 ≠ id := by
  simp only [fresh, agentOf, Bool.and_eq_true, Option.isNone_iff_eq_none, Keyed.get_eq_none,
    List.all_eq_true, ne_eq, and_assoc, decide_not, Bool.not_eq_true', decide_eq_false_iff_not]

/-- `fresh` survives the removal of holders. -/
theorem fresh_of_pruneDead {id : String} {table : ProcessTable} {now : Nat}
    {released : KiroLaunchHolderManifest → Bool} (hf : s.fresh id = true)
    (hp : s.pruneDeadKiroHolders table now released = .ok t) : t.fresh id = true := by
  obtain ⟨p, hu⟩ := pruneDead_eq_ok hp
  obtain ⟨huuid, hagents, hholders⟩ := fresh_iff.mp hf
  refine fresh_iff.mpr ⟨huuid, fun agent' ha' => ?_, fun holder hh => ?_⟩
  · obtain ⟨agent, ha, he⟩ := hu.agents agent' ha'
    rw [he]
    exact hagents agent ha
  · rw [hu.holders] at hh
    exact hholders holder (List.mem_of_mem_filter hh)

/-- A new agent under a fresh id. -/
theorem Sound.addAgent (h : s.Sound) {agent : AgentInstance} (hf : s.fresh agent.id = true) :
    Sound { s with agents := s.agents ++ [agent] } := by
  obtain ⟨huuid, hagents, hholders⟩ := fresh_iff.mp hf
  refine { h with agents := ?_, ids := ?_, held := ?_ }
  · exact h.agents.append_singleton (Keyed.get_eq_none.mpr hagents)
  · intro agent' ha'
    rcases List.mem_append.mp ha' with ha | ha
    · exact h.ids agent' ha
    · rw [List.mem_singleton.mp ha]
      exact uuidParses_of_isCanonicalUuid huuid
  · intro holder hh session hs agent' ha' hid
    rcases List.mem_append.mp ha' with ha | ha
    · exact h.held holder hh session hs agent' ha hid
    · rw [List.mem_singleton.mp ha] at hid
      exact absurd hid.symm ((hholders holder hh).2 session hs)

/-- The agent that is registered, and where it is kept. -/
theorem registerAgent_eq_ok {id : String} {now : Nat} {cwd : Option String}
    {shellId runId : String} {spec : AgentRegistrationSpec} {agent : AgentInstance}
    (h : s.registerAgent id now cwd shellId runId spec = .ok (t, agent)) :
    t = { s with agents := s.agents ++ [agent] } ∧ agent.id = id ∧
      agent.integration = spec.integration ∧
      agent.externalSessionId = spec.externalSessionId ∧ agent.shellId = shellId ∧
      agent.runId = runId := by
  simp only [registerAgent, bind_eq_ok] at h
  obtain ⟨-, -, -, -, h⟩ := h
  split at h
  next => cases h
  next =>
    split at h
    next => cases h
    next =>
      simp only [bind_eq_ok, Except.ok.injEq, Prod.mk.injEq] at h
      obtain ⟨-, -, rfl, rfl⟩ := h
      exact ⟨rfl, rfl, rfl, rfl, rfl, rfl⟩

/-- The ensured agent is the one of the spec, registered before or now. -/
theorem ensureAgent_eq_ok {id : String} {now : Nat} {cwd : Option String}
    {shellId runId : String} {spec : AgentRegistrationSpec} {agent : AgentInstance}
    {created : Bool}
    (h : s.ensureAgent id now cwd shellId runId spec = .ok (t, agent, created)) :
    (t = s ∧ agent ∈ s.agents ∨ t = { s with agents := s.agents ++ [agent] } ∧ agent.id = id) ∧
      agent.integration = spec.integration ∧
      agent.externalSessionId = spec.externalSessionId ∧ agent.shellId = shellId ∧
      agent.runId = runId := by
  simp only [ensureAgent, bind_eq_ok] at h
  obtain ⟨-, -, -, -, h⟩ := h
  split at h
  next => cases h
  next externalSessionId hext =>
    have hmatch : ∀ agent ∈ s.matching shellId runId spec.integration externalSessionId,
        agent ∈ s.agents ∧ agent.integration = spec.integration ∧
          agent.externalSessionId = spec.externalSessionId ∧ agent.shellId = shellId ∧
          agent.runId = runId := by
      intro agent ha
      simp only [matching, List.mem_filter, Bool.and_eq_true, decide_eq_true_eq] at ha
      obtain ⟨hmem, ⟨⟨h₁, h₂⟩, h₃⟩, h₄⟩ := ha
      exact ⟨hmem, h₁, h₂.trans hext.symm, h₃, h₄⟩
    split at h
    next =>
      simp only [bind_eq_ok, Except.ok.injEq, Prod.mk.injEq] at h
      obtain ⟨⟨t, agent⟩, hr, rfl, rfl, -⟩ := h
      obtain ⟨ht, hid, hspec⟩ := registerAgent_eq_ok hr
      exact ⟨.inr ⟨ht, hid⟩, hspec⟩
    next hone =>
      cases h
      obtain ⟨hmem, hspec⟩ := hmatch agent (by rw [hone]; exact List.mem_singleton_self _)
      exact ⟨.inl ⟨rfl, hmem⟩, hspec⟩
    next =>
      split at h
      next hone =>
        cases h
        have hmem : agent ∈ (s.matching shellId runId spec.integration externalSessionId).filter
            (·.state.endedAtMs.isNone) := by
          rw [hone]
          exact List.mem_singleton_self _
        obtain ⟨hmem, hspec⟩ := hmatch agent (List.mem_of_mem_filter hmem)
        exact ⟨.inl ⟨rfl, hmem⟩, hspec⟩
      next => cases h

/-! ## Acquiring, reporting and binding -/

theorem validateId_eq_ok {kind id : String} {u : Unit} :
    validateId kind id = .ok u ↔ uuidParses id = true := require_eq_ok

theorem validateUuid_eq_ok {value label : String} {u : Unit} :
    validateUuid value label = .ok u ↔ isCanonicalUuid value = true := by
  simp only [validateUuid, require_bind_eq_ok, require_eq_ok]
  exact ⟨And.right, fun h => ⟨uuidParses_of_isCanonicalUuid h, h⟩⟩

/-- The evidence of a process never has the PID or the start time zero. -/
theorem evidence_eq_ok {table : ProcessTable} {pid : Nat} {shellId runId : String}
    {evidence : Nat × Bool}
    (h : kiroHolderProcessEvidence table pid shellId runId = .ok evidence) :
    pid ≠ 0 ∧ evidence.1 ≠ 0 := by
  unfold kiroHolderProcessEvidence at h
  split at h
  next => cases h
  next hpid =>
    split at h
    next => cases h
    next process _ =>
      split at h
      next => cases h
      next =>
        split at h <;> cases h
        exact ⟨hpid, process.started⟩

/-- A holder without sessions, under a fresh id. -/
theorem Sound.addHolder (h : s.Sound) {holder : KiroLaunchHolderManifest}
    (hv : holder.valid = true) (hlt : s.holders.length < maxKiroLaunchHolders)
    (hs : holder.sessions = []) :
    Sound { s with holders := Keyed.upsert KiroLaunchHolderManifest.holderId s.holders holder } :=
  { h with
    holders := h.holders.upsert
    holders_le := by
      rw [Keyed.length_upsert]
      split
      · exact hlt.le
      · exact hlt
    valid := by
      intro holder' hh
      rcases Keyed.mem_upsert.mp hh with rfl | ⟨hh, -⟩
      · exact hv
      · exact h.valid holder' hh
    held := by
      intro holder' hh session hsession
      rcases Keyed.mem_upsert.mp hh with rfl | ⟨hh, -⟩
      · rw [hs] at hsession
        cases hsession
      · exact h.held holder' hh session hsession }

theorem Sound.acquire (h : s.Sound) {before table : ProcessTable} {now : Nat} {holderId : String}
    {pid : Nat} {shellId runId : String} (hf : s.fresh holderId = true)
    (ha : s.acquireKiroLaunchHolder before table now holderId pid shellId runId = .ok t) :
    t.Sound := by
  simp only [acquireKiroLaunchHolder, bind_eq_ok, liftIo, mapError_eq_ok, validateId_eq_ok,
    require_eq_ok, Except.ok.injEq] at ha
  obtain ⟨-, hshell, -, hrun, -, -, evidence, hev, s', hprune, -, hlt, -, -, again, hagain, -, -,
    rfl⟩ := ha
  obtain ⟨hpid, hstart⟩ := evidence_eq_ok hev
  refine (h.pruneDead hprune).addHolder ?_ (of_decide_eq_true hlt) rfl
  refine KiroLaunchHolderManifest.valid_iff.mpr ⟨hpid, hstart, ?_, hshell, hrun, Nat.zero_le _,
    by simp, List.nodup_nil⟩
  exact uuidParses_of_isCanonicalUuid (fresh_iff.mp hf).1

/-- The agent of one of a holder's sessions is recorded. -/
theorem Sound.addSession (h : s.Sound) {holder : KiroLaunchHolderManifest} {sessionId : String}
    {agent : AgentInstance} (hh : holder ∈ s.holders) (ha : agent ∈ s.agents)
    (hheld : HeldBy agent holder sessionId)
    (hplain : plainText maxKiroSessionIdBytes sessionId = true)
    (hle : holder.has sessionId = true ∨ holder.sessions.length < maxKiroHolderSessions) :
    Sound { s with
      holders := Keyed.upsert KiroLaunchHolderManifest.holderId s.holders
        { holder with sessions := Keyed.upsert Prod.fst holder.sessions (sessionId, agent.id) }
          } := by
  obtain ⟨hpid, hstart, hid, hshell, hrun, hlen, hsessions, hdistinct⟩ :=
    KiroLaunchHolderManifest.valid_iff.mp (h.valid holder hh)
  refine { h with holders := h.holders.upsert, holders_le := ?_, valid := ?_, held := ?_ }
  · have hget := h.holders.get_of_mem hh
    rw [Keyed.length_upsert]
    simp only [hget, Option.isSome_some, if_true]
    exact h.holders_le
  · intro holder' hh'
    rcases Keyed.mem_upsert.mp hh' with rfl | ⟨hh', -⟩
    · refine KiroLaunchHolderManifest.valid_iff.mpr
        ⟨hpid, hstart, hid, hshell, hrun, ?_, ?_, hdistinct.upsert⟩
      · dsimp only
        rw [Keyed.length_upsert]
        split
        · exact hlen
        · next hnew =>
            rcases hle with hhas | hlt
            · exact absurd hhas hnew
            · exact hlt
      · intro session hs
        rcases Keyed.mem_upsert.mp hs with rfl | ⟨hs, -⟩
        · exact ⟨hplain, h.ids agent ha⟩
        · exact hsessions session hs
    · exact h.valid holder' hh'
  · intro holder' hh' session hs agent' ha' hid'
    rcases Keyed.mem_upsert.mp hh' with rfl | ⟨hh', -⟩
    · rcases Keyed.mem_upsert.mp hs with rfl | ⟨hs, -⟩
      · -- distinct ids: the agent with this id is the one that was ensured
        have heq : agent' = agent :=
          List.inj_on_of_nodup_map h.agents ha' ha hid'
        rw [heq]
        exact ⟨hheld.integration, hheld.session, hheld.shell, hheld.run⟩
      · obtain ⟨h₁, h₂, h₃, h₄⟩ := h.held holder hh session hs agent' ha' hid'
        exact ⟨h₁, h₂, h₃, h₄⟩
    · exact h.held holder' hh' session hs agent' ha' hid'

theorem Sound.ensure (h : s.Sound) {id : String} {now : Nat} {cwd : Option String}
    {shellId runId : String} {spec : AgentRegistrationSpec} {agent : AgentInstance}
    {created : Bool} (hf : s.fresh id = true)
    (he : s.ensureAgent id now cwd shellId runId spec = .ok (t, agent, created)) :
    t.Sound ∧ t.holders = s.holders ∧ agent ∈ t.agents := by
  obtain ⟨⟨rfl, hmem⟩ | ⟨rfl, rfl⟩, -⟩ := ensureAgent_eq_ok he
  · exact ⟨h, rfl, hmem⟩
  · exact ⟨h.addAgent hf, rfl, List.mem_append_right _ (List.mem_singleton_self _)⟩

theorem Sound.reportHook (h : s.Sound) {table : ProcessTable} {now : Nat} {agentId : String}
    {cwd : Option String} {holderId sessionId : String} {report : AgentReport}
    {answer : Except DaemonError ReportOutcome} (hf : s.fresh agentId = true)
    (hr : s.reportKiroHook table now agentId cwd holderId sessionId report = .ok (t, answer)) :
    t.Sound := by
  simp only [reportKiroHook, bind_eq_ok, mapError_eq_ok,
    Integrations.validateExternalSessionId_eq_ok,
    require_eq_ok] at hr
  obtain ⟨-, -, -, ⟨hempty, hsize, -, hcontrol⟩, -, -, -, -, s', hprune, hr⟩ := hr
  have hplain : plainText maxKiroSessionIdBytes sessionId = true := by
    rw [plainText, hempty, hcontrol, Bool.not_false, Bool.true_and, Bool.and_true]
    exact decide_eq_true hsize
  have hs' := h.pruneDead hprune
  split at hr
  next =>
    cases hr
    exact hs'
  next holder hget =>
    simp only [bind_eq_ok, require_eq_ok, Bool.or_eq_true, decide_eq_true_eq, Except.ok.injEq,
      Prod.mk.injEq] at hr
    obtain ⟨-, -, -, hle, ⟨s'', agent, created⟩, hensure, ⟨t', outcome⟩, hreport, rfl, -⟩ := hr
    obtain ⟨hs'', hholders, hmem⟩ := hs'.ensure (fresh_of_pruneDead hf hprune) hensure
    obtain ⟨-, h₁, h₂, h₃, h₄⟩ := ensureAgent_eq_ok hensure
    have hin : holder ∈ s''.holders := by
      rw [hholders]
      exact Keyed.mem_of_get hget
    exact (hs''.addSession hin hmem ⟨h₁, h₂, h₃, h₄⟩ hplain hle).updates
      (reportAgent_updates hreport)

theorem validateBinding_eq_ok {agentId shellId runId : String} {u : Unit}
    (h : s.validateClaudeBindingIdentity agentId shellId runId = .ok u) :
    isCanonicalUuid agentId = true ∧ isCanonicalUuid shellId = true ∧
      isCanonicalUuid runId = true := by
  simp only [validateClaudeBindingIdentity, bind_eq_ok, liftIo, mapError_eq_ok,
    validateUuid_eq_ok] at h
  obtain ⟨-, hagent, -, hshell, -, hrun, -⟩ := h
  exact ⟨hagent, hshell, hrun⟩

theorem Sound.setBinding (h : s.Sound) {agentId shellId runId : String}
    {bridgeSessionId : Option String}
    (hs : s.setClaudeRemoteControlBinding agentId shellId runId bridgeSessionId = .ok t) :
    t.Sound := by
  have hp : Sound { s with bindings := s.pruneClaudeBindings } := h.filterBindings _
  cases bridgeSessionId with
  | none =>
      simp only [setClaudeRemoteControlBinding, bind_eq_ok, Except.ok.injEq] at hs
      obtain ⟨-, -, rfl⟩ := hs
      exact hp.filterBindings _
  | some bridge =>
      simp only [setClaudeRemoteControlBinding, bind_eq_ok, liftIo, mapError_eq_ok,
        validateClaudeBridgeSessionId, require_eq_ok, validateClaudeBindingAuthority,
        Except.ok.injEq] at hs
      obtain ⟨-, hplain, -, ⟨_, hidentity, -⟩, -, hother, -, hroom, rfl⟩ := hs
      have hcanon := validateBinding_eq_ok hidentity
      refine { hp with
        bindings := hp.bindings.upsert, bindings_le := ?_, bridges := ?_, bound := ?_ }
      · rw [Keyed.length_upsert]
        split
        · exact hp.bindings_le
        · next hnew =>
            have hnone := Option.not_isSome_iff_eq_none.mp hnew
            have hlt : s.pruneClaudeBindings.length < maxClaudeRemoteControlBindings := by
              simpa [hnone] using hroom
            exact hlt
      · refine hp.bindings.upsert_other hp.bridges fun binding hb hne he => ?_
        have hall := (Bool.not_eq_true' _).mp hother
        rw [List.any_eq_false] at hall
        exact hall binding hb (by simpa using ⟨hne, he⟩)
      · intro binding hb
        rcases Keyed.mem_upsert.mp hb with rfl | ⟨hb, -⟩
        · refine ⟨?_, hcanon⟩
          simp only [ClaudeRemoteControlBindingSnapshot.valid, Bool.and_eq_true]
          exact ⟨⟨⟨uuidParses_of_isCanonicalUuid hcanon.1,
            uuidParses_of_isCanonicalUuid hcanon.2.1⟩,
            uuidParses_of_isCanonicalUuid hcanon.2.2⟩, hplain⟩
        · exact hp.bound binding hb

end Authority

end Boomux.Handoff
