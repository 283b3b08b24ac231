import Boomux.Daemon.OpenCodeClaims

/-!
# Releasing claims on OpenCode sessions

When the last holder of a claim releases it, or moves to another root, the claimed agent is reported
inactive in the same mutation, and an agent that has ended takes no more reports. So the mutation
succeeds exactly if the agent takes that report. That the report is for the agent's own run is an
invariant: the run of a claim is that of its agent.
-/

set_option autoImplicit false

namespace Boomux.Daemon

open Rust Transition

/-! ## The report of a release -/

/-- What `inactivate_released_opencode_agents` reports. -/
def releaseReport : AgentReport :=
  ⟨.inactive, .lifecycleIntegration, "OpenCode session claim released", 100⟩

/-- The agent takes the report, or needs none: it has not ended, and its observation can be
replaced. -/
def AgentInstanceState.Inactivates (state : AgentInstanceState) : Prop :=
  if state.endedAtMs.isSome then observationMatchesReport state.observation releaseReport = true
  else observationMatchesReport state.observation releaseReport = true
    ∨ state.observation.authority = .daemonLifecycle ∨ state.observation.revision + 1 < 2 ^ 64

variable {d d' : AgentRegistry} {agentId runId : String} {now : Nat} {agent : AgentInstance}
    {m : AgentMutation}

theorem AgentInstanceState.report_releaseReport (state : AgentInstanceState)
    (startedAtMs now : Nat) :
    (∃ outcome, state.report startedAtMs now releaseReport = .ok outcome) ↔ state.Inactivates := by
  unfold AgentInstanceState.report AgentInstanceState.Inactivates
  split
  next hended =>
      split
      next hmatch => exact iff_of_true ⟨_, rfl⟩ hmatch
      next hmatch => exact iff_of_false (fun ⟨_, h⟩ => nomatch h) hmatch
  next hended =>
      have hrank : agentAuthorityRank releaseReport.authority <
          agentAuthorityRank state.observation.authority
          ↔ state.observation.authority = .daemonLifecycle := by
        cases state.observation.authority <;> decide
      dsimp only
      split
      next hsame =>
          refine iff_of_true ⟨_, rfl⟩ ?_
          rw [Bool.or_eq_true, Bool.or_eq_true, decide_eq_true_iff, hrank] at hsame
          rcases hsame with (hmatch | hworking) | hauthority
          · exact .inl hmatch
          · simp [releaseReport] at hworking
          · exact .inr (.inl hauthority)
      next hnew =>
          rw [Bool.or_eq_true, Bool.or_eq_true, decide_eq_true_iff, hrank, not_or, not_or] at hnew
          split
          next hnone =>
              refine iff_of_false (fun ⟨_, h⟩ => nomatch h) ?_
              unfold checkedAdd u64Max at hnone
              rintro (hmatch | hauthority | hroom)
              · exact hnew.1.1 hmatch
              · exact hnew.2 hauthority
              · rw [if_pos (Nat.le_sub_one_of_lt hroom)] at hnone
                cases hnone
          next revision hsome =>
              have hroom := (checkedAdd_eq_some.mp hsome).1
              exact iff_of_true ⟨_, rfl⟩ (.inr (.inr (Nat.lt_of_le_sub_one (by decide) hroom)))

namespace AgentRegistry

/-- An agent that is still there takes the report. -/
def CanInactivate (d : AgentRegistry) (agentId : String) : Prop :=
  ∀ agent, Keyed.get AgentInstance.id d.agents agentId = some agent → agent.state.Inactivates

/-- The agents of `d'` are agents of `d`, each of the same run, and new ones. -/
structure AgentsFrom (d : AgentRegistry) (new : String → Prop) (d' : AgentRegistry) : Prop where
  distinct : Keyed.Distinct AgentInstance.id d.agents → Keyed.Distinct AgentInstance.id d'.agents
  runs : ∀ agent' ∈ d'.agents, (∃ agent ∈ d.agents, agent.id = agent'.id
    ∧ agent.runId = agent'.runId) ∨ new agent'.id

variable {new : String → Prop} {d'' : AgentRegistry} {undo : List (AgentRegistry → AgentRegistry)}

theorem AgentsFrom.refl (d : AgentRegistry) (new : String → Prop) : AgentsFrom d new d :=
  ⟨id, fun agent h => .inl ⟨agent, h, rfl, rfl⟩⟩

theorem AgentsFrom.trans (h : AgentsFrom d new d') (h' : AgentsFrom d' new d'') :
    AgentsFrom d new d'' := by
  refine ⟨h'.distinct ∘ h.distinct, fun agent'' hagent => ?_⟩
  rcases h'.runs agent'' hagent with ⟨agent', hmem, hid, hrun⟩ | hnew
  · rcases h.runs agent' hmem with ⟨agent, hold, hid', hrun'⟩ | hnew
    · exact .inl ⟨agent, hold, hid'.trans hid, hrun'.trans hrun⟩
    · exact .inr (hid ▸ hnew)
  · exact .inr hnew

theorem setAgentState_from (d : AgentRegistry) (new : String → Prop) (agentId : String)
    (state : AgentInstanceState) :
    AgentsFrom d new (d.setAgentState agentId state) := by
  refine ⟨Keyed.Distinct.adjust fun _ _ hid => hid, fun agent' hagent => .inl ?_⟩
  rcases Keyed.mem_adjust.mp hagent with ⟨hmem, -⟩ | ⟨agent, hmem, -, rfl⟩
  · exact ⟨agent', hmem, rfl, rfl⟩
  · exact ⟨agent, hmem, rfl, rfl⟩

/-- What a mutation leaves of the agents, also when it is undone. -/
structure AgentsKept (d : AgentRegistry) (new : String → Prop) (d' : AgentRegistry)
    (undo : List (AgentRegistry → AgentRegistry)) : Prop where
  registry : AgentsFrom d new d'
  undone : ∀ f ∈ undo, ∀ now, AgentsFrom now new (f now)

theorem AgentsKept.refl (d : AgentRegistry) (new : String → Prop) : AgentsKept d new d [] :=
  ⟨.refl d new, fun _ h => absurd h List.not_mem_nil⟩

theorem AgentsKept.append {undo' : List (AgentRegistry → AgentRegistry)}
    (h : AgentsKept d new d' undo)
    (h' : AgentsKept d' new d'' undo') : AgentsKept d new d'' (undo ++ undo') := by
  refine ⟨h.registry.trans h'.registry, fun f hf => ?_⟩
  rcases List.mem_append.mp hf with hf | hf
  · exact h.undone f hf
  · exact h'.undone f hf

theorem AgentsKept.rollback (h : AgentsKept d new d' undo) :
    AgentsFrom d new (rollback undo d') := by
  obtain ⟨hfrom, hundone⟩ := h
  unfold Daemon.rollback
  induction undo using List.reverseRecOn generalizing d' with
  | nil => exact hfrom
  | append_singleton undo f ih =>
      rw [List.reverse_append, List.reverse_singleton, List.singleton_append, List.foldl_cons]
      refine ih (hfrom.trans (hundone f (List.mem_append_right _ List.mem_cons_self) d'))
        fun g hg => ?_
      exact hundone g (List.mem_append_left _ hg)

/-! ## Reports and registrations -/

theorem reportAgent_eq_ok {report : AgentReport}
    (h : d.reportAgent now agentId runId report = .ok m) :
    ∃ agent outcome, Keyed.get AgentInstance.id d.agents agentId = some agent ∧ agent.runId = runId
      ∧ agent.state.report agent.startedAtMs now report = .ok outcome
      ∧ m.registry = (if outcome.changed then d.setAgentState agentId outcome.state else d)
      ∧ m.changed = outcome.changed
      ∧ m.undo = if outcome.changed then [fun now => now.setAgentState agentId agent.state]
        else [] := by
  simp only [reportAgent, bind_eq_ok] at h
  obtain ⟨-, -, -, -, h⟩ := h
  split at h
  next => cases h
  next agent hget =>
      split at h
      next => cases h
      next hrun =>
          obtain ⟨outcome, houtcome, h⟩ := bind_eq_ok.mp h
          cases h
          exact ⟨agent, outcome, hget, not_not.mp hrun, houtcome, rfl, rfl, rfl⟩

theorem reportAgent_kept {report : AgentReport} (new : String → Prop)
    (h : d.reportAgent now agentId runId report = .ok m) : AgentsKept d new m.registry m.undo := by
  obtain ⟨agent, outcome, -, -, -, hregistry, -, hundo⟩ := reportAgent_eq_ok h
  rw [hregistry, hundo]
  split
  · refine ⟨setAgentState_from d new agentId outcome.state, fun f hf now => ?_⟩
    rw [List.mem_singleton.mp hf]
    exact setAgentState_from now new agentId agent.state
  · exact .refl d new

/-- A report of a release to an agent of the run succeeds if the agent takes it. -/
theorem reportAgent_releaseReport (hget : Keyed.get AgentInstance.id d.agents agentId = some agent)
    (hrun : agent.runId = runId) (now : Nat) :
    (∃ m, d.reportAgent now agentId runId releaseReport = .ok m) ↔ agent.state.Inactivates := by
  rw [← agent.state.report_releaseReport agent.startedAtMs now]
  constructor
  · rintro ⟨m, hm⟩
    obtain ⟨agent', outcome, hget', -, houtcome, -⟩ := reportAgent_eq_ok hm
    rw [hget] at hget'
    cases hget'
    exact ⟨outcome, houtcome⟩
  · rintro ⟨outcome, houtcome⟩
    refine ⟨⟨{ agent with state := outcome.state },
      if outcome.changed then d.setAgentState agentId outcome.state else d, outcome.changed,
        outcome.completed,
      if outcome.changed then [fun now => now.setAgentState agentId agent.state] else []⟩, ?_⟩
    simp only [reportAgent, bind_eq_ok]
    refine ⟨(), by decide, (), by decide, ?_⟩
    rw [hget]
    dsimp only
    rw [if_neg (not_not.mpr hrun), houtcome]
    rfl

/-- A registration adds the agent, of the run that the Shell is running. -/
theorem registerAgent_eq_ok {shellId : String} {spec : AgentRegistrationSpec}
    (h : d.registerAgent agentId now shellId runId spec = .ok m) :
    m.registry = d.withAgents (Keyed.upsert AgentInstance.id d.agents m.agent)
      ∧ m.agent.id = agentId
      ∧ m.agent.runId = runId ∧ m.changed = true
      ∧ m.undo = [fun now =>
        now.withAgents (Keyed.remove AgentInstance.id now.agents agentId)] := by
  simp only [registerAgent, bind_eq_ok] at h
  obtain ⟨-, -, -, -, h⟩ := h
  split at h
  next => cases h
  next shell hget =>
      split at h
      next => cases h
      next =>
          split at h
          next => cases h
          next =>
              split at h
              next =>
                  cases h
                  exact ⟨rfl, rfl, rfl, rfl, rfl⟩
              next => cases h

theorem registerAgent_kept {shellId : String} {spec : AgentRegistrationSpec}
    (h : d.registerAgent agentId now shellId runId spec = .ok m) :
    AgentsKept d (· = agentId) m.registry m.undo := by
  obtain ⟨hregistry, hid, -, -, hundo⟩ := registerAgent_eq_ok h
  rw [hregistry, hundo]
  refine ⟨⟨fun hd => Keyed.Distinct.upsert hd, fun agent' hagent => ?_⟩, fun f hf now => ?_⟩
  · rcases Keyed.mem_upsert.mp hagent with rfl | ⟨hmem, -⟩
    · exact .inr hid
    · exact .inl ⟨agent', hmem, rfl, rfl⟩
  · rw [List.mem_singleton.mp hf]
    exact ⟨fun hd => Keyed.Distinct.remove hd,
      fun agent' hagent => .inl ⟨agent', (Keyed.mem_remove.mp hagent).1, rfl, rfl⟩⟩

/-- An agent is found, or registered. -/
theorem ensureAgent_eq_ok {shellId : String} {spec : AgentRegistrationSpec}
    (h : d.ensureAgent agentId now shellId runId spec = .ok m) :
    (m.agent ∈ d.agents ∧ m.agent.runId = runId ∧ m.registry = d ∧ m.changed = false ∧ m.undo = [])
      ∨ d.registerAgent agentId now shellId runId spec = .ok m := by
  simp only [ensureAgent, bind_eq_ok] at h
  obtain ⟨-, -, -, -, h⟩ := h
  split at h
  next => cases h
  next externalSessionId _ =>
      obtain ⟨existing, hfound, h⟩ := bind_eq_ok.mp h
      split at h
      next agent =>
          cases h
          have hmem : agent ∈ d.agents.filter fun agent => agent.integration = spec.integration ∧
              agent.externalSessionId = some externalSessionId ∧ agent.shellId = shellId
                ∧ agent.runId = runId := by
            unfold ensuredAgent at hfound
            split at hfound
            next => cases hfound
            next agent' heq =>
                cases hfound
                rw [heq]
                exact List.mem_cons_self
            next =>
                split at hfound
                next agent' heq =>
                    cases hfound
                    exact (List.mem_filter.mp (heq ▸ List.mem_cons_self)).1
                next => cases hfound
          obtain ⟨hold, hmatch⟩ := List.mem_filter.mp hmem
          exact .inl ⟨hold, (of_decide_eq_true hmatch).2.2.2, rfl, rfl, rfl⟩
      next => exact .inr h

theorem ensureAgent_kept {shellId : String} {spec : AgentRegistrationSpec}
    (h : d.ensureAgent agentId now shellId runId spec = .ok m) :
      AgentsKept d (· = agentId) m.registry m.undo := by
  rcases ensureAgent_eq_ok h with ⟨-, -, hregistry, -, hundo⟩ | h
  · rw [hregistry, hundo]
    exact .refl d _
  · exact registerAgent_kept h

end AgentRegistry

/-! ## The agents of released claims -/

open AgentRegistry

variable {handled : List String} {removed : List OpenCodeRootClaim}
    {undo : List (AgentRegistry → AgentRegistry)}
  {events : List DaemonEventKind}

theorem inactivate_kept (new : String → Prop)
    (h : inactivateReleasedOpenCodeAgents now d handled removed = .ok (d', undo, events)) :
    AgentsKept d new d' undo ∧ (undo = [] ↔ events = []) := by
  induction removed generalizing d handled undo events with
  | nil =>
      cases h
      exact ⟨.refl _ new, iff_of_true rfl rfl⟩
  | cons claim removed ih =>
      rw [inactivateReleasedOpenCodeAgents] at h
      split at h
      next => exact ih h
      next =>
          obtain ⟨reported, hreported, h⟩ := bind_eq_ok.mp h
          obtain ⟨⟨d₁, undo₁, events₁⟩, hrest, h⟩ := bind_eq_ok.mp h
          cases h
          obtain ⟨hkept, hnil⟩ := ih hrest
          obtain ⟨agent, outcome, -, -, -, -, hchanged, hundo⟩ := reportAgent_eq_ok hreported
          refine ⟨(reportAgent_kept new hreported).append hkept, ?_⟩
          rw [hundo, hchanged]
          cases outcome.changed with
          | false => exact hnil
          | true => exact iff_of_false (List.cons_ne_nil _ _) (List.cons_ne_nil _ _)

/-- The mutation of an agent leaves what others take. -/
theorem canInactivate_reported {report : AgentReport} {other : String}
    (h : d.reportAgent now agentId runId report = .ok m) (hother : other ≠ agentId) :
    m.registry.CanInactivate other ↔ d.CanInactivate other := by
  obtain ⟨-, outcome, -, -, -, hregistry, -⟩ := reportAgent_eq_ok h
  rw [hregistry]
  split
  · unfold CanInactivate
    have hget : Keyed.get AgentInstance.id (d.setAgentState agentId outcome.state).agents other
        = Keyed.get AgentInstance.id d.agents other := by
      refine (Keyed.get_adjust ?_ other).trans (if_neg hother)
      exact fun _ _ hid => hid
    rw [hget]
  · exact Iff.rfl

/-- All of the agents take the report, or have been handled. -/
theorem inactivate_ok_iff (hruns : ∀ claim ∈ removed, ∀ agent ∈ d.agents,
      agent.id = claim.agentId → agent.runId = claim.runId) :
    (∃ result, inactivateReleasedOpenCodeAgents now d handled removed = .ok result)
      ↔ ∀ claim ∈ removed, claim.agentId ∉ handled → d.CanInactivate claim.agentId := by
  induction removed generalizing d handled with
  | nil => exact iff_of_true ⟨_, rfl⟩ fun _ h => absurd h List.not_mem_nil
  | cons claim removed ih =>
      have hrest : ∀ claim ∈ removed, ∀ agent ∈ d.agents, agent.id = claim.agentId →
          agent.runId = claim.runId :=
        fun other hother => hruns other (List.mem_cons_of_mem _ hother)
      rw [inactivateReleasedOpenCodeAgents, List.forall_mem_cons]
      by_cases hskip : claim.agentId ∈ handled
        ∨ (Keyed.get AgentInstance.id d.agents claim.agentId).isNone
      · rw [if_pos hskip, ih hrest]
        have hfirst : claim.agentId ∉ handled → d.CanInactivate claim.agentId := by
          intro hnot agent hget
          rw [hget] at hskip
          exact absurd (hskip.resolve_left hnot) Bool.false_ne_true
        constructor
        · intro hall
          refine ⟨hfirst, fun other hother hnot => ?_⟩
          by_cases hsame : other.agentId = claim.agentId
          · exact hsame ▸ hfirst (hsame ▸ hnot)
          · exact hall other hother fun hmem => (List.mem_cons.mp hmem).elim hsame hnot
        · exact fun hall other hother hnot => hall.2 other hother fun hmem =>
            hnot (List.mem_cons_of_mem _ hmem)
      · rw [if_neg hskip]
        obtain ⟨hnot, hsome⟩ := not_or.mp hskip
        cases hget : Keyed.get AgentInstance.id d.agents claim.agentId with
        | none => exact absurd (by rw [hget]; rfl) hsome
        | some agent =>
            have hrun := hruns claim List.mem_cons_self agent (Keyed.mem_of_get hget)
              (Keyed.key_of_get hget)
            have htakes : d.CanInactivate claim.agentId ↔ agent.state.Inactivates :=
              ⟨fun hall => hall agent hget, fun htakes other hother => by
                rw [hget] at hother
                cases hother
                exact htakes⟩
            -- The rest is handled in the registry after the report, which leaves the other agents.
            have hlater {m : AgentMutation}
                (hm : d.reportAgent now claim.agentId claim.runId releaseReport = .ok m) :
                (∃ result, inactivateReleasedOpenCodeAgents now m.registry
                    (claim.agentId :: handled) removed = .ok result)
                  ↔ ∀ other ∈ removed, other.agentId ∉ claim.agentId :: handled →
                    d.CanInactivate other.agentId := by
              rw [ih]
              · refine forall₂_congr fun other _ => forall_congr' fun hfresh => ?_
                exact canInactivate_reported hm fun hsame => hfresh (hsame ▸ List.mem_cons_self)
              · intro other hother agent' hagent' hid
                rcases (reportAgent_kept (fun _ => False) hm).registry.runs agent' hagent' with
                  ⟨old, hold, hid', hrun'⟩ | hfalse
                · exact hrun' ▸ hrest other hother old hold (hid'.trans hid)
                · exact hfalse.elim
            constructor
            · rintro ⟨result, hresult⟩
              obtain ⟨m, hm, hresult⟩ := bind_eq_ok.mp hresult
              obtain ⟨result', hresult', -⟩ := bind_eq_ok.mp hresult
              have hfirst := (reportAgent_releaseReport hget hrun now).mp ⟨m, hm⟩
              refine ⟨fun _ => htakes.mpr hfirst, fun other hother hnot => ?_⟩
              by_cases hsame : other.agentId = claim.agentId
              · exact hsame ▸ htakes.mpr hfirst
              · exact (hlater hm).mp ⟨result', hresult'⟩ other hother
                  fun hmem => (List.mem_cons.mp hmem).elim hsame hnot
            · rintro ⟨hfirst, hall⟩
              obtain ⟨m, hm⟩ := (reportAgent_releaseReport hget hrun now).mpr
                (htakes.mp (hfirst hnot))
              obtain ⟨⟨d₁, undo, events⟩, hresult⟩ := (hlater hm).mpr fun other hother hfresh =>
                hall other hother fun hmem => hfresh (List.mem_cons_of_mem _ hmem)
              simp only [bind_eq_ok]
              exact ⟨_, m, hm, _, hresult, rfl⟩

/-! ## The run of a claim -/

/-- The agent of a claim is of the claim's run, if it is still there. -/
def RunsMatch (claims : OpenCodeClaims) (d : AgentRegistry) : Prop :=
  ∀ entry ∈ claims, ∀ agent ∈ d.agents, agent.id = entry.2.agentId → agent.runId = entry.2.runId

/-- No claim is of the agent. -/
def Unclaimed (claims : OpenCodeClaims) (agentId : String) : Prop :=
  ∀ entry ∈ claims, entry.2.agentId ≠ agentId

/-- A claim of the same agent and run was there before. -/
def SameAgent (claims : OpenCodeClaims) (entry' : String × OpenCodeRootClaim) : Prop :=
  ∃ entry ∈ claims, entry.2.agentId = entry'.2.agentId ∧ entry.2.runId = entry'.2.runId

variable {claims claims' : OpenCodeClaims} {entry entry' : String × OpenCodeRootClaim}
  {root holderId claimId shellId : String}

theorem SameAgent.of_mem (h : entry ∈ claims) : SameAgent claims entry := ⟨entry, h, rfl, rfl⟩

theorem SameAgent.of_prune (h : SameAgent (pruneClaims now claims) entry') :
    SameAgent claims entry' := by
  obtain ⟨entry, he, hagent, hrun⟩ := h
  obtain ⟨-, old, hold, rfl⟩ := mem_pruneClaims.mp he
  exact ⟨old, hold, hagent, hrun⟩

theorem RunsMatch.same {new : String → Prop} (h : RunsMatch claims d) (hd : AgentsFrom d new d')
    (hnew : ∀ agentId, new agentId → Unclaimed claims agentId) (hentry : SameAgent claims entry') :
    ∀ agent ∈ d'.agents, agent.id = entry'.2.agentId → agent.runId = entry'.2.runId := by
  obtain ⟨entry, he, hagent, hrun⟩ := hentry
  intro agent' hagent' hid
  rcases hd.runs agent' hagent' with ⟨agent, hmem, hid', hrun'⟩ | hfresh
  · rw [← hrun', ← hrun]
    exact h entry he agent hmem (hid'.trans (hid.trans hagent.symm))
  · exact absurd (hagent.trans hid.symm) (hnew _ hfresh entry he)

theorem releasedClaims_sameAgent (holderId claimId : String) (claims : OpenCodeClaims) :
    ∀ entry ∈ (releasedClaims holderId claimId claims).1, SameAgent claims entry := by
  intro entry he
  unfold releasedClaims at he
  split at he
  · exact .of_mem he
  next root claim hfind =>
      dsimp only at he
      split at he
      · exact .of_mem (Keyed.mem_remove.mp he).1
      · rcases Keyed.mem_adjust.mp he with ⟨hold, -⟩ | ⟨old, hold, -, rfl⟩
        · exact .of_mem hold
        · exact ⟨old, hold, rfl, rfl⟩

/-- An operation's mutation leaves the agents as they were, also when it is undone, and records an
undo exactly if there is something to undo. -/
structure MutationKept (claims : OpenCodeClaims) (d : AgentRegistry) (new : String → Prop)
    (m : OpenCodeMutation) : Prop where
  agents : AgentsKept d new m.registry m.undo
  recorded : m.undo = [] ↔ m.mutation = .unchanged
  runs : RunsMatch m.claims m.registry

theorem ofEvents_eq_unchanged : DurableMutation.ofEvents events = .unchanged ↔ events = [] := by
  cases events with
  | nil => exact iff_of_true rfl rfl
  | cons event events => exact iff_of_false (fun h => nomatch h) (List.cons_ne_nil _ _)

variable {env : OpenCodeEnvironment} {state : OpenCodeCoordinatorState} {generationId : String}
  {mutation : OpenCodeMutation}

theorem release_kept (hruns : RunsMatch state.claims d)
    (h : releaseOpenCodeSessionClaim env holderId claimId state d = .ok mutation) :
    MutationKept state.claims d (fun _ => False) mutation := by
  simp only [releaseOpenCodeSessionClaim, bind_eq_ok, mapError_eq_ok] at h
  obtain ⟨⟨d', undo, events⟩, hreleased, h⟩ := h
  cases h
  obtain ⟨hkept, hnil⟩ := inactivate_kept (fun _ => False) hreleased
  refine ⟨hkept, hnil.trans ofEvents_eq_unchanged.symm, fun entry he => ?_⟩
  exact hruns.same hkept.registry (fun _ h => h.elim)
    (releasedClaims_sameAgent _ _ _ entry he).of_prune

theorem report_kept {report : AgentReport} (hruns : RunsMatch state.claims d)
    (h : reportClaimedOpenCodeAgent env root report state d = .ok mutation) :
    MutationKept state.claims d (fun _ => False) mutation := by
  have hsame : ∀ entry ∈ pruneClaims env.now state.claims, SameAgent state.claims entry :=
    fun entry he => (SameAgent.of_mem he).of_prune
  have hnew : ∀ agentId, False → Unclaimed state.claims agentId := fun _ h => h.elim
  unfold reportClaimedOpenCodeAgent at h
  dsimp only at h
  split at h
  next => cases h
  next root' claim hget =>
      split at h
      next =>
          cases h
          refine ⟨.refl d _, iff_of_true rfl rfl, fun entry he => ?_⟩
          exact hruns.same (.refl d _) hnew (hsame entry (Keyed.mem_remove.mp he).1)
      next =>
          simp only [bind_eq_ok, mapError_eq_ok] at h
          obtain ⟨-, -, reported, hreported, h⟩ := h
          cases h
          have hkept := reportAgent_kept (fun _ => False) hreported
          obtain ⟨agent, outcome, -, -, -, -, hchanged, hundo⟩ := reportAgent_eq_ok hreported
          refine ⟨hkept, ?_, fun entry he => ?_⟩
          · rw [hundo, hchanged]
            cases outcome.changed with
            | false => exact iff_of_true rfl rfl
            | true => exact iff_of_false (List.cons_ne_nil _ _) (fun h => nomatch h)
          · refine hruns.same hkept.registry hnew (hsame entry ?_)
            dsimp only at he
            split at he
            · exact (Keyed.mem_remove.mp he).1
            · exact he

/-- A claim that the holder can move to is of the run that it asks for. -/
theorem settleExisting_run {settled : OpenCodeClaims}
    (h : settleExisting d root shellId runId claims = .ok settled)
    (hget : Keyed.get Prod.fst settled root = some entry) : entry.2.runId = runId := by
  unfold settleExisting at h
  split at h
  next hnone =>
      cases h
      rw [hnone] at hget
      cases hget
  next root' existing hsome =>
      split at h
      next =>
          cases h
          exact absurd (Keyed.key_of_get hget) (Keyed.mem_remove.mp (Keyed.mem_of_get hget)).2
      next =>
          split at h
          next => cases h
          next hsame =>
              cases h
              rw [hsome] at hget
              cases hget
              exact not_not.mp (not_or.mp hsame).2

/-- The claims after a move are those of the same agents, and that of the root. -/
theorem movedClaims_agents {agent : AgentInstance} (hrun : ∀ entry ∈ claims, entry.1 = root →
    entry.2.runId = runId)
    (he : entry' ∈ movedClaims claims env root holderId agent shellId runId) :
    SameAgent claims entry' ∨ (entry'.2.agentId = agent.id ∧ entry'.2.runId = runId) := by
  rcases Keyed.mem_upsert.mp he with rfl | ⟨hold, -⟩
  · refine .inr ⟨rfl, ?_⟩
    simp only [placedClaim]
    cases hget : Keyed.get Prod.fst (occupied root (removeHolder holderId claims)) root with
    | none => rfl
    | some entry =>
        obtain ⟨old, hold, hentry⟩ :=
          mem_removeHolder.mp (mem_occupied.mp (Keyed.mem_of_get hget)).1
        have hroot := Keyed.key_of_get hget
        rw [hentry] at hroot
        rw [hentry]
        exact hrun old hold hroot
  · obtain ⟨old, hmem, hentry⟩ := mem_removeHolder.mp (mem_occupied.mp hold).1
    exact .inl ⟨old, hmem, by rw [hentry], by rw [hentry]⟩

theorem ensure_kept {spec : AgentRegistrationSpec} (hsound : ClaimsSound state.claims)
    (hagents : Keyed.Distinct AgentInstance.id d.agents) (hruns : RunsMatch state.claims d)
    (hfresh : Unclaimed state.claims env.agentId)
    (h : ensureOpenCodeSessionClaim env generationId holderId root shellId runId spec state d =
      .ok mutation) :
    MutationKept state.claims d (· = env.agentId) mutation := by
  simp only [ensureOpenCodeSessionClaim, bind_eq_ok, mapError_eq_ok, require_eq_ok] at h
  obtain ⟨settled, hsettled, -, -, -, -, ensured, hensured, -, -, ⟨d', undo, events⟩, hremoved,
      claim, -, h⟩ := h
  cases h
  have hensure := ensureAgent_kept hensured
  obtain ⟨hkept, hnil⟩ := inactivate_kept (· = env.agentId) hremoved
  have hregistry := hensure.append hkept
  have hpruned := hsound.prune env.now
  have hold : ∀ entry ∈ settled, SameAgent state.claims entry := by
    intro entry he
    have hmem : entry ∈ pruneClaims env.now state.claims := by
      rcases settleExisting_cases hsettled with rfl | ⟨rfl, -⟩
      · exact he
      · exact (Keyed.mem_remove.mp he).1
    exact (SameAgent.of_mem hmem).of_prune
  have hroot : ∀ entry ∈ settled, entry.1 = root → entry.2.runId = runId := fun entry he hroot =>
    settleExisting_run hsettled (hroot ▸ (hpruned.settled hsettled).distinct.get_of_mem he)
  refine ⟨hregistry, ?_, fun entry he => ?_⟩
  · rw [ofEvents_eq_unchanged, List.append_eq_nil_iff, List.append_eq_nil_iff, hnil]
    refine and_congr_left fun _ => ?_
    rcases ensureAgent_eq_ok hensured with ⟨-, -, -, hchanged, hundo⟩ | hregistered
    · rw [hundo, hchanged]
      exact iff_of_true rfl rfl
    · obtain ⟨-, -, -, hchanged, hundo⟩ := registerAgent_eq_ok hregistered
      rw [hundo, hchanged]
      exact iff_of_false (List.cons_ne_nil _ _) (List.cons_ne_nil _ _)
  · rcases movedClaims_agents hroot he with ⟨old, hmem, hagent, hrun⟩ | ⟨hagent, hrun⟩
    · obtain ⟨first, hfirst, hagent', hrun'⟩ := hold old hmem
      refine hruns.same hregistry.registry (fun agentId hid => hid ▸ hfresh) ?_
      exact ⟨first, hfirst, hagent'.trans hagent, hrun'.trans hrun⟩
    · intro agent hmem hid
      -- The agent of the claim is the one that was ensured, of the run that was asked for.
      have hmember : ensured.agent ∈ ensured.registry.agents ∧ ensured.agent.runId = runId := by
        rcases ensureAgent_eq_ok hensured with ⟨hmem, hrun, hsame, -, -⟩ | hregistered
        · rw [hsame]
          exact ⟨hmem, hrun⟩
        · obtain ⟨hsame, -, hrun, -, -⟩ := registerAgent_eq_ok hregistered
          rw [hsame]
          exact ⟨Keyed.mem_upsert.mpr (.inl rfl), hrun⟩
      obtain ⟨hnarrow, -⟩ := inactivate_kept (fun _ => False) hremoved
      rcases hnarrow.registry.runs agent hmem with ⟨old, hold, hid', hrun'⟩ | hfalse
      · obtain rfl : old = ensured.agent :=
          List.inj_on_of_nodup_map (hensure.registry.distinct hagents) hold hmember.1
          (hid'.trans (hid.trans hagent))
        rw [← hrun', hrun]
        exact hmember.2
      · exact hfalse.elim

namespace OpenCodeWorld

variable {w u : OpenCodeWorld} {a : OpenCodeAction} {operation : OpenCodeCoordinatorState →
    AgentRegistry →
    Except OpenCodeFailure OpenCodeMutation} {new : String → Prop}

/-- The claims are sound, and each is of its agent's run. -/
structure Bound (w : OpenCodeWorld) : Prop where
  sound : ClaimsSound w.coordinator.claims
  agents : Keyed.Distinct AgentInstance.id w.registry.agents
  runs : RunsMatch w.coordinator.claims w.registry

/-- A fresh UUID is not the id of a claimed agent, and no other change of the registry moves an
agent to another run. -/
def Sensible (w : OpenCodeWorld) : OpenCodeAction → Prop
  | .ensure env .. => Unclaimed w.coordinator.claims env.agentId
  | .edit registry => w.registry.AgentsFrom (Unclaimed w.coordinator.claims) registry
  | _ => True

/-- A mutation leaves the world, or its operation's claims and registry, or it is undone. -/
theorem mutate_registry (w : OpenCodeWorld) (env : OpenCodeEnvironment) (generationId : String)
    (operation : OpenCodeCoordinatorState → AgentRegistry →
      Except OpenCodeFailure OpenCodeMutation) :
    ((w.mutate env generationId operation).2.coordinator.claims = w.coordinator.claims
        ∧ ((w.mutate env generationId operation).2.registry = w.registry
          ∨ ∃ m, operation w.coordinator w.registry = .ok m
            ∧ (w.mutate env generationId operation).2.registry = rollback m.undo m.registry))
      ∨ ∃ m, operation w.coordinator w.registry = .ok m
        ∧ (w.mutate env generationId operation).2.coordinator.claims = m.claims
        ∧ (w.mutate env generationId operation).2.registry = m.registry := by
  have hgen := (requireGeneration_cases w.coordinator env.exited generationId).2
  unfold mutate
  split
  next => exact .inl ⟨rfl, .inl rfl⟩
  next =>
      dsimp only
      cases hrequire : w.coordinator.requireGeneration env.exited generationId with
      | mk generation state =>
          rw [hrequire] at hgen
          cases generation with
          | error error => exact .inl ⟨rfl, .inl rfl⟩
          | ok =>
              obtain ⟨-, hstate, -⟩ := hgen rfl
              obtain rfl : state = w.coordinator := hstate
              dsimp only
              cases hoperation : operation w.coordinator w.registry with
              | error failure => exact .inl ⟨rfl, .inl rfl⟩
              | ok m =>
                  dsimp only
                  split
                  · exact .inr ⟨m, rfl, rfl, rfl⟩
                  · exact .inl ⟨rfl, .inr ⟨m, rfl, rfl⟩⟩
                  · exact .inl ⟨rfl, .inr ⟨m, rfl, rfl⟩⟩
                  · split
                    · exact .inl ⟨rfl, .inr ⟨m, rfl, rfl⟩⟩
                    · exact .inr ⟨m, rfl, rfl, rfl⟩

theorem Bound.mutate (h : w.Bound)
    (hsound : ClaimsSound (w.mutate env generationId operation).2.coordinator.claims)
    (hnew : ∀ agentId, new agentId → Unclaimed w.coordinator.claims agentId)
    (hkept : ∀ m, operation w.coordinator w.registry = .ok m →
      MutationKept w.coordinator.claims w.registry new m) :
    (w.mutate env generationId operation).2.Bound := by
  rcases mutate_registry w env generationId operation with ⟨hclaims, hregistry⟩ | ⟨m, hm, hclaims,
    hregistry⟩
  · have hfrom : AgentsFrom w.registry new (w.mutate env generationId operation).2.registry := by
      rcases hregistry with hregistry | ⟨m, hm, hregistry⟩
      · rw [hregistry]
        exact .refl _ new
      · rw [hregistry]
        exact (hkept m hm).agents.rollback
    refine ⟨hsound, hfrom.distinct h.agents, fun entry he => ?_⟩
    rw [hclaims] at he
    exact h.runs.same hfrom hnew (.of_mem he)
  · have hm := hkept m hm
    refine ⟨hsound, ?_, ?_⟩
    · rw [hregistry]
      exact hm.agents.registry.distinct h.agents
    · rw [hclaims, hregistry]
      exact hm.runs

/-- A request that only narrows the claims keeps what binds them. -/
theorem Bound.narrow (h : w.Bound) (hsound : ClaimsSound u.coordinator.claims)
    (hregistry : u.registry = w.registry)
    (hclaims : ∀ entry ∈ u.coordinator.claims, SameAgent w.coordinator.claims entry) : u.Bound := by
  refine ⟨hsound, hregistry ▸ h.agents, fun entry he => ?_⟩
  rw [hregistry]
  exact h.runs.same (.refl _ fun _ => False) (fun _ hfalse => hfalse.elim) (hclaims entry he)

theorem resolve_sameAgent (w : OpenCodeWorld) (env : OpenCodeEnvironment)
    (generationId rootSessionId : String) :
    (w.resolve env generationId rootSessionId).2.registry = w.registry
      ∧ ∀ entry ∈ (w.resolve env generationId rootSessionId).2.coordinator.claims,
        SameAgent w.coordinator.claims entry := by
  have hstate := requireGeneration_claims w.coordinator env.exited generationId
  have hsame (state : OpenCodeCoordinatorState) (hstate : state = w.coordinator
      ∨ state = ⟨none, []⟩) :
      ∀ entry ∈ state.claims, SameAgent w.coordinator.claims entry := by
    rcases hstate with rfl | rfl
    · exact fun _ he => .of_mem he
    · exact fun _ he => absurd he List.not_mem_nil
  unfold resolve
  cases hrequire : w.coordinator.requireGeneration env.exited generationId with
  | mk generation state =>
      rw [hrequire] at hstate
      have hpruned : ∀ entry ∈ pruneClaims env.now state.claims,
          SameAgent w.coordinator.claims entry := by
        intro entry he
        obtain ⟨-, old, hold, rfl⟩ := mem_pruneClaims.mp he
        exact hsame state hstate old hold
      cases generation with
      | error error => exact ⟨rfl, hsame state hstate⟩
      | ok =>
          dsimp only
          split
          · exact ⟨rfl, hpruned⟩
          · split
            · exact ⟨rfl, fun entry he => hpruned entry (Keyed.mem_remove.mp he).1⟩
            · split <;> exact ⟨rfl, hpruned⟩

theorem Bound.run (h : w.Bound) (ha : w.Sensible a) : (a.run w).2.Bound := by
  have hsound := (@run_sound w a h.sound).sound
  have hnone : ∀ agentId, False → Unclaimed w.coordinator.claims agentId :=
    fun _ hfalse => hfalse.elim
  have hcleared (state : OpenCodeCoordinatorState) (hstate : state = w.coordinator
      ∨ state = ⟨none, []⟩) :
      ∀ entry ∈ state.claims, SameAgent w.coordinator.claims entry := by
    rcases hstate with rfl | rfl
    · exact fun _ he => .of_mem he
    · exact fun _ he => absurd he List.not_mem_nil
  cases a with
  | ensure env generationId holderId rootSessionId shellId runId spec =>
      have hmutate := @Bound.mutate env generationId w
        (ensureOpenCodeSessionClaim env generationId holderId rootSessionId shellId runId spec)
          (· = env.agentId) h
        (mutate_sound env generationId h.sound
          (ensure_sound env generationId holderId rootSessionId shellId runId spec w.registry
            h.sound)).1
        (fun _ hid => hid ▸ ha) fun m hm => ensure_kept h.sound h.agents h.runs ha hm
      simp only [OpenCodeAction.run]
      split
      next response u heq =>
          rw [heq] at hmutate
          exact ⟨hmutate.sound, hmutate.agents, hmutate.runs⟩
      next => exact hmutate
  | resolve env generationId rootSessionId =>
      obtain ⟨hregistry, hclaims⟩ := resolve_sameAgent w env generationId rootSessionId
      exact h.narrow hsound hregistry hclaims
  | release env generationId holderId claimId =>
      exact h.mutate hsound hnone fun m hm => release_kept h.runs hm
  | report env generationId rootSessionId agentReport =>
      exact h.mutate hsound hnone fun m hm => report_kept h.runs hm
  | reapExited exited =>
      exact h.narrow hsound rfl (hcleared _ (reapExited_claims w.coordinator exited))
  | ensureRuntime exited port found =>
      have hreap := hcleared _ (reapExited_claims w.coordinator exited)
      have hresult : (w.ensureRuntime exited port found).2.registry = w.registry
          ∧ ∀ entry ∈ (w.ensureRuntime exited port found).2.coordinator.claims,
            SameAgent w.coordinator.claims entry := by
        unfold ensureRuntime
        cases hexited : w.coordinator.reapExited exited with
        | mk result state =>
            rw [hexited] at hreap
            cases result with
            | error error => exact ⟨rfl, hreap⟩
            | ok =>
                dsimp only
                split
                · exact ⟨rfl, hreap⟩
                · exact ⟨rfl, hreap⟩
                · exact ⟨rfl, fun _ he => absurd he List.not_mem_nil⟩
      exact h.narrow hsound hresult.1 hresult.2
  | shutdown => exact h.narrow hsound rfl fun _ he => absurd he List.not_mem_nil
  | edit registry =>
      exact ⟨hsound, ha.distinct h.agents, fun entry he => h.runs.same ha (fun _ hid => hid)
        (.of_mem he)⟩

theorem Bound.step (h : w.Bound) (ha : w.Sensible a) (hs : w.step a = some u) : u.Bound := by
  cases hs
  unfold OpenCodeAction.call
  split
  · exact h
  · exact h.run ha

/-! ## Mutations that are saved -/

/-- The runtime of the generation is active, and what is asked for can be saved. -/
structure Serves (w : OpenCodeWorld) (env : OpenCodeEnvironment)
    (generationId : String) : Prop where
  entry : env.entryError = none
  save : env.saveError = none
  alive : env.exited = .ok false
  runtime : ∃ runtime, w.coordinator.runtime = some runtime ∧ runtime.generationId = generationId

theorem Serves.requireGeneration (h : w.Serves env generationId) :
    w.coordinator.requireGeneration env.exited generationId = (.ok (), w.coordinator) := by
  obtain ⟨runtime, hruntime, hid⟩ := h.runtime
  unfold OpenCodeCoordinatorState.requireGeneration OpenCodeCoordinatorState.reapExited
  rw [hruntime, h.alive]
  dsimp only
  rw [hruntime, if_pos (by simp [hid])]

/-- Then a mutation succeeds if its operation does. -/
theorem Serves.mutate_ok (h : w.Serves env generationId)
    (hm : operation w.coordinator w.registry = .ok mutation)
    (hrecorded : mutation.undo = [] ↔ mutation.mutation = .unchanged) :
    w.mutate env generationId operation
      = (mutation.response, ⟨⟨w.coordinator.runtime, mutation.claims⟩, mutation.registry,
        w.origin⟩) := by
  unfold mutate
  rw [h.entry]
  dsimp only
  rw [h.requireGeneration]
  dsimp only
  rw [hm]
  dsimp only
  cases hundo : mutation.undo with
  | nil =>
      rw [hrecorded.mp hundo]
      rfl
  | cons f undo =>
      cases hmutation : mutation.mutation with
      | unchanged =>
          rw [hrecorded.mpr hmutation] at hundo
          cases hundo
      | changed events =>
          rw [h.save]
          rfl

theorem Serves.mutate_error (h : w.Serves env generationId) {failure : OpenCodeFailure}
    (hm : operation w.coordinator w.registry = .error failure) :
    (w.mutate env generationId operation).1 = .error failure := by
  unfold mutate
  rw [h.entry]
  dsimp only
  rw [h.requireGeneration]
  dsimp only
  rw [hm]

end OpenCodeWorld

/-- The holder is the only one of the claim that has not expired. -/
structure OpenCodeRootClaim.Last (claim : OpenCodeRootClaim) (now : Nat)
    (holderId : String) : Prop where
  held : ∃ holder ∈ claim.holders, holder.1 = holderId ∧ now < holder.2.expiresAt
  only : ∀ holder ∈ claim.holders, now < holder.2.expiresAt → holder.1 = holderId

variable {claim : OpenCodeRootClaim}

/-- Without the last holder, the pruned claim has none. -/
theorem last_iff : claim.Last now holderId ↔ (claim.prune now).holders ≠ []
    ∧ Keyed.remove Prod.fst (claim.prune now).holders holderId = [] := by
  have hmem (holder : String × OpenCodeClaimHolder) :
      holder ∈ (claim.prune now).holders ↔ holder ∈ claim.holders ∧ now < holder.2.expiresAt := by
    rw [OpenCodeRootClaim.prune, List.mem_filter, decide_eq_true_iff]
  have hnone : Keyed.remove Prod.fst (claim.prune now).holders holderId = []
      ↔ ∀ holder ∈ claim.holders, now < holder.2.expiresAt → holder.1 = holderId := by
    unfold Keyed.remove
    rw [List.filter_eq_nil_iff]
    simp only [hmem, decide_eq_true_eq, not_not, and_imp]
  rw [hnone]
  constructor
  · rintro ⟨⟨holder, hholder, -, halive⟩, honly⟩
    exact ⟨List.ne_nil_of_mem ((hmem holder).mpr ⟨hholder, halive⟩), honly⟩
  · rintro ⟨hsome, honly⟩
    obtain ⟨holder, hholder⟩ := List.exists_mem_of_ne_nil _ hsome
    obtain ⟨hholder, halive⟩ := (hmem holder).mp hholder
    exact ⟨⟨holder, hholder, honly holder hholder halive, halive⟩, honly⟩

/-- What a release makes of the claim of the holder. -/
theorem releasedClaims_eq (hsound : ClaimsSound claims) (he : (root, claim) ∈ claims)
    (hid : claim.claimId = claimId)
    (hholder : holderId ∈ claim.holders.map (·.1)) :
    ∃ left removed, releasedClaims holderId claimId claims = (left, removed, true)
      ∧ holderId ∉ holderIds left
      ∧ removed = if Keyed.remove Prod.fst claim.holders holderId = [] then
          [{ claim with holders := Keyed.remove Prod.fst claim.holders holderId }] else [] := by
  have hfind : claims.find? (fun entry => entry.2.claimId = claimId
      ∧ holderId ∈ entry.2.holders.map (·.1))
      = some (root, claim) := by
    cases hfound : claims.find? (fun entry => entry.2.claimId = claimId
      ∧ holderId ∈ entry.2.holders.map (·.1)) with
    | none => exact absurd (decide_eq_true ⟨hid, hholder⟩) (List.find?_eq_none.mp hfound _ he)
    | some entry =>
        have hentry := List.find?_some hfound
        rw [decide_eq_true_iff] at hentry
        rw [hsound.holder_unique (List.mem_of_find?_eq_some hfound) he hentry.2 hholder]
  have hothers : ∀ entry ∈ claims, entry.1 ≠ root → holderId ∉ entry.2.holders.map (·.1) := by
    intro entry hmem hne hin
    exact hne (congrArg Prod.fst (hsound.holder_unique hmem he hin hholder))
  unfold releasedClaims
  rw [hfind]
  dsimp only
  by_cases hnone : Keyed.remove Prod.fst claim.holders holderId = []
  · rw [if_pos (List.isEmpty_iff.mpr hnone), if_pos hnone]
    refine ⟨_, _, rfl, fun hin => ?_, rfl⟩
    obtain ⟨entry, hmem, hin⟩ := mem_holderIds.mp hin
    obtain ⟨hold, hne⟩ := Keyed.mem_remove.mp hmem
    exact hothers entry hold hne hin
  · rw [if_neg (by rw [List.isEmpty_iff]; exact hnone), if_neg hnone]
    refine ⟨_, _, rfl, fun hin => ?_, rfl⟩
    obtain ⟨entry, hmem, hin⟩ := mem_holderIds.mp hin
    rcases Keyed.mem_adjust.mp hmem with ⟨hold, hne⟩ | ⟨old, -, -, rfl⟩
    · exact hothers entry hold hne hin
    · obtain ⟨holder, hleft, hsame⟩ := List.mem_map.mp hin
      exact (Keyed.mem_remove.mp hleft).2 hsame

namespace OpenCodeWorld

variable {w : OpenCodeWorld} {env : OpenCodeEnvironment}

/-- A holder's release succeeds exactly if others hold the claim, or its agent takes the report. -/
theorem Bound.release_iff (h : w.Bound) (hserves : w.Serves env generationId)
    (hvalid : (OpenCodeAction.release env generationId holderId claimId).validate = .ok ())
    (he : (root, claim) ∈ w.coordinator.claims) (hid : claim.claimId = claimId)
    (hholder : ∃ holder ∈ claim.holders, holder.1 = holderId ∧ env.now < holder.2.expiresAt) :
    (((OpenCodeAction.release env generationId holderId claimId).call w).1 =
          .ok (.sessionClaimReleased true)
        ∧ holderId ∉ holderIds
          ((OpenCodeAction.release env generationId holderId claimId).call w).2.coordinator.claims)
      ↔ (claim.Last env.now holderId → w.registry.CanInactivate claim.agentId) := by
  have hcall : (OpenCodeAction.release env generationId holderId claimId).call w
      = w.mutate env generationId (releaseOpenCodeSessionClaim env holderId claimId) := by
    unfold OpenCodeAction.call
    rw [hvalid]
    rfl
  obtain ⟨holder, hmem, hsame, halive⟩ := hholder
  have hin : holder ∈ (claim.prune env.now).holders :=
    List.mem_filter.mpr ⟨hmem, decide_eq_true halive⟩
  -- The holder is alive, so that pruning leaves the claim and the holder in it.
  have hpruned : (root, claim.prune env.now) ∈ pruneClaims env.now w.coordinator.claims :=
    mem_pruneClaims.mpr ⟨List.ne_nil_of_mem hin, _, he, rfl⟩
  obtain ⟨left, removed, hreleased, hgone, hremoved⟩ :=
    releasedClaims_eq (h.sound.prune env.now) hpruned
    (show (claim.prune env.now).claimId = claimId from hid) (List.mem_map.mpr ⟨holder, hin, hsame⟩)
  -- Only a claim without other holders is removed.
  have hlast : (∀ other ∈ removed, other.agentId ∉ [] → w.registry.CanInactivate other.agentId)
      ↔ (claim.Last env.now holderId → w.registry.CanInactivate claim.agentId) := by
    rw [hremoved, last_iff, and_iff_right (List.ne_nil_of_mem hin)]
    split
    next hnone =>
        rw [List.forall_mem_singleton, forall_prop_of_true hnone]
        exact forall_prop_of_true List.not_mem_nil
    next hnone =>
        exact iff_of_true (fun _ hother => absurd hother List.not_mem_nil)
          fun hnil => absurd hnil hnone
  -- The agent of a claim has the run of that claim.
  have hruns : ∀ other ∈ removed, ∀ agent ∈ w.registry.agents,
      agent.id = other.agentId → agent.runId = other.runId := by
    intro other hother agent hagent hid
    rw [hremoved] at hother
    split at hother
    next =>
        rw [List.mem_singleton.mp hother] at hid ⊢
        exact h.runs _ he agent hagent hid
    next => exact absurd hother List.not_mem_nil
  rw [hcall, ← hlast, ← @inactivate_ok_iff w.registry env.unixMs [] removed hruns]
  -- It has succeeded: its inactivation did.
  constructor
  · rintro ⟨hok, -⟩
    cases hoperation : releaseOpenCodeSessionClaim env holderId claimId w.coordinator
      w.registry with
    | error failure =>
        rw [hserves.mutate_error hoperation] at hok
        cases hok
    | ok m =>
        simp only [releaseOpenCodeSessionClaim, hreleased, bind_eq_ok, mapError_eq_ok] at hoperation
        obtain ⟨result, hresult, -⟩ := hoperation
        exact ⟨result, hresult⟩
  -- The inactivation succeeds, and with it the call.
  · rintro ⟨⟨d, undo, events⟩, hresult⟩
    have hoperation : releaseOpenCodeSessionClaim env holderId claimId w.coordinator w.registry
        = .ok ⟨left, d, undo, .ofEvents events, .ok (.sessionClaimReleased true)⟩ := by
      unfold releaseOpenCodeSessionClaim
      rw [hreleased]
      dsimp only
      rw [hresult]
      rfl
    rw [hserves.mutate_ok hoperation (release_kept h.runs hoperation).recorded]
    exact ⟨rfl, hgone⟩

/-- All that `ensure_opencode_session_claim` checks before the holder leaves the claim that it has:
the root is not claimed by another ShellRun, the Shell runs, there is capacity, and the agent of the
root is active. -/
def Admits (w : OpenCodeWorld) (env : OpenCodeEnvironment)
    (holderId rootSessionId shellId runId : String)
    (spec : AgentRegistrationSpec) : Prop :=
  ∃ settled ensured,
    settleExisting w.registry rootSessionId shellId runId
      (pruneClaims env.now w.coordinator.claims) = .ok settled
      ∧ validateCurrentRunningShell w.registry shellId runId = .ok ()
      ∧ hasCapacity rootSessionId holderId settled = true
      ∧ w.registry.ensureAgent env.agentId env.unixMs shellId runId spec = .ok ensured
      ∧ ensured.agent.state.endedAtMs.isNone = true ∧ ensured.agent.state.observation.state ≠ .done

/-- The claims that a move leaves without holders are those that had no other. -/
theorem mem_vacated {settled : OpenCodeClaims} {d : AgentRegistry} {now : Nat}
    (hsettled : settleExisting d root shellId runId (pruneClaims now claims) = .ok settled) :
    (∀ removed ∈ (vacated root (removeHolder holderId settled)).map (·.2),
      d'.CanInactivate removed.agentId)
      ↔ ∀ entry ∈ claims, entry.1 ≠ root → entry.2.Last now holderId →
        d'.CanInactivate entry.2.agentId := by
  have hold (entry : String × OpenCodeRootClaim) (hne : entry.1 ≠ root) :
      entry ∈ settled ↔ entry ∈ pruneClaims now claims := by
    rcases settleExisting_cases hsettled with rfl | ⟨rfl, -⟩
    · exact Iff.rfl
    · rw [Keyed.mem_remove, and_iff_left hne]
  constructor
  · intro hall entry he hne hlast
    obtain ⟨hheld, hnone⟩ := last_iff.mp hlast
    have hpruned : (entry.1, entry.2.prune now) ∈ settled :=
      (hold (entry.1, entry.2.prune now) hne).mpr (mem_pruneClaims.mpr ⟨hheld, entry, he, rfl⟩)
    have hempty : (Keyed.remove Prod.fst (entry.2.prune now).holders holderId).isEmpty = true :=
      List.isEmpty_iff.mpr hnone
    have hvacated : ({ entry.2.prune now with
        holders := Keyed.remove Prod.fst (entry.2.prune now).holders holderId } : OpenCodeRootClaim)
        ∈ (vacated root (removeHolder holderId settled)).map (·.2) := by
      refine List.mem_map.mpr ⟨(entry.1, _),
        List.mem_filter.mpr ⟨mem_removeHolder.mpr ⟨_, hpruned, rfl⟩, ?_⟩, rfl⟩
      rw [decide_eq_true_iff]
      exact ⟨hne, hempty⟩
    have htakes := hall _ hvacated
    exact htakes
  · intro hall removed hremoved
    obtain ⟨entry', hentry', rfl⟩ := List.mem_map.mp hremoved
    obtain ⟨hmem, hvacated⟩ := List.mem_filter.mp hentry'
    rw [decide_eq_true_iff, List.isEmpty_iff] at hvacated
    obtain ⟨old, hsettledOld, rfl⟩ := mem_removeHolder.mp hmem
    obtain ⟨hheld, entry, he, rfl⟩ := mem_pruneClaims.mp ((hold old hvacated.1).mp hsettledOld)
    exact hall entry he hvacated.1 (last_iff.mpr ⟨hheld, hvacated.2⟩)

/-- A move that passes its checks succeeds exactly if the agent of the claim that is left without
holders takes the report. -/
theorem Bound.ensure_iff {rootSessionId : String} {spec : AgentRegistrationSpec} (h : w.Bound)
    (hserves : w.Serves env generationId)
    (hvalid : (OpenCodeAction.ensure env generationId holderId rootSessionId shellId runId
      spec).validate = .ok ())
    (hfresh : Unclaimed w.coordinator.claims env.agentId)
    (hadmits : w.Admits env holderId rootSessionId shellId runId spec) :
    (∃ response, ((OpenCodeAction.ensure env generationId holderId rootSessionId shellId runId
      spec).call w).1
        = .ok response)
      ↔ ∀ entry ∈ w.coordinator.claims, entry.1 ≠ rootSessionId → entry.2.Last env.now holderId →
        w.registry.CanInactivate entry.2.agentId := by
  obtain ⟨settled, ensured, hsettled, hrunning, hcapacity, hensured, hactive, hnotDone⟩ := hadmits
  have hcall : ∀ response,
      ((OpenCodeAction.ensure env generationId holderId rootSessionId shellId runId spec).call w).1
      = .ok response ↔ (w.mutate env generationId
        (ensureOpenCodeSessionClaim env generationId holderId rootSessionId
        shellId runId spec)).1 = .ok response := by
    intro response
    unfold OpenCodeAction.call
    rw [hvalid]
    simp only [OpenCodeAction.run]
    split
    next heq => rw [heq]
    next => exact Iff.rfl
  have hagents := ensureAgent_kept hensured
  have hremovedAgents :
      ∀ removed ∈ (vacated rootSessionId (removeHolder holderId settled)).map (·.2),
      ∃ entry ∈ w.coordinator.claims, entry.2.agentId = removed.agentId
        ∧ entry.2.runId = removed.runId := by
    intro removed hremoved
    obtain ⟨entry', hentry', rfl⟩ := List.mem_map.mp hremoved
    obtain ⟨old, hmem, rfl⟩ := mem_removeHolder.mp (List.mem_filter.mp hentry').1
    have hpruned : old ∈ pruneClaims env.now w.coordinator.claims := by
      rcases settleExisting_cases hsettled with rfl | ⟨rfl, -⟩
      · exact hmem
      · exact (Keyed.mem_remove.mp hmem).1
    exact (SameAgent.of_mem hpruned).of_prune
  -- The registration of the new agent leaves those of the claims.
  have hsame : ∀ agentId, agentId ≠ env.agentId →
      (ensured.registry.CanInactivate agentId ↔ w.registry.CanInactivate agentId) := by
    intro agentId hne
    rcases ensureAgent_eq_ok hensured with ⟨-, -, hregistry, -, -⟩ | hregistered
    · rw [hregistry]
    · obtain ⟨hregistry, hid, -, -, -⟩ := registerAgent_eq_ok hregistered
      unfold CanInactivate
      rw [hregistry]
      show (∀ agent, Keyed.get AgentInstance.id
          (Keyed.upsert AgentInstance.id w.registry.agents ensured.agent) agentId
        = some agent → _) ↔ _
      rw [Keyed.get_upsert, if_neg fun heq => hne (heq.symm.trans hid)]
  have hremoved : (∃ result, inactivateReleasedOpenCodeAgents env.unixMs ensured.registry []
        ((vacated rootSessionId (removeHolder holderId settled)).map (·.2)) = .ok result)
      ↔ ∀ entry ∈ w.coordinator.claims, entry.1 ≠ rootSessionId → entry.2.Last env.now holderId →
        w.registry.CanInactivate entry.2.agentId := by
    rw [inactivate_ok_iff, ← mem_vacated hsettled]
    · refine forall₂_congr fun removed hremoved => ?_
      obtain ⟨entry, he, hagent, -⟩ := hremovedAgents removed hremoved
      rw [hsame removed.agentId (hagent ▸ hfresh entry he)]
      exact forall_prop_of_true List.not_mem_nil
    · intro removed hremoved agent hagent hid
      obtain ⟨entry, he, hrun⟩ := hremovedAgents removed hremoved
      have hclaimed : SameAgent w.coordinator.claims (entry.1, removed) := ⟨entry, he, hrun⟩
      exact h.runs.same hagents.registry (fun _ hnew => hnew ▸ hfresh) hclaimed agent hagent hid
  rw [← hremoved]
  constructor
  · rintro ⟨response, hok⟩
    rw [hcall] at hok
    cases hoperation : ensureOpenCodeSessionClaim env generationId holderId rootSessionId shellId
      runId spec
        w.coordinator w.registry with
    | error failure =>
        rw [hserves.mutate_error hoperation] at hok
        cases hok
    | ok m =>
        simp only [ensureOpenCodeSessionClaim, hsettled, hensured, bind_eq_ok, mapError_eq_ok,
          Except.ok.injEq]
          at hoperation
        obtain ⟨_, rfl, -, -, -, -, _, rfl, -, -, result, hresult, -⟩ := hoperation
        exact ⟨result, hresult⟩
  · rintro ⟨⟨d, undo, events⟩, hresult⟩
    obtain ⟨snapshot, hsnapshot⟩ :=
      snapshot_movedClaims settled env rootSessionId holderId ensured.agent shellId runId
      generationId w.coordinator.runtime
    have hoperation : ∃ m,
        ensureOpenCodeSessionClaim env generationId holderId rootSessionId shellId runId spec
        w.coordinator w.registry = .ok m := by
      unfold ensureOpenCodeSessionClaim
      simp only [bind_eq_ok, mapError_eq_ok, require_eq_ok]
      refine ⟨_, settled, hsettled, (), hrunning, (), hcapacity, ensured, hensured, (), ?_, _,
        hresult, snapshot,
        hsnapshot, rfl⟩
      exact decide_eq_true ⟨hactive, hnotDone⟩
    obtain ⟨m, hoperation⟩ := hoperation
    obtain ⟨-, -, -, -, -, response, hresponse⟩ := ensure_ok hoperation
    refine ⟨response, (hcall response).mpr ?_⟩
    rw [hserves.mutate_ok hoperation
      (ensure_kept h.sound h.agents h.runs hfresh hoperation).recorded]
    exact hresponse

/-! ## The theorem -/

/-- In every reachable state, a holder's release succeeds, and a move that passes its checks is not
refused, exactly if the agent takes the report where no other holder of the claim is left. -/
theorem released_and_moved_iff {w₀ : OpenCodeWorld} (hnone : w₀.coordinator.claims = [])
    (hagents : Keyed.Distinct AgentInstance.id w₀.registry.agents)
    (hrun : Reach step Sensible w₀ w) :
    (∀ (env : OpenCodeEnvironment) (generationId holderId claimId root : String) (claim :
      OpenCodeRootClaim),
      w.Serves env generationId →
        (OpenCodeAction.release env generationId holderId claimId).validate = .ok () →
      (root, claim) ∈ w.coordinator.claims → claim.claimId = claimId →
      (∃ holder ∈ claim.holders, holder.1 = holderId ∧ env.now < holder.2.expiresAt) →
      ((((OpenCodeAction.release env generationId holderId claimId).call w).1 = .ok
        (.sessionClaimReleased true)
          ∧ holderId ∉ holderIds
            ((OpenCodeAction.release env generationId holderId claimId).call
              w).2.coordinator.claims)
        ↔ (claim.Last env.now holderId → w.registry.CanInactivate claim.agentId)))
    ∧ ∀ (env : OpenCodeEnvironment) (generationId holderId rootSessionId shellId runId : String)
      (spec : AgentRegistrationSpec), w.Serves env generationId →
      (OpenCodeAction.ensure env generationId holderId rootSessionId shellId runId spec).validate =
        .ok () →
      Unclaimed w.coordinator.claims env.agentId →
        w.Admits env holderId rootSessionId shellId runId spec →
      ((∃ response, ((OpenCodeAction.ensure env generationId holderId rootSessionId shellId runId
        spec).call w).1
          = .ok response)
        ↔ ∀ entry ∈ w.coordinator.claims, entry.1 ≠ rootSessionId → entry.2.Last env.now holderId →
          w.registry.CanInactivate entry.2.agentId) := by
  have hbound : w.Bound := by
    refine Reach.invariant (I := Bound) ?_ (fun _ _ _ h ha hs => h.step ha hs) hrun
    exact ⟨hnone ▸ .nil, hagents, fun _ he => absurd (hnone ▸ he) List.not_mem_nil⟩
  exact ⟨fun _ _ _ _ _ _ hserves hvalid he hid hholder =>
    hbound.release_iff hserves hvalid he hid hholder,
    fun _ _ _ _ _ _ _ hserves hvalid hfresh hadmits =>
      hbound.ensure_iff hserves hvalid hfresh hadmits⟩

/-! ## A completed agent -/

def claimTime (now : Nat) : OpenCodeEnvironment :=
  ⟨now, now, "00000000000000000000000000000004", "a", .ok false, none, none⟩

/-- A holder claims a root, for the Shell that runs in `serving`. -/
def ensuresRoot (now : Nat) (agentId rootSessionId : String) : OpenCodeAction :=
  .ensure { claimTime now with agentId := agentId } "00000000000000000000000000000003" "h"
    rootSessionId
    "00000000000000000000000000000001" "00000000000000000000000000000002"
    ⟨"n", "opencode", some rootSessionId, ⟨.working, .lifecycleIntegration, "e", 100⟩⟩

def releasesClaim (now : Nat) : OpenCodeAction :=
  .release (claimTime now) "00000000000000000000000000000003" "h" "00000000000000000000000000000004"

/-- The root is claimed, by an agent that works. -/
def claimedWorld : OpenCodeWorld := ((ensuresRoot 0 "a" "r").call serving).2

theorem claimedWorld_reach : Reach step Sensible serving claimedWorld :=
  Reach.refl.tail (a := ensuresRoot 0 "a" "r") (fun _ he => absurd he List.not_mem_nil) rfl

/-- The registry after the agent was reported done. -/
def completed (d : AgentRegistry) : AgentRegistry :=
  match d.reportAgent 1 "a" "00000000000000000000000000000002" ⟨.done, .lifecycleIntegration,
    "done", 100⟩ with
  | .ok m => m.registry
  | .error _ => d

def completedWorld : OpenCodeWorld :=
  { claimedWorld with registry := completed claimedWorld.registry }

theorem completed_from (d : AgentRegistry) (new : String → Prop) :
    d.AgentsFrom new (completed d) := by
  unfold completed
  split
  next m hm => exact (reportAgent_kept new hm).registry
  next => exact .refl d new

theorem completedWorld_reach : Reach step Sensible serving completedWorld :=
  claimedWorld_reach.tail (a := .edit (completed claimedWorld.registry)) (completed_from _ _) rfl

/-- The claim of the root, and its agent. -/
def workingClaim : OpenCodeRootClaim :=
  ⟨"00000000000000000000000000000004", "w", "00000000000000000000000000000001",
    "00000000000000000000000000000002", "a",
    "h", [("h", ⟨300000, 300000⟩)]⟩

def workingAgent : AgentInstance :=
  .new "a" "w" "00000000000000000000000000000001" "00000000000000000000000000000002" (some "/") 0
    ⟨"n", "opencode", some "r", ⟨.working, .lifecycleIntegration, "e", 100⟩⟩

/-- The release of a working agent's claim succeeds. -/
theorem releases_claimedWorld :
    ((releasesClaim 2).call claimedWorld).1 = .ok (.sessionClaimReleased true) := by
  have hserves : claimedWorld.Serves (claimTime 2) "00000000000000000000000000000003" :=
    ⟨rfl, rfl, rfl, _, rfl, rfl⟩
  have hclaims : claimedWorld.coordinator.claims = [("r", workingClaim)] := by decide +kernel
  have hagents : claimedWorld.registry.agents = [workingAgent] := by decide +kernel
  have hfirst : Keyed.Distinct AgentInstance.id serving.registry.agents := List.nodup_nil
  have hiff := (released_and_moved_iff rfl hfirst claimedWorld_reach).1 (claimTime 2)
    "00000000000000000000000000000003" "h" "00000000000000000000000000000004" "r" workingClaim
      hserves
    (by decide +kernel) (hclaims ▸ List.mem_cons_self) rfl ⟨_, List.mem_cons_self, rfl, by decide⟩
  refine (hiff.mpr fun _ agent hget => ?_).1
  rw [hagents] at hget
  obtain rfl : workingAgent = agent := Option.some.inj hget
  exact .inr (.inr (by decide))

/-- When the agent was reported done, its claim cannot be released, and its holder cannot move to
another root. -/
theorem completed_keeps_holder :
    Reach step Sensible serving completedWorld
      ∧ completedWorld.Serves (claimTime 2) "00000000000000000000000000000003"
      ∧ completedWorld.coordinator.claims = [("r", workingClaim)]
      ∧ ((releasesClaim 2).call completedWorld).1
        = .error (.refused (.ofIo ⟨.invalidInput,
          "completed agent instance cannot be reported again"⟩))
      ∧ ((ensuresRoot 2 "b" "s").call completedWorld).1
        = .error (.refused (.ofIo ⟨.invalidInput,
          "completed agent instance cannot be reported again"⟩)) :=
  ⟨completedWorld_reach,
    ⟨rfl, rfl, rfl, _, rfl, rfl⟩, by decide +kernel, by decide +kernel, by decide +kernel⟩

end OpenCodeWorld

end Boomux.Daemon
