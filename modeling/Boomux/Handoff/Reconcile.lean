import Boomux.Handoff.Transfer

/-!
# Holders whose process is gone

A holder whose process has died is removed before a graceful restart, a new acquisition or a hook
report, and in the same mutation the agents that nobody speaks for any more are reported inactive.
An agent that is done takes no such report, and then nothing of the mutation stays. The holders,
their sessions and the agents lie in hash maps: `Reaches` lets their order change at any time, and
what is proved here holds in every order.
-/

set_option autoImplicit false

namespace Boomux.Handoff

open Rust Daemon Transition

/-! ## Reports of inactivity -/

/-- What the agent of a session gets when the last holder has died. -/
abbrev exitReport : AgentReport := Authority.inactiveReport "Kiro managed process exited"

/-- What an agent gets that no holder has. -/
abbrev unavailableReport : AgentReport :=
  Authority.inactiveReport "Kiro launch authority unavailable"

variable {state state' state'' : AgentInstanceState} {startedAtMs now : Nat} {evidence : String}
  {outcome : ReportOutcome}

theorem rank_inactive (authority : AgentAuthority) :
    agentAuthorityRank .lifecycleIntegration < agentAuthorityRank authority ↔
      authority = .daemonLifecycle := by
  cases authority <;> decide

/-- A report of inactivity finds the agent inactive with this evidence, or is outranked, or it
replaces the observation. -/
theorem report_inactive_eq_ok
    (h : state.report startedAtMs now (Authority.inactiveReport evidence) = .ok outcome) :
    outcome.state = state ∧
        (observationMatchesReport state.observation (Authority.inactiveReport evidence) = true ∨
          state.endedAtMs = none ∧ state.observation.authority = .daemonLifecycle) ∨
      state.endedAtMs = none ∧ state.observation.authority ≠ .daemonLifecycle ∧
        state.observation.revision + 1 < 2 ^ 64 ∧ outcome.state.endedAtMs = none ∧
        observationMatchesReport outcome.state.observation
          (Authority.inactiveReport evidence) = true := by
  unfold AgentInstanceState.report at h
  split at h
  next =>
    split at h <;> cases h
    next hmatch => exact .inl ⟨rfl, .inl hmatch⟩
  next hended =>
    have hnone : state.endedAtMs = none := by simpa using hended
    dsimp only at h
    split at h
    next hsame =>
      cases h
      refine .inl ⟨rfl, ?_⟩
      simp only [Bool.or_eq_true, decide_eq_true_eq, Authority.inactiveReport,
        rank_inactive] at hsame
      rcases hsame with (hmatch | hworking) | hrank
      · exact .inl hmatch
      · simp at hworking
      · exact .inr ⟨hnone, hrank⟩
    next hnew =>
      simp only [Bool.or_eq_true, decide_eq_true_eq, Authority.inactiveReport, rank_inactive,
        not_or] at hnew
      split at h <;> cases h
      next revision hrevision =>
        have hroom := (checkedAdd_eq_some.mp hrevision).1
        refine .inr ⟨hnone, hnew.2, Nat.lt_of_le_sub_one (by decide) hroom, ?_, ?_⟩
        · simpa [Authority.inactiveReport] using hnone
        · simp [observationMatchesReport]

/-- The agent can take a report of inactivity with this evidence. -/
theorem report_inactive_isOk (h : observationMatchesReport state.observation
        (Authority.inactiveReport evidence) = true ∨
      state.endedAtMs = none ∧ (state.observation.authority = .daemonLifecycle ∨
        state.observation.revision + 1 < 2 ^ 64)) (startedAtMs now : Nat) :
    ∃ outcome, state.report startedAtMs now (Authority.inactiveReport evidence) = .ok outcome := by
  unfold AgentInstanceState.report
  by_cases hmatch : observationMatchesReport state.observation
      (Authority.inactiveReport evidence) = true
  · simp [hmatch]
    split <;> exact ⟨_, rfl⟩
  · obtain ⟨hnone, hrank | hroom⟩ := h.resolve_left hmatch
    · simp [hnone, hrank, Authority.inactiveReport, agentAuthorityRank]
    · have hadd : checkedAdd state.observation.revision 1 = some (state.observation.revision + 1) :=
        checkedAdd_eq_some.mpr ⟨Nat.le_sub_one_of_lt hroom, rfl⟩
      simp only [hnone, hadd, Option.isSome_none, Bool.false_eq_true, if_false]
      split <;> exact ⟨_, rfl⟩

/-- What reports of inactivity do to the state of an agent. -/
def Silenced (report : AgentReport) (state state' : AgentInstanceState) : Prop :=
  state' = state ∨
    state.endedAtMs = none ∧ state.observation.authority ≠ .daemonLifecycle ∧
      state.observation.revision + 1 < 2 ^ 64 ∧ state'.endedAtMs = none ∧
      observationMatchesReport state'.observation report = true

theorem Silenced.trans {report : AgentReport} (h : Silenced report state state')
    (h' : Silenced report state' state'') : Silenced report state state'' := by
  rcases h with rfl | ⟨hnone, hrank, hroom, hafter⟩
  · exact h'
  · rcases h' with rfl | ⟨-, -, -, hafter'⟩
    · exact .inr ⟨hnone, hrank, hroom, hafter⟩
    · exact .inr ⟨hnone, hrank, hroom, hafter'⟩

theorem report_silenced
    (h : state.report startedAtMs now (Authority.inactiveReport evidence) = .ok outcome) :
    Silenced (Authority.inactiveReport evidence) state outcome.state :=
  (report_inactive_eq_ok h).imp_left And.left

/-- The agent has not ended, and takes the report that its process has exited: afterwards it is
inactive. -/
def TakesExit (state : AgentInstanceState) : Prop :=
  state.endedAtMs = none ∧
    (observationMatchesReport state.observation exitReport = true ∨
      if state.observation.authority = .daemonLifecycle then state.observation.state = .inactive
      else state.observation.revision + 1 < 2 ^ 64)

theorem inactive_of_matches {observation : AgentObservationSnapshot}
    (h : observationMatchesReport observation (Authority.inactiveReport evidence) = true) :
    observation.state = .inactive ∧ observation.authority = .lifecycleIntegration := by
  simp only [observationMatchesReport, Bool.and_eq_true, decide_eq_true_eq] at h
  exact ⟨h.1.1.1, h.1.1.2⟩

/-- It takes the report still when it has got it before. -/
theorem TakesExit.report_isOk (h : TakesExit state) (hs : Silenced exitReport state state')
    (startedAtMs now : Nat) :
      ∃ outcome, state'.report startedAtMs now exitReport = .ok outcome := by
  rcases hs with rfl | ⟨-, -, -, -, hmatch⟩
  · obtain ⟨hnone, hmatch | htakes⟩ := h
    · exact report_inactive_isOk (.inl hmatch) _ _
    · refine report_inactive_isOk (.inr ⟨hnone, ?_⟩) _ _
      split at htakes
      next hrank => exact .inl hrank
      next => exact .inr htakes
  · exact report_inactive_isOk (.inl hmatch) _ _

namespace Authority

variable {s t u : Authority} {table : ProcessTable} {report : AgentReport} {agentId runId : String}

/-! ## Reports of inactivity to agents -/

/-- Agents got reports of inactivity, and nothing else has changed. -/
structure Silences (report : AgentReport) (s t : Authority) : Prop where
  updates : s.Updates t
  agent : ∀ id agent, agentOf s.agents id = some agent →
    ∃ state, Silenced report agent.state state ∧
      agentOf t.agents id = some { agent with state := state }

theorem Silences.refl (report : AgentReport) (s : Authority) : Silences report s s :=
  ⟨.refl s, fun _ agent h => ⟨agent.state, .inl rfl, h⟩⟩

theorem Silences.trans (h : Silences report s t) (h' : Silences report t u) :
    Silences report s u := by
  refine ⟨h.updates.trans h'.updates, fun id agent ha => ?_⟩
  obtain ⟨state, hs, ha⟩ := h.agent id agent ha
  obtain ⟨state', hs', ha'⟩ := h'.agent id _ ha
  exact ⟨state', hs.trans hs', ha'⟩

/-- The agents after the reports, one by one. -/
theorem Silences.of_mem (h : Silences report s t) (hd : Keyed.Distinct AgentInstance.id s.agents)
    {agent' : AgentInstance} (ha : agent' ∈ t.agents) :
    ∃ agent ∈ s.agents, Silenced report agent.state agent'.state ∧
      agent' = { agent with state := agent'.state } := by
  obtain ⟨agent, hmem, he⟩ := h.updates.agents agent' ha
  obtain ⟨state, hs, hget⟩ := h.agent agent.id agent (hd.get_of_mem hmem)
  have hget' := (h.updates.distinct hd).get_of_mem ha
  have hid : agent'.id = agent.id := by rw [he]
  rw [hid] at hget'
  have : agent' = { agent with state := state } := Option.some.inj (hget'.symm.trans hget)
  rw [this]
  exact ⟨agent, hmem, hs, rfl⟩

theorem agentOf_setAgentState (s : Authority) (agentId : String) (state : AgentInstanceState)
    (id : String) : agentOf (s.setAgentState agentId state).agents id =
      if id = agentId then (agentOf s.agents id).map fun agent => { agent with state := state }
      else agentOf s.agents id := by
  refine Keyed.get_adjust ?_ id
  exact fun _ _ hid => hid

theorem reportAgent_eq_ok {now : Nat} {outcome : ReportOutcome} :
    s.reportAgent now agentId runId report = .ok (t, outcome) ↔
      (validateAgentReport report = .ok ()
        ∧ validateExternalAgentAuthority report.authority = .ok ()) ∧
        ∃ agent, agentOf s.agents agentId = some agent ∧ agent.runId = runId ∧
          agent.state.report agent.startedAtMs now report = .ok outcome ∧
          t = s.setAgentState agentId outcome.state := by
  simp only [reportAgent, bind_eq_ok, liftIo, mapError_eq_ok]
  constructor
  · rintro ⟨⟨⟩, hreport, ⟨⟩, hauthority, h⟩
    refine ⟨⟨hreport, hauthority⟩, ?_⟩
    split at h
    next => cases h
    next agent hget =>
      simp only [bind_eq_ok, require_eq_ok, decide_eq_true_eq, Except.ok.injEq, Prod.mk.injEq] at h
      obtain ⟨-, hrun, outcome', houtcome, rfl, rfl⟩ := h
      exact ⟨agent, hget, hrun, houtcome, rfl⟩
  · rintro ⟨⟨hreport, hauthority⟩, agent, hget, hrun, houtcome, rfl⟩
    refine ⟨(), hreport, (), hauthority, ?_⟩
    rw [hget]
    simp only [bind_eq_ok, require_eq_ok, decide_eq_true_eq]
    exact ⟨(), hrun, outcome, houtcome, rfl⟩

/-- A report of inactivity is made to an agent of the run, which takes it. -/
theorem reportAgent_silences {now : Nat}
    (h : s.reportAgent now agentId runId (inactiveReport evidence) = .ok (t, outcome)) :
    Silences (inactiveReport evidence) s t := by
  refine ⟨reportAgent_updates h, fun id agent ha => ?_⟩
  obtain ⟨-, reported, hget, -, houtcome, rfl⟩ := reportAgent_eq_ok.mp h
  rw [agentOf_setAgentState]
  split
  next hid =>
    subst hid
    rw [hget] at ha
    cases ha
    exact ⟨outcome.state, report_silenced houtcome, by rw [hget]; rfl⟩
  next => exact ⟨agent.state, .inl rfl, ha⟩

/-- A loop of reports of inactivity. -/
theorem foldlM_silences {α β : Type} {g : β → Authority} {l : List α}
    {f : β → α → Except DaemonError β} {b b' : β}
    (hf : ∀ b a b', f b a = .ok b' → Silences report (g b) (g b'))
    (h : l.foldlM f b = .ok b') : Silences report (g b) (g b') := by
  induction l generalizing b with
  | nil =>
      cases h
      exact .refl _ _
  | cons a l ih =>
      rw [List.foldlM_cons, bind_eq_ok] at h
      obtain ⟨c, hc, hl⟩ := h
      exact (hf b a c hc).trans (ih hl)

/-! ## The sessions of the removed holders -/

/-- The sessions that `inactivate_released_kiro_sessions` goes through, each with its holder. -/
def sessionsOf (removed : List KiroLaunchHolderManifest) :
    List (KiroLaunchHolderManifest × String × String) :=
  removed.flatMap fun holder => holder.sessions.map (holder, ·)

theorem inactivateReleased_eq (s : Authority) (now : Nat)
    (remaining removed : List KiroLaunchHolderManifest) :
    s.inactivateReleasedKiroSessions now remaining removed =
      ((sessionsOf removed).foldlM (fun r p => inactivateSession now remaining p.1 r p.2)
        ⟨s, []⟩).map Released.authority := by
  have hloop : ∀ r : Released,
      (removed.foldlM (fun r holder =>
        holder.sessions.foldlM (inactivateSession now remaining holder) r) r) =
      (sessionsOf removed).foldlM (fun r p => inactivateSession now remaining p.1 r p.2) r := by
    unfold sessionsOf
    induction removed with
    | nil => exact fun r => rfl
    | cons holder removed ih =>
        intro r
        rw [List.foldlM_cons, List.flatMap_cons, List.foldlM_append, List.foldlM_map]
        exact congrArg _ (funext ih)
  unfold inactivateReleasedKiroSessions
  rw [hloop]
  cases (sessionsOf removed).foldlM (fun r p => inactivateSession now remaining p.1 r p.2) ⟨s, []⟩
    <;>
    rfl

/-- One of the remaining holders has the session of this Shell and run. -/
def stillHeld (remaining : List KiroLaunchHolderManifest) (holder : KiroLaunchHolderManifest)
    (sessionId : String) : Bool :=
  remaining.any fun candidate =>
    candidate.shellId = holder.shellId && candidate.runId = holder.runId && candidate.has sessionId

variable {remaining : List KiroLaunchHolderManifest} {holder : KiroLaunchHolderManifest}
  {r r' : Released} {session : String × String} {now : Nat}

theorem inactivateSession_silences (h : inactivateSession now remaining holder r session = .ok r') :
    Silences exitReport r.authority r'.authority := by
  unfold inactivateSession at h
  dsimp only at h
  split at h
  next => cases h; exact .refl _ _
  next =>
    split at h
    next => cases h; exact .refl _ _
    next =>
      simp only [bind_eq_ok, Except.ok.injEq] at h
      obtain ⟨⟨authority, outcome⟩, hr, rfl⟩ := h
      exact reportAgent_silences hr

/-- A session that nobody holds and that is not handled yet is one report. -/
theorem inactivateSession_reports (hnew : (holder.shellId, holder.runId, session.1) ∉ r.handled)
    (hlost : stillHeld remaining holder session.1 = false) {agent : AgentInstance}
    (hget : agentOf r.authority.agents session.2 = some agent) :
    (∃ r', inactivateSession now remaining holder r session = .ok r') ↔
      agent.runId = holder.runId ∧
        ∃ outcome, agent.state.report agent.startedAtMs now exitReport = .ok outcome := by
  have hskip : (stillHeld remaining holder session.1 ||
      (agentOf r.authority.agents session.2).isNone) = false := by
    rw [hlost, hget]
    rfl
  unfold stillHeld at hskip
  unfold inactivateSession
  dsimp only
  rw [if_neg hnew, if_neg (by rw [hskip]; exact Bool.false_ne_true)]
  constructor
  · rintro ⟨r', h⟩
    simp only [bind_eq_ok, Except.ok.injEq] at h
    obtain ⟨⟨authority, outcome⟩, hr, -⟩ := h
    obtain ⟨-, agent', hget', hrun, houtcome, -⟩ := reportAgent_eq_ok.mp hr
    rw [hget] at hget'
    cases hget'
    exact ⟨hrun, outcome, houtcome⟩
  · rintro ⟨hrun, outcome, houtcome⟩
    refine ⟨_, bind_eq_ok.mpr ⟨(_, outcome), reportAgent_eq_ok.mpr
      ⟨⟨by decide, by decide⟩, agent, hget, hrun, houtcome, rfl⟩, rfl⟩⟩

/-- A session needs nothing when it is handled, or held, or its agent is gone. -/
theorem inactivateSession_isOk
    (h : stillHeld remaining holder session.1 = false → ∀ agent,
      agentOf r.authority.agents session.2 = some agent → agent.runId = holder.runId ∧
        ∃ outcome, agent.state.report agent.startedAtMs now exitReport = .ok outcome) :
    ∃ r', inactivateSession now remaining holder r session = .ok r' := by
  by_cases hhandled : (holder.shellId, holder.runId, session.1) ∈ r.handled
  · exact ⟨r, by unfold inactivateSession; exact if_pos hhandled⟩
  · by_cases hheld : stillHeld remaining holder session.1 = true
    · refine ⟨{ r with handled := r.handled ++ [(holder.shellId, holder.runId, session.1)] }, ?_⟩
      unfold stillHeld at hheld
      unfold inactivateSession
      dsimp only
      rw [if_neg hhandled, hheld, Bool.true_or, if_pos rfl]
    · rw [Bool.not_eq_true] at hheld
      cases hget : agentOf r.authority.agents session.2 with
      | none =>
          refine ⟨{ r with handled := r.handled ++ [(holder.shellId, holder.runId, session.1)] },
            ?_⟩
          unfold inactivateSession
          dsimp only
          rw [if_neg hhandled, hget, Option.isNone_none, Bool.or_true, if_pos rfl]
      | some agent => exact (inactivateSession_reports hhandled hheld hget).mpr (h hheld agent hget)

theorem Silences.of_agentOf (h : Silences report s t) {id : String} {agent' : AgentInstance}
    (hget : agentOf t.agents id = some agent') :
    ∃ agent, agentOf s.agents id = some agent ∧ Silenced report agent.state agent'.state ∧
      agent' = { agent with state := agent'.state } := by
  cases hs : agentOf s.agents id with
  | none =>
      obtain ⟨agent, hmem, he⟩ := h.updates.agents agent' (Keyed.mem_of_get hget)
      have hid : agent.id = id := by
        have := Keyed.key_of_get hget
        rwa [he] at this
      exact absurd hid (Keyed.get_eq_none.mp hs agent hmem)
  | some agent =>
      obtain ⟨state, hstate, hget'⟩ := h.agent id agent hs
      rw [hget] at hget'
      cases hget'
      exact ⟨agent, rfl, hstate, rfl⟩

/-- The sessions are handled one after the other when every agent takes its report. -/
theorem released_isOk {pairs : List (KiroLaunchHolderManifest × String × String)}
    (hpairs : ∀ p ∈ pairs, stillHeld remaining p.1 p.2.1 = false → ∀ agent,
      agentOf s.agents p.2.2 = some agent → agent.runId = p.1.runId ∧ TakesExit agent.state)
    (hr : Silences exitReport s r.authority) :
    ∃ r', pairs.foldlM (fun r p => inactivateSession now remaining p.1 r p.2) r = .ok r' := by
  induction pairs generalizing r with
  | nil => exact ⟨r, rfl⟩
  | cons p pairs ih =>
      have hfirst : ∃ r₁, inactivateSession now remaining p.1 r p.2 = .ok r₁ := by
        refine inactivateSession_isOk fun hlost agent' hget' => ?_
        obtain ⟨agent, hget, hstate, he⟩ := hr.of_agentOf hget'
        obtain ⟨hrun, htakes⟩ := hpairs p List.mem_cons_self hlost agent hget
        rw [he]
        exact ⟨hrun, htakes.report_isOk hstate _ _⟩
      obtain ⟨r₁, h₁⟩ := hfirst
      obtain ⟨r', h'⟩ := ih (fun q hq => hpairs q (List.mem_cons_of_mem _ hq))
        (hr.trans (inactivateSession_silences h₁))
      exact ⟨r', by rw [List.foldlM_cons, h₁]; exact h'⟩

/-! ## The removal of dead holders -/

/-- The holders whose process lives. -/
def live (s : Authority) (table : ProcessTable) : List KiroLaunchHolderManifest :=
  s.holders.filter (kiroHolderIsLive table)

/-- A dead holder has the session, and no live one has it for the same Shell and run. -/
structure Lost (s : Authority) (table : ProcessTable) (holder : KiroLaunchHolderManifest)
    (session : String × String) : Prop where
  mem : holder ∈ s.holders
  dead : kiroHolderIsLive table holder = false
  held : session ∈ holder.sessions
  unheld : stillHeld (s.live table) holder session.1 = false

theorem pruneDead_eq (s : Authority) (table : ProcessTable) (now : Nat) :
    s.pruneDeadKiroHolders table now (fun _ => false) =
      inactivateReleasedKiroSessions { s with holders := s.live table } now (s.live table)
        (s.holders.filter fun holder => !kiroHolderIsLive table holder) := by
  simp only [pruneDeadKiroHolders, live, Bool.not_false, List.filter_true, List.filter_false,
    List.append_nil]

theorem mem_sessionsOf {removed : List KiroLaunchHolderManifest}
    {p : KiroLaunchHolderManifest × String × String} :
    p ∈ sessionsOf removed ↔ p.1 ∈ removed ∧ p.2 ∈ p.1.sessions := by
  obtain ⟨holder, session⟩ := p
  simp only [sessionsOf, List.mem_flatMap, List.mem_map, Prod.mk.injEq]
  constructor
  · rintro ⟨other, hmem, session', hsession, rfl, rfl⟩
    exact ⟨hmem, hsession⟩
  · rintro ⟨hmem, hsession⟩
    exact ⟨holder, hmem, session, hsession, rfl, rfl⟩

theorem pruneDead_spec (h : s.pruneDeadKiroHolders table now (fun _ => false) = .ok t) :
    Silences exitReport { s with holders := s.live table } t := by
  rw [pruneDead_eq, inactivateReleased_eq, map_eq_ok] at h
  obtain ⟨r, hr, rfl⟩ := h
  exact foldlM_silences (g := Released.authority) (fun _ _ _ => inactivateSession_silences) hr

theorem Sound.pruneDead_isOk (h : s.Sound) (htakes : ∀ holder session, s.Lost table holder session →
      ∀ agent ∈ s.agents, agent.id = session.2 → TakesExit agent.state) (now : Nat) :
    ∃ t, s.pruneDeadKiroHolders table now (fun _ => false) = .ok t := by
  have hpairs : ∀ p ∈ sessionsOf (s.holders.filter fun holder => !kiroHolderIsLive table holder),
      stillHeld (s.live table) p.1 p.2.1 = false → ∀ agent, agentOf s.agents p.2.2 = some agent →
        agent.runId = p.1.runId ∧ TakesExit agent.state := by
    intro p hp hlost agent hget
    obtain ⟨hmem, hsession⟩ := mem_sessionsOf.mp hp
    obtain ⟨hmem, hdead⟩ := List.mem_filter.mp hmem
    rw [Bool.not_eq_true'] at hdead
    have ha := Keyed.mem_of_get hget
    have hid := Keyed.key_of_get hget
    exact ⟨(h.held p.1 hmem p.2 hsession agent ha hid).run,
      htakes p.1 p.2 ⟨hmem, hdead, hsession, hlost⟩ agent ha hid⟩
  have hstart : Silences exitReport { s with holders := s.live table }
      (⟨{ s with holders := s.live table }, []⟩ : Released).authority := .refl _ _
  obtain ⟨r, hr⟩ := released_isOk (s := { s with holders := s.live table }) hpairs hstart
  refine ⟨r.authority, ?_⟩
  rw [pruneDead_eq, inactivateReleased_eq, map_eq_ok]
  exact ⟨r, hr, rfl⟩

/-! ## The agents that no holder has -/

/-- One round of `inactivate_unowned_kiro_agents`. -/
def reportUnavailable (now : Nat) (s : Authority) (agent : AgentInstance) :
    Except DaemonError Authority := do
  let (s, _) ← s.reportAgent now agent.id agent.runId unavailableReport
  .ok s

theorem inactivateUnowned_eq (s : Authority) (now : Nat) :
    s.inactivateUnownedKiroAgents now =
      (s.agents.filter s.unowned).foldlM (reportUnavailable now) s := rfl

variable {agent : AgentInstance} {l : List AgentInstance}

theorem reportUnavailable_eq_ok (hget : agentOf s.agents agent.id = some agent) :
    reportUnavailable now s agent = .ok t ↔
      ∃ outcome, agent.state.report agent.startedAtMs now unavailableReport = .ok outcome ∧
        t = s.setAgentState agent.id outcome.state := by
  unfold reportUnavailable
  rw [bind_eq_ok]
  constructor
  · rintro ⟨⟨t', outcome⟩, hr, ht⟩
    cases ht
    obtain ⟨-, agent', hget', -, houtcome, rfl⟩ := reportAgent_eq_ok.mp hr
    rw [hget] at hget'
    cases hget'
    exact ⟨outcome, houtcome, rfl⟩
  · rintro ⟨outcome, houtcome, rfl⟩
    exact ⟨(_, outcome), reportAgent_eq_ok.mpr ⟨⟨by decide, by decide⟩, agent, hget, rfl, houtcome,
      rfl⟩, rfl⟩

theorem agentOf_reported {state : AgentInstanceState}
    (hd : Keyed.Distinct AgentInstance.id (agent :: l))
    (hl : ∀ other ∈ agent :: l, agentOf s.agents other.id = some other) :
    ∀ other ∈ l, agentOf (s.setAgentState agent.id state).agents other.id = some other := by
  intro other hother
  rw [agentOf_setAgentState, if_neg (hd.head_ne hother)]
  exact hl other (List.mem_cons_of_mem _ hother)

/-- What the loop over unowned agents leaves. -/
theorem unowned_loop (hd : Keyed.Distinct AgentInstance.id l)
    (hl : ∀ agent ∈ l, agentOf s.agents agent.id = some agent)
    (h : l.foldlM (reportUnavailable now) s = .ok t) :
    (∀ agent ∈ l, ∃ outcome,
        agent.state.report agent.startedAtMs now unavailableReport = .ok outcome ∧
          agentOf t.agents agent.id = some { agent with state := outcome.state }) ∧
      ∀ id, (∀ agent ∈ l, agent.id ≠ id) → agentOf t.agents id = agentOf s.agents id := by
  induction l generalizing s with
  | nil =>
      cases h
      exact ⟨fun agent ha => absurd ha List.not_mem_nil, fun id _ => rfl⟩
  | cons agent l ih =>
      rw [List.foldlM_cons, bind_eq_ok] at h
      obtain ⟨u, hu, h⟩ := h
      have hget := hl agent List.mem_cons_self
      obtain ⟨outcome, houtcome, rfl⟩ := (reportUnavailable_eq_ok hget).mp hu
      obtain ⟨hreported, hother⟩ := ih hd.tail (agentOf_reported hd hl) h
      refine ⟨fun agent' ha => ?_, fun id hid => ?_⟩
      · rcases List.mem_cons.mp ha with rfl | ha
        · refine ⟨outcome, houtcome, ?_⟩
          rw [hother agent'.id fun other ho => hd.head_ne ho, agentOf_setAgentState,
            if_pos rfl, hget]
          rfl
        · exact hreported agent' ha
      · rw [hother id fun other ho => hid other (List.mem_cons_of_mem _ ho), agentOf_setAgentState,
          if_neg (hid agent List.mem_cons_self).symm]

theorem unowned_loop_isOk (hd : Keyed.Distinct AgentInstance.id l)
    (hl : ∀ agent ∈ l, agentOf s.agents agent.id = some agent)
    (hok : ∀ agent ∈ l, ∃ outcome,
      agent.state.report agent.startedAtMs now unavailableReport = .ok outcome) :
    ∃ t, l.foldlM (reportUnavailable now) s = .ok t := by
  induction l generalizing s with
  | nil => exact ⟨s, rfl⟩
  | cons agent l ih =>
      have hget := hl agent List.mem_cons_self
      obtain ⟨outcome, houtcome⟩ := hok agent List.mem_cons_self
      have hfirst := (reportUnavailable_eq_ok hget).mpr ⟨outcome, houtcome, rfl⟩
      obtain ⟨t, ht⟩ := ih hd.tail (agentOf_reported hd hl) fun other ho =>
        hok other (List.mem_cons_of_mem _ ho)
      exact ⟨t, by rw [List.foldlM_cons, hfirst]; exact ht⟩

theorem unowned_iff : s.unowned agent = true ↔
    agent.integration = "kiro" ∧
      (∀ holder ∈ s.holders, ∀ session ∈ holder.sessions, session.2 ≠ agent.id) ∧
      agent.state.endedAtMs = none ∧ agent.state.observation.authority = .lifecycleIntegration ∧
      agent.state.observation.state ≠ .inactive ∧ agent.state.observation.state ≠ .done := by
  simp only [unowned, Bool.and_eq_true, decide_eq_true_eq, Bool.not_eq_true', List.any_eq_false,
    Option.isNone_iff_eq_none, and_assoc, ne_eq, List.any_eq_true, not_exists, not_and,
    decide_not, decide_eq_false_iff_not]

/-- An unowned agent takes the report if its revision can grow, and is inactive then. -/
theorem unowned_report (h : s.unowned agent = true) (now : Nat) :
    (∃ outcome, agent.state.report agent.startedAtMs now unavailableReport = .ok outcome) ↔
      agent.state.observation.revision + 1 < 2 ^ 64 := by
  obtain ⟨-, -, hnone, hauthority, hstate, -⟩ := unowned_iff.mp h
  constructor
  · rintro ⟨outcome, houtcome⟩
    rcases report_inactive_eq_ok houtcome with ⟨-, hmatch | ⟨-, hrank⟩⟩ | ⟨-, -, hroom, -⟩
    · exact absurd (inactive_of_matches hmatch).1 hstate
    · rw [hauthority] at hrank
      cases hrank
    · exact hroom
  · exact fun hroom => report_inactive_isOk (.inr ⟨hnone, .inr hroom⟩) _ _

theorem unowned_reported (h : s.unowned agent = true)
    (houtcome : agent.state.report agent.startedAtMs now unavailableReport = .ok outcome) :
    outcome.state.observation.state = .inactive := by
  obtain ⟨-, -, -, hauthority, hstate, -⟩ := unowned_iff.mp h
  rcases report_inactive_eq_ok houtcome with ⟨-, hmatch | ⟨-, hrank⟩⟩ | ⟨-, -, -, -, hmatch⟩
  · exact absurd (inactive_of_matches hmatch).1 hstate
  · rw [hauthority] at hrank
    cases hrank
  · exact (inactive_of_matches hmatch).1

/-! ## Who has been heard -/

/-- Nobody with less authority speaks afterwards, and only an agent that is done has ended. -/
structure Rises (state state' : AgentInstanceState) : Prop where
  rank : agentAuthorityRank state.observation.authority ≤
    agentAuthorityRank state'.observation.authority
  done : state.EndedIffDone → state'.EndedIffDone

theorem Rises.refl (state : AgentInstanceState) : Rises state state := ⟨le_rfl, id⟩

theorem report_rises {report : AgentReport}
    (h : state.report startedAtMs now report = .ok outcome) : Rises state outcome.state := by
  refine ⟨?_, fun hd => state.report_endedIffDone hd h⟩
  rcases state.report_cases h with ⟨hsame, -⟩ | ⟨-, -, hrank, hstate⟩
  · rw [hsame]
  · rw [hstate]
    exact hrank

/-- What holds of the agents in every reachable state: an agent that a holder has has been reported
by a lifecycle integration, and only an agent that is done has ended. -/
structure Heard (s : Authority) : Prop where
  done : ∀ agent ∈ s.agents, agent.state.EndedIffDone
  spoken : ∀ holder ∈ s.holders, ∀ session ∈ holder.sessions, ∀ agent ∈ s.agents,
    agent.id = session.2 → 3 ≤ agentAuthorityRank agent.state.observation.authority

/-- The holders' sessions are those of before, and so are the agents, which have risen. -/
structure Raises (s t : Authority) : Prop where
  holders : ∀ holder' ∈ t.holders, ∃ holder ∈ s.holders,
    ∀ session ∈ holder'.sessions, session ∈ holder.sessions
  agents : ∀ agent' ∈ t.agents, ∃ agent ∈ s.agents, agent.id = agent'.id ∧
    Rises agent.state agent'.state

theorem Heard.raises (h : s.Heard) (hr : s.Raises t) : t.Heard where
  done agent' ha' := by
    obtain ⟨agent, ha, -, hrises⟩ := hr.agents agent' ha'
    exact hrises.done (h.done agent ha)
  spoken holder' hh' session hs agent' ha' hid := by
    obtain ⟨holder, hh, hsessions⟩ := hr.holders holder' hh'
    obtain ⟨agent, ha, hsame, hrises⟩ := hr.agents agent' ha'
    exact (h.spoken holder hh session (hsessions session hs) agent ha (hsame.trans hid)).trans
      hrises.rank

theorem Raises.of_eq (hholders : t.holders = s.holders) (hagents : t.agents = s.agents) :
    s.Raises t :=
  ⟨fun holder hh => ⟨holder, hholders ▸ hh, fun _ hs => hs⟩,
    fun agent ha => ⟨agent, hagents ▸ ha, rfl, .refl _⟩⟩

theorem setAgentState_raises {state : AgentInstanceState}
    (hget : agentOf s.agents agentId = some agent)
    (hd : Keyed.Distinct AgentInstance.id s.agents) (hrises : Rises agent.state state) :
    s.Raises (s.setAgentState agentId state) := by
  refine ⟨fun holder hh => ⟨holder, hh, fun _ hs => hs⟩, fun agent' ha' => ?_⟩
  rcases Keyed.mem_adjust.mp ha' with ⟨ha, -⟩ | ⟨other, ha, hid, rfl⟩
  · exact ⟨agent', ha, rfl, .refl _⟩
  · have hother := hd.get_of_mem ha
    rw [hid] at hother
    have : other = agent := Option.some.inj (hother.symm.trans hget)
    exact ⟨other, ha, rfl, this ▸ hrises⟩

theorem reportAgent_raises (hd : Keyed.Distinct AgentInstance.id s.agents)
    (h : s.reportAgent now agentId runId report = .ok (t, outcome)) : s.Raises t := by
  obtain ⟨-, agent, hget, -, houtcome, rfl⟩ := reportAgent_eq_ok.mp h
  exact setAgentState_raises hget hd (report_rises houtcome)

theorem Silenced.rises (h : Silenced (inactiveReport evidence) state state') :
    Rises state state' := by
  rcases h with rfl | ⟨hnone, hrank, -, hnone', hmatch⟩
  · exact .refl _
  · obtain ⟨hinactive, hauthority⟩ := inactive_of_matches hmatch
    refine ⟨?_, fun _ => ?_⟩
    · rw [hauthority]
      exact Nat.le_of_not_lt fun hlt => hrank ((rank_inactive _).mp hlt)
    · unfold AgentInstanceState.EndedIffDone
      rw [hnone', hinactive]
      simp

theorem Silences.raises (h : Silences (inactiveReport evidence) s t)
    (hd : Keyed.Distinct AgentInstance.id s.agents) : s.Raises t := by
  refine ⟨fun holder hh => ⟨holder, h.updates.holders ▸ hh, fun _ hs => hs⟩, fun agent' ha' => ?_⟩
  obtain ⟨agent, ha, hstate, he⟩ := h.of_mem hd ha'
  exact ⟨agent, ha, by rw [he], Silenced.rises hstate⟩

theorem Heard.fewer (h : s.Heard) (p : KiroLaunchHolderManifest → Bool) :
    Heard { s with holders := s.holders.filter p } :=
  ⟨h.done, fun holder hh => h.spoken holder (List.mem_of_mem_filter hh)⟩

theorem pruneDeadKiroHolders_silences {released : KiroLaunchHolderManifest → Bool}
    (h : s.pruneDeadKiroHolders table now released = .ok t) :
    ∃ p, Silences exitReport { s with holders := s.holders.filter p } t := by
  simp only [pruneDeadKiroHolders, inactivateReleased_eq, map_eq_ok] at h
  obtain ⟨r, hr, rfl⟩ := h
  have hs := foldlM_silences (g := Released.authority) (fun _ _ _ => inactivateSession_silences) hr
  rw [List.filter_filter] at hs
  exact ⟨_, hs⟩

theorem Heard.prune {released : KiroLaunchHolderManifest → Bool} (h : s.Heard) (hs : s.Sound)
    (hp : s.pruneDeadKiroHolders table now released = .ok t) : t.Heard := by
  obtain ⟨p, hsilences⟩ := pruneDeadKiroHolders_silences hp
  exact (h.fewer p).raises (hsilences.raises hs.agents)

theorem inactivateUnowned_silences (h : s.inactivateUnownedKiroAgents now = .ok t) :
    Silences unavailableReport s t := by
  rw [inactivateUnowned_eq] at h
  refine foldlM_silences (g := id) (fun u agent v hv => ?_) h
  unfold reportUnavailable at hv
  rw [bind_eq_ok] at hv
  obtain ⟨⟨v', outcome⟩, hr, hv⟩ := hv
  cases hv
  exact reportAgent_silences hr

/-- A new agent under a fresh id. -/
theorem Heard.addAgent (h : s.Heard) (hf : s.fresh agent.id = true)
    (hdone : agent.state.EndedIffDone) : Heard { s with agents := s.agents ++ [agent] } := by
  obtain ⟨-, -, hholders⟩ := fresh_iff.mp hf
  refine ⟨fun agent' ha => ?_, fun holder hh session hs agent' ha hid => ?_⟩
  · rcases List.mem_append.mp ha with ha | ha
    · exact h.done agent' ha
    · rwa [List.mem_singleton.mp ha]
  · rcases List.mem_append.mp ha with ha | ha
    · exact h.spoken holder hh session hs agent' ha hid
    · rw [List.mem_singleton.mp ha] at hid
      exact absurd hid.symm ((hholders holder hh).2 session hs)

theorem registerAgent_endedIffDone {id : String} {cwd : Option String} {shellId : String}
    {spec : AgentRegistrationSpec}
    (h : s.registerAgent id now cwd shellId runId spec = .ok (t, agent)) :
    agent.state.EndedIffDone := by
  simp only [registerAgent, bind_eq_ok] at h
  obtain ⟨-, -, -, -, h⟩ := h
  split at h
  next => cases h
  next =>
    split at h
    next => cases h
    next =>
      simp only [bind_eq_ok, Except.ok.injEq, Prod.mk.injEq] at h
      obtain ⟨-, -, -, rfl⟩ := h
      exact AgentInstance.new_endedIffDone ..

theorem Heard.register {id : String} {cwd : Option String} {shellId : String}
    {spec : AgentRegistrationSpec} (h : s.Heard) (hf : s.fresh id = true)
    (hr : s.registerAgent id now cwd shellId runId spec = .ok (t, agent)) : t.Heard := by
  have hdone := registerAgent_endedIffDone hr
  obtain ⟨rfl, rfl, -⟩ := registerAgent_eq_ok hr
  exact h.addAgent hf hdone

theorem Heard.ensure {id : String} {cwd : Option String} {shellId : String}
    {spec : AgentRegistrationSpec} {created : Bool} (h : s.Heard) (hf : s.fresh id = true)
    (he : s.ensureAgent id now cwd shellId runId spec = .ok (t, agent, created)) : t.Heard := by
  simp only [ensureAgent, bind_eq_ok] at he
  obtain ⟨-, -, -, -, he⟩ := he
  split at he
  next => cases he
  next =>
    split at he
    next =>
      simp only [bind_eq_ok, Except.ok.injEq, Prod.mk.injEq] at he
      obtain ⟨⟨t', agent'⟩, hr, rfl, -⟩ := he
      exact h.register hf hr
    next => cases he; exact h
    next => split at he <;> cases he; exact h

/-- After a report of a lifecycle integration nobody with less authority has spoken last. -/
theorem report_rank {report : AgentReport} (hauthority : report.authority = .lifecycleIntegration)
    (h : state.report startedAtMs now report = .ok outcome) :
    3 ≤ agentAuthorityRank outcome.state.observation.authority := by
  have hmatches : observationMatchesReport state.observation report = true →
      3 ≤ agentAuthorityRank state.observation.authority := by
    intro hmatch
    simp only [observationMatchesReport, Bool.and_eq_true, decide_eq_true_eq] at hmatch
    rw [hmatch.1.1.2, hauthority]
    exact le_rfl
  unfold AgentInstanceState.report at h
  split at h
  next =>
    split at h <;> cases h
    next hmatch => exact hmatches hmatch
  next =>
    dsimp only at h
    split at h
    next hsame =>
      cases h
      simp only [Bool.or_eq_true, Bool.and_eq_true, decide_eq_true_eq] at hsame
      rcases hsame with (hmatch | ⟨⟨-, hsame⟩, -⟩) | hrank
      · exact hmatches hmatch
      · rw [hsame, hauthority]
        exact le_rfl
      · rw [hauthority] at hrank
        exact hrank.le
    next =>
      split at h <;> cases h
      rw [hauthority]
      exact le_rfl

/-- The agent of a new session has been reported by the hook. -/
theorem Heard.addSession (h : s.Heard) (hd : Keyed.Distinct AgentInstance.id s.agents)
    (hh : holder ∈ s.holders) (hauthority : report.authority = .lifecycleIntegration)
    {sessionId : String}
    (hr : reportAgent { s with
        holders := Keyed.upsert KiroLaunchHolderManifest.holderId s.holders
          { holder with sessions := Keyed.upsert Prod.fst holder.sessions (sessionId, agentId) } }
      now agentId runId report = .ok (t, outcome)) : t.Heard := by
  obtain ⟨-, agent, hget, -, houtcome, rfl⟩ := reportAgent_eq_ok.mp hr
  have hraises : s.Raises (s.setAgentState agentId outcome.state) :=
    setAgentState_raises hget hd (report_rises houtcome)
  refine ⟨(h.raises hraises).done, fun holder' hh' session hs agent' ha' hid => ?_⟩
  by_cases hreported : agent'.id = agentId
  · have hnow := hd.adjust (f := fun agent => { agent with state := outcome.state })
      (k := agentId) (fun _ _ hid => hid)
    have hget' := hnow.get_of_mem ha'
    have hset := agentOf_setAgentState s agentId outcome.state agentId
    rw [if_pos rfl, show agentOf s.agents agentId = some agent from hget] at hset
    rw [hreported] at hget'
    have : agent' = { agent with state := outcome.state } :=
      Option.some.inj (hget'.symm.trans hset)
    rw [this]
    exact report_rank hauthority houtcome
  · have hold : ∃ old ∈ s.holders, session ∈ old.sessions := by
      rcases Keyed.mem_upsert.mp hh' with rfl | ⟨hold, -⟩
      · rcases Keyed.mem_upsert.mp hs with rfl | ⟨hold, -⟩
        · exact absurd hid hreported
        · exact ⟨holder, hh, hold⟩
      · exact ⟨holder', hold, hs⟩
    obtain ⟨old, hmem, hsession⟩ := hold
    exact (h.raises hraises).spoken old hmem session hsession agent' ha' hid

theorem Heard.reportHook (h : s.Heard) (hs : s.Sound) {cwd : Option String}
    {holderId sessionId : String} {answer : Except DaemonError ReportOutcome}
    (hf : s.fresh agentId = true)
    (hr : s.reportKiroHook table now agentId cwd holderId sessionId report = .ok (t, answer)) :
    t.Heard := by
  simp only [reportKiroHook, bind_eq_ok, require_eq_ok, Bool.and_eq_true, decide_eq_true_eq] at hr
  obtain ⟨-, -, -, -, -, -, -, ⟨hauthority, -⟩, s', hprune, hr⟩ := hr
  have hs' := h.prune hs hprune
  have hsound := hs.pruneDead hprune
  split at hr
  next =>
    cases hr
    exact hs'
  next holder hget =>
    simp only [bind_eq_ok, Except.ok.injEq, Prod.mk.injEq] at hr
    obtain ⟨-, -, -, -, ⟨s'', agent, created⟩, hensure, ⟨t', outcome⟩, hreport, rfl, -⟩ := hr
    have hfresh := fresh_of_pruneDead hf hprune
    obtain ⟨hsound'', hholders, -⟩ := hsound.ensure hfresh hensure
    refine (hs'.ensure hfresh hensure).addSession hsound''.agents ?_ hauthority hreport
    rw [hholders]
    exact Keyed.mem_of_get hget

theorem acknowledge_rises {revision : Nat} {changed : Bool}
    (h : state.acknowledge revision = .ok (state', changed)) : Rises state state' := by
  unfold AgentInstanceState.acknowledge at h
  split at h
  next => cases h; exact .refl _
  next =>
    split at h <;> cases h
    exact ⟨le_rfl, id⟩

theorem observeWorkingContext_rises {context : AgentWorkingContextSnapshot} :
    Rises state (state.observeWorkingContext startedAtMs now context).1 := by
  unfold AgentInstanceState.observeWorkingContext
  dsimp only
  split
  · exact .refl _
  · exact ⟨le_rfl, id⟩

theorem editShell_raises {shellId : String} {edit : Shell → Option Shell}
    (he : s.editShell shellId edit = some t) : s.Raises t := by
  simp only [editShell, Option.bind_eq_bind, Option.bind_eq_some_iff, Option.some.injEq] at he
  obtain ⟨-, -, shell, -, rfl⟩ := he
  exact .of_eq rfl rfl

theorem Heard.step (h : s.Heard) (hs : s.Sound) {a : AuthorityAction} (ha : s.step a = some t) :
    t.Heard := by
  cases a with
  -- Most actions let no agent forget and no holder hear.
  | createShell =>
      simp only [Authority.step, Option.ite_none_right_eq_some, Option.some.injEq] at ha
      obtain ⟨-, rfl⟩ := ha
      exact h.raises (.of_eq rfl rfl)
  | closeShell shellId =>
      cases ha
      exact h.raises (.of_eq rfl rfl)
  | startRun | exitRun | stopFailed | restartShell => exact h.raises (editShell_raises ha)
  | closeWorkspace workspaceId =>
      cases ha
      refine h.raises ⟨fun holder hh => ⟨holder, hh, fun _ hs => hs⟩, fun agent ha => ?_⟩
      exact ⟨agent, List.mem_of_mem_filter ha, rfl, .refl _⟩
  | registerAgent id =>
      simp only [Authority.step, Option.ite_none_right_eq_some, toOption_eq_some, map_eq_ok] at ha
      obtain ⟨hf, ⟨t', agent⟩, hr, rfl⟩ := ha
      exact h.register hf hr
  | ensureAgent id =>
      simp only [Authority.step, Option.ite_none_right_eq_some, toOption_eq_some, map_eq_ok] at ha
      obtain ⟨hf, ⟨t', agent, created⟩, he, rfl⟩ := ha
      exact h.ensure hf he
  | reportAgent =>
      simp only [Authority.step, toOption_eq_some, map_eq_ok] at ha
      obtain ⟨⟨t', outcome⟩, hr, rfl⟩ := ha
      exact h.raises (reportAgent_raises hs.agents hr)
  | acknowledgeAgentAttention agentId =>
      simp only [Authority.step, toOption_eq_some, acknowledgeAgentAttention] at ha
      split at ha
      next => cases ha
      next agent hget =>
        simp only [bind_eq_ok, Except.ok.injEq] at ha
        obtain ⟨⟨state, changed⟩, hack, rfl⟩ := ha
        exact h.raises (setAgentState_raises hget hs.agents (acknowledge_rises hack))
  | observeAgentWorkingContext now agentId =>
      simp only [Authority.step, toOption_eq_some, observeAgentWorkingContext, bind_eq_ok] at ha
      obtain ⟨-, -, ha⟩ := ha
      split at ha
      next => cases ha
      next agent hget =>
        simp only [bind_eq_ok, Except.ok.injEq] at ha
        obtain ⟨-, -, -, -, -, -, -, -, rfl⟩ := ha
        exact h.raises (setAgentState_raises hget hs.agents observeWorkingContext_rises)
  | setBinding agentId shellId runId bridge =>
      simp only [Authority.step, toOption_eq_some] at ha
      cases bridge with
      | none =>
          simp only [setClaudeRemoteControlBinding, bind_eq_ok, Except.ok.injEq] at ha
          obtain ⟨-, -, rfl⟩ := ha
          exact h.raises (.of_eq rfl rfl)
      | some bridge =>
          simp only [setClaudeRemoteControlBinding, bind_eq_ok, Except.ok.injEq] at ha
          obtain ⟨-, -, -, -, -, -, -, -, rfl⟩ := ha
          exact h.raises (.of_eq rfl rfl)
  | getBinding =>
      simp only [Authority.step, toOption_eq_some, getClaudeRemoteControlBinding, bind_eq_ok,
        Except.ok.injEq] at ha
      obtain ⟨-, -, rfl⟩ := ha
      exact h.raises (.of_eq rfl rfl)
  | acquireHolder =>
      simp only [Authority.step, Option.ite_none_right_eq_some, toOption_eq_some,
        acquireKiroLaunchHolder, bind_eq_ok, Except.ok.injEq] at ha
      obtain ⟨-, -, -, -, -, -, -, evidence, -, s', hprune, -, -, -, -, again, -, -, -, rfl⟩ := ha
      have hs' := h.prune hs hprune
      refine ⟨hs'.done, fun holder hh session hsession => ?_⟩
      -- The holder is new and has heard nothing, or it was there.
      rcases Keyed.mem_upsert.mp hh with rfl | ⟨hold, -⟩
      · exact absurd hsession List.not_mem_nil
      · exact hs'.spoken holder hold session hsession
  | reportHook =>
      simp only [Authority.step, Option.ite_none_right_eq_some, toOption_eq_some, map_eq_ok] at ha
      obtain ⟨hf, ⟨t', answer⟩, hr, rfl⟩ := ha
      exact h.reportHook hs hf hr
  | releaseHolder =>
      simp only [Authority.step, toOption_eq_some, releaseKiroLaunchHolder, bind_eq_ok] at ha
      obtain ⟨-, -, ha⟩ := ha
      exact h.prune hs ha
  | reconcile =>
      -- The agents of the dead holders are silenced after these have been removed.
      simp only [Authority.step, toOption_eq_some, reconcileDeadKiroHolders, bind_eq_ok] at ha
      obtain ⟨t', hp, hu⟩ := ha
      exact (h.prune hs hp).raises ((inactivateUnowned_silences hu).raises (hs.pruneDead hp).agents)
  | replace =>
      simp only [Authority.step, toOption_eq_some] at ha
      obtain ⟨-, rfl⟩ := hs.transfer_iff.mp ha
      -- What is transferred is what the old daemon has.
      refine h.raises ⟨fun holder hh => ⟨holder, mem_exportKiro.mp hh, fun _ hs => hs⟩, ?_⟩
      exact fun agent ha => ⟨agent, ha, rfl, .refl _⟩

/-! ## Every order of the maps -/

/-- The same records in another order of the maps. -/
structure Reordered (s s' : Authority) : Prop where
  shells : s'.shells = s.shells
  bindings : s'.bindings.Perm s.bindings
  agents : s'.agents.Perm s.agents
  holders : ∃ order : KiroLaunchHolderManifest → List (String × String),
    (∀ holder, (order holder).Perm holder.sessions) ∧
      s'.holders.Perm (s.holders.map fun holder => { holder with sessions := order holder })

theorem Reordered.refl (s : Authority) : s.Reordered s := by
  refine ⟨rfl, .refl _, .refl _, fun holder => holder.sessions, fun holder => .refl _, ?_⟩
  rw [List.map_id']

/-- The states that calls lead to, with every order that the maps may get in between. -/
inductive Reaches (s₀ : Authority) : Authority → Prop
  | start : Reaches s₀ s₀
  | call {s t : Authority} (h : Reaches s₀ s) (a : AuthorityAction) (hstep : s.step a = some t) :
      Reaches s₀ t
  | reorder {s t : Authority} (h : Reaches s₀ s) (hr : s.Reordered t) : Reaches s₀ t

/-- The holders in the other order. -/
theorem Reordered.mem_holders (h : s.Reordered t) :
    (∀ holder' ∈ t.holders, ∃ holder ∈ s.holders, ∃ sessions : List (String × String),
      sessions.Perm holder.sessions ∧ holder' = { holder with sessions := sessions }) ∧
    ∀ holder ∈ s.holders, ∃ sessions : List (String × String), sessions.Perm holder.sessions ∧
      { holder with sessions := sessions } ∈ t.holders := by
  obtain ⟨order, horder, hperm⟩ := h.holders
  refine ⟨fun holder' hh' => ?_, fun holder hh => ⟨order holder, horder holder, ?_⟩⟩
  · obtain ⟨holder, hh, rfl⟩ := List.mem_map.mp (hperm.mem_iff.mp hh')
    exact ⟨holder, hh, order holder, horder holder, rfl⟩
  · exact hperm.mem_iff.mpr (List.mem_map.mpr ⟨holder, hh, rfl⟩)

theorem Sound.reordered (h : s.Sound) (hr : s.Reordered t) : t.Sound where
  agents := h.agents.perm hr.agents.symm
  ids agent ha := h.ids agent (hr.agents.mem_iff.mp ha)
  holders := by
    obtain ⟨order, -, hperm⟩ := hr.holders
    refine Keyed.Distinct.perm ?_ hperm.symm
    unfold Keyed.Distinct
    rw [List.map_map]
    exact h.holders
  holders_le := by
    obtain ⟨order, -, hperm⟩ := hr.holders
    rw [hperm.length_eq, List.length_map]
    exact h.holders_le
  valid holder' hh' := by
    obtain ⟨holder, hh, sessions, hperm, rfl⟩ := hr.mem_holders.1 holder' hh'
    obtain ⟨hpid, hstart, hid, hshell, hrun, hlen, hsessions, hdistinct⟩ :=
      KiroLaunchHolderManifest.valid_iff.mp (h.valid holder hh)
    refine KiroLaunchHolderManifest.valid_iff.mpr ⟨hpid, hstart, hid, hshell, hrun, ?_, ?_, ?_⟩
    · exact hperm.length_eq ▸ hlen
    · exact fun session hs => hsessions session (hperm.mem_iff.mp hs)
    · exact hdistinct.perm hperm.symm
  held holder' hh' session hs agent ha hid := by
    obtain ⟨holder, hh, sessions, hperm, rfl⟩ := hr.mem_holders.1 holder' hh'
    obtain ⟨hintegration, hsession, hshell, hrun⟩ :=
      h.held holder hh session (hperm.mem_iff.mp hs) agent (hr.agents.mem_iff.mp ha) hid
    exact ⟨hintegration, hsession, hshell, hrun⟩
  bindings := h.bindings.perm hr.bindings.symm
  bindings_le := hr.bindings.length_eq ▸ h.bindings_le
  bridges := h.bridges.perm hr.bindings.symm
  bound binding hb := h.bound binding (hr.bindings.mem_iff.mp hb)

theorem Heard.reordered (h : s.Heard) (hr : s.Reordered t) : t.Heard := by
  refine h.raises ⟨fun holder' hh' => ?_, fun agent ha => ?_⟩
  · obtain ⟨holder, hh, sessions, hperm, rfl⟩ := hr.mem_holders.1 holder' hh'
    exact ⟨holder, hh, fun session hs => hperm.mem_iff.mp hs⟩
  · exact ⟨agent, hr.agents.mem_iff.mp ha, rfl, .refl _⟩

/-- What `restore` accepts: no process holds anything yet, and only agents that are done have
ended. -/
structure Restored (s : Authority) : Prop extends s.Started where
  done : ∀ agent ∈ s.agents, agent.state.EndedIffDone

theorem Restored.reaches {s₀ : Authority} (h₀ : s₀.Restored) (h : Reaches s₀ s) :
    s.Sound ∧ s.Heard := by
  induction h with
  | start =>
      refine ⟨h₀.sound, h₀.done, ?_⟩
      rw [h₀.holders]
      exact fun holder hh => absurd hh List.not_mem_nil
  | call _ a hstep ih => exact ⟨ih.1.step hstep, ih.2.step ih.1 hstep⟩
  | reorder _ hr ih => exact ⟨ih.1.reordered hr, ih.2.reordered hr⟩

/-! ## When dead holders are reconciled -/

theorem KiroHas.iff {sessionId : String} :
    holder.has sessionId = true ↔ ∃ session ∈ holder.sessions, session.1 = sessionId := by
  unfold KiroLaunchHolderManifest.has
  rw [← Bool.not_eq_false, Option.isSome_eq_false_iff, Option.isNone_iff_eq_none, Keyed.get_eq_none]
  simp only [ne_eq, not_forall, not_not, exists_prop]

theorem stillHeld_iff {sessionId : String} : stillHeld remaining holder sessionId = true ↔
    ∃ candidate ∈ remaining, candidate.shellId = holder.shellId ∧ candidate.runId = holder.runId ∧
      ∃ session ∈ candidate.sessions, session.1 = sessionId := by
  simp only [stillHeld, List.any_eq_true, Bool.and_eq_true, decide_eq_true_eq, KiroHas.iff,
    and_assoc]

/-- The order of the maps does not matter for which sessions are held. -/
theorem Reordered.stillHeld (h : s.Reordered t) {sessionId : String} :
    stillHeld (t.live table) holder sessionId = stillHeld (s.live table) holder sessionId := by
  rw [Bool.eq_iff_iff, stillHeld_iff, stillHeld_iff]
  constructor
  · rintro ⟨candidate', hmem, hshell, hrun, session, hs, hid⟩
    obtain ⟨hmem', hlive⟩ := List.mem_filter.mp hmem
    obtain ⟨candidate, hold, sessions, hperm, rfl⟩ := h.mem_holders.1 candidate' hmem'
    exact ⟨candidate, List.mem_filter.mpr ⟨hold, hlive⟩, hshell, hrun, session,
      hperm.mem_iff.mp hs, hid⟩
  · rintro ⟨candidate, hmem, hshell, hrun, session, hs, hid⟩
    obtain ⟨hmem, hlive⟩ := List.mem_filter.mp hmem
    obtain ⟨sessions, hperm, hmem'⟩ := h.mem_holders.2 candidate hmem
    exact ⟨_, List.mem_filter.mpr ⟨hmem', hlive⟩, hshell, hrun, session, hperm.mem_iff.mpr hs, hid⟩

/-- `reconcile_dead_kiro_holders` succeeds, and so does the removal that comes first in an
acquisition and a hook report; exactly the live holders stay, and an agent that has lost its last
holder and has not ended is inactive. -/
structure Reconciles (s : Authority) (table : ProcessTable) (now : Nat) : Prop where
  unblocked : ∃ t, s.pruneDeadKiroHolders table now (fun _ => false) = .ok t
  reconciled : ∃ t, s.reconcileDeadKiroHolders table now = .ok t ∧ t.holders = s.live table ∧
    ∀ holder session, s.Lost table holder session → ∀ agent ∈ s.agents, agent.id = session.2 →
      agent.state.endedAtMs = none →
      ∃ agent' ∈ t.agents, agent'.id = agent.id ∧ agent'.state.observation.state = .inactive

/-- Every agent that has lost its last holder takes the report of it, and every agent that no live
holder has can be reported again. -/
structure Reconcilable (s : Authority) (table : ProcessTable) : Prop where
  lost : ∀ holder session, s.Lost table holder session → ∀ agent ∈ s.agents, agent.id = session.2 →
    TakesExit agent.state
  unowned : ∀ agent ∈ s.agents, unowned { s with holders := s.live table } agent = true →
    agent.state.observation.revision + 1 < 2 ^ 64

theorem Reconcilable.reordered (h : s.Reconcilable table) (hr : s.Reordered t) :
    t.Reconcilable table where
  lost holder' session hlost agent ha hid := by
    obtain ⟨hmem, hdead, hs, hunheld⟩ := hlost
    obtain ⟨holder, hold, sessions, hperm, rfl⟩ := hr.mem_holders.1 holder' hmem
    refine h.lost holder session ⟨hold, hdead, hperm.mem_iff.mp hs, ?_⟩ agent
      (hr.agents.mem_iff.mp ha) hid
    rw [← hr.stillHeld]
    exact hunheld
  unowned agent ha hunowned := by
    refine h.unowned agent (hr.agents.mem_iff.mp ha) (unowned_iff.mpr ?_)
    obtain ⟨hkiro, hnone, hrest⟩ := unowned_iff.mp hunowned
    refine ⟨hkiro, fun holder hh session hs => ?_, hrest⟩
    obtain ⟨hmem, hlive⟩ := List.mem_filter.mp hh
    obtain ⟨sessions, hperm, hmem'⟩ := hr.mem_holders.2 holder hmem
    exact hnone _ (List.mem_filter.mpr ⟨hmem', hlive⟩) session (hperm.mem_iff.mpr hs)

theorem unowned_congr (h : t.holders = s.holders) (agent : AgentInstance) :
    t.unowned agent = s.unowned agent := by
  unfold unowned
  rw [h]

/-- An agent that has lost its last holder is inactive after the first reports, or it is unowned. -/
theorem Heard.lost_inactive (h : s.Heard) (hs : s.Sound) (hlost : s.Lost table holder session)
    (ha : agent ∈ s.agents) (hid : agent.id = session.2) (htakes : TakesExit agent.state)
    (hstate : Silenced exitReport agent.state state)
    (hunowned : ¬ unowned { s with holders := s.live table } { agent with state := state } = true) :
    state.observation.state = .inactive := by
  obtain ⟨hnone, htakes⟩ := htakes
  have hheld := hs.held holder hlost.mem session hlost.held agent ha hid
  rcases hstate with rfl | ⟨-, -, -, -, hmatch⟩
  · by_contra hactive
    refine hunowned (unowned_iff.mpr ⟨hheld.integration, ?_, hnone, ?_, hactive, fun hdone => ?_⟩)
    · intro candidate hmem session' hs' hid'
      -- a live holder that has this agent has its session too
      obtain ⟨hmem', -⟩ := List.mem_filter.mp hmem
      have hother := hs.held candidate hmem' session' hs' agent ha hid'.symm
      have hsession : session'.1 = session.1 :=
        Option.some.inj (hother.session.symm.trans hheld.session)
      have := stillHeld_iff.mpr ⟨candidate, hmem, hother.shell.symm.trans hheld.shell,
        hother.run.symm.trans hheld.run, session', hs', hsession⟩
      rw [hlost.unheld] at this
      cases this
    · have hspoken := h.spoken holder hlost.mem session hlost.held agent ha hid
      rcases htakes with hmatch | htakes
      · exact absurd (inactive_of_matches hmatch).1 hactive
      · cases hauthority : agent.state.observation.authority with
        | lifecycleIntegration => rfl
        | daemonLifecycle =>
            rw [if_pos hauthority] at htakes
            exact absurd htakes hactive
        | processAdapter | terminalHeuristic =>
            rw [hauthority] at hspoken
            exact absurd hspoken (by decide)
    · have := (h.done agent ha).mpr hdone
      rw [hnone] at this
      cases this
  · exact (inactive_of_matches hmatch).1

theorem Reconcilable.reconciles (h : s.Reconcilable table) (hs : s.Sound) (hh : s.Heard)
    (now : Nat) : s.Reconciles table now := by
  obtain ⟨t₁, hprune⟩ := hs.pruneDead_isOk h.lost now
  have hsilences := pruneDead_spec hprune
  have hsound := hs.pruneDead hprune
  have hcongr := unowned_congr (s := { s with holders := s.live table }) hsilences.updates.holders
  have hget : ∀ agent ∈ t₁.agents.filter t₁.unowned, agentOf t₁.agents agent.id = some agent :=
    fun agent ha => hsound.agents.get_of_mem (List.mem_of_mem_filter ha)
  have hok : ∀ agent ∈ t₁.agents.filter t₁.unowned, ∃ outcome,
      agent.state.report agent.startedAtMs now unavailableReport = .ok outcome := by
    intro agent' ha'
    obtain ⟨hmem, hunowned⟩ := List.mem_filter.mp ha'
    refine (unowned_report hunowned now).mpr ?_
    obtain ⟨agent, ha, hstate, he⟩ := hsilences.of_mem hs.agents hmem
    rcases hstate with hsame | ⟨-, -, -, -, hmatch⟩
    · rw [hsame] at he ⊢
      rw [he, hcongr] at hunowned
      exact h.unowned agent ha hunowned
    · exact absurd (inactive_of_matches hmatch).1 (unowned_iff.mp hunowned).2.2.2.2.1
  obtain ⟨t, hloop⟩ := unowned_loop_isOk (hsound.agents.filter t₁.unowned) hget hok
  obtain ⟨hreported, hother⟩ := unowned_loop (hsound.agents.filter t₁.unowned) hget hloop
  refine ⟨⟨t₁, hprune⟩, t, bind_eq_ok.mpr ⟨t₁, hprune, hloop⟩, ?_, ?_⟩
  · exact (inactivateUnowned_updates hloop).holders.trans hsilences.updates.holders
  · intro holder session hlost agent ha hid hnone
    obtain ⟨state, hstate, hget₁⟩ := hsilences.agent agent.id agent (hs.agents.get_of_mem ha)
    by_cases hunowned : t₁.unowned { agent with state := state } = true
    · obtain ⟨outcome, houtcome, hgot⟩ := hreported _
        (List.mem_filter.mpr ⟨Keyed.mem_of_get hget₁, hunowned⟩)
      exact ⟨_, Keyed.mem_of_get hgot, rfl, unowned_reported hunowned houtcome⟩
    · have hgot : agentOf t.agents agent.id = some { agent with state := state } := by
        rw [hother agent.id fun other ho hsame => ?_, hget₁]
        obtain ⟨hmem, hu⟩ := List.mem_filter.mp ho
        have hself := hsound.agents.get_of_mem hmem
        rw [hsame] at hself
        exact hunowned (Option.some.inj (hself.symm.trans hget₁) ▸ hu)
      refine ⟨_, Keyed.mem_of_get hgot, rfl, ?_⟩
      rw [hcongr] at hunowned
      exact hh.lost_inactive hs hlost ha hid (h.lost holder session hlost agent ha hid) hstate
        hunowned

/-- The maps may have any holder first, and any of its sessions first. -/
theorem exists_reordered (hh : holder ∈ s.holders) (hsession : session ∈ holder.sessions) :
    ∃ (sessions : List (String × String)) (rest : List KiroLaunchHolderManifest),
      s.Reordered { s with holders := { holder with sessions := session :: sessions } ::
        rest } := by
  classical
  obtain ⟨before, after, hholders⟩ := List.append_of_mem hh
  obtain ⟨before', after', hsessions⟩ := List.append_of_mem hsession
  let order : KiroLaunchHolderManifest → List (String × String) := fun other =>
    if other = holder then session :: (before' ++ after') else other.sessions
  have hfirst : order holder = session :: (before' ++ after') := if_pos rfl
  refine ⟨before' ++ after', (before ++ after).map fun other =>
    { other with sessions := order other },
    rfl, .refl _, .refl _, order, fun other => ?_, ?_⟩
  · by_cases hother : other = holder
    · rw [hother, hfirst, hsessions]
      exact List.perm_middle.symm
    · rw [show order other = other.sessions from if_neg hother]
  · rw [hholders, ← hfirst]
    exact List.Perm.map (fun other : KiroLaunchHolderManifest =>
      { other with sessions := order other }) List.perm_middle.symm

/-- A first session that is lost makes the removal of dead holders report its agent. -/
theorem report_of_pruneDead {sessions : List (String × String)}
    {rest : List KiroLaunchHolderManifest}
    (hp : pruneDeadKiroHolders { s with
      holders := { holder with sessions := session :: sessions } :: rest } table now
        (fun _ => false) = .ok t)
    (hdead : kiroHolderIsLive table holder = false)
    (hunheld : stillHeld (live { s with
      holders := { holder with sessions := session :: sessions } :: rest } table) holder
        session.1 = false)
    (hget : agentOf s.agents session.2 = some agent) :
    ∃ outcome, agent.state.report agent.startedAtMs now exitReport = .ok outcome := by
  rw [pruneDead_eq, inactivateReleased_eq, map_eq_ok] at hp
  obtain ⟨r, hr, -⟩ := hp
  have hfirst : kiroHolderIsLive table { holder with sessions := session :: sessions } = false :=
    hdead
  rw [List.filter_cons, hfirst, Bool.not_false, if_pos rfl, sessionsOf, List.flatMap_cons,
    List.map_cons, List.cons_append, List.foldlM_cons, bind_eq_ok] at hr
  obtain ⟨r₁, hr₁, -⟩ := hr
  exact ((inactivateSession_reports (List.not_mem_nil) hunheld hget).mp ⟨r₁, hr₁⟩).2

theorem Heard.reconcilable (hh : s.Heard) (hs : s.Sound)
    (h : ∀ t, s.Reordered t → t.Reconciles table now) : s.Reconcilable table where
  lost holder session hlost agent ha hid := by
    obtain ⟨sessions, rest, hr⟩ := exists_reordered hlost.mem hlost.held
    have hget : agentOf s.agents session.2 = some agent := hid ▸ hs.agents.get_of_mem ha
    have hunheld : stillHeld (live _ table) holder session.1 = false :=
      hr.stillHeld.trans hlost.unheld
    obtain ⟨⟨t₁, hprune⟩, t, hrec, -, hinactive⟩ := h _ hr
    obtain ⟨outcome, houtcome⟩ := report_of_pruneDead hprune hlost.dead hunheld hget
    rcases report_inactive_eq_ok houtcome with ⟨-, hmatch | ⟨hnone, hdaemon⟩⟩ | ⟨hnone, hrank,
      hroom, -⟩
    · refine ⟨?_, .inl hmatch⟩
      rw [← Option.not_isSome_iff_eq_none]
      intro hended
      have := (hh.done agent ha).mp hended
      rw [(inactive_of_matches hmatch).1] at this
      cases this
    · refine ⟨hnone, .inr ?_⟩
      rw [if_pos hdaemon]
      obtain ⟨agent', ha', hid', hstate'⟩ := hinactive _ session
        ⟨List.mem_cons_self, hlost.dead, List.mem_cons_self, hunheld⟩ agent ha hid hnone
      obtain ⟨t₁, hprune, hun⟩ := bind_eq_ok.mp hrec
      have hsound' := (hs.reordered hr).pruneDead hprune
      -- both reports are outranked
      obtain ⟨agent₁, ha₁, hstate₁, he₁⟩ :=
        (inactivateUnowned_silences hun).of_mem hsound'.agents ha'
      obtain ⟨agent₀, ha₀, hstate₀, he₀⟩ := (pruneDead_spec hprune).of_mem hs.agents ha₁
      have hsame : agent₀ = agent := by
        refine List.inj_on_of_nodup_map hs.agents ha₀ ha ?_
        rw [← hid', he₁, he₀]
      rw [hsame] at hstate₀
      rcases hstate₀ with hstate₀ | ⟨-, hrank, -⟩
      · rw [hstate₀] at hstate₁
        rcases hstate₁ with hstate₁ | ⟨-, hrank, -⟩
        · rwa [hstate₁] at hstate'
        · exact absurd hdaemon hrank
      · exact absurd hdaemon hrank
    · exact ⟨hnone, .inr (by rwa [if_neg hrank])⟩
  unowned agent ha hunowned := by
    obtain ⟨-, t, hrec, -⟩ := h s (.refl s)
    obtain ⟨t₁, hprune, hun⟩ := bind_eq_ok.mp hrec
    have hsilences := pruneDead_spec hprune
    have hsound := hs.pruneDead hprune
    obtain ⟨state, hstate, hget⟩ := hsilences.agent agent.id agent (hs.agents.get_of_mem ha)
    rcases hstate with rfl | ⟨-, -, hroom, -⟩
    · rw [← unowned_congr hsilences.updates.holders] at hunowned
      obtain ⟨hreported, -⟩ := unowned_loop (hsound.agents.filter t₁.unowned)
        (fun other ho => hsound.agents.get_of_mem (List.mem_of_mem_filter ho)) hun
      obtain ⟨outcome, houtcome, -⟩ := hreported agent
        (List.mem_filter.mpr ⟨Keyed.mem_of_get hget, hunowned⟩)
      exact (unowned_report hunowned now).mp ⟨outcome, houtcome⟩
    · exact hroom

/-- After any calls, in any order of the maps: the dead holders are reconciled, and block nothing,
if and only if no agent that lost its last holder has ended, and the reports fit the revisions. -/
theorem reconciles_iff {s₀ : Authority} (h₀ : s₀.Restored) (h : Reaches s₀ s)
    (table : ProcessTable) (now : Nat) :
    (∀ t, s.Reordered t → t.Reconciles table now) ↔ s.Reconcilable table := by
  obtain ⟨hs, hh⟩ := h₀.reaches h
  constructor
  · exact fun hall => hh.reconcilable hs hall
  · intro hcond t hr
    exact (hcond.reordered hr).reconciles (hs.reordered hr) (hh.reordered hr) now

/-! ## A launcher that dies -/

theorem noShells_restored : noShells.Restored :=
  ⟨noShells_started, fun _ ha => absurd ha List.not_mem_nil⟩

theorem reaches_of_exec {s₀ : Authority} {actions : List AuthorityAction}
    (h : exec step s₀ actions = some s) : Reaches s₀ s := by
  induction actions using List.reverseRecOn generalizing s with
  | nil =>
      cases h
      exact .start
  | append_singleton actions a ih =>
      rw [exec_append] at h
      obtain ⟨u, hu, ha⟩ := Option.bind_eq_some_iff.mp h
      obtain ⟨v, hv, hs⟩ := Option.bind_eq_some_iff.mp ha
      cases hs
      exact (ih hu).call a hv

/-- A launcher with a working session dies. -/
theorem reconciles_iff_launchRun : ∃ s, Reaches noShells s ∧ s.holders ≠ [] ∧
    ((∀ t, s.Reordered t → t.Reconciles (fun _ => none) 20) ↔ s.Reconcilable fun _ => none) := by
  have hrun : (exec step noShells launchRun).any (fun s => !s.holders.isEmpty) = true := by
    decide +kernel
  obtain ⟨s, hs, hok⟩ := (Option.any_eq_true _ _).mp hrun
  rw [Bool.not_eq_true', List.isEmpty_eq_false_iff] at hok
  have hreach := reaches_of_exec hs
  exact ⟨s, hreach, hok, reconciles_iff noShells_restored hreach (fun _ => none) 20⟩

end Authority

end Boomux.Handoff
