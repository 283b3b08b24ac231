import Boomux.Daemon.Agent

/-!
# Agents that are stored

`validate_persisted_agent`, the check on every agent that a start reads from the state file, and
what passing it means (`Storable`). A stored agent has the fields of an `AgentInstance`.
-/

set_option autoImplicit false

namespace Boomux.Daemon

open Rust

/-! ## The check -/

/-- `validate_persisted_name`. -/
def validatePersistedName (name : String) : Except IoError Unit :=
  require (!isBlank name) ⟨.invalidData, "persisted name cannot be empty"⟩

/-- `validate_persisted_cwd`. -/
def validatePersistedCwd (cwd : String) : Except IoError Unit :=
  require (isAbsolute cwd)
    ⟨.invalidData, "persisted working directory must be absolute: " ++ cwd⟩

/-- An error of a check on client input, as one about stored data. -/
def asInvalidData {α : Type} (result : Except IoError α) : Except IoError α :=
  result.mapError fun error => ⟨.invalidData, error.message⟩

/-- The report that an observation was made from. -/
def AgentObservationSnapshot.report (o : AgentObservationSnapshot) : AgentReport :=
  ⟨o.state, o.authority, o.evidence, o.confidence⟩

/-- The registration that the agent would be now. -/
def AgentInstance.spec (agent : AgentInstance) : AgentRegistrationSpec :=
  ⟨agent.name, agent.integration, agent.externalSessionId, agent.state.observation.report⟩

/-- What the loop over the working contexts keeps: the roots it has seen, and the time of the
last one. -/
structure ContextsSeen where
  roots : List (Bool × List (List Char))
  previousObservedAtMs : Nat

/-- One turn of the loop over the working contexts. -/
def checkWorkingContext (startedAtMs : Nat) (seen : ContextsSeen)
    (context : AgentWorkingContextSnapshot) : Except IoError ContextsSeen := do
  asInvalidData (validateWorkingContext context)
  require (decide (startedAtMs ≤ context.observedAtMs) &&
      decide (context.observedAtMs ≤ seen.previousObservedAtMs) &&
      !seen.roots.contains (pathComponents context.worktreeRoot))
    ⟨.invalidData, "Boomux state contains invalid Agent working contexts"⟩
  .ok ⟨pathComponents context.worktreeRoot :: seen.roots, context.observedAtMs⟩

/-- The reason that attention to the observation must have. -/
def expectedReason : AgentState → Option AgentAttentionReason
  | .blocked => some .blocked
  | .done => some .completed
  | _ => none

def checkAttention (agent : AgentInstance) (attention : AgentAttentionSnapshot) :
    Except IoError Unit := do
  let current := agent.state.observation
  let observation := attention.observation
  asInvalidData (validateAgentReport observation.report)
  match expectedReason observation.state with
  | none => .error ⟨.invalidData,
      "Boomux state contains attention for a non-attention agent state"⟩
  | some reason =>
      require (attention.reason == reason && observation.revision != 0 &&
          decide (observation.revision ≤ current.revision) &&
          decide (agent.startedAtMs ≤ observation.observedAtMs) &&
          decide (observation.observedAtMs ≤ current.observedAtMs) &&
          (observation.revision != current.revision || observation == current) &&
          (attention.reason != .completed || observation == current))
        ⟨.invalidData, "Boomux state contains invalid agent attention"⟩

def validatePersistedAgent (agent : AgentInstance) : Except IoError Unit := do
  validatePersistedName agent.name
  asInvalidData (validateAgentRegistration agent.spec)
  agent.cwd.elim (.ok ()) validatePersistedCwd
  require (decide (agent.state.workingContexts.length ≤ maxAgentWorkingContexts))
    ⟨.invalidData, "Boomux state contains too many Agent working contexts"⟩
  let _ ← agent.state.workingContexts.foldlM (checkWorkingContext agent.startedAtMs) ⟨[], u64Max⟩
  require (agent.state.observation.revision != 0 &&
      decide (agent.startedAtMs ≤ agent.state.observation.observedAtMs) &&
      agent.state.endedAtMs.all (agent.startedAtMs ≤ ·) &&
      (decide (agent.state.observation.state = .done) == agent.state.endedAtMs.isSome))
    ⟨.invalidData, "Boomux state contains an invalid agent observation"⟩
  agent.state.attention.elim (.ok ()) (checkAttention agent)

/-! ## What it means -/

/-- Attention that fits the agent's observation. -/
structure Attends (agent : AgentInstance) (attention : AgentAttentionSnapshot) : Prop where
  report : validateAgentReport attention.observation.report = .ok ()
  of_observation : attentionForObservation attention.observation = some attention
  revision_pos : 0 < attention.observation.revision
  revision_le : attention.observation.revision ≤ agent.state.observation.revision
  started_le : agent.startedAtMs ≤ attention.observation.observedAtMs
  observed_le : attention.observation.observedAtMs ≤ agent.state.observation.observedAtMs
  latest : attention.observation.revision = agent.state.observation.revision →
    attention.observation = agent.state.observation
  completed : attention.reason = .completed → attention.observation = agent.state.observation

/-- Working contexts with distinct roots, newest first, and not too many. -/
structure Ranked (startedAtMs : Nat) (contexts : List AgentWorkingContextSnapshot) : Prop where
  checked : ∀ context ∈ contexts, validateWorkingContext context = .ok ()
  started_le : ∀ context ∈ contexts, startedAtMs ≤ context.observedAtMs
  clock : ∀ context ∈ contexts, context.observedAtMs ≤ u64Max
  newest_first : contexts.Pairwise fun a b => b.observedAtMs ≤ a.observedAtMs
  roots : (contexts.map fun context => pathComponents context.worktreeRoot).Nodup
  length_le : contexts.length ≤ maxAgentWorkingContexts

/-- What `validate_persisted_agent` demands of an agent. -/
structure Storable (agent : AgentInstance) : Prop where
  registration : validateAgentRegistration agent.spec = .ok ()
  cwd : ∀ cwd ∈ agent.cwd, isAbsolute cwd = true
  contexts : Ranked agent.startedAtMs agent.state.workingContexts
  revision_pos : 0 < agent.state.observation.revision
  started_le : agent.startedAtMs ≤ agent.state.observation.observedAtMs
  ended : ∀ endedAtMs ∈ agent.state.endedAtMs, agent.startedAtMs ≤ endedAtMs
  ended_iff_done : agent.state.EndedIffDone
  attention : ∀ attention ∈ agent.state.attention, Attends agent attention

theorem asInvalidData_eq_ok {α : Type} {result : Except IoError α} {a : α} :
    asInvalidData result = .ok a ↔ result = .ok a := mapError_eq_ok

theorem validateName_of_registration {spec : AgentRegistrationSpec}
    (h : validateAgentRegistration spec = .ok ()) : validateName spec.name = .ok () := by
  unfold validateAgentRegistration at h
  obtain ⟨_, hname, -⟩ := bind_eq_ok.mp h
  exact hname

theorem isBlank_of_validateName {name : String} (h : validateName name = .ok ()) :
    isBlank name = false := by
  unfold validateName at h
  split at h
  next => cases h
  next hnot =>
    simp only [Bool.or_eq_true, not_or, Bool.not_eq_true] at hnot
    exact hnot.1.1

theorem foldlM_checkWorkingContext {startedAtMs : Nat} (seen : ContextsSeen)
    {contexts : List AgentWorkingContextSnapshot}
    (hchecked : ∀ context ∈ contexts, validateWorkingContext context = .ok ())
    (hstarted : ∀ context ∈ contexts, startedAtMs ≤ context.observedAtMs)
    (hclock : ∀ context ∈ contexts, context.observedAtMs ≤ seen.previousObservedAtMs)
    (hnewest : contexts.Pairwise fun a b => b.observedAtMs ≤ a.observedAtMs)
    (hroots : (contexts.map fun context => pathComponents context.worktreeRoot).Nodup)
    (hseen : ∀ context ∈ contexts, pathComponents context.worktreeRoot ∉ seen.roots) :
    ∃ seen', contexts.foldlM (checkWorkingContext startedAtMs) seen = .ok seen' := by
  induction contexts generalizing seen with
  | nil => exact ⟨seen, rfl⟩
  | cons context contexts ih =>
      obtain ⟨hle, hnewest⟩ := List.pairwise_cons.mp hnewest
      obtain ⟨hnot, hroots⟩ := List.nodup_cons.mp hroots
      have hstep : checkWorkingContext startedAtMs seen context =
          .ok ⟨pathComponents context.worktreeRoot :: seen.roots, context.observedAtMs⟩ := by
        unfold checkWorkingContext
        refine bind_eq_ok.mpr ⟨(), asInvalidData_eq_ok.mpr (hchecked _ List.mem_cons_self), ?_⟩
        refine require_bind_eq_ok.mpr ⟨?_, rfl⟩
        simp [hstarted _ List.mem_cons_self, hclock _ List.mem_cons_self,
          hseen _ List.mem_cons_self]
      rw [List.foldlM_cons, hstep]
      refine ih _ (fun c hc => hchecked c (List.mem_cons_of_mem _ hc))
        (fun c hc => hstarted c (List.mem_cons_of_mem _ hc)) hle hnewest hroots fun c hc hmem => ?_
      rcases List.mem_cons.mp hmem with he | hmem
      · exact hnot (List.mem_map.mpr ⟨c, hc, he⟩)
      · exact hseen c (List.mem_cons_of_mem _ hc) hmem

theorem checkAttention_of_attends {agent : AgentInstance} {attention : AgentAttentionSnapshot}
    (h : Attends agent attention) : checkAttention agent attention = .ok () := by
  have hreason : expectedReason attention.observation.state = some attention.reason := by
    have hof := h.of_observation
    unfold attentionForObservation at hof
    split at hof
    next hstate =>
      rw [hstate, ← Option.some.inj hof]
      rfl
    next hstate =>
      rw [hstate, ← Option.some.inj hof]
      rfl
    next => cases hof
  unfold checkAttention
  refine bind_eq_ok.mpr ⟨(), asInvalidData_eq_ok.mpr h.report, ?_⟩
  rw [hreason, require_eq_ok]
  have hpos := h.revision_pos
  have hlatest : attention.observation.revision ≠ agent.state.observation.revision ∨
      attention.observation = agent.state.observation :=
    (ne_or_eq _ _).imp_right h.latest
  have hcompleted : attention.reason ≠ .completed ∨
      attention.observation = agent.state.observation :=
    (ne_or_eq _ _).imp_right h.completed
  simp only [Bool.and_eq_true, Bool.or_eq_true, bne_iff_ne, beq_iff_eq, decide_eq_true_eq]
  exact ⟨⟨⟨⟨⟨⟨trivial, by omega⟩, h.revision_le⟩, h.started_le⟩, h.observed_le⟩, hlatest⟩,
    hcompleted⟩

/-- An agent with these properties is accepted by the next start. -/
theorem Storable.validatePersistedAgent {agent : AgentInstance} (h : Storable agent) :
    validatePersistedAgent agent = .ok () := by
  obtain ⟨seen, hseen⟩ := foldlM_checkWorkingContext ⟨[], u64Max⟩ h.contexts.checked
    h.contexts.started_le h.contexts.clock h.contexts.newest_first h.contexts.roots
    fun _ _ => List.not_mem_nil
  have hname : isBlank agent.name = false :=
    isBlank_of_validateName (validateName_of_registration h.registration)
  unfold Daemon.validatePersistedAgent
  refine bind_eq_ok.mpr ⟨(), require_eq_ok.mpr ?_, ?_⟩
  · rw [hname]
    rfl
  refine bind_eq_ok.mpr ⟨(), asInvalidData_eq_ok.mpr h.registration, ?_⟩
  refine bind_eq_ok.mpr ⟨(), ?_, ?_⟩
  · cases hcwd : agent.cwd with
    | none => rfl
    | some cwd => exact require_eq_ok.mpr (h.cwd cwd hcwd)
  refine require_bind_eq_ok.mpr ⟨decide_eq_true h.contexts.length_le, ?_⟩
  refine bind_eq_ok.mpr ⟨seen, hseen, ?_⟩
  refine require_bind_eq_ok.mpr ⟨?_, ?_⟩
  · have hpos := h.revision_pos
    have hdone : decide (agent.state.observation.state = .done) = agent.state.endedAtMs.isSome := by
      rw [Bool.eq_iff_iff, decide_eq_true_iff]
      exact h.ended_iff_done.symm
    have hended : agent.state.endedAtMs.all (agent.startedAtMs ≤ ·) = true := by
      cases he : agent.state.endedAtMs with
      | none => rfl
      | some endedAtMs => simpa using h.ended endedAtMs he
    have hne : agent.state.observation.revision ≠ 0 := by omega
    simp [hne, h.started_le, hended, hdone]
  · cases hattention : agent.state.attention with
    | none => rfl
    | some attention => exact checkAttention_of_attends (h.attention attention hattention)

end Boomux.Daemon
