import Boomux.Basic.HashMap
import Boomux.Basic.Select
import Boomux.Workspaces.Snapshot
import Mathlib.Data.List.Lex
import Mathlib.Data.String.Basic
import Mathlib.Order.OrderDual

/-!
# Conversations

The conversations of a Workspace are the sessions of its agents, one entry for each harness and
session. Opening one shows the Shell in which it runs or is about to run, and resumes it in a new
Shell only when there is none.
-/

set_option autoImplicit false

namespace Boomux.Workspaces

open Rust Select

/-! ## Listing -/

structure Conversation where
  agentId : String
  integration : String
  externalSessionId : String
  title : String
  updatedAtMs : Nat
  runningShell : Option String
  resumable : Bool
  deriving DecidableEq

/-- The `HashMap` of the Shells by id. -/
def WorkspaceSnapshot.shellsById (w : WorkspaceSnapshot) : HashMap String ShellSnapshot :=
  HashMap.insertAll ∅ (w.shells.map fun shell => (shell.id, shell))

/-- `running_shell`. -/
def runningShell (shells : HashMap String ShellSnapshot) (agent : AgentInstanceSnapshot) :
    Option ShellSnapshot :=
  if agent.observation.state = .inactive ∨ agent.observation.state = .done then none
  else
    (shells.lookup agent.shellId).filter fun shell =>
      shell.status = .running && shell.run.any (·.id = agent.runId)

namespace WorkspaceSnapshot

variable (w : WorkspaceSnapshot)

/-- The runs whose session an agent has reported. -/
def claimedRuns : List (String × String) :=
  (w.agents.filter fun agent => agent.workspaceId = w.id && agent.externalSessionId.isSome).map
    fun agent => (agent.shellId, agent.runId)

/-- A Shell whose run has not reported a session. -/
def startsUnreported (shell : ShellSnapshot) : Bool :=
  shell.workspaceId = w.id && shell.status = .running &&
    shell.run.any fun run => !w.claimedRuns.contains (shell.id, run.id)

/-- `resumes`: for each command the Shell of the least id; the map is read by its keys only. -/
def resumes : BTreeMap (List String) ShellSnapshot :=
  best ShellSnapshot.command (fun shell => OrderDual.toDual shell.id)
    (w.shells.filter w.startsUnreported)

/-- The session of an agent of the Workspace, if its id is valid. -/
def validSession (agent : AgentInstanceSnapshot) : Option String :=
  if agent.workspaceId = w.id then
    agent.externalSessionId.filter fun id => (validateExternalSessionId id).isOk
  else none

/-- The `entry` of an agent. -/
def entryOf (agent : AgentInstanceSnapshot) : Option Conversation :=
  (w.validSession agent).map fun session =>
    { agentId := agent.id
      integration := agent.integration
      externalSessionId := session
      title := agent.name
      updatedAtMs := max agent.observation.observedAtMs agent.startedAtMs
      runningShell := (runningShell w.shellsById agent).map (·.id)
      resumable := (byKey agent.integration).any (·.resume.isSome) }

end WorkspaceSnapshot

namespace Conversation

/-- The `key` of an entry: its harness and its session. -/
def key (entry : Conversation) : String ×ₗ String :=
  toLex (entry.integration, entry.externalSessionId)

/-- Which of two entries replaces the other: the running one, then the newer one. -/
def rank (entry : Conversation) : Bool ×ₗ Nat ×ₗ String :=
  toLex (entry.runningShell.isSome, toLex (entry.updatedAtMs, entry.agentId))

/-- Newer entries come first. -/
def listed (entry : Conversation) : Natᵒᵈ ×ₗ String :=
  toLex (OrderDual.toDual entry.updatedAtMs, entry.agentId)

/-- The command that resumes an entry's session. -/
def resumeCommand (entry : Conversation) : Option (List String) :=
  ((byKey entry.integration).bind (·.resume)).bind (·.command [] entry.externalSessionId)

/-- An entry that does not run takes the Shell that was started with its resume command. -/
def withResume (resumes : BTreeMap (List String) ShellSnapshot) (entry : Conversation) :
    Conversation :=
  if entry.runningShell.isNone then
    match entry.resumeCommand.bind resumes.lookup with
    | some shell => { entry with runningShell := some shell.id }
    | none => entry
  else entry

end Conversation

/-- `list`. -/
def list (w : WorkspaceSnapshot) : List Conversation :=
  sortBy Conversation.listed
    ((best Conversation.key Conversation.rank (w.agents.filterMap w.entryOf)).values.map
      (Conversation.withResume w.resumes))

/-! ## Opening -/

structure ShellSpec where
  name : String
  command : List String
  cwd : String
  deriving DecidableEq

inductive OpenPlan
  | existing (shell : ShellSnapshot)
  | resume (spec : ShellSpec)
  deriving DecidableEq

/-- How `plan` ends without a result. -/
inductive PlanError
  | message (text : String)
  | panic
  deriving DecidableEq

/-- `ok_or`. -/
def orMessage {α : Type} (x : Option α) (text : String) : Except PlanError α :=
  x.elim (.error (.message text)) .ok

/-- `unwrap`. -/
def unwrap {α : Type} (x : Option α) : Except PlanError α := x.elim (.error .panic) .ok

namespace WorkspaceSnapshot

variable (w : WorkspaceSnapshot)

/-- The agent of the Workspace with an id. -/
def agent? (agentId : String) : Option AgentInstanceSnapshot :=
  w.agents.find? fun agent => agent.id = agentId && agent.workspaceId = w.id

/-- A Shell that is there for the call, has not started, or has not reported a session. -/
def inFlight (shellId : String) (shell : ShellSnapshot) : Bool :=
  shell.id = shellId || shell.status = .pending ||
    (shell.status = .running && !w.agents.any fun agent =>
      agent.shellId = shell.id && agent.externalSessionId.isSome &&
        shell.run.any (·.id = agent.runId))

end WorkspaceSnapshot

/-- `plan` from the entry on; `randomExcluding` draws a name that is not in use. -/
def openEntry (randomExcluding : List String → Option String) (w : WorkspaceSnapshot)
    (integration session shellId : String) (entry : Conversation) : Except PlanError OpenPlan :=
  match entry.runningShell with
  | some id => do
      let shell ← unwrap (w.shells.find? (·.id = id))
      .ok (.existing shell)
  | none => do
      let newest ← unwrap (w.agents.find? (·.id = entry.agentId))
      let resume ← orMessage ((byKey integration).bind (·.resume))
        "This harness does not support exact conversation resume"
      let command ← orMessage (resume.command [] session) "This conversation cannot be resumed"
      match w.shells.find? fun shell => shell.command = command && w.inFlight shellId shell with
      | some shell => .ok (.existing shell)
      | none => do
          let cwd ← orMessage (newest.cwd.or w.defaultCwd)
            "Conversation has no saved working directory"
          let name ← orMessage (randomExcluding (w.shells.map (·.name))) "Shell names exhausted"
          .ok (.resume { name := name, command := command, cwd := cwd })

/-- `plan`. -/
def plan (randomExcluding : List String → Option String) (w : WorkspaceSnapshot)
    (agentId shellId : String) : Except PlanError OpenPlan := do
  let agent ← orMessage (w.agent? agentId) "Conversation no longer belongs to this Workspace"
  let session ← orMessage agent.externalSessionId "Conversation has no exact harness session ID"
  (validateExternalSessionId session).mapError .message
  require (session.toList.head? != some '-')
    (PlanError.message "Conversation ID cannot be passed as a harness option")
  let entry ← orMessage ((list w).find? fun entry =>
      entry.integration = agent.integration && entry.externalSessionId = session)
    "Conversation is unavailable"
  openEntry randomExcluding w agent.integration session shellId entry

/-! ## The entries -/

section Entries

variable {w w' : WorkspaceSnapshot} {agent : AgentInstanceSnapshot} {entry : Conversation}
    {id : String}

theorem withResume_key (resumes : BTreeMap (List String) ShellSnapshot) (entry : Conversation) :
    (entry.withResume resumes).key = entry.key ∧ (entry.withResume resumes).agentId = entry.agentId
      ∧ (entry.withResume resumes).updatedAtMs = entry.updatedAtMs := by
  unfold Conversation.withResume
  split
  · split <;> exact ⟨rfl, rfl, rfl⟩
  · exact ⟨rfl, rfl, rfl⟩

theorem validSession_eq_some {session : String} : w.validSession agent = some session ↔
    agent.workspaceId = w.id ∧ agent.externalSessionId = some session
      ∧ validateExternalSessionId session = .ok () := by
  unfold WorkspaceSnapshot.validSession
  have hok : (validateExternalSessionId session).isOk = true ↔
      validateExternalSessionId session = .ok () := by
    cases validateExternalSessionId session <;> simp [Except.isOk, Except.toBool]
  split
  next h => simp [h, Option.filter_eq_some_iff, hok]
  next h => simp [h]

theorem entryOf_eq_some : w.entryOf agent = some entry →
    entry.agentId = agent.id ∧ entry.integration = agent.integration
      ∧ w.validSession agent = some entry.externalSessionId
      ∧ entry.runningShell = (runningShell w.shellsById agent).map (·.id) := by
  unfold WorkspaceSnapshot.entryOf
  rw [Option.map_eq_some_iff]
  rintro ⟨session, hsession, rfl⟩
  exact ⟨rfl, rfl, hsession, rfl⟩

/-- An entry is that of an agent, perhaps with the Shell that resumes it. -/
theorem mem_list (h : entry ∈ list w) : ∃ agent ∈ w.agents, ∃ best, w.entryOf agent = some best
    ∧ entry = best.withResume w.resumes := by
  obtain ⟨chosen, hchosen, rfl⟩ := List.mem_map.mp (mem_sortBy.mp h)
  obtain ⟨k, hk⟩ := BTreeMap.mem_values.mp hchosen
  obtain ⟨hspec, -⟩ := best_spec Conversation.key Conversation.rank (w.agents.filterMap w.entryOf) k
  obtain ⟨hmem, -⟩ := hspec chosen (BTreeMap.lookup_eq_some.mpr hk)
  obtain ⟨agent, hagent, hentry⟩ := List.mem_filterMap.mp (List.mem_of_mem_filter hmem)
  exact ⟨agent, hagent, chosen, hentry, rfl⟩

/-- The keys of the list are the keys of the map. -/
theorem list_keys_perm (w : WorkspaceSnapshot) : ((list w).map Conversation.key).Perm
    (best Conversation.key Conversation.rank (w.agents.filterMap w.entryOf)).keys := by
  have hperm := ((sortBy_perm Conversation.listed ((best Conversation.key Conversation.rank
    (w.agents.filterMap w.entryOf)).values.map (Conversation.withResume w.resumes))).map
      Conversation.key)
  refine hperm.trans (.of_eq ?_)
  rw [List.map_map, BTreeMap.values, BTreeMap.keys, List.map_map]
  refine List.map_congr_left fun pair hpair => ?_
  obtain ⟨hspec, -⟩ := best_spec Conversation.key Conversation.rank
    (w.agents.filterMap w.entryOf) pair.1
  obtain ⟨hmem, -⟩ := hspec pair.2 (BTreeMap.lookup_eq_some.mpr hpair)
  rw [Function.comp_apply, Function.comp_apply, (withResume_key _ _).1]
  exact of_decide_eq_true (List.mem_filter.mp hmem).2

/-- One entry for each harness and valid session of the Workspace's agents. -/
theorem list_keys (w : WorkspaceSnapshot) : ((list w).map Conversation.key).Nodup
    ∧ ∀ integration session, toLex (integration, session) ∈ (list w).map Conversation.key ↔
      ∃ agent ∈ w.agents, agent.workspaceId = w.id ∧ agent.integration = integration
        ∧ agent.externalSessionId = some session ∧ validateExternalSessionId session = .ok () := by
  have hperm := list_keys_perm w
  refine ⟨hperm.nodup_iff.mpr (BTreeMap.keys_nodup _), fun integration session => ?_⟩
  have hiff : toLex (integration, session) ∈ (best Conversation.key Conversation.rank
      (w.agents.filterMap w.entryOf)).keys ↔
      (w.agents.filterMap w.entryOf).filter (Conversation.key · = toLex (integration, session)) ≠
        [] := by
    rw [BTreeMap.mem_keys]
    have hnone := (best_spec Conversation.key Conversation.rank (w.agents.filterMap w.entryOf)
      (toLex (integration, session))).2
    rw [← not_iff_not, not_not, ← hnone, Option.eq_none_iff_forall_not_mem]
    simp only [not_exists, ← BTreeMap.lookup_eq_some, Option.mem_def]
  rw [hperm.mem_iff, hiff, Ne, List.filter_eq_nil_iff]
  simp only [List.mem_filterMap, decide_eq_true_iff, not_forall, not_not]
  constructor
  · rintro ⟨entry, ⟨agent, hagent, hentry⟩, hkey⟩
    obtain ⟨-, hintegration, hsession, -⟩ := entryOf_eq_some hentry
    obtain ⟨hi, hs⟩ := Prod.mk.inj (toLex.injective hkey)
    obtain ⟨hworkspace, hexternal, hvalid⟩ := validSession_eq_some.mp hsession
    exact ⟨agent, hagent, hworkspace, hintegration.symm.trans hi, hs ▸ hexternal, hs ▸ hvalid⟩
  · rintro ⟨agent, hagent, hworkspace, rfl, hexternal, hvalid⟩
    have hsession := validSession_eq_some.mpr ⟨hworkspace, hexternal, hvalid⟩
    obtain ⟨entry, hentry⟩ : ∃ entry, w.entryOf agent = some entry := by
      unfold WorkspaceSnapshot.entryOf
      rw [hsession]
      exact ⟨_, rfl⟩
    obtain ⟨-, hintegration, hsession', -⟩ := entryOf_eq_some hentry
    refine ⟨entry, ⟨agent, hagent, hentry⟩, ?_⟩
    rw [Conversation.key, hintegration, Option.some.inj (hsession'.symm.trans hsession)]

/-! ## Running Shells -/

theorem lookup_shellsById {shell : ShellSnapshot} (h : w.shellsById.lookup id = some shell) :
    shell ∈ w.shells ∧ shell.id = id := by
  rcases HashMap.mem_of_get_insertAll h with hmem | hempty
  · obtain ⟨shell', hshell, heq⟩ := List.mem_map.mp hmem
    obtain ⟨rfl, rfl⟩ := Prod.mk.inj heq
    exact ⟨hshell, rfl⟩
  · cases hempty

/-- A running Shell is one of the snapshot's, and runs. -/
theorem running_of_mem_list (h : entry ∈ list w) (hrun : entry.runningShell = some id) :
    ∃ shell ∈ w.shells, shell.id = id ∧ shell.status = .running := by
  obtain ⟨agent, -, chosen, hentry, rfl⟩ := mem_list h
  unfold Conversation.withResume at hrun
  split at hrun
  next hnone =>
    split at hrun
    next shell hresume =>
      obtain ⟨command, -, hlookup⟩ := Option.bind_eq_some_iff.mp hresume
      obtain ⟨hspec, -⟩ := best_spec ShellSnapshot.command (fun shell => OrderDual.toDual shell.id)
        (w.shells.filter w.startsUnreported) command
      obtain ⟨hmem, hstarts⟩ := List.mem_filter.mp (List.mem_of_mem_filter (hspec shell hlookup).1)
      rw [WorkspaceSnapshot.startsUnreported, Bool.and_eq_true, Bool.and_eq_true,
        decide_eq_true_iff,
        decide_eq_true_iff] at hstarts
      exact ⟨shell, hmem, Option.some.inj hrun, hstarts.1.2⟩
    next =>
      rw [hrun] at hnone
      cases hnone
  next =>
    obtain ⟨-, -, -, hshell⟩ := entryOf_eq_some hentry
    rw [hshell, Option.map_eq_some_iff] at hrun
    obtain ⟨shell, hshell, rfl⟩ := hrun
    unfold runningShell at hshell
    split at hshell
    · cases hshell
    · obtain ⟨hlookup, hrunning⟩ := Option.filter_eq_some_iff.mp hshell
      rw [Bool.and_eq_true, decide_eq_true_iff] at hrunning
      exact ⟨shell, (lookup_shellsById hlookup).1, rfl, hrunning.1⟩

/-! ## Opening -/

theorem find?_isSome_of_mem {α : Type} {p : α → Bool} {l : List α} {a : α} (ha : a ∈ l)
    (hp : p a = true) :
    ∃ b ∈ l, l.find? p = some b ∧ p b = true := by
  obtain ⟨b, hb⟩ := Option.isSome_iff_exists.mp (List.find?_isSome.mpr ⟨a, ha, hp⟩)
  exact ⟨b, List.mem_of_find?_eq_some hb, hb, List.find?_some hb⟩

/-- The agent that an entry was made from. -/
theorem agent_of_mem_list (h : entry ∈ list w) :
    ∃ agent, w.agents.find? (·.id = entry.agentId) = some agent := by
  obtain ⟨agent, hagent, chosen, hentry, rfl⟩ := mem_list h
  obtain ⟨hid, -⟩ := entryOf_eq_some hentry
  obtain ⟨found, -, hfound, -⟩ :=
    find?_isSome_of_mem (p := fun a => a.id = (chosen.withResume w.resumes).agentId)
    hagent (by rw [(withResume_key _ _).2.1, hid, decide_eq_true_iff])
  exact ⟨found, hfound⟩

variable {randomExcluding : List String → Option String}
    {integration session agentId shellId : String}

theorem orMessage_bind_ne_panic {α β : Type} {x : Option α} {text : String}
    {f : α → Except PlanError β}
    (h : ∀ a, x = some a → f a ≠ .error .panic) : (orMessage x text >>= f) ≠ .error .panic := by
  cases x with
  | none => exact fun he => nomatch he
  | some a => exact h a rfl

theorem unwrap_bind_ne_panic {α β : Type} {x : Option α} {f : α → Except PlanError β} {a : α}
    (hx : x = some a) (h : f a ≠ .error .panic) : (unwrap x >>= f) ≠ .error .panic := by
  rw [hx]
  exact h

theorem openEntry_ne_panic (h : entry ∈ list w) :
    openEntry randomExcluding w integration session shellId entry ≠ .error .panic := by
  unfold openEntry
  cases hrun : entry.runningShell with
  | some id =>
      obtain ⟨shell, hshell, hid, -⟩ := running_of_mem_list h hrun
      obtain ⟨found, -, hfound, -⟩ :=
        find?_isSome_of_mem (p := (·.id = id)) hshell (decide_eq_true hid)
      exact unwrap_bind_ne_panic hfound nofun
  | none =>
      obtain ⟨agent, hagent⟩ := agent_of_mem_list h
      refine unwrap_bind_ne_panic hagent (orMessage_bind_ne_panic fun resume _ =>
        orMessage_bind_ne_panic fun command _ => ?_)
      split
      · exact nofun
      · exact orMessage_bind_ne_panic fun cwd _ => orMessage_bind_ne_panic fun name _ => nofun

theorem plan_ne_panic : plan randomExcluding w agentId shellId ≠ .error .panic := by
  refine orMessage_bind_ne_panic fun agent _ => orMessage_bind_ne_panic fun session _ => ?_
  cases hvalid : validateExternalSessionId session with
  | error text => exact fun he => nomatch he
  | ok u =>
      show (require (session.toList.head? != some '-') _ >>= _) ≠ Except.error PlanError.panic
      unfold require
      split
      · exact orMessage_bind_ne_panic fun entry hentry =>
          openEntry_ne_panic (List.mem_of_find?_eq_some hentry)
      · exact fun he => nomatch he

/-- What a plan to resume says: the session is valid, and the command is the harness's for it. -/
theorem of_plan_eq_resume {spec : ShellSpec}
    (h : plan randomExcluding w agentId shellId = .ok (.resume spec)) :
    ∃ agent session resume, w.agent? agentId = some agent ∧ agent.externalSessionId = some session
      ∧ validateExternalSessionId session = .ok () ∧ session.toList.head? ≠ some '-'
      ∧ (byKey agent.integration).bind (·.resume) = some resume
      ∧ resume.command [] session = some spec.command := by
  have hsome {α : Type} {x : Option α} {text : String} {a : α} (hx : orMessage x text = .ok a) :
      x = some a := by
    cases x with
    | none => cases hx
    | some b => exact congrArg some (Except.ok.inj hx)
  simp only [plan, bind_eq_ok, require_eq_ok, mapError_eq_ok] at h
  obtain ⟨agent, hagent, session, hsession, _, hvalid, _, hdash, entry, -, hopen⟩ := h
  refine ⟨agent, session, ?_⟩
  unfold openEntry at hopen
  split at hopen
  · obtain ⟨shell, -, hshell⟩ := bind_eq_ok.mp hopen
    cases hshell
  · simp only [bind_eq_ok] at hopen
    obtain ⟨newest, -, resume, hresume, command, hcommand, hrest⟩ := hopen
    split at hrest
    · cases hrest
    · simp only [bind_eq_ok] at hrest
      obtain ⟨cwd, -, name, -, hspec⟩ := hrest
      obtain rfl := OpenPlan.resume.inj (Except.ok.inj hspec)
      exact ⟨resume, hsome hagent, hsome hsession, hvalid, by simpa using hdash, hsome hresume,
        hsome hcommand⟩

/-- A Shell that waits to start with the resume command, or runs it without a report of a session.
-/
def Awaits (w : WorkspaceSnapshot) (command : List String) (shell : ShellSnapshot) : Prop :=
  shell ∈ w.shells ∧ shell.command = command ∧ (shell.status = .pending ∨ (shell.status = .running
    ∧ ∀ agent ∈ w.agents, agent.shellId = shell.id → agent.externalSessionId.isSome = true →
      shell.run.any (·.id = agent.runId) = false))

theorem Awaits.inFlight {command : List String} {shell : ShellSnapshot}
    (h : Awaits w command shell) :
    w.inFlight shellId shell = true := by
  obtain ⟨-, -, hpending | ⟨hrunning, hunreported⟩⟩ := h
  · simp [WorkspaceSnapshot.inFlight, hpending]
  · have hnone : (w.agents.any fun agent =>
        agent.shellId = shell.id && agent.externalSessionId.isSome &&
        shell.run.any (·.id = agent.runId)) = false := by
      rw [List.any_eq_false]
      intro agent hagent hreport
      rw [Bool.and_eq_true, Bool.and_eq_true, decide_eq_true_iff] at hreport
      obtain ⟨⟨hshell, hsession⟩, hrun⟩ := hreport
      exact Bool.false_ne_true ((hunreported agent hagent hshell hsession).symm.trans hrun)
    rw [WorkspaceSnapshot.inFlight, hrunning, hnone]
    simp

/-- Once a Shell awaits the conversation, every plan for it is to show an existing Shell. -/
theorem plan_of_awaits {resume : ResumeCapability} {command : List String} {shell : ShellSnapshot}
    (hawaits : Awaits w command shell) (hagent : w.agent? agentId = some agent)
    (hsession : agent.externalSessionId = some session)
    (hvalid : validateExternalSessionId session = .ok ())
    (hdash : session.toList.head? ≠ some '-')
    (hresume : (byKey agent.integration).bind (·.resume) = some resume)
    (hcommand : resume.command [] session = some command) :
    ∃ shell ∈ w.shells, plan randomExcluding w agentId shellId = .ok (.existing shell) := by
  have hmem : agent ∈ w.agents := List.mem_of_find?_eq_some hagent
  have hworkspace : agent.workspaceId = w.id := by
    have hfound := List.find?_some hagent
    rw [Bool.and_eq_true, decide_eq_true_iff, decide_eq_true_iff] at hfound
    exact hfound.2
  -- The Agent's conversation is one of those listed.
  have hkey := ((list_keys w).2 agent.integration session).mpr
    ⟨agent, hmem, hworkspace, rfl, hsession, hvalid⟩
  obtain ⟨listed, hlisted, hlistedKey⟩ := List.mem_map.mp hkey
  obtain ⟨hi, hs⟩ := Prod.mk.inj (toLex.injective hlistedKey)
  obtain ⟨entry, hentry, hfind, -⟩ := find?_isSome_of_mem
    (p := fun entry => entry.integration = agent.integration && entry.externalSessionId = session)
    hlisted (by rw [hi, hs]; simp)
  -- The checks before the entry all pass.
  have hplan : plan randomExcluding w agentId shellId
      = openEntry randomExcluding w agent.integration session shellId entry := by
    have hallowed : (session.toList.head? != some '-') = true := by simpa using hdash
    unfold plan
    rw [hagent]
    show (orMessage agent.externalSessionId _ >>= _) = _
    rw [hsession]
    show ((validateExternalSessionId session).mapError PlanError.message >>= _) = _
    rw [hvalid]
    show (require (session.toList.head? != some '-') _ >>= _) = _
    rw [hallowed]
    show (orMessage _ _ >>= _) = _
    rw [hfind]
    rfl
  rw [hplan]
  unfold openEntry
  cases hrun : entry.runningShell with
  -- The entry names a Shell that runs it.
  | some id =>
      obtain ⟨running, hrunning, hid, -⟩ := running_of_mem_list hentry hrun
      obtain ⟨found, hfound, hfind, -⟩ :=
        find?_isSome_of_mem (p := (·.id = id)) hrunning (decide_eq_true hid)
      refine ⟨found, hfound, ?_⟩
      dsimp only
      rw [hfind]
      rfl
  -- None runs it, but one in flight has been made with its command.
  | none =>
      obtain ⟨newest, hnewest⟩ := agent_of_mem_list hentry
      obtain ⟨found, hfound, hfind, -⟩ := find?_isSome_of_mem
        (p := fun shell => shell.command = command && w.inFlight shellId shell) hawaits.1
        (by rw [hawaits.inFlight, hawaits.2.1]; simp)
      refine ⟨found, hfound, ?_⟩
      dsimp only
      rw [hnewest, hresume]
      dsimp only [unwrap, orMessage, Option.elim_some, bind, Except.bind]
      rw [hcommand]
      dsimp only [Option.elim_some]
      rw [hfind]

/-! ## The order of agents and Shells -/

section Reordered

variable (hw : w.Distinct) (h : w.Reordered w')

include hw h

theorem Reordered.lookup_shellsById (id : String) :
    w.shellsById.lookup id = w'.shellsById.lookup id := by
  have hids (shells : List ShellSnapshot) : (shells.map fun shell => (shell.id, shell)).map Prod.fst
      = shells.map (·.id) := by
    rw [List.map_map]
    rfl
  have hdistinct' : (w'.shells.map (·.id)).Nodup := (h.shells.map _).nodup_iff.mp hw.shells
  refine Option.ext fun shell => ?_
  unfold WorkspaceSnapshot.shellsById
  rw [HashMap.get_insertAll_eq_some (by rw [hids]; exact hw.shells),
    HashMap.get_insertAll_eq_some (by rw [hids]; exact hdistinct'), (h.shells.map _).mem_iff]

theorem Reordered.entryOf (agent : AgentInstanceSnapshot) : w.entryOf agent = w'.entryOf agent := by
  have hrunning : runningShell w.shellsById agent = runningShell w'.shellsById agent := by
    unfold runningShell
    rw [Reordered.lookup_shellsById hw h]
  unfold WorkspaceSnapshot.entryOf WorkspaceSnapshot.validSession
  rw [hrunning, h.id]

theorem Reordered.resumes : w.resumes = w'.resumes := by
  have hclaimed (run : String × String) :
      w.claimedRuns.contains run = w'.claimedRuns.contains run := by
    have hperm : w.claimedRuns.Perm w'.claimedRuns := by
      unfold WorkspaceSnapshot.claimedRuns
      rw [h.id]
      exact (h.agents.filter _).map _
    rw [Bool.eq_iff_iff, List.contains_iff_mem, List.contains_iff_mem, hperm.mem_iff]
  have hstarts : w.startsUnreported = w'.startsUnreported := by
    funext shell
    unfold WorkspaceSnapshot.startsUnreported
    simp only [hclaimed, h.id]
  have htotal : Total (fun shell : ShellSnapshot => OrderDual.toDual shell.id) w.shells :=
    Total.of_nodup hw.shells fun _ _ he => OrderDual.toDual.injective he
  unfold WorkspaceSnapshot.resumes
  rw [← hstarts]
  exact best_eq_of_perm (htotal.subset fun _ => List.mem_of_mem_filter) (h.shells.filter _)

/-- The entries do not depend on the order of the agents and the Shells. -/
theorem Reordered.list : list w = list w' := by
  have htotal : Total Conversation.rank (w.agents.filterMap w.entryOf) := by
    intro e he e' he' hrank
    obtain ⟨a, ha, hentry⟩ := List.mem_filterMap.mp he
    obtain ⟨a', ha', hentry'⟩ := List.mem_filterMap.mp he'
    have hid : e.agentId = e'.agentId := congrArg (fun r => (ofLex (ofLex r).2).2) hrank
    have haa' : a.id = a'.id :=
      (entryOf_eq_some hentry).1.symm.trans (hid.trans (entryOf_eq_some hentry').1)
    rw [List.inj_on_of_nodup_map hw.agents ha ha' haa'] at hentry
    exact Option.some.inj (hentry.symm.trans hentry')
  have hperm : (w.agents.filterMap w.entryOf).Perm (w'.agents.filterMap w'.entryOf) := by
    rw [show w.entryOf = w'.entryOf from funext (Reordered.entryOf hw h)]
    exact h.agents.filterMap _
  unfold Workspaces.list
  rw [best_eq_of_perm htotal hperm, Reordered.resumes hw h]

end Reordered

end Entries

/-- Conversations: one entry for each harness and valid session of the Workspace's agents, in an
order of its own; the Shell of an entry runs; planning finds what it looks up; and after a plan to
resume a conversation, when a Shell awaits it, any plan for the conversation shows an existing
Shell. -/
theorem conversations_opened_once (w : WorkspaceSnapshot) :
    (((list w).map Conversation.key).Nodup
      ∧ ∀ integration session, toLex (integration, session) ∈ (list w).map Conversation.key ↔
        ∃ agent ∈ w.agents, agent.workspaceId = w.id ∧ agent.integration = integration
          ∧ agent.externalSessionId = some session ∧ validateExternalSessionId session = .ok ())
    ∧ (w.Distinct → ∀ w', w.Reordered w' → list w = list w')
    ∧ (∀ entry ∈ list w, ∀ id, entry.runningShell = some id →
      ∃ shell ∈ w.shells, shell.id = id ∧ shell.status = .running)
    ∧ ∀ randomExcluding agentId shellId, plan randomExcluding w agentId shellId ≠ .error .panic
      ∧ ∀ spec, plan randomExcluding w agentId shellId = .ok (.resume spec) →
        ∃ agent, w.agent? agentId = some agent
          ∧ ∀ w' shell, Awaits w' spec.command shell → ∀ agentId' agent',
            w'.agent? agentId' = some agent' →
            byKey agent'.integration = byKey agent.integration →
            agent'.externalSessionId = agent.externalSessionId →
            ∀ randomExcluding' shellId', ∃ existing ∈ w'.shells,
              plan randomExcluding' w' agentId' shellId' = .ok (.existing existing) := by
  refine ⟨list_keys w, fun hw w' h => Reordered.list hw h, fun entry hentry id =>
    running_of_mem_list hentry,
    fun randomExcluding agentId shellId => ⟨plan_ne_panic, fun spec hplan => ?_⟩⟩
  obtain ⟨agent, session, resume, hagent, hsession, hvalid, hdash, hresume, hcommand⟩ :=
    of_plan_eq_resume hplan
  refine ⟨agent, hagent,
    fun w' shell hawaits agentId' agent' hagent' hkey hsame randomExcluding' shellId' => ?_⟩
  rw [← hkey] at hresume
  exact plan_of_awaits hawaits hagent' (hsame.trans hsession) hvalid hdash hresume hcommand

/-! ## A conversation that is resumed -/

/-- An agent that has left its session behind. -/
def pastAgent : AgentInstanceSnapshot where
  id := "a1"
  workspaceId := "workspace-a"
  shellId := "removed"
  runId := "r1"
  name := "Investigate issue"
  integration := "codex"
  externalSessionId := some "thread-1"
  cwd := none
  startedAtMs := 1
  endedAtMs := none
  observation := ⟨1, .inactive, .lifecycleIntegration, "", 100, 2⟩

def pastWorkspace : WorkspaceSnapshot where
  id := "workspace-a"
  revision := 1
  name := "Project"
  defaultCwd := some "/tmp"
  shells := []
  launchers := []
  agents := [pastAgent, { pastAgent with id := "a2", runId := "r2" }]

/-- The Shell that the plan asks for, before it starts. -/
def resumedShell : ShellSnapshot where
  id := "shell-new"
  workspaceId := "workspace-a"
  name := "amber-bear"
  cwd := "/tmp"
  command := ["codex", "resume", "thread-1"]
  status := .pending
  run := none

/-- The session is resumed; with its Shell in the Workspace the next call shows a Shell of the
Workspace; and the two agents may stand in either order. -/
theorem pastWorkspace_opened_once :
    plan (fun _ => some "amber-bear") pastWorkspace "a1" "shell-new"
      = .ok (.resume
        { name := "amber-bear", command := ["codex", "resume", "thread-1"], cwd := "/tmp" })
    ∧ (∃ existing ∈ [resumedShell],
      plan (fun _ => none) { pastWorkspace with shells := [resumedShell] } "a1" "another"
        = .ok (.existing existing))
    ∧ list pastWorkspace = list { pastWorkspace with agents := pastWorkspace.agents.reverse } := by
  have hplan : plan (fun _ => some "amber-bear") pastWorkspace "a1" "shell-new"
      = .ok (.resume
        { name := "amber-bear", command := ["codex", "resume", "thread-1"], cwd := "/tmp" }) := by
    decide +kernel
  obtain ⟨-, horder, -, hplans⟩ := conversations_opened_once pastWorkspace
  obtain ⟨agent, hagent, hnext⟩ := (hplans _ _ _).2 _ hplan
  have hfound : pastWorkspace.agent? "a1" = some pastAgent := by decide +kernel
  obtain rfl := Option.some.inj (hfound.symm.trans hagent)
  refine ⟨hplan, hnext { pastWorkspace with shells := [resumedShell] } resumedShell
    ⟨List.mem_singleton_self _, rfl, Or.inl rfl⟩ "a1" pastAgent (by decide +kernel) rfl rfl _ _, ?_⟩
  exact horder ⟨by decide +kernel, by decide +kernel⟩ _
    ⟨rfl, rfl, rfl, rfl, rfl, .refl _, (List.reverse_perm _).symm⟩

end Boomux.Workspaces
