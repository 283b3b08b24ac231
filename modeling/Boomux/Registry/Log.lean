import Boomux.Daemon.Registry
import Boomux.Registry.Requests

/-!
# Events and logs of the requests

What the closures of the requests announce and log. A request that closes goes through
`lifecycle_transaction`; the events of all others end nothing, and the undo of what they log takes
out what the records name and puts nothing back.
-/

set_option autoImplicit false

namespace Boomux.Registry

open Rust Handoff Undo
open Daemon (DaemonEventKind)

/-- What `durable_mutation_outcome` reads of a closure's value. -/
def DurableMutation.announced {α : Type} : DurableMutation α → Daemon.DurableMutation
  | .changed _ kinds => .changed kinds
  | .unchanged _ => .unchanged

/-- The request goes through `lifecycle_transaction`. -/
def Request.closes : Request → Bool
  | .closeShell .. | .closeWorkspace .. => true
  | _ => false

/-! ## The events of a closure -/

section Events

variable {isDir : String → Bool} {running : String → Option String} {d : DurableState}

/-- All the events are those of a mutation. -/
def Neutral (kinds : List DaemonEventKind) : Prop := ∀ kind ∈ kinds, kind.ofMutation = true

/-- The events of the mutation, if it has any, are neutral. -/
def DurableMutation.Neutral {α : Type} (m : DurableMutation α) : Prop :=
  ∀ kinds, m.announced = .changed kinds → Registry.Neutral kinds

theorem Neutral.nil : Neutral [] := fun _ h => absurd h List.not_mem_nil

theorem Neutral.cons {kind : DaemonEventKind} {kinds : List DaemonEventKind}
    (h : kind.ofMutation = true) (hs : Neutral kinds) : Neutral (kind :: kinds) := by
  intro k hk
  rcases List.mem_cons.mp hk with rfl | hk
  · exact h
  · exact hs k hk

theorem Neutral.append {kinds kinds' : List DaemonEventKind} (h : Neutral kinds)
    (h' : Neutral kinds') : Neutral (kinds ++ kinds') := by
  intro k hk
  rcases List.mem_append.mp hk with hk | hk
  · exact h k hk
  · exact h' k hk

theorem Neutral.map {α : Type} {f : α → DaemonEventKind} (h : ∀ a, (f a).ofMutation = true)
    (l : List α) : Neutral (l.map f) := by
  intro k hk
  obtain ⟨a, -, rfl⟩ := List.mem_map.mp hk
  exact h a

theorem Neutral.ite {p : Prop} [Decidable p] {kinds kinds' : List DaemonEventKind}
    (h : Neutral kinds) (h' : Neutral kinds') : Neutral (if p then kinds else kinds') := by
  split
  · exact h
  · exact h'

theorem Neutral.changed {α : Type} {value : α} {kinds : List DaemonEventKind} (h : Neutral kinds) :
    (DurableMutation.changed value kinds).Neutral := by
  intro kinds' hk
  cases hk
  exact h

theorem Neutral.ofEvents {α : Type} {value : α} {kinds : List DaemonEventKind}
    (h : Neutral kinds) : (DurableMutation.ofEvents value kinds).Neutral := by
  unfold DurableMutation.ofEvents
  split
  · intro kinds' hk
    cases hk
  · exact h.changed

theorem neutral_agentRegisteredEvents (agent : Daemon.AgentInstance) :
    Neutral (agentRegisteredEvents agent) :=
  .cons rfl (.ite (.cons rfl .nil) .nil)

theorem neutral_agentReported (agent : Daemon.AgentInstance) (completed : Bool) :
    (agentReported agent completed).ofMutation = true := by
  cases completed <;> rfl

theorem neutral_workspaceCreatedEvents (w : Workspace) (shells : List Shell) :
    Neutral (workspaceCreatedEvents w shells) := .cons rfl (.map (fun _ => rfl) _)

theorem runAgentCalls_neutral (calls : List AgentCall) :
    Ensures (runAgentCalls running calls) d fun kinds _ _ => Neutral kinds := by
  induction calls generalizing d with
  | nil => exact .pure .nil
  | cons call calls ih =>
      have hcall : Ensures (runAgentCall running call) d fun kinds _ _ => Neutral kinds := by
        cases call with
        | check result => exact .value_bind fun _ _ _ => .pure .nil
        | ensure id millis shellId runId spec =>
            exact .value_bind fun _ _ _ => .pure (.ite (.cons rfl .nil) .nil)
        | report millis agentId runId report =>
            exact .value_bind fun _ _ _ =>
              .pure (.ite (.cons (neutral_agentReported _ _) .nil) .nil)
      exact .value_bind fun kinds _ hk => .bind fun rest hrest =>
        .pure ((hcall kinds hk).append (ih rest hrest))

theorem placeWorkspace_neutral {workspaceId name : String} {defaultCwd : Option String} :
    Ensures (placeWorkspace isDir workspaceId name defaultCwd) d fun kinds _ _ => Neutral kinds :=
  .value_bind fun _ _ _ => .pure (.ite (.cons rfl .nil) .nil)

/-- A guarded edit of one record has at most one event. -/
theorem neutral_edit {α : Type} {guard : Mutation Unit} {edit : Mutation (Option α)}
    {respond : Mutation Response} {f : α → DaemonEventKind} (h : ∀ a, (f a).ofMutation = true) :
    Ensures (guard >>= fun _ => edit >>= fun a => respond >>= fun r =>
      pure (DurableMutation.ofEvents r (a.toList.map f))) d fun m _ _ => m.Neutral :=
  .value_bind fun _ _ _ => .value_bind fun _ _ _ => .value_bind fun _ _ _ =>
    .pure (Neutral.map h _).ofEvents

/-- None of the events of a request ends a run or reports output, unless it closes. -/
theorem dispatch_neutral {request : Request} (h : request.closes = false) :
    Ensures (dispatch isDir running request) d fun m _ _ => m.Neutral := by
  cases request with
  | createWorkspace | createShellWithWorkspace =>
      exact .value_bind fun _ _ _ => .pure (neutral_workspaceCreatedEvents _ _).changed
  | openWorkspaceConversation workspaceId shellId plan =>
      refine .value_bind fun _ _ _ => .value_bind fun _ _ _ => .value_bind fun plan _ _ => ?_
      cases plan with
      | existing shell => exact .pure fun _ h => by cases h
      | resume spec =>
          exact .value_bind fun _ _ _ =>
            .pure (Neutral.ite (.cons rfl .nil) .nil).ofEvents
  | createWorkspaceShell | createWorkspaceLauncher =>
      exact .value_bind fun placed _ hplaced => .value_bind fun _ _ _ =>
        .pure ((placeWorkspace_neutral placed hplaced).append
          (.ite (.cons rfl .nil) .nil)).ofEvents
  | createShell | createLauncher =>
      exact .value_bind fun _ _ _ => .pure (Neutral.cons rfl .nil).changed
  | createStartedShell =>
      exact .value_bind fun _ _ _ => .value_bind fun _ _ _ => .value_bind fun _ _ _ =>
        .pure (Neutral.cons rfl (.cons rfl .nil)).changed
  | registerAgent =>
      exact .value_bind fun _ _ _ => .pure (neutral_agentRegisteredEvents _).changed
  | ensureAgent =>
      exact .value_bind fun _ _ _ =>
        .pure (Neutral.ite (neutral_agentRegisteredEvents _) .nil).ofEvents
  | agentCalls calls =>
      exact .value_bind fun kinds _ hk => .pure (runAgentCalls_neutral calls kinds hk).ofEvents
  | reportAgent =>
      exact .value_bind fun _ _ _ =>
        .pure (Neutral.ite (.cons (neutral_agentReported _ _) .nil) .nil).ofEvents
  | observeAgentWorkingContext | acknowledgeAgentAttention =>
      exact .value_bind fun _ _ _ => .pure (Neutral.ite (.cons rfl .nil) .nil).ofEvents
  | renameWorkspace | setWorkspaceDefaultCwd | renameShell | renameLauncher =>
      exact neutral_edit fun _ => rfl
  | removeLauncher =>
      exact .value_bind fun _ _ _ => .value_bind fun _ _ _ =>
        .pure (Neutral.cons rfl .nil).changed
  | closeShell | closeWorkspace => cases h

end Events

/-! ## What a log says -/

section Logs

variable {isDir : String → Bool} {running : String → Option String} {request : Request}
  {d : DurableState} {id : String}

/-- The undo of the record puts back a Shell or a Workspace. -/
def DurableUndo.putsBack : DurableUndo → Bool
  | .removed .shell .. | .removedWorkspace .. => true
  | _ => false

theorem logs_addMember {k : Kind} {w : Workspace} {r : k.Record} :
    Logs (addMember k w r) (·.putsBack = false) := by
  intro d u hu
  unfold addMember at hu
  dsimp only at hu
  split at hu
  · cases hu
  · obtain rfl := List.mem_singleton.mp hu
    rfl

theorem logs_change {u : DurableUndo} {f : DurableState → DurableState}
    (h : u.putsBack = false) :
    Logs (fun d => ⟨.ok (), [u], f d⟩ : Mutation Unit) (·.putsBack = false) := by
  intro d v hv
  obtain rfl := List.mem_singleton.mp hv
  exact h

theorem logs_createWorkspace {name : String} {defaultCwd : Option String}
    {specs : List (String × Journal.ShellSpec)} :
    Logs (createWorkspace isDir id name defaultCwd specs) (·.putsBack = false) :=
  .bind .read fun _ => .bind .read fun _ => .bind .read fun _ => .bind .read fun _ =>
    .bind .read fun _ => .bind (logs_change rfl) fun _ => .read

theorem logs_createWorkspaceExact {name : String} {defaultCwd : Option String} :
    Logs (createWorkspaceExact isDir id name defaultCwd) (·.putsBack = false) := by
  refine .bind .read fun _ => .bind .read fun _ => .bind .read fun _ => .bind .read fun found => ?_
  cases found with
  | some existing => exact .bind .read fun _ => .read
  | none => exact .bind .read fun _ => .bind (logs_change rfl) fun _ => .read

theorem logs_insertShell {w : Workspace} {shell : Shell} :
    Logs (insertShell w shell) (·.putsBack = false) := .bind .read fun _ => logs_addMember

theorem logs_createShell {workspaceId : String} {spec : Journal.ShellSpec} :
    Logs (createShell isDir id workspaceId spec) (·.putsBack = false) :=
  .bind .read fun _ => .bind .read fun _ => .bind logs_insertShell fun _ => .read

theorem logs_createShellExact {workspaceId : String} {spec : Journal.ShellSpec} :
    Logs (createShellExact isDir workspaceId id spec) (·.putsBack = false) := by
  refine .bind .read fun _ => .bind .read fun found => ?_
  cases found with
  | some existing => exact .bind .read fun _ => .read
  | none =>
      exact .bind .read fun _ => .bind .read fun _ => .bind logs_insertShell fun _ => .read

theorem logs_insertLauncher {workspaceId : String} {spec : WorkspaceLauncherSpec} :
    Logs (insertLauncher isDir workspaceId id spec) (·.putsBack = false) :=
  .bind .read fun _ => .bind .read fun _ => .bind .read fun _ => .bind logs_addMember fun _ => .read

theorem logs_createLauncherExact {workspaceId : String} {spec : WorkspaceLauncherSpec} :
    Logs (createLauncherExact isDir workspaceId id spec) (·.putsBack = false) := by
  refine .bind .read fun _ => .bind .read fun found => ?_
  cases found with
  | some existing => exact .bind .read fun _ => .read
  | none => exact .bind logs_insertLauncher fun _ => .read

theorem logs_setWorkspaceDefaultCwd {cwd : String} :
    Logs (setWorkspaceDefaultCwd isDir id cwd) (·.putsBack = false) := by
  refine .bind .read fun _ => .bind .read fun w => ?_
  split
  · exact .read
  · exact .bind .read fun _ => .bind (logs_change rfl) fun _ => .read

theorem logs_renameWorkspace {name : String} :
    Logs (renameWorkspace id name) (·.putsBack = false) := by
  refine .bind .read fun _ => .bind .read fun w => .bind .read fun _ => ?_
  split
  · exact .read
  · exact .bind .read fun _ => .bind (logs_change rfl) fun _ => .read

theorem logs_renameShell {name : String} : Logs (renameShell id name) (·.putsBack = false) := by
  refine .bind .read fun _ => .bind .read fun _ => .bind .read fun _ => .bind .read fun _ => ?_
  split
  · exact .read
  · exact .bind .read fun _ => .bind (logs_change rfl) fun _ => .read

theorem logs_renameLauncher {name : String} :
    Logs (renameLauncher id name) (·.putsBack = false) := by
  refine .bind .read fun _ => .bind .read fun _ => .bind .read fun _ => .bind .read fun _ => ?_
  split
  · exact .read
  · exact .bind .read fun _ => .bind (logs_change rfl) fun _ => .read

theorem logs_removeLauncher : Logs (removeMember .launcher id) (·.putsBack = false) := by
  refine .bind .read fun _ => .bind .read fun _ => .bind .read fun _ => .bind ?_ fun _ => .read
  intro d u hu
  unfold takeMember at hu
  dsimp only at hu
  split at hu
  · cases hu
  · obtain rfl := List.mem_singleton.mp hu
    rfl

theorem logs_registerAgent {millis : Nat} {shellId runId : String}
    {spec : Daemon.AgentRegistrationSpec} :
    Logs (registerAgent running id millis shellId runId spec) (·.putsBack = false) :=
  .bind .read fun _ => .bind .read fun _ => .bind .read fun _ => .bind .read fun _ =>
    .bind .read fun _ => .bind logs_addMember fun _ => .read

theorem logs_ensureAgent {millis : Nat} {shellId runId : String}
    {spec : Daemon.AgentRegistrationSpec} :
    Logs (ensureAgent running id millis shellId runId spec) (·.putsBack = false) := by
  refine .bind .read fun _ => .bind .read fun _ => .bind .read fun _ => .bind .read fun found => ?_
  cases found with
  | some agent => exact .read
  | none => exact .bind logs_registerAgent fun _ => .read

theorem logs_reportAgent {millis : Nat} {runId : String} {report : Daemon.AgentReport} :
    Logs (reportAgent millis id runId report) (·.putsBack = false) := by
  refine .bind .read fun _ => .bind .read fun _ => .bind .read fun _ => .bind .read fun _ =>
    .bind .read fun _ => ?_
  split
  · exact .bind (logs_change rfl) fun _ => .read
  · exact .read

theorem logs_observeAgentWorkingContext {millis : Nat} {shellId runId : String}
    {context : Daemon.AgentWorkingContextSnapshot} :
    Logs (observeAgentWorkingContext running millis id shellId runId context)
      (·.putsBack = false) := by
  refine .bind .read fun _ => .bind .read fun _ => .bind .read fun _ => .bind .read fun _ =>
    .bind .read fun _ => .bind .read fun _ => ?_
  dsimp only
  split
  · exact .bind (logs_change rfl) fun _ => .read
  · exact .read

theorem logs_acknowledgeAgentAttention {revision : Nat} :
    Logs (acknowledgeAgentAttention id revision) (·.putsBack = false) := by
  refine .bind .read fun _ => .bind .read fun _ => ?_
  split
  · exact .bind (logs_change rfl) fun _ => .read
  · exact .read

theorem logs_runAgentCalls (calls : List AgentCall) :
    Logs (runAgentCalls running calls) (·.putsBack = false) := by
  induction calls with
  | nil => exact .read
  | cons call calls ih =>
      refine .bind ?_ fun _ => .bind ih fun _ => .read
      cases call with
      | check result => exact .bind .read fun _ => .read
      | ensure => exact .bind logs_ensureAgent fun _ => .read
      | report => exact .bind logs_reportAgent fun _ => .read

theorem logs_placeWorkspace {name : String} {defaultCwd : Option String} :
    Logs (placeWorkspace isDir id name defaultCwd) (·.putsBack = false) :=
  .bind logs_createWorkspaceExact fun _ => .read

/-- Only a request that closes logs a record that puts back. -/
theorem logs_dispatch (h : request.closes = false) :
    Logs (dispatch isDir running request) (·.putsBack = false) := by
  have hguard : ∀ {expected : Option Nat} {workspaceId : String},
      Logs (guardWorkspace expected workspaceId) (·.putsBack = false) :=
    .reads fun _ => guardWorkspace_reads
  have hguard' : ∀ {k : Kind} {revision : k.Record → Nat} {expected : Option Nat} {id : String},
      Logs (guardMember k revision expected id) (·.putsBack = false) :=
    .reads fun _ => guardMember_reads
  have hrespond : ∀ {expected : Option Nat} {workspaceId : String},
      Logs (workspaceResponse expected workspaceId) (·.putsBack = false) :=
    .reads fun _ => workspaceResponse_reads
  have hrespond' : ∀ {k : Kind} {response : k.Record → Response} {expected : Option Nat}
      {id : String}, Logs (memberResponse k response expected id) (·.putsBack = false) :=
    .reads fun _ => memberResponse_reads
  cases request with
  | createWorkspace => exact .bind logs_createWorkspace fun _ => .read
  | openWorkspaceConversation workspaceId shellId plan =>
      refine .bind .read fun _ => .bind .read fun _ => .bind .read fun plan => ?_
      cases plan with
      | existing shell => exact .read
      | resume spec => exact .bind logs_createShellExact fun _ => .read
  | createWorkspaceShell =>
      exact .bind logs_placeWorkspace fun _ => .bind logs_createShellExact fun _ => .read
  | createWorkspaceLauncher =>
      exact .bind logs_placeWorkspace fun _ => .bind logs_createLauncherExact fun _ => .read
  | createShell => exact .bind logs_createShell fun _ => .read
  | createShellWithWorkspace =>
      exact .bind (.bind .read fun _ => logs_createWorkspace) fun _ => .read
  | createStartedShell =>
      exact .bind .read fun _ => .bind logs_createShell fun _ => .bind .read fun _ => .read
  | createLauncher => exact .bind logs_insertLauncher fun _ => .read
  | registerAgent => exact .bind logs_registerAgent fun _ => .read
  | ensureAgent => exact .bind logs_ensureAgent fun _ => .read
  | agentCalls calls => exact .bind (logs_runAgentCalls calls) fun _ => .read
  | reportAgent => exact .bind logs_reportAgent fun _ => .read
  | observeAgentWorkingContext => exact .bind logs_observeAgentWorkingContext fun _ => .read
  | acknowledgeAgentAttention => exact .bind logs_acknowledgeAgentAttention fun _ => .read
  | renameWorkspace =>
      exact .bind hguard fun _ => .bind logs_renameWorkspace fun _ => .bind hrespond fun _ => .read
  | setWorkspaceDefaultCwd =>
      exact .bind hguard fun _ => .bind logs_setWorkspaceDefaultCwd fun _ =>
        .bind hrespond fun _ => .read
  | renameShell =>
      exact .bind hguard' fun _ => .bind logs_renameShell fun _ => .bind hrespond' fun _ => .read
  | renameLauncher =>
      exact .bind hguard' fun _ => .bind logs_renameLauncher fun _ => .bind hrespond' fun _ => .read
  | removeLauncher => exact .bind hguard' fun _ => .bind logs_removeLauncher fun _ => .read
  | closeShell | closeWorkspace => cases h

end Logs

/-! ## What a log takes out -/

/-- The Workspaces that the undo of a record takes out. -/
def DurableUndo.createdWorkspaces : DurableUndo → List String
  | .createdWorkspace workspaceId _ => [workspaceId]
  | _ => []

/-- The Shells that the undo of a record takes out. -/
def DurableUndo.createdShells : DurableUndo → List String
  | .createdWorkspace _ shellIds => shellIds
  | .created .shell _ id => [id]
  | _ => []

section Created

variable {u : DurableUndo} {rest : DurableState} {log : List DurableUndo} {id : String}

/-- A record that puts nothing back takes out its own Shells and leaves the others where they
are. -/
theorem shells_apply (h : u.putsBack = false) :
    ((u.apply rest).shells.lookup id).map (·.workspaceId) =
      if id ∈ u.createdShells then none else (rest.shells.lookup id).map (·.workspaceId) := by
  cases u with
  | createdWorkspace workspaceId shellIds =>
      show (AList.lookup id (HashMap.eraseAll rest.shells shellIds)).map _ =
        if id ∈ shellIds then none else _
      rw [HashMap.get_eraseAll]
      split <;> rfl
  | created k workspaceId id' =>
      cases k with
      | shell =>
          show (AList.lookup id (AList.erase id' rest.shells)).map _ =
            if id ∈ [id'] then none else _
          rw [HashMap.get_erase]
          simp only [List.mem_singleton]
          split <;> rfl
      | launcher | agent => exact (if_neg List.not_mem_nil).symm
  | renamedWorkspace | setWorkspaceDefaultCwd | renamedLauncher | agentState =>
      exact (if_neg List.not_mem_nil).symm
  | renamedShell shellId previous previousRevision =>
      show (AList.lookup id (HashMap.modify rest.shells shellId _)).map _ =
        if id ∈ [] then none else _
      rw [HashMap.get_modify, if_neg List.not_mem_nil]
      split
      · rw [Option.map_map]
        rfl
      · rfl
  | removed k workspaceId record index =>
      cases k with
      | shell => cases h
      | launcher | agent => exact (if_neg List.not_mem_nil).symm
  | removedWorkspace => cases h

/-- The same for the Workspaces. -/
theorem workspaces_apply (h : u.putsBack = false) :
    ((u.apply rest).workspaces.lookup id).isSome =
      (decide (id ∉ u.createdWorkspaces) && (rest.workspaces.lookup id).isSome) := by
  have hmodify : ∀ (workspaceId : String) (f : Workspace → Workspace),
      (AList.lookup id (HashMap.modify rest.workspaces workspaceId f)).isSome =
        (decide (id ∉ ([] : List String)) && (rest.workspaces.lookup id).isSome) := by
    intro workspaceId f
    rw [HashMap.get_modify]
    split <;> simp
  have hmembers : ∀ (k : Kind) (m : HashMap String k.Record) (workspaceId : String)
      (f : Workspace → Workspace),
      (AList.lookup id ((rest.withMembers k m).modifyWorkspace workspaceId f).workspaces).isSome =
        (decide (id ∉ ([] : List String)) && (rest.workspaces.lookup id).isSome) := by
    intro k m workspaceId f
    unfold DurableState.modifyWorkspace
    rw [DurableState.workspaces_withWorkspaces, DurableState.workspaces_withMembers]
    exact hmodify workspaceId f
  cases u with
  | createdWorkspace workspaceId shellIds =>
      show (AList.lookup id (AList.erase workspaceId rest.workspaces)).isSome =
        (decide (id ∉ [workspaceId]) && _)
      rw [HashMap.get_erase]
      split
      next he => simp [he]
      next he => simp [he]
  | created k workspaceId id' => exact hmembers k _ workspaceId _
  | renamedWorkspace workspaceId | setWorkspaceDefaultCwd workspaceId => exact hmodify workspaceId _
  | renamedLauncher | agentState | renamedShell => exact (Bool.true_and _).symm
  | removed k workspaceId record index => exact hmembers k _ workspaceId _
  | removedWorkspace => cases h

/-- A log takes out the Shells of its records. -/
theorem shells_rollback (rest : DurableState) (id : String)
    (h : ∀ u ∈ log, u.putsBack = false) :
    ((undoing.rollback log rest).shells.lookup id).map (·.workspaceId) =
      if id ∈ log.flatMap (·.createdShells) then none
      else (rest.shells.lookup id).map (·.workspaceId) := by
  induction log generalizing rest with
  | nil => exact (if_neg List.not_mem_nil).symm
  | cons u log ih =>
      show ((undoing.rollback log (u.apply rest)).shells.lookup id).map _ = _
      rw [ih _ fun v hv => h v (List.mem_cons_of_mem _ hv), shells_apply (h u List.mem_cons_self)]
      simp only [List.flatMap_cons, List.mem_append]
      by_cases hu : id ∈ u.createdShells
      · simp [hu]
      · simp [hu]

theorem workspaces_rollback (rest : DurableState) (id : String)
    (h : ∀ u ∈ log, u.putsBack = false) :
    ((undoing.rollback log rest).workspaces.lookup id).isSome =
      (decide (id ∉ log.flatMap (·.createdWorkspaces)) && (rest.workspaces.lookup id).isSome) := by
  induction log generalizing rest with
  | nil => simp [Undoing.rollback]
  | cons u log ih =>
      show ((undoing.rollback log (u.apply rest)).workspaces.lookup id).isSome = _
      rw [ih _ fun v hv => h v (List.mem_cons_of_mem _ hv),
        workspaces_apply (h u List.mem_cons_self)]
      simp only [List.flatMap_cons, List.mem_append]
      by_cases hu : id ∈ u.createdWorkspaces
      · simp [hu]
      · simp [hu]

end Created

end Boomux.Registry
