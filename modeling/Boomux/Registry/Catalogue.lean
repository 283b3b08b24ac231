import Boomux.Registry.Requests
import Mathlib.Logic.Function.Basic

/-!
# The events and the registry

A client keeps a `Catalogue`: the names of the Workspaces, and of every Shell, launcher and agent
the Workspace that has it, with a name or the revision of its observation. Events edit a catalogue.
The events of a request say all that it does to the catalogue of the registry, and a request has a
log exactly when it has events (`dispatch_tells`).
-/

set_option autoImplicit false

namespace Boomux.Registry

open Rust Handoff Undo
open Daemon hiding ShellSpec ShellRun DurableMutation TerminalProfile
open Journal (ShellSpec)

/-! ## Catalogues -/

/-- What the events say of a record. -/
inductive Entry
  | named (name : String)
  | observed (revision : Nat)
  deriving DecidableEq, Repr

@[ext] structure Catalogue where
  workspaces : String → Option String
  members : Kind → String → Option (String × Entry)

def Kind.entry : (k : Kind) → k.Record → Entry
  | .shell, s => .named s.name
  | .launcher, l => .named l.name
  | .agent, a => .observed a.state.observation.revision

/-- The catalogue of a registry. -/
def DurableState.catalogue (d : DurableState) : Catalogue where
  workspaces id := (d.workspaces.lookup id).map (·.name)
  members k id := ((d.members k).lookup id).map fun r => (k.workspaceId r, k.entry r)

namespace Catalogue

variable (c : Catalogue)

def setWorkspace (id name : String) : Catalogue :=
  { c with workspaces := Function.update c.workspaces id (some name) }

def setMember (k : Kind) (id : String) (entry : Option (String × Entry)) : Catalogue :=
  { c with members := Function.update c.members k (Function.update (c.members k) id entry) }

/-- A Workspace goes with all that it has. -/
def closeWorkspace (id : String) : Catalogue where
  workspaces := Function.update c.workspaces id none
  members k j := (c.members k j).filter fun e => e.1 ≠ id

/-- What an event says. -/
def apply : DaemonEventKind → Catalogue
  | .workspaceCreated workspaceId name | .workspaceRenamed workspaceId name =>
      c.setWorkspace workspaceId name
  | .workspaceClosed workspaceId => c.closeWorkspace workspaceId
  | .shellCreated workspaceId shellId name | .shellRenamed workspaceId shellId name =>
      c.setMember .shell shellId (some (workspaceId, .named name))
  | .shellClosed _ shellId => c.setMember .shell shellId none
  | .launcherCreated workspaceId launcherId name | .launcherRenamed workspaceId launcherId name =>
      c.setMember .launcher launcherId (some (workspaceId, .named name))
  | .launcherRemoved _ launcherId => c.setMember .launcher launcherId none
  | .agentRegistered workspaceId _ agent | .agentStateChanged workspaceId _ agent
  | .agentCompleted workspaceId _ agent | .agentAttentionAcknowledged workspaceId _ agent
  | .agentWorkingContextObserved workspaceId _ agent =>
      c.setMember .agent agent.id (some (workspaceId, .observed agent.revision))
  | .workspaceDefaultCwdChanged .. | .runStarted .. | .outputChanged .. | .runExited ..
  | .agentSessionDisplayNameChanged .. | .agentSessionHidden .. | .nodeProjectionChanged ..
  | .focusedTerminalPresentationChanged | .handoffCompleted => c

/-- The catalogue after a list of events. -/
def after (kinds : List DaemonEventKind) : Catalogue := kinds.foldl apply c

theorem after_append (kinds kinds' : List DaemonEventKind) :
    c.after (kinds ++ kinds') = (c.after kinds).after kinds' := List.foldl_append

theorem members_setMember (k j : Kind) (id i : String) (entry : Option (String × Entry)) :
    (c.setMember k id entry).members j i = if j = k ∧ i = id then entry else c.members j i := by
  unfold setMember
  dsimp only
  by_cases hj : j = k
  · subst hj
    rw [Function.update_self, Function.update_apply]
    simp
  · rw [Function.update_of_ne hj, if_neg (fun h => hj h.1)]

theorem setMember_setMember (k : Kind) (id : String) (entry entry' : Option (String × Entry)) :
    (c.setMember k id entry).setMember k id entry' = c.setMember k id entry' := by
  ext1
  · rfl
  · funext j i
    rw [members_setMember, members_setMember, members_setMember]
    split
    next => rfl
    next => rfl

end Catalogue

/-! ## The changes -/

section Changes

variable {d : DurableState} {k : Kind} {w w' : Workspace} {r r' : k.Record} {id : String}

theorem catalogue_putWorkspace :
    (d.putWorkspace w).catalogue = d.catalogue.setWorkspace w.id w.name := by
  unfold DurableState.putWorkspace Catalogue.setWorkspace DurableState.catalogue
  ext1
  · funext i
    dsimp only
    rw [DurableState.workspaces_withWorkspaces, HashMap.get_insert, Function.update_apply]
    split <;> rfl
  · simp only [DurableState.members_withWorkspaces]

/-- The catalogue has nothing of a Workspace but its name. -/
theorem catalogue_editWorkspace (hw : d.workspaces.lookup w.id = some w) (hid : w'.id = w.id)
    (hname : w'.name = w.name) : (d.putWorkspace w').catalogue = d.catalogue := by
  rw [catalogue_putWorkspace, hid, hname]
  unfold Catalogue.setWorkspace
  ext1
  · refine Function.update_eq_self_iff.mpr ?_
    unfold DurableState.catalogue
    dsimp only
    rw [hw, Option.map_some]
  · rfl

theorem catalogue_putMember : (d.putMember k r).catalogue =
    d.catalogue.setMember k (k.id r) (some (k.workspaceId r, k.entry r)) := by
  unfold DurableState.putMember
  ext1
  · unfold DurableState.catalogue
    simp only [DurableState.workspaces_withMembers, Catalogue.setMember]
  · funext j i
    rw [Catalogue.members_setMember]
    unfold DurableState.catalogue
    dsimp only
    by_cases hj : j = k
    · subst hj
      rw [DurableState.members_withMembers, HashMap.get_insert]
      split
      next hi => rw [if_pos ⟨rfl, hi⟩, Option.map_some]
      next hi => rw [if_neg (fun h => hi h.2)]
    · rw [DurableState.members_withMembers_of_ne _ _ _ hj, if_neg (fun h => hj h.1)]

theorem catalogue_eraseMember : (d.withMembers k ((d.members k).erase id)).catalogue =
    d.catalogue.setMember k id none := by
  ext1
  · unfold DurableState.catalogue
    simp only [DurableState.workspaces_withMembers, Catalogue.setMember]
  · funext j i
    rw [Catalogue.members_setMember]
    unfold DurableState.catalogue
    dsimp only
    by_cases hj : j = k
    · subst hj
      rw [DurableState.members_withMembers, HashMap.get_erase]
      split
      next hi => rw [if_pos ⟨rfl, hi⟩, Option.map_none]
      next hi => rw [if_neg (fun h => hi h.2)]
    · rw [DurableState.members_withMembers_of_ne _ _ _ hj, if_neg (fun h => hj h.1)]

theorem catalogue_insertShells (shells : List Shell) :
    (d.withMembers .shell (HashMap.insertAll d.shells (shells.map fun s => (s.id, s)))).catalogue =
      d.catalogue.after (shells.map fun s => .shellCreated s.workspaceId s.id s.name) := by
  induction shells generalizing d with
  | nil => rfl
  | cons s shells ih =>
      have hput : (d.putMember .shell s).catalogue = d.catalogue.apply (shellCreated s) :=
        catalogue_putMember
      show _ = (d.catalogue.apply (shellCreated s)).after _
      rw [← hput, ← ih]
      rfl

theorem catalogue_closeWorkspace (h : Sound d) (hw : d.workspaces.lookup w.id = some w) :
    ((d.mapMembers fun k m => HashMap.eraseAll m (w.ids k)).withWorkspaces
      (d.workspaces.erase w.id)).catalogue = d.catalogue.closeWorkspace w.id := by
  unfold DurableState.catalogue Catalogue.closeWorkspace
  ext1
  · funext i
    dsimp only
    rw [DurableState.workspaces_withWorkspaces, HashMap.get_erase, Function.update_apply]
    split <;> rfl
  · funext j i
    dsimp only
    rw [DurableState.members_withWorkspaces, DurableState.members_mapMembers, HashMap.get_eraseAll]
    cases hi : (d.members j).lookup i with
    | none => simp
    | some r =>
        have howner : i ∈ w.ids j ↔ j.workspaceId r = w.id := by
          constructor
          · exact fun hmem => (h.members j).listed.owner_eq hw hmem hi
          · exact fun he => (h.members j).listed.mem (he ▸ hw) hi
        by_cases he : j.workspaceId r = w.id
        · rw [if_pos (howner.mpr he), Option.map_some, Option.filter_some,
            if_neg (by simpa using he),
            Option.map_none]
        · rw [if_neg (fun hmem => he (howner.mp hmem)), Option.map_some, Option.filter_some,
            if_pos (by simpa using he)]

end Changes

/-! ## What the events tell -/

/-- The events say what has become of the catalogue, and there are some exactly when something has
been logged. -/
structure Tells (d : DurableState) (kinds : List DaemonEventKind) (log : List DurableUndo)
    (d' : DurableState) : Prop where
  catalogue : d'.catalogue = d.catalogue.after kinds
  logged : log = [] ↔ kinds = []

section Tells

variable {d d' d'' : DurableState} {k : Kind} {w w' : Workspace} {r : k.Record} {id : String}
  {kinds kinds' : List DaemonEventKind} {log log' : List DurableUndo} {u : DurableUndo}

theorem Tells.refl : Tells d [] [] d := ⟨rfl, by simp⟩

theorem Tells.trans (h : Tells d kinds log d') (h' : Tells d' kinds' log' d'') :
    Tells d (kinds ++ kinds') (log' ++ log) d'' where
  catalogue := by rw [h'.catalogue, h.catalogue, Catalogue.after_append]
  logged := by
    rw [List.append_eq_nil_iff, List.append_eq_nil_iff, h.logged, h'.logged]
    exact And.comm

/-- One change with one event. -/
theorem Tells.one {kind : DaemonEventKind} (h : d'.catalogue = d.catalogue.apply kind) :
    Tells d [kind] [u] d' where
  catalogue := h
  logged := by simp

/-- A value is made of another, with the same events. -/
theorem tells_map {α β : Type} {x : Mutation α} {f : α → β} {events : β → List DaemonEventKind}
    (h : Ensures x d fun a log d' => Tells d (events (f a)) log d') :
    Ensures (x >>= fun a => pure (f a)) d fun b log d' => Tells d (events b) log d' :=
  .bind fun a ha => .pure (h a ha)

theorem tells_addMember {kind : DaemonEventKind} (hw : d.workspaces.lookup w.id = some w)
    (hkind : ∀ c : Catalogue,
      c.apply kind = c.setMember k (k.id r) (some (k.workspaceId r, k.entry r))) :
    Ensures (addMember k w r) d fun _ log d' => Tells d [kind] log d' := by
  have hput : (d.putMember k r).workspaces.lookup w.id = some w := by
    unfold DurableState.putMember
    rw [DurableState.workspaces_withMembers]
    exact hw
  intro _ hok
  unfold addMember at hok ⊢
  dsimp only at hok ⊢
  split at hok
  · cases hok
  next revision hrevision =>
    refine .one ?_
    rw [catalogue_editWorkspace hput (by simp) (by simp), catalogue_putMember, hkind]

theorem tells_takeMember {kind : DaemonEventKind} {index : Nat}
    (hw : d.workspaces.lookup w.id = some w)
    (hkind : ∀ c : Catalogue, c.apply kind = c.setMember k (k.id r) none) :
    Ensures (takeMember k w r index) d fun _ log d' => Tells d [kind] log d' := by
  have herase : (d.withMembers k ((d.members k).erase (k.id r))).workspaces.lookup w.id =
      some w := by
    rw [DurableState.workspaces_withMembers]
    exact hw
  intro _ hok
  unfold takeMember at hok ⊢
  dsimp only at hok ⊢
  split at hok
  · cases hok
  next revision hrevision =>
    refine .one ?_
    rw [catalogue_editWorkspace herase (by simp) (by simp), catalogue_eraseMember, hkind]

theorem tells_editMember {kind : DaemonEventKind}
    (hkind : ∀ c : Catalogue,
      c.apply kind = c.setMember k (k.id r) (some (k.workspaceId r, k.entry r))) :
    Ensures (editMember u k r) d fun _ log d' => Tells d [kind] log d' := by
  intro _ _
  refine .one ?_
  show (d.putMember k r).catalogue = _
  rw [catalogue_putMember, hkind]

theorem tells_editWorkspace {kind : DaemonEventKind}
    (hkind : d.catalogue.apply kind = d.catalogue.setWorkspace w.id w.name) :
    Ensures (editWorkspace u w) d fun _ log d' => Tells d [kind] log d' := by
  intro _ _
  refine .one ?_
  show (d.putWorkspace w).catalogue = _
  rw [catalogue_putWorkspace, hkind]

/-- The events of new Shells do not touch the Workspaces. -/
theorem after_shellsCreated (c : Catalogue) (name : String) (shells : List Shell) :
    (c.after (shells.map shellCreated)).setWorkspace id name =
      (c.setWorkspace id name).after (shells.map shellCreated) := by
  induction shells generalizing c with
  | nil => rfl
  | cons s shells ih => exact ih (c.apply (shellCreated s))

theorem tells_addWorkspace {shells : List Shell} (howner : ∀ s ∈ shells, s.workspaceId = w.id) :
    Ensures (addWorkspace w shells) d fun _ log d' =>
      Tells d (workspaceCreatedEvents w shells) log d' := by
  intro _ _
  have hevents : workspaceCreatedEvents w shells =
      .workspaceCreated w.id w.name :: shells.map shellCreated := by
    unfold workspaceCreatedEvents
    congr 1
    refine List.map_congr_left fun s hs => ?_
    rw [shellCreated, howner s hs]
  refine ⟨?_, by simp [addWorkspace, workspaceCreatedEvents]⟩
  show ((d.withMembers .shell _).putWorkspace w).catalogue = _
  rw [catalogue_putWorkspace, catalogue_insertShells, hevents]
  exact after_shellsCreated d.catalogue w.name shells

end Tells

/-! ## Looking up -/

section Lookups

variable {α β : Type} {d : DurableState} {id : String} {k : Kind}
  {Q : β → List DurableUndo → DurableState → Prop}

theorem ensures_workspace {f : Workspace → Mutation β} (h : Sound d)
    (hf : ∀ w, d.workspaces.lookup id = some w → w.id = id → Ensures (f w) d Q) :
    Ensures (workspace id >>= f) d Q :=
  .read_bind fun w hw => by
    have hget := find_eq_ok.mp (liftIo_eq_ok.mp hw)
    exact hf w hget (h.workspaces.valid hget).1

theorem ensures_member {f : k.Record → Mutation β} (h : Sound d)
    (hf : ∀ r, (d.members k).lookup id = some r → k.id r = id → Ensures (f r) d Q) :
    Ensures (member k id >>= f) d Q :=
  .read_bind fun r hr => by
    have hget := find_eq_ok.mp (liftIo_eq_ok.mp hr)
    exact hf r hget ((h.members k).valid hget).1

end Lookups

/-! ## The operations -/

section Operations

variable {isDir : String → Bool} {running : String → Option String} {d : DurableState}
  {id workspaceId name : String} {defaultCwd : Option String} {spec : ShellSpec}
  {specs : List (String × ShellSpec)} {launcherSpec : WorkspaceLauncherSpec}

theorem tells_createWorkspace :
    Ensures (createWorkspace isDir id name defaultCwd specs) d fun created log d' =>
      Tells d (workspaceCreatedEvents created.1 created.2) log d' := by
  refine .read_bind fun _ _ => .read_bind fun _ _ => .read_bind fun _ _ =>
    .read_bind fun shells hshells => .read_bind fun _ _ => ?_
  obtain ⟨rfl, -⟩ := mapM_createPendingShell (liftIo_eq_ok.mp hshells)
  refine tells_map (f := fun _ => (_, _)) (tells_addWorkspace fun s hs => ?_)
  obtain ⟨p, -, rfl⟩ := List.mem_map.mp hs
  rfl

theorem tells_createShellWithWorkspace :
    Ensures (createShellWithWorkspace isDir workspaceId id spec) d fun created log d' =>
      Tells d (workspaceCreatedEvents created.1 created.2) log d' :=
  .read_bind fun _ _ => tells_createWorkspace

theorem tells_createWorkspaceExact :
    Ensures (createWorkspaceExact isDir id name defaultCwd) d fun placed log d' =>
      Tells d (if placed.2 then [.workspaceCreated placed.1.id placed.1.name] else []) log d' := by
  refine .read_bind fun _ _ => .read_bind fun _ _ => .read_bind fun _ _ =>
    .read_bind fun found _ => ?_
  cases found with
  | some existing => exact .read_bind fun _ _ => .pure .refl
  | none =>
      refine .read_bind fun _ _ => ?_
      refine .bind fun _ hadd => .pure ?_
      exact tells_addWorkspace (fun s hs => absurd hs List.not_mem_nil) _ hadd

theorem tells_insertShell {w : Workspace} {shell : Shell}
    (hw : d.workspaces.lookup w.id = some w) :
    Ensures (insertShell w shell) d fun _ log d' => Tells d [shellCreated shell] log d' :=
  .read_bind fun _ _ => tells_addMember (k := .shell) hw fun _ => rfl

theorem tells_createShell (h : Sound d) :
    Ensures (createShell isDir id workspaceId spec) d fun shell log d' =>
      Tells d [shellCreated shell] log d' := by
  refine ensures_workspace h fun w hw hid => .read_bind fun shell _ => ?_
  subst hid
  exact .bind fun _ hadd => .pure (tells_insertShell hw _ hadd)

theorem tells_createShellExact (h : Sound d) :
    Ensures (createShellExact isDir workspaceId id spec) d fun created log d' =>
      Tells d (if created.2 then [shellCreated created.1] else []) log d' := by
  refine .read_bind fun _ _ => .read_bind fun found _ => ?_
  cases found with
  | some existing => exact .read_bind fun _ _ => .pure .refl
  | none =>
      refine ensures_workspace h fun w hw hid => .read_bind fun shell _ => ?_
      subst hid
      exact .bind fun _ hadd => .pure (tells_insertShell hw _ hadd)

theorem tells_insertLauncher (h : Sound d) :
    Ensures (insertLauncher isDir workspaceId id launcherSpec) d fun launcher log d' =>
      Tells d [launcherCreated launcher] log d' := by
  refine .read_bind fun _ _ => ensures_workspace h fun w hw hid => .read_bind fun _ _ => ?_
  subst hid
  exact .bind fun _ hadd => .pure (tells_addMember (k := .launcher) hw (fun _ => rfl) _ hadd)

theorem tells_createLauncherExact (h : Sound d) :
    Ensures (createLauncherExact isDir workspaceId id launcherSpec) d fun created log d' =>
      Tells d (if created.2 then [launcherCreated created.1] else []) log d' := by
  refine .read_bind fun _ _ => .read_bind fun found _ => ?_
  cases found with
  | some existing => exact .read_bind fun _ _ => .pure .refl
  | none => exact .bind fun launcher hcreate => .pure (tells_insertLauncher h launcher hcreate)

theorem tells_setWorkspaceDefaultCwd {cwd : String} (h : Sound d) :
    Ensures (setWorkspaceDefaultCwd isDir id cwd) d fun edited log d' =>
      Tells d (edited.toList.map fun w => .workspaceDefaultCwdChanged w.id cwd) log d' := by
  refine .read_bind fun _ _ => ensures_workspace h fun w hw hid => ?_
  subst hid
  split
  · exact .pure .refl
  · refine .read_bind fun revision _ => .bind fun _ hedit => .pure ?_
    refine tells_editWorkspace ?_ _ hedit
    -- the catalogue does not have the directory
    rw [← catalogue_putWorkspace, catalogue_editWorkspace hw]
    · rfl
    · rfl
    · rfl

theorem tells_renameWorkspace (h : Sound d) :
    Ensures (renameWorkspace id name) d fun renamed log d' =>
      Tells d (renamed.toList.map fun w => .workspaceRenamed w.id w.name) log d' := by
  refine .read_bind fun _ _ => ensures_workspace h fun w hw hid => .read_bind fun _ _ => ?_
  split
  · exact .pure .refl
  · exact .read_bind fun revision _ => .bind fun _ hedit =>
      .pure (tells_editWorkspace rfl _ hedit)

theorem tells_renameShell :
    Ensures (renameShell id name) d fun renamed log d' =>
      Tells d (renamed.toList.map fun s => .shellRenamed s.workspaceId s.id s.name) log d' := by
  refine .read_bind fun _ _ => .read_bind fun shell _ => .read_bind fun _ _ =>
    .read_bind fun _ _ => ?_
  split
  · exact .pure .refl
  · exact .read_bind fun revision _ => .bind fun _ hedit =>
      .pure (tells_editMember (k := .shell) (fun _ => rfl) _ hedit)

theorem tells_renameLauncher :
    Ensures (renameLauncher id name) d fun renamed log d' =>
      Tells d (renamed.toList.map fun l => .launcherRenamed l.workspaceId l.id l.name) log d' := by
  refine .read_bind fun _ _ => .read_bind fun launcher _ => .read_bind fun _ _ =>
    .read_bind fun _ _ => ?_
  split
  · exact .pure .refl
  · exact .read_bind fun revision _ => .bind fun _ hedit =>
      .pure (tells_editMember (k := .launcher) (fun _ => rfl) _ hedit)

theorem tells_removeMember {k : Kind} (kind : k.Record → DaemonEventKind) (h : Sound d)
    (hkind : ∀ (r : k.Record) (c : Catalogue), k.id r = id →
      c.apply (kind r) = c.setMember k id none) :
    Ensures (removeMember k id) d fun removed log d' => Tells d [kind removed] log d' := by
  refine ensures_member h fun r hr hid => ensures_workspace h fun w hw hwid =>
    .read_bind fun index _ => .bind fun _ htake => .pure ?_
  refine tells_takeMember (hwid ▸ hw) (fun c => ?_) _ htake
  rw [hkind r c hid, hid]

theorem tells_removeWorkspace (h : Sound d) :
    Ensures (removeWorkspace id) d fun _ log d' => Tells d [.workspaceClosed id] log d' := by
  refine ensures_workspace h fun w hw hid => ?_
  subst hid
  exact fun _ _ => .one (catalogue_closeWorkspace h hw)

end Operations

/-! ## Agents -/

section Agents

variable {running : String → Option String} {d : DurableState} {id shellId runId : String}
  {millis : Nat} {spec : AgentRegistrationSpec}

theorem tells_registerAgent (h : Sound d) :
    Ensures (registerAgent running id millis shellId runId spec) d fun agent log d' =>
      Tells d [agentRegistered agent] log d' := by
  refine .read_bind fun _ _ => .read_bind fun _ _ => .read_bind fun shell _ =>
    ensures_workspace h fun w hw hid => .read_bind fun _ _ => .bind fun _ hadd => .pure ?_
  exact tells_addMember (k := .agent) (hid ▸ hw) (fun _ => rfl) _ hadd

theorem tells_ensureAgent (h : Sound d) :
    Ensures (ensureAgent running id millis shellId runId spec) d fun ensured log d' =>
      Tells d (if ensured.2 then [agentRegistered ensured.1] else []) log d' := by
  refine .read_bind fun _ _ => .read_bind fun _ _ => .read_bind fun _ _ =>
    .read_bind fun found _ => ?_
  cases found with
  | some agent => exact .pure .refl
  | none => exact .bind fun agent hregister => .pure (tells_registerAgent h agent hregister)

/-- An agent that is done when it is registered has a second event, which tells the same. -/
theorem Tells.registered {agent : AgentInstance} {log : List DurableUndo} {d' : DurableState}
    (h : Tells d [agentRegistered agent] log d') :
    Tells d (agentRegisteredEvents agent) log d' where
  catalogue := by
    unfold agentRegisteredEvents
    rw [h.catalogue]
    split
    · exact (Catalogue.setMember_setMember _ _ _ _ _).symm
    · rfl
  logged := by
    rw [h.logged]
    simp [agentRegisteredEvents]

theorem apply_agentReported (c : Catalogue) (agent : AgentInstance) (completed : Bool) :
    c.apply (agentReported agent completed) =
      c.setMember .agent agent.id (some (agent.workspaceId, Kind.entry .agent agent)) := by
  cases completed <;> rfl

theorem tells_reportAgent {report : AgentReport} :
    Ensures (reportAgent millis id runId report) d fun reported log d' =>
      Tells d (if reported.2.changed then [agentReported reported.1 reported.2.completed] else [])
        log d' := by
  refine .read_bind fun _ _ => .read_bind fun _ _ => .read_bind fun agent _ =>
    .read_bind fun _ _ => .read_bind fun outcome _ => ?_
  split
  next hchanged =>
    refine .bind fun _ hedit => .pure ?_
    rw [if_pos hchanged]
    exact tells_editMember (k := .agent) (fun c => apply_agentReported c _ _) _ hedit
  next hchanged =>
    refine .pure ?_
    rw [if_neg hchanged]
    exact .refl

theorem tells_observeAgentWorkingContext {context : AgentWorkingContextSnapshot} :
    Ensures (observeAgentWorkingContext running millis id shellId runId context) d
      fun observed log d' => Tells d (if observed.2 then
        [.agentWorkingContextObserved observed.1.workspaceId observed.1.shellId observed.1.snapshot]
          else []) log d' := by
  refine .read_bind fun _ _ => .read_bind fun agent _ => .read_bind fun _ _ =>
    .read_bind fun _ _ => .read_bind fun _ _ => .read_bind fun _ _ => ?_
  dsimp only
  split
  · exact .bind fun _ hedit =>
      .pure (tells_editMember (k := .agent) (fun _ => rfl) _ hedit)
  · exact .pure .refl

theorem tells_acknowledgeAgentAttention {revision : Nat} :
    Ensures (acknowledgeAgentAttention id revision) d fun acknowledged log d' =>
      Tells d (if acknowledged.2 then
        [.agentAttentionAcknowledged acknowledged.1.workspaceId acknowledged.1.shellId
          acknowledged.1.snapshot] else []) log d' := by
  refine .read_bind fun agent _ => .read_bind fun acknowledged _ => ?_
  split
  · exact .bind fun _ hedit =>
      .pure (tells_editMember (k := .agent) (fun _ => rfl) _ hedit)
  · exact .pure .refl

end Agents

/-! ## The closures -/

/-- The events of a closure's value. -/
def DurableMutation.kinds {α : Type} : DurableMutation α → List DaemonEventKind
  | .changed _ kinds => kinds
  | .unchanged _ => []

theorem kinds_ofEvents {α : Type} (value : α) (kinds : List DaemonEventKind) :
    (DurableMutation.ofEvents value kinds).kinds = kinds := by
  unfold DurableMutation.ofEvents
  split
  next h => exact (List.isEmpty_iff.mp h).symm
  next => rfl

section Closures

variable {isDir : String → Bool} {running : String → Option String} {d : DurableState}
  {request : Request}

theorem tells_runAgentCalls {calls : List AgentCall} (h : Sound d)
    (hfresh : freshCalls running calls d = true)
    (hrun : ∀ shellId runId, running shellId = some runId → uuidParses runId = true) :
    Ensures (runAgentCalls running calls) d fun kinds log d' => Tells d kinds log d' := by
  induction calls generalizing d with
  | nil => exact .pure .refl
  | cons call calls ih =>
      have hcall : Ensures (runAgentCall running call) d fun kinds log d' =>
          Tells d kinds log d' := by
        cases call with
        | check result => exact .read_bind fun _ _ => .pure .refl
        | ensure id millis shellId runId spec =>
            exact .bind fun ensured hensure => .pure (tells_ensureAgent h ensured hensure)
        | report millis agentId runId report =>
            exact .bind fun reported hreport => .pure (tells_reportAgent reported hreport)
      unfold freshCalls at hfresh
      rw [Bool.and_eq_true] at hfresh
      have hsound : Sound (runAgentCall running call d).state :=
        (runAgentCall_fine h hfresh.1 hrun).kept
      exact .bind fun kinds hkinds => .bind fun rest hrest =>
        .pure ((hcall kinds hkinds).trans (ih hsound hfresh.2 rest hrest))

theorem tells_placeWorkspace {workspaceId name : String} {defaultCwd : Option String} :
    Ensures (placeWorkspace isDir workspaceId name defaultCwd) d fun kinds log d' =>
      Tells d kinds log d' :=
  .bind fun placed hplace => .pure (tells_createWorkspaceExact placed hplace)

/-- A guard, an edit and a response. -/
theorem tells_guarded {α : Type} {guard : Mutation Unit} {edit : Mutation α}
    {respond : Mutation Response} {events : α → List DaemonEventKind}
    (hguard : Reads guard d)
    (hedit : Ensures edit d fun a log d' => Tells d (events a) log d')
    (hrespond : ∀ d, Reads respond d) :
    Ensures (guard >>= fun _ => edit >>= fun a => respond >>= fun r =>
      pure (DurableMutation.ofEvents r (events a))) d fun m log d' => Tells d m.kinds log d' :=
  hguard.ensures_bind fun _ _ => .bind fun a ha =>
    (hrespond _).ensures_bind fun r _ => .pure <| by
      rw [kinds_ofEvents]
      exact hedit a ha

/-- The events of a request tell what it does to the catalogue of the registry. -/
theorem dispatch_tells (h : Sound d) (hfresh : request.fresh running d = true)
    (hrun : ∀ shellId runId, running shellId = some runId → uuidParses runId = true) :
    Ensures (dispatch isDir running request) d fun m log d' => Tells d m.kinds log d' := by
  cases request with
  -- The entities that are made are announced by the calls that make them.
  | createWorkspace =>
      exact .bind fun created hcreate => .pure (tells_createWorkspace created hcreate)
  | openWorkspaceConversation workspaceId shellId plan =>
      refine .read_bind fun _ _ => .read_bind fun _ _ => .read_bind fun plan _ => ?_
      cases plan with
      | existing shell => exact .pure .refl
      | resume spec =>
          refine .bind fun created hcreate => .pure ?_
          rw [kinds_ofEvents]
          exact tells_createShellExact h created hcreate
  | createWorkspaceShell workspaceId name defaultCwd shellId spec =>
      have hplace : Fine (placeWorkspace isDir workspaceId name defaultCwd) d :=
        placeWorkspace_fine h
      refine .bind fun placed hplaced => .bind fun created hcreate => .pure ?_
      rw [kinds_ofEvents]
      -- The Workspace is announced before its member.
      exact (tells_placeWorkspace placed hplaced).trans
        (tells_createShellExact hplace.kept created hcreate)
  | createWorkspaceLauncher workspaceId name defaultCwd launcherId spec =>
      have hplace : Fine (placeWorkspace isDir workspaceId name defaultCwd) d :=
        placeWorkspace_fine h
      refine .bind fun placed hplaced => .bind fun created hcreate => .pure ?_
      rw [kinds_ofEvents]
      exact (tells_placeWorkspace placed hplaced).trans
        (tells_createLauncherExact hplace.kept created hcreate)
  | createShell => exact .bind fun shell hcreate => .pure (tells_createShell h shell hcreate)
  | createShellWithWorkspace =>
      exact .bind fun created hcreate => .pure (tells_createShellWithWorkspace created hcreate)
  | createStartedShell =>
      refine .read_bind fun _ _ => .bind fun shell hcreate => .read_bind fun _ _ => .pure ?_
      have htells := tells_createShell h shell hcreate
      exact ⟨htells.catalogue, by rw [List.nil_append, htells.logged]; simp [DurableMutation.kinds]⟩
  | createLauncher =>
      exact .bind fun launcher hcreate => .pure (tells_insertLauncher h launcher hcreate)
  | registerAgent =>
      exact .bind fun agent hregister => .pure (tells_registerAgent h agent hregister).registered
  | ensureAgent =>
      refine .bind fun ensured hensure => .pure ?_
      rw [kinds_ofEvents]
      have htells : Tells d (if ensured.2 then [agentRegistered ensured.1] else []) _ _ :=
        tells_ensureAgent h ensured hensure
      -- An Agent that was there already is not registered once more.
      split
      next hnew =>
        rw [if_pos hnew] at htells
        exact htells.registered
      next hold =>
        rw [if_neg hold] at htells
        exact htells
  | agentCalls calls =>
      refine .bind fun kinds hcalls => .pure ?_
      rw [kinds_ofEvents]
      exact tells_runAgentCalls h hfresh hrun kinds hcalls
  | reportAgent =>
      refine .bind fun reported hreport => .pure ?_
      rw [kinds_ofEvents]
      exact tells_reportAgent reported hreport
  | observeAgentWorkingContext =>
      refine .bind fun observed hobserve => .pure ?_
      rw [kinds_ofEvents]
      exact tells_observeAgentWorkingContext observed hobserve
  | acknowledgeAgentAttention =>
      refine .bind fun acknowledged hacknowledge => .pure ?_
      rw [kinds_ofEvents]
      exact tells_acknowledgeAgentAttention acknowledged hacknowledge
  -- The guards and the answers only read.
  | renameWorkspace =>
      exact tells_guarded guardWorkspace_reads (tells_renameWorkspace h) fun _ =>
        workspaceResponse_reads
  | setWorkspaceDefaultCwd =>
      exact tells_guarded guardWorkspace_reads (tells_setWorkspaceDefaultCwd h) fun _ =>
        workspaceResponse_reads
  | renameShell =>
      exact tells_guarded guardMember_reads tells_renameShell fun _ => memberResponse_reads
  | renameLauncher =>
      exact tells_guarded guardMember_reads tells_renameLauncher fun _ => memberResponse_reads
  -- The removals announce the entities under the names these had.
  | removeLauncher launcherId expected =>
      refine guardMember_reads.ensures_bind fun _ _ => .bind fun removed hremove => .pure ?_
      exact tells_removeMember (k := .launcher)
        (fun l : WorkspaceLauncher => .launcherRemoved l.workspaceId launcherId) h
        (fun _ _ _ => rfl) removed hremove
  | closeShell shellId expected =>
      refine guardMember_reads.ensures_bind fun _ _ => .bind fun removed hremove => .pure ?_
      exact tells_removeMember (k := .shell)
        (fun s : Shell => .shellClosed (some s.workspaceId) shellId) h
        (fun _ _ _ => rfl) removed hremove
  | closeWorkspace workspaceId expected =>
      refine guardWorkspace_reads.ensures_bind fun _ _ => .bind fun _ hremove => .pure ?_
      exact tells_removeWorkspace h _ hremove

end Closures

end Boomux.Registry
