import Boomux.Daemon.Stream

/-!
# The durable registry and the state of the daemon

What the transactions of the daemon share: the registry with its dirty flag, the events, the
PTY readers, and where the holder of the mutation lock and a running flush are. The mutation
lock is held exactly when `holder` is not `free`; the persist lock is held exactly when a flush
runs or the holder is in a `window`.

The fields of `World` after `flush` are not in the source and decide nothing. They number the
transitions of the registry and record what became of each. Nor are the `edits` of the registry and
of a captured state: they say by which changes it has become what it is.
-/

set_option autoImplicit false

namespace Boomux.Daemon

open Rust

variable {R : Type}

/-! ## The registry -/

/-- The `HashMap` of the Shells, by id. -/
abbrev Shells : Type := AList fun _ : String => Shell

/-- `HashMap::get`. -/
def Shells.get (m : Shells) (id : String) : Option Shell := m.lookup id

@[simp] theorem Shells.get_insert (m : Shells) (id : String) (shell : Shell) (k : String) :
    Shells.get (m.insert id shell) k = if k = id then some shell else m.get k := by
  unfold Shells.get
  split
  next h => rw [h, AList.lookup_insert]
  next h => exact AList.lookup_insert_ne h

@[simp] theorem Shells.get_erase (m : Shells) (id k : String) :
    Shells.get (m.erase id) k = if k = id then none else m.get k := by
  unfold Shells.get
  split
  next h => rw [h, AList.lookup_erase]
  next h => exact AList.lookup_erase_ne h

/-- The content of the registry. `rest` is what no transaction here looks at: names, revisions,
launchers, agents. -/
structure Durable (R : Type) where
  workspaces : List String
  shells : Shells
  rest : R

/-! ## Durable mutations -/

/-- A run that a mutation starts: `shellId` becomes running, with a paused reader. -/
structure StartedRun where
  shellId : String
  workspaceId : String
  runId : String
  deriving DecidableEq, Repr

/-- The events that `durable_mutation_outcome` is given: none of them ends a run or reports
output. -/
def DaemonEventKind.ofMutation : DaemonEventKind → Bool
  | .workspaceClosed _ | .shellClosed .. | .outputChanged .. | .runExited .. => false
  | _ => true

/-- `DurableMutation`. -/
inductive DurableMutation
  | changed (kinds : List DaemonEventKind)
  | unchanged

/-- What the closure of `durable_mutation_outcome` leaves: the registry, the undo log, the runs
it started, and its value (`none` is an error). -/
structure OperationOutcome (R : Type) where
  state : Durable R
  undo : List (Durable R → Durable R)
  started : List StartedRun
  result : Option DurableMutation

/-- The Shells that are running, as the registry has them. -/
def Durable.Runs (d : Durable R) (id : String) (shell : Shell) (run : ShellRun) : Prop :=
  d.shells.get id = some shell ∧ shell.running? = some run

/-- An undo brings back nothing but Shells and Workspaces that `d` has. -/
structure Restores (d : Durable R) (undo : Durable R → Durable R) : Prop where
  shells : ∀ now id shell, (undo now).shells.get id = some shell →
    ∃ old, (now.shells.get id = some old ∨ d.shells.get id = some old) ∧
      old.workspaceId = shell.workspaceId
  workspaces : ∀ now, ∀ ws ∈ (undo now).workspaces, ws ∈ now.workspaces ∨ ws ∈ d.workspaces

/-- A closure that `durable_mutation_outcome` is called with. Whatever it does to the registry,
it leaves the running Shells alone, creates Shells only in Workspaces and starts only the runs it
names; its undo leaves alone the running Shells that were there before. -/
structure Operation (R : Type) where
  run : Durable R → OperationOutcome R
  created : ∀ d id shell, (run d).state.shells.get id = some shell →
    (∃ old, d.shells.get id = some old ∧ old.workspaceId = shell.workspaceId) ∨
      (d.shells.get id = none ∧ shell.workspaceId ∈ (run d).state.workspaces)
  kinds : ∀ d kinds, (run d).result = some (.changed kinds) → ∀ kind ∈ kinds, kind.ofMutation
  kept : ∀ d id shell r, d.Runs id shell r → (run d).state.Runs id shell r
  running : ∀ d id shell r, (run d).state.Runs id shell r → d.Runs id shell r ∨
    ⟨id, shell.workspaceId, r.id⟩ ∈ (run d).started
  started : ∀ d s, s ∈ (run d).started →
    ∃ shell r, (run d).state.Runs s.shellId shell r ∧ shell.workspaceId = s.workspaceId ∧
      r.id = s.runId
  reported : ∀ d kinds s, (run d).result = some (.changed kinds) → s ∈ (run d).started →
    ∃ r : ShellRun, r.id = s.runId ∧ .runStarted s.workspaceId s.shellId r ∈ kinds
  undone : ∀ d undo d' id shell r, undo ∈ (run d).undo → (undo d').Runs id shell r →
    d'.Runs id shell r
  spared : ∀ d undo d' id shell r, undo ∈ (run d).undo → d'.Runs id shell r →
    (d.shells.get id).isSome → (undo d').Runs id shell r
  restored : ∀ d undo, undo ∈ (run d).undo → Restores d undo

/-- An operation that edits only `rest`, and undoes that: a rename. -/
def Operation.editRest (edit : R → R) (kinds : List DaemonEventKind)
    (hk : ∀ kind ∈ kinds, kind.ofMutation = true) : Operation R where
  run d := ⟨{ d with rest := edit d.rest }, [fun now => { now with rest := d.rest }], [],
    some (.changed kinds)⟩
  created _ _ shell h := .inl ⟨shell, h, rfl⟩
  kinds _ _ h := by
    cases h
    exact hk
  kept _ _ _ _ h := h
  running _ _ _ _ h := .inl h
  started _ _ h := by cases h
  reported _ _ _ _ h := by cases h
  undone _ _ _ _ _ _ hu h := by
    rw [List.mem_singleton.mp hu] at h
    exact h
  spared _ _ _ _ _ _ hu h _ := by
    rw [List.mem_singleton.mp hu]
    exact h
  restored _ _ hu := by
    rw [List.mem_singleton.mp hu]
    exact ⟨fun _ _ shell h => ⟨shell, .inl h, rfl⟩, fun _ _ h => .inl h⟩

/-- `DurableUndoLog::rollback`: newest first. -/
def rollback (undo : List (Durable R → Durable R)) (d : Durable R) : Durable R :=
  undo.reverse.foldl (fun d undo => undo d) d

/-! ## Lifecycle transactions -/

/-- The callers of `lifecycle_transaction`. `detach` is what the removal does to the rest of the
registry. -/
inductive LifecycleCall (R : Type)
  | closeShell (shellId : String) (detach : R → R)
  | closeWorkspace (workspaceId : String) (detach : R → R)
  | shutdown

/-- The Shells of a Workspace. -/
def Durable.workspaceShells (d : Durable R) (workspaceId : String) : List String :=
  d.shells.keys.filter fun id =>
    (d.shells.get id).any fun shell => shell.workspaceId = workspaceId

/-- `select_shells`. -/
def LifecycleCall.selectShells (d : Durable R) : LifecycleCall R → Option (List String)
  | .closeShell shellId _ => if (d.shells.get shellId).isSome then some [shellId] else none
  | .closeWorkspace workspaceId _ =>
      if workspaceId ∈ d.workspaces then some (d.workspaceShells workspaceId) else none
  | .shutdown => some d.shells.keys

/-- `committed_events`. -/
def LifecycleCall.committedEvents (d : Durable R) (shells : List String) :
    LifecycleCall R → List DaemonEventKind
  | .closeShell shellId _ =>
      [.shellClosed ((shells.head?.bind d.shells.get).map (·.workspaceId)) shellId]
  | .closeWorkspace workspaceId _ => [.workspaceClosed workspaceId]
  | .shutdown => []

theorem get_foldl_erase (m : Shells) (ids : List String) (k : String) :
    Shells.get (ids.foldl (fun m id => m.erase id) m) k = if k ∈ ids then none else m.get k := by
  induction ids generalizing m with
  | nil => simp
  | cons id ids ih =>
      rw [List.foldl_cons, ih, Shells.get_erase]
      by_cases hk : k = id
      · simp [hk]
      · simp [hk]

/-- Putting removed Shells back. -/
def reinsert (before now : Durable R) (shells : List String) : Shells :=
  shells.foldl (fun m id =>
    match before.shells.get id with
    | some shell => m.insert id shell
    | none => m) now.shells

theorem get_reinsert (before now : Durable R) (shells : List String) (k : String) :
    (reinsert before now shells).get k =
      if k ∈ shells ∧ (before.shells.get k).isSome then before.shells.get k
      else now.shells.get k := by
  unfold reinsert
  generalize now.shells = m
  induction shells generalizing m with
  | nil => simp
  | cons id shells ih =>
      rw [List.foldl_cons, ih]
      by_cases hk : k = id
      · subst hk
        cases hget : before.shells.get k with
        | none => simp
        | some shell => simp
      · cases hget : before.shells.get id with
        | none => simp [hk]
        | some shell => simp [hk]

/-- `durable_apply`: `remove_shell_mutation` and `remove_workspace_mutation`, with their undo. -/
def LifecycleCall.durableApply (d : Durable R) (shells : List String) :
    LifecycleCall R → Durable R × List (Durable R → Durable R)
  | .closeShell shellId detach =>
      ({ d with shells := d.shells.erase shellId, rest := detach d.rest },
        [fun now => { workspaces := d.workspaces, shells := reinsert d now [shellId],
                      rest := d.rest }])
  | .closeWorkspace workspaceId detach =>
      ({ workspaces := d.workspaces.filter (· ≠ workspaceId)
         shells := shells.foldl (fun m id => m.erase id) d.shells
         rest := detach d.rest },
        [fun now => { workspaces := d.workspaces, shells := reinsert d now shells,
                      rest := d.rest }])
  | .shutdown => (d, [])

/-- Whether the call stops the daemon. -/
def LifecycleCall.stopping : LifecycleCall R → Bool
  | .shutdown => true
  | _ => false

/-- The `finalize_stop` loop: the registry and the rollbacks, in order. -/
def finalizeAll (m : Shells) :
    List String → Shells × List (String × StopRollback)
  | [] => (m, [])
  | id :: ids =>
      match m.get id with
      | none => finalizeAll m ids
      | some shell =>
          let (stopped, rollback) := finalizeStop id shell
          let (m, rollbacks) := finalizeAll (m.insert id stopped) ids
          (m, (id, rollback) :: rollbacks)

/-- The loop of `restore_finalized_locked`. -/
def restoreAll (m : Shells) :
    List (String × StopRollback) → Shells × List DaemonEventKind
  | [] => (m, [])
  | (id, rollback) :: rollbacks =>
      let restored := match m.get id with
        | some shell => m.insert id (restoreStopped shell rollback)
        | none => m
      let (m, events) := restoreAll restored rollbacks
      (m, rollback.event.toList ++ events)

/-- The loop of `compensate_stopped_locked`. -/
def compensateAll (m : Shells) :
    List String → Shells × List DaemonEventKind
  | [] => (m, [])
  | id :: ids =>
      match m.get id with
      | none => compensateAll m ids
      | some shell =>
          let (restored, event) := compensateStopped id shell
          let (m, events) := compensateAll (m.insert id restored) ids
          (m, event.toList ++ events)

/-! ## The edits of the registry -/

/-- `try_record_run_exit` on the registry: the Shell whose run is the one that has ended. -/
def Durable.recordExit (shellId runId : String) (code : Option Nat) (d : Durable R) : Durable R :=
  match (d.shells.get shellId).bind fun shell => finalizeRunExit shellId shell runId code with
  | some (shell, _) => { d with shells := d.shells.insert shellId shell }
  | none => d

theorem recordExit_eq {d : Durable R} {shellId runId : String} {code : Option Nat} {shell : Shell}
    {event : DaemonEventKind}
    (h : (d.shells.get shellId).bind (fun shell => finalizeRunExit shellId shell runId code) =
      some (shell, event)) :
    d.recordExit shellId runId code = { d with shells := d.shells.insert shellId shell } := by
  rw [Durable.recordExit, h]

/-- What a transition does to the registry. -/
inductive Mutation (R : Type)
  /-- The closure of a durable mutation. -/
  | operation (op : Operation R)
  /-- `try_record_run_exit`. -/
  | runExit (shellId runId : String) (code : Option Nat)
  /-- `lifecycle_transaction`: the stops and then the removal. -/
  | lifecycle (call : LifecycleCall R) (shells : List String)
  /-- `restore_finalized_locked`. -/
  | restore (rollbacks : List (String × StopRollback))
  /-- `compensate_stopped_locked`. -/
  | compensate (shells : List String)

/-- The registry that the mutation leaves. -/
def Mutation.apply (d : Durable R) : Mutation R → Durable R
  | .operation op => (op.run d).state
  | .runExit shellId runId code => d.recordExit shellId runId code
  | .lifecycle call shells =>
      (call.durableApply { d with shells := (finalizeAll d.shells shells).1 } shells).1
  | .restore rollbacks => { d with shells := (restoreAll d.shells rollbacks).1 }
  | .compensate shells => { d with shells := (compensateAll d.shells shells).1 }

/-- A change of the registry. -/
inductive Edit (R : Type)
  /-- The mutation of transition `n`. -/
  | transition (n : Nat) (mutation : Mutation R)
  /-- The mutation of transition `n` is rolled back. -/
  | rolledBack (n : Nat) (undo : List (Durable R → Durable R))
  /-- A change that no batch reports. -/
  | silent (change : Durable R → Durable R)

def Edit.apply (d : Durable R) : Edit R → Durable R
  | .transition _ mutation => mutation.apply d
  | .rolledBack _ undo => rollback undo d
  | .silent change => change d

/-- The registry that edits make of `d`. -/
def replay (d : Durable R) (edits : List (Edit R)) : Durable R := edits.foldl Edit.apply d

/-- The transitions of the edits, without those that were rolled back. -/
def transitions (edits : List (Edit R)) : List Nat :=
  edits.foldl (fun ns edit =>
    match edit with
    | .transition n _ => ns ++ [n]
    | .rolledBack n _ => ns.filter (· ≠ n)
    | .silent _ => ns) []

section Edits

variable (d : Durable R) (edits : List (Edit R)) (n : Nat)

@[simp] theorem replay_append (edit : Edit R) :
    replay d (edits ++ [edit]) = edit.apply (replay d edits) := by
  simp [replay]

@[simp] theorem transitions_transition (mutation : Mutation R) :
    transitions (edits ++ [.transition n mutation]) = transitions edits ++ [n] := by
  simp [transitions]

@[simp] theorem transitions_rolledBack (undo : List (Durable R → Durable R)) :
    transitions (edits ++ [.rolledBack n undo]) = (transitions edits).filter (· ≠ n) := by
  simp [transitions]

@[simp] theorem transitions_silent (change : Durable R → Durable R) :
    transitions (edits ++ [.silent change]) = transitions edits := by
  simp [transitions]

variable {edits n} in
/-- A transition of the edits is one of them, and none that comes later rolls it back. -/
theorem exists_of_mem_transitions (h : n ∈ transitions edits) : ∃ before mutation after,
    edits = before ++ .transition n mutation :: after ∧ ∀ undo, .rolledBack n undo ∉ after := by
  induction edits using List.reverseRecOn with
  | nil => cases h
  | append_singleton edits edit ih =>
      -- a transition of the earlier edits, which the last one does not roll back
      have hearlier : n ∈ transitions edits → (∀ undo, edit ≠ .rolledBack n undo) →
          ∃ before mutation after, edits ++ [edit] = before ++ .transition n mutation :: after ∧
            ∀ undo, .rolledBack n undo ∉ after := by
        intro hmem hne
        obtain ⟨before, mutation, after, rfl, hafter⟩ := ih hmem
        refine ⟨before, mutation, after ++ [edit], by simp, fun undo hu => ?_⟩
        rcases List.mem_append.mp hu with hu | hu
        · exact hafter undo hu
        · exact hne undo (List.mem_singleton.mp hu).symm
      cases edit with
      | transition m mutation =>
          rw [transitions_transition] at h
          rcases List.mem_append.mp h with h | h
          · exact hearlier h (by simp)
          · rw [List.mem_singleton.mp h]
            exact ⟨edits, mutation, [], rfl, by simp⟩
      | rolledBack m undo =>
          rw [transitions_rolledBack, List.mem_filter] at h
          refine hearlier h.1 fun undo' he => ?_
          cases he
          simp at h
      | silent change =>
          rw [transitions_silent] at h
          exact hearlier h (by simp)

variable {edits n} in
/-- A transition stays until an edit rolls it back. -/
theorem mem_transitions_append (h : n ∈ transitions edits) {after : List (Edit R)}
    (hafter : ∀ undo, .rolledBack n undo ∉ after) : n ∈ transitions (edits ++ after) := by
  induction after using List.reverseRecOn with
  | nil => rwa [List.append_nil]
  | append_singleton after edit ih =>
      have hmem := ih fun undo hu => hafter undo (List.mem_append_left _ hu)
      rw [← List.append_assoc]
      cases edit with
      | transition m mutation =>
          rw [transitions_transition]
          exact List.mem_append_left _ hmem
      | rolledBack m undo =>
          rw [transitions_rolledBack, List.mem_filter]
          refine ⟨hmem, decide_eq_true fun he => hafter undo ?_⟩
          rw [he]
          exact List.mem_append_right _ (List.mem_singleton_self _)
      | silent change => rwa [transitions_silent]

end Edits

/-- `PersistenceGeneration`, with the edits that have made the captured state. -/
structure PersistenceGeneration (R : Type) where
  revision : Nat
  state : Durable R
  edits : List (Edit R)

/-- `DurableRegistry`, with the edits that have made it what it is. -/
structure DurableRegistry (R : Type) where
  state : Durable R
  persistenceRevision : Nat
  persistenceDirty : Bool
  edits : List (Edit R)

/-- The transitions that a captured state, or the registry, has. -/
def PersistenceGeneration.applied (g : PersistenceGeneration R) : List Nat := transitions g.edits

def DurableRegistry.applied (d : DurableRegistry R) : List Nat := transitions d.edits

/-- A change of the registry in memory. -/
def DurableRegistry.edit (d : DurableRegistry R) (edit : Edit R) : DurableRegistry R :=
  { d with state := edit.apply d.state, edits := d.edits ++ [edit] }

section Edit

variable (d : DurableRegistry R) (n : Nat)

@[simp] theorem applied_transition (mutation : Mutation R) :
    (d.edit (.transition n mutation)).applied = d.applied ++ [n] :=
  transitions_transition ..

@[simp] theorem applied_rolledBack (undo : List (Durable R → Durable R)) :
    (d.edit (.rolledBack n undo)).applied = d.applied.filter (· ≠ n) :=
  transitions_rolledBack ..

@[simp] theorem applied_silent (change : Durable R → Durable R) :
    (d.edit (.silent change)).applied = d.applied :=
  transitions_silent ..

end Edit

/-- `mark_persistence_dirty`. -/
def DurableRegistry.markPersistenceDirty (d : DurableRegistry R) : DurableRegistry R :=
  { d with persistenceRevision := (d.persistenceRevision + 1) % 2 ^ 64, persistenceDirty := true }

/-- `capture_persisted_state`. -/
def DurableRegistry.capturePersistedState (d : DurableRegistry R) : PersistenceGeneration R :=
  ⟨d.persistenceRevision, d.state, d.edits⟩

/-- What `write_persisted_state` does to the dirty flag, once the writer has answered. -/
def DurableRegistry.writePersistedState (d : DurableRegistry R)
    (generation : PersistenceGeneration R) (ok : Bool) : DurableRegistry R :=
  if ok then
    if d.persistenceRevision = generation.revision then { d with persistenceDirty := false } else d
  else { d with persistenceDirty := true }

theorem writePersistedState_state (d : DurableRegistry R) (g : PersistenceGeneration R)
    (ok : Bool) : (d.writePersistedState g ok).state = d.state := by
  unfold DurableRegistry.writePersistedState
  split
  · split <;> rfl
  · rfl

theorem writePersistedState_edits (d : DurableRegistry R) (g : PersistenceGeneration R)
    (ok : Bool) : (d.writePersistedState g ok).edits = d.edits := by
  unfold DurableRegistry.writePersistedState
  split
  · split <;> rfl
  · rfl

/-! ## Readers -/

/-- Where a PTY reader thread is: started paused, in its loop, past the loop but before its last
publication, past it, or stopped by a command or an error. -/
inductive ReaderPhase
  | starting | reading | draining | ended | stopped
  deriving DecidableEq, Repr

/-- A PTY reader, with `run.output_revision` and its `pending_output_revision`. -/
structure Reader where
  shellId : String
  workspaceId : String
  runId : String
  revision : Nat
  pending : Option Nat
  phase : ReaderPhase
  deriving DecidableEq, Repr

/-- Whether the reader can still publish. -/
def Reader.live (reader : Reader) : Bool := reader.phase = .reading ∨ reader.phase = .draining

/-- The event that reports output revision `revision`. -/
def Reader.outputChanged (reader : Reader) (revision : Nat) : DaemonEventKind :=
  .outputChanged reader.workspaceId reader.shellId reader.runId revision

/-! ## The world -/

/-- What a persistence window commits. -/
inductive WindowKind (R : Type)
  | mutation (undo : List (Durable R → Durable R)) (started : List StartedRun)
  | runExit
  | lifecycle (call : LifecycleCall R) (rollbacks : List (String × StopRollback))
      (undo : List (Durable R → Durable R))

/-- The time between the two transactions of a path that holds the mutation lock: `saved` is
captured, and `written` is the writer's answer. -/
structure Window (R : Type) where
  kind : WindowKind R
  batch : Batch
  saved : PersistenceGeneration R
  written : Option Bool

/-- Where the holder of the mutation lock is. -/
inductive Holder (R : Type)
  /-- nobody holds the lock -/
  | free
  /-- a mutation, before its `flush_pending` has returned -/
  | entered
  /-- a mutation, after it -/
  | flushed
  /-- `try_record_run_exit` of a reader's run, waiting for the persist lock -/
  | exiting (reader : Nat)
  /-- the stop loop of a lifecycle transaction, then its `flush_pending` -/
  | stopping (call : LifecycleCall R) (shells remaining stopped : List String)
  /-- a lifecycle transaction whose stop or flush has failed -/
  | compensating (call : LifecycleCall R) (stopped : List String)
  /-- a lifecycle transaction, waiting for the persist lock -/
  | finalizing (call : LifecycleCall R) (shells : List String)
  | window (w : Window R)

/-- A `flush_pending` between its two transactions. -/
structure Flush (R : Type) where
  byHolder : Bool
  pending : List Batch
  saved : PersistenceGeneration R
  written : Option Bool

structure World (R : Type) where
  events : EventTransaction
  durable : DurableRegistry R
  readers : List Reader
  /-- `runtimes.stopping` -/
  stopping : Bool
  /-- `events.lifecycle_active` -/
  lifecycleActive : Bool
  holder : Holder R
  flush : Option (Flush R)
  /-- the number of the next transition -/
  next : Nat
  /-- every batch that was built -/
  begun : List Batch
  /-- every batch that was appended, in order -/
  published : List Batch
  /-- every state that was saved successfully -/
  saves : List (PersistenceGeneration R)
  /-- every transition that was rolled back -/
  rolledBack : List Nat
  /-- every transition whose batch was lost because the registry could not be captured -/
  lost : List Nat

/-- The batches of a running flush. -/
def World.flushing (w : World R) : List Batch :=
  match w.flush with
  | some flush => flush.pending
  | none => []

/-- The batch of an open window that records a run exit. -/
def Holder.exitBatch : Holder R → List Batch
  | .window win =>
      match win.kind with
      | .runExit => [win.batch]
      | _ => []
  | _ => []

/-- The log. -/
def World.log (w : World R) : List DaemonEvent := w.events.events.log

/-- The events of the log and then those that wait, in the order in which they will be appended.
The batches of mutations and of lifecycle transactions are not among them before their commit. -/
def World.frontier (w : World R) : List DaemonEventKind :=
  w.log.map (·.kind) ++
    (w.flushing ++ w.events.transition.pendingDurableEvents ++ w.holder.exitBatch).flatMap
      (·.kinds) ++
    w.events.transition.pendingRuntimeEvents

/-- Every event that was ever built. -/
def World.history (w : World R) : List DaemonEventKind :=
  w.frontier ++ w.begun.flatMap (·.kinds)

/-- Whether the persist lock is free. -/
def World.persistFree (w : World R) : Bool :=
  w.flush.isNone &&
    match w.holder with
    | .window _ => false
    | _ => true

/-- A daemon that has just taken over its state: nobody is inside a transaction, nothing waits
to be published, and the retained events are numbered consecutively. -/
structure World.Loaded (w : World R) : Prop where
  transition : w.events.transition = .idle
  contiguous : w.events.events.Contiguous
  log : ∀ e ∈ w.log, e.transition = none
  lifecycleActive : w.lifecycleActive = false
  holder : w.holder = .free
  flush : w.flush = none
  next : w.next = 0
  edits : w.durable.edits = []
  begun : w.begun = []
  published : w.published = []
  saves : w.saves = []
  rolledBack : w.rolledBack = []
  lost : w.lost = []

end Boomux.Daemon
