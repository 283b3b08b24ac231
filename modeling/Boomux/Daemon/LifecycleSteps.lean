import Boomux.Basic.Run
import Boomux.Daemon.LifecycleFailure
import Boomux.Daemon.Machine

/-!
# A lifecycle transaction as steps of the machine

`Lifecycle.State.lifecycleTransaction` runs `lifecycle_transaction` in one piece, with every error
of its locks and of the removal. `World.step` cuts the same function where it gives up its locks.
Where no lock of a Shell is poisoned and the removal does not fail, the piece is a run of the
machine, whatever the processes, the file system and the other publishers do
(`lifecycleTransaction_ended`).

Only the machine numbers its batches, so the events of the two agree without the numbers
(`unnumbered`), and what no step here reads of the registry is left out (`Tracks`).
-/

set_option autoImplicit false

namespace Boomux.Daemon

open Rust Transition

/-! ## Events without their numbers -/

def Batch.unnumbered (batch : Batch) : Batch := { batch with transition := 0 }

def DaemonEvent.unnumbered (event : DaemonEvent) : DaemonEvent :=
  { event with transition := event.transition.map fun _ => 0 }

def EventStreamState.unnumbered (s : EventStreamState) : EventStreamState :=
  { s with
    events := s.events.map (·.unnumbered)
    evicted := s.evicted.map (·.unnumbered) }

def TransitionState.unnumbered (t : TransitionState) : TransitionState :=
  { t with pendingDurableEvents := t.pendingDurableEvents.map (·.unnumbered) }

/-- The events with the numbers of their batches set to zero. -/
def EventTransaction.unnumbered (x : EventTransaction) : EventTransaction :=
  ⟨x.transition.unnumbered, x.events.unnumbered⟩

section Unnumbered

variable (x : EventTransaction) (t : TransitionState) (s : EventStreamState)

@[simp] theorem publicationBlocked_unnumbered :
    t.unnumbered.publicationBlocked = t.publicationBlocked := by
  have hempty : t.unnumbered.pendingDurableEvents.isEmpty = t.pendingDurableEvents.isEmpty :=
    List.isEmpty_map
  unfold TransitionState.publicationBlocked
  rw [hempty]
  rfl

@[simp] theorem reservedEventCount_unnumbered :
    t.unnumbered.reservedEventCount = t.reservedEventCount := by
  simp only [TransitionState.reservedEventCount, TransitionState.unnumbered, List.map_map]
  rfl

theorem queueRuntimeEvents_unnumbered (kinds : List DaemonEventKind) :
    (kinds.foldl .queueRuntimeEvent t).unnumbered =
      kinds.foldl .queueRuntimeEvent t.unnumbered := by
  induction kinds generalizing t with
  | nil => rfl
  | cons kind kinds ih => exact ih (t.queueRuntimeEvent kind)

theorem appendOne_unnumbered (transition : Option Nat) (kind : DaemonEventKind) :
    (appendOne transition s kind).unnumbered =
      appendOne (transition.map fun _ => 0) s.unnumbered kind := by
  simp only [appendOne, EventStreamState.unnumbered, List.map_append]
  rfl

theorem drain_unnumbered (remove : Nat) :
    (drain remove s).unnumbered = drain remove s.unnumbered := by
  simp only [drain, EventStreamState.unnumbered, List.map_append, List.map_drop, List.map_take]

theorem retainLatest_unnumbered : (retainLatest s).unnumbered = retainLatest s.unnumbered := by
  have hlength : s.unnumbered.events.length = s.events.length := List.length_map _
  unfold retainLatest
  rw [hlength, apply_ite EventStreamState.unnumbered, drain_unnumbered]

theorem appendBatchLocked_unnumbered (transition : Option Nat) (kinds : List DaemonEventKind) :
    (appendBatchLocked transition s kinds).unnumbered =
      appendBatchLocked (transition.map fun _ => 0) s.unnumbered kinds := by
  unfold appendBatchLocked
  rw [retainLatest_unnumbered]
  congr 1
  induction kinds generalizing s with
  | nil => rfl
  | cons kind kinds ih =>
      rw [List.foldl_cons, List.foldl_cons, ih, appendOne_unnumbered]

namespace EventTransaction

theorem reserveWithPending_unnumbered (count : Nat) :
    x.unnumbered.reserveWithPending count = x.reserveWithPending count := by
  unfold reserveWithPending
  rw [unnumbered, reservedEventCount_unnumbered]
  rfl

theorem publishPendingRuntime_unnumbered :
    x.publishPendingRuntime.unnumbered = x.unnumbered.publishPendingRuntime := by
  unfold publishPendingRuntime
  rw [unnumbered, unnumbered, publicationBlocked_unnumbered]
  split
  · rfl
  · rw [appendBatchLocked_unnumbered]
    rfl

theorem publishRuntimeBatch_unnumbered (kinds : List DaemonEventKind) :
    (x.publishRuntimeBatch kinds).2.unnumbered = (x.unnumbered.publishRuntimeBatch kinds).2 := by
  have hcapacity (count : Nat) :
      ensureCapacity x.unnumbered.events count = ensureCapacity x.events count := rfl
  unfold publishRuntimeBatch
  rw [hcapacity, unnumbered, unnumbered, reservedEventCount_unnumbered,
    publicationBlocked_unnumbered]
  split
  · rfl
  · split
    · rw [queueRuntimeEvents_unnumbered]
    · rw [appendBatchLocked_unnumbered]
      rfl

theorem takePendingDurable_unnumbered :
    x.takePendingDurable.unnumbered = x.unnumbered.takePendingDurable := rfl

theorem restorePendingDurable_unnumbered (pending : List Batch) :
    (x.restorePendingDurable pending).unnumbered =
      x.unnumbered.restorePendingDurable (pending.map (·.unnumbered)) := by
  simp only [restorePendingDurable, unnumbered, TransitionState.unnumbered, List.foldl_reverse]
  congr 2
  induction pending with
  | nil => rfl
  | cons batch pending ih => simp only [List.foldr_cons, List.map_cons, ih]

theorem beginPersistence_unnumbered (count : Nat) :
    (x.beginPersistence count).unnumbered = x.unnumbered.beginPersistence count := rfl

theorem pendingDurableEventCount_unnumbered :
    x.unnumbered.pendingDurableEventCount = x.pendingDurableEventCount := by
  simp only [pendingDurableEventCount, unnumbered, TransitionState.unnumbered, List.map_map]
  rfl

theorem beginLifecycleReservation_unnumbered (count : Nat) :
    (x.beginLifecycleReservation count).unnumbered =
      x.unnumbered.beginLifecycleReservation count := rfl

theorem releaseLifecycleReservation_unnumbered :
    x.releaseLifecycleReservation.unnumbered = x.unnumbered.releaseLifecycleReservation :=
  publishPendingRuntime_unnumbered _

theorem transferLifecycleReservationToPersistence_unnumbered (count retained : Nat) :
    (x.transferLifecycleReservationToPersistence count retained).unnumbered =
      x.unnumbered.transferLifecycleReservationToPersistence count retained := rfl

theorem appendBatch_unnumbered (batch : Batch) :
    (x.appendBatch batch).unnumbered = x.unnumbered.appendBatch batch.unnumbered := by
  simp only [appendBatch, unnumbered, appendBatchLocked_unnumbered]
  rfl

theorem appendBatches_unnumbered (pending : List Batch) :
    (pending.foldl appendBatch x).unnumbered =
      (pending.map (·.unnumbered)).foldl appendBatch x.unnumbered := by
  induction pending generalizing x with
  | nil => rfl
  | cons batch pending ih => rw [List.foldl_cons, ih, appendBatch_unnumbered]; rfl

theorem finishPersistence_unnumbered :
    x.finishPersistence.unnumbered = x.unnumbered.finishPersistence :=
  publishPendingRuntime_unnumbered _

theorem drainRuntimeEvents_unnumbered :
    x.drainRuntimeEvents.unnumbered = x.unnumbered.drainRuntimeEvents := rfl

theorem queueDurableBatch_unnumbered (batch : Batch) :
    (x.queueDurableBatch batch).2.unnumbered =
      (x.unnumbered.queueDurableBatch batch.unnumbered).2 := by
  unfold queueDurableBatch
  show _ = (if batch.kinds.isEmpty then _ else _ : Bool × EventTransaction).2
  split
  · rfl
  · simp only [unnumbered, TransitionState.unnumbered, List.map_append, List.map_cons,
      List.map_nil]

end EventTransaction

end Unnumbered

namespace Lifecycle

variable {R W L A : Type}

/-! ## The same registry -/

/-- The two maps have the same Shells, and no lock of one is poisoned. -/
structure SameShells (m : Shells) (m' : HashMap String LockedShell) : Prop where
  get : ∀ k, m.get k = (m'.lookup k).map (·.toShell)
  sound : ∀ k shell, m'.lookup k = some shell → shell.poisoned = ⟨false, false, false⟩

/-- The two registries have the same Shells and Workspaces. -/
structure SameRegistry (d : Durable R) (d' : DurableState W L A) : Prop where
  shells : SameShells d.shells d'.shells
  workspaces : ∀ k, k ∈ d.workspaces ↔ (d'.workspaces.lookup k).isSome = true

section Shells

variable {m : Shells} {m' m'' : HashMap String LockedShell} {k : String} {shell : LockedShell}

theorem SameShells.congr (h : SameShells m m') (hm : HashMap.Same m' m'') : SameShells m m'' :=
  ⟨fun k => by rw [h.get, hm], fun k shell hk => h.sound k shell ((hm k).trans hk)⟩

/-- The Shell under `k` is changed, not its locks. -/
theorem SameShells.insertShell (h : SameShells m m') (k : String)
    (hs : shell.poisoned = ⟨false, false, false⟩) (left : Shell) :
    SameShells (m.insert k left) (m'.insert k { shell with toShell := left }) := by
  constructor
  · intro j
    rw [Shells.get_insert, HashMap.get_insert]
    split
    · rfl
    · exact h.get j
  · intro j other hother
    rw [HashMap.get_insert] at hother
    split at hother
    · cases hother
      exact hs
    · exact h.sound j other hother

/-- A finalize whose locks are sound does what the machine's does. -/
theorem finalizeStop_sound (k : String) (hs : shell.poisoned = ⟨false, false, false⟩) :
    finalizeStop k shell = (.ok (Daemon.finalizeStop k shell.toShell).2,
      { shell with toShell := (Daemon.finalizeStop k shell.toShell).1 }) := by
  obtain ⟨⟨workspaceId, lastRun, lifecycle⟩, revision, poisoned⟩ := shell
  obtain rfl : poisoned = ⟨false, false, false⟩ := hs
  cases lifecycle <;> rfl

theorem restoreStopped_toShell (shell : LockedShell) (rollback : StopRollback) :
    restoreStopped shell rollback =
      { shell with toShell := Daemon.restoreStopped shell.toShell rollback } := by
  obtain ⟨⟨workspaceId, lastRun, lifecycle⟩, revision, poisoned⟩ := shell
  cases lifecycle <;> rfl

theorem compensateStopped_sound (k : String) (hs : shell.poisoned = ⟨false, false, false⟩) :
    compensateStopped k shell = (.ok (Daemon.compensateStopped k shell.toShell).2,
      { shell with toShell := (Daemon.compensateStopped k shell.toShell).1 }) := by
  unfold compensateStopped
  rw [finalizeStop_sound k hs]
  dsimp only
  rw [restoreStopped_toShell]
  rfl

/-- The finalize loops. -/
theorem SameShells.finalizeAll (h : SameShells m m') (shells : List String) :
    (finalizeAll m' shells).failed = none
      ∧ (finalizeAll m' shells).rollbacks = (Daemon.finalizeAll m shells).2
      ∧ SameShells (Daemon.finalizeAll m shells).1 (finalizeAll m' shells).shells := by
  induction shells generalizing m m' with
  | nil => exact ⟨rfl, rfl, h⟩
  | cons k shells ih =>
      have hk := h.get k
      unfold Lifecycle.finalizeAll Daemon.finalizeAll
      cases hget : m'.lookup k with
      | none =>
          rw [hget] at hk
          rw [hk]
          exact ih h
      | some shell =>
          have hs := h.sound k shell hget
          rw [hget] at hk
          rw [hk]
          simp only [Option.map_some, finalizeStop_sound k hs]
          obtain ⟨hfailed, hrollbacks, hshells⟩ := ih (h.insertShell k hs _)
          exact ⟨hfailed, by rw [hrollbacks], hshells⟩

/-- The loops of `restore_finalized_locked`. -/
theorem SameShells.restoreAll (h : SameShells m m') (rollbacks : List (String × StopRollback)) :
    SameShells (Daemon.restoreAll m rollbacks).1 (restoreAll m' rollbacks)
      ∧ (Daemon.restoreAll m rollbacks).2 = rollbacks.filterMap (·.2.event) := by
  induction rollbacks generalizing m m' with
  | nil => exact ⟨h, rfl⟩
  | cons entry rollbacks ih =>
      obtain ⟨k, rollback⟩ := entry
      have hk := h.get k
      have hevents (m : Shells) (hrest : (Daemon.restoreAll m rollbacks).2 =
          rollbacks.filterMap (·.2.event)) :
          rollback.event.toList ++ (Daemon.restoreAll m rollbacks).2 =
            ((k, rollback) :: rollbacks).filterMap (·.2.event) := by
        rw [hrest, List.filterMap_cons]
        cases rollback.event <;> rfl
      unfold Lifecycle.restoreAll Daemon.restoreAll
      cases hget : m'.lookup k with
      | none =>
          rw [hget] at hk
          rw [hk]
          obtain ⟨hshells, hrest⟩ := ih h
          exact ⟨hshells, hevents _ hrest⟩
      | some shell =>
          have hs := h.sound k shell hget
          rw [hget] at hk
          rw [hk]
          dsimp only [Option.map_some]
          rw [restoreStopped_toShell]
          obtain ⟨hshells, hrest⟩ := ih (h.insertShell k hs _)
          exact ⟨hshells, hevents _ hrest⟩

/-- The loops of `compensate_stopped_locked`. -/
theorem SameShells.compensateAll (h : SameShells m m') (shells : List String) :
    SameShells (Daemon.compensateAll m shells).1 (compensateAll m' shells).1
      ∧ (compensateAll m' shells).2.1 = (Daemon.compensateAll m shells).2 := by
  induction shells generalizing m m' with
  | nil => exact ⟨h, rfl⟩
  | cons k shells ih =>
      have hk := h.get k
      unfold Lifecycle.compensateAll Daemon.compensateAll
      cases hget : m'.lookup k with
      | none =>
          rw [hget] at hk
          rw [hk]
          exact ih h
      | some shell =>
          have hs := h.sound k shell hget
          rw [hget] at hk
          rw [hk]
          simp only [Option.map_some, compensateStopped_sound k hs]
          obtain ⟨hshells, hevents⟩ := ih (h.insertShell k hs _)
          exact ⟨hshells, by rw [hevents]⟩

/-- A finalize loop takes no Shell away and moves none. -/
theorem finalizeAll_workspaceId (m' : HashMap String LockedShell) (shells : List String)
    (j : String) : ((finalizeAll m' shells).shells.lookup j).map (·.workspaceId) =
      (m'.lookup j).map (·.workspaceId) := by
  induction shells generalizing m' with
  | nil => rfl
  | cons k shells ih =>
      -- the Shell that the loop puts back under `k` is in the Workspace where it was
      have hinsert {shell left : LockedShell} (hget : m'.lookup k = some shell)
          (hid : left.workspaceId = shell.workspaceId) :
          ((m'.insert k left).lookup j).map (·.workspaceId) =
            (m'.lookup j).map (·.workspaceId) := by
        rw [HashMap.get_insert]
        split
        next hj => rw [hj, hget, Option.map_some, Option.map_some, hid]
        next => rfl
      unfold finalizeAll
      cases hget : m'.lookup k with
      | none => exact ih m'
      | some shell =>
          have hid := State.finalizeStop_workspaceId k shell
          dsimp only
          split
          next heq =>
            rw [heq] at hid
            exact (ih _).trans (hinsert hget hid)
          next heq =>
            rw [heq] at hid
            exact hinsert hget hid

end Shells

/-! ## The same state -/

/-- What the two models of the daemon both have is the same in both. -/
structure Tracks (w : World R) (s : State W L A) : Prop where
  registry : SameRegistry w.durable.state s.durable
  events : w.events.unnumbered = s.events.unnumbered
  persistenceRevision : w.durable.persistenceRevision = s.persistenceRevision
  persistenceDirty : w.durable.persistenceDirty = s.persistenceDirty
  stopping : w.stopping = s.stopping

section Tracks

variable {w u : World R} {s : State W L A}

/-- A world that differs only in what `Tracks` does not read. -/
theorem Tracks.congr (h : Tracks w s) (hdurable : u.durable = w.durable)
    (hevents : u.events = w.events) (hstopping : u.stopping = w.stopping) : Tracks u s := by
  obtain ⟨hregistry, hev, hrevision, hdirty, hstop⟩ := h
  refine ⟨?_, ?_, ?_, ?_, ?_⟩
  · rwa [hdurable]
  · rwa [hevents]
  · rwa [hdurable]
  · rwa [hdurable]
  · rwa [hstopping]

/-- What both read of the events. -/
theorem Tracks.transition (h : Tracks w s) :
    w.events.transition.pendingRuntimeEvents = s.events.transition.pendingRuntimeEvents
      ∧ w.events.transition.lifecycleEventReservation =
        s.events.transition.lifecycleEventReservation
      ∧ w.events.transition.pendingDurableEvents.map (·.unnumbered) =
        s.events.transition.pendingDurableEvents.map (·.unnumbered) :=
  have hpart {α : Type} (f : EventTransaction → α) := congrArg f h.events
  ⟨hpart (·.transition.pendingRuntimeEvents), hpart (·.transition.lifecycleEventReservation),
    hpart (·.transition.pendingDurableEvents)⟩

theorem Tracks.reserveWithPending (h : Tracks w s) (count : Nat) :
    w.events.reserveWithPending count = s.events.reserveWithPending count := by
  rw [← EventTransaction.reserveWithPending_unnumbered, h.events,
    EventTransaction.reserveWithPending_unnumbered]

/-- An operation on the events that does not read their numbers. -/
theorem Tracks.withEvents (h : Tracks w s) {x y : EventTransaction}
    (hxy : x.unnumbered = y.unnumbered) :
    Tracks { w with events := x } { s with events := y } :=
  ⟨h.registry, hxy, h.persistenceRevision, h.persistenceDirty, h.stopping⟩

/-- `queue_durable_batch_locked`, after the Shells and the runtime events have been edited. -/
theorem Tracks.queueDurableBatch (h : Tracks w s) {m : Shells} {m' : HashMap String LockedShell}
    (hm : SameShells m m') (mutation : Mutation R) (kinds : List DaemonEventKind) :
    Tracks ((w.drained m).queueDurableBatch mutation kinds)
      ({ s with
        durable := { s.durable with shells := m' }
        events := s.events.drainRuntimeEvents }.queueDurableBatchLocked kinds) := by
  have hregistry : SameRegistry ({ w.durable.state with shells := m } : Durable R)
      ({ s.durable with shells := m' } : DurableState W L A) := ⟨hm, h.registry.workspaces⟩
  have hdrained : w.events.drainRuntimeEvents.unnumbered =
      s.events.drainRuntimeEvents.unnumbered := by
    rw [EventTransaction.drainRuntimeEvents_unnumbered, h.events,
      EventTransaction.drainRuntimeEvents_unnumbered]
  have hevents : (w.events.drainRuntimeEvents.queueDurableBatch ⟨w.next, kinds⟩).2.unnumbered =
      (s.events.drainRuntimeEvents.queueDurableBatch ⟨0, kinds⟩).2.unnumbered := by
    rw [EventTransaction.queueDurableBatch_unnumbered, hdrained,
      EventTransaction.queueDurableBatch_unnumbered]
    rfl
  cases kinds with
  | nil => exact ⟨hregistry, hdrained, h.persistenceRevision, h.persistenceDirty, h.stopping⟩
  | cons kind kinds =>
      refine ⟨hregistry, hevents, ?_, rfl, h.stopping⟩
      show (w.durable.persistenceRevision + 1) % 2 ^ 64 = (s.persistenceRevision + 1) % 2 ^ 64
      rw [h.persistenceRevision]

/-- `restore_finalized_locked`. -/
theorem Tracks.restoreFinalized (h : Tracks w s) (rollbacks : List (String × StopRollback)) :
    Tracks (w.restoreFinalized rollbacks) (s.restoreFinalizedLocked rollbacks) := by
  obtain ⟨hshells, hevents⟩ := h.registry.shells.restoreAll rollbacks
  have hbatch : w.events.transition.pendingRuntimeEvents ++
      (Daemon.restoreAll w.durable.state.shells rollbacks).2 =
        s.events.transition.pendingRuntimeEvents ++
          rollbacks.filterMap fun p : String × StopRollback => p.2.event := by
    rw [h.transition.1, hevents]
  unfold World.restoreFinalized State.restoreFinalizedLocked
  dsimp only
  rw [hbatch]
  exact h.queueDurableBatch hshells _ _

/-- `compensate_stopped_locked`. -/
theorem Tracks.compensateStopped (h : Tracks w s) (shells : List String) :
    Tracks (w.compensateStopped shells) (s.compensateStoppedLocked shells).2 := by
  obtain ⟨hshells, hevents⟩ := h.registry.shells.compensateAll shells
  have hbatch : w.events.transition.pendingRuntimeEvents ++
      (Daemon.compensateAll w.durable.state.shells shells).2 =
        s.events.transition.pendingRuntimeEvents ++
          (compensateAll s.durable.shells shells).2.1 := by
    rw [h.transition.1, hevents]
  unfold World.compensateStopped State.compensateStoppedLocked
  dsimp only
  rw [hbatch]
  exact h.queueDurableBatch hshells _ _

/-- `write_persisted_state` of a state that was captured at `g.revision`. -/
theorem Tracks.writePersistedState (h : Tracks w s) (g : PersistenceGeneration R)
    {saved : Except IoError Unit} {ok : Bool} (hok : ok = saved.isOk) :
    Tracks { w with durable := w.durable.writePersistedState g ok }
      (s.writePersistedState g.revision saved) := by
  unfold DurableRegistry.writePersistedState State.writePersistedState
  cases saved with
  | error e =>
      obtain rfl : ok = false := hok
      exact ⟨h.registry, h.events, h.persistenceRevision, rfl, h.stopping⟩
  | ok _ =>
      obtain rfl : ok = true := hok
      rw [if_pos rfl, h.persistenceRevision]
      dsimp only
      split
      · exact ⟨h.registry, h.events, rfl, rfl, h.stopping⟩
      · exact ⟨h.registry, h.events, h.persistenceRevision, h.persistenceDirty, h.stopping⟩

/-- The end of a failed transaction: the two sides give the reservation and the stop back in
either order. -/
theorem Tracks.lifecycleFailed (h : Tracks w s) {call : Daemon.LifecycleCall R}
    {call' : LifecycleCall W L A} (hstopping : call.stopping = call'.stopping) :
    Tracks (w.lifecycleFailed call) (s.releaseLifecycleReservation.cancelStopping call') := by
  have hevents : w.events.releaseLifecycleReservation.unnumbered =
      s.events.releaseLifecycleReservation.unnumbered := by
    rw [EventTransaction.releaseLifecycleReservation_unnumbered, h.events,
      EventTransaction.releaseLifecycleReservation_unnumbered]
  unfold World.lifecycleFailed State.cancelStopping State.releaseLifecycleReservation
  rw [hstopping]
  cases call'.stopping with
  | true => exact ⟨h.registry, hevents, h.persistenceRevision, h.persistenceDirty, rfl⟩
  | false => exact ⟨h.registry, hevents, h.persistenceRevision, h.persistenceDirty, h.stopping⟩

theorem cancelStopping_releaseLifecycleReservation (s : State W L A)
    (call : LifecycleCall W L A) :
    (s.cancelStopping call).releaseLifecycleReservation =
      s.releaseLifecycleReservation.cancelStopping call := by
  unfold State.cancelStopping State.releaseLifecycleReservation
  cases call.stopping <;> rfl

theorem cancelStopping_finishPersistence (s : State W L A) (call : LifecycleCall W L A) :
    (s.cancelStopping call).finishPersistence = s.finishPersistence.cancelStopping call := by
  unfold State.cancelStopping State.finishPersistence
  cases call.stopping <;> rfl

theorem Tracks.finishPersistence (h : Tracks w s) :
    Tracks { w with events := w.events.finishPersistence } s.finishPersistence := by
  refine h.withEvents ?_
  rw [EventTransaction.finishPersistence_unnumbered, h.events,
    EventTransaction.finishPersistence_unnumbered]

end Tracks

/-! ## The same call -/

/-- The callers of `lifecycle_transaction`, in the two models. -/
inductive SameCall : Daemon.LifecycleCall R → LifecycleCall W L A → Prop
  | closeShell (shellId : String) (expectedRevision : Option Nat) (detach : R → R) :
      SameCall (.closeShell shellId detach) (closeShellGuarded shellId expectedRevision)
  | closeWorkspace (workspaceId : String) (expectedRevision : Option Nat) (detach : R → R) :
      SameCall (.closeWorkspace workspaceId detach)
        (closeWorkspaceGuarded workspaceId expectedRevision)
  | shutdown : SameCall .shutdown shutdown

section Call

variable {call : Daemon.LifecycleCall R} {call' : LifecycleCall W L A} {d : Durable R}
  {d' d₀ left : DurableState W L A} {shells : List String} {shellId workspaceId : String}
  {expectedRevision : Option Nat} {undo : DurableUndo W L A} {undos : List (DurableUndo W L A)}

theorem SameCall.stopping (h : SameCall call call') : call.stopping = call'.stopping := by
  cases h <;> rfl

theorem SameCall.committedEvents (h : SameCall call call') (hd : SameRegistry d d')
    (shells : List String) : call.committedEvents d shells = call'.committedEvents d' shells := by
  cases h with
  | closeShell shellId expectedRevision detach =>
      have hworkspace : (shells.head?.bind d.shells.get).map (·.workspaceId) =
          (shells.head?.bind d'.shells.lookup).map (·.workspaceId) := by
        cases shells.head? with
        | none => rfl
        | some k => rw [Option.bind_some, Option.bind_some, hd.shells.get, Option.map_map]; rfl
      show [DaemonEventKind.shellClosed _ shellId] = [DaemonEventKind.shellClosed _ shellId]
      rw [hworkspace]
  | closeWorkspace workspaceId expectedRevision detach => rfl
  | shutdown => rfl

/-- `close_shell` selects the Shell it is given. -/
theorem closeShellGuarded_select
    (h : (closeShellGuarded shellId expectedRevision).selectShells d' = .ok shells) :
    shells = [shellId] ∧ (d'.shells.lookup shellId).isSome = true := by
  simp only [closeShellGuarded] at h
  split at h
  · cases h
  next shell hget =>
    refine ⟨?_, by rw [hget]; rfl⟩
    cases expectedRevision with
    | none => exact (Except.ok.inj h).symm
    | some expected =>
        obtain ⟨-, -, h⟩ := bind_eq_ok.mp h
        exact (Except.ok.inj h).symm

/-- `close_workspace` selects the Shells of the list of its Workspace that are in the map. -/
theorem closeWorkspaceGuarded_select
    (h : (closeWorkspaceGuarded workspaceId expectedRevision).selectShells d' = .ok shells) :
    ∃ workspace, d'.workspaces.lookup workspaceId = some workspace
      ∧ shells = workspace.shellIds.filter fun id => (d'.shells.lookup id).isSome := by
  simp only [closeWorkspaceGuarded] at h
  split at h
  · cases h
  next workspace hget =>
    refine ⟨workspace, hget, ?_⟩
    cases expectedRevision with
    | none => exact (Except.ok.inj h).symm
    | some expected =>
        obtain ⟨-, -, h⟩ := bind_eq_ok.mp h
        exact (Except.ok.inj h).symm

theorem SameCall.select_isSome (h : SameCall call call')
    (hselect : call'.selectShells d' = .ok shells) :
    ∀ k ∈ shells, (d'.shells.lookup k).isSome = true := by
  intro k hk
  cases h with
  | closeShell shellId expectedRevision detach =>
      obtain ⟨rfl, hsome⟩ := closeShellGuarded_select hselect
      rwa [List.mem_singleton.mp hk]
  | closeWorkspace workspaceId expectedRevision detach =>
      obtain ⟨workspace, -, rfl⟩ := closeWorkspaceGuarded_select hselect
      exact (List.mem_filter.mp hk).2
  | shutdown =>
      obtain rfl := Except.ok.inj hselect
      exact AList.lookup_isSome.mpr hk

/-- What `remove_shell_mutation` leaves when it succeeds. -/
theorem removeShellMutation_left (h : (d'.removeShellMutation shellId).1 = .ok undo) :
    (d'.removeShellMutation shellId).2.shells = d'.shells.erase shellId
      ∧ ∀ k, ((d'.removeShellMutation shellId).2.workspaces.lookup k).isSome =
        (d'.workspaces.lookup k).isSome := by
  unfold DurableState.removeShellMutation at h ⊢
  split at h
  · cases h
  next shell hshell =>
    split at h
    · cases h
    next workspace hworkspace =>
      split at h
      · cases h
      next index hindex =>
        dsimp only at h ⊢
        split at h
        · cases h
        next bumped hbumped =>
          refine ⟨rfl, fun k => ?_⟩
          dsimp only
          rw [HashMap.get_insert]
          split
          next hk => rw [hk, hworkspace]; rfl
          next => rfl

/-- The removal of the Shells `removed` from both maps. -/
theorem SameShells.removal {m : Shells} {m' : HashMap String LockedShell} (h : SameShells m m')
    (removed shells : List String) (hsub : ∀ k ∈ shells, k ∈ removed)
    (habsent : ∀ k ∈ removed, k ∉ shells → m'.lookup k = none) :
    SameShells (shells.foldl (fun m id => m.erase id) m) (HashMap.eraseAll m' removed) := by
  constructor
  · intro k
    rw [get_foldl_erase, HashMap.get_eraseAll, h.get]
    by_cases hk : k ∈ shells
    · rw [if_pos hk, if_pos (hsub k hk)]
      rfl
    · rw [if_neg hk]
      split
      next hmem => rw [habsent k hmem hk, Option.map_none]
      next => rfl
  · intro k shell hshell
    rw [HashMap.get_eraseAll] at hshell
    split at hshell
    · cases hshell
    · exact h.sound k shell hshell

/-- Putting back what the removal took gives the registry before it. -/
theorem SameRegistry.restored (h : SameRegistry d d') (now : Durable R)
    (hnow : ∀ k, k ∉ shells → now.shells.get k = d.shells.get k)
    (hsome : ∀ k ∈ shells, (d'.shells.lookup k).isSome = true) :
    SameRegistry ⟨d.workspaces, reinsert d now shells, d.rest⟩ d' := by
  refine ⟨⟨fun k => ?_, h.shells.sound⟩, h.workspaces⟩
  show (reinsert d now shells).get k = _
  rw [get_reinsert, ← h.shells.get]
  by_cases hk : k ∈ shells
  · have hget : (d.shells.get k).isSome = true := by
      rw [h.shells.get, Option.isSome_map]
      exact hsome k hk
    rw [if_pos ⟨hk, hget⟩]
  · rw [if_neg fun hboth => hk hboth.1, hnow k hk]

/-- `durable_apply` in both models, and the registry that its undo gives back. -/
theorem SameCall.durableApply (h : SameCall call call') (hd : SameRegistry d d')
    (hselect : call'.selectShells d₀ = .ok shells) (hworkspaces : d'.workspaces = d₀.workspaces)
    (hkeys : ∀ k, (d'.shells.lookup k).isSome = (d₀.shells.lookup k).isSome)
    (happly : call'.durableApply d' = (.ok undos, left)) :
    SameRegistry (call.durableApply d shells).1 left
      ∧ SameRegistry (rollback (call.durableApply d shells).2 (call.durableApply d shells).1)
        d' := by
  have hsome : ∀ k ∈ shells, (d'.shells.lookup k).isSome = true := fun k hk => by
    rw [hkeys]
    exact h.select_isSome hselect k hk
  cases h with
  | closeShell shellId expectedRevision detach =>
      obtain ⟨rfl, -⟩ := closeShellGuarded_select hselect
      obtain ⟨hok, rfl⟩ := Prod.mk.inj happly
      obtain ⟨undo, hundo, -⟩ : ∃ undo, (d'.removeShellMutation shellId).1 = .ok undo ∧
          [undo] = undos := by
        cases hr : (d'.removeShellMutation shellId).1 with
        | error e => rw [hr] at hok; cases hok
        | ok undo => rw [hr] at hok; exact ⟨undo, rfl, Except.ok.inj hok⟩
      obtain ⟨hshells, hkept⟩ := removeShellMutation_left hundo
      refine ⟨⟨?_, fun k => ?_⟩, hd.restored _ (fun k hk => ?_) hsome⟩
      · show SameShells (d.shells.erase shellId) _
        rw [hshells]
        exact hd.shells.removal [shellId] [shellId] (fun _ hk => hk) fun _ hk hnot => absurd hk hnot
      · rw [hkept]
        exact hd.workspaces k
      · show Shells.get (d.shells.erase shellId) k = _
        rw [Shells.get_erase, if_neg fun heq => hk (List.mem_singleton.mpr heq)]
  | closeWorkspace workspaceId expectedRevision detach =>
      obtain ⟨workspace, hworkspace, rfl⟩ := closeWorkspaceGuarded_select hselect
      rw [← hworkspaces] at hworkspace
      have hremove : d'.removeWorkspaceMutation workspaceId =
          (.ok (.removedWorkspace workspaceId workspace
              (HashMap.entries d'.shells workspace.shellIds)
              (HashMap.entries d'.launchers workspace.launcherIds)
              (HashMap.entries d'.agents workspace.agentIds)),
            { workspaces := d'.workspaces.erase workspaceId
              shells := HashMap.eraseAll d'.shells workspace.shellIds
              launchers := HashMap.eraseAll d'.launchers workspace.launcherIds
              agents := HashMap.eraseAll d'.agents workspace.agentIds }) := by
        unfold DurableState.removeWorkspaceMutation
        rw [hworkspace]
      have hleft := (Prod.mk.inj happly).2
      have hleft : (d'.removeWorkspaceMutation workspaceId).2 = left := hleft
      rw [hremove] at hleft
      subst hleft
      refine ⟨⟨?_, fun k => ?_⟩, hd.restored _ (fun k hk => ?_) hsome⟩
      · refine hd.shells.removal _ _ (fun k hk => (List.mem_filter.mp hk).1) fun k hk hnot => ?_
        -- a Shell of the list that is not selected is not in the map
        refine Option.not_isSome_iff_eq_none.mp fun hget => ?_
        rw [hkeys] at hget
        exact hnot (List.mem_filter.mpr ⟨hk, hget⟩)
      · show k ∈ d.workspaces.filter (· ≠ workspaceId) ↔ _
        dsimp only
        rw [List.mem_filter, HashMap.get_erase, hd.workspaces]
        split <;> simp_all
      · exact (get_foldl_erase _ _ _).trans (if_neg hk)
  | shutdown =>
      obtain ⟨-, rfl⟩ := Prod.mk.inj happly
      exact ⟨hd, hd⟩

end Call

/-! ## The steps of a transaction -/

/-- The actions of one lifecycle transaction, and what other threads publish meanwhile. -/
def OfLifecycle (call : Daemon.LifecycleCall R) : Action R → Prop
  | .lifecycleBegin call' => call' = call
  | .flushBegin byHolder _ => byHolder = true
  | .stopShell _ | .compensate | .lifecycleApply _ | .flushWrite _ | .flushFinish | .write _
  | .finish | .publish _ => True
  | _ => False

/-- The machine gets from one world to the other by steps of the transaction. -/
abbrev Leads (call : Daemon.LifecycleCall R) (w u : World R) : Prop :=
  Reach World.step (fun _ a => OfLifecycle call a) w u

/-- No reader has output to publish: none will publish when it is paused. -/
def Quiet (readers : List Reader) : Prop :=
  ∀ reader ∈ readers, reader.pending = none ∧ reader.phase ≠ .draining

/-- What other threads publish does not come from a reader. -/
structure Outcome.NoOutput (o : Outcome) : Prop where
  whileStopping : ∀ event ∈ o.whileStopping, event.kind.ofRuntime = true
  whileFlushing : ∀ event ∈ o.whileFlushing, event.kind.ofRuntime = true
  afterFlush : ∀ event ∈ o.afterFlush, event.kind.ofRuntime = true
  whileSaving : ∀ event ∈ o.whileSaving, event.kind.ofRuntime = true

section Steps

variable {call : Daemon.LifecycleCall R} {call' : LifecycleCall W L A} {w u : World R}
  {s : State W L A} {o : Outcome} {shells remaining stopped : List String}

theorem leads_step {v : World R} {a : Action R} (h : Leads call w u) (hs : u.step a = some v)
    (ha : OfLifecycle call a) : Leads call w v := h.tail ha hs

/-! ### What other threads publish -/

theorem publishRuntime_unnumbered (x : EventTransaction) (events : List RuntimeEvent) :
    (publishRuntime x events).unnumbered = publishRuntime x.unnumbered events := by
  induction events generalizing x with
  | nil => rfl
  | cons event events ih =>
      show (publishRuntime (x.publishRuntimeBatch [event.kind]).2 events).unnumbered =
        publishRuntime (x.unnumbered.publishRuntimeBatch [event.kind]).2 events
      rw [ih, EventTransaction.publishRuntimeBatch_unnumbered]

theorem publishRuntime_reservation (x : EventTransaction) (events : List RuntimeEvent) :
    (publishRuntime x events).transition.lifecycleEventReservation =
      x.transition.lifecycleEventReservation := by
  induction events generalizing x with
  | nil => rfl
  | cons event events ih =>
      refine (ih _).trans ?_
      show (x.publishRuntimeBatch [event.kind]).2.transition.lifecycleEventReservation = _
      unfold EventTransaction.publishRuntimeBatch
      split
      · rfl
      · split <;> rfl

/-- The machine publishes the events one by one. -/
theorem leads_publish (w : World R) {events : List RuntimeEvent}
    (he : ∀ event ∈ events, event.kind.ofRuntime = true) :
    Leads call w { w with events := publishRuntime w.events events } := by
  induction events generalizing w with
  | nil => exact .refl
  | cons event events ih =>
      have hstep : w.step (.publish [event.kind]) =
          some { w with events := (w.events.publishRuntimeBatch [event.kind]).2 } := by
        have hall : [event.kind].all (·.ofRuntime) = true := by
          rw [List.all_cons, he event List.mem_cons_self]
          rfl
        simp only [World.step, if_pos hall]
      exact .head (a := .publish [event.kind]) trivial hstep
        (ih _ fun event' hmem => he event' (List.mem_cons_of_mem _ hmem))

theorem Tracks.publish (h : Tracks w s) (events : List RuntimeEvent) :
    Tracks { w with events := publishRuntime w.events events } (s.publish events) := by
  refine h.withEvents ?_
  rw [publishRuntime_unnumbered, h.events, publishRuntime_unnumbered]

/-! ### The stop loop -/

/-- What the machine is told of the end of a `stop_runtime`. -/
def stopOutcome : Except StopRuntimeError Unit → StopOutcome
  | .ok () => .stopped
  | .error error => if error.stopped then .cleanupFailed else .killFailed

theorem setPhase_readers (w : World R) (runId : String) (hq : Quiet w.readers) :
    ∃ readers, w.setPhase runId ReaderPhase.stop = { w with readers := readers }
      ∧ Quiet readers := by
  refine ⟨_, rfl, fun reader hreader => ?_⟩
  obtain ⟨old, hold, rfl⟩ := List.mem_map.mp hreader
  obtain ⟨hpending, hphase⟩ := hq old hold
  split
  · refine ⟨hpending, ?_⟩
    cases hp : old.phase with
    | draining => exact absurd hp hphase
    | _ => simp [ReaderPhase.stop]
  · exact ⟨hpending, hphase⟩

/-- A reader without output is paused without an event. -/
theorem pauseReader_quiet (w : World R) (runId : String) (hq : Quiet w.readers) :
    w.pauseReader runId = (true, w) := by
  unfold World.pauseReader
  split
  · rfl
  next index hindex =>
    split
    · rfl
    next reader hreader =>
      obtain ⟨hpending, hphase⟩ := hq reader (List.mem_of_getElem? hreader)
      rw [hpending]
      cases hp : reader.phase with
      | draining => exact absurd hp hphase
      | _ => rfl

/-- `stop_runtime` in both models. -/
theorem stopRuntime_quiet (hq : Quiet w.readers) {shellId : String} {shell : LockedShell}
    (hget : w.durable.state.shells.get shellId = some shell.toShell)
    (outcome : Except StopRuntimeError Unit) :
    ∃ readers, w.stopRuntime shellId (stopOutcome outcome) =
        ((stopRuntime shell outcome).mapError (·.stopped), { w with readers := readers })
      ∧ Quiet readers := by
  -- a runtime is stopped; its reader is paused first
  have hrun (runId : String) : ∃ readers, w.stopRun runId (stopOutcome outcome) =
      (outcome.mapError (·.stopped), { w with readers := readers }) ∧ Quiet readers := by
    obtain ⟨readers, hphase, hreaders⟩ := setPhase_readers w runId hq
    unfold World.stopRun
    rw [pauseReader_quiet w runId hq]
    cases outcome with
    | ok _ => exact ⟨readers, by rw [← hphase]; rfl, hreaders⟩
    | error error =>
        obtain ⟨source, stopped⟩ := error
        cases stopped with
        | true => exact ⟨readers, by rw [← hphase]; rfl, hreaders⟩
        | false => exact ⟨w.readers, rfl, hq⟩
  unfold World.stopRuntime stopRuntime
  rw [hget, Option.map_some]
  cases shell.lifecycle with
  | pending => exact ⟨w.readers, rfl, hq⟩
  | closed => exact ⟨w.readers, rfl, hq⟩
  | running profile run => exact hrun run.id
  | exited code profile run runtime =>
      cases runtime with
      | true => exact hrun run.id
      | false => exact ⟨w.readers, rfl, hq⟩

/-- The stop loop. -/
theorem leads_stopAll {m : HashMap String LockedShell} (hq : Quiet w.readers)
    (hm : SameShells w.durable.state.shells m)
    (hholder : w.holder = .stopping call shells remaining stopped)
    (hsome : ∀ k ∈ remaining, (m.lookup k).isSome = true)
    (stop : Nat → Except StopRuntimeError Unit) (index : Nat) :
    ∃ readers holder, Leads call w { w with readers := readers, holder := holder }
      ∧ Quiet readers
      ∧ holder = match (stopAll m stop index remaining).2 with
        | none => .stopping call shells [] (stopped ++ (stopAll m stop index remaining).1)
        | some _ => .compensating call (stopped ++ (stopAll m stop index remaining).1) := by
  induction remaining generalizing w stopped index with
  | nil =>
      refine ⟨w.readers, w.holder, .refl, hq, ?_⟩
      rw [hholder]
      show _ = Holder.stopping call shells [] (stopped ++ [])
      rw [List.append_nil]
  | cons k remaining ih =>
      obtain ⟨shell, hget⟩ := Option.isSome_iff_exists.mp (hsome k List.mem_cons_self)
      have hgetw : w.durable.state.shells.get k = some shell.toShell := by
        rw [hm.get, hget, Option.map_some]
      obtain ⟨readers, hstop, hreaders⟩ := stopRuntime_quiet hq hgetw (stop index)
      unfold stopAll
      rw [hget]
      dsimp only
      cases hresult : stopRuntime shell (stop index) with
      | ok _ =>
          rw [hresult] at hstop
          have hstep : w.step (.stopShell (stopOutcome (stop index))) =
              some { w with
                readers := readers
                holder := .stopping call shells remaining (stopped ++ [k]) } := by
            simp only [World.step, hholder, hstop]
            rfl
          obtain ⟨readers', holder, hleads, hreaders', hend⟩ := ih
            (w := { w with
              readers := readers
              holder := .stopping call shells remaining (stopped ++ [k]) })
            hreaders hm rfl (fun j hj => hsome j (List.mem_cons_of_mem _ hj)) (index + 1)
          refine ⟨readers', holder,
            .head (a := .stopShell (stopOutcome (stop index))) trivial hstep hleads, hreaders', ?_⟩
          rw [hend, List.append_assoc]
          rfl
      | error error =>
          obtain ⟨source, ended⟩ := error
          rw [hresult] at hstop
          refine ⟨readers, _, .tail .refl (a := .stopShell (stopOutcome (stop index))) trivial ?_,
            hreaders, rfl⟩
          simp only [World.step, hholder, hstop]
          cases ended with
          | true => rfl
          | false =>
              show some { w with
                readers := readers, holder := Holder.compensating call stopped } = _
              conv_lhs => rw [← List.append_nil stopped]
              rfl

/-! ### The flush -/

/-- Where a flush returns to. -/
theorem Tracks.flushReturned (h : Tracks w s)
    (hholder : w.holder = .stopping call shells [] stopped) (hflush : w.flush = none) (ok : Bool) :
    Tracks (w.flushReturned true ok) s ∧ (w.flushReturned true ok).flush = none
      ∧ (w.flushReturned true ok).holder =
        if ok then .finalizing call shells else .compensating call stopped := by
  unfold World.flushReturned
  rw [hholder]
  exact ⟨h.congr rfl rfl rfl, hflush, rfl⟩

/-- Both find something to flush, or neither does. -/
theorem Tracks.nothingToFlush (h : Tracks w s) :
    (w.events.transition.pendingDurableEvents.isEmpty && !w.durable.persistenceDirty) =
      (s.events.transition.pendingDurableEvents.isEmpty && !s.persistenceDirty) := by
  have hempty := congrArg List.isEmpty h.transition.2.2
  rw [List.isEmpty_map, List.isEmpty_map] at hempty
  rw [hempty, h.persistenceDirty]

/-- A flush leaves the registry and the reservation alone. -/
theorem flushPending_kept (s : State W L A) (o : Outcome) :
    (s.flushPending o).2.durable = s.durable
      ∧ (s.flushPending o).2.events.transition.lifecycleEventReservation =
        s.events.transition.lifecycleEventReservation := by
  unfold State.flushPending
  dsimp only
  split
  · exact ⟨rfl, rfl⟩
  split
  · exact ⟨rfl, rfl⟩
  split
  · exact ⟨rfl, rfl⟩
  -- the batches are taken, other threads publish, and the file is written
  have hframe := State.writePersistedState_frame ({ s with
    events := s.events.takePendingDurable.beginPersistence
      s.events.pendingDurableEventCount }.publish o.whileFlushing) s.persistenceRevision
    o.flushSave
  have hpublished := publishRuntime_reservation (s.events.takePendingDurable.beginPersistence
    s.events.pendingDurableEventCount) o.whileFlushing
  generalize State.writePersistedState _ _ _ = written at hframe ⊢
  obtain ⟨hdurable, -, hevents⟩ := hframe
  have hreservation : written.events.transition.lifecycleEventReservation =
      s.events.transition.lifecycleEventReservation := by
    rw [hevents]
    exact hpublished
  split
  · exact ⟨hdurable, (publishPendingRuntime_reservation ..).trans hreservation⟩
  split
  · exact ⟨hdurable, hreservation⟩
  · refine ⟨hdurable, (publishPendingRuntime_reservation ..).trans ?_⟩
    show (List.foldl EventTransaction.appendBatch written.events
      _).transition.lifecycleEventReservation = _
    rw [(written.events.foldl_appendBatch _).1]
    exact hreservation

/-- The end of a flush in the world `w`: the batches are restored after a failed save, and
appended after one that has succeeded, as far as the ids reach. -/
theorem Tracks.flushFinish (h : Tracks w s)
    (hholder : w.holder = .stopping call shells [] stopped) (flush : Flush R)
    (hby : flush.byHolder = true) {pending : List Batch}
    (hpending : flush.pending.map (·.unnumbered) = pending.map (·.unnumbered)) :
    (Tracks (w.flushFinish flush false) { s with
        events := (s.events.restorePendingDurable pending).finishPersistence }
      ∧ (w.flushFinish flush false).flush = none
      ∧ (w.flushFinish flush false).holder = .compensating call stopped)
    ∧ (∀ e, s.events.reserveWithPending 0 = .error e → Tracks (w.flushFinish flush true) s
      ∧ (w.flushFinish flush true).flush = none
      ∧ (w.flushFinish flush true).holder = .compensating call stopped)
    ∧ (s.events.reserveWithPending 0 = .ok () → Tracks (w.flushFinish flush true) { s with
        events := (pending.foldl EventTransaction.appendBatch s.events).finishPersistence }
      ∧ (w.flushFinish flush true).flush = none
      ∧ (w.flushFinish flush true).holder = .finalizing call shells) := by
  refine ⟨?_, fun e he => ?_, fun hroom => ?_⟩
  · have hevents : ((w.events.restorePendingDurable flush.pending).finishPersistence).unnumbered =
        ((s.events.restorePendingDurable pending).finishPersistence).unnumbered := by
      rw [EventTransaction.finishPersistence_unnumbered,
        EventTransaction.restorePendingDurable_unnumbered, h.events, hpending,
        EventTransaction.finishPersistence_unnumbered,
        EventTransaction.restorePendingDurable_unnumbered]
    unfold World.flushFinish
    rw [if_neg Bool.false_ne_true, hby]
    have htracks : Tracks { w with
        flush := none
        events := (w.events.restorePendingDurable flush.pending).finishPersistence } _ :=
      (h.withEvents hevents).congr rfl rfl rfl
    exact htracks.flushReturned hholder rfl false
  · unfold World.flushFinish
    rw [if_pos rfl, h.reserveWithPending, he, hby]
    have htracks : Tracks { w with flush := none } s := h.congr rfl rfl rfl
    exact htracks.flushReturned hholder rfl false
  · have hevents : ((flush.pending.foldl EventTransaction.appendBatch
        w.events).finishPersistence).unnumbered =
          ((pending.foldl EventTransaction.appendBatch s.events).finishPersistence).unnumbered := by
      rw [EventTransaction.finishPersistence_unnumbered, EventTransaction.appendBatches_unnumbered,
        h.events, hpending, EventTransaction.finishPersistence_unnumbered,
        EventTransaction.appendBatches_unnumbered]
    unfold World.flushFinish
    rw [if_pos rfl, h.reserveWithPending, hroom, hby]
    have htracks : Tracks { w with
        flush := none
        events := (flush.pending.foldl EventTransaction.appendBatch w.events).finishPersistence
        published := w.published ++ flush.pending } _ :=
      (h.withEvents hevents).congr rfl rfl rfl
    exact htracks.flushReturned hholder rfl true

/-- `flush_pending`, called by the transaction. -/
theorem leads_flushPending (h : Tracks w s)
    (hholder : w.holder = .stopping call shells [] stopped) (hflush : w.flush = none)
    (ho : o.NoOutput) :
    ∃ u, Leads call w u ∧ Tracks u (s.flushPending o).2 ∧ u.flush = none
      ∧ u.holder = match (s.flushPending o).1 with
        | .ok _ => .finalizing call shells
        | .error _ => .compensating call stopped := by
  have hbegin (captured : Bool) :
      w.step (.flushBegin true captured) = some (w.flushBegin true captured) := by
    simp only [World.step, World.persistFree, World.mayFlush, hflush, hholder]
    rfl
  have hreturned := h.flushReturned hholder hflush
  unfold State.flushPending
  dsimp only
  rw [← h.nothingToFlush]
  split
  next hnothing =>
    have hworld : w.flushBegin true true = w.flushReturned true true := by
      unfold World.flushBegin
      rw [if_pos hnothing]
    have hstep := hbegin true
    rw [hworld] at hstep
    exact ⟨_, leads_step .refl hstep rfl, hreturned true⟩
  next hsome =>
    rw [← h.reserveWithPending]
    cases hreserve : w.events.reserveWithPending 0 with
    | error e =>
        have hworld : w.flushBegin true true = w.flushReturned true false := by
          unfold World.flushBegin
          rw [if_neg hsome, hreserve]
        have hstep := hbegin true
        rw [hworld] at hstep
        exact ⟨_, leads_step .refl hstep rfl, hreturned false⟩
    | ok _ =>
        cases hcapture : o.flushCapture with
        | error e =>
            have hworld : w.flushBegin true false = w.flushReturned true false := by
              unfold World.flushBegin
              rw [if_neg hsome, hreserve]
            have hstep := hbegin false
            rw [hworld] at hstep
            exact ⟨_, leads_step .refl hstep rfl, hreturned false⟩
        | ok _ =>
            -- the save: begin, what others publish, the write, and the end
            obtain ⟨saved, hsaved⟩ : ∃ saved, o.flushSave = saved := ⟨_, rfl⟩
            rw [hsaved]
            let flush : Flush R := ⟨true, w.events.transition.pendingDurableEvents,
              w.durable.capturePersistedState, none⟩
            let ok := saved.isOk
            let begun : World R := { w with
              events :=
                w.events.takePendingDurable.beginPersistence w.events.pendingDurableEventCount
              flush := some flush }
            let published : World R := { begun with
              events := publishRuntime begun.events o.whileFlushing }
            let written : World R := { published with
              durable := w.durable.writePersistedState flush.saved ok
              flush := some { flush with written := some ok }
              saves := if ok then w.saves ++ [flush.saved] else w.saves }
            have hworld : w.flushBegin true true = begun := by
              unfold World.flushBegin
              rw [if_neg hsome, hreserve]
            have hbegun := hbegin true
            rw [hworld] at hbegun
            have hwrite : published.step (.flushWrite ok) = some written := rfl
            have hfinish : written.step .flushFinish = some (written.flushFinish
              { flush with written := some ok } ok) := rfl
            have hleads : Leads call w published :=
              (leads_step .refl hbegun rfl).trans (leads_publish begun ho.whileFlushing)
            have hleads := leads_step (leads_step hleads hwrite trivial) hfinish trivial
            -- the state of the other model follows
            let begun' : State W L A := { s with
              events := s.events.takePendingDurable.beginPersistence
                s.events.pendingDurableEventCount }
            let written' := (begun'.publish o.whileFlushing).writePersistedState
              s.persistenceRevision saved
            have htracks : Tracks begun begun' := by
              refine (h.withEvents ?_).congr rfl rfl rfl
              rw [EventTransaction.beginPersistence_unnumbered,
                EventTransaction.takePendingDurable_unnumbered, h.events,
                EventTransaction.beginPersistence_unnumbered,
                EventTransaction.takePendingDurable_unnumbered,
                ← EventTransaction.pendingDurableEventCount_unnumbered, h.events,
                EventTransaction.pendingDurableEventCount_unnumbered]
            have htracks : Tracks written written' := by
              have hwritten := (htracks.publish o.whileFlushing).writePersistedState flush.saved
                (rfl : ok = saved.isOk)
              have hrevision : flush.saved.revision = s.persistenceRevision :=
                h.persistenceRevision
              rw [hrevision] at hwritten
              exact hwritten.congr rfl rfl rfl
            have hended := htracks.flushFinish hholder { flush with written := some ok } rfl
              h.transition.2.2
            refine ⟨_, hleads, ?_⟩
            cases saved with
            | error e => exact hended.1
            | ok _ =>
                cases hroom : written'.events.reserveWithPending 0 with
                | error e => exact hended.2.1 e hroom
                | ok _ => exact hended.2.2 hroom

/-! ### The rest of the transaction -/

/-- The machine gets from `w` to the end of the transaction, with the state `s` of the other
model. -/
def Ended (call : Daemon.LifecycleCall R) (w : World R) (s : State W L A) : Prop :=
  ∃ u, Leads call w u ∧ Tracks u s ∧ u.holder = .free ∧ u.flush = none

theorem Ended.of_leads (h : Leads call w u) (he : Ended call u s) : Ended call w s := by
  obtain ⟨v, hv, hrest⟩ := he
  exact ⟨v, h.trans hv, hrest⟩

/-- A stop or a flush has failed. -/
theorem ended_stopFailed (hcall : SameCall call call') (h : Tracks w s)
    (hholder : w.holder = .compensating call stopped) (hflush : w.flush = none)
    (error : DaemonError) : Ended call w (s.stopFailed call' stopped error).2 := by
  have hstep : w.step .compensate =
      some ((w.compensateStopped stopped).lifecycleFailed call) := by
    simp only [World.step, hholder]
  refine ⟨_, leads_step .refl hstep trivial,
    (h.compensateStopped stopped).lifecycleFailed hcall.stopping, rfl, ?_⟩
  show (w.compensateStopped stopped).flush = none
  rw [← hflush]
  unfold World.compensateStopped World.queueDurableBatch
  dsimp only
  split <;> rfl

/-- A rollback in both registries. -/
theorem Tracks.edit (h : Tracks w s) (edit : Edit R) {d' : DurableState W L A}
    (hd : SameRegistry (edit.apply w.durable.state) d') :
    Tracks { w with durable := w.durable.edit edit } { s with durable := d' } :=
  ⟨hd, h.events, h.persistenceRevision, h.persistenceDirty, h.stopping⟩

theorem restoreFinalized_flush (w : World R) (rollbacks : List (String × StopRollback)) :
    (w.restoreFinalized rollbacks).flush = w.flush := by
  unfold World.restoreFinalized World.queueDurableBatch
  dsimp only
  split <;> rfl

/-- The write of the captured state, and the commit. -/
theorem ended_saveStage (hcall : SameCall call call') {committed : List DaemonEventKind}
    {capacity : Nat} {rollbacks : List (String × StopRollback)}
    {undo : List (Durable R → Durable R)} {undos : List (DurableUndo W L A)} {n : Nat}
    (h : Tracks w { s with
      events := s.events.transferLifecycleReservationToPersistence committed.length
        (capacity - committed.length) })
    (hholder : w.holder = .window ⟨.lifecycle call rollbacks undo, ⟨n, committed⟩,
      w.durable.capturePersistedState, none⟩)
    (hflush : w.flush = none)
    (hundo : SameRegistry (rollback undo w.durable.state) (s.durable.rollbackAll undos))
    (ho : o.NoOutput) :
    Ended call w (s.saveStage call' o committed capacity rollbacks undos).2 := by
  unfold State.saveStage
  obtain ⟨saved, hsaved⟩ : ∃ saved, o.save = saved := ⟨_, rfl⟩
  rw [hsaved]
  let window : Window R := ⟨.lifecycle call rollbacks undo, ⟨n, committed⟩,
    w.durable.capturePersistedState, none⟩
  let ok := saved.isOk
  let published : World R := { w with events := publishRuntime w.events o.whileSaving }
  let written : World R := { published with
    durable := w.durable.writePersistedState window.saved ok
    holder := .window { window with written := some ok }
    saves := if ok then w.saves ++ [window.saved] else w.saves }
  have hwrite : published.step (.write ok) = some written := by
    have hpublished : published.holder = .window window := hholder
    have hworld : published.write window ok = written := by
      cases saved <;> rfl
    simp only [World.step, hpublished]
    rw [← hworld]
    rfl
  have hfinish : written.step .finish =
      some (written.finish { window with written := some ok } ok) := rfl
  have hleads : Leads call w published := leads_publish w ho.whileSaving
  refine .of_leads (leads_step (leads_step hleads hwrite trivial) hfinish trivial) ?_
  -- the state of the other model follows
  let begun' : State W L A := { s with
    events := s.events.transferLifecycleReservationToPersistence committed.length
      (capacity - committed.length) }
  let written' := (begun'.publish o.whileSaving).writePersistedState s.persistenceRevision saved
  have htracks : Tracks written written' := by
    have hwritten := (h.publish o.whileSaving).writePersistedState window.saved
      (rfl : ok = saved.isOk)
    have hrevision : window.saved.revision = s.persistenceRevision := h.persistenceRevision
    rw [hrevision] at hwritten
    exact hwritten.congr rfl rfl rfl
  have hstate : written.durable.state = w.durable.state := writePersistedState_state ..
  have hstate' : written'.durable = s.durable := (State.writePersistedState_frame ..).1
  cases saved with
  | error e =>
      have hundone : Tracks { written with
          durable := written.durable.edit (.rolledBack n undo)
          rolledBack := written.rolledBack ++ [n]
          holder := .free } { written' with durable := written'.durable.rollbackAll undos } := by
        refine (htracks.edit (.rolledBack n undo) ?_).congr rfl rfl rfl
        rw [hstate']
        show SameRegistry (rollback undo written.durable.state) _
        rw [hstate]
        exact hundo
      have hfailed := ((hundone.restoreFinalized rollbacks).lifecycleFailed
        hcall.stopping).finishPersistence
      rw [cancelStopping_finishPersistence] at hfailed
      refine ⟨_, .refl, hfailed, rfl, ?_⟩
      exact (restoreFinalized_flush _ _).trans hflush
  | ok _ =>
      have hevents :
          ((written.events.appendBatch
            ⟨n, committed⟩).releaseLifecycleReservation.finishPersistence).unnumbered =
          ((written'.events.appendBatch
            ⟨0, committed⟩).releaseLifecycleReservation.finishPersistence).unnumbered := by
        rw [EventTransaction.finishPersistence_unnumbered,
          EventTransaction.releaseLifecycleReservation_unnumbered,
          EventTransaction.appendBatch_unnumbered, htracks.events,
          EventTransaction.finishPersistence_unnumbered,
          EventTransaction.releaseLifecycleReservation_unnumbered,
          EventTransaction.appendBatch_unnumbered]
        rfl
      exact ⟨_, .refl, (htracks.withEvents hevents).congr rfl rfl rfl, rfl, hflush⟩

/-- The finalize loop of sound Shells changes neither which removals exhaust a revision nor which
Shells there are. -/
theorem exhausts_finalized {d : DurableState W L A} (h : ¬ call'.Exhausts d) :
    ¬ call'.Exhausts { d with shells := (finalizeAll d.shells shells).shells } := by
  rintro ⟨shellId, shell, workspace, hremoval, hshell, hworkspace, hrest⟩
  have hmap := finalizeAll_workspaceId d.shells shells shellId
  rw [hshell] at hmap
  obtain ⟨shell', hshell', hid⟩ := Option.map_eq_some_iff.mp hmap.symm
  exact h ⟨shellId, shell', workspace, hremoval, hshell', by rw [hid]; exact hworkspace, hrest⟩

/-- The finalize loop, the durable apply, the capture, and what follows them. -/
theorem ended_finalizeStage (hcall : SameCall call call') (h : Tracks w s)
    (hholder : w.holder = .finalizing call shells) (hflush : w.flush = none) (ho : o.NoOutput)
    (hselect : call'.selectShells s.durable = .ok shells) (hexhausts : ¬ call'.Exhausts s.durable)
    {capacity : Nat} (hcapacity : s.events.transition.lifecycleEventReservation = capacity) :
    Ended call w (s.finalizeStage call' o (call'.committedEvents s.durable shells) capacity
      shells).2 := by
  obtain ⟨hfailed, hrollbacks, hshells⟩ := h.registry.shells.finalizeAll shells
  have hstep (failure : Option LifecycleFailure) :
      w.step (.lifecycleApply failure) = some (w.lifecycleApply call shells failure) := by
    simp only [World.step, World.persistFree, hflush, hholder]
    rfl
  have hkeys : ∀ k, ((finalizeAll s.durable.shells shells).shells.lookup k).isSome =
      (s.durable.shells.lookup k).isSome := fun k => by
    have hmap := congrArg Option.isSome (finalizeAll_workspaceId s.durable.shells shells k)
    rwa [Option.isSome_map, Option.isSome_map] at hmap
  -- the registries whose Shells are stopped
  let finalize (d : Durable R) : Durable R :=
    { d with shells := (Daemon.finalizeAll d.shells shells).1 }
  let stopped : Durable R := finalize w.durable.state
  let stopped' : DurableState W L A := { s.durable with
    shells := (finalizeAll s.durable.shells shells).shells }
  have hregistry : SameRegistry stopped stopped' := ⟨hshells, h.registry.workspaces⟩
  have hcommitted := hcall.committedEvents h.registry shells
  unfold State.finalizeStage
  dsimp only
  rw [hfailed, hrollbacks]
  dsimp only
  unfold State.applyStage
  dsimp only
  rcases durableApply_undone (exhausts_finalized hexhausts) with
    ⟨e, happly⟩ | ⟨undos, left, happly, hsame⟩
  · -- the removal fails before it changes anything
    rw [happly]
    dsimp only
    rw [cancelStopping_releaseLifecycleReservation]
    have htracks : Tracks { w with
        durable := w.durable.edit (.silent finalize)
        next := w.next + 1
        begun := w.begun ++ [⟨w.next, call.committedEvents w.durable.state shells⟩]
        rolledBack := w.rolledBack ++ [w.next] } { s with durable := stopped' } :=
      (h.edit (.silent finalize) hregistry).congr rfl rfl rfl
    refine ⟨_, leads_step .refl (hstep (some .apply)) trivial,
      (htracks.restoreFinalized _).lifecycleFailed hcall.stopping, rfl, ?_⟩
    exact (restoreFinalized_flush _ _).trans hflush
  · rw [happly]
    dsimp only
    obtain ⟨happlied, hundone⟩ := hcall.durableApply hregistry hselect rfl hkeys happly
    have hundone : SameRegistry
        (rollback (call.durableApply stopped shells).2 (call.durableApply stopped shells).1)
        (left.rollbackAll undos) :=
      ⟨hundone.shells.congr hsame.shells.symm, fun k => by
        rw [hundone.workspaces, hsame.workspaces]⟩
    cases hcapture : o.capture with
    | error e =>
        dsimp only
        rw [cancelStopping_releaseLifecycleReservation]
        let undo (d : Durable R) : Durable R := rollback (call.durableApply (finalize d) shells).2
          (call.durableApply (finalize d) shells).1
        have htracks : Tracks { w with
            durable := w.durable.edit (.silent undo)
            next := w.next + 1
            begun := w.begun ++ [⟨w.next, call.committedEvents w.durable.state shells⟩]
            rolledBack := w.rolledBack ++ [w.next] }
            { s with durable := left.rollbackAll undos } :=
          (h.edit (.silent undo) hundone).congr rfl rfl rfl
        refine ⟨_, leads_step .refl (hstep (some .capture)) trivial,
          (htracks.restoreFinalized _).lifecycleFailed hcall.stopping, rfl, ?_⟩
        exact (restoreFinalized_flush _ _).trans hflush
    | ok _ =>
        dsimp only
        refine .of_leads (leads_step .refl (hstep none) trivial) ?_
        refine ended_saveStage hcall (n := w.next) ⟨happlied, ?_, h.persistenceRevision,
          h.persistenceDirty, h.stopping⟩ ?_ hflush hundone ho
        · show (w.events.transferLifecycleReservationToPersistence
            (call.committedEvents w.durable.state shells).length
            (w.events.transition.lifecycleEventReservation -
              (call.committedEvents w.durable.state shells).length)).unnumbered = _
          rw [EventTransaction.transferLifecycleReservationToPersistence_unnumbered, h.events,
            hcommitted, h.transition.2.1, hcapacity,
            ← EventTransaction.transferLifecycleReservationToPersistence_unnumbered]
        · rw [← hcommitted]
          rfl

/-- The stop loop and the flush. -/
theorem ended_stopStage (hcall : SameCall call call') (h : Tracks w s) (hq : Quiet w.readers)
    (hholder : w.holder = .stopping call shells shells []) (hflush : w.flush = none)
    (ho : o.NoOutput) (hselect : call'.selectShells s.durable = .ok shells)
    (hexhausts : ¬ call'.Exhausts s.durable) {capacity : Nat}
    (hcapacity : s.events.transition.lifecycleEventReservation = capacity) :
    Ended call w (s.stopStage call' o (call'.committedEvents s.durable shells) capacity
      shells).2 := by
  obtain ⟨readers, holder, hleads, hreaders, hend⟩ := leads_stopAll hq h.registry.shells hholder
    (hcall.select_isSome hselect) o.stop 0
  have hpublished := (h.publish o.whileStopping).congr
    (u := { w with
      readers := readers, holder := holder
      events := publishRuntime w.events o.whileStopping }) rfl rfl rfl
  refine .of_leads (hleads.trans (leads_publish _ ho.whileStopping)) ?_
  unfold State.stopStage
  dsimp only
  cases hstop : (stopAll s.durable.shells o.stop 0 shells).2 with
  | some e =>
      rw [hstop, List.nil_append] at hend
      exact ended_stopFailed hcall hpublished hend hflush _
  | none =>
      rw [hstop, List.nil_append] at hend
      dsimp only
      obtain ⟨u, hleads, htracks, huflush, huholder⟩ := leads_flushPending hpublished hend hflush ho
      obtain ⟨hdurable, hreservation⟩ := flushPending_kept (s.publish o.whileStopping) o
      cases hresult : (s.publish o.whileStopping).flushPending o with
      | mk result flushed =>
          rw [hresult] at htracks huholder hdurable hreservation
          have hflushed := htracks.publish o.afterFlush
          refine .of_leads (hleads.trans (leads_publish u ho.afterFlush)) ?_
          cases result with
          | error e => exact ended_stopFailed hcall hflushed huholder huflush _
          | ok _ =>
              have hdurable : (flushed.publish o.afterFlush).durable = s.durable := hdurable
              have hkept : (flushed.publish
                  o.afterFlush).events.transition.lifecycleEventReservation = capacity := by
                rw [← hcapacity]
                exact (publishRuntime_reservation _ _).trans
                  (hreservation.trans (publishRuntime_reservation _ _))
              have hfinalized := ended_finalizeStage hcall hflushed huholder huflush ho
                (by rw [hdurable]; exact hselect) (by rw [hdurable]; exact hexhausts) hkept
              rw [hdurable] at hfinalized
              exact hfinalized

/-- A `lifecycle_transaction` is a run of the machine. It begins when the mutation lock is free and
no flush runs, no lock of a Shell is poisoned, no paused reader has output left, and the removal
exhausts no revision. The two models select the same Shells in the same order, and nothing but
runtime events is published meanwhile. -/
theorem lifecycleTransaction_ended (hcall : SameCall call call') (h : Tracks w s)
    (hq : Quiet w.readers) (hholder : w.holder = .free) (hflush : w.flush = none)
    (ho : o.NoOutput) (hexhausts : ¬ call'.Exhausts s.durable)
    (hselect : ∀ shells, call'.selectShells s.durable = .ok shells →
      call.selectShells w.durable.state = some shells) :
    Ended call w (s.lifecycleTransaction call' o).2 := by
  have hreturned : Ended call w s := ⟨w, .refl, h, hholder, hflush⟩
  unfold State.lifecycleTransaction
  cases o.checkpoint with
  | error e => exact hreturned
  | ok _ =>
      cases hstopping : s.stopping with
      | true =>
          dsimp only
          rw [if_pos rfl]
          split <;> exact hreturned
      | false =>
          dsimp only
          rw [if_neg Bool.false_ne_true]
          -- a call that fails early takes `stopping` back
          have hcancelled : ({ s with stopping := call'.stopping } : State W L A).cancelStopping
              call' = s := by
            obtain ⟨durable, events, revision, dirty, stopping⟩ := s
            obtain rfl : stopping = false := hstopping
            unfold State.cancelStopping
            cases call'.stopping <;> rfl
          cases hshells : call'.selectShells s.durable with
          | error e =>
              dsimp only
              rwa [hcancelled]
          | ok shells =>
              dsimp only
              cases hreserve : s.events.reserveWithPending
                  (max (call'.committedEvents s.durable shells).length shells.length) with
              | error e =>
                  dsimp only
                  rwa [hcancelled]
              | ok _ =>
                  dsimp only
                  have hwstopping : w.stopping = false := h.stopping.trans hstopping
                  let capacity := max (call'.committedEvents s.durable shells).length shells.length
                  let begun : World R := { w with
                    events := w.events.beginLifecycleReservation capacity
                    stopping := call.stopping || w.stopping
                    lifecycleActive := true
                    holder := .stopping call shells shells [] }
                  have hbegin : w.step (.lifecycleBegin call) = some begun := by
                    simp only [World.step, hholder, hwstopping, Bool.false_eq_true, if_false,
                      World.lifecycleBegin, hselect shells hshells, Option.bind_eq_bind,
                      Option.bind_some, hcall.committedEvents h.registry, h.reserveWithPending,
                      hreserve, begun, capacity]
                  have hevents : (w.events.beginLifecycleReservation capacity).unnumbered =
                      (s.events.beginLifecycleReservation capacity).unnumbered := by
                    rw [EventTransaction.beginLifecycleReservation_unnumbered, h.events,
                      ← EventTransaction.beginLifecycleReservation_unnumbered]
                  have hstop : (call.stopping || w.stopping) = call'.stopping := by
                    rw [hwstopping, Bool.or_false, hcall.stopping]
                  have htracks : Tracks begun { s with
                      events := s.events.beginLifecycleReservation capacity
                      stopping := call'.stopping } :=
                    ⟨h.registry, hevents, h.persistenceRevision, h.persistenceDirty, hstop⟩
                  exact .of_leads (leads_step .refl hbegin rfl)
                    (ended_stopStage hcall htracks hq rfl hflush ho hshells hexhausts rfl)

end Steps

end Lifecycle

end Boomux.Daemon
