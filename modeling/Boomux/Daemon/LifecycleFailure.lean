import Boomux.Daemon.Compensation

/-!
# Failed lifecycle transactions

`State.Compensated` says what a failed call should leave: no Shell closed, the stopped ones pending
with one exit queued for each, the others as they were, the maps, order lists and revisions of
before, and nothing held. `State.Unhindered` is the exact condition: no lock of a Shell that the
call stops is poisoned, and the call does not get as far as removing a Shell from a Workspace
whose revision is exhausted (`remove_shell_mutation` takes the Shell out before it bumps the
revision, and records no undo when that fails).
-/

set_option autoImplicit false

namespace Boomux.Daemon.Lifecycle

open Rust

variable {W L A : Type}

/-! ## What other threads publish -/

/-- The events that wait. -/
def queue (x : EventTransaction) : List DaemonEventKind :=
  x.transition.pendingDurableEvents.flatMap (·.kinds) ++ x.transition.pendingRuntimeEvents

/-- No event that waits ends one of the runs. -/
def Untold (runs : String → Prop) (events : List DaemonEventKind) : Prop :=
  ∀ e ∈ events, ∀ runId, runs runId → e.endsRun runId = false

/-- The queues fit, and without a block they are empty. -/
structure Fits (x : EventTransaction) : Prop where
  room : x.events.latestId + x.transition.reservedEventCount ≤ u64Max
  tidy : x.transition.publicationBlocked = false → x.transition.reservedEventCount = 0

section Events

variable {x y : EventTransaction} {runs : String → Prop} {events events' : List DaemonEventKind}

theorem Untold.append : Untold runs (events ++ events') ↔ Untold runs events
    ∧ Untold runs events' :=
  List.forall_mem_append

theorem Untold.mono (h : Untold runs events) (hsub : ∀ e ∈ events', e ∈ events) :
    Untold runs events' := fun e he => h e (hsub e he)

theorem Untold.count (h : Untold runs events) {runId : String} (hr : runs runId) :
    events.countP (·.endsRun runId) = 0 := by
  rw [List.countP_eq_zero]
  intro e he
  simp [h e he runId hr]

theorem reserveWithPending_eq_ok {count : Nat} : x.reserveWithPending count = .ok () ↔
    x.events.latestId + saturatingAdd x.transition.reservedEventCount count ≤ u64Max := by
  unfold EventTransaction.reserveWithPending EventTransaction.reserve ensureCapacity checkedAdd
  by_cases h : x.events.latestId + saturatingAdd x.transition.reservedEventCount count ≤ u64Max
  · simp [h]
  · simp [h]

theorem Fits.reserve (h : Fits x) : x.reserveWithPending 0 = .ok () := by
  refine reserveWithPending_eq_ok.mpr (le_trans (Nat.add_le_add_left ?_ _) h.room)
  exact Nat.min_le_left ..

/-- A flush counts what it has taken instead of what waits. -/
theorem Fits.take (h : Fits x) :
    Fits (x.takePendingDurable.beginPersistence x.pendingDurableEventCount) where
  room := by
    refine le_trans (Nat.add_le_add_left ?_ _) h.room
    simp only [EventTransaction.takePendingDurable, EventTransaction.beginPersistence,
      EventTransaction.pendingDurableEventCount, TransitionState.reservedEventCount, saturatingAdd,
      List.map_nil, List.sum_nil]
    generalize u64Max = limit
    omega
  tidy h := by simp [EventTransaction.beginPersistence, TransitionState.publicationBlocked] at h

/-- What a runtime event of another thread does to the queues. -/
structure Published (x y : EventTransaction) : Prop where
  durable : y.transition.pendingDurableEvents = x.transition.pendingDurableEvents
  inFlight : y.transition.persistenceInFlight = x.transition.persistenceInFlight
  untold : ∀ runs, Untold runs (queue x) → Untold runs (queue y)
  fits : Fits x → Fits y

theorem Published.trans {z : EventTransaction} (h : Published x y) (h' : Published y z) :
    Published x z where
  durable := h'.durable.trans h.durable
  inFlight := h'.inFlight.trans h.inFlight
  untold runs hu := h'.untold runs (h.untold runs hu)
  fits hf := h'.fits (h.fits hf)

theorem published_one (x : EventTransaction) (event : RuntimeEvent) :
    Published x (x.publishRuntimeBatch [event.kind]).2 := by
  have hquiet : ∀ runId, event.kind.endsRun runId = false := by
    cases event <;> exact fun _ => rfl
  unfold EventTransaction.publishRuntimeBatch ensureCapacity
  cases hroom : checkedAdd x.events.latestId
      (saturatingAdd x.transition.reservedEventCount [event.kind].length) with
  | none => exact ⟨rfl, rfl, fun _ h => h, fun h => h⟩
  | some last =>
      obtain ⟨hle, -⟩ := checkedAdd_eq_some.mp hroom
      cases hb : x.transition.publicationBlocked with
      | true =>
          have hsub := EventTransaction.coalesced_sublist event.kind
            x.transition.pendingRuntimeEvents
          refine ⟨rfl, rfl, fun runs h => ?_, fun h => ⟨?_, fun hfree => ?_⟩⟩
          · obtain ⟨hd, hr⟩ := Untold.append.mp h
            refine Untold.append.mpr ⟨hd, fun e he runId hrun => ?_⟩
            rcases List.mem_append.mp he with he | he
            · exact hr e (hsub.subset he) runId hrun
            · rw [List.mem_singleton.mp he]
              exact hquiet runId
          · have hlen := hsub.length_le
            show x.events.latestId + TransitionState.reservedEventCount
              { x.transition with pendingRuntimeEvents :=
                event.kind.coalesced x.transition.pendingRuntimeEvents ++ [event.kind] } ≤ u64Max
            refine le_trans (Nat.add_le_add_left ?_ _) hle
            simp only [TransitionState.reservedEventCount, saturatingAdd, List.length_append,
              List.length_singleton]
            generalize u64Max = limit
            omega
          · have hfree : x.transition.publicationBlocked = false := hfree
            rw [hb] at hfree
            cases hfree
      | false =>
          refine ⟨rfl, rfl, fun _ h => h, fun h => ⟨?_, h.tidy⟩⟩
          have hzero := h.tidy hb
          have hlatest := appendBatchLocked_latestId none x.events [event.kind]
          rw [hzero] at hle
          show (appendBatchLocked none x.events [event.kind]).latestId +
            x.transition.reservedEventCount ≤ u64Max
          rw [hlatest, hzero]
          simp only [saturatingAdd, List.length_singleton] at hle ⊢
          have hone : 1 ≤ u64Max := by decide
          generalize u64Max = limit at *
          omega

theorem published (x : EventTransaction) (new : List RuntimeEvent) :
    Published x (publishRuntime x new) := by
  induction new generalizing x with
  | nil => exact ⟨rfl, rfl, fun _ h => h, fun h => h⟩
  | cons event new ih => exact (published_one x event).trans (ih _)

@[simp] theorem publishPendingRuntime_durable :
    x.publishPendingRuntime.transition.pendingDurableEvents =
      x.transition.pendingDurableEvents := by
  unfold EventTransaction.publishPendingRuntime
  split <;> rfl

@[simp] theorem publishPendingRuntime_inFlight' :
    x.publishPendingRuntime.transition.persistenceInFlight = x.transition.persistenceInFlight := by
  unfold EventTransaction.publishPendingRuntime
  split <;> rfl

@[simp] theorem publishPendingRuntime_reservation :
    x.publishPendingRuntime.transition.lifecycleEventReservation =
      x.transition.lifecycleEventReservation := by
  unfold EventTransaction.publishPendingRuntime
  split <;> rfl

/-- Publishing what waits leaves no new event waiting. -/
theorem Untold.publishPendingRuntime (h : Untold runs (queue x)) :
    Untold runs (queue x.publishPendingRuntime) := by
  refine h.mono fun e he => ?_
  unfold EventTransaction.publishPendingRuntime at he
  split at he
  · exact he
  · exact List.mem_append_left _ (by simpa [queue] using he)

end Events

/-! ## What a failed call should leave -/

/-- Two registries with the same maps, order lists and revisions; a Shell is the same while its
Workspace, its revision and its locks are. -/
structure DurableState.SameMaps (d d' : DurableState W L A) : Prop where
  workspaces : HashMap.Same d.workspaces d'.workspaces
  shells : ∀ k, (d.shells.lookup k).map (fun shell => (shell.workspaceId, shell.revision,
    shell.poisoned)) =
    (d'.shells.lookup k).map fun shell => (shell.workspaceId, shell.revision, shell.poisoned)
  launchers : HashMap.Same d.launchers d'.launchers
  agents : HashMap.Same d.agents d'.agents

namespace State

/-- The events that are queued for publication as durable batches. -/
def queued (s : State W L A) : List DaemonEventKind :=
  s.events.transition.pendingDurableEvents.flatMap (·.kinds)

/-- The runs that are running. -/
def Runs (s : State W L A) (runId : String) : Prop :=
  ∃ k shell run, s.durable.shells.lookup k = some shell ∧ shell.running? = some run ∧ run.id = runId

/-- What a call finds: no other transaction is inside a lifecycle or a persistence phase, and every
running Shell has a run of its own that has not ended and whose exit nobody has told. -/
structure Ready (s : State W L A) : Prop where
  reservation : s.events.transition.lifecycleEventReservation = 0
  inFlight : s.events.transition.persistenceInFlight = false
  tidy : s.events.transition.publicationBlocked = false →
    s.events.transition.reservedEventCount = 0
  distinct : RunsDistinct s.durable.shells
  fresh : ∀ k shell run, s.durable.shells.lookup k = some shell → shell.running? = some run →
    run.exitReason = none
  untold : Untold s.Runs (queue s.events)

/-- What the call should leave behind after an error; `stopped` are the Shells whose processes it
has stopped. -/
structure Compensated (s : State W L A) (stopped : List String) (t : State W L A) : Prop where
  registered : ∀ k shell, t.durable.shells.lookup k = some shell → shell.lifecycle ≠ .closed
  stopped : ∀ k ∈ stopped, ∀ shell profile run, s.durable.shells.lookup k = some shell →
    shell.lifecycle = .running profile run →
      ∃ shell' last, t.durable.shells.lookup k = some shell' ∧ shell'.lifecycle = .pending ∧
        shell'.lastRun = some last ∧ last.id = run.id ∧ last.exitReason = some .terminated ∧
          t.queued.countP (·.endsRun run.id) = 1
  exited : ∀ k shell code profile run runtime, s.durable.shells.lookup k = some shell →
    shell.lifecycle = .exited code profile run runtime →
      ∃ shell', t.durable.shells.lookup k = some shell' ∧ shell'.lifecycle = shell.lifecycle
  maps : s.durable.SameMaps t.durable
  reservation : t.events.transition.lifecycleEventReservation = 0
  inFlight : t.events.transition.persistenceInFlight = false
  stopping : t.stopping = false

/-! ## The condition -/

/-- Whether `flush_pending` has nothing to do, or goes through. -/
def Flushes (s : State W L A) (o : Outcome) : Prop :=
  (s.events.transition.pendingDurableEvents = [] ∧ s.persistenceDirty = false) ∨
    (o.flushCapture = .ok () ∧ o.flushSave = .ok ())

/-- The stop loop of the call, if it is reached: the Shells whose processes it stops, and the
error it ends with. -/
def stopLoop (s : State W L A) (call : LifecycleCall W L A) (o : Outcome) :
    Option (List String × Option IoError) :=
  match o.checkpoint, call.selectShells s.durable with
  | .ok (), .ok shells =>
      match s.events.reserveWithPending
          (max (call.committedEvents s.durable shells).length shells.length) with
      | .ok () => some (stopAll s.durable.shells o.stop 0 shells)
      | .error _ => none
  | _, _ => none

/-- The Shells whose processes the call stops. -/
def stoppedBy (s : State W L A) (call : LifecycleCall W L A) (o : Outcome) : List String :=
  ((s.stopLoop call o).map (·.1)).getD []

/-- The call gets as far as its durable apply. -/
def Applies (s : State W L A) (call : LifecycleCall W L A) (o : Outcome) : Prop :=
  ∃ stopped, s.stopLoop call o = some (stopped, none) ∧ s.Flushes o ∧
    ∀ k ∈ stopped, ∀ shell, s.durable.shells.lookup k = some shell → shell.finalizable = true

end State

/-- The Shell to remove is in a Workspace whose revision is exhausted. -/
def LifecycleCall.Exhausts (call : LifecycleCall W L A) (d : DurableState W L A) : Prop :=
  ∃ shellId shell workspace, call.removal = some (.shell shellId) ∧
    d.shells.lookup shellId = some shell ∧
    d.workspaces.lookup shell.workspaceId = some workspace ∧ shellId ∈ workspace.shellIds ∧
    u64Max ≤ workspace.revision

namespace State

/-- When a failing call compensates: the daemon is not stopping already, no registered Shell is
closed, no lock of a running Shell that it stops is poisoned, and it does not apply a removal that
exhausts a revision. -/
structure Unhindered (s : State W L A) (call : LifecycleCall W L A) (o : Outcome) : Prop where
  running : s.stopping = false
  registered : ∀ k shell, s.durable.shells.lookup k = some shell → shell.lifecycle ≠ .closed
  locks : ∀ k ∈ s.stoppedBy call o, ∀ shell, s.durable.shells.lookup k = some shell →
    shell.running?.isSome = true → shell.finalizable = true
  revision : s.Applies call o → ¬ call.Exhausts s.durable

end State

/-! ## The flush -/

namespace State

section Flush

variable {v : State W L A} {runs : String → Prop}

/-- What a flush leaves alone. -/
structure Flushed (runs : String → Prop) (v v' : State W L A) : Prop where
  durable : v'.durable = v.durable
  stopping : v'.stopping = v.stopping
  inFlight : v'.events.transition.persistenceInFlight = false
  untold : Untold runs (queue v'.events)

theorem writePersistedState_frame (v : State W L A) (revision : Nat)
    (saved : Except IoError Unit) :
    (v.writePersistedState revision saved).durable = v.durable ∧
      (v.writePersistedState revision saved).stopping = v.stopping ∧
        (v.writePersistedState revision saved).events = v.events := by
  unfold writePersistedState
  split
  · split <;> exact ⟨rfl, rfl, rfl⟩
  · exact ⟨rfl, rfl, rfl⟩

theorem flushPending_spec (hf : Fits v.events)
    (hi : v.events.transition.persistenceInFlight = false) (hu : Untold runs (queue v.events))
    (o : Outcome) :
    Flushed runs v (v.flushPending o).2 ∧ ((v.flushPending o).1 = .ok () ↔ v.Flushes o) := by
  obtain ⟨hdurable, hruntime⟩ := Untold.append.mp hu
  unfold flushPending
  dsimp only
  split
  next hnone =>
    have hidle : v.events.transition.pendingDurableEvents = [] ∧ v.persistenceDirty = false := by
      simpa using hnone
    exact ⟨⟨rfl, rfl, hi, hu⟩, iff_of_true rfl (.inl hidle)⟩
  next hsome =>
    have hneeded : v.Flushes o ↔ o.flushCapture = .ok () ∧ o.flushSave = .ok () := by
      refine or_iff_right fun h => hsome ?_
      simp [h.1, h.2]
    rw [hf.reserve, hneeded]
    dsimp only
    split
    next e hc => exact ⟨⟨rfl, rfl, hi, hu⟩, by simp [hc]⟩
    next hc =>
      -- while the file is written the batches are taken, and publication is blocked
      have hframe := writePersistedState_frame ({ v with
        events := v.events.takePendingDurable.beginPersistence
          (v.events.pendingDurableEventCount) }.publish o.whileFlushing) v.persistenceRevision
        o.flushSave
      have hpub := published (v.events.takePendingDurable.beginPersistence
        v.events.pendingDurableEventCount) o.whileFlushing
      generalize hw : State.writePersistedState _ _ _ = written at hframe ⊢
      obtain ⟨hwd, hws, hwe⟩ := hframe
      have hwu : Untold runs (queue written.events) := by
        rw [hwe]
        exact hpub.untold runs hruntime
      have hwp : written.events.transition.pendingDurableEvents = [] := by
        rw [hwe]
        exact hpub.durable
      split
      next e hs =>
        refine ⟨⟨hwd, hws, publishPendingRuntime_inFlight' .., ?_⟩, by simp [hs]⟩
        refine Untold.publishPendingRuntime (Untold.append.mpr ⟨?_, (Untold.append.mp hwu).2⟩)
        show Untold runs (((written.events.restorePendingDurable _).pending).flatMap (·.kinds))
        rw [EventTransaction.restorePendingDurable_pending, EventTransaction.pending, hwp,
          List.append_nil]
        exact hdurable
      next hs =>
        have hfits : written.events.reserveWithPending 0 = .ok () := by
          rw [hwe]
          exact (hpub.fits (hf.take)).reserve
        rw [hfits]
        refine ⟨⟨hwd, hws, publishPendingRuntime_inFlight' .., ?_⟩, by simp [hs, hc]⟩
        refine Untold.publishPendingRuntime ?_
        show Untold runs (queue ⟨{ (List.foldl EventTransaction.appendBatch written.events
          _).transition with persistenceInFlight := false, inFlightEventCount := 0 }, _⟩)
        rw [(written.events.foldl_appendBatch _).1]
        exact hwu

end Flush

end State

/-! ## Removals -/

/-- Two registries with the same maps. -/
structure DurableState.Same (d d' : DurableState W L A) : Prop where
  workspaces : HashMap.Same d.workspaces d'.workspaces
  shells : HashMap.Same d.shells d'.shells
  launchers : HashMap.Same d.launchers d'.launchers
  agents : HashMap.Same d.agents d'.agents

section Removal

variable {call : LifecycleCall W L A} {d : DurableState W L A} {shellId workspaceId : String}
  {shell : LockedShell} {workspace : Workspace W} {index : Nat}

theorem insertIdx_eraseIdx_self {α : Type} {l : List α} {i : Nat} {a : α} (h : l[i]? = some a) :
    (l.eraseIdx i).insertIdx i a = l := by
  induction l generalizing i with
  | nil => simp at h
  | cons b l ih =>
      cases i with
      | zero =>
          obtain rfl : b = a := by simpa using h
          rfl
      | succ i => simpa using ih (by simpa using h)

/-- Rolling a bump back: a revision is positive. -/
theorem rollbackBump_revision (workspace : Workspace W) :
    max (workspace.revision + 1 - 1) 1 = workspace.revision := by
  have := workspace.revision_pos
  omega

/-- What `remove_shell_mutation` does once it has found the Shell. -/
theorem removeShellMutation_found (hs : d.shells.lookup shellId = some shell)
    (hw : d.workspaces.lookup shell.workspaceId = some workspace)
    (hi : workspace.shellIds.findIdx? (· = shellId) = some index) :
    d.removeShellMutation shellId =
      if workspace.revision + 1 ≤ u64Max then
        (.ok (.removedShell shell.workspaceId shellId shell index), { d with
          shells := d.shells.erase shellId
          workspaces := d.workspaces.insert shell.workspaceId { workspace with
            revision := workspace.revision + 1
            shellIds := workspace.shellIds.eraseIdx index
            revision_pos := Nat.succ_pos _ } })
      else
        (.error (.ofMessage "workspace revision exhausted"), { d with
          shells := d.shells.erase shellId
          workspaces := d.workspaces.insert shell.workspaceId { workspace with
            shellIds := workspace.shellIds.eraseIdx index } }) := by
  unfold DurableState.removeShellMutation Workspace.bumpRevision
  by_cases h : workspace.revision + 1 ≤ u64Max
  · simp only [hs, hw, hi, if_pos h]
  · simp only [hs, hw, hi, if_neg h]

theorem rollback_removedShell (hs : d.shells.lookup shellId = some shell)
    (hw : d.workspaces.lookup shell.workspaceId = some workspace)
    (hi : workspace.shellIds.findIdx? (· = shellId) = some index) :
    (({ d with
      shells := d.shells.erase shellId
      workspaces := d.workspaces.insert shell.workspaceId { workspace with
        revision := workspace.revision + 1
        shellIds := workspace.shellIds.eraseIdx index
        revision_pos := Nat.succ_pos _ } } : DurableState W L A).rollback
          (.removedShell shell.workspaceId shellId shell index)).Same d := by
  have hlist : (workspace.shellIds.eraseIdx index).insertIdx index shellId =
      workspace.shellIds := by
    obtain ⟨hlt, heq, -⟩ := List.findIdx?_eq_some_iff_getElem.mp hi
    refine insertIdx_eraseIdx_self ?_
    rw [List.getElem?_eq_getElem hlt]
    simpa using heq
  refine ⟨?_, .insert_erase hs, .refl _, .refl _⟩
  unfold DurableState.rollback
  simp only [AList.lookup_insert]
  have hback : ∀ h, ({ workspace with
      revision := max (workspace.revision + 1 - 1) 1
      shellIds := (workspace.shellIds.eraseIdx index).insertIdx index shellId
      revision_pos := h } : Workspace W) = workspace := by
    rw [hlist, rollbackBump_revision]
    exact fun _ => rfl
  unfold Workspace.rollbackBump
  rw [hback]
  exact .insert_insert hw _

/-- An exhausted revision is noticed when the Shell is gone. -/
theorem durableApply_exhausted (h : call.Exhausts d) : ∃ e left k,
    call.durableApply d = (.error e, left) ∧ (d.shells.lookup k).isSome = true ∧
      left.shells.lookup k = none := by
  obtain ⟨shellId, shell, workspace, hr, hs, hw, hmem, hmax⟩ := h
  obtain ⟨index, hi⟩ : ∃ index, workspace.shellIds.findIdx? (· = shellId) = some index := by
    rw [← Option.isSome_iff_exists, List.findIdx?_isSome, List.any_eq_true]
    exact ⟨shellId, hmem, by simp⟩
  have hfull : ¬ workspace.revision + 1 ≤ u64Max := by omega
  have hcall := removeShellMutation_found hs hw hi
  rw [if_neg hfull] at hcall
  have happly : call.durableApply d =
      ((d.removeShellMutation shellId).1.map fun undo => [undo],
        (d.removeShellMutation shellId).2) := by
    unfold LifecycleCall.durableApply
    rw [hr]
  rw [hcall] at happly
  exact ⟨_, _, shellId, happly, by rw [hs]; rfl, AList.lookup_erase ..⟩

/-- Any other removal fails before it changes anything, or can be undone. -/
theorem durableApply_undone (h : ¬ call.Exhausts d) : (∃ e, call.durableApply d = (.error e, d)) ∨
    ∃ undo left, call.durableApply d = (.ok undo, left) ∧ (left.rollbackAll undo).Same d := by
  unfold LifecycleCall.durableApply
  cases hr : call.removal with
  | none => exact .inr ⟨[], d, rfl, .refl _, .refl _, .refl _, .refl _⟩
  | some removal =>
      cases removal with
      | shell shellId =>
          by_cases hfound : ∃ shell workspace index, d.shells.lookup shellId = some shell ∧
              d.workspaces.lookup shell.workspaceId = some workspace ∧
                workspace.shellIds.findIdx? (· = shellId) = some index
          · obtain ⟨shell, workspace, index, hs, hw, hi⟩ := hfound
            have hmem : shellId ∈ workspace.shellIds := by
              obtain ⟨hlt, heq, -⟩ := List.findIdx?_eq_some_iff_getElem.mp hi
              have heq : workspace.shellIds[index] = shellId := by simpa using heq
              exact heq ▸ List.getElem_mem hlt
            have hroom : workspace.revision + 1 ≤ u64Max := by
              by_contra hfull
              exact h ⟨shellId, shell, workspace, hr, hs, hw, hmem, by omega⟩
            have hcall := removeShellMutation_found hs hw hi
            rw [if_pos hroom] at hcall
            simp only [hcall]
            exact .inr ⟨_, _, rfl, rollback_removedShell hs hw hi⟩
          · have herror : ∃ e, d.removeShellMutation shellId = (.error e, d) := by
              unfold DurableState.removeShellMutation
              split
              · exact ⟨_, rfl⟩
              next shell hs =>
                split
                · exact ⟨_, rfl⟩
                next workspace hw =>
                  split
                  · exact ⟨_, rfl⟩
                  next index hi => exact absurd ⟨shell, workspace, index, hs, hw, hi⟩ hfound
            obtain ⟨e, he⟩ := herror
            exact .inl ⟨e, by simp only [he]; rfl⟩
      | workspace workspaceId =>
          cases hw : d.workspaces.lookup workspaceId with
          | none =>
              have hcall : d.removeWorkspaceMutation workspaceId =
                  (.error (notFound "workspace" workspaceId), d) := by
                simp [DurableState.removeWorkspaceMutation, hw]
              exact .inl ⟨_, by simp only [hcall]; rfl⟩
          | some workspace =>
              have hcall : ∃ undo left, d.removeWorkspaceMutation workspaceId = (.ok undo, left) ∧
                  (left.rollback undo).Same d := by
                simp only [DurableState.removeWorkspaceMutation, hw]
                exact ⟨_, _, rfl, .insert_erase hw, .insertAll_eraseAll _ _,
                  .insertAll_eraseAll _ _, .insertAll_eraseAll _ _⟩
              obtain ⟨undo, left, hcall, hsame⟩ := hcall
              exact .inr ⟨[undo], left, by simp only [hcall]; rfl, hsame⟩

end Removal

/-! ## The compensations -/

namespace State

section Compensation

variable {s v t : State W L A} {call : LifecycleCall W L A} {shells stopped : List String}

/-- Queueing a batch behind the drained runtime events. -/
theorem queueDurableBatchLocked_frame (v : State W L A) (kinds : List DaemonEventKind) :
    (v.queueDurableBatchLocked kinds).durable = v.durable ∧
      (v.queueDurableBatchLocked kinds).stopping = v.stopping ∧
      (v.queueDurableBatchLocked kinds).queued = v.queued ++ kinds ∧
      (v.queueDurableBatchLocked kinds).events.transition.pendingRuntimeEvents =
        v.events.transition.pendingRuntimeEvents ∧
      (v.queueDurableBatchLocked kinds).events.transition.persistenceInFlight =
        v.events.transition.persistenceInFlight := by
  unfold queueDurableBatchLocked EventTransaction.queueDurableBatch
  cases kinds with
  | nil => simp
  | cons kind kinds => simp [queued]

/-- The Shells `shells` of `s` are put back in `t`, with their exits queued behind events that
end none of its runs, and nothing else has changed. -/
structure PutBack (s : State W L A) (shells : List String) (t : State W L A) : Prop where
  settles : ∃ events base, Settles s.durable.shells shells t.durable.shells events ∧
    t.queued = base ++ events ∧ Untold s.Runs base
  workspaces : HashMap.Same s.durable.workspaces t.durable.workspaces
  launchers : HashMap.Same s.durable.launchers t.durable.launchers
  agents : HashMap.Same s.durable.agents t.durable.agents

theorem PutBack.of_queued (h : s.PutBack shells t) {t' : State W L A} (hd : t'.durable = t.durable)
    (hq : t'.queued = t.queued) : s.PutBack shells t' := by
  obtain ⟨⟨events, base, hs, hqueued, hb⟩, hw, hl, ha⟩ := h
  rw [← hd] at hs hw hl ha
  exact ⟨⟨events, base, hs, hq.trans hqueued, hb⟩, hw, hl, ha⟩

theorem PutBack.releaseLifecycleReservation (h : s.PutBack shells t) :
    s.PutBack shells t.releaseLifecycleReservation :=
  h.of_queued rfl (by
    simp [queued, State.releaseLifecycleReservation, EventTransaction.releaseLifecycleReservation])

theorem PutBack.finishPersistence (h : s.PutBack shells t) :
    s.PutBack shells t.finishPersistence :=
  h.of_queued rfl (by
    simp [queued, State.finishPersistence, EventTransaction.finishPersistence])

theorem PutBack.cancelStopping (h : s.PutBack shells t) (call : LifecycleCall W L A) :
    s.PutBack shells (t.cancelStopping call) := by
  unfold State.cancelStopping
  split
  · exact h.of_queued rfl rfl
  · exact h

/-- The compensation before the finalize loop. -/
theorem compensateStoppedLocked_putBack (hs : s.Ready) (hd : v.durable = s.durable)
    (hu : Untold s.Runs (queue v.events)) (shells : List String) :
    s.PutBack shells (v.compensateStoppedLocked shells).2 := by
  unfold compensateStoppedLocked
  dsimp only
  obtain ⟨hdurable, -, hqueued, -⟩ := queueDurableBatchLocked_frame
    { v with
      durable := { v.durable with shells := (compensateAll v.durable.shells shells).1 }
      events := v.events.drainRuntimeEvents }
    (v.events.transition.pendingRuntimeEvents ++ (compensateAll v.durable.shells shells).2.1)
  refine ⟨⟨(compensateAll v.durable.shells shells).2.1, queue v.events, ?_, ?_, hu⟩, ?_, ?_, ?_⟩
  · rw [hdurable, hd]
    exact compensateAll_settles hs.distinct shells
  · rw [hqueued, ← List.append_assoc]
    rfl
  · rw [hdurable, hd]
    exact .refl _
  · rw [hdurable, hd]
    exact .refl _
  · rw [hdurable, hd]
    exact .refl _

/-- What a finalize loop of the call has stopped: the maps are those of `s`, but for the Shells. -/
structure Finalizes (s : State W L A) (shells : HashMap String LockedShell)
    (d : DurableState W L A) : Prop where
  shells : HashMap.Same d.shells shells
  workspaces : HashMap.Same s.durable.workspaces d.workspaces
  launchers : HashMap.Same s.durable.launchers d.launchers
  agents : HashMap.Same s.durable.agents d.agents

theorem restoreFinalizedLocked_durable (v : State W L A)
    (rollbacks : List (String × StopRollback)) :
    (v.restoreFinalizedLocked rollbacks).durable =
        { v.durable with shells := restoreAll v.durable.shells rollbacks } ∧
      (v.restoreFinalizedLocked rollbacks).queued = queue v.events ++
        rollbacks.filterMap (fun p => p.2.event) ∧
      (v.restoreFinalizedLocked rollbacks).events.transition.pendingRuntimeEvents = [] := by
  unfold restoreFinalizedLocked
  dsimp only
  obtain ⟨hdurable, -, hqueued, hruntime, -⟩ := queueDurableBatchLocked_frame
    { v with
      durable := { v.durable with shells := restoreAll v.durable.shells rollbacks }
      events := v.events.drainRuntimeEvents }
    (v.events.transition.pendingRuntimeEvents ++ rollbacks.filterMap fun p => p.2.event)
  refine ⟨hdurable, ?_, hruntime⟩
  rw [hqueued, ← List.append_assoc]
  rfl

/-- The compensation after a finalize loop without a failure. -/
theorem restoreFinalizedLocked_putBack {f : Finalized} (hf : Stopped s.durable.shells shells f)
    (hd : s.Finalizes f.shells v.durable) (hu : Untold s.Runs (queue v.events)) :
    s.PutBack shells (v.restoreFinalizedLocked f.rollbacks) := by
  obtain ⟨hdurable, hqueued, -⟩ := restoreFinalizedLocked_durable v f.rollbacks
  refine ⟨⟨_, queue v.events, ?_, hqueued, hu⟩, ?_, ?_, ?_⟩
  · rw [hdurable]
    exact hf.restoreAll hd.shells
  · rw [hdurable]
    exact hd.workspaces
  · rw [hdurable]
    exact hd.launchers
  · rw [hdurable]
    exact hd.agents

/-- The two compensations after a finalize loop that has failed. -/
theorem finalizeFailed_putBack (hs : s.Ready) {remaining : List String} {e : IoError}
    (hf : (finalizeAll s.durable.shells shells).failed = some (remaining, e))
    (hd : v.durable = { s.durable with shells := (finalizeAll s.durable.shells shells).shells })
    (hu : Untold s.Runs (queue v.events)) :
    s.PutBack shells ((v.restoreFinalizedLocked
      (finalizeAll s.durable.shells shells).rollbacks).compensateStoppedLocked remaining).2 := by
  obtain ⟨hdurable, hqueued, hruntime⟩ := restoreFinalizedLocked_durable v
    (finalizeAll s.durable.shells shells).rollbacks
  generalize hw : v.restoreFinalizedLocked (finalizeAll s.durable.shells shells).rollbacks = w at *
  have hboth := finalizeAll_failed_settles hs.distinct hf
  unfold compensateStoppedLocked
  dsimp only
  obtain ⟨hdurable', -, hqueued', -⟩ := queueDurableBatchLocked_frame
    { w with
      durable := { w.durable with shells := (compensateAll w.durable.shells remaining).1 }
      events := w.events.drainRuntimeEvents }
    (w.events.transition.pendingRuntimeEvents ++ (compensateAll w.durable.shells remaining).2.1)
  rw [hd] at hdurable
  refine ⟨⟨(finalizeAll s.durable.shells shells).rollbacks.filterMap (fun p => p.2.event) ++
    (compensateAll w.durable.shells remaining).2.1, queue v.events, ?_, ?_, hu⟩, ?_, ?_, ?_⟩
  · rw [hdurable', hdurable]
    exact hboth
  · rw [hqueued', hruntime, List.nil_append]
    show w.queued ++ _ = _
    rw [hqueued, List.append_assoc]
  · rw [hdurable', hdurable]
    exact .refl _
  · rw [hdurable', hdurable]
    exact .refl _
  · rw [hdurable', hdurable]
    exact .refl _

/-- Nothing is held when the call returns. -/
structure Free (t : State W L A) : Prop where
  reservation : t.events.transition.lifecycleEventReservation = 0
  inFlight : t.events.transition.persistenceInFlight = false
  stopping : t.stopping = false

theorem PutBack.get (h : s.PutBack shells t) {k : String} {shell : LockedShell}
    (hget : s.durable.shells.lookup k = some shell) :
    t.durable.shells.lookup k = some (if k ∈ shells then settle k shell else shell) := by
  obtain ⟨events, base, hsettles, -⟩ := h.settles
  rw [hsettles.get k, hget]
  rfl

/-- With the Shells put back, all is well if no Shell was closed before and the locks of those
that were stopped are fine. -/
theorem PutBack.compensated_iff (hs : s.Ready) (h : s.PutBack shells t) (hfree : t.Free)
    (hsub : ∀ k ∈ stopped, k ∈ shells) : s.Compensated stopped t ↔
      (∀ k shell, s.durable.shells.lookup k = some shell → shell.lifecycle ≠ .closed) ∧
        ∀ k ∈ stopped, ∀ shell, s.durable.shells.lookup k = some shell →
          shell.running?.isSome = true → shell.finalizable = true := by
  have hclosed : ∀ {k : String} {shell : LockedShell},
      (if k ∈ shells then settle k shell else shell).lifecycle = .closed ↔
        shell.lifecycle = .closed := by
    intro k shell
    by_cases hk : k ∈ shells
    · rw [if_pos hk]
      exact settle_lifecycle_closed
    · rw [if_neg hk]
  constructor
  · intro hc
    refine ⟨fun k shell hget hl => hc.registered k _ (h.get hget) (hclosed.mpr hl),
      fun k hk shell hget hrun => ?_⟩
    by_contra hpoisoned
    obtain ⟨profile, run, hl⟩ := running_of_isSome hrun
    obtain ⟨⟨run', hl', -⟩, -⟩ := settle_poisoned k hl (by simpa using hpoisoned)
    obtain ⟨shell', -, hget', hpending, -⟩ := hc.stopped k hk shell profile run hget hl
    rw [h.get hget, if_pos (hsub k hk)] at hget'
    cases hget'
    rw [hl'] at hpending
    cases hpending
  · rintro ⟨hopen, hlocks⟩
    obtain ⟨events, base, hsettles, hqueued, hbase⟩ := h.settles
    refine ⟨fun k shell' hget' => ?_, fun k hk shell profile run hget hl => ?_,
      fun k shell code profile run runtime hget hl => ?_,
      ⟨h.workspaces, fun k => ?_, h.launchers, h.agents⟩, hfree.reservation, hfree.inFlight,
      hfree.stopping⟩
    · rw [hsettles.get k] at hget'
      obtain ⟨shell, hget, rfl⟩ := Option.map_eq_some_iff.mp hget'
      rw [Ne, hclosed]
      exact hopen k shell hget
    · have hrunning : shell.running? = some run := by simp [Shell.running?, hl]
      have hfine := hlocks k hk shell hget (by simp [hrunning])
      obtain ⟨hpending, hlast, hexit⟩ := settle_running k hl hfine
      have hends : Ends s.durable.shells run.id k :=
        ⟨shell, _, hget, hexit, by simp [DaemonEventKind.endsRun]⟩
      have hreason : (run.finish .terminated).exitReason = some .terminated := by
        simp [ShellRun.finish, hs.fresh k shell run hget hrunning]
      refine ⟨settle k shell, (run.finish .terminated).persisted profile, ?_, hpending, hlast,
        ShellRun.finish_id .., hreason, ?_⟩
      · rw [h.get hget, if_pos (hsub k hk)]
      · rw [hqueued, List.countP_append, hbase.count ⟨k, shell, run, hget, hrunning, rfl⟩,
          hsettles.exits.once run.id k (hsub k hk) hends]
    · refine ⟨_, h.get hget, ?_⟩
      split
      · exact (settle_exited hl).1
      · rfl
    · rw [hsettles.get k]
      cases s.durable.shells.lookup k with
      | none => rfl
      | some shell =>
          show some _ = some _
          split
          · obtain ⟨hw, hr, hp⟩ := settle_same k shell
            simp [hw, hr, hp]
          · rfl

theorem PutBack.refl (hd : t.durable = s.durable) (hu : Untold s.Runs t.queued) :
    s.PutBack [] t := by
  refine ⟨⟨[], t.queued, ⟨fun k => ?_, fun _ _ hk => absurd hk List.not_mem_nil, fun _ _ => rfl⟩,
    (List.append_nil _).symm, hu⟩, ?_, ?_, ?_⟩
  · rw [hd]
    simp
  · rw [hd]
    exact .refl _
  · rw [hd]
    exact .refl _
  · rw [hd]
    exact .refl _

@[simp] theorem cancelStopping_durable (t : State W L A) (call : LifecycleCall W L A) :
    (t.cancelStopping call).durable = t.durable := by
  unfold State.cancelStopping
  split <;> rfl

/-- The last steps of every failure before the save. -/
theorem free_of_released (hi : t.events.transition.persistenceInFlight = false)
    (hs : t.stopping = call.stopping) : (t.releaseLifecycleReservation.cancelStopping call).Free ∧
      (t.cancelStopping call).releaseLifecycleReservation.Free := by
  have hinFlight := (publishPendingRuntime_inFlight' (x := { t.events with
    transition := { t.events.transition with lifecycleEventReservation := 0 } })).trans hi
  have hreservation := publishPendingRuntime_reservation (x := { t.events with
    transition := { t.events.transition with lifecycleEventReservation := 0 } })
  unfold State.cancelStopping
  cases hcall : call.stopping with
  | true => exact ⟨⟨hreservation, hinFlight, rfl⟩, ⟨hreservation, hinFlight, rfl⟩⟩
  | false =>
      rw [hcall] at hs
      exact ⟨⟨hreservation, hinFlight, hs⟩, ⟨hreservation, hinFlight, hs⟩⟩

/-- The last steps of a failed save. -/
theorem free_of_finished (hs : t.stopping = call.stopping) :
    (t.releaseLifecycleReservation.finishPersistence.cancelStopping call).Free := by
  have hinFlight := publishPendingRuntime_inFlight' (x :=
    { t.events.releaseLifecycleReservation with
      transition := { t.events.releaseLifecycleReservation.transition with
        persistenceInFlight := false, inFlightEventCount := 0 } })
  have hreservation := (publishPendingRuntime_reservation (x :=
    { t.events.releaseLifecycleReservation with
      transition := { t.events.releaseLifecycleReservation.transition with
        persistenceInFlight := false, inFlightEventCount := 0 } })).trans
    (publishPendingRuntime_reservation (x := { t.events with
      transition := { t.events.transition with lifecycleEventReservation := 0 } }))
  unfold State.cancelStopping
  cases hcall : call.stopping with
  | true => exact ⟨hreservation, hinFlight, rfl⟩
  | false => exact ⟨hreservation, hinFlight, hs.trans hcall⟩

/-! ### The stages -/

/-- A call that is under way, between its transactions. -/
structure Underway (s : State W L A) (call : LifecycleCall W L A) (v : State W L A) : Prop where
  stopping : v.stopping = call.stopping
  inFlight : v.events.transition.persistenceInFlight = false
  untold : Untold s.Runs (queue v.events)

theorem Underway.publish (h : s.Underway call v) (new : List RuntimeEvent) :
    s.Underway call (v.publish new) :=
  ⟨h.stopping, (published v.events new).inFlight.trans h.inFlight,
    (published v.events new).untold _ h.untold⟩

theorem compensateStoppedLocked_frame (v : State W L A) (shells : List String) :
    (v.compensateStoppedLocked shells).2.stopping = v.stopping ∧
      (v.compensateStoppedLocked shells).2.events.transition.persistenceInFlight =
        v.events.transition.persistenceInFlight := by
  obtain ⟨-, hs, -, -, hi⟩ := queueDurableBatchLocked_frame
    { v with
      durable := { v.durable with shells := (compensateAll v.durable.shells shells).1 }
      events := v.events.drainRuntimeEvents }
    (v.events.transition.pendingRuntimeEvents ++ (compensateAll v.durable.shells shells).2.1)
  exact ⟨hs, hi⟩

theorem restoreFinalizedLocked_frame (v : State W L A) (rollbacks : List (String × StopRollback)) :
    (v.restoreFinalizedLocked rollbacks).stopping = v.stopping ∧
      (v.restoreFinalizedLocked rollbacks).events.transition.persistenceInFlight =
        v.events.transition.persistenceInFlight := by
  obtain ⟨-, hs, -, -, hi⟩ := queueDurableBatchLocked_frame
    { v with
      durable := { v.durable with shells := restoreAll v.durable.shells rollbacks }
      events := v.events.drainRuntimeEvents }
    (v.events.transition.pendingRuntimeEvents ++ rollbacks.filterMap fun p => p.2.event)
  exact ⟨hs, hi⟩

theorem stopFailed_putBack (hs : s.Ready) (hv : s.Underway call v) (hd : v.durable = s.durable)
    (shells : List String) (error : DaemonError) :
      s.PutBack shells (v.stopFailed call shells error).2 ∧
      (v.stopFailed call shells error).2.Free := by
  obtain ⟨hstopping, hinFlight⟩ := compensateStoppedLocked_frame v shells
  refine ⟨?_, (free_of_released (hinFlight.trans hv.inFlight) (hstopping.trans hv.stopping)).1⟩
  exact (compensateStoppedLocked_putBack hs hd hv.untold
    shells).releaseLifecycleReservation.cancelStopping call

theorem saveStage_putBack {f : Finalized} {undo : List (DurableUndo W L A)} {o : Outcome}
    {committed : List DaemonEventKind} {capacity : Nat} {e : DaemonError}
    (hv : s.Underway call v) (hf : Stopped s.durable.shells shells f)
    (hd : s.Finalizes f.shells (v.durable.rollbackAll undo))
    (h : v.saveStage call o committed capacity f.rollbacks undo = (.error e, t)) :
    s.PutBack shells t ∧ t.Free := by
  unfold saveStage at h
  dsimp only at h
  have hframe := writePersistedState_frame ({ v with
    events := v.events.transferLifecycleReservationToPersistence committed.length
      (capacity - committed.length) }.publish o.whileSaving) v.persistenceRevision o.save
  have hpub := published (v.events.transferLifecycleReservationToPersistence committed.length
    (capacity - committed.length)) o.whileSaving
  generalize State.writePersistedState _ _ _ = written at hframe h
  obtain ⟨hwd, hws, hwe⟩ := hframe
  split at h
  next e' hsave =>
    obtain ⟨-, rfl⟩ := Prod.mk.inj h
    have huntold : Untold s.Runs (queue written.events) := by
      rw [hwe]
      exact hpub.untold _ hv.untold
    have hd' : s.Finalizes f.shells (written.durable.rollbackAll undo) := by
      rw [hwd]
      exact hd
    have hput : s.PutBack shells
        ({ written with durable := written.durable.rollbackAll undo }.restoreFinalizedLocked
          f.rollbacks) := restoreFinalizedLocked_putBack hf hd' huntold
    refine ⟨hput.releaseLifecycleReservation.finishPersistence.cancelStopping call, ?_⟩
    obtain ⟨hstopping, -⟩ := restoreFinalizedLocked_frame
      { written with durable := written.durable.rollbackAll undo } f.rollbacks
    exact free_of_finished (hstopping.trans (hws.trans hv.stopping))
  next => cases h

theorem finalizeStop_workspaceId (shellId : String) (shell : LockedShell) :
    (finalizeStop shellId shell).2.workspaceId = shell.workspaceId := by
  unfold finalizeStop
  split
  · rfl
  · split
    · rfl
    split
    · rfl
    split <;> rfl
  · split <;> rfl
  · rfl

/-- A finalize loop does not change which removals exhaust a revision. -/
theorem Finalizes.exhausts_iff {f : Finalized} {d : DurableState W L A}
    (hf : Stopped s.durable.shells shells f) (hd : s.Finalizes f.shells d) :
    call.Exhausts d ↔ call.Exhausts s.durable := by
  have hget : ∀ k, (d.shells.lookup k).map (·.workspaceId) =
      (s.durable.shells.lookup k).map (·.workspaceId) := fun k => by
    rw [hd.shells k, hf.get k, Option.map_map]
    congr 1
    funext shell
    show (if k ∈ shells then (finalizeStop k shell).2 else shell).workspaceId = shell.workspaceId
    split
    · exact finalizeStop_workspaceId k shell
    · rfl
  have hboth : ∀ {d₁ d₂ : DurableState W L A}, HashMap.Same d₁.workspaces d₂.workspaces →
      (∀ k, (d₁.shells.lookup k).map (fun shell => shell.workspaceId) =
        (d₂.shells.lookup k).map fun shell => shell.workspaceId) →
          call.Exhausts d₁ → call.Exhausts d₂ := by
    rintro d₁ d₂ hw hs ⟨shellId, shell, workspace, hr, hshell, hworkspace, hrest⟩
    have hk := hs shellId
    rw [hshell] at hk
    obtain ⟨shell', hshell', hid⟩ := Option.map_eq_some_iff.mp hk.symm
    exact ⟨shellId, shell', workspace, hr, hshell', by rw [hid, ← hw, hworkspace], hrest⟩
  exact ⟨hboth hd.workspaces.symm hget, hboth hd.workspaces fun k => (hget k).symm⟩

theorem applyStage_ends {f : Finalized} {o : Outcome} {committed : List DaemonEventKind}
    {capacity : Nat} {e : DaemonError} (hv : s.Underway call v)
    (hf : Stopped s.durable.shells shells f) (hd : s.Finalizes f.shells v.durable)
    (h : v.applyStage call o committed capacity f.rollbacks = (.error e, t)) :
    (¬ call.Exhausts s.durable ∧ s.PutBack shells t ∧ t.Free) ∨ (call.Exhausts s.durable ∧
      ∃ k, (s.durable.shells.lookup k).isSome = true ∧ t.durable.shells.lookup k = none) := by
  have hexit : ∀ d, s.Finalizes f.shells d →
      s.PutBack shells (({ v with durable := d }.restoreFinalizedLocked f.rollbacks).cancelStopping
        call).releaseLifecycleReservation ∧
      (({ v with durable := d }.restoreFinalizedLocked f.rollbacks).cancelStopping
        call).releaseLifecycleReservation.Free := by
    intro d hd'
    obtain ⟨hstopping, hinFlight⟩ := restoreFinalizedLocked_frame
      { v with durable := d } f.rollbacks
    have hput : s.PutBack shells ({ v with durable := d }.restoreFinalizedLocked f.rollbacks) :=
      restoreFinalizedLocked_putBack hf hd' hv.untold
    exact ⟨(hput.cancelStopping call).releaseLifecycleReservation,
      (free_of_released (hinFlight.trans hv.inFlight) (hstopping.trans hv.stopping)).2⟩
  unfold applyStage at h
  by_cases hx : call.Exhausts v.durable
  · obtain ⟨e', left, k, happly, hsome, hnone⟩ := durableApply_exhausted hx
    rw [happly] at h
    obtain ⟨-, rfl⟩ := Prod.mk.inj h
    refine .inr ⟨(hd.exhausts_iff hf).mp hx, k, ?_, ?_⟩
    · have hsame := hd.shells k
      rw [hf.get k] at hsame
      rw [hsame, Option.isSome_map] at hsome
      exact hsome
    · have hdurable := (restoreFinalizedLocked_durable { v with durable := left } f.rollbacks).1
      show (State.cancelStopping _ call).durable.shells.lookup k = none
      rw [cancelStopping_durable, hdurable, restoreAll_get]
      show Option.map _ (left.shells.lookup k) = none
      rw [hnone]
      rfl
  · refine .inl ⟨mt (hd.exhausts_iff hf).mpr hx, ?_⟩
    rcases durableApply_undone hx with ⟨e', happly⟩ | ⟨undo, left, happly, hsame⟩
    · rw [happly] at h
      obtain ⟨-, rfl⟩ := Prod.mk.inj h
      exact hexit v.durable hd
    · have hd' : s.Finalizes f.shells (left.rollbackAll undo) :=
        ⟨hsame.shells.trans hd.shells, hd.workspaces.trans hsame.workspaces.symm,
          hd.launchers.trans hsame.launchers.symm, hd.agents.trans hsame.agents.symm⟩
      rw [happly] at h
      dsimp only at h
      split at h
      · obtain ⟨-, rfl⟩ := Prod.mk.inj h
        exact hexit _ hd'
      · have hv' : s.Underway call { v with durable := left } :=
          ⟨hv.stopping, hv.inFlight, hv.untold⟩
        exact saveStage_putBack hv' hf hd' h

theorem finalizeStage_ends (hs : s.Ready) {o : Outcome} {committed : List DaemonEventKind}
    {capacity : Nat} {e : DaemonError} (hv : s.Underway call v) (hd : v.durable = s.durable)
    (h : v.finalizeStage call o committed capacity shells = (.error e, t)) :
    (s.PutBack shells t ∧ t.Free ∧ (call.Exhausts s.durable →
      ∃ k ∈ shells, ∃ shell, s.durable.shells.lookup k = some shell ∧ shell.finalizable = false)) ∨
    (call.Exhausts s.durable ∧ (∀ k ∈ shells, ∀ shell, s.durable.shells.lookup k = some shell →
      shell.finalizable = true) ∧
      ∃ k, (s.durable.shells.lookup k).isSome = true ∧ t.durable.shells.lookup k = none) := by
  unfold finalizeStage at h
  rw [hd] at h
  dsimp only at h
  cases hf : (finalizeAll s.durable.shells shells).failed with
  | none =>
      rw [hf] at h
      have hstopped := finalizeAll_stopped hs.distinct hf
      have hv' : s.Underway call { v with durable :=
          { s.durable with shells := (finalizeAll s.durable.shells shells).shells } } :=
        ⟨hv.stopping, hv.inFlight, hv.untold⟩
      have hd' : s.Finalizes (finalizeAll s.durable.shells shells).shells
          { s.durable with shells := (finalizeAll s.durable.shells shells).shells } :=
        ⟨.refl _, .refl _, .refl _, .refl _⟩
      rcases applyStage_ends hv' hstopped hd' h with ⟨hx, hput, hfree⟩ | ⟨hx, hgone⟩
      · exact .inl ⟨hput, hfree, fun hx' => absurd hx' hx⟩
      · exact .inr ⟨hx, hstopped.finalizable, hgone⟩
  | some p =>
      obtain ⟨remaining, e'⟩ := p
      rw [hf] at h
      obtain ⟨-, rfl⟩ := Prod.mk.inj h
      refine .inl ⟨?_, ?_, fun _ => finalizeAll_failed_poisoned hs.distinct hf⟩
      · refine PutBack.releaseLifecycleReservation (PutBack.cancelStopping ?_ call)
        exact finalizeFailed_putBack hs hf rfl hv.untold
      · refine (free_of_released ?_ ?_).2
        · rw [(compensateStoppedLocked_frame _ _).2, (restoreFinalizedLocked_frame _ _).2]
          exact hv.inFlight
        · rw [(compensateStoppedLocked_frame _ _).1, (restoreFinalizedLocked_frame _ _).1]
          exact hv.stopping

/-- The stop loop stops Shells of its list, and without an error all that are registered. -/
theorem stopAll_mem (m : HashMap String LockedShell) (stop : Nat → Except StopRuntimeError Unit)
    (shells : List String) (index : Nat) :
    (∀ k ∈ (stopAll m stop index shells).1, k ∈ shells) ∧
      ((stopAll m stop index shells).2 = none → ∀ k ∈ shells, (m.lookup k).isSome = true →
        k ∈ (stopAll m stop index shells).1) := by
  induction shells generalizing index with
  | nil => exact ⟨fun k hk => hk, fun _ k hk => absurd hk List.not_mem_nil⟩
  | cons shellId shells ih =>
      obtain ⟨hsub, hall⟩ := ih (index + 1)
      cases hget : m.lookup shellId with
      | none =>
          have hcall : stopAll m stop index (shellId :: shells) =
              stopAll m stop (index + 1) shells := by simp [stopAll, hget]
          rw [hcall]
          refine ⟨fun k hk => List.mem_cons_of_mem _ (hsub k hk), fun hnone k hk hsome => ?_⟩
          rcases List.mem_cons.mp hk with rfl | hk
          · rw [hget] at hsome
            cases hsome
          · exact hall hnone k hk hsome
      | some shell =>
          cases hstop : stopRuntime shell (stop index) with
          | ok =>
              have hcall : stopAll m stop index (shellId :: shells) =
                  (shellId :: (stopAll m stop (index + 1) shells).1,
                    (stopAll m stop (index + 1) shells).2) := by simp [stopAll, hget, hstop]
              rw [hcall]
              refine ⟨fun k hk => ?_, fun hnone k hk hsome => ?_⟩
              · rcases List.mem_cons.mp hk with rfl | hk
                · exact List.mem_cons_self
                · exact List.mem_cons_of_mem _ (hsub k hk)
              · rcases List.mem_cons.mp hk with rfl | hk
                · exact List.mem_cons_self
                · exact List.mem_cons_of_mem _ (hall hnone k hk hsome)
          | error error =>
              have hcall : stopAll m stop index (shellId :: shells) =
                  (if error.stopped then [shellId] else [], some error.source) := by
                simp [stopAll, hget, hstop]
              rw [hcall]
              refine ⟨fun k hk => ?_, fun hnone => absurd hnone (Option.some_ne_none _)⟩
              cases hs : error.stopped with
              | true =>
                  have hk : k ∈ [shellId] := by simpa [hs] using hk
                  rw [List.mem_singleton.mp hk]
                  exact List.mem_cons_self
              | false => simp [hs] at hk

/-- The stop loop of the call over these Shells lets it get as far as its durable apply. -/
def Passes (s : State W L A) (o : Outcome) (stopped : List String × Option IoError) : Prop :=
  stopped.2 = none ∧ s.Flushes o ∧
    ∀ k ∈ stopped.1, ∀ shell, s.durable.shells.lookup k = some shell → shell.finalizable = true

/-- What a failed call leaves: it has put the Shells back, or it has lost one to a removal that
exhausts a revision. -/
def EndsWith (s : State W L A) (call : LifecycleCall W L A) (stopped : List String) (passes : Prop)
    (t : State W L A) : Prop :=
  (∃ shells, s.PutBack shells t ∧ t.Free ∧ (∀ k ∈ stopped, k ∈ shells) ∧
      (passes → ¬ call.Exhausts s.durable)) ∨
    (passes ∧ call.Exhausts s.durable ∧
      ∃ k, (s.durable.shells.lookup k).isSome = true ∧ t.durable.shells.lookup k = none)

theorem stopStage_ends (hs : s.Ready) {o : Outcome} {committed : List DaemonEventKind}
    {capacity : Nat} {e : DaemonError} (hv : s.Underway call v) (hd : v.durable = s.durable)
    (hfits : Fits v.events) (hflush : v.Flushes o ↔ s.Flushes o)
    (h : v.stopStage call o committed capacity shells = (.error e, t)) :
    s.EndsWith call (stopAll s.durable.shells o.stop 0 shells).1
      (s.Passes o (stopAll s.durable.shells o.stop 0 shells)) t := by
  obtain ⟨hsub, hall⟩ := stopAll_mem s.durable.shells o.stop shells 0
  -- The first flush: what it leaves of the transaction is what it found.
  unfold stopStage at h
  rw [hd] at h
  dsimp only at h
  have hv' := hv.publish o.whileStopping
  have hflush' : (v.publish o.whileStopping).Flushes o ↔ s.Flushes o := by
    rw [← hflush]
    unfold Flushes
    rw [show (v.publish o.whileStopping).events.transition.pendingDurableEvents =
      v.events.transition.pendingDurableEvents from (published v.events o.whileStopping).durable]
    exact Iff.rfl
  have hfits' : Fits (v.publish o.whileStopping).events :=
    (published v.events o.whileStopping).fits hfits
  obtain ⟨hflushed, hok⟩ := flushPending_spec hfits' hv'.inFlight hv'.untold o
  have hw : s.Underway call ((v.publish o.whileStopping).flushPending o).2 :=
    ⟨hflushed.stopping.trans hv'.stopping, hflushed.inFlight, hflushed.untold⟩
  have hwd : ((v.publish o.whileStopping).flushPending o).2.durable = s.durable :=
    hflushed.durable.trans hd
  cases hstop : (stopAll s.durable.shells o.stop 0 shells).2 with
  -- A process does not stop: those that did are put back.
  | some e' =>
      rw [hstop] at h
      dsimp only at h
      obtain ⟨hput, hfree⟩ := stopFailed_putBack hs hv' hd
        (stopAll s.durable.shells o.stop 0 shells).1 (.ofIo e')
      rw [h] at hput hfree
      refine .inl ⟨_, hput, hfree, fun k hk => hk, fun hp => ?_⟩
      rw [hp.1] at hstop
      cases hstop
  | none =>
      rw [hstop] at h
      dsimp only at h
      generalize hr : (v.publish o.whileStopping).flushPending o = r at h hw hwd hok
      obtain ⟨result, w⟩ := r
      have hw := hw.publish o.afterFlush
      cases result with
      -- The flush fails: all of them are put back.
      | error e' =>
          dsimp only at h
          obtain ⟨hput, hfree⟩ := stopFailed_putBack hs hw hwd
            (stopAll s.durable.shells o.stop 0 shells).1 e'
          rw [h] at hput hfree
          refine .inl ⟨_, hput, hfree, fun k hk => hk, fun hp => ?_⟩
          exact absurd (hok.mpr (hflush'.mpr hp.2.1)) nofun
      -- All are stopped, and the run goes on to the finalize stage.
      | ok =>
          have hflushes : s.Flushes o := hflush'.mp (hok.mp rfl)
          rcases finalizeStage_ends hs hw hwd h with ⟨hput, hfree, hx⟩ | ⟨hx, hfine, hgone⟩
          · refine .inl ⟨shells, hput, hfree, hsub, fun hp hx' => ?_⟩
            obtain ⟨k, hk, shell, hget, hpoisoned⟩ := hx hx'
            have hfine := hp.2.2 k (hall hstop k hk (by rw [hget]; rfl)) shell hget
            rw [hpoisoned] at hfine
            cases hfine
          · exact .inr ⟨⟨hstop, hflushes, fun k hk => hfine k (hsub k hk)⟩, hx, hgone⟩

/-- The reservation of the call is what it has been checked for. -/
theorem Ready.fits (hs : s.Ready) {capacity : Nat}
    (hr : s.events.reserveWithPending capacity = .ok ()) :
    Fits (s.events.beginLifecycleReservation capacity) where
  room := by
    have hroom := reserveWithPending_eq_ok.mp hr
    show s.events.events.latestId + _ ≤ u64Max
    refine le_trans (Nat.add_le_add_left ?_ _) hroom
    simp only [EventTransaction.beginLifecycleReservation, TransitionState.reservedEventCount,
      saturatingAdd, hs.reservation]
    generalize u64Max = limit
    omega
  tidy h := by
    have hcapacity : capacity = 0 := by
      by_contra hne
      simp [EventTransaction.beginLifecycleReservation, TransitionState.publicationBlocked,
        hne] at h
    have hfree : s.events.transition.publicationBlocked = false := by
      rw [← h]
      simp only [EventTransaction.beginLifecycleReservation, TransitionState.publicationBlocked,
        hcapacity, hs.reservation]
    rw [← hs.tidy hfree, hcapacity]
    unfold TransitionState.reservedEventCount
    rw [hs.reservation]
    rfl

/-- A call that fails before its stop loop changes nothing. -/
theorem Ready.endsWith_early (hs : s.Ready) {o : Outcome} (hd : t.durable = s.durable)
    (he : t.events = s.events) (hstopping : t.stopping = false) (hloop : s.stopLoop call o = none) :
    s.EndsWith call (s.stoppedBy call o) (s.Applies call o) t := by
  have hnone : s.stoppedBy call o = [] := by simp [stoppedBy, hloop]
  have hnot : ¬ s.Applies call o := by
    rintro ⟨stopped, hsome, -⟩
    rw [hloop] at hsome
    cases hsome
  have huntold : Untold s.Runs t.queued := by
    unfold queued
    rw [he]
    exact (Untold.append.mp hs.untold).1
  refine .inl ⟨[], .refl hd huntold, ⟨?_, ?_, hstopping⟩, fun k hk => hnone ▸ hk,
    fun hp => absurd hp hnot⟩
  · rw [he, hs.reservation]
  · rw [he, hs.inFlight]

theorem lifecycleTransaction_ends (hs : s.Ready) (hrunning : s.stopping = false) {o : Outcome}
    {e : DaemonError} (h : s.lifecycleTransaction call o = (.error e, t)) :
    s.EndsWith call (s.stoppedBy call o) (s.Applies call o) t := by
  have hcancel : ({ s with stopping := call.stopping }.cancelStopping call).stopping = false := by
    unfold State.cancelStopping
    cases hcall : call.stopping <;> rfl
  have hsame : ({ s with stopping := call.stopping }.cancelStopping call).events = s.events := by
    unfold State.cancelStopping
    split <;> rfl
  unfold lifecycleTransaction at h
  rw [hrunning] at h
  -- The exits before the stop loop: the checkpoint, the selection and the room for the events.
  cases hc : o.checkpoint with
  | error e' =>
      rw [hc] at h
      obtain ⟨-, rfl⟩ := Prod.mk.inj h
      exact hs.endsWith_early rfl rfl hrunning (by simp [stopLoop, hc])
  | ok =>
      rw [hc] at h
      dsimp only at h
      rw [if_neg Bool.false_ne_true] at h
      cases hsel : call.selectShells s.durable with
      | error e' =>
          rw [hsel] at h
          obtain ⟨-, rfl⟩ := Prod.mk.inj h
          exact hs.endsWith_early (cancelStopping_durable _ call) hsame hcancel
            (by simp [stopLoop, hc, hsel])
      | ok shells =>
          rw [hsel] at h
          dsimp only at h
          cases hr : s.events.reserveWithPending
              (max (call.committedEvents s.durable shells).length shells.length) with
          | error e' =>
              rw [hr] at h
              obtain ⟨-, rfl⟩ := Prod.mk.inj h
              exact hs.endsWith_early (cancelStopping_durable _ call) hsame hcancel
                (by simp [stopLoop, hc, hsel, hr])
          | ok =>
              rw [hr] at h
              dsimp only at h
              -- From here the loop decides, and the stage after it.
              have hloop : s.stopLoop call o = some (stopAll s.durable.shells o.stop 0 shells) := by
                simp [stopLoop, hc, hsel, hr]
              have hends := stopStage_ends hs (v := { s with
                stopping := call.stopping
                events := s.events.beginLifecycleReservation
                  (max (call.committedEvents s.durable shells).length shells.length) })
                ⟨rfl, hs.inFlight, hs.untold⟩ rfl (hs.fits hr) Iff.rfl h
              have happlies : s.Applies call o ↔
                  s.Passes o (stopAll s.durable.shells o.stop 0 shells) := by
                unfold Applies Passes
                rw [hloop]
                constructor
                · rintro ⟨stopped, heq, hrest⟩
                  have heq := Option.some.inj heq
                  rw [heq]
                  exact ⟨rfl, hrest⟩
                · rintro ⟨hnone, hrest⟩
                  exact ⟨_, congrArg some (Prod.ext rfl hnone), hrest⟩
              unfold EndsWith at hends ⊢
              rw [happlies]
              simpa [stoppedBy, hloop] using hends

/-- A failed lifecycle transaction leaves what it should exactly when it is unhindered. -/
theorem lifecycle_failed_iff (s t : State W L A) (hs : s.Ready) (call : LifecycleCall W L A)
    (o : Outcome) (error : DaemonError) (h : s.lifecycleTransaction call o = (.error error, t)) :
    s.Compensated (s.stoppedBy call o) t ↔ s.Unhindered call o := by
  cases hstopping : s.stopping with
  | true =>
      -- A daemon that is stopping refuses, and is stopping still.
      have hsame : t = s := by
        unfold lifecycleTransaction at h
        rw [hstopping, if_pos rfl] at h
        split at h
        · exact (Prod.mk.inj h).2.symm
        · split at h
          · cases h
          · exact (Prod.mk.inj h).2.symm
      constructor
      · intro hc
        have := hc.stopping
        rw [hsame, hstopping] at this
        cases this
      · intro hu
        have := hu.running
        rw [hstopping] at this
        cases this
  | false =>
      rcases lifecycleTransaction_ends hs hstopping h with
        ⟨shells, hput, hfree, hsub, hx⟩ | ⟨hp, hx, k, hsome, hnone⟩
      -- The operation is not applied, or it is put back by its own inverse.
      · rw [hput.compensated_iff hs hfree hsub]
        exact ⟨fun ⟨hopen, hlocks⟩ => ⟨hstopping, hopen, hlocks, hx⟩,
          fun hu => ⟨hu.registered, hu.locks⟩⟩
      -- The operation is applied with a revision that cannot be raised, and a Shell is gone.
      · constructor
        · intro hc
          have hmaps := hc.maps.shells k
          rw [hnone, Option.map_none, Option.map_eq_none_iff] at hmaps
          rw [hmaps] at hsome
          cases hsome
        · exact fun hu => absurd hx (hu.revision hp)

end Compensation

end State

/-! ## Runs -/

/-- A Shell of the Workspace `w`. -/
def aShell (lifecycle : ShellLifecycle) : LockedShell :=
  { workspaceId := "w", lastRun := none, lifecycle := lifecycle, revision := 1
    poisoned := ⟨false, false, false⟩ }

/-- A daemon with one Workspace, which has one Shell. -/
def aState (revision : Nat) (shell : LockedShell) (h : 0 < revision) : State Unit Unit Unit where
  durable :=
    { workspaces := AList.insert "w" ⟨revision, ["s"], [], [], (), h⟩ ∅
      shells := AList.insert "s" shell ∅
      launchers := ∅
      agents := ∅ }
  events := ⟨.idle, ⟨"stream", 0, [], []⟩⟩
  persistenceRevision := 0
  persistenceDirty := false
  stopping := false

/-- Surroundings in which nothing fails, but for the save. -/
def anOutcome (save : Except IoError Unit) : Outcome where
  checkpoint := .ok ()
  stop _ := .ok ()
  whileStopping := []
  flushCapture := .ok ()
  whileFlushing := []
  flushSave := .ok ()
  afterFlush := []
  capture := .ok ()
  whileSaving := []
  save := save

section Runs

variable {revision : Nat} {shell : LockedShell} {h : 0 < revision}

theorem aState_get {k : String} {other : LockedShell}
    (hk : (aState revision shell h).durable.shells.lookup k = some other) :
    k = "s" ∧ other = shell := by
  have hk : (AList.insert "s" shell (∅ : HashMap String LockedShell)).lookup k = some other := hk
  rw [HashMap.get_insert] at hk
  split at hk
  next heq => exact ⟨heq, (Option.some.inj hk).symm⟩
  next => simp at hk

theorem aState_ready (hfresh : ∀ run, shell.running? = some run → run.exitReason = none) :
    (aState revision shell h).Ready where
  reservation := rfl
  inFlight := rfl
  tidy _ := rfl
  distinct k k' s s' run run' hk hk' _ _ _ := by
    rw [(aState_get hk).1, (aState_get hk').1]
  fresh k other run hk hrun := by
    rw [(aState_get hk).2] at hrun
    exact hfresh run hrun
  untold e he := absurd he List.not_mem_nil

end Runs

/-- A running Shell. -/
def aRunningShell : LockedShell :=
  aShell (.running ⟨none, none, none, none, 24, 80, 0, 0⟩ (ShellRun.new "run" 1))

/-- Closing a Workspace whose Shell is running, with a save that fails: all is put back. -/
theorem lifecycle_failed_iff_failedSave : ∃ error t,
    (aState 1 aRunningShell Nat.one_pos).lifecycleTransaction (closeWorkspaceGuarded "w" none)
        (anOutcome (.error (.ofMessage "disk full"))) = (.error error, t) ∧
      (aState 1 aRunningShell Nat.one_pos).Compensated ["s"] t := by
  have hready : (aState 1 aRunningShell Nat.one_pos).Ready := aState_ready fun run hrun => by
    cases hrun
    rfl
  have herror : ((aState 1 aRunningShell Nat.one_pos).lifecycleTransaction
      (closeWorkspaceGuarded "w" none) (anOutcome (.error (.ofMessage "disk full")))).1 =
        .error ⟨.persistenceFailed, "disk full"⟩ := by
    decide +kernel
  have hstopped : (aState 1 aRunningShell Nat.one_pos).stoppedBy (closeWorkspaceGuarded "w" none)
      (anOutcome (.error (.ofMessage "disk full"))) = ["s"] := by
    decide +kernel
  refine ⟨_, ((aState 1 aRunningShell Nat.one_pos).lifecycleTransaction
    (closeWorkspaceGuarded "w" none) (anOutcome (.error (.ofMessage "disk full")))).2,
    Prod.ext herror rfl, ?_⟩
  have hiff := State.lifecycle_failed_iff _ _ hready _ _ _ (Prod.ext herror rfl)
  rw [hstopped] at hiff
  refine hiff.mpr ⟨rfl, fun k other hk => ?_, fun k _ other hk _ => ?_, ?_⟩
  · rw [(aState_get hk).2]
    nofun
  · rw [(aState_get hk).2]
    rfl
  · rintro - ⟨shellId, _, _, hremoval, -⟩
    cases hremoval

/-- Closing the Shell of a Workspace whose revision is exhausted: the call fails, and the Shell is
gone. -/
theorem not_compensated_exhaustedClose : ∃ error t,
    (aState u64Max (aShell .pending) (by decide)).Ready ∧
      (aState u64Max (aShell .pending) (by decide)).lifecycleTransaction
        (closeShellGuarded "s" none) (anOutcome (.ok ())) = (.error error, t) ∧
      ¬ (aState u64Max (aShell .pending) (by decide)).Compensated
        ((aState u64Max (aShell .pending) (by decide)).stoppedBy (closeShellGuarded "s" none)
          (anOutcome (.ok ()))) t := by
  have herror : ((aState u64Max (aShell .pending) (by decide)).lifecycleTransaction
      (closeShellGuarded "s" none) (anOutcome (.ok ()))).1 =
        .error ⟨.internal, "workspace revision exhausted"⟩ := by
    decide +kernel
  have hgone : ((aState u64Max (aShell .pending) (by decide)).lifecycleTransaction
      (closeShellGuarded "s" none) (anOutcome (.ok ()))).2.durable.shells.lookup "s" = none := by
    decide +kernel
  have hready : (aState u64Max (aShell .pending) (by decide)).Ready :=
    aState_ready fun run hrun => by cases hrun
  refine ⟨_, ((aState u64Max (aShell .pending) (by decide)).lifecycleTransaction
    (closeShellGuarded "s" none) (anOutcome (.ok ()))).2, hready, Prod.ext herror rfl, fun hc => ?_⟩
  have hmaps := hc.maps.shells "s"
  rw [hgone] at hmaps
  cases hmaps

end Boomux.Daemon.Lifecycle
