import Boomux.Daemon.Publication

/-!
# Output after the end of a run

An `OutputChanged` event should not follow the event that ends its run, its Shell or its
Workspace. `World.frontier` is the log as it will continue: what is in it, what waits in a flush,
in the pending queue and in the window of a run exit, and then the queued runtime events. The
order within it is what the invariant is about; a commit of a lifecycle transaction is the one
step that puts its events in front of the queue.
-/

set_option autoImplicit false

namespace Boomux.Daemon

open Rust Transition

variable {R : Type} {w u : World R}

/-! ## Order -/

/-- No event ends the run of a later output. -/
def Ordered (events : List DaemonEventKind) : Prop := events.Pairwise fun e f => e.ends f = false

/-- Whether the event reports output. -/
def DaemonEventKind.isOutput : DaemonEventKind → Bool
  | .outputChanged .. => true
  | _ => false

/-- The event ends nothing. -/
def DaemonEventKind.Endless (event : DaemonEventKind) : Prop := ∀ out, event.ends out = false

section Kinds

variable {event out : DaemonEventKind}

theorem ends_of_not_output (h : out.isOutput = false) : event.ends out = false := by
  cases out with
  | outputChanged => cases h
  | _ => rfl

theorem DaemonEventKind.Endless.endsShell (h : event.Endless) (id : String) :
    event.endsShell id = false := by
  have := h (.outputChanged "" id "" 0)
  simp only [DaemonEventKind.ends, Bool.or_eq_false_iff] at this
  exact this.1.2

theorem DaemonEventKind.Endless.endsWorkspace (h : event.Endless) (id : String) :
    event.endsWorkspace id = false := by
  have := h (.outputChanged id "" "" 0)
  simp only [DaemonEventKind.ends, Bool.or_eq_false_iff] at this
  exact this.2

theorem endless_outputChanged (workspaceId shellId runId : String) (revision : Nat) :
    (DaemonEventKind.outputChanged workspaceId shellId runId revision).Endless := by
  intro out
  cases out <;> rfl

/-- The events of a mutation end nothing and report no output. -/
theorem ofMutation_neutral (h : event.ofMutation = true) :
    event.Endless ∧ event.isOutput = false := by
  constructor
  · intro out
    cases out with
    | outputChanged =>
        cases event with
        | workspaceClosed => cases h
        | shellClosed => cases h
        | runExited => cases h
        | _ => rfl
    | _ => rfl
  · cases event with
    | outputChanged => cases h
    | _ => rfl

/-- Nor do the runtime events that no reader publishes. -/
theorem ofRuntime_neutral (h : event.ofRuntime = true) :
    event.Endless ∧ event.isOutput = false := by
  constructor
  · intro out
    cases out with
    | outputChanged =>
        cases event with
        | workspaceClosed => cases h
        | shellClosed => cases h
        | runExited => cases h
        | _ => rfl
    | _ => rfl
  · cases event with
    | outputChanged => cases h
    | _ => rfl

end Kinds

section Ordered

variable {A B K K' : List DaemonEventKind}

/-- Events that report no output may come at the end. -/
theorem Ordered.append (h : Ordered A) (hb : ∀ e ∈ B, e.isOutput = false) : Ordered (A ++ B) := by
  refine List.pairwise_append.mpr ⟨h, ?_, fun e _ f hf => ends_of_not_output (hb f hf)⟩
  exact List.pairwise_of_forall_mem_list fun e _ f hf => ends_of_not_output (hb f hf)

/-- An event that ends nothing may come wherever nothing before it ends its run. -/
theorem Ordered.insert (h : Ordered (A ++ B)) {event : DaemonEventKind} (he : event.Endless)
    (hA : ∀ e ∈ A, e.ends event = false) : Ordered (A ++ event :: B) := by
  obtain ⟨hA', hB, hAB⟩ := List.pairwise_append.mp h
  refine List.pairwise_append.mpr ⟨hA', List.pairwise_cons.mpr ⟨fun f _ => he f, hB⟩, ?_⟩
  intro e hmem f hf
  rcases List.mem_cons.mp hf with rfl | hf
  · exact hA e hmem
  · exact hAB e hmem f hf

/-- What a step makes of the frontier if nothing ends in it: the order stays, and what is new ends
nothing. -/
structure Extends (K K' : List DaemonEventKind) : Prop where
  ordered : Ordered K → Ordered K'
  old : ∀ e ∈ K', e ∈ K ∨ e.Endless

theorem Extends.refl (K : List DaemonEventKind) : Extends K K := ⟨id, fun _ he => .inl he⟩

theorem Extends.of_eq (h : K' = K) : Extends K K' := h ▸ .refl K

theorem Extends.sublist (h : K'.Sublist K) : Extends K K' :=
  ⟨fun hK => List.Pairwise.sublist h hK, fun _ he => .inl (h.subset he)⟩

theorem Extends.trans {K'' : List DaemonEventKind} (h : Extends K K') (h' : Extends K' K'') :
    Extends K K'' where
  ordered hK := h'.ordered (h.ordered hK)
  old e he := by
    rcases h'.old e he with he | he
    · exact h.old e he
    · exact .inr he

/-- Events that end nothing and that nothing ends, anywhere. -/
theorem Extends.insert (M : List DaemonEventKind) (hM : ∀ e ∈ M, e.Endless)
    (hA : ∀ e ∈ M, ∀ f ∈ A, f.ends e = false) : Extends (A ++ B) (A ++ M ++ B) := by
  induction M generalizing A with
  | nil => simpa using .refl (A ++ B)
  | cons event M ih =>
      have hstep : Extends (A ++ B) (A ++ [event] ++ B) := by
        refine ⟨fun hK => ?_, fun e he => ?_⟩
        · rw [List.append_assoc]
          exact hK.insert (hM event (List.mem_cons_self ..)) (hA event (List.mem_cons_self ..))
        · simp only [List.append_assoc, List.mem_append, List.mem_singleton] at he ⊢
          rcases he with he | rfl | he
          · exact .inl (.inl he)
          · exact .inr (hM e (List.mem_cons_self ..))
          · exact .inl (.inr he)
      have hrest : Extends (A ++ [event] ++ B) (A ++ [event] ++ M ++ B) := by
        refine ih (fun e he => hM e (List.mem_cons_of_mem _ he)) fun e he f hf => ?_
        rcases List.mem_append.mp hf with hf | hf
        · exact hA e (List.mem_cons_of_mem _ he) f hf
        · rw [List.mem_singleton.mp hf]
          exact hM event (List.mem_cons_self ..) e
      have hcons : A ++ event :: M ++ B = A ++ [event] ++ M ++ B := by simp
      rw [hcons]
      exact hstep.trans hrest

end Ordered

/-! ## The frontier -/

namespace EventTransaction

variable (x : EventTransaction)

/-- The events of the log. -/
def kinds : List DaemonEventKind := x.events.log.map (·.kind)

/-- The queued runtime events. -/
abbrev runtimeQueue : List DaemonEventKind := x.transition.pendingRuntimeEvents

theorem kinds_eq : x.kinds = x.events.stamps.map (·.2) := by
  simp [kinds, EventStreamState.stamps, DaemonEvent.stamp]

theorem appendBatchLocked_kinds (transition : Option Nat) (t : TransitionState)
    (new : List DaemonEventKind) :
    kinds ⟨t, appendBatchLocked transition x.events new⟩ = x.kinds ++ new := by
  rw [kinds_eq, kinds_eq, appendBatchLocked_stamps, List.map_append, List.map_map]
  simp [Function.comp_def]

@[simp] theorem appendBatch_kinds (batch : Batch) :
    (x.appendBatch batch).kinds = x.kinds ++ batch.kinds :=
  x.appendBatchLocked_kinds _ _ _

@[simp] theorem foldl_appendBatch_kinds (batches : List Batch) :
    (batches.foldl appendBatch x).kinds = x.kinds ++ batches.flatMap (·.kinds) := by
  induction batches generalizing x with
  | nil => simp
  | cons batch batches ih => rw [List.foldl_cons, ih, appendBatch_kinds, List.flatMap_cons,
      List.append_assoc]

@[simp] theorem appendBatch_runtimeQueue (batch : Batch) :
    (x.appendBatch batch).runtimeQueue = x.runtimeQueue := rfl

@[simp] theorem queueDurableBatch_kinds (batch : Batch) :
    (x.queueDurableBatch batch).2.kinds = x.kinds := by
  unfold queueDurableBatch
  split <;> rfl

@[simp] theorem queueDurableBatch_runtimeQueue (batch : Batch) :
    (x.queueDurableBatch batch).2.runtimeQueue = x.runtimeQueue := by
  unfold queueDurableBatch
  split <;> rfl

@[simp] theorem appendPendingDurable_kinds :
    x.appendPendingDurable.kinds = x.kinds ++ x.pending.flatMap (·.kinds) :=
  x.takePendingDurable.foldl_appendBatch_kinds _

@[simp] theorem appendPendingDurable_runtimeQueue :
    x.appendPendingDurable.runtimeQueue = x.runtimeQueue := by
  rw [runtimeQueue, appendPendingDurable, (x.takePendingDurable.foldl_appendBatch _).1]
  rfl

/-- The queue goes to the end of the log, or stays. -/
theorem publishPendingRuntime_kinds :
    x.publishPendingRuntime.kinds ++ x.publishPendingRuntime.runtimeQueue =
      x.kinds ++ x.runtimeQueue := by
  unfold publishPendingRuntime
  split
  · rfl
  · rw [appendBatchLocked_kinds]
    exact List.append_nil _

/-- While something waits before it, it stays. -/
theorem publishPendingRuntime_of_blocked (h : x.blocked = true) : x.publishPendingRuntime = x := by
  unfold publishPendingRuntime
  rw [if_pos h]

theorem pending_of_not_blocked (h : x.blocked = false) : x.pending = [] := by
  simp only [blocked, TransitionState.publicationBlocked, Bool.or_eq_false_iff] at h
  exact List.isEmpty_iff.mp (by simpa using h.1.2)

/-- What is published and what waits, when nothing is in a flush or a window. -/
def line : List DaemonEventKind := x.kinds ++ x.pending.flatMap (·.kinds) ++ x.runtimeQueue

/-- Publishing the queue moves nothing. -/
theorem publishPendingRuntime_line : x.publishPendingRuntime.line = x.line := by
  by_cases hb : x.blocked = true
  · rw [x.publishPendingRuntime_of_blocked hb]
  · have hp := x.pending_of_not_blocked (by simpa using hb)
    have hp' : x.publishPendingRuntime.pending = [] := by
      rw [x.publishPendingRuntime_pending, hp]
    rw [line, line, hp, hp', List.flatMap_nil, List.append_nil, List.append_nil]
    exact x.publishPendingRuntime_kinds

theorem finishPersistence_line : x.finishPersistence.line = x.line :=
  publishPendingRuntime_line { x with
    transition := { x.transition with persistenceInFlight := false, inFlightEventCount := 0 } }

theorem releaseLifecycleReservation_line : x.releaseLifecycleReservation.line = x.line :=
  publishPendingRuntime_line { x with
    transition := { x.transition with lifecycleEventReservation := 0 } }

end EventTransaction

/-- What stands between the log and the queued runtime events. -/
def World.between (w : World R) : List DaemonEventKind :=
  (w.flushing ++ w.events.pending ++ w.holder.exitBatch).flatMap (·.kinds)

theorem World.frontier_eq (w : World R) :
    w.frontier = w.events.kinds ++ w.between ++ w.events.runtimeQueue := rfl

/-- The queue is published, at a moment when nothing but the pending batches can stand before
it. -/
theorem publishPendingRuntime_frontier (w : World R)
    (hb : w.events.blocked = true ∨ (w.flushing = [] ∧ w.holder.exitBatch = [])) :
    World.frontier { w with events := w.events.publishPendingRuntime } = w.frontier := by
  by_cases hblocked : w.events.blocked = true
  · rw [w.events.publishPendingRuntime_of_blocked hblocked]
  · obtain ⟨hfl, hex⟩ := hb.resolve_left hblocked
    have hp := w.events.pending_of_not_blocked (by simpa using hblocked)
    have hbetween : w.between = [] := by
      rw [World.between, hfl, hp, hex]
      rfl
    have hbetween' : World.between { w with events := w.events.publishPendingRuntime } = [] := by
      rw [← hbetween, World.between, World.between,
        EventTransaction.publishPendingRuntime_pending]
      rfl
    rw [World.frontier_eq, World.frontier_eq, hbetween, hbetween', List.append_nil,
      List.append_nil]
    exact w.events.publishPendingRuntime_kinds

/-- Queueing runtime events: duplicates leave the queue, the new ones come last. -/
theorem foldl_queueRuntimeEvent_extends {new : List DaemonEventKind}
    (hnew : ∀ e ∈ new, e.Endless) (t : TransitionState) (A : List DaemonEventKind)
    (hold : ∀ e ∈ new, ∀ f ∈ A ++ t.pendingRuntimeEvents, f.ends e = false) :
    Extends (A ++ t.pendingRuntimeEvents)
      (A ++ (new.foldl .queueRuntimeEvent t).pendingRuntimeEvents) := by
  induction new generalizing t with
  | nil => exact .refl _
  | cons event new ih =>
      have herase : (A ++ event.coalesced t.pendingRuntimeEvents).Sublist
          (A ++ t.pendingRuntimeEvents) :=
        List.Sublist.append_left (EventTransaction.coalesced_sublist event _) A
      have hsnoc := Extends.insert (A := A ++ event.coalesced t.pendingRuntimeEvents) (B := [])
        [event]
        (fun e he => hnew e (by rw [List.mem_singleton.mp he]; exact List.mem_cons_self ..))
        (fun e he f hf => hold e (by rw [List.mem_singleton.mp he]; exact List.mem_cons_self ..) f
          (herase.subset hf))
      have hstep : Extends (A ++ t.pendingRuntimeEvents)
          (A ++ (t.queueRuntimeEvent event).pendingRuntimeEvents) := by
        refine (Extends.sublist herase).trans ?_
        show Extends _ (A ++ (event.coalesced t.pendingRuntimeEvents ++ [event]))
        simpa using hsnoc
      refine hstep.trans (ih (fun e he => hnew e (List.mem_cons_of_mem _ he)) _ ?_)
      intro e he f hf
      rcases hstep.old f hf with hf | hf
      · exact hold e (List.mem_cons_of_mem _ he) f hf
      · exact hf e

/-- A runtime batch that ends nothing and that nothing ends is published or queued. -/
theorem publishRuntimeBatch_frontier (new : List DaemonEventKind)
    (hnew : ∀ e ∈ new, e.Endless) (hold : ∀ e ∈ new, ∀ f ∈ w.frontier, f.ends e = false)
    (hu : u.events = (w.events.publishRuntimeBatch new).2) (hf : u.flush = w.flush)
    (hh : u.holder.exitBatch = w.holder.exitBatch) : Extends w.frontier u.frontier := by
  have hflushing : u.flushing = w.flushing := by simp [World.flushing, hf]
  have hbetween : u.between = w.between := by
    rw [World.between, World.between, hflushing, hh, hu,
      EventTransaction.publishRuntimeBatch_pending]
  rw [World.frontier_eq u, hbetween, hu]
  unfold EventTransaction.publishRuntimeBatch
  split
  · exact .refl _
  · split
    · exact foldl_queueRuntimeEvent_extends hnew w.events.transition
        (w.events.kinds ++ w.between) hold
    · show Extends w.frontier
        (EventTransaction.kinds ⟨w.events.transition, _⟩ ++ w.between ++ w.events.runtimeQueue)
      rw [EventTransaction.appendBatchLocked_kinds, World.frontier_eq, List.append_assoc,
        List.append_assoc]
      refine Extends.insert new hnew fun e he f hf => hold e he f ?_
      rw [World.frontier_eq, List.append_assoc]
      exact List.mem_append_left _ hf

end Boomux.Daemon
