import Boomux.Daemon.Publication

/-!
# Projection cuts

`node_projection_sync` reads the cursor, the transitions since an older cursor and the registry
under the two locks of the event stream. The locks are free while a save runs, so the registry it
reads may hold transitions that no saved state holds yet: the projection is that of the committed
state exactly if nothing waits for a save (`nodeProjectionSync_cut_iff`). The transitions and the
mode are right in every state (`projectionTransitions_resumed`, `projectionTransitions_baseline`).
-/

set_option autoImplicit false

namespace Boomux.Daemon

open Rust Transition

variable {R P : Type} {w : World R}

/-! ## Transitions since a cursor -/

/-- `MAX_NODE_PROJECTION_TRANSITIONS`. -/
def maxNodeProjectionTransitions : Nat := 256

/-- `NodeProjectionTransition`, without its timestamp. -/
structure NodeProjectionTransition where
  eventId : Nat
  kind : NodeProjectionTransitionKind
  deriving DecidableEq, Repr

/-- `NodeProjectionSyncMode`. -/
inductive NodeProjectionSyncMode
  | baseline | resumed
  deriving DecidableEq, Repr

/-- `reduce_projection_transition`. -/
def reduceProjectionTransition (event : DaemonEvent) : Option NodeProjectionTransition :=
  event.kind.reduce.map fun kind => ⟨event.id, kind⟩

/-- `projection_transitions`. -/
def projectionTransitions (state : EventStreamState) (after : Option EventCursor)
    (through : EventCursor) : NodeProjectionSyncMode × List NodeProjectionTransition :=
  match after with
  | none => (.baseline, [])
  | some after =>
      if after.streamId ≠ state.streamId ∨ after.eventId < state.earliest ∨
          after.eventId > through.eventId then
        (.baseline, [])
      else
        let eventCount := through.eventId - after.eventId
        if eventCount > maxNodeProjectionTransitions then (.baseline, [])
        else
          let offset := after.eventId - state.earliest
          (.resumed,
            ((state.events.drop offset).take eventCount).filterMap reduceProjectionTransition)

section Contiguous

variable {s : EventStreamState}

/-- In a list with consecutive ids, the events after a position are a suffix. -/
theorem filter_after {first : Nat} (l : List DaemonEvent)
    (h : l.map (·.id) = List.range' first l.length) (after latest : Nat)
    (hl : first + l.length ≤ latest + 1) :
    l.filter (fun e => after < e.id ∧ e.id ≤ latest) = l.drop (after + 1 - first) := by
  induction l generalizing first with
  | nil => simp
  | cons e l ih =>
      rw [List.map_cons, List.length_cons, List.range'_succ] at h
      obtain ⟨hid, hrest⟩ := List.cons.inj h
      simp only [List.length_cons] at hl
      have htail := ih hrest (by omega)
      by_cases ha : after < first
      · have hzero : after + 1 - first = 0 := by omega
        have hzero' : after + 1 - (first + 1) = 0 := by omega
        rw [List.filter_cons_of_pos (by simp [hid]; omega), htail, hzero, hzero']
        rfl
      · have hsucc : after + 1 - first = (after + 1 - (first + 1)) + 1 := by omega
        rw [List.filter_cons_of_neg (by simp [hid]; omega), htail, hsucc]
        rfl

/-- The transitions are the reduction of exactly the events after the cursor. -/
theorem projectionTransitions_resumed (h : s.Contiguous) {after : Option EventCursor}
    (hm : (projectionTransitions s after ⟨s.streamId, s.latestId⟩).1 = .resumed) :
    ∃ cursor, after = some cursor ∧
      (projectionTransitions s after ⟨s.streamId, s.latestId⟩).2 =
        (s.log.filter fun e => cursor.eventId < e.id ∧ e.id ≤ s.latestId).filterMap
          reduceProjectionTransition := by
  have hle := h.le
  have hlen : s.log.length = s.evicted.length + s.events.length := List.length_append
  cases after with
  | none => cases hm
  | some cursor =>
      refine ⟨cursor, rfl, ?_⟩
      unfold projectionTransitions at hm ⊢
      dsimp only at hm ⊢
      split at hm
      · cases hm
      next hcursor =>
        split at hm
        · cases hm
        next hcount =>
          rw [if_neg hcursor, if_neg hcount]
          rw [h.earliest] at hcursor ⊢
          simp only [not_or, not_lt] at hcursor
          obtain ⟨-, hearliest, hahead⟩ := hcursor
          -- the evicted events lie before the cursor, and nothing lies after the last event
          have hskip : cursor.eventId + 1 - (s.latestId + 1 - s.log.length) =
              s.evicted.length + (cursor.eventId - (s.latestId - s.events.length)) := by omega
          rw [filter_after s.log h.ids _ _ (by omega), hskip, EventStreamState.log,
            List.drop_length_add_append, List.take_of_length_le (by rw [List.length_drop]; omega)]

/-- A baseline is answered exactly when the cursor is absent, of another stream, evicted, ahead,
or too far behind. -/
theorem projectionTransitions_baseline (h : s.Contiguous) (after : Option EventCursor) :
    (projectionTransitions s after ⟨s.streamId, s.latestId⟩).1 = .baseline ↔
      ∀ cursor, after = some cursor → cursor.streamId ≠ s.streamId ∨ s.Evicted cursor ∨
        s.latestId < cursor.eventId ∨
        maxNodeProjectionTransitions < s.latestId - cursor.eventId := by
  cases after with
  | none => simp [projectionTransitions]
  | some cursor =>
      simp only [Option.some.injEq, forall_eq', h.evicted_iff, ← h.earliest]
      unfold projectionTransitions
      dsimp only
      constructor
      · intro hm
        split at hm
        next hc => tauto
        next =>
          split at hm
          next hc => exact .inr (.inr (.inr hc))
          next => cases hm
      · intro hc
        split
        · rfl
        next hn =>
          split
          · rfl
          next => tauto

end Contiguous

/-! ## The answer -/

/-- `NodeProjectionSync`, with the edits that the registry it was read from has had. -/
structure NodeProjectionSync (R P : Type) where
  mode : NodeProjectionSyncMode
  cursor : EventCursor
  projection : P
  transitions : List NodeProjectionTransition
  edits : List (Edit R)

/-- `node_projection_sync`, once it has the locks; waiting for them changes nothing. -/
def World.nodeProjectionSync (w : World R) (nodeProjection : Durable R → P)
    (after : Option EventCursor) : NodeProjectionSync R P :=
  let cursor := w.events.cursor
  let (mode, transitions) := projectionTransitions w.events.events after cursor
  { mode := mode
    cursor := cursor
    projection := nodeProjection w.durable.state
    transitions := transitions
    edits := w.durable.edits }

/-- What a sync promises. `d₀` is the registry that the daemon has taken over. -/
structure World.ProjectionCut (w : World R) (d₀ : Durable R) (nodeProjection : Durable R → P)
    (after : Option EventCursor) (sync : NodeProjectionSync R P) : Prop where
  /-- the projection is that of the registry that the edits make -/
  projection : sync.projection = nodeProjection (replay d₀ sync.edits)
  /-- with the mutation of every durable event up to the cursor -/
  contains : ∀ e ∈ w.log, e.id ≤ sync.cursor.eventId → ∀ n, e.transition = some n →
    n ∈ transitions sync.edits
  /-- and of no transition whose save has not succeeded -/
  committed : ∀ n ∈ transitions sync.edits, ∃ g ∈ w.saves, g.Contains d₀ n
  resumed : sync.mode = .resumed → ∃ cursor, after = some cursor ∧
    sync.transitions =
      (w.log.filter fun e => cursor.eventId < e.id ∧ e.id ≤ sync.cursor.eventId).filterMap
        reduceProjectionTransition
  baseline : sync.mode = .baseline ↔ ∀ cursor, after = some cursor →
    cursor.streamId ≠ sync.cursor.streamId ∨ w.events.events.Evicted cursor ∨
      sync.cursor.eventId < cursor.eventId ∨
      maxNodeProjectionTransitions < sync.cursor.eventId - cursor.eventId

/-- Nothing waits for a save: no batch is pending, in a running flush or in an open window
without one, and every run exit whose batch was lost has been saved since. -/
structure World.Settled (w : World R) : Prop where
  waiting : w.waiting = []
  lost : ∀ n ∈ w.lost, w.Saved n

/-- A queued batch waits for a save, or a flush or a window has saved it. -/
theorem World.Ledger.waiting_or_saved (h : w.Ledger) :
    ∀ b ∈ w.queued, b ∈ w.waiting ∨ w.Saved b.transition := by
  intro b hb
  rw [World.queued, List.append_assoc] at hb
  rcases List.mem_append.mp hb with hb | hb
  · -- a batch of a running flush
    unfold World.flushing at hb
    split at hb
    next flush hf =>
      by_cases hw : flush.written = some true
      · have hok := h.flush flush hf
        exact .inr ⟨flush.saved, hok.saved hw, hok.captured b hb⟩
      · left
        unfold World.waiting
        refine List.mem_append_left _ ?_
        simpa [hf, hw] using hb
    next => cases hb
  · cases hh : w.holder with
    | window window =>
        by_cases hw : window.written = some true
        · have hok := h.windowOk hh
          exact .inr ⟨window.saved, hok.saved hw, hok.captured b hb⟩
        · left
          unfold World.waiting
          refine List.mem_append_right _ ?_
          rw [hh] at hb ⊢
          simpa [hw] using hb
    | _ =>
        left
        rw [World.waiting_of_closed (by rw [hh]; rfl)]
        rw [hh] at hb
        refine List.mem_append_right _ ?_
        simpa [Holder.batches] using hb

/-- In every reachable world, a sync is a cut of the committed state if and only if nothing waits
for a save. -/
theorem nodeProjectionSync_cut_iff {w₀ : World R} (h : w₀.Loaded)
    (hr : Reach World.step (fun _ _ => True) w₀ w) (nodeProjection : Durable R → P)
    (after : Option EventCursor) :
    w.ProjectionCut w₀.durable.state nodeProjection after
      (w.nodeProjectionSync nodeProjection after) ↔ w.Settled := by
  have hl : w.Ledger := hr.invariant h.ledger fun _ _ _ ht _ hs => ht.step hs
  have hc := contiguous_of_reach h hr
  have hreplayed := replayed_of_reach h hr
  constructor
  · -- whatever is in memory has been saved, so that nothing waits
    rintro ⟨-, -, hsaved, -, -⟩
    have hcommitted (n : Nat) (hn : n ∈ w.durable.applied) : w.Saved n := by
      obtain ⟨g, hg, hcontains⟩ := hsaved n hn
      exact ⟨g, hg, hcontains.mem⟩
    refine ⟨List.eq_nil_iff_forall_not_mem.mpr fun b hb => ?_, fun n hn => ?_⟩
    · have hq := World.waiting_sublist.subset hb
      exact hl.waiting b hb (hcommitted _ (hl.applied b (List.mem_append_right _ hq)))
    · exact hcommitted n (hl.lost n hn)
  · intro hs
    refine ⟨?_, fun e he _ n hn => ?_, fun n hn => hreplayed.saved ?_, fun hm => ?_, ?_⟩
    · exact congrArg nodeProjection hreplayed.durable
    · obtain ⟨b, hb, rfl, -⟩ := mem_published_of_logged hl.logged he hn
      exact hl.applied b (List.mem_append_left _ hb)
    · rcases hl.accounted n hn with hsaved | ⟨b, hb, rfl⟩ | hlost
      · exact hsaved
      · rcases hl.waiting_or_saved b hb with hwait | hsaved
        · rw [hs.waiting] at hwait
          cases hwait
        · exact hsaved
      · exact hs.lost n hlost
    · exact projectionTransitions_resumed hc hm
    · exact projectionTransitions_baseline hc after

/-- The save of a rename, while it runs. -/
def savingRun : List (Action Nat) :=
  [.enter, .flushBegin true true, .mutate (renameTo "a") true]

/-- A sync while the save runs has the rename; the save fails, and the registry has it no more. -/
theorem not_projectionCut_savingRun :
    (exec World.step emptyWorld savingRun).map
        (fun w => ((w.nodeProjectionSync (·.rest) none).projection, w.saves.length)) = some (1, 0) ∧
      (exec World.step emptyWorld (savingRun ++ [.write false, .finish])).map
        (fun w => ((w.nodeProjectionSync (·.rest) none).projection, w.saves.length)) = some (0, 0) ∧
      ¬ ∀ (w : World Nat) (after : Option EventCursor),
        Reach World.step (fun _ _ => True) emptyWorld w →
          w.ProjectionCut emptyWorld.durable.state (·.rest) after
            (w.nodeProjectionSync (·.rest) after) := by
  refine ⟨rfl, rfl, fun hall => ?_⟩
  have hrun : exec World.step emptyWorld savingRun = some _ := rfl
  obtain ⟨g, hg, -⟩ := (hall _ none (reach_of_exec_true hrun)).committed 0 (by decide)
  cases hg

/-- Once the save has succeeded, a sync is a cut. -/
theorem nodeProjectionSync_cut_iff_savedRun :
    ∃ w, exec World.step emptyWorld (savingRun ++ [.write true, .finish]) = some w ∧
      (w.nodeProjectionSync (·.rest) none).projection = 1 ∧
      w.ProjectionCut emptyWorld.durable.state (·.rest) none (w.nodeProjectionSync (·.rest) none) :=
  have hrun : exec World.step emptyWorld (savingRun ++ [.write true, .finish]) = some _ := rfl
  ⟨_, hrun, rfl, (nodeProjectionSync_cut_iff emptyWorld_loaded (reach_of_exec_true hrun) (·.rest)
    none).mpr ⟨rfl, nofun⟩⟩

end Boomux.Daemon
