import Boomux.Basic.Paging
import Boomux.Basic.Run
import Boomux.Daemon.Error
import Boomux.Handoff.Manifest

/-!
# Reading the event stream by cursor

`readAfterTurn` is one turn of the loop of `read_after`, which looks at the stream under its
lock and then answers or waits for the next event. A `Reading` is a stream with one client: it
began somewhere, holds the cursor of its last answer, and has been given some events. Events are
appended between the turns, and a handoff may take the stream to the next daemon.

A manifest is accepted although its first event has the id 0. The position of every event is
then off by one, and the client at the end of the stream is given the last event again.
-/

set_option autoImplicit false

namespace Boomux.Handoff

open Rust Daemon Paging Transition

/-! ## The stream across a handoff -/

/-- `from_transfer`, where `fresh` is the UUID of a new stream. What the old daemons had evicted
from a transferred stream is not transferred. -/
def fromTransfer (fresh : String) (transfer : Option EventStreamManifest)
    (evicted : List DaemonEvent) : EventStreamState :=
  match transfer with
  | none => ⟨fresh, 0, [], []⟩
  | some transfer => ⟨transfer.streamId, transfer.latestId, transfer.events, evicted⟩

/-- `EventStream::manifest`. -/
def manifest (state : EventStreamState) : EventStreamManifest :=
  ⟨state.streamId, state.latestId, state.events⟩

/-- A transferred stream is the one of its manifest. -/
theorem fromTransfer_manifest (fresh : String) (s : EventStreamState) :
    fromTransfer fresh (some (manifest s)) s.evicted = s := rfl

/-! ## `read_after` -/

/-- `Response::Events`. -/
structure EventsResponse where
  streamId : String
  cursor : EventCursor
  events : List DaemonEvent
  deriving DecidableEq, Repr

/-- The error of an expired cursor. -/
def cursorExpired : DaemonError :=
  .lifecycle .cursorExpired "event cursor is no longer available"

/-- The events of a page. -/
def page (state : EventStreamState) (after : EventCursor) (limit : Nat) : List DaemonEvent :=
  (state.events.drop (after.eventId - state.earliest)).take limit

/-- One turn of the loop of `read_after`: the answer, or `none` to wait and look again.
`waited` says that the time to wait is over. -/
def readAfterTurn (state : EventStreamState) (after : EventCursor) (limit : Nat)
    (waited stopping : Bool) : Option (Except DaemonError EventsResponse) :=
  if after.streamId ≠ state.streamId ∨ after.eventId < state.earliest ∨
      state.latestId < after.eventId then
    some (.error cursorExpired)
  else
    let events := page state after limit
    if !events.isEmpty || waited then
      let eventId := (events.getLast?.map (·.id)).getD after.eventId
      some (.ok ⟨state.streamId, ⟨state.streamId, eventId⟩, events⟩)
    else if stopping then
      some (.error (.lifecycle .daemonStopping "Boomux daemon is stopping"))
    else none

/-! ## A client -/

/-- A stream and a client that reads it: where the client began, the cursor of its last answer,
what it has been given, and the limit of a call that waits. -/
structure Reading where
  stream : EventStreamState
  start : EventCursor
  cursor : EventCursor
  delivered : List DaemonEvent
  request : Option Nat

/-- A client that begins to read at `cursor`. -/
def Reading.begin (stream : EventStreamState) (cursor : EventCursor) : Reading :=
  ⟨stream, cursor, cursor, [], none⟩

inductive ReadingAction
  /-- A batch is appended. -/
  | append (transition : Option Nat) (kinds : List DaemonEventKind)
  /-- The stream goes to the next daemon, which accepts this manifest. -/
  | handoff (manifest : Manifest)
  /-- A client begins at this cursor. -/
  | begin (cursor : EventCursor)
  /-- The client calls `read_after` with its cursor. -/
  | call (limit : Nat)
  /-- The call takes a turn. -/
  | turn (waited stopping : Bool)

namespace Reading

/-- What a turn makes of the call: an answer ends it, and a page moves the cursor. -/
def answer (s : Reading) : Option (Except DaemonError EventsResponse) → Reading
  | none => s
  | some (.error _) => { s with request := none }
  | some (.ok response) =>
      { s with
        cursor := response.cursor
        delivered := s.delivered ++ response.events
        request := none }

/-- One step of the stream or of its client. -/
def step (s : Reading) : ReadingAction → Option Reading
  | .append transition kinds =>
      match ensureCapacity s.stream kinds.length with
      | .error _ => none
      | .ok () => some { s with stream := appendBatchLocked transition s.stream kinds }
  | .handoff m =>
      if m.validateManifest = .ok () ∧ m.eventStream = manifest s.stream then
        some { s with stream := fromTransfer "" (some m.eventStream) s.stream.evicted }
      else none
  | .begin cursor => some (begin s.stream cursor)
  | .call limit => some { s with request := some limit }
  | .turn waited stopping =>
      s.request.map fun limit => s.answer (readAfterTurn s.stream s.cursor limit waited stopping)

end Reading

/-! ## What a client is promised -/

/-- The cursor names another stream, is beyond the latest event, or the event that follows it
is no longer retained. -/
def Expired (state : EventStreamState) (after : EventCursor) : Prop :=
  after.streamId ≠ state.streamId ∨ state.latestId < after.eventId ∨ state.Evicted after

/-- Calls with these limits, each followed by one turn. -/
def calls (turns : List (Nat × Bool × Bool)) : List ReadingAction :=
  turns.flatMap fun turn => [.call turn.1, .turn turn.2.1 turn.2.2]

/-- What a client is promised. -/
structure Reading.Followed (s : Reading) : Prop where
  /-- The retained ids are consecutive and end in the latest id. -/
  ids : s.stream.events.map (·.id) =
    List.range' (s.stream.latestId + 1 - s.stream.events.length) s.stream.events.length
  /-- There are not more of them than the retention limit. -/
  retained : s.stream.events.length ≤ maxRetainedEvents
  /-- The client was given every event published after its start, up to its cursor. -/
  delivered : s.delivered = between (·.id) s.start.eventId s.cursor.eventId s.stream.log
  /-- Each of them once and in the order of the ids. -/
  order : s.delivered.Pairwise (·.id < ·.id)
  /-- A cursor is refused exactly when it is expired. -/
  refused : ∀ after limit waited stopping,
    readAfterTurn s.stream after limit waited stopping = some (.error cursorExpired) ↔
      Expired s.stream after
  /-- As many calls as there are events left give the client all of them. -/
  complete : ¬ Expired s.stream s.cursor → ∀ turns : List (Nat × Bool × Bool),
    (∀ turn ∈ turns, 0 < turn.1) → s.stream.latestId - s.cursor.eventId ≤ turns.length →
    ∃ t, exec Reading.step s (calls turns) = some t ∧
      t.delivered = s.stream.log.filter (fun e => s.start.eventId < e.id)

/-! ## A stream whose ids start above 0 -/

/-- A stream that has the right ids and is not too long. -/
structure Sound (state : EventStreamState) : Prop where
  contiguous : state.Contiguous
  retained : state.events.length ≤ maxRetainedEvents

namespace Sound

variable {state : EventStreamState} {after : EventCursor}

theorem appendBatchLocked (h : Sound state) (transition : Option Nat)
    (kinds : List DaemonEventKind) : Sound (appendBatchLocked transition state kinds) where
  contiguous := (EventStreamState.Grows.appendBatchLocked state transition kinds).contiguous
    h.contiguous
  retained := by
    unfold Daemon.appendBatchLocked retainLatest
    split
    · simp only [drain, List.length_drop]
      omega
    next hle => omega

/-- What a batch appends comes after the latest id. -/
theorem appended (h : Sound state) (transition : Option Nat) (kinds : List DaemonEventKind) :
    ∃ new, (Daemon.appendBatchLocked transition state kinds).log = state.log ++ new ∧
      ∀ e ∈ new, state.latestId < e.id := by
  obtain ⟨new, hnew⟩ := (EventStreamState.Grows.appendBatchLocked state transition kinds).log
  have hlatest := appendBatchLocked_latestId transition state kinds
  have hlen := appendBatchLocked_log_length transition state kinds
  have hids := (h.appendBatchLocked transition kinds).contiguous.ids
  have hle := h.contiguous.le
  refine ⟨new, hnew.symm, fun e he => ?_⟩
  rw [hlen, hlatest, ← hnew] at hids
  have hn : Paging.Numbered (·.id)
      (state.latestId + kinds.length + 1 - (state.log.length + kinds.length))
      (state.log ++ new) := by
    unfold Paging.Numbered
    rw [hids, hnew, hlen]
  have := ((numbered_append.mp hn).2.mem he).1
  omega

theorem numbered_log (h : Sound state) :
    Paging.Numbered (·.id) (state.latestId + 1 - state.log.length) state.log := h.contiguous.ids

theorem log_le (h : Sound state) : state.log.length ≤ state.latestId := h.contiguous.le

theorem events_le (h : Sound state) : state.events.length ≤ state.latestId :=
  h.contiguous.retained.1

/-- Evicted events are older than the retained ones. -/
theorem evicted_lt (h : Sound state) :
    ∀ e ∈ state.evicted, e.id < state.latestId + 1 - state.events.length := by
  intro e he
  have hle := h.log_le
  have hlog := h.numbered_log
  unfold EventStreamState.log at hlog hle
  rw [List.length_append] at hlog hle
  have := ((numbered_append.mp hlog).1.mem he).2
  omega

theorem numbered (h : Sound state) :
    Paging.Numbered (·.id) (state.latestId + 1 - state.events.length) state.events :=
  h.contiguous.retained.2

theorem mem_log_le (h : Sound state) : ∀ e ∈ state.log, e.id ≤ state.latestId := by
  intro e he
  have hle := h.log_le
  have := (h.numbered_log.mem he).2
  omega

/-- The check of a cursor finds out whether it is expired. -/
theorem expired_iff (h : Sound state) :
    Expired state after ↔ after.streamId ≠ state.streamId ∨ after.eventId < state.earliest ∨
      state.latestId < after.eventId := by
  have hgone : state.Evicted after ↔ after.eventId < state.earliest := by
    rw [h.contiguous.evicted_iff, h.contiguous.earliest]
  unfold Expired
  rw [hgone]
  tauto

theorem readAfterTurn_of_expired (h : Sound state) (he : Expired state after) (limit : Nat)
    (waited stopping : Bool) :
    readAfterTurn state after limit waited stopping = some (.error cursorExpired) := by
  unfold readAfterTurn
  rw [if_pos (h.expired_iff.mp he)]

/-- A page is the part of the log that follows the cursor. -/
theorem page_eq (h : Sound state) (he : ¬ Expired state after) (limit : Nat) :
    page state after limit =
      between (·.id) after.eventId (after.eventId + limit) state.log := by
  have hle := h.events_le
  have hge : ¬ after.eventId < state.earliest := fun hlt =>
    he (h.expired_iff.mpr (.inr (.inl hlt)))
  rw [h.contiguous.earliest] at hge
  have hdrop : after.eventId - state.earliest =
      after.eventId + 1 - (state.latestId + 1 - state.events.length) := by
    rw [h.contiguous.earliest]
    omega
  have hev : ∀ e ∈ state.evicted, e.id ≤ after.eventId := fun e hm => by
    have := h.evicted_lt e hm
    omega
  unfold page
  rw [hdrop, h.numbered.take_drop (by omega), EventStreamState.log, between_append_of_le hev]

/-- The cursor moves by the length of the page. -/
theorem page_last (h : Sound state) (he : ¬ Expired state after) (limit : Nat) :
    ((page state after limit).getLast?.map (·.id)).getD after.eventId =
      after.eventId + (page state after limit).length := by
  have hle := h.events_le
  have hcursor : ¬(after.eventId < state.earliest ∨ state.latestId < after.eventId) := fun hc =>
    he (h.expired_iff.mpr (.inr hc))
  rw [h.contiguous.earliest] at hcursor
  have hfirst : state.latestId + 1 - state.events.length + (after.eventId - state.earliest) =
      after.eventId + 1 := by
    rw [h.contiguous.earliest]
    omega
  have hdrop : after.eventId - state.earliest ≤ state.events.length := by
    rw [h.contiguous.earliest]
    omega
  have hn : Paging.Numbered (·.id) (after.eventId + 1) (page state after limit) := by
    rw [← hfirst]
    exact (h.numbered.drop hdrop).take limit
  have := hn.getLast?
  rw [Nat.add_sub_cancel] at this
  rw [this]
  omega

/-- A page has as many events as the limit and the stream allow. -/
theorem page_length (h : Sound state) (he : ¬ Expired state after) (limit : Nat) :
    (page state after limit).length = min limit (state.latestId - after.eventId) := by
  have hle := h.events_le
  have hcursor : ¬(after.eventId < state.earliest ∨ state.latestId < after.eventId) := fun hc =>
    he (h.expired_iff.mpr (.inr hc))
  rw [h.contiguous.earliest] at hcursor
  unfold page
  rw [List.length_take, List.length_drop, h.contiguous.earliest]
  congr 1
  omega

/-- What a turn does when the cursor is not expired: it answers with what follows the cursor, or
there is nothing to answer with. -/
theorem readAfterTurn_of_not_expired (h : Sound state) (he : ¬ Expired state after) (limit : Nat)
    (waited stopping : Bool) :
    readAfterTurn state after limit waited stopping =
        some (.ok ⟨state.streamId,
          ⟨state.streamId, after.eventId + (page state after limit).length⟩,
          page state after limit⟩) ∨
      (page state after limit = [] ∧
        (readAfterTurn state after limit waited stopping = none ∨
          readAfterTurn state after limit waited stopping =
            some (.error (.lifecycle .daemonStopping "Boomux daemon is stopping")))) := by
  unfold readAfterTurn
  rw [if_neg fun hc => he (h.expired_iff.mpr hc)]
  simp only [h.page_last he]
  split
  · exact .inl rfl
  next hempty =>
    have hnil : page state after limit = [] := by
      have := (Bool.or_eq_false_iff.mp (Bool.eq_false_iff.mpr hempty)).1
      simpa using this
    right
    refine ⟨hnil, ?_⟩
    cases stopping with
    | true => exact .inr rfl
    | false => exact .inl rfl

/-- What an answer with events gives: events of the log, and a cursor into it. -/
theorem readAfterTurn_ok (h : Sound state) {limit : Nat} {waited stopping : Bool}
    {response : EventsResponse}
    (hr : readAfterTurn state after limit waited stopping = some (.ok response)) :
    (∀ e ∈ response.events, e ∈ state.log) ∧ response.cursor.streamId = state.streamId ∧
      response.cursor.eventId ≤ state.latestId := by
  by_cases he : Expired state after
  · rw [h.readAfterTurn_of_expired he] at hr
    cases hr
  · rcases h.readAfterTurn_of_not_expired he limit waited stopping with ht | ⟨-, ht | ht⟩
    · rw [ht] at hr
      cases hr
      refine ⟨fun e hmem => ?_, rfl, ?_⟩
      · exact List.mem_append_right _ (List.mem_of_mem_drop (List.mem_of_mem_take hmem))
      · have hle : ¬ state.latestId < after.eventId := fun hlt => he (.inr (.inl hlt))
        show after.eventId + (page state after limit).length ≤ state.latestId
        rw [h.page_length he]
        omega
    · rw [ht] at hr
      cases hr
    · rw [ht] at hr
      cases hr

end Sound

/-! ## A stream that only grows -/

/-- What appending makes of a stream: the log gets longer, with one id for each event. -/
structure Extends (s t : EventStreamState) : Prop where
  streamId : t.streamId = s.streamId
  log : s.log <+: t.log
  latest : t.latestId + s.log.length = s.latestId + t.log.length
  sound : Sound s → Sound t

namespace Extends

variable {s t u : EventStreamState}

theorem refl (s : EventStreamState) : Extends s s := ⟨rfl, List.prefix_rfl, rfl, id⟩

theorem trans (h : Extends s t) (h' : Extends t u) : Extends s u where
  streamId := h'.streamId.trans h.streamId
  log := h.log.trans h'.log
  latest := by
    have h₁ := h.latest
    have h₂ := h'.latest
    omega
  sound hs := h'.sound (h.sound hs)

theorem append (s : EventStreamState) (transition : Option Nat) (kinds : List DaemonEventKind) :
    Extends s (appendBatchLocked transition s kinds) where
  streamId := (EventStreamState.Grows.appendBatchLocked s transition kinds).streamId
  log := (EventStreamState.Grows.appendBatchLocked s transition kinds).log
  latest := by
    rw [appendBatchLocked_latestId, appendBatchLocked_log_length]
    omega
  sound hs := hs.appendBatchLocked transition kinds

theorem latestId_le (h : Extends s t) : s.latestId ≤ t.latestId := by
  have := h.latest
  have := h.log.length_le
  omega

/-- A stream that has grown has a new latest id. -/
theorem log_eq (h : Extends s t) (hid : t.latestId = s.latestId) : t.log = s.log := by
  have := h.latest
  exact (h.log.eq_of_length (by omega)).symm

theorem publishPendingRuntime (x : EventTransaction) :
    Extends x.events x.publishPendingRuntime.events := by
  unfold EventTransaction.publishPendingRuntime
  split
  · exact refl _
  · exact append ..

theorem finishPersistence (x : EventTransaction) :
    Extends x.events x.finishPersistence.events := by
  let idle := { x.transition with persistenceInFlight := false, inFlightEventCount := 0 }
  exact publishPendingRuntime { x with transition := idle }

theorem foldl_appendBatch (batches : List Batch) (x : EventTransaction) :
    Extends x.events (batches.foldl EventTransaction.appendBatch x).events := by
  induction batches generalizing x with
  | nil => exact refl _
  | cons batch batches ih => exact (append _ _ _).trans (ih (x.appendBatch batch))

theorem publishRuntimeBatch (x : EventTransaction) (kinds : List DaemonEventKind) :
    Extends x.events (x.publishRuntimeBatch kinds).2.events := by
  unfold EventTransaction.publishRuntimeBatch
  split
  · exact refl _
  · split
    · exact refl _
    · exact append ..

end Extends

/-! ## A client of such a stream -/

/-- What holds of a client of a sound stream. -/
structure Reading.Ok (s : Reading) : Prop where
  sound : Sound s.stream
  start_le : s.start.eventId ≤ s.cursor.eventId
  cursor_le : s.cursor.eventId ≤ s.stream.latestId ∨ s.cursor.eventId = s.start.eventId
  delivered : s.delivered = between (·.id) s.start.eventId s.cursor.eventId s.stream.log

namespace Reading.Ok

variable {s t : Reading} {action : ReadingAction}

theorem begin {stream : EventStreamState} (h : Sound stream) (cursor : EventCursor) :
    (Reading.begin stream cursor).Ok where
  sound := h
  start_le := Nat.le_refl _
  cursor_le := .inr rfl
  delivered := (between_eq_nil (Nat.le_refl _)).symm

/-- The events that a batch appends come after the cursor, or nothing was delivered. -/
theorem append (h : s.Ok) (transition : Option Nat) (kinds : List DaemonEventKind) :
    Reading.Ok { s with stream := appendBatchLocked transition s.stream kinds } where
  sound := h.sound.appendBatchLocked transition kinds
  start_le := h.start_le
  cursor_le := h.cursor_le.imp_left fun hle => by
    rw [appendBatchLocked_latestId]
    exact Nat.le_trans hle (Nat.le_add_right _ _)
  delivered := by
    obtain ⟨new, hlog, hnew⟩ := h.sound.appended transition kinds
    show s.delivered = _
    rw [hlog, h.delivered]
    rcases h.cursor_le with hle | heq
    · refine (between_append_of_lt fun e he => ?_).symm
      have := hnew e he
      omega
    · rw [between_eq_nil (Nat.le_of_eq heq), between_eq_nil (Nat.le_of_eq heq)]

/-- A page is what follows the cursor, so that the two together are what follows the start. -/
theorem page (h : s.Ok) (he : ¬ Expired s.stream s.cursor) (limit : Nat) (request : Option Nat) :
    Reading.Ok { s with
      cursor := ⟨s.stream.streamId,
        s.cursor.eventId + (page s.stream s.cursor limit).length⟩
      delivered := s.delivered ++ Handoff.page s.stream s.cursor limit
      request } where
  sound := h.sound
  start_le := Nat.le_trans h.start_le (Nat.le_add_right _ _)
  cursor_le := by
    left
    have hle : ¬ s.stream.latestId < s.cursor.eventId := fun hlt =>
      he (.inr (.inl hlt))
    show s.cursor.eventId + (Handoff.page s.stream s.cursor limit).length ≤ s.stream.latestId
    rw [h.sound.page_length he]
    omega
  delivered := by
    have hpage : Handoff.page s.stream s.cursor limit = between (·.id) s.cursor.eventId
        (s.cursor.eventId + (Handoff.page s.stream s.cursor limit).length) s.stream.log := by
      rw [← h.sound.page_eq he]
      unfold Handoff.page
      rw [List.take_eq_take_iff, List.length_take]
      omega
    calc s.delivered ++ Handoff.page s.stream s.cursor limit
        = between (·.id) s.start.eventId s.cursor.eventId s.stream.log ++ _ := by
          rw [← h.delivered]
      _ = between (·.id) s.start.eventId s.cursor.eventId s.stream.log ++
            between (·.id) s.cursor.eventId
              (s.cursor.eventId + (Handoff.page s.stream s.cursor limit).length)
              s.stream.log := by rw [← hpage]
      _ = _ := (between_append_between h.sound.numbered_log.pairwise h.start_le
          (Nat.le_add_right _ _)).symm

/-- A turn of a call keeps what holds of the client. -/
theorem turn (h : s.Ok) (limit : Nat) (waited stopping : Bool) :
    (s.answer (readAfterTurn s.stream s.cursor limit waited stopping)).Ok := by
  by_cases he : Expired s.stream s.cursor
  · rw [h.sound.readAfterTurn_of_expired he]
    exact ⟨h.sound, h.start_le, h.cursor_le, h.delivered⟩
  · rcases h.sound.readAfterTurn_of_not_expired he limit waited stopping with hr | ⟨-, hr | hr⟩
    · rw [hr]
      exact h.page he limit none
    · rw [hr]
      exact h
    · rw [hr]
      exact ⟨h.sound, h.start_le, h.cursor_le, h.delivered⟩

theorem step (h : s.Ok) (hs : s.step action = some t) : t.Ok := by
  cases action with
  | append transition kinds =>
      simp only [Reading.step] at hs
      split at hs
      · cases hs
      · cases hs
        exact h.append transition kinds
  | handoff m =>
      simp only [Reading.step] at hs
      split at hs
      next hm =>
        rw [hm.2, fromTransfer_manifest] at hs
        cases hs
        exact h
      · cases hs
  | begin cursor =>
      cases hs
      exact begin h.sound cursor
  | call limit =>
      cases hs
      exact ⟨h.sound, h.start_le, h.cursor_le, h.delivered⟩
  | turn waited stopping =>
      obtain ⟨limit, -, rfl⟩ := Option.map_eq_some_iff.mp hs
      exact h.turn limit waited stopping

/-- A turn of a call whose cursor is not expired moves the cursor as far as the limit allows. -/
theorem turn_cursor (h : s.Ok) (he : ¬ Expired s.stream s.cursor) (limit : Nat)
    (waited stopping : Bool) :
    (s.answer (readAfterTurn s.stream s.cursor limit waited stopping)).stream = s.stream ∧
      (s.answer (readAfterTurn s.stream s.cursor limit waited stopping)).start = s.start ∧
      (s.answer (readAfterTurn s.stream s.cursor limit waited stopping)).cursor =
        ⟨s.stream.streamId,
          s.cursor.eventId + min limit (s.stream.latestId - s.cursor.eventId)⟩ := by
  have hlen := h.sound.page_length he limit
  have hid : s.cursor.streamId = s.stream.streamId := by
    by_contra hne
    exact he (.inl hne)
  have hstay : (Handoff.page s.stream s.cursor limit).length = 0 → s.cursor =
      ⟨s.stream.streamId,
        s.cursor.eventId + min limit (s.stream.latestId - s.cursor.eventId)⟩ := by
    intro h0
    rw [← hlen, h0, ← hid]
    rfl
  rcases h.sound.readAfterTurn_of_not_expired he limit waited stopping with hr | ⟨hnil, hr | hr⟩
  · rw [hr]
    refine ⟨rfl, rfl, ?_⟩
    show (⟨_, _⟩ : EventCursor) = _
    rw [hlen]
  · rw [hr]
    exact ⟨rfl, rfl, hstay (by rw [hnil]; rfl)⟩
  · rw [hr]
    exact ⟨rfl, rfl, hstay (by rw [hnil]; rfl)⟩

/-- At the end of the stream, the client has everything since its start. -/
theorem delivered_of_latest (h : s.Ok) (hend : s.cursor.eventId = s.stream.latestId) :
    s.delivered = s.stream.log.filter (fun e => s.start.eventId < e.id) := by
  rw [h.delivered, hend]
  exact between_eq_filter h.sound.mem_log_le

/-- As many calls as there are events left give the client all of them. -/
theorem complete (h : s.Ok) (he : ¬ Expired s.stream s.cursor) (turns : List (Nat × Bool × Bool))
    (hpos : ∀ turn ∈ turns, 0 < turn.1)
    (hlen : s.stream.latestId - s.cursor.eventId ≤ turns.length) :
    ∃ t, exec Reading.step s (calls turns) = some t ∧
      t.delivered = s.stream.log.filter (fun e => s.start.eventId < e.id) := by
  have hcursor : ¬(s.cursor.eventId < s.stream.earliest ∨ s.stream.latestId < s.cursor.eventId) :=
    fun hc => he (h.sound.expired_iff.mpr (.inr hc))
  induction turns generalizing s with
  | nil =>
      refine ⟨s, rfl, h.delivered_of_latest ?_⟩
      simp only [List.length_nil] at hlen
      omega
  | cons turn turns ih =>
      obtain ⟨limit, waited, stopping⟩ := turn
      -- the call only records its limit
      have hcall : Reading.Ok { s with request := some limit } :=
        ⟨h.sound, h.start_le, h.cursor_le, h.delivered⟩
      obtain ⟨hstream, hstart, hmoved⟩ := hcall.turn_cursor he limit waited stopping
      have hok := hcall.turn limit waited stopping
      have hlimit : 0 < limit := hpos _ (List.mem_cons_self ..)
      revert hstream hstart hmoved hok
      generalize hu : Reading.answer { s with request := some limit }
        (readAfterTurn s.stream s.cursor limit waited stopping) = u
      intro (hstream : u.stream = s.stream) (hstart : u.start = s.start) hmoved hok
      have hle := h.sound.events_le
      rw [h.sound.contiguous.earliest] at hcursor
      have hid : u.cursor.eventId =
          s.cursor.eventId + min limit (s.stream.latestId - s.cursor.eventId) := by rw [hmoved]
      have hin : ¬(u.cursor.eventId < u.stream.earliest ∨
          u.stream.latestId < u.cursor.eventId) := by
        rw [hok.sound.contiguous.earliest, hstream, hid]
        omega
      have hne : ¬ Expired u.stream u.cursor := by
        rw [hok.sound.expired_iff]
        rintro (hs | hs)
        · rw [hstream, hmoved] at hs
          exact hs rfl
        · exact hin hs
      simp only [List.length_cons] at hlen
      obtain ⟨t, ht, hall⟩ := ih hok hne (fun x hx => hpos x (List.mem_cons_of_mem _ hx))
        (by rw [hstream, hid]; show _ - (_ + min _ _) ≤ _; omega) hin
      refine ⟨t, ?_, ?_⟩
      · show exec Reading.step s (.call limit :: .turn waited stopping :: calls turns) = _
        simp only [exec_cons, Reading.step, Option.bind_some, Option.map_some, hu]
        exact ht
      · rw [hall, hstream, hstart]

/-- What a client is promised follows. -/
theorem followed (h : s.Ok) : s.Followed where
  ids := h.sound.numbered
  retained := h.sound.retained
  delivered := h.delivered
  order := by
    rw [h.delivered]
    exact between_pairwise h.sound.numbered_log.pairwise
  refused after limit waited stopping := by
    by_cases he : Expired s.stream after
    · simp only [he, iff_true]
      exact h.sound.readAfterTurn_of_expired he limit waited stopping
    · simp only [he, iff_false]
      rcases h.sound.readAfterTurn_of_not_expired he limit waited stopping with
        hr | ⟨-, hr | hr⟩
      · simp [hr]
      · simp [hr]
      · simp [hr, cursorExpired, DaemonError.lifecycle]
  complete he turns hpos hlen := h.complete he turns hpos hlen

end Reading.Ok

/-! ## Streams as they start -/

/-- A new stream is sound. -/
theorem sound_new (fresh : String) : Sound (fromTransfer fresh none []) :=
  ⟨⟨Nat.le_refl 0, rfl⟩, Nat.zero_le _⟩

/-- The stream of an accepted manifest is sound, unless an event has the id 0. -/
theorem sound_fromTransfer (fresh : String) {m : Manifest} (hm : m.Accepted)
    (h0 : ∀ e ∈ m.eventStream.events, e.id ≠ 0) :
    Sound (fromTransfer fresh (some m.eventStream) []) := by
  obtain ⟨hids, hle⟩ := EventStreamManifest.ids_of_valid hm.stream
  have hn : Paging.Numbered (·.id) _ m.eventStream.events := hids
  have hlen : m.eventStream.events.length ≤ m.eventStream.latestId := by
    by_contra hlong
    obtain ⟨e, he, hid⟩ := hn.exists_mem (n := 0) (by omega) (by omega)
    exact h0 e he hid
  have hshort := hm.stream
  simp only [EventStreamManifest.valid, Bool.and_eq_true, decide_eq_true_eq] at hshort
  exact ⟨⟨hlen, hids⟩, hshort.1.1.2⟩

/-- With an event of id 0 the client at the end of the stream is given the last event again. -/
theorem not_followed_of_zero (fresh : String) {m : Manifest} (hm : m.Accepted) {e : DaemonEvent}
    (he : e ∈ m.eventStream.events) (h0 : e.id = 0) :
    ∃ cursor as t, exec Reading.step
      (Reading.begin (fromTransfer fresh (some m.eventStream) []) cursor) as = some t ∧
        ¬ t.Followed := by
  obtain ⟨hids, hle⟩ := EventStreamManifest.ids_of_valid hm.stream
  have hn : Paging.Numbered (·.id) _ m.eventStream.events := hids
  have hfirst := (hn.mem he).1
  simp only [h0, Nat.le_zero_eq] at hfirst
  have hlen : m.eventStream.events.length = m.eventStream.latestId + 1 := by omega
  rw [hfirst] at hn
  generalize hstate : fromTransfer fresh (some m.eventStream) [] = state
  have hevents : state.events = m.eventStream.events := by rw [← hstate]; rfl
  have hlatest : state.latestId = m.eventStream.latestId := by rw [← hstate]; rfl
  have hearliest : state.earliest = 0 := by
    unfold EventStreamState.earliest
    rw [hevents]
    cases hl : m.eventStream.events with
    | nil => rw [hl] at he; exact absurd he List.not_mem_nil
    | cons first rest =>
        rw [hl] at hn
        have := (numbered_cons.mp hn).1
        show first.id - 1 = 0
        omega
  let cursor : EventCursor := ⟨state.streamId, state.latestId⟩
  have hpage : page state cursor 1 = m.eventStream.events.drop state.latestId := by
    have hone : (m.eventStream.events.drop state.latestId).length = 1 := by
      rw [List.length_drop, hlen, hlatest]
      omega
    unfold page
    rw [hearliest, hevents, Nat.sub_zero]
    exact List.take_of_length_le (Nat.le_of_eq hone)
  -- the page holds one event, and its id is at most the latest
  have hone : (page state cursor 1).length = 1 := by
    rw [hpage, List.length_drop, hlen, hlatest]
    omega
  have hlast : ((page state cursor 1).getLast?.map (·.id)).getD state.latestId ≤
      state.latestId := by
    cases hl : (page state cursor 1).getLast? with
    | none => exact Nat.le_refl _
    | some last =>
        have hmem : last ∈ m.eventStream.events := by
          have := List.mem_of_getLast? hl
          rw [hpage] at this
          exact List.mem_of_mem_drop this
        have := (hn.mem hmem).2
        show last.id ≤ state.latestId
        omega
  have hturn : readAfterTurn state cursor 1 true false = some (.ok ⟨state.streamId,
      ⟨state.streamId, ((page state cursor 1).getLast?.map (·.id)).getD state.latestId⟩,
      page state cursor 1⟩) := by
    unfold readAfterTurn
    rw [if_neg (by simp [cursor, hearliest]), if_pos (by simp)]
  let called : Reading := { Reading.begin state cursor with request := some 1 }
  refine ⟨cursor, [.call 1, .turn true false],
    called.answer (readAfterTurn state cursor 1 true false), rfl, fun hf => ?_⟩
  rw [hturn] at hf
  have hnil : page state cursor 1 = [] := hf.delivered.trans (between_eq_nil hlast)
  rw [hnil] at hone
  cases hone

/-- A client of a new stream, or of the stream of an accepted manifest, is promised all of this
at every moment exactly if no event of the manifest has the id 0. -/
theorem followed_iff (fresh : String) (transfer : Option Manifest)
    (hvalid : ∀ m ∈ transfer, m.validateManifest = .ok ()) :
    (∀ cursor as t, exec Reading.step
      (Reading.begin (fromTransfer fresh (transfer.map (·.eventStream)) []) cursor) as = some t →
        t.Followed) ↔
      ∀ m ∈ transfer, ∀ e ∈ m.eventStream.events, e.id ≠ 0 := by
  constructor
  · intro hall m hm e he h0
    have hacc := Manifest.validateManifest_eq_ok.mp (hvalid m hm)
    obtain ⟨cursor, as, t, ht, hnot⟩ := not_followed_of_zero fresh hacc he h0
    cases transfer with
    | none => cases hm
    | some m' =>
        cases hm
        exact hnot (hall cursor as t ht)
  · intro h0 cursor as t ht
    have hsound : Sound (fromTransfer fresh (transfer.map (·.eventStream)) []) := by
      cases transfer with
      | none => exact sound_new fresh
      | some m =>
          exact sound_fromTransfer fresh (Manifest.validateManifest_eq_ok.mp (hvalid m rfl))
            (h0 m rfl)
    have hok : t.Ok := (reach_of_exec_true ht).invariant (Reading.Ok.begin hsound cursor)
      fun _ _ _ hi _ hs => hi.step hs
    exact hok.followed

/-- A manifest whose only event has this id. -/
def oneEventManifest (id : Nat) : Manifest where
  runtimes := []
  exited := []
  eventStream :=
    ⟨"00000000-0000-4000-8000-000000000001", id, [⟨id, .workspaceClosed "w", none⟩]⟩
  presentedFocusedTerminal := none
  opencodeRuntime := none
  claudeRemoteControlBindings := []
  kiroLaunchHolders := []

/-- A client of a stream whose only event has the id 1. -/
theorem followed_iff_oneEventManifest :
    (∀ cursor as t, exec Reading.step
      (Reading.begin (fromTransfer "" ((some (oneEventManifest 1)).map (·.eventStream)) [])
        cursor) as = some t → t.Followed) ↔
      ∀ m ∈ some (oneEventManifest 1), ∀ e ∈ m.eventStream.events, e.id ≠ 0 :=
  followed_iff "" (some (oneEventManifest 1)) fun m hm => by
    cases hm
    decide

/-- Not every stream of an accepted manifest can be followed. -/
theorem not_followed_oneEventManifest :
    ¬ ∀ (m : Manifest), m.validateManifest = .ok () → ∀ cursor as t,
      exec Reading.step (Reading.begin (fromTransfer "" (some m.eventStream) []) cursor) as =
        some t → t.Followed := by
  intro hall
  obtain ⟨cursor, as, t, ht, hnot⟩ := not_followed_of_zero "" (m := oneEventManifest 0)
    (Manifest.validateManifest_eq_ok.mp (by decide)) (List.mem_cons_self ..) rfl
  exact hnot (hall (oneEventManifest 0) (by decide) cursor as t ht)

end Boomux.Handoff
