import Boomux.Handoff.Ownership

/-!
# Cursors across a handoff

The old daemon reads its stream into the manifest before the exchange, and its handlers go on:
they publish runtime events and answer reads until the process leaves. The stream of the
replacement is the one of the manifest, so an event appended after `manifest` is in no log but
the old one, and the id it was given is given to HandoffCompleted again.
-/

set_option autoImplicit false

namespace Boomux.Handoff

open Rust Daemon Transition

namespace Exchange

variable {s t : Exchange}

/-! ## What is promised -/

/-- The event that the replacement appends first. -/
def completedEvent (latestId : Nat) : DaemonEvent := ⟨latestId + 1, .handoffCompleted, none⟩

/-- A cursor of the old daemon is good for whichever daemon owns the stream. -/
structure Continuous (s : Exchange) : Prop where
  /-- What the old daemon gave its clients is in its log. -/
  given : ∀ e ∈ s.delivered, e ∈ s.old.events.events.log
  /-- Its cursors name its stream and no later event. -/
  named : ∀ c ∈ s.cursors, c.streamId = s.old.events.events.streamId ∧
    c.eventId ≤ s.old.events.events.latestId
  /-- Until FINALIZE is written, and for good when the handoff is given up, the old daemon owns the
  stream: a client that goes on with one of its cursors there is given everything after it. -/
  resumes : s.finalized = false → ∀ c ∈ s.cursors, (Reading.begin s.old.events.events c).Followed
  /-- Once FINALIZE is written, the manifest has all of it. -/
  transferred : s.finalized = true → s.old.events.events.log = s.transferred.log ∧
    (∀ e ∈ s.delivered, e ∈ s.transferred.log) ∧
    ∀ c ∈ s.cursors, c.eventId ≤ s.transferred.latestId
  /-- The log of the replacement is the old one, and HandoffCompleted follows. -/
  follows : s.new.published = true → ∃ rest, s.new.events.events.log =
    s.old.events.events.log ++ completedEvent s.old.events.events.latestId :: rest
  /-- A client that goes on with a cursor of the old daemon is given everything after it. -/
  continues : s.new.published = true → ∀ c ∈ s.cursors,
    c.streamId = s.new.events.events.streamId ∧
      c.eventId ≤ s.new.events.events.latestId ∧
      (Reading.begin s.new.events.events c).Followed

/-- A batch that `publish_runtime_batch` does not append. -/
def notAppended (x : EventTransaction) (kinds : List DaemonEventKind) : Prop :=
  kinds = [] ∨ x.blocked = true ∨
    (ensureCapacity x.events
      (saturatingAdd x.transition.reservedEventCount kinds.length)).toOption = none

/-- Nothing was appended to the stream since `manifest` when FINALIZE is written, and nothing is
appended to it after that. -/
def StaysQuiet (s : Exchange) : ExchangeAction → Prop
  | .old true => s.old.phase = .writeFinalize →
      s.old.events.events.latestId = s.transferred.latestId
  | .publish kinds => s.finalized = true → notAppended s.old.events kinds
  | _ => True

instance (x : EventTransaction) (kinds : List DaemonEventKind) : Decidable (notAppended x kinds) :=
  inferInstanceAs (Decidable (_ ∨ _ ∨ _))

instance (s : Exchange) (action : ExchangeAction) : Decidable (s.StaysQuiet action) :=
  match action with
  | .old true => inferInstanceAs (Decidable (_ → _))
  | .publish _ => inferInstanceAs (Decidable (_ → _))
  | .old false | .start _ | .createStarted _ | .resumeStarted _ | .stop _ | .runEnds _
  | .beginCommit _ | .endCommit _ | .read .. | .snapshot | .launch | .spawn _ | .leave | .oldDies
  | .new _ | .newDies | .loseToNew _ | .loseToOld _ | .newPublish _ => .isTrue trivial

/-! ## The stream of the old daemon -/

/-- What holds of the stream of the old daemon and of what its clients were given. -/
structure Kept (s : Exchange) : Prop where
  ordered : s.Ordered
  sound : Sound s.transferred
  extends_ : Extends s.transferred s.old.events.events
  given : ∀ e ∈ s.delivered, e ∈ s.old.events.events.log
  named : ∀ c ∈ s.cursors, c.streamId = s.old.events.events.streamId ∧
    c.eventId ≤ s.old.events.events.latestId
  locked : s.old.phase = .serving ∨ s.old.phase = .exited ∨ s.old.committing = none

theorem Kept.init {stream : EventStreamState} (h : Sound stream) : Kept (init stream) where
  ordered := .init stream
  sound := h
  extends_ := .refl _
  given _ he := absurd he List.not_mem_nil
  named _ hc := absurd hc List.not_mem_nil
  locked := .inl rfl

theorem Kept.old_sound (h : s.Kept) : Sound s.old.events.events := h.extends_.sound h.sound

/-- The stream may grow, and clients are given nothing. -/
theorem Kept.grow (h : s.Kept) (ht : t.Ordered) (htransferred : t.transferred = s.transferred)
    (hdelivered : t.delivered = s.delivered) (hcursors : t.cursors = s.cursors)
    (hevents : Extends s.old.events.events t.old.events.events)
    (hlocked : t.old.phase = .serving ∨ t.old.phase = .exited ∨ t.old.committing = none) :
    t.Kept where
  ordered := ht
  sound := htransferred ▸ h.sound
  extends_ := htransferred ▸ h.extends_.trans hevents
  given e he := hevents.log.subset (h.given e (hdelivered ▸ he))
  named c hc := by
    obtain ⟨hid, hle⟩ := h.named c (hcursors ▸ hc)
    exact ⟨hid.trans hevents.streamId.symm, hle.trans hevents.latestId_le⟩
  locked := hlocked

/-- A client is given an answer. -/
theorem Kept.deliver (h : s.Kept) (after : EventCursor) (limit : Nat) (waited stopping : Bool)
    (ht : (s.deliver (readAfterTurn s.old.events.events after limit waited stopping)).Ordered) :
    (s.deliver (readAfterTurn s.old.events.events after limit waited stopping)).Kept := by
  revert ht
  cases hr : readAfterTurn s.old.events.events after limit waited stopping with
  | none => exact fun _ => h
  | some result =>
      cases result with
      | error e => exact fun _ => h
      | ok response =>
          intro ht
          obtain ⟨hevents, hid, hle⟩ := h.old_sound.readAfterTurn_ok hr
          refine ⟨ht, h.sound, h.extends_, fun e he => ?_, fun c hc => ?_, h.locked⟩
          · exact (List.mem_append.mp he).elim (h.given e) (hevents e)
          · rcases List.mem_cons.mp hc with rfl | hc
            · exact ⟨hid, hle⟩
            · exact h.named c hc

/-- `manifest` reads the stream as it is. -/
theorem Kept.takeManifest (h : s.Kept) (ht : t.Ordered)
    (htransferred : t.transferred = s.old.events.events) (hdelivered : t.delivered = s.delivered)
    (hcursors : t.cursors = s.cursors) (hevents : t.old.events = s.old.events)
    (hlocked : t.old.committing = none) : t.Kept where
  ordered := ht
  sound := htransferred ▸ h.old_sound
  extends_ := by
    rw [htransferred, hevents]
    exact .refl _
  given := by
    rw [hdelivered, hevents]
    exact h.given
  named := by
    rw [hcursors, hevents]
    exact h.named
  locked := .inr (.inr hlocked)

/-- While `launch_replacement` holds the lock, no mutation has it. -/
theorem Kept.not_committing (h : s.Kept)
    (hp : s.old.phase ≠ .serving ∧ s.old.phase ≠ .exited) : s.old.committing = none := by
  rcases h.locked with hl | hl | hl
  · exact absurd hl hp.1
  · exact absurd hl hp.2
  · exact hl

/-- A step of `launch_replacement` is one of a daemon that serves nothing else. -/
theorem oldStep_phase {ok : Bool} (hs : s.oldStep ok = some t) :
    s.old.phase ≠ .serving ∧ s.old.phase ≠ .exited := by
  constructor
  · intro hp
    simp only [oldStep, hp] at hs
    cases hs
  · intro hp
    simp only [oldStep, hp] at hs
    cases hs

theorem Kept.step (h : s.Kept) {action : ExchangeAction} (hs : s.step action = some t) :
    t.Kept := by
  have ht := h.ordered.step hs
  cases action with
  -- These touch the old daemon's readers, not its events.
  | start runId | createStarted runId | stop runId =>
      simp only [Exchange.step, Option.ite_none_right_eq_some, Option.some.injEq] at hs
      obtain ⟨-, rfl⟩ := hs
      exact h.grow ht rfl rfl rfl (.refl _) h.locked
  | resumeStarted runId | runEnds runId =>
      simp only [Exchange.step, Option.ite_none_right_eq_some, Option.some.injEq] at hs
      obtain ⟨-, rfl⟩ := hs
      exact h.grow ht rfl rfl rfl (.refl _) h.locked
  | beginCommit batch =>
      simp only [Exchange.step, Option.ite_none_right_eq_some, Option.some.injEq] at hs
      obtain ⟨hfree, rfl⟩ := hs
      exact h.grow ht rfl rfl rfl (.refl _) (.inl hfree.1.1)
  | endCommit saved =>
      simp only [Exchange.step] at hs
      split at hs
      · cases hs
      next batch hbatch =>
        simp only [Option.ite_none_right_eq_some, Option.some.injEq] at hs
        obtain ⟨-, rfl⟩ := hs
        refine h.grow ht rfl rfl rfl ?_ (.inr (.inr rfl))
        -- A saved batch is appended; another one is dropped, with its reservation.
        cases saved with
        | true =>
            exact (Extends.append _ _ _).trans
              (Extends.finishPersistence (s.old.events.appendBatch batch))
        | false => exact Extends.finishPersistence s.old.events
  | publish kinds =>
      simp only [Exchange.step, Option.ite_none_right_eq_some, Option.some.injEq] at hs
      obtain ⟨-, rfl⟩ := hs
      exact h.grow ht rfl rfl rfl (.publishRuntimeBatch _ kinds) h.locked
  | read after limit waited stopping =>
      simp only [Exchange.step, Option.ite_none_right_eq_some, Option.some.injEq] at hs
      obtain ⟨-, rfl⟩ := hs
      exact h.deliver after limit waited stopping ht
  | snapshot =>
      simp only [Exchange.step, Option.ite_none_right_eq_some, Option.some.injEq] at hs
      obtain ⟨-, rfl⟩ := hs
      -- A snapshot hands out the cursor of now.
      refine ⟨ht, h.sound, h.extends_, h.given, fun c hc => ?_, h.locked⟩
      rcases List.mem_cons.mp hc with rfl | hc
      · exact ⟨rfl, Nat.le_refl _⟩
      · exact h.named c hc
  | launch =>
      simp only [Exchange.step, Option.ite_none_right_eq_some, Option.some.injEq] at hs
      obtain ⟨hfree, rfl⟩ := hs
      exact h.grow ht rfl rfl rfl (.refl _) (.inr (.inr hfree.2.2))
  | old ok =>
      have hframe := oldStep_frame hs
      have hcommitting := hframe.committing.trans (h.not_committing (oldStep_phase hs))
      -- Only the step that takes the manifest fixes what is transferred.
      by_cases hp : s.old.phase = .takeManifest
      · simp only [Exchange.step, oldStep, hp] at hs
        cases ok with
        | true =>
            cases hs
            exact h.takeManifest ht rfl rfl rfl rfl hcommitting
        | false =>
            cases hs
            exact h.grow ht rfl rfl rfl (.refl _) (.inr (.inr hcommitting))
      · exact h.grow ht (hframe.transferred hp) hframe.delivered hframe.cursors hframe.events
          (.inr (.inr hcommitting))
  | spawn m =>
      simp only [Exchange.step] at hs
      split at hs
      next stream hp =>
        simp only [Option.ite_none_right_eq_some, Option.some.injEq] at hs
        obtain ⟨-, rfl⟩ := hs
        have hcommitting := h.not_committing (by simp [hp])
        exact h.grow ht rfl rfl rfl (.refl _) (.inr (.inr hcommitting))
      · cases hs
  | leave =>
      simp only [Exchange.step, Option.ite_none_right_eq_some, Option.some.injEq] at hs
      obtain ⟨-, rfl⟩ := hs
      exact h.grow ht rfl rfl rfl (.refl _) (.inr (.inl rfl))
  | oldDies =>
      cases hs
      exact h.grow ht rfl rfl rfl (.refl _) (.inr (.inl rfl))
  | new ok =>
      have hnew := newStep_spec hs
      -- The replacement leaves the old daemon as it is.
      refine h.grow ht hnew.transferred hnew.delivered hnew.cursors ?_ ?_
      · rw [hnew.old]
        exact .refl _
      · rw [hnew.old]
        exact h.locked
  | newDies | loseToNew index | loseToOld index =>
      cases hs
      exact h.grow ht rfl rfl rfl (.refl _) h.locked
  | newPublish kinds =>
      simp only [Exchange.step, Option.ite_none_right_eq_some, Option.some.injEq] at hs
      obtain ⟨-, rfl⟩ := hs
      exact h.grow ht rfl rfl rfl (.refl _) h.locked

/-! ## The stream of the replacement -/

/-- What the replacement has of the stream: the one of the manifest, until it publishes. -/
def Holds (transferred : EventStreamState) (events : EventTransaction) (published : Bool) :
    NewPhase → Prop
  | .readHeader | .readManifest => published = false
  | .readDescriptors m _ | .writeReady m | .readDecision m | .importing m =>
      m.eventStream = manifest transferred ∧ published = false
  | .writePrepared | .readFinal | .arm | .publish => events = ⟨.idle, transferred⟩
  | _ => True

/-- Whether the replacement's process is there. -/
def alive : NewPhase → Bool
  | .absent | .exited => false
  | _ => true

/-- The phases of the old daemon in which no replacement is there. -/
def early : OldPhase → Bool
  | .serving | .pausing _ | .flush | .flushing _ | .takeManifest | .collect _ | .cancel => true
  | _ => false

/-- What holds of the replacement's stream, and of the manifests on the way to it. -/
structure Carried (s : Exchange) : Prop where
  dead : early s.old.phase = true → alive s.new.phase = false
  collect : ∀ stream, s.old.phase = .collect stream → stream = manifest s.transferred
  sending : ∀ rest, s.old.phase = .sending rest →
    ∀ m, .manifest m ∈ rest → m.eventStream = manifest s.transferred
  sent : alive s.new.phase = true →
    ∀ m, .manifest m ∈ s.toNew → m.eventStream = manifest s.transferred
  holds : Holds s.transferred s.new.events s.new.published s.new.phase
  completed : s.new.published = true →
    Extends s.transferred s.new.events.events ∧ ∃ rest, s.new.events.events.log =
      s.transferred.log ++ completedEvent s.transferred.latestId :: rest

theorem Carried.init (stream : EventStreamState) : Carried (init stream) where
  dead _ := rfl
  collect := nofun
  sending := nofun
  sent h := by cases h
  holds := trivial
  completed h := by cases h

/-- The first event of a daemon that starts with `stream`. -/
theorem publish_completed {stream : EventStreamState} {events : EventTransaction}
    (h : (EventTransaction.publishRuntimeBatch ⟨.idle, stream⟩ [.handoffCompleted]) =
      (.ok (), events)) :
    Extends stream events.events ∧ events.events.log =
      stream.log ++ [completedEvent stream.latestId] := by
  unfold EventTransaction.publishRuntimeBatch at h
  split at h
  · cases h
  · have hidle : TransitionState.idle.publicationBlocked = false := by decide
    rw [if_neg (by rw [hidle]; nofun)] at h
    cases h
    refine ⟨.append .., ?_⟩
    show (appendBatchLocked none stream [.handoffCompleted]).log = _
    unfold appendBatchLocked
    rw [retainLatest_log]
    simp [appendOne, EventStreamState.log, completedEvent]

/-- A step of the replacement that reads nothing and publishes nothing. -/
theorem Carried.newAt (h : s.Carried) {phase : NewPhase}
    (hlive : alive phase = true → alive s.new.phase = true)
    (hholds : Holds s.transferred s.new.events s.new.published phase) :
      (s.newAt phase).Carried where
  dead he := by
    by_contra hd
    have := hlive (by simpa [Exchange.newAt] using hd)
    rw [h.dead he] at this
    cases this
  collect := h.collect
  sending := h.sending
  sent hl := h.sent (hlive hl)
  holds := hholds
  completed := h.completed

/-- The replacement has read a message. -/
theorem Carried.heard (h : s.Carried) (hlive : alive s.new.phase = true) {message : Message}
    {rest : List Message} (htoNew : s.toNew = message :: rest) {phase : NewPhase}
    (hholds : Holds s.transferred s.new.events s.new.published phase) :
    (Exchange.newAt { s with toNew := rest } phase).Carried := by
  have hrest : Carried { s with toNew := rest } := by
    refine ⟨h.dead, h.collect, h.sending, fun hl m hm => h.sent hl m ?_, h.holds, h.completed⟩
    rw [htoNew]
    exact List.mem_cons_of_mem _ hm
  exact hrest.newAt (fun _ => hlive) hholds

/-- The replacement answers. -/
theorem Carried.reply (h : s.Carried) (hlive : alive s.new.phase = true) (ok : Bool)
    (message : Message) {next : NewPhase}
    (hholds : Holds s.transferred s.new.events s.new.published next) :
    (s.reply ok message next).Carried := by
  unfold Exchange.reply
  split
  · have := h.newAt (fun _ => hlive) hholds
    exact ⟨this.dead, this.collect, this.sending, this.sent, this.holds, this.completed⟩
  · exact h.newAt nofun trivial

/-- The replacement reads a message and goes on, or it fails to. -/
theorem Carried.hear (h : s.Carried) {ok : Bool} {next : Exchange → Message → Exchange}
    (hnext : ∀ message rest, s.toNew = message :: rest →
      (next { s with toNew := rest } message).Carried)
    (hs : s.hear ok next = some t) : t.Carried := by
  unfold Exchange.hear at hs
  split at hs
  · split at hs
    · cases hs
    next message rest htoNew =>
      cases hs
      exact hnext message rest htoNew
  · cases hs
    exact h.newAt nofun trivial

/-- A step of the replacement. -/
theorem Carried.new (h : s.Carried) {ok : Bool}
    (hs : s.newStep ok = some t) : t.Carried := by
  have hholds := h.holds
  have hdead := h.dead
  unfold newStep at hs
  split at hs
  -- absent, serving and exited take no step here
  · cases hs
  · cases hs
  · cases hs
  -- readHeader
  next hp =>
    rw [hp] at hholds
    refine h.hear (fun message rest hto => h.heard (by rw [hp]; rfl) hto ?_) hs
    split
    · exact hholds
    · trivial
  -- readManifest: what arrives is what the old daemon has sent
  next hp =>
    rw [hp] at hholds
    refine h.hear (fun message rest hto => ?_) hs
    have hlive : alive s.new.phase = true := by rw [hp]; rfl
    unfold hearManifest
    split
    next m =>
      have hm := h.sent hlive m (by rw [hto]; exact List.mem_cons_self ..)
      split
      · exact h.heard hlive hto ⟨hm, hholds⟩
      · exact h.heard hlive hto trivial
    · exact h.heard hlive hto trivial
  -- readDescriptors, the last one having been read
  next m hp =>
    cases hs
    rw [hp] at hholds
    exact h.newAt (fun _ => by rw [hp]; rfl) hholds
  -- readDescriptors
  next m expected rest hp =>
    rw [hp] at hholds
    refine h.hear (fun message rest hto => h.heard (by rw [hp]; rfl) hto ?_) hs
    split
    · exact hholds
    · trivial
  -- writeReady
  next m hp =>
    cases hs
    rw [hp] at hholds
    exact h.reply (by rw [hp]; rfl) ok _ hholds
  -- readDecision
  next m hp =>
    rw [hp] at hholds
    refine h.hear (fun message rest hto => ?_) hs
    unfold hearDecision
    split
    · exact h.heard (by rw [hp]; rfl) hto hholds
    · exact h.heard (by rw [hp]; rfl) hto trivial
  -- importing: the replacement starts from the stream of the manifest
  next m hp =>
    cases hs
    rw [hp] at hholds
    split
    · unfold importHandoff
      simp only
      split
      · exact h.newAt nofun trivial
      · refine ⟨fun he => ?_, h.collect, h.sending, fun _ => h.sent (by rw [hp]; rfl), ?_,
          fun hpub => ?_⟩
        · have := hdead he
          rw [hp] at this
          cases this
        · show (⟨_, _⟩ : EventTransaction) = ⟨_, _⟩
          rw [hholds.1, fromTransfer_manifest]
        · have hpub : s.new.published = true := hpub
          rw [hholds.2] at hpub
          cases hpub
    · exact h.newAt nofun trivial
  -- writePrepared
  next hp =>
    cases hs
    rw [hp] at hholds
    exact h.reply (by rw [hp]; rfl) ok _ hholds
  -- readFinal
  next hp =>
    rw [hp] at hholds
    refine h.hear (fun message rest hto => ?_) hs
    have hlive : alive s.new.phase = true := by rw [hp]; rfl
    unfold hearFinal
    split
    · have : (Exchange.newAt { s with toNew := rest } .arm).Carried := h.heard hlive hto hholds
      exact ⟨this.dead, this.collect, this.sending, this.sent, this.holds, this.completed⟩
    · exact h.heard hlive hto trivial
  -- arm
  next hp =>
    cases hs
    rw [hp] at hholds
    have : (s.newAt .publish).Carried := h.newAt (fun _ => by rw [hp]; rfl) hholds
    exact ⟨this.dead, this.collect, this.sending, this.sent, this.holds, this.completed⟩
  -- publish: the event of the handoff is the first one of the replacement
  next hp =>
    cases hs
    rw [hp] at hholds
    unfold publishCompleted
    rw [hholds]
    split
    · exact h.newAt nofun trivial
    next events hpub =>
      obtain ⟨hext, hlog⟩ := publish_completed hpub
      refine ⟨fun he => ?_, h.collect, h.sending, fun _ => h.sent (by rw [hp]; rfl), trivial,
        fun _ => ⟨hext, [], hlog⟩⟩
      have := hdead he
      rw [hp] at this
      cases this
  -- resume, all readers having been resumed
  next hp =>
    cases hs
    exact h.newAt (fun _ => by rw [hp]; rfl) trivial
  -- resume
  next hp =>
    split at hs
    · cases hs
      refine ⟨fun he => ?_, h.collect, h.sending, fun _ => h.sent (by rw [hp]; rfl), trivial,
        h.completed⟩
      have := hdead he
      rw [hp] at this
      cases this
    · cases hs
      exact h.newAt nofun trivial
  -- writeCommitted, the failure of which is ignored
  next hp =>
    cases hs
    have hlive : alive s.new.phase = true := by rw [hp]; rfl
    have : (s.newAt .serving).Carried := h.newAt (fun _ => hlive) trivial
    unfold Exchange.reply
    split
    · exact ⟨this.dead, this.collect, this.sending, this.sent, this.holds, this.completed⟩
    · exact ⟨this.dead, this.collect, this.sending, this.sent, this.holds, this.completed⟩

/-! ## The manifest on its way -/

/-- Where a step of `launch_replacement` may lead, and what it may put into the channel. -/
structure OldChannel (s t : Exchange) : Prop where
  early : early t.old.phase = true → early s.old.phase = true ∨ s.old.phase = .kill
  collect : ∀ stream, t.old.phase = .collect stream →
    s.old.phase = .takeManifest ∧ stream = manifest s.old.events.events
  sending : ∀ rest, t.old.phase = .sending rest →
    ∃ message, s.old.phase = .sending (message :: rest)
  toNew : ∀ m, .manifest m ∈ t.toNew →
    .manifest m ∈ s.toNew ∨ ∃ rest, s.old.phase = .sending (.manifest m :: rest)

/-- Going on without a message. -/
theorem OldChannel.move (htoNew : t.toNew = s.toNew)
    (hearly : Exchange.early s.old.phase = true ∨ s.old.phase = .kill ∨
      Exchange.early t.old.phase = false)
    (hcollect : ∀ stream, t.old.phase ≠ .collect stream)
    (hsending : ∀ rest, t.old.phase ≠ .sending rest) : s.OldChannel t where
  early he := by
    rcases hearly with h | h | h
    · exact .inl h
    · exact .inr h
    · rw [h] at he
      cases he
  collect stream h := absurd h (hcollect stream)
  sending rest h := absurd h (hsending rest)
  toNew m hm := .inl (htoNew ▸ hm)

theorem read_channel {ok : Bool} {expected : Message} {next : OldPhase}
    (hearly : Exchange.early next = false) (hcollect : ∀ stream, next ≠ .collect stream)
    (hsending : ∀ rest, next ≠ .sending rest) (hs : s.read ok expected next = some t) :
    s.OldChannel t := by
  unfold Exchange.read at hs
  split at hs
  · split at hs
    · cases hs
    next message rest hto =>
      cases hs
      by_cases hm : message = expected
      · simp only [hm, if_true]
        exact .move rfl (.inr (.inr hearly)) hcollect hsending
      · simp only [if_neg hm]
        exact .move rfl (.inr (.inr rfl)) nofun nofun
  · cases hs
    exact .move rfl (.inr (.inr rfl)) nofun nofun

/-- A write after the manifest. -/
theorem write_channel {message : Message} (hm : ∀ m, message ≠ .manifest m) (ok : Bool)
    {next : OldPhase} (hearly : Exchange.early next = false)
    (hcollect : ∀ stream, next ≠ .collect stream)
    (hsending : ∀ rest, next = .sending rest →
      ∃ message, s.old.phase = .sending (message :: rest)) :
    s.OldChannel (s.write ok message next) where
  early he := by
    unfold Exchange.write at he
    split at he
    · have he : Exchange.early next = true := he
      rw [hearly] at he
      cases he
    · cases he
  collect stream h := by
    unfold Exchange.write at h
    split at h
    · exact absurd h (hcollect stream)
    · cases h
  sending rest h := by
    unfold Exchange.write at h
    split at h
    · exact hsending rest h
    · cases h
  toNew m hw := by
    rcases mem_write hw with h | h | h
    · exact .inl h
    · exact absurd h.symm (hm m)
    · cases h

theorem oldStep_channel {ok : Bool} (hs : s.oldStep ok = some t) : s.OldChannel t := by
  unfold oldStep at hs
  split at hs
  -- A daemon that serves, has handed off or has exited takes no step here.
  · cases hs
  · cases hs
  · cases hs
  -- Before the replacement is spawned, a phase leaves the channels as they are.
  next hp =>
    split at hs
    · cases hs
    · cases hs
      exact .move rfl (.inl (by rw [hp]; rfl)) nofun nofun
  next hp =>
    cases hs
    exact .move rfl (.inl (by rw [hp]; rfl)) nofun nofun
  next hp =>
    split at hs
    · cases hs
      exact .move rfl (.inl (by rw [hp]; rfl)) nofun nofun
    · cases hs
      exact .move rfl (.inl (by rw [hp]; rfl)) nofun nofun
  next hp =>
    split at hs
    · cases hs
      unfold beginFlush
      simp only
      split
      · exact .move rfl (.inl (by rw [hp]; rfl)) nofun nofun
      · exact .move rfl (.inl (by rw [hp]; rfl)) nofun nofun
    · cases hs
      exact .move rfl (.inl (by rw [hp]; rfl)) nofun nofun
  next hp =>
    cases hs
    unfold endFlush
    simp only
    split
    · split
      · exact .move rfl (.inl (by rw [hp]; rfl)) nofun nofun
      · exact .move rfl (.inl (by rw [hp]; rfl)) nofun nofun
    · exact .move rfl (.inl (by rw [hp]; rfl)) nofun nofun
  -- The manifest is taken of the stream as it is now.
  next hp =>
    split at hs
    · cases hs
      refine ⟨fun _ => .inl (by rw [hp]; rfl), fun stream hc => ?_, nofun, fun m hm => .inl hm⟩
      cases hc
      exact ⟨hp, rfl⟩
    · cases hs
      exact .move rfl (.inl (by rw [hp]; rfl)) nofun nofun
  -- What is sent, and what is read, moves the channels by one message.
  next hp =>
    cases hs
    exact .move rfl (.inr (.inr rfl)) nofun nofun
  next message rest hp =>
    cases hs
    refine ⟨fun he => ?_, fun stream hc => ?_, fun rest' hr => ?_, fun m hm => ?_⟩
    · unfold Exchange.write at he
      split at he <;> cases he
    · unfold Exchange.write at hc
      split at hc <;> cases hc
    · unfold Exchange.write at hr
      split at hr
      · cases hr
        exact ⟨message, hp⟩
      · cases hr
    · rcases mem_write hm with h | rfl | h
      · exact .inl h
      · exact .inr ⟨rest, hp⟩
      · cases h
  -- The decision: only what has been sent and read brings the old daemon to the next phase.
  · exact read_channel rfl (by simp) (by simp) hs
  · cases hs
    refine write_channel ?_ ok rfl ?_ ?_ <;> nofun
  · exact read_channel rfl (by simp) (by simp) hs
  · cases hs
    have hw : s.OldChannel (s.write ok .finalize .readCommitted) := by
      refine write_channel ?_ ok rfl ?_ ?_ <;> nofun
    exact ⟨hw.early, hw.collect, hw.sending, hw.toNew⟩
  · cases hs
    exact .move rfl (.inr (.inr rfl)) nofun nofun
  -- An abort is written to a replacement that may be gone, and the transition is taken back.
  next hp =>
    cases hs
    have hw : s.OldChannel (s.write ok .abort .kill) := by
      refine write_channel ?_ ok rfl ?_ ?_ <;> nofun
    exact ⟨nofun, nofun, nofun, hw.toNew⟩
  next hp =>
    cases hs
    exact .move rfl (.inr (.inl hp)) nofun nofun
  next hp =>
    cases hs
    exact .move rfl (.inl (by rw [hp]; rfl)) nofun nofun

/-- A step of the old daemon. -/
theorem Carried.old (h : s.Carried) (hordered : s.Ordered) {ok : Bool}
    (hs : s.oldStep ok = some t) : t.Carried := by
  have hframe := oldStep_frame hs
  have hchannel := oldStep_channel hs
  have hdead : Exchange.early t.old.phase = true → alive t.new.phase = false := by
    intro he
    rcases hframe.new with hnew | ⟨-, hnew⟩
    · rcases hchannel.early he with he | hkill
      · rw [hnew]
        exact h.dead he
      · simp only [oldStep, hkill] at hs
        cases hs
        rfl
    · rw [hnew]
      rfl
  by_cases hp : s.old.phase = .takeManifest
  · -- no replacement is there, so that only the old daemon knows of the stream
    have hgone := h.dead (by rw [hp]; rfl)
    have hunpublished : s.new.published = false := by
      by_contra hpub
      have hf := hordered.read (hordered.gated.owner (.inr (.inl (by simpa using hpub))))
      rw [hordered.not_finalized (by simp [hp])] at hf
      cases hf
    have hsame : t.new = s.new := by
      rcases hframe.new with hnew | ⟨hkill, -⟩
      · exact hnew
      · rw [hp] at hkill
        cases hkill
    refine ⟨hdead, fun stream hc => ?_, fun rest hr => ?_, fun hl => ?_, ?_, fun hpub => ?_⟩
    · obtain ⟨-, rfl⟩ := hchannel.collect stream hc
      simp only [oldStep, hp] at hs
      cases ok with
      | true =>
          cases hs
          rfl
      | false =>
          cases hs
          cases hc
    · obtain ⟨message, hm⟩ := hchannel.sending rest hr
      rw [hp] at hm
      cases hm
    · rw [hsame, hgone] at hl
      cases hl
    · rw [hsame]
      cases hnew : s.new.phase with
      | absent => trivial
      | exited => trivial
      | _ =>
          rw [hnew] at hgone
          cases hgone
    · rw [hsame, hunpublished] at hpub
      cases hpub
  · have htransferred := hframe.transferred hp
    have halive : alive t.new.phase = true → t.new = s.new := by
      intro hl
      rcases hframe.new with hnew | ⟨-, hnew⟩
      · exact hnew
      · rw [hnew] at hl
        cases hl
    refine ⟨hdead, fun stream hc => ?_, fun rest hr m hm => ?_, fun hl m hm => ?_, ?_,
      fun hpub => ?_⟩
    · exact absurd (hchannel.collect stream hc).1 hp
    · obtain ⟨message, hsend⟩ := hchannel.sending rest hr
      rw [htransferred]
      exact h.sending _ hsend m (List.mem_cons_of_mem _ hm)
    · rw [htransferred]
      rw [halive hl] at hl
      rcases hchannel.toNew m hm with hm | ⟨rest, hsend⟩
      · exact h.sent hl m hm
      · exact h.sending _ hsend m (List.mem_cons_self ..)
    · rw [htransferred]
      rcases hframe.new with hnew | ⟨-, hnew⟩
      · rw [hnew]
        exact h.holds
      · rw [hnew]
        trivial
    · rw [htransferred]
      rcases hframe.new with hnew | ⟨-, hnew⟩
      · rw [hnew] at hpub ⊢
        exact h.completed hpub
      · rw [hnew] at hpub ⊢
        exact h.completed hpub

/-- A step that leaves the phases, the channel and the replacement as they are. -/
theorem Carried.of_same (h : s.Carried) (hphase : t.old.phase = s.old.phase) (hnew : t.new = s.new)
    (htoNew : t.toNew = s.toNew) (htransferred : t.transferred = s.transferred) : t.Carried where
  dead he := by
    rw [hnew]
    exact h.dead (hphase ▸ he)
  collect stream hc := by
    rw [htransferred]
    exact h.collect stream (hphase ▸ hc)
  sending rest hr := by
    rw [htransferred]
    exact h.sending rest (hphase ▸ hr)
  sent hl := by
    rw [htoNew, htransferred]
    exact h.sent (hnew ▸ hl)
  holds := by
    rw [htransferred, hnew]
    exact h.holds
  completed := by
    rw [htransferred, hnew]
    exact h.completed

/-- The old daemon is gone. -/
theorem Carried.gone (h : s.Carried) : Carried { s with old := s.old.gone } :=
  ⟨nofun, nofun, nofun, h.sent, h.holds, h.completed⟩

/-- The manifest of a replacement's bootstrap is the first one. -/
theorem manifest_mem_bootstrap {m n : Manifest} (h : .manifest n ∈ m.bootstrap) : n = m := by
  simpa [Manifest.bootstrap, Manifest.descriptors] using h

theorem Carried.step (h : s.Carried) (hkept : s.Kept) {action : ExchangeAction}
    (hs : s.step action = some t) : t.Carried := by
  -- What the handlers do is not about the exchange.
  by_cases hhandler : action.handler = true
  · have hsame := handled hhandler hs
    exact h.of_same hsame.phase hsame.new hsame.toNew hsame.transferred
  cases action with
  | launch =>
      simp only [Exchange.step, Option.ite_none_right_eq_some, Option.some.injEq] at hs
      obtain ⟨hfree, rfl⟩ := hs
      have hdead := h.dead (by rw [hfree.1]; rfl)
      exact ⟨fun _ => hdead, by simp, by simp, h.sent, h.holds, h.completed⟩
  | old ok => exact h.old hkept.ordered hs
  -- The messages of the bootstrap are queued, and all carry the stream that was collected.
  | spawn m =>
      simp only [Exchange.step] at hs
      split at hs
      next stream hp =>
        simp only [Option.ite_none_right_eq_some, Option.some.injEq] at hs
        obtain ⟨⟨hm, -⟩, rfl⟩ := hs
        refine ⟨fun hearly => ?_, fun _ hcollect => ?_, fun rest hr n hn => ?_, fun _ n hn => ?_,
          rfl, fun hpublished => ?_⟩
        · cases hearly
        · cases hcollect
        · cases hr
          rw [manifest_mem_bootstrap hn, hm]
          exact h.collect stream hp
        · exact absurd hn List.not_mem_nil
        · cases hpublished
      · cases hs
  | leave =>
      simp only [Exchange.step, Option.ite_none_right_eq_some, Option.some.injEq] at hs
      obtain ⟨-, rfl⟩ := hs
      exact h.gone
  | oldDies =>
      cases hs
      exact h.gone
  | new ok => exact h.new hs
  -- Nothing is heard by a process that has died.
  | newDies =>
      cases hs
      refine ⟨fun _ => rfl, h.collect, h.sending, fun halive => ?_, trivial, h.completed⟩
      cases halive
  | loseToNew index =>
      cases hs
      exact ⟨h.dead, h.collect, h.sending,
        fun hl m hm => h.sent hl m (List.mem_of_mem_eraseIdx hm), h.holds, h.completed⟩
  | loseToOld index =>
      cases hs
      exact h.of_same rfl rfl rfl rfl
  -- What the replacement publishes comes after what it has taken over.
  | newPublish kinds =>
      simp only [Exchange.step, Option.ite_none_right_eq_some, Option.some.injEq] at hs
      obtain ⟨hserving, rfl⟩ := hs
      refine ⟨h.dead, h.collect, h.sending, h.sent, ?_, fun hpub => ?_⟩
      · show Holds _ _ _ s.new.phase
        rw [hserving]
        trivial
      · obtain ⟨hold, rest, hlog⟩ := h.completed hpub
        have hext := Extends.publishRuntimeBatch s.new.events kinds
        refine ⟨hold.trans hext, ?_⟩
        obtain ⟨more, hmore⟩ := hext.log
        refine ⟨rest ++ more, ?_⟩
        show (s.new.events.publishRuntimeBatch kinds).2.events.log = _
        rw [← hmore, hlog, List.append_assoc, List.cons_append]
  | _ => exact absurd rfl hhandler

/-! ## Cursors across a handoff -/

/-- With all of that, all is well if the old log is the transferred one. -/
theorem Kept.continuous_iff_log_eq (h : s.Kept) (hc : s.Carried) :
    s.Continuous ↔ (s.finalized = true → s.old.events.events.log = s.transferred.log) := by
  refine ⟨fun hcont hf => (hcont.transferred hf).1, fun hlog => ?_⟩
  have hlatest : s.finalized = true →
      s.old.events.events.latestId = s.transferred.latestId := fun hf => by
    have := h.extends_.latest
    rw [hlog hf] at this
    omega
  have hfinal : s.new.published = true → s.finalized = true := fun hpub =>
    h.ordered.read (h.ordered.gated.owner (.inr (.inl hpub)))
  refine ⟨h.given, h.named, fun _ c _ => (Reading.Ok.begin h.old_sound c).followed,
    fun hf => ⟨hlog hf, fun e he => ?_, fun c hcur => ?_⟩, fun hpub => ?_,
    fun hpub c hcur => ?_⟩
  · rw [← hlog hf]
    exact h.given e he
  · rw [← hlatest hf]
    exact (h.named c hcur).2
  · obtain ⟨-, rest, hnew⟩ := hc.completed hpub
    exact ⟨rest, by rw [hnew, hlog (hfinal hpub), hlatest (hfinal hpub)]⟩
  · obtain ⟨hext, -⟩ := hc.completed hpub
    obtain ⟨hcid, hle⟩ := h.named c hcur
    refine ⟨?_, ?_, (Reading.Ok.begin (hext.sound h.sound) c).followed⟩
    · rw [hcid, h.extends_.streamId, hext.streamId]
    · rw [hlatest (hfinal hpub)] at hle
      exact hle.trans hext.latestId_le

/-- A runtime batch leaves the log as it is exactly if it is not appended. -/
theorem publishRuntimeBatch_log (x : EventTransaction) (kinds : List DaemonEventKind) :
    (x.publishRuntimeBatch kinds).2.events.log = x.events.log ↔ notAppended x kinds := by
  unfold EventTransaction.publishRuntimeBatch notAppended
  split
  next e he => simp [he, Except.toOption]
  next he =>
    split
    next hb => simp [hb]
    next hb =>
      have hlen := appendBatchLocked_log_length none x.events kinds
      have hcap : (ensureCapacity x.events
          (saturatingAdd x.transition.reservedEventCount kinds.length)).toOption ≠ none := by
        rw [he]
        exact Option.some_ne_none _
      simp only [EventTransaction.blocked, hb, hcap, Bool.false_eq_true, or_false]
      constructor
      · intro hlog
        rw [hlog] at hlen
        exact List.length_eq_zero_iff.mp (by omega)
      · rintro rfl
        exact ((EventStreamState.Grows.appendBatchLocked x.events none []).log.eq_of_length
          hlen.symm).symm

/-- After FINALIZE, only a runtime batch is appended to the log of the old daemon. -/
theorem Kept.log_step (h : s.Kept) (hf : s.finalized = true) {action : ExchangeAction}
    (hs : s.step action = some t) :
    (∃ kinds, action = .publish kinds ∧
        t.old.events.events = (s.old.events.publishRuntimeBatch kinds).2.events) ∨
      (∀ kinds, action ≠ .publish kinds) ∧ t.old.events.events.log = s.old.events.events.log := by
  have hfree := h.ordered.not_free hf
  cases action with
  | publish kinds =>
      simp only [Exchange.step, Option.ite_none_right_eq_some, Option.some.injEq] at hs
      obtain ⟨-, rfl⟩ := hs
      exact .inl ⟨kinds, rfl, rfl⟩
  | beginCommit batch =>
      simp only [Exchange.step, Option.ite_none_right_eq_some] at hs
      exact absurd hs.1.1 hfree
  | endCommit saved =>
      simp only [Exchange.step] at hs
      split at hs
      · cases hs
      next batch hbatch =>
        simp only [Option.ite_none_right_eq_some] at hs
        rcases h.locked with hl | hl | hl
        · have := h.ordered.not_finalized (by simp [hl])
          rw [hf] at this
          cases this
        · simp [OldDaemon.alive, hl] at hs
        · rw [hl] at hbatch
          cases hbatch
  | start runId | createStarted runId | stop runId | resumeStarted runId | runEnds runId
  | snapshot | launch | leave | newPublish kinds =>
      simp only [Exchange.step, Option.ite_none_right_eq_some, Option.some.injEq] at hs
      obtain ⟨-, rfl⟩ := hs
      exact .inr ⟨by simp, rfl⟩
  | read after limit waited stopping =>
      simp only [Exchange.step, Option.ite_none_right_eq_some, Option.some.injEq] at hs
      obtain ⟨-, rfl⟩ := hs
      unfold Exchange.deliver
      split <;> exact .inr ⟨by simp, rfl⟩
  | old ok =>
      refine .inr ⟨by simp, ?_⟩
      rcases h.ordered.phase hf with hp | hp | hp
      · simp only [Exchange.step, oldStep, hp] at hs
        cases hs
        rfl
      · simp only [Exchange.step, oldStep, hp] at hs
        cases hs
      · simp only [Exchange.step, oldStep, hp] at hs
        cases hs
  | spawn m =>
      simp only [Exchange.step] at hs
      split at hs
      · simp only [Option.ite_none_right_eq_some, Option.some.injEq] at hs
        obtain ⟨-, rfl⟩ := hs
        exact .inr ⟨by simp, rfl⟩
      · cases hs
  | new ok => exact .inr ⟨by simp, by rw [(newStep_spec hs).old]⟩
  | oldDies | newDies | loseToNew index | loseToOld index =>
      cases hs
      exact .inr ⟨by simp, rfl⟩

/-- The write of FINALIZE leaves both streams as they are. -/
theorem finalize_events {ok : Bool} (hp : s.old.phase = .writeFinalize)
    (hs : s.step (.old ok) = some t) :
    t.old.events = s.old.events ∧ t.transferred = s.transferred := by
  simp only [Exchange.step, oldStep, hp] at hs
  cases hs
  unfold Exchange.write
  split <;> exact ⟨rfl, rfl⟩

/-- What was read into a manifest stays when FINALIZE is written. -/
theorem Kept.transferred_step (h : s.Kept) (hf : s.finalized = true) {action : ExchangeAction}
    (hs : s.step action = some t) : t.transferred = s.transferred := by
  by_cases hhandler : action.handler = true
  · exact (handled hhandler hs).transferred
  cases action with
  | old ok =>
      refine (oldStep_frame hs).transferred fun hp => ?_
      have := h.ordered.not_finalized (by simp [hp])
      rw [hf] at this
      cases this
  | new ok => exact (newStep_spec hs).transferred
  | launch | leave | newPublish kinds =>
      simp only [Exchange.step, Option.ite_none_right_eq_some, Option.some.injEq] at hs
      obtain ⟨-, rfl⟩ := hs
      rfl
  | spawn m =>
      simp only [Exchange.step] at hs
      split at hs
      · simp only [Option.ite_none_right_eq_some, Option.some.injEq] at hs
        obtain ⟨-, rfl⟩ := hs
        rfl
      · cases hs
  | oldDies | newDies | loseToNew index | loseToOld index =>
      cases hs
      rfl
  | _ => exact absurd rfl hhandler

/-- A step keeps the promise exactly if it meets the condition. -/
theorem Kept.continuous_step (h : s.Kept) (hc : s.Carried) (hcont : s.Continuous)
    {action : ExchangeAction} (hs : s.step action = some t) :
    t.Continuous ↔ s.StaysQuiet action := by
  rw [(h.step hs).continuous_iff_log_eq (hc.step h hs)]
  by_cases hf : s.finalized = true
  · have hsame := (hcont.transferred hf).1
    rw [h.transferred_step hf hs, ← hsame]
    simp only [h.ordered.finalized_mono hf hs, forall_const]
    rcases h.log_step hf hs with ⟨kinds, rfl, hevents⟩ | ⟨hne, hlog⟩
    · rw [hevents, publishRuntimeBatch_log]
      simp only [StaysQuiet, hf, forall_const]
    · simp only [hlog, true_iff, StaysQuiet]
      split
      · intro hp
        have := h.ordered.not_finalized (by simp [hp])
        rw [hf] at this
        cases this
      next kinds => exact absurd rfl (hne kinds)
      · trivial
  · have hf' : s.finalized = false := by simpa using hf
    rcases finalized_step hs with hsame | ⟨hp, rfl, -⟩
    · rw [hsame, hf']
      refine iff_of_true nofun ?_
      unfold StaysQuiet
      split
      · intro hp
        simp only [Exchange.step, oldStep, hp] at hs
        cases hs
        cases hsame.trans hf'
      · rw [hf']
        nofun
      · trivial
    · obtain ⟨hevents, htransferred⟩ := finalize_events hp hs
      rw [hevents, htransferred]
      cases htf : t.finalized with
      | false => simp [StaysQuiet]
      | true =>
          simp only [StaysQuiet, hp, forall_const]
          constructor
          · intro hlog
            have := h.extends_.latest
            rw [hlog] at this
            omega
          · exact h.extends_.log_eq

/-- In every run from an old daemon that has not handed off anything, cursors are good for
whichever daemon owns the stream exactly if every step meets the condition. -/
theorem continuous_iff (stream : EventStreamState) (hstream : Sound stream)
    (as : List ExchangeAction) :
    Along step Continuous (init stream) as ↔ Meets step StaysQuiet (init stream) as := by
  have hkept := Kept.init hstream
  have hcarried := Carried.init stream
  refine along_iff_meets (I := fun s => s.Kept ∧ s.Carried)
    (fun _ _ _ hi _ _ hs => ⟨hi.1.step hs, hi.2.step hi.1 hs⟩)
    (fun _ _ _ hi hp hs => hi.1.continuous_step hi.2 hp hs) ⟨hkept, hcarried⟩ ?_
  exact (hkept.continuous_iff_log_eq hcarried).mpr nofun

/-- A stream without events is sound. -/
theorem sound_aStream : Sound aStream := ⟨⟨Nat.le_refl 0, rfl⟩, Nat.zero_le _⟩

/-- The manifest of a daemon without runs, with the events that it has published. -/
def streamManifest (events : List DaemonEvent) : Manifest where
  runtimes := []
  exited := []
  eventStream := ⟨aStream.streamId, events.length, events⟩
  presentedFocusedTerminal := none
  opencodeRuntime := none
  claudeRemoteControlBindings := []
  kiroLaunchHolders := []

/-- The events of two changes of projections. -/
def firstChange : DaemonEvent := ⟨1, .nodeProjectionChanged "node" 1, none⟩

def secondChange : DaemonEvent := ⟨2, .nodeProjectionChanged "node" 2, none⟩

/-- A change is published and read. The replacement dies before READY, so that the old daemon gives
the handoff up and serves on: another change is published and read with the cursor of the first.
The next handoff goes to its end. -/
def restartRun : List ExchangeAction :=
  [.publish [firstChange.kind], .read ⟨aStream.streamId, 0⟩ 1 true false, .launch] ++ turns 4 0 ++
    [.spawn (streamManifest [firstChange]), .newDies] ++ turns 6 0 ++ [.old false] ++ turns 3 0 ++
    [.publish [secondChange.kind], .read ⟨aStream.streamId, 1⟩ 1 true false, .launch] ++
      turns 4 0 ++
    [.spawn (streamManifest [firstChange, secondChange])] ++ turns 6 7 ++ turns 2 3 ++ turns 2 3

/-- Both changes are in the log of the replacement, and HandoffCompleted follows them. -/
theorem continuous_iff_restartRun :
    (exec step (init aStream) restartRun).map
        (fun t => (t.delivered, t.cursors.map (·.eventId), t.new.events.events.log))
      = some ([firstChange, secondChange], [2, 1], [firstChange, secondChange, completedEvent 2])
      ∧ Along step Continuous (init aStream) restartRun :=
  ⟨by decide +kernel, (continuous_iff aStream sound_aStream restartRun).mpr
    (meets_of_allMeet (by decide +kernel))⟩

/-- A change of a projection is published after `manifest` has read the stream, a client reads it,
and the handoff goes on to its end. -/
def latePublishRun : List ExchangeAction :=
  [.launch] ++ turns 4 0 ++
    [.spawn (streamManifest []), .publish [.nodeProjectionChanged "node" 1],
      .read ⟨aStream.streamId, 0⟩ 1 true false] ++
    turns 6 7 ++ turns 2 3 ++ turns 2 3

/-- The client's event is in no log but the old one, and HandoffCompleted has its id. -/
theorem not_continuous_latePublishRun :
    ¬ ∀ stream : EventStreamState, Sound stream → ∀ as : List ExchangeAction,
      Along step Continuous (init stream) as := by
  intro hall
  have hrun : (exec step (init aStream) latePublishRun).any (fun t => t.finalized &&
      t.delivered.any (fun e => decide (e ∉ t.transferred.log) &&
        t.new.events.events.log.any (fun e' => e'.id = e.id ∧ e' ≠ e))) = true := by
    decide +kernel
  obtain ⟨t, ht, hboth⟩ := (Option.any_eq_true _ _).mp hrun
  simp only [Bool.and_eq_true, List.any_eq_true, decide_eq_true_eq] at hboth
  obtain ⟨hf, e, he, hnot, -⟩ := hboth
  exact hnot ((((hall aStream sound_aStream latePublishRun).last ht).transferred hf).2.1 e he)

end Exchange

end Boomux.Handoff
