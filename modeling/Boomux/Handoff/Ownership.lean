import Boomux.Handoff.Exchange

/-!
# Who owns the readers

FINALIZE is one byte, so its write succeeds or leaves nothing in the channel, and everything the
replacement does as the owner comes after it has read that byte. The old daemon resumes readers
when the handoff is aborted, which is never after the write. What can go wrong is a
CreateStartedShell call: it resumes the reader of its run after it has released the mutation
lock, and a handoff may have paused and transferred the run in between.
-/

set_option autoImplicit false

namespace Boomux.Handoff

open Rust Daemon Transition

/-! ## What is promised -/

/-- Never both daemons own a run. -/
structure Exchange.Exclusive (s : Exchange) : Prop where
  /-- The replacement resumes readers, publishes and arms the socket cleanup only after it has
  read FINALIZE. -/
  gated : s.new.armed = true ∨ s.new.published = true ∨ s.new.resumed ≠ [] →
    s.new.finalizeRead = true
  /-- The old daemon has not written FINALIZE while it aborts, nor when it has returned an
  error. -/
  aborted : s.old.phase = .writeAbort ∨ s.old.phase = .kill ∨ s.old.phase = .cancel ∨
    s.old.phase = .serving → s.finalized = false
  /-- As long as FINALIZE is not written, the replacement has not read it and will not. -/
  unread : s.finalized = false → s.new.finalizeRead = false ∧ .finalize ∉ s.toNew
  /-- Once FINALIZE is written, no reader of the old daemon runs. -/
  released : s.finalized = true → ∀ r ∈ s.old.readers, r.2 = false
  /-- No reader runs in both daemons. -/
  exclusive : ∀ runId, (runId, true) ∈ s.old.readers → runId ∉ s.new.resumed

/-- When FINALIZE is written, every reader is still as `prepare_handoff` left it, and no
CreateStartedShell call resumes one after that. -/
def Exchange.StaysPaused (s : Exchange) : ExchangeAction → Prop
  | .old true => s.old.phase = .writeFinalize → ∀ r ∈ s.old.readers, r.2 = false
  | .resumeStarted runId => s.finalized = true → runId ∉ s.old.readers.map (·.1)
  | _ => True

/-! ## The replacement -/

/-- The phases after FINALIZE. -/
def NewPhase.owning : NewPhase → Bool
  | .arm | .publish | .resume _ | .writeCommitted | .serving => true
  | _ => false

/-- The replacement owns nothing before it has read FINALIZE. -/
structure NewDaemon.Gated (new : NewDaemon) : Prop where
  owning : new.phase.owning = true → new.finalizeRead = true
  owner : new.armed = true ∨ new.published = true ∨ new.resumed ≠ [] → new.finalizeRead = true

theorem NewDaemon.Gated.spawned : NewDaemon.spawned.Gated where
  owning h := by cases h
  owner h := by simp [NewDaemon.spawned] at h

/-- What a step of the replacement does to the rest, and to what it owns. -/
structure Exchange.NewStep (s t : Exchange) : Prop where
  old : t.old = s.old
  finalized : t.finalized = s.finalized
  transferred : t.transferred = s.transferred
  delivered : t.delivered = s.delivered
  cursors : t.cursors = s.cursors
  toNew : ∀ m ∈ t.toNew, m ∈ s.toNew
  read : t.new.finalizeRead = true → s.new.finalizeRead = true ∨ .finalize ∈ s.toNew
  gated : s.new.Gated → t.new.Gated

namespace Exchange

variable {s t : Exchange}

/-- Going on at another phase before FINALIZE. -/
theorem newAt_newStep {phase : NewPhase} (hp : phase.owning = true → s.new.phase.owning = true) :
    NewStep s (s.newAt phase) where
  old := rfl
  finalized := rfl
  transferred := rfl
  delivered := rfl
  cursors := rfl
  toNew _ hm := hm
  read h := .inl h
  gated h := ⟨fun hn => h.owning (hp hn), h.owner⟩

theorem reply_newStep (ok : Bool) (message : Message) {next : NewPhase}
    (hp : next.owning = true → s.new.phase.owning = true) :
    NewStep s (s.reply ok message next) := by
  unfold reply
  split
  · exact ⟨rfl, rfl, rfl, rfl, rfl, fun _ hm => hm, .inl, fun h => ⟨fun hn => h.owning (hp hn),
      h.owner⟩⟩
  · exact newAt_newStep (by simp [NewPhase.owning])

/-- A step after FINALIZE. -/
theorem owning_newStep (hs : s.new.phase.owning = true) (hold : t.old = s.old)
    (hfinalized : t.finalized = s.finalized) (htransferred : t.transferred = s.transferred)
    (hdelivered : t.delivered = s.delivered) (hcursors : t.cursors = s.cursors)
    (htoNew : t.toNew = s.toNew) (hread : t.new.finalizeRead = s.new.finalizeRead) :
    NewStep s t where
  old := hold
  finalized := hfinalized
  transferred := htransferred
  delivered := hdelivered
  cursors := hcursors
  toNew _ hm := htoNew ▸ hm
  read h := .inl (hread ▸ h)
  gated hg := by
    have : t.new.finalizeRead = true := hread.trans (hg.owning hs)
    exact ⟨fun _ => this, fun _ => this⟩

/-- Reading a message. -/
theorem hear_newStep {ok : Bool} {next : Exchange → Message → Exchange}
    (hnext : ∀ message rest, s.toNew = message :: rest →
      NewStep s (next { s with toNew := rest } message))
    (hs : s.hear ok next = some t) : NewStep s t := by
  unfold hear at hs
  split at hs
  · split at hs
    · cases hs
    next message rest htoNew =>
      cases hs
      exact hnext message rest htoNew
  · cases hs
    exact newAt_newStep (by simp [NewPhase.owning])

/-- What reading a message leaves, at a phase before FINALIZE. -/
theorem heard_newStep {message : Message} {rest : List Message} (h : s.toNew = message :: rest)
    {phase : NewPhase} (hp : phase.owning = false) :
    NewStep s (newAt { s with toNew := rest } phase) where
  old := rfl
  finalized := rfl
  transferred := rfl
  delivered := rfl
  cursors := rfl
  toNew m hm := by
    rw [h]
    exact List.mem_cons_of_mem _ hm
  read hr := .inl hr
  gated hg := by
    refine ⟨fun hn => ?_, hg.owner⟩
    have : phase.owning = true := hn
    rw [hp] at this
    cases this

theorem newStep_spec {ok : Bool} (hs : s.newStep ok = some t) : NewStep s t := by
  unfold newStep at hs
  split at hs
  · cases hs
  · cases hs
  · cases hs
  · refine hear_newStep (fun message rest h => heard_newStep h ?_) hs
    split <;> rfl
  · refine hear_newStep (fun message rest h => ?_) hs
    unfold hearManifest
    split
    · split
      · exact heard_newStep h rfl
      · exact heard_newStep h rfl
    · exact heard_newStep h rfl
  · cases hs
    exact newAt_newStep (by simp [NewPhase.owning])
  · refine hear_newStep (fun message rest h => heard_newStep h ?_) hs
    split <;> rfl
  · cases hs
    exact reply_newStep ok _ (by simp [NewPhase.owning])
  · refine hear_newStep (fun message rest h => ?_) hs
    unfold hearDecision
    split <;> exact heard_newStep h rfl
  · cases hs
    split
    · unfold importHandoff
      simp only
      split
      · exact newAt_newStep (by simp [NewPhase.owning])
      · exact ⟨rfl, rfl, rfl, rfl, rfl, fun _ hm => hm, .inl, fun hg => ⟨nofun, hg.owner⟩⟩
    · exact newAt_newStep (by simp [NewPhase.owning])
  · cases hs
    exact reply_newStep ok _ (by simp [NewPhase.owning])
  · refine hear_newStep (fun message rest h => ?_) hs
    unfold hearFinal
    split
    · refine ⟨rfl, rfl, rfl, rfl, rfl, fun m hm => ?_, fun _ => ?_,
        fun _ => ⟨fun _ => rfl, fun _ => rfl⟩⟩
      · rw [h]
        exact List.mem_cons_of_mem _ hm
      · rw [h]
        exact .inr (List.mem_cons_self ..)
    · exact heard_newStep h rfl
  next hphase =>
    cases hs
    exact owning_newStep (by rw [hphase]; rfl) rfl rfl rfl rfl rfl rfl rfl
  next hphase =>
    cases hs
    unfold publishCompleted
    split <;> exact owning_newStep (by rw [hphase]; rfl) rfl rfl rfl rfl rfl rfl rfl
  next hphase =>
    cases hs
    exact owning_newStep (by rw [hphase]; rfl) rfl rfl rfl rfl rfl rfl rfl
  next hphase =>
    split at hs
    · cases hs
      exact owning_newStep (by rw [hphase]; rfl) rfl rfl rfl rfl rfl rfl rfl
    · cases hs
      exact owning_newStep (by rw [hphase]; rfl) rfl rfl rfl rfl rfl rfl rfl
  next hphase =>
    cases hs
    unfold reply
    split <;> exact owning_newStep (by rw [hphase]; rfl) rfl rfl rfl rfl rfl rfl rfl

/-! ## The order of the exchange -/

/-- What holds of the exchange at every moment. -/
structure Ordered (s : Exchange) : Prop where
  phase : s.finalized = true → s.old.phase = .readCommitted ∨ s.old.phase = .handedOff ∨
    s.old.phase = .exited
  sent : .finalize ∈ s.toNew → s.finalized = true
  sending : ∀ rest, s.old.phase = .sending rest → .finalize ∉ rest
  read : s.new.finalizeRead = true → s.finalized = true
  gated : s.new.Gated

theorem Ordered.init (stream : EventStreamState) : Ordered (init stream) where
  phase h := by cases h
  sent h := absurd h List.not_mem_nil
  sending rest h := by cases h
  read h := by cases h
  gated := ⟨nofun, by simp [Exchange.init]⟩

/-- Steps of the old daemon before FINALIZE. -/
theorem Ordered.of_not_finalized (h : s.Ordered) (hf : s.finalized = false)
    (hfin : t.finalized = false) (hnew : t.new = s.new ∨ t.new = { s.new with phase := .exited })
    (hsent : ∀ m ∈ t.toNew, m ∈ s.toNew ∨ m ≠ .finalize)
    (hsending : ∀ rest, t.old.phase = .sending rest → .finalize ∉ rest) : t.Ordered where
  phase ht := by
    rw [hfin] at ht
    cases ht
  sent ht := by
    rcases hsent _ ht with hm | hm
    · have := h.sent hm
      rw [hf] at this
      cases this
    · exact absurd rfl hm
  sending := hsending
  read ht := by
    have hread : s.new.finalizeRead = true := by
      rcases hnew with hn | hn
      · rwa [hn] at ht
      · rwa [hn] at ht
    have := h.read hread
    rw [hf] at this
    cases this
  gated := by
    rcases hnew with hn | hn
    · rw [hn]
      exact h.gated
    · rw [hn]
      exact ⟨nofun, h.gated.owner⟩

theorem Ordered.not_finalized (h : s.Ordered)
    (hp : s.old.phase ≠ .readCommitted ∧ s.old.phase ≠ .handedOff ∧ s.old.phase ≠ .exited) :
    s.finalized = false := by
  by_contra hf
  rcases h.phase (by simpa using hf) with h | h | h
  · exact hp.1 h
  · exact hp.2.1 h
  · exact hp.2.2 h

/-- What a write may put into the channel. -/
theorem mem_write {ok : Bool} {message m : Message} {next : OldPhase}
    (hm : m ∈ (s.write ok message next).toNew) : m ∈ s.toNew ∨ m = message ∨ m = .fragment := by
  unfold write at hm
  split at hm
  · rcases List.mem_append.mp hm with hm | hm
    · exact .inl hm
    · exact .inr (.inl (List.mem_singleton.mp hm))
  · rcases List.mem_append.mp hm with hm | hm
    · exact .inl hm
    · right
      right
      unfold Message.cut at hm
      split at hm
      · exact List.mem_singleton.mp hm
      · exact List.mem_singleton.mp hm
      · exact List.mem_singleton.mp hm
      · cases hm

/-- A write before FINALIZE. -/
theorem Ordered.write (h : s.Ordered) (hf : s.finalized = false) (ok : Bool) {message : Message}
    (hm : message ≠ .finalize) {next : OldPhase}
    (hnext : ∀ rest, next = .sending rest → .finalize ∉ rest) :
    (s.write ok message next).Ordered := by
  refine h.of_not_finalized hf ?_ ?_ (fun m hw => ?_) (fun rest hr => ?_)
  · unfold Exchange.write
    split <;> exact hf
  · unfold Exchange.write
    split <;> exact .inl rfl
  · rcases mem_write hw with hw | rfl | rfl
    · exact .inl hw
    · exact .inr hm
    · exact .inr nofun
  · unfold Exchange.write at hr
    split at hr
    · exact hnext rest hr
    · cases hr

/-- Going on before FINALIZE. -/
theorem Ordered.oldAt (h : s.Ordered) (hf : s.finalized = false) {phase : OldPhase}
    (hnext : ∀ rest, phase = .sending rest → .finalize ∉ rest) : (s.oldAt phase).Ordered :=
  h.of_not_finalized hf hf (.inl rfl) (fun _ hm => .inl hm) hnext

theorem Ordered.oldRead (h : s.Ordered) (hf : s.finalized = false) {ok : Bool} {expected : Message}
    {next : OldPhase} (hnext : ∀ rest, next ≠ .sending rest)
    (hs : s.read ok expected next = some t) : t.Ordered := by
  unfold Exchange.read at hs
  split at hs
  · split at hs
    · cases hs
    next message rest hto =>
      cases hs
      refine h.of_not_finalized hf hf (.inl rfl) (fun _ hm => .inl hm) fun rest hr => ?_
      have hr : (if message = expected then next else OldPhase.writeAbort) = .sending rest := hr
      split at hr
      · exact absurd hr (hnext rest)
      · cases hr
  · cases hs
    exact h.oldAt hf nofun

theorem finalize_not_mem_bootstrap (m : Manifest) : .finalize ∉ m.bootstrap := by
  simp [Manifest.bootstrap, Manifest.descriptors]

/-- A step of the old daemon. -/
theorem Ordered.old (h : s.Ordered) {ok : Bool} (hs : s.oldStep ok = some t) : t.Ordered := by
  have hbefore := h.not_finalized
  unfold oldStep at hs
  split at hs
  · cases hs
  · cases hs
  · cases hs
  next hphase =>
    split at hs
    · cases hs
    · cases hs
      exact h.oldAt (hbefore (by simp [hphase])) nofun
  next hphase =>
    cases hs
    exact h.oldAt (hbefore (by simp [hphase])) nofun
  next hphase =>
    have hf := hbefore (by simp [hphase])
    split at hs
    · cases hs
      exact h.of_not_finalized hf hf (.inl rfl) (fun _ hm => .inl hm) nofun
    · cases hs
      exact h.oldAt hf nofun
  next hphase =>
    have hf := hbefore (by simp [hphase])
    split at hs
    · cases hs
      unfold beginFlush
      simp only
      split
      · exact h.oldAt hf nofun
      · exact h.of_not_finalized hf hf (.inl rfl) (fun _ hm => .inl hm) nofun
    · cases hs
      exact h.oldAt hf nofun
  next hphase =>
    have hf := hbefore (by simp [hphase])
    cases hs
    unfold endFlush
    simp only
    split
    · split
      · exact h.oldAt hf nofun
      · exact h.of_not_finalized hf hf (.inl rfl) (fun _ hm => .inl hm) nofun
    · exact h.of_not_finalized hf hf (.inl rfl) (fun _ hm => .inl hm) nofun
  next hphase =>
    have hf := hbefore (by simp [hphase])
    split at hs
    · cases hs
      exact h.of_not_finalized hf hf (.inl rfl) (fun _ hm => .inl hm) nofun
    · cases hs
      exact h.oldAt hf nofun
  next hphase =>
    cases hs
    exact h.oldAt (hbefore (by simp [hphase])) nofun
  next message rest hphase =>
    cases hs
    have hrest := h.sending _ hphase
    refine h.write (hbefore (by simp [hphase])) ok (fun hm => ?_) fun rest' hr => ?_
    · exact hrest (hm ▸ List.mem_cons_self ..)
    · cases hr
      exact fun hm => hrest (List.mem_cons_of_mem _ hm)
  next hphase => exact h.oldRead (hbefore (by simp [hphase])) (by simp) hs
  next hphase =>
    cases hs
    refine h.write (hbefore (by simp [hphase])) ok ?_ ?_
    · nofun
    · nofun
  next hphase => exact h.oldRead (hbefore (by simp [hphase])) (by simp) hs
  next hphase =>
    -- the write of FINALIZE succeeds, or leaves nothing
    cases hs
    have hf := hbefore (by simp [hphase])
    cases ok with
    | true => exact ⟨fun _ => .inl rfl, fun _ => rfl, nofun, fun _ => rfl, h.gated⟩
    | false =>
        refine h.of_not_finalized hf rfl (.inl rfl) (fun m hm => .inl ?_) nofun
        simpa [Exchange.write, Message.cut] using hm
  next hphase =>
    cases hs
    exact ⟨fun _ => .inr (.inl rfl), h.sent, nofun, h.read, h.gated⟩
  next hphase =>
    cases hs
    have hf := hbefore (by simp [hphase])
    have hw : (s.write ok .abort .kill).Ordered := by
      refine h.write hf ok ?_ ?_
      · nofun
      · nofun
    refine hw.oldAt ?_ nofun
    unfold Exchange.write
    split <;> exact hf
  next hphase =>
    have hf := hbefore (by simp [hphase])
    cases hs
    exact h.of_not_finalized hf hf (.inr rfl) (fun _ hm => .inl hm) nofun
  next hphase =>
    have hf := hbefore (by simp [hphase])
    cases hs
    exact h.of_not_finalized hf hf (.inl rfl) (fun _ hm => .inl hm) nofun

/-- The old daemon is gone. -/
theorem Ordered.gone (h : s.Ordered) : Ordered { s with old := s.old.gone } :=
  ⟨fun _ => .inr (.inr rfl), h.sent, nofun, h.read, h.gated⟩

/-- A step of a handler or a client of the old daemon. -/
theorem Ordered.handled (h : s.Ordered) (hs : s.Handled t) : t.Ordered where
  phase ht := hs.phase ▸ h.phase (hs.finalized ▸ ht)
  sent ht := hs.finalized ▸ h.sent (hs.toNew ▸ ht)
  sending rest hr := h.sending rest (hs.phase ▸ hr)
  read ht := hs.finalized ▸ h.read (hs.new ▸ ht)
  gated := hs.new ▸ h.gated

/-- The order of the exchange is kept by every step. -/
theorem Ordered.step (h : s.Ordered) {action : ExchangeAction} (hs : s.step action = some t) :
    t.Ordered := by
  by_cases hhandler : action.handler = true
  · exact h.handled (Exchange.handled hhandler hs)
  cases action with
  | launch =>
      simp only [Exchange.step] at hs
      split at hs
      next hfree =>
        cases hs
        have hf := h.not_finalized (by simp [hfree.1])
        exact h.of_not_finalized hf hf (.inl rfl) (fun _ hm => .inl hm) (by simp)
      · cases hs
  | old ok => exact h.old hs
  | spawn m =>
      simp only [Exchange.step] at hs
      split at hs
      next stream hphase =>
        split at hs
        · cases hs
          have hf := h.not_finalized (by simp [hphase])
          refine ⟨fun ht => ?_, by simp, fun rest hr => ?_, fun hread => ?_, .spawned⟩
          · have : s.finalized = true := ht
            rw [hf] at this
            cases this
          · cases hr
            exact finalize_not_mem_bootstrap m
          · cases hread
        · cases hs
      · cases hs
  | leave =>
      simp only [Exchange.step] at hs
      split at hs
      · cases hs
        exact h.gone
      · cases hs
  | oldDies =>
      cases hs
      exact h.gone
  | new ok =>
      have hnew := newStep_spec hs
      refine ⟨fun ht => ?_, fun ht => ?_, fun rest hr => ?_, fun ht => ?_, hnew.gated h.gated⟩
      · rw [hnew.old]
        exact h.phase (hnew.finalized ▸ ht)
      · exact hnew.finalized ▸ h.sent (hnew.toNew _ ht)
      · exact h.sending rest (hnew.old ▸ hr)
      · rw [hnew.finalized]
        exact (hnew.read ht).elim h.read h.sent
  | newDies =>
      cases hs
      refine ⟨h.phase, h.sent, h.sending, h.read,
        ⟨fun howning => ?_, fun ho => h.gated.owner ?_⟩⟩
      · cases howning
      · exact ho.imp_right (Or.imp_right fun hr => absurd rfl hr)
  | loseToNew index =>
      cases hs
      exact ⟨h.phase, fun hm => h.sent (List.mem_of_mem_eraseIdx hm), h.sending, h.read, h.gated⟩
  | loseToOld index =>
      cases hs
      exact ⟨h.phase, h.sent, h.sending, h.read, h.gated⟩
  | newPublish kinds =>
      simp only [Exchange.step] at hs
      split at hs
      · cases hs
        exact ⟨h.phase, h.sent, h.sending, h.read, ⟨h.gated.owning, h.gated.owner⟩⟩
      · cases hs
  | _ => exact absurd rfl hhandler

/-! ## Who owns the readers -/

/-- After FINALIZE the old daemon is past everything that needs the mutation lock. -/
theorem Ordered.not_free (h : s.Ordered) (hf : s.finalized = true) : ¬ s.old.free := by
  intro hfree
  have := h.not_finalized (by simp [hfree.1])
  rw [hf] at this
  cases this

/-- After FINALIZE a step leaves the readers as they are, or some of them go, unless it is the
last step of a CreateStartedShell call. -/
theorem Ordered.readers (h : s.Ordered) (hf : s.finalized = true) {action : ExchangeAction}
    (hs : s.step action = some t) :
    (∃ runId, action = .resumeStarted runId ∧
        t.old.readers = (s.old.setReader true runId).readers) ∨
      (∀ runId, action ≠ .resumeStarted runId) ∧ ∀ r ∈ t.old.readers, r ∈ s.old.readers := by
  have hfree := h.not_free hf
  cases action with
  | resumeStarted runId =>
      simp only [Exchange.step, Option.ite_none_right_eq_some, Option.some.injEq] at hs
      obtain ⟨-, rfl⟩ := hs
      exact .inl ⟨runId, rfl, rfl⟩
  | start runId | createStarted runId | beginCommit batch =>
      simp only [Exchange.step, Option.ite_none_right_eq_some] at hs
      exact absurd hs.1.1 hfree
  | stop runId | launch =>
      simp only [Exchange.step, Option.ite_none_right_eq_some] at hs
      exact absurd hs.1 hfree
  | runEnds runId =>
      simp only [Exchange.step, Option.ite_none_right_eq_some, Option.some.injEq] at hs
      obtain ⟨-, rfl⟩ := hs
      exact .inr ⟨by simp, fun r hr => (List.mem_filter.mp hr).1⟩
  | endCommit saved =>
      simp only [Exchange.step] at hs
      split at hs
      · cases hs
      · simp only [Option.ite_none_right_eq_some, Option.some.injEq] at hs
        obtain ⟨-, rfl⟩ := hs
        exact .inr ⟨by simp, fun r hr => hr⟩
  | publish kinds | snapshot | newPublish kinds =>
      simp only [Exchange.step, Option.ite_none_right_eq_some, Option.some.injEq] at hs
      obtain ⟨-, rfl⟩ := hs
      exact .inr ⟨by simp, fun r hr => hr⟩
  | read after limit waited stopping =>
      simp only [Exchange.step, Option.ite_none_right_eq_some, Option.some.injEq] at hs
      obtain ⟨-, rfl⟩ := hs
      unfold deliver
      split <;> exact .inr ⟨by simp, fun r hr => hr⟩
  | old ok =>
      -- only the read of COMMITTED is left
      refine .inr ⟨by simp, ?_⟩
      rcases h.phase hf with hp | hp | hp
      · simp only [Exchange.step, oldStep, hp] at hs
        cases hs
        exact fun r hr => hr
      · simp only [Exchange.step, oldStep, hp] at hs
        cases hs
      · simp only [Exchange.step, oldStep, hp] at hs
        cases hs
  | spawn m =>
      rcases h.phase hf with hp | hp | hp <;>
      · simp only [Exchange.step, hp] at hs
        cases hs
  | leave =>
      simp only [Exchange.step, Option.ite_none_right_eq_some, Option.some.injEq] at hs
      obtain ⟨-, rfl⟩ := hs
      exact .inr ⟨by simp, fun r hr => absurd hr List.not_mem_nil⟩
  | oldDies =>
      cases hs
      exact .inr ⟨by simp, fun r hr => absurd hr List.not_mem_nil⟩
  | new ok =>
      refine .inr ⟨by simp, ?_⟩
      rw [(newStep_spec hs).old]
      exact fun r hr => hr
  | newDies | loseToNew index | loseToOld index =>
      cases hs
      exact .inr ⟨by simp, fun r hr => hr⟩

/-- Only the write of FINALIZE, which leaves the readers as they are, decides. -/
theorem finalized_step {action : ExchangeAction} (hs : s.step action = some t) :
    t.finalized = s.finalized ∨
      s.old.phase = .writeFinalize ∧ action = .old t.finalized ∧
        t.old.readers = s.old.readers := by
  by_cases hhandler : action.handler = true
  · exact .inl (handled hhandler hs).finalized
  cases action with
  | old ok =>
      by_cases hp : s.old.phase = .writeFinalize
      · simp only [Exchange.step, oldStep, hp] at hs
        cases hs
        refine .inr ⟨hp, rfl, ?_⟩
        unfold Exchange.write
        split <;> rfl
      · exact .inl ((oldStep_frame hs).finalized hp)
  | new ok => exact .inl (newStep_spec hs).finalized
  | launch | leave | newPublish kinds =>
      simp only [Exchange.step, Option.ite_none_right_eq_some, Option.some.injEq] at hs
      obtain ⟨-, rfl⟩ := hs
      exact .inl rfl
  | spawn m =>
      simp only [Exchange.step] at hs
      split at hs
      · simp only [Option.ite_none_right_eq_some, Option.some.injEq] at hs
        obtain ⟨-, rfl⟩ := hs
        exact .inl rfl
      · cases hs
  | oldDies | newDies | loseToNew index | loseToOld index =>
      cases hs
      exact .inl rfl
  | _ => exact absurd rfl hhandler

/-- With the order of the exchange, all is well if no reader runs after FINALIZE. -/
theorem Ordered.exclusive_iff_paused (h : s.Ordered) :
    s.Exclusive ↔ (s.finalized = true → ∀ r ∈ s.old.readers, r.2 = false) := by
  refine ⟨fun he => he.released, fun hr => ?_⟩
  have hunread : s.finalized = false → s.new.finalizeRead = false := fun hf => by
    by_contra hread
    have := h.read (by simpa using hread)
    rw [hf] at this
    cases this
  refine ⟨h.gated.owner, fun hp => ?_, fun hf => ⟨hunread hf, fun hm => ?_⟩, hr,
    fun runId hmem hres => ?_⟩
  · rcases hp with hp | hp | hp | hp <;> exact h.not_finalized (by simp [hp])
  · have := h.sent hm
    rw [hf] at this
    cases this
  · have hread := h.gated.owner (.inr (.inr (List.ne_nil_of_mem hres)))
    have := hr (h.read hread) _ hmem
    cases this

/-- What is written stays written. -/
theorem Ordered.finalized_mono (h : s.Ordered) (hf : s.finalized = true) {action : ExchangeAction}
    (hs : s.step action = some t) : t.finalized = true := by
  rcases finalized_step hs with hsame | ⟨hp, -⟩
  · exact hsame.trans hf
  · have := h.not_finalized (by simp [hp])
    rw [hf] at this
    cases this

theorem setReader_readers_paused {old : OldDaemon} (h : ∀ r ∈ old.readers, r.2 = false)
    (runId : String) :
    (∀ r ∈ (old.setReader true runId).readers, r.2 = false) ↔ runId ∉ old.readers.map (·.1) := by
  simp only [OldDaemon.setReader, List.mem_map, not_exists, not_and, forall_exists_index, and_imp,
    forall_apply_eq_imp_iff₂]
  constructor
  · intro hall r hr hid
    have := hall r hr
    rw [if_pos hid] at this
    cases this
  · intro hne r hr
    rw [if_neg (hne r hr)]
    exact h r hr

/-- A step keeps the promise exactly if it meets the condition. -/
theorem Ordered.exclusive_step (h : s.Ordered) (he : s.Exclusive) {action : ExchangeAction}
    (hs : s.step action = some t) : t.Exclusive ↔ s.StaysPaused action := by
  rw [(h.step hs).exclusive_iff_paused]
  by_cases hf : s.finalized = true
  · have ht := h.finalized_mono hf hs
    simp only [ht, forall_const]
    have hpaused := he.released hf
    rcases h.readers hf hs with ⟨runId, rfl, hreaders⟩ | ⟨hne, hsub⟩
    · rw [hreaders, setReader_readers_paused hpaused]
      simp only [StaysPaused, hf, forall_const]
    · have hall : ∀ r ∈ t.old.readers, r.2 = false := fun r hr => hpaused r (hsub r hr)
      simp only [StaysPaused]
      split
      · exact iff_of_true hall fun _ => hpaused
      next runId => exact absurd rfl (hne runId)
      · exact iff_of_true hall trivial
  · have hf' : s.finalized = false := by simpa using hf
    rcases finalized_step hs with hsame | ⟨hp, rfl, hreaders⟩
    · rw [hsame, hf']
      refine iff_of_true (by simp) ?_
      unfold StaysPaused
      split
      · intro hp
        simp only [Exchange.step, oldStep, hp] at hs
        cases hs
        cases hsame.trans hf'
      · rw [hf']
        simp
      · trivial
    · rw [hreaders]
      cases htf : t.finalized with
      | true => simp only [StaysPaused, hp, forall_const]
      | false => simp [StaysPaused]

/-- In every run from an old daemon that has not handed off anything, never both daemons own a
run at any moment exactly if every step meets the condition. -/
theorem exclusive_iff (stream : EventStreamState) (as : List ExchangeAction) :
    Along step Exclusive (init stream) as ↔ Meets step StaysPaused (init stream) as := by
  have hinit := Ordered.init stream
  refine along_iff_meets (fun _ _ _ hi _ _ hs => hi.step hs)
    (fun _ _ _ hi hp hs => hi.exclusive_step hp hs) hinit ?_
  exact hinit.exclusive_iff_paused.mpr nofun

/-- A run id. -/
def aRun : String := "00000000-0000-4000-8000-00000000000a"

/-- A stream without events. -/
def aStream : EventStreamState := ⟨"00000000-0000-4000-8000-000000000001", 0, [], []⟩

/-- The manifest of one run. -/
def aRunManifest : Manifest where
  runtimes := [⟨"shell", some aRun, some 0, ⟨none, none, none, none, 24, 80, 0, 0⟩, 7⟩]
  exited := []
  eventStream := manifest aStream
  presentedFocusedTerminal := none
  opencodeRuntime := none
  claudeRemoteControlBindings := []
  kiroLaunchHolders := []

/-- The old daemon takes `n` steps, and then the replacement does `m`. -/
def turns (n m : Nat) : List ExchangeAction :=
  List.replicate n (.old true) ++ List.replicate m (.new true)

/-- A CreateStartedShell call has committed, a handoff transfers its run, and then the call
resumes the reader. -/
def lateResumeRun : List ExchangeAction :=
  [.createStarted aRun, .launch] ++ turns 5 0 ++ [.spawn aRunManifest] ++ turns 9 10 ++
    turns 2 3 ++ turns 2 0 ++ [.resumeStarted aRun]

/-- The old daemon resumes a reader although it has written FINALIZE. -/
theorem not_exclusive_lateResumeRun :
    ¬ ∀ (stream : EventStreamState) (as : List ExchangeAction),
      Along step Exclusive (init stream) as := by
  intro hall
  have hrun : (exec step (init aStream) lateResumeRun).any
      (fun t => t.finalized && t.old.readers.any (·.2)) = true := by decide +kernel
  obtain ⟨t, ht, hboth⟩ := (Option.any_eq_true _ _).mp hrun
  simp only [Bool.and_eq_true, List.any_eq_true] at hboth
  obtain ⟨hf, r, hr, hruns⟩ := hboth
  have := ((hall aStream lateResumeRun).last ht).released hf r hr
  rw [this] at hruns
  cases hruns

end Exchange

end Boomux.Handoff
