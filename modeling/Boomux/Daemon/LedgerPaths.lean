import Boomux.Daemon.Ledger

/-!
# The paths keep the ledger

One lemma for each path of the machine, from the operation of a durable mutation to the last
transaction of a window, and `World.Ledger.step` for all of them.
-/

set_option autoImplicit false

namespace Boomux.Daemon

open Rust Transition

variable {R : Type} {w u : World R}

/-! ## Effects on the record -/

/-- The number of the next transition is new to the record. -/
theorem World.Recorded.not_saved_next (h : w.Recorded) : ¬ w.Saved w.next := fun hs =>
  Nat.lt_irrefl _ (h.savedBounded _ hs)

/-- A batch of a new transition, at the end of the queue. -/
theorem World.Recorded.queueDurableBatch (h : w.Recorded) (hc : w.holder.closed = true)
    (mutation : Mutation R) (kinds : List DaemonEventKind) :
    (w.queueDurableBatch mutation kinds).Recorded := by
  -- Nothing is queued for a mutation without events.
  cases kinds with
  | nil =>
      exact h.same ⟨rfl, rfl, rfl, transitions_silent .., rfl, rfl, rfl, rfl, rfl, rfl⟩ hc hc
  | cons kind kinds =>
    generalize hk : kind :: kinds = all
    have hu : w.queueDurableBatch mutation all = { w with
        events := { w.events with transition := { w.events.transition with
          pendingDurableEvents := w.events.pending ++ [⟨w.next, all⟩] } }
        durable := { w.durable.markPersistenceDirty with
          edits := w.durable.edits ++ [.transition w.next mutation] }
        next := w.next + 1
        begun := w.begun ++ [⟨w.next, all⟩] } := by
      subst hk
      rfl
    have happlied : (w.queueDurableBatch mutation all).durable.applied =
        w.durable.applied ++ [w.next] := by
      rw [hu]
      exact transitions_transition ..
    -- The batch is the last of the queue, and of those that wait.
    have hq : (w.queueDurableBatch mutation all).queued = w.queued ++ [⟨w.next, all⟩] := by
      rw [hu]
      simp [World.queued, World.flushing, Holder.closed_batches hc]
    have hw : (w.queueDurableBatch mutation all).waiting = w.waiting ++ [⟨w.next, all⟩] := by
      rw [hu, World.waiting_of_closed (w := w) hc, World.waiting_of_closed (by exact hc)]
      simp
    refine ⟨?_, ?_, ?_, ?_, ?_, ?_, ?_, ?_, ?_, ?_⟩
    · rw [hu]
      exact h.logged
    · rw [hq, hu, ← List.append_assoc]
      exact h.numbered.snoc h.dead all
    · rw [hu]
      exact fun n hn => Nat.lt_succ_of_lt (h.dead n hn)
    · rw [happlied, hu]
      exact fun n hn => List.mem_append_left _ (h.lost n hn)
    · rw [hu]
      exact h.saved
    -- Every batch of the queue is of a mutation that has been applied.
    · rw [hq, happlied, hu, ← List.append_assoc]
      intro b hb
      rcases List.mem_append.mp hb with hb | hb
      · exact List.mem_append_left _ (h.applied b hb)
      · rw [List.mem_singleton.mp hb]
        simp
    -- Every mutation that has been applied is accounted for; the new one is by this batch.
    · rw [hq, happlied, hu]
      intro n hn
      rcases List.mem_append.mp hn with hn | hn
      · rcases h.accounted n hn with hs | ⟨b, hb, he⟩ | hl
        · exact .inl hs
        · exact .inr (.inl ⟨b, List.mem_append_left _ hb, he⟩)
        · exact .inr (.inr hl)
      · exact .inr (.inl ⟨_, List.mem_append_right _ (List.mem_singleton_self _),
          (List.mem_singleton.mp hn).symm⟩)
    · rw [happlied, hu]
      intro n hn
      show n < w.next + 1
      rcases List.mem_append.mp hn with hn | hn
      · exact Nat.lt_succ_of_lt (h.bounded n hn)
      · rw [List.mem_singleton.mp hn]
        exact Nat.lt_succ_self _
    · rw [hu]
      exact fun n hs => Nat.lt_succ_of_lt (h.savedBounded n hs)
    -- The transition is new, so that no capture can have it yet.
    · rw [hw, hu]
      intro b hb
      rcases List.mem_append.mp hb with hb | hb
      · exact h.waiting b hb
      · rw [List.mem_singleton.mp hb]
        exact h.not_saved_next

theorem queueDurableBatch_holder (w : World R) (mutation : Mutation R)
    (kinds : List DaemonEventKind) :
    (w.queueDurableBatch mutation kinds).holder = w.holder ∧
      (w.queueDurableBatch mutation kinds).flush = w.flush ∧
      (w.queueDurableBatch mutation kinds).saves = w.saves ∧
      w.next ≤ (w.queueDurableBatch mutation kinds).next ∧
      ∀ b ∈ (w.queueDurableBatch mutation kinds).events.pending, b ∈ w.events.pending ∨
        b.transition = w.next := by
  cases kinds with
  | nil => exact ⟨rfl, rfl, rfl, le_rfl, fun b hb => .inl hb⟩
  | cons kind kinds =>
      refine ⟨rfl, rfl, rfl, Nat.le_succ _, fun b hb => ?_⟩
      rcases List.mem_append.mp hb with hb | hb
      · exact .inl hb
      · exact .inr (by rw [List.mem_singleton.mp hb])

theorem drained_same (w : World R) (shells : Shells) : SameLedger w (w.drained shells) :=
  ⟨rfl, rfl, rfl, rfl, rfl, rfl, rfl, rfl, rfl, rfl⟩

theorem World.Recorded.restoreFinalized (h : w.Recorded) (hc : w.holder.closed = true)
    (rollbacks : List (String × StopRollback)) : (w.restoreFinalized rollbacks).Recorded :=
  (h.same (drained_same w _) hc hc).queueDurableBatch hc _ _

theorem World.Recorded.compensateStopped (h : w.Recorded) (hc : w.holder.closed = true)
    (shells : List String) : (w.compensateStopped shells).Recorded :=
  (h.same (drained_same w _) hc hc).queueDurableBatch hc _ _

theorem compensateStopped_holder (w : World R) (shells : List String) :
    (w.compensateStopped shells).holder = w.holder ∧
      (w.compensateStopped shells).flush = w.flush ∧
      (w.compensateStopped shells).saves = w.saves ∧ w.next ≤ (w.compensateStopped shells).next ∧
      ∀ b ∈ (w.compensateStopped shells).events.pending, b ∈ w.events.pending ∨
        b.transition = w.next :=
  queueDurableBatch_holder (w.drained (compensateAll w.durable.state.shells shells).1) _
    (w.events.transition.pendingRuntimeEvents ++ (compensateAll w.durable.state.shells shells).2)

theorem restoreFinalized_holder (w : World R) (rollbacks : List (String × StopRollback)) :
    (w.restoreFinalized rollbacks).holder = w.holder ∧
      (w.restoreFinalized rollbacks).flush = w.flush :=
  have h := queueDurableBatch_holder (w.drained (restoreAll w.durable.state.shells rollbacks).1) _
    (w.events.transition.pendingRuntimeEvents ++ (restoreAll w.durable.state.shells rollbacks).2)
  ⟨h.1, h.2.1⟩

/-- The end of a failed lifecycle transaction. -/
theorem World.Recorded.lifecycleFailed (h : w.Recorded) (hc : w.holder.closed = true)
    (call : LifecycleCall R) : (w.lifecycleFailed call).Recorded :=
  h.same ⟨by simp [World.lifecycleFailed], by simp [World.lifecycleFailed],
    rfl, rfl, rfl, rfl, rfl, rfl, rfl, rfl⟩ hc rfl

/-- A lifecycle transaction that restores what it finalized, and gives up. -/
theorem World.Recorded.restoreFailed (h : w.Recorded) (hc : w.holder.closed = true)
    (hf : w.flush = none) (rollbacks : List (String × StopRollback)) (call : LifecycleCall R) :
    ((w.restoreFinalized rollbacks).lifecycleFailed call).Ledger := by
  have hholder := restoreFinalized_holder w rollbacks
  refine World.Recorded.ledger ((h.restoreFinalized hc rollbacks).lifecycleFailed ?_ call) ?_ rfl
  · rw [hholder.1]
    exact hc
  · exact hholder.2.trans hf

theorem mem_dead_rolledBack (w : World R) (n : Nat) :
    ∀ m ∈ (w.rolledBack ++ [n]) ++ w.lost, m ∈ w.dead ∨ m = n := by
  intro m hm
  simp only [World.dead, List.mem_append, List.mem_singleton] at hm ⊢
  tauto

/-- A transition that is given up in the transaction that began it. -/
theorem World.Recorded.giveUp (h : w.Recorded) (hc : w.holder.closed = true) (batch : Batch)
    (hs : SameLedger { w with
      next := w.next + 1, begun := w.begun ++ [batch], rolledBack := w.rolledBack ++ [w.next] } u)
    (hu : u.holder.closed = true) : u.Recorded := by
  refine World.Recorded.same (w := { w with
      next := w.next + 1, begun := w.begun ++ [batch], rolledBack := w.rolledBack ++ [w.next] })
    ⟨h.logged, ?_, ?_, h.lost, h.saved, h.applied, h.accounted, ?_, ?_, h.waiting⟩ hs hc hu
  · refine (h.numbered.skip batch).kill (fun b hb => ?_) (mem_dead_rolledBack w w.next)
    have := h.numbered.below b hb
    omega
  · intro n hn
    rcases mem_dead_rolledBack w w.next n hn with hn | rfl
    · exact Nat.lt_succ_of_lt (h.dead n hn)
    · exact Nat.lt_succ_self _
  · exact fun n hn => Nat.lt_succ_of_lt (h.bounded n hn)
  · exact fun n hn => Nat.lt_succ_of_lt (h.savedBounded n hn)

/-- A window opens behind the pending batches, with the batch of a new transition. -/
theorem World.Ledger.openWindow (h : w.Ledger) (hc : w.holder.closed = true)
    (hf : w.flush = none) {kinds : List DaemonEventKind} {mutation : Mutation R}
    {window : Window R} (hbatch : window.batch = ⟨w.next, kinds⟩) (hwritten : window.written = none)
    (hsaved : window.saved.edits = w.durable.edits ++ [.transition w.next mutation])
    (hquiet : window.kind ≠ .runExit → w.events.pending = [])
    (hexit : window.kind = .runExit → kinds.isEmpty = false)
    (hs : SameLedger { w with
      durable := w.durable.edit (.transition w.next mutation)
      next := w.next + 1, begun := w.begun ++ [⟨w.next, kinds⟩] } u)
    (hh : u.holder = .window window) : u.Ledger := by
  have hflush : u.flush = none := hs.flush.trans hf
  have hbatches : u.holder.batches = [⟨w.next, kinds⟩] := by
    rw [hh]
    simp only [Holder.batches, hwritten, hbatch]
    split <;> simp_all
  have hqueued : w.queued = w.events.pending := by
    simp [World.queued, World.flushing, hf, Holder.closed_batches hc]
  have hpending : u.events.pending = w.events.pending := hs.pending
  have hq : u.queued = w.queued ++ [⟨w.next, kinds⟩] := by
    simp [World.queued, World.flushing, hflush, hf, hpending, hbatches, Holder.closed_batches hc]
  have hw : u.waiting = w.waiting ++ [⟨w.next, kinds⟩] := by
    rw [World.waiting_of_closed hc, World.waiting, hflush, hf, hh]
    simp [hwritten, ← hh, hpending, hbatches]
  have happlied : u.durable.applied = w.durable.applied ++ [w.next] :=
    hs.applied.trans (applied_transition ..)
  have hsaved : window.saved.applied = w.durable.applied ++ [w.next] := by
    rw [PersistenceGeneration.applied, hsaved, transitions_transition]
    rfl
  -- the transitions of the queue, which the window has captured
  have hcaptured : ∀ b ∈ w.published ++ u.queued, b.transition ∈ w.durable.applied ++ [w.next] := by
    intro b hb
    rw [hq, ← List.append_assoc] at hb
    rcases List.mem_append.mp hb with hb | hb
    · exact List.mem_append_left _ (h.applied b hb)
    · rw [List.mem_singleton.mp hb]
      simp
  have hbounded : ∀ n ∈ w.durable.applied ++ [w.next], n < w.next + 1 := by
    intro n hn
    rcases List.mem_append.mp hn with hn | hn
    · exact Nat.lt_succ_of_lt (h.bounded n hn)
    · rw [List.mem_singleton.mp hn]
      exact Nat.lt_succ_self _
  refine ⟨⟨?_, ?_, ?_, ?_, ?_, ?_, ?_, ?_, ?_, ?_⟩, ?_, ?_⟩
  · rw [hs.log, hs.published]
    exact h.logged
  · rw [hs.next, hs.begun, hs.dead, hs.published, hq, ← List.append_assoc]
    exact h.numbered.snoc h.dead kinds
  · rw [hs.dead, hs.next]
    exact fun n hn => Nat.lt_succ_of_lt (h.dead n hn)
  · rw [hs.lost, happlied]
    exact fun n hn => List.mem_append_left _ (h.lost n hn)
  · rw [hs.published]
    exact fun b hb => (World.saved_congr hs.saves _).mpr (h.saved b hb)
  · rw [hs.published, happlied]
    exact hcaptured
  · rw [happlied, hq, hs.lost]
    intro n hn
    rcases List.mem_append.mp hn with hn | hn
    · rcases h.accounted n hn with hsv | ⟨b, hb, he⟩ | hl
      · exact .inl ((World.saved_congr hs.saves n).mpr hsv)
      · exact .inr (.inl ⟨b, List.mem_append_left _ hb, he⟩)
      · exact .inr (.inr hl)
    · exact .inr (.inl ⟨_, List.mem_append_right _ (List.mem_singleton_self _),
        (List.mem_singleton.mp hn).symm⟩)
  · rw [happlied, hs.next]
    exact hbounded
  · rw [hs.next]
    exact fun n hn => Nat.lt_succ_of_lt (h.savedBounded n ((World.saved_congr hs.saves n).mp hn))
  · rw [hw]
    intro b hb hsv
    rw [World.saved_congr (w := w) hs.saves] at hsv
    rcases List.mem_append.mp hb with hb | hb
    · exact h.waiting b hb hsv
    · rw [List.mem_singleton.mp hb] at hsv
      exact h.not_saved_next hsv
  · simp [hflush]
  · rw [World.HolderOk, hh]
    refine ⟨hflush, fun b hb => ?_, ?_, by simp [hwritten], fun hk => hpending.trans (hquiet hk),
      fun hk => by rw [hbatch]; exact hexit hk⟩
    · rw [hsaved]
      refine hcaptured b (List.mem_append_right _ ?_)
      rwa [World.queued, World.flushing, hflush, List.nil_append]
    · rw [hsaved, hs.next]
      exact hbounded

/-! ## Durable mutations -/

theorem World.Ledger.mutate (h : w.Ledger) (hh : w.holder = .flushed)
    (hfree : w.persistFree = true) (op : Operation R) (reserve : Nat → Except IoError Unit)
    (captured : Bool) : (w.mutate op reserve captured).Ledger := by
  have hq : w.Quiet := by
    have := h.holder
    rwa [World.HolderOk, hh] at this
  obtain ⟨hf, hc⟩ := persistFree_iff.mp hfree
  -- nothing was recorded: the operation failed, or changed nothing, or was undone
  have hundone : World.Ledger { w with
      durable := w.durable.edit (.silent fun d => rollback (op.run d).undo (op.run d).state)
      holder := .free } :=
    World.Recorded.ledger
      (h.toRecorded.same ⟨rfl, rfl, rfl, applied_silent .., rfl, rfl, rfl, rfl, rfl, rfl⟩ hc rfl) hf
      rfl
  unfold World.mutate
  dsimp only
  split
  · exact hundone
  · exact hundone
  next kinds hr =>
    split
    · exact hundone
    · split
      · exact h.openWindow hc hf rfl rfl rfl (fun _ => hq.1)
          (fun hk => by cases hk) ⟨rfl, rfl, rfl, rfl, rfl, rfl, rfl, rfl, rfl, rfl⟩ rfl
      · exact World.Recorded.ledger (h.toRecorded.giveUp hc ⟨w.next, kinds⟩
          ⟨rfl, rfl, rfl, applied_silent .., rfl, rfl, rfl, rfl, rfl, rfl⟩ rfl) hf rfl

/-! ## Flushes -/

theorem World.Recorded.flushReturned (h : w.Recorded) (hf : w.flush = none) (byHolder ok : Bool)
    (hh : w.HolderOk) (hp : ok = true → byHolder = true → w.events.pending = []) :
    (w.flushReturned byHolder ok).Ledger := by
  have hquiet : ok = true → byHolder = true → w.Quiet := fun ho hb =>
    ⟨hp ho hb, by simp [World.flushing, hf]⟩
  unfold World.flushReturned
  split
  next heq =>
    refine ⟨h.same ⟨rfl, rfl, rfl, rfl, rfl, rfl, rfl, rfl, rfl, rfl⟩ (by rw [heq]; rfl) ?_, ?_, ?_⟩
    · cases ok <;> rfl
    · simp [hf]
    · cases ok with
      | true => exact hquiet rfl rfl
      | false => trivial
  next heq =>
    refine ⟨h.same ⟨rfl, rfl, rfl, rfl, rfl, rfl, rfl, rfl, rfl, rfl⟩ (by rw [heq]; rfl) ?_, ?_, ?_⟩
    · cases ok <;> rfl
    · simp [hf]
    · cases ok with
      | true => exact hquiet rfl rfl
      | false => trivial
  · exact ⟨h, by simp [hf], hh⟩

theorem World.Ledger.flushBegin (h : w.Ledger) (hfree : w.persistFree = true)
    {byHolder : Bool} (hm : byHolder = true → w.mayFlush = true) (captured : Bool) :
    (w.flushBegin byHolder captured).Ledger := by
  obtain ⟨hf, hc⟩ := persistFree_iff.mp hfree
  unfold World.flushBegin
  dsimp only
  split
  next hempty =>
    rw [Bool.and_eq_true] at hempty
    exact h.toRecorded.flushReturned hf byHolder true h.holder fun _ _ =>
      List.isEmpty_iff.mp hempty.1
  · split
    · -- the pending batches become those of the flush; their order does not change
      have hqueued : w.queued = w.events.pending := by
        simp [World.queued, World.flushing, hf, Holder.closed_batches hc]
      have hwaiting : w.waiting = w.events.pending := by
        rw [World.waiting_of_closed hc, hf]
        rfl
      refine ⟨h.toRecorded.congr rfl ?_ ?_ rfl rfl rfl rfl rfl rfl rfl, ?_, ?_⟩
      · rw [hqueued]
        simp [World.queued, World.flushing, EventTransaction.takePendingDurable,
          EventTransaction.beginPersistence, Holder.closed_batches hc]
      · rw [World.waiting_of_closed (by exact hc), hwaiting]
        simp only [reduceCtorEq, if_false, List.mem_append]
        rintro b (hb | hb)
        · exact hb
        · cases hb
      · rintro flush hs
        cases hs
        refine ⟨fun b hb => h.applied b ?_, h.bounded, ?_, by simp, fun hb => ⟨hm hb, rfl⟩⟩
        · rw [hqueued]
          exact List.mem_append_right _ hb
        · intro b hb
          cases hb
      · have := h.holder
        unfold World.HolderOk at this ⊢
        cases hh : w.holder with
        | flushed =>
            rw [hh] at this
            exact ⟨rfl, this.1⟩
        | finalizing call shells =>
            rw [hh] at this
            exact ⟨rfl, this.1⟩
        | window window => rw [hh] at hc; cases hc
        | _ => trivial
    · exact h.toRecorded.flushReturned hf byHolder false h.holder (by simp)

/-- While a flush runs, no window is open. -/
theorem World.Ledger.closed_of_flush (h : w.Ledger) {flush : Flush R} (hf : w.flush = some flush) :
    w.holder.closed = true := by
  cases hh : w.holder with
  | window window =>
      have := h.holder
      rw [World.HolderOk, hh] at this
      rw [this.alone] at hf
      cases hf
  | _ => rfl

theorem writePersistedState_applied (d : DurableRegistry R) (g : PersistenceGeneration R)
    (ok : Bool) : (d.writePersistedState g ok).applied = d.applied := by
  unfold DurableRegistry.writePersistedState
  split
  · split <;> rfl
  · rfl

/-- What a save adds to the saved states. -/
theorem World.saved_written {g : PersistenceGeneration R} {ok : Bool}
    (hs : u.saves = if ok then w.saves ++ [g] else w.saves) (n : Nat) :
    u.Saved n ↔ w.Saved n ∨ (ok = true ∧ n ∈ g.applied) := by
  unfold World.Saved
  cases ok with
  | true => simp [hs, or_and_right, exists_or]
  | false => simp [hs]

/-- A save of what a flush or a window has captured. -/
theorem World.Recorded.written (h : w.Recorded) {g : PersistenceGeneration R} {ok : Bool}
    (hs : u.saves = if ok then w.saves ++ [g] else w.saves)
    (hg : ∀ n ∈ g.applied, n < w.next)
    (hlog : u.events.durableLog = w.events.durableLog) (hq : u.queued = w.queued)
    (ha : u.durable.applied = w.durable.applied) (hp : u.published = w.published)
    (hn : u.next = w.next) (hb : u.begun = w.begun) (hr : u.rolledBack = w.rolledBack)
    (hl : u.lost = w.lost)
    (hw : ∀ b ∈ u.waiting, b ∈ w.waiting ∧ (ok = true → b.transition ∉ g.applied)) :
    u.Recorded := by
  have hsaved := World.saved_written (w := w) (u := u) hs
  refine ⟨by rw [hlog, hp, h.logged], ?_, ?_, by rw [hl, ha]; exact h.lost, ?_, ?_, ?_, ?_, ?_, ?_⟩
  · rw [hn, hb, World.dead_congr hr hl, hp, hq]
    exact h.numbered
  · rw [World.dead_congr hr hl, hn]
    exact h.dead
  · rw [hp]
    exact fun b hmem => (hsaved _).mpr (.inl (h.saved b hmem))
  · rw [hp, hq, ha]
    exact h.applied
  · rw [hq, ha, hl]
    exact fun n hmem => (h.accounted n hmem).imp_left fun hs => (hsaved n).mpr (.inl hs)
  · rw [ha, hn]
    exact h.bounded
  · rw [hn]
    intro n hmem
    rcases (hsaved n).mp hmem with hmem | ⟨-, hmem⟩
    · exact h.savedBounded n hmem
    · exact hg n hmem
  · intro b hmem hs
    obtain ⟨hwait, hnot⟩ := hw b hmem
    rcases (hsaved _).mp hs with hs | ⟨ho, hs⟩
    · exact h.waiting b hwait hs
    · exact hnot ho hs

theorem World.Ledger.flushWrite (h : w.Ledger) {flush : Flush R} (hf : w.flush = some flush)
    (hw : flush.written = none) (ok : Bool) : World.Ledger { w with
      durable := w.durable.writePersistedState flush.saved ok
      flush := some { flush with written := some ok }
      saves := if ok then w.saves ++ [flush.saved] else w.saves } := by
  have hc := h.closed_of_flush hf
  have hok := h.flush flush hf
  refine ⟨h.toRecorded.written rfl hok.bounded rfl ?_ (writePersistedState_applied _ _ _)
    rfl rfl rfl rfl rfl ?_, ?_, ?_⟩
  · simp [World.queued, World.flushing, hf]
  · rw [World.waiting_of_closed hc, World.waiting_of_closed (by exact hc), hf]
    simp only [hw, reduceCtorEq, if_false]
    intro b hb
    cases ok with
    | true =>
        have hb : b ∈ w.events.pending := by simpa using hb
        exact ⟨List.mem_append_right _ hb, fun _ => hok.later b hb⟩
    | false => exact ⟨by simpa using hb, by simp⟩
  · intro flush' hs
    cases hs
    refine ⟨hok.captured, hok.bounded, hok.later, fun hw => ?_, hok.holder⟩
    cases ok with
    | true => exact List.mem_append_right _ (List.mem_singleton_self _)
    | false => cases hw
  · have := h.holder
    unfold World.HolderOk at this ⊢
    cases hh : w.holder with
    | flushed =>
        rw [hh] at this
        exact ⟨this.1, by simpa [World.flushing, hf] using this.2⟩
    | finalizing call shells =>
        rw [hh] at this
        exact ⟨this.1, by simpa [World.flushing, hf] using this.2⟩
    | window window => rw [hh] at hc; cases hc
    | _ => trivial

/-- The batches of a successful flush leave the queue: they are published, or, if the capacity
is exhausted, dropped. -/
theorem World.Ledger.flushSaved (h : w.Ledger) {flush : Flush R} (hf : w.flush = some flush)
    (hw : flush.written = some true) {kept : List Batch}
    (hkept : kept = [] ∨ kept = flush.pending)
    (hlog : u.events.durableLog = w.events.durableLog ++ kept.flatMap (·.stamped))
    (hpub : u.published = w.published ++ kept)
    (hs : SameLedger { w with flush := none, events := u.events, published := u.published } u)
    (hp : u.events.pending = w.events.pending) (hh : u.holder = w.holder) : u.Recorded := by
  have hok := h.flush flush hf
  have hc := h.closed_of_flush hf
  -- The queue is what is flushed, and then what is pending.
  have hqueued : w.queued = flush.pending ++ w.events.pending := by
    simp [World.queued, World.flushing, hf, Holder.closed_batches hc]
  have hflush : u.flush = none := hs.flush
  have huq : u.queued = w.events.pending := by
    simp [World.queued, World.flushing, hflush, hp, hh, Holder.closed_batches hc]
  -- What is published and what stays queued keeps the order of the numbers.
  have hsub : (w.published ++ kept ++ w.events.pending).Sublist (w.published ++ w.queued) := by
    rw [hqueued, ← List.append_assoc]
    refine List.Sublist.append_right (List.Sublist.append_left ?_ _) _
    rcases hkept with rfl | rfl
    · exact List.nil_sublist _
    · exact List.Sublist.refl _
  have hsaved : ∀ b ∈ flush.pending, w.Saved b.transition := fun b hb =>
    ⟨flush.saved, hok.saved hw, hok.captured b hb⟩
  refine ⟨?_, ?_, ?_, ?_, ?_, ?_, ?_, ?_, ?_, ?_⟩
  · rw [hlog, hpub, h.logged, List.flatMap_append]
  · rw [hs.next, hs.begun, hs.dead, hpub, huq]
    exact h.numbered.sublist hsub
  · rw [hs.dead, hs.next]
    exact h.dead
  · rw [hs.lost, hs.applied]
    exact h.lost
  -- What is published has been saved.
  · rw [hpub]
    intro b hb
    rw [World.saved_congr (w := w) hs.saves]
    rcases List.mem_append.mp hb with hb | hb
    · exact h.saved b hb
    · rcases hkept with rfl | rfl
      · cases hb
      · exact hsaved b hb
  · rw [hpub, huq, hs.applied]
    exact fun b hb => h.applied b (hsub.subset hb)
  · rw [hs.applied, huq, hs.lost]
    intro n hn
    rw [World.saved_congr (w := w) hs.saves]
    rcases h.accounted n hn with hsv | ⟨b, hb, rfl⟩ | hl
    · exact .inl hsv
    -- A batch of the flush is saved now, and one that is pending is queued still.
    · rw [hqueued] at hb
      rcases List.mem_append.mp hb with hb | hb
      · exact .inl (hsaved b hb)
      · exact .inr (.inl ⟨b, hb, rfl⟩)
    · exact .inr (.inr hl)
  · rw [hs.applied, hs.next]
    exact h.bounded
  · rw [hs.next]
    exact fun n hn => h.savedBounded n ((World.saved_congr hs.saves n).mp hn)
  · rw [World.waiting_of_closed (by rw [hh]; exact hc), hflush, hp]
    intro b hb
    rw [World.saved_congr (w := w) hs.saves]
    refine h.waiting b ?_
    rw [World.waiting_of_closed hc]
    exact List.mem_append_right _ hb

theorem World.Ledger.flushFinish (h : w.Ledger) {flush : Flush R} (hf : w.flush = some flush)
    {written : Bool} (hw : flush.written = some written) :
      (w.flushFinish flush written).Ledger := by
  have hok := h.flush flush hf
  have hc := h.closed_of_flush hf
  -- what the position of the holder says once the flush is over
  have hholder : ∀ u : World R, u.holder = w.holder → u.flush = none →
      (w.Quiet → u.events.pending = []) → u.HolderOk := by
    intro u hh hnone hp
    have := h.holder
    unfold World.HolderOk at this ⊢
    rw [hh]
    cases hw : w.holder with
    | flushed =>
        rw [hw] at this
        exact ⟨hp this, by simp [World.flushing, hnone]⟩
    | finalizing call shells =>
        rw [hw] at this
        exact ⟨hp this, by simp [World.flushing, hnone]⟩
    | window window => rw [hw] at hc; cases hc
    | _ => trivial
  unfold World.flushFinish
  dsimp only
  split
  next hwritten =>
    rw [hwritten] at hw
    split
    · -- the batches are dropped
      have hrec : World.Recorded { w with flush := none } :=
        h.flushSaved hf hw (.inl rfl) (by simp) (by simp)
          ⟨rfl, rfl, rfl, rfl, rfl, rfl, rfl, rfl, rfl, rfl⟩ rfl rfl
      exact hrec.flushReturned rfl _ _ (hholder _ rfl rfl fun hq => hq.1) (by simp)
    · -- the batches are appended, in the order in which they waited
      have hpending : ((flush.pending.foldl .appendBatch w.events).finishPersistence).pending =
          w.events.pending := by simp
      have hrec : World.Recorded { w with
          flush := none
          events := (flush.pending.foldl .appendBatch w.events).finishPersistence
          published := w.published ++ flush.pending } :=
        h.flushSaved hf hw (.inr rfl) (by simp) rfl
          ⟨rfl, rfl, rfl, rfl, rfl, rfl, rfl, rfl, rfl, rfl⟩ hpending rfl
      exact hrec.flushReturned rfl _ _ (hholder _ rfl rfl fun hq => hpending.trans hq.1)
        fun _ hb => hpending.trans (hok.holder hb).2
  next hwritten =>
    -- the batches go back to the front
    have hpending : (w.events.restorePendingDurable flush.pending).finishPersistence.pending =
        flush.pending ++ w.events.pending := by simp
    have hrec : World.Recorded { w with
        flush := none
        events := (w.events.restorePendingDurable flush.pending).finishPersistence } := by
      refine h.toRecorded.congr ?_ ?_ ?_ rfl rfl rfl rfl rfl rfl rfl
      · show (w.events.restorePendingDurable flush.pending).finishPersistence.durableLog =
          w.events.durableLog
        rw [EventTransaction.finishPersistence_durableLog]
        rfl
      · simp [World.queued, World.flushing, hf, Holder.closed_batches hc]
      · rw [World.waiting_of_closed hc, World.waiting_of_closed (by exact hc), hf]
        simp [hw, hwritten]
    exact hrec.flushReturned rfl _ _
      (hholder _ rfl rfl fun hq => by
        rw [hpending, hq.1]
        simpa [World.flushing, hf] using hq.2) (by simp)

/-! ## Run exits -/

theorem World.Ledger.exitRecord (h : w.Ledger) {index : Nat}
    (hfree : w.persistFree = true) (code : Option Nat) (captured : Bool) :
    (w.exitRecord index code captured).Ledger := by
  obtain ⟨hf, hc⟩ := persistFree_iff.mp hfree
  have hreturned : ∀ readers, World.Ledger { w with holder := .free, readers := readers } :=
    fun readers => World.Recorded.ledger
      (h.toRecorded.same ⟨rfl, rfl, rfl, rfl, rfl, rfl, rfl, rfl, rfl, rfl⟩ hc rfl) hf rfl
  unfold World.exitRecord
  dsimp only
  split
  · exact hreturned _
  · split
    · split <;> exact hreturned _
    · split
      · exact hreturned _
      next shell event hfinal =>
        split
        · exact h.openWindow hc hf rfl rfl rfl (fun hk => absurd rfl hk)
            (fun _ => by simp) ⟨rfl, rfl, rfl, rfl, rfl, rfl, rfl, rfl, rfl, rfl⟩ rfl
        · -- the capture failed: the transition stays in memory, its batch is lost
          have hd : ∀ n ∈ w.rolledBack ++ (w.lost ++ [w.next]), n ∈ w.dead ∨ n = w.next := by
            intro n hn
            simp only [World.dead, List.mem_append, List.mem_singleton] at hn ⊢
            tauto
          refine World.Recorded.ledger ⟨h.logged, ?_, ?_, ?_, h.saved, ?_, ?_, ?_,
            fun n hn => Nat.lt_succ_of_lt (h.savedBounded n hn), ?_⟩ hf rfl
          · have hnum := h.numbered.skip ⟨w.next,
              w.events.transition.pendingRuntimeEvents ++ [event]⟩
            rw [World.queued, Holder.closed_batches hc] at hnum
            refine hnum.kill (fun b hb => ?_) hd
            have : b.transition < w.next := h.numbered.below b (by
              rw [World.queued, Holder.closed_batches hc]
              exact hb)
            omega
          · intro n hn
            rcases hd n hn with hn | rfl
            · exact Nat.lt_succ_of_lt (h.dead n hn)
            · exact Nat.lt_succ_self _
          · intro n hn
            simp only [applied_transition]
            rcases List.mem_append.mp hn with hn | hn
            · exact List.mem_append_left _ (h.lost n hn)
            · exact List.mem_append_right _ hn
          · intro b hb
            simp only [applied_transition]
            refine List.mem_append_left _ (h.applied b ?_)
            rw [World.queued, Holder.closed_batches hc]
            exact hb
          · intro n hn
            simp only [applied_transition] at hn
            rcases List.mem_append.mp hn with hn | hn
            · have := h.accounted n hn
              rw [World.queued, Holder.closed_batches hc] at this
              exact this.imp_right fun this => this.imp_right (List.mem_append_left _)
            · exact .inr (.inr (List.mem_append_right _ hn))
          · intro n hn
            simp only [applied_transition] at hn
            rcases List.mem_append.mp hn with hn | hn
            · exact Nat.lt_succ_of_lt (h.bounded n hn)
            · rw [List.mem_singleton.mp hn]
              exact Nat.lt_succ_self _
          · intro b hb
            refine h.waiting b ?_
            rwa [World.waiting_of_closed hc, ← World.waiting_of_closed (w := { w with
              holder := .free }) rfl]

/-! ## Lifecycle transactions -/

theorem World.Ledger.compensate (h : w.Ledger) {call : LifecycleCall R} {stopped : List String}
    (hh : w.holder = .compensating call stopped) :
    ((w.compensateStopped stopped).lifecycleFailed call).Ledger where
  toRecorded := by
    have hc : w.holder.closed = true := by rw [hh]; rfl
    refine (h.toRecorded.compensateStopped hc stopped).lifecycleFailed ?_ call
    rw [(compensateStopped_holder w stopped).1, hc]
  flush flush hs := by
    obtain ⟨-, hflush, hsaves, hnext, hpending⟩ := compensateStopped_holder w stopped
    have hok := h.flush flush (by rw [← hflush]; exact hs)
    refine ⟨hok.captured, fun n hn => ?_, fun b hb => ?_, fun hw => ?_, fun hb => ?_⟩
    · exact Nat.lt_of_lt_of_le (hok.bounded n hn) hnext
    · have hb : b ∈ (w.compensateStopped stopped).events.pending := by
        simpa [World.lifecycleFailed] using hb
      rcases hpending b hb with hb | hb
      · exact hok.later b hb
      · intro hmem
        have := hok.bounded _ hmem
        omega
    · show flush.saved ∈ (w.compensateStopped stopped).saves
      rw [hsaves]
      exact hok.saved hw
    · have := (hok.holder hb).1
      rw [World.mayFlush, hh] at this
      cases this
  holder := World.holderOk_of_plain rfl

theorem World.Ledger.lifecycleApply (h : w.Ledger) {call : LifecycleCall R}
    {shells : List String} (hh : w.holder = .finalizing call shells)
    (hfree : w.persistFree = true) (failure : Option LifecycleFailure) :
    (w.lifecycleApply call shells failure).Ledger := by
  have hq : w.Quiet := by
    have := h.holder
    rwa [World.HolderOk, hh] at this
  obtain ⟨hf, hc⟩ := persistFree_iff.mp hfree
  unfold World.lifecycleApply
  dsimp only
  split
  next index =>
    set finalized := finalizeAll w.durable.state.shells (shells.take index)
    set stopped : World R := { w with
      durable := w.durable.edit (.silent fun d =>
        { d with shells := (finalizeAll d.shells (shells.take index)).1 }) }
    have hrec : stopped.Recorded :=
      h.toRecorded.same ⟨rfl, rfl, rfl, applied_silent .., rfl, rfl, rfl, rfl, rfl, rfl⟩ hc hc
    have hrestored := restoreFinalized_holder stopped finalized.2
    have hc' : (stopped.restoreFinalized finalized.2).holder.closed = true := by
      rw [hrestored.1]
      exact hc
    have hcompensated := compensateStopped_holder (stopped.restoreFinalized finalized.2)
      (shells.drop (index + 1))
    refine World.Recorded.ledger ((((hrec.restoreFinalized hc _).compensateStopped hc'
      (shells.drop (index + 1)))).lifecycleFailed ?_ call) ?_ rfl
    · rw [hcompensated.1]
      exact hc'
    · exact hcompensated.2.1.trans (hrestored.2.trans hf)
  · split
    · exact h.openWindow hc hf rfl rfl rfl (fun _ => hq.1)
        (fun hk => by cases hk) ⟨rfl, rfl, rfl, rfl, rfl, rfl, rfl, rfl, rfl, rfl⟩ rfl
    · have hgiven : ∀ change : Durable R → Durable R, World.Recorded { w with
          durable := w.durable.edit (.silent change)
          next := w.next + 1
          begun := w.begun ++ [⟨w.next, call.committedEvents w.durable.state shells⟩]
          rolledBack := w.rolledBack ++ [w.next] } := fun change =>
        h.toRecorded.giveUp hc ⟨w.next, call.committedEvents w.durable.state shells⟩
          ⟨rfl, rfl, rfl, applied_silent .., rfl, rfl, rfl, rfl, rfl, rfl⟩ hc
      exact (hgiven _).restoreFailed hc hf _ call

/-! ## The end of a window -/

theorem World.Ledger.windowOk (h : w.Ledger) {window : Window R} (hh : w.holder = .window window) :
    w.WindowOk window := by
  have := h.holder
  rwa [World.HolderOk, hh] at this

/-- The batch of a window waits, unless it is that of a mutation that was rolled back. -/
theorem Holder.window_batches {window : Window R}
    (h : ∀ undo started, window.kind = .mutation undo started → window.written ≠ some false) :
    (Holder.window window).batches = [window.batch] := by
  unfold Holder.batches
  dsimp only
  split
  next undo started hk hw => exact absurd hw (h undo started hk)
  next => rfl

/-- A window whose save has failed gives its transition up. -/
theorem World.Ledger.abandon (h : w.Ledger) {window : Window R}
    (hh : w.holder = .window window) (hb : w.holder.batches = [window.batch])
    (hp : w.events.pending = [])
    {undo : List (Durable R → Durable R)} (hs : SameLedger { w with
      durable := w.durable.edit (.rolledBack window.batch.transition undo)
      rolledBack := w.rolledBack ++ [window.batch.transition] } u)
    (hu : u.holder.batches = []) : u.Recorded := by
  have hwin := h.windowOk hh
  have hqueued : w.queued = [window.batch] := by
    simp [World.queued, World.flushing, hwin.alone, hb, hp]
  have hflush : u.flush = none := hs.flush.trans hwin.alone
  have hpending : u.events.pending = [] := hs.pending.trans hp
  have huq : u.queued = [] := by
    simp [World.queued, World.flushing, hflush, hpending, hu]
  have hnum := h.numbered
  rw [hqueued] at hnum
  have hne : ∀ b ∈ w.published, b.transition ≠ window.batch.transition := fun b hb =>
    Nat.ne_of_lt (hnum.lt_last b hb)
  have happlied : u.durable.applied =
      w.durable.applied.filter (· ≠ window.batch.transition) :=
    hs.applied.trans (applied_rolledBack ..)
  have hd : ∀ n ∈ u.dead, n ∈ w.dead ∨ n = window.batch.transition := by
    rw [hs.dead]
    exact mem_dead_rolledBack w _
  refine ⟨?_, ?_, ?_, ?_, ?_, ?_, ?_, ?_, ?_, ?_⟩
  · rw [hs.log, hs.published]
    exact h.logged
  · rw [hs.next, hs.begun, hs.published, huq, List.append_nil]
    exact (hnum.sublist (List.sublist_append_left _ _)).kill hne hd
  · rw [hs.next]
    intro n hn
    rcases hd n hn with hn | rfl
    · exact h.dead n hn
    · exact hnum.below _ (by simp)
  · rw [hs.lost, happlied]
    intro n hn
    refine List.mem_filter.mpr ⟨h.lost n hn, ?_⟩
    -- the batch of the window is still to be published
    have hne : n ≠ window.batch.transition := fun he =>
      hnum.alive window.batch (by simp) (List.mem_append_right _ (he ▸ hn))
    simpa using hne
  · rw [hs.published]
    exact fun b hb => (World.saved_congr hs.saves _).mpr (h.saved b hb)
  · rw [hs.published, huq, List.append_nil, happlied]
    intro b hb
    exact List.mem_filter.mpr ⟨h.applied b (List.mem_append_left _ hb), by simpa using hne b hb⟩
  · rw [happlied, hs.lost]
    intro n hn
    obtain ⟨hn, hne⟩ := List.mem_filter.mp hn
    rcases h.accounted n hn with hsv | ⟨b, hb, rfl⟩ | hl
    · exact .inl ((World.saved_congr hs.saves n).mpr hsv)
    · rw [hqueued, List.mem_singleton] at hb
      simp [hb] at hne
    · exact .inr (.inr hl)
  · rw [happlied, hs.next]
    exact fun n hn => h.bounded n (List.mem_of_mem_filter hn)
  · rw [hs.next]
    exact fun n hn => h.savedBounded n ((World.saved_congr hs.saves n).mp hn)
  · intro b hb
    have := World.waiting_sublist.subset hb
    rw [huq] at this
    cases this

/-- The failed save of a mutation rolls it back, and its batch is gone. -/
theorem write_mutation (w : World R) {window : Window R} {undo : List (Durable R → Durable R)}
    {started : List StartedRun} (hk : window.kind = .mutation undo started) :
    w.write window false = { w with
      durable := (w.durable.writePersistedState window.saved false).edit
        (.rolledBack window.batch.transition undo)
      holder := .window { window with written := some false }
      readers := w.readers.map fun r =>
        if started.any (·.runId = r.runId) then { r with phase := r.phase.stop } else r
      rolledBack := w.rolledBack ++ [window.batch.transition] } := by
  unfold World.write
  rw [hk]
  rfl

/-- Any other answer is only noted. -/
theorem write_answered (w : World R) {window : Window R} {ok : Bool}
    (h : ¬ ∃ undo started, window.kind = .mutation undo started ∧ ok = false) :
    w.write window ok = { w with
      durable := w.durable.writePersistedState window.saved ok
      holder := .window { window with written := some ok }
      saves := if ok then w.saves ++ [window.saved] else w.saves } := by
  unfold World.write
  dsimp only
  split
  next undo started hk => exact absurd ⟨undo, started, hk, rfl⟩ h
  next => rfl

theorem World.Ledger.write (h : w.Ledger) {window : Window R} (hh : w.holder = .window window)
    (hw : window.written = none) (ok : Bool) : (w.write window ok).Ledger := by
  have hwin := h.windowOk hh
  have hbatches : w.holder.batches = [window.batch] := by
    rw [hh]
    exact Holder.window_batches fun _ _ _ => by simp [hw]
  have hwaiting : w.waiting = w.events.pending ++ [window.batch] := by
    rw [World.waiting, hwin.alone, hh]
    simp [hw, ← hh, hbatches]
  by_cases hroll : ∃ undo started, window.kind = .mutation undo started ∧ ok = false
  · obtain ⟨undo, started, hk, rfl⟩ := hroll
    rw [write_mutation w hk]
    have hp : w.events.pending = [] := hwin.quiet (by rw [hk]; simp)
    refine ⟨h.abandon hh hbatches hp ⟨rfl, rfl, rfl, rfl, rfl, rfl, rfl, rfl, rfl, rfl⟩ ?_, ?_, ?_⟩
    · simp [Holder.batches, hk]
    · simp [hwin.alone]
    · refine ⟨hwin.alone, ?_, hwin.bounded, by simp, fun _ => hp, hwin.exit⟩
      simp [hp, Holder.batches, hk]
  · rw [write_answered w hroll]
    have hbatches' : (Holder.window { window with written := some ok }).batches =
        [window.batch] := Holder.window_batches fun undo started hk hok => by
      cases hok
      exact hroll ⟨undo, started, hk, rfl⟩
    refine ⟨h.toRecorded.written rfl hwin.bounded rfl ?_ (writePersistedState_applied _ _ _)
      rfl rfl rfl rfl rfl ?_, ?_, ?_⟩
    · simp [World.queued, World.flushing, hbatches', hbatches]
    · rw [hwaiting]
      cases ok with
      | true => simp [World.waiting, hwin.alone]
      | false => simp [World.waiting, hwin.alone, hbatches']
    · simp [hwin.alone]
    · refine ⟨hwin.alone, ?_, hwin.bounded, fun ht => ?_, hwin.quiet, hwin.exit⟩
      · show ∀ b ∈ w.events.pending ++ (Holder.window _).batches,
          b.transition ∈ window.saved.applied
        rw [hbatches', ← hbatches]
        exact hwin.captured
      · cases ok with
        | true => exact List.mem_append_right _ (List.mem_singleton_self _)
        | false => cases ht

/-- The batches that a window has saved are appended, behind everything published so far. -/
theorem World.Ledger.publishWindow (h : w.Ledger) {window : Window R}
    (hh : w.holder = .window window) (hw : window.written = some true)
    (hlog : u.events.durableLog = w.events.durableLog ++ w.queued.flatMap (·.stamped))
    (hpub : u.published = w.published ++ w.queued)
    (hs : SameLedger { w with events := u.events, published := u.published } u)
    (hp : u.events.pending = []) (hholder : u.holder = .free) : u.Ledger := by
  have hwin := h.windowOk hh
  have hflush : u.flush = none := hs.flush.trans hwin.alone
  have huq : u.queued = [] := by
    simp [World.queued, World.flushing, hp, hflush, hholder, Holder.batches]
  have hsaved : ∀ b ∈ w.queued, w.Saved b.transition := by
    intro b hb
    refine ⟨window.saved, hwin.saved hw, hwin.captured b ?_⟩
    simpa [World.queued, World.flushing, hwin.alone] using hb
  refine World.Recorded.ledger ⟨?_, ?_, ?_, ?_, ?_, ?_, ?_, ?_, ?_, ?_⟩ hflush
    (by rw [hholder]; rfl)
  · rw [hlog, hpub, h.logged, List.flatMap_append]
  · rw [huq, hs.next, hs.begun, hs.dead, hpub, List.append_nil]
    exact h.numbered
  · rw [hs.dead, hs.next]
    exact h.dead
  · rw [hs.lost, hs.applied]
    exact h.lost
  · rw [hpub]
    intro b hb
    rw [World.saved_congr (w := w) hs.saves]
    rcases List.mem_append.mp hb with hb | hb
    · exact h.saved b hb
    · exact hsaved b hb
  · rw [hpub, huq, List.append_nil, hs.applied]
    exact h.applied
  · rw [hs.applied, hs.lost]
    intro n hn
    rw [World.saved_congr (w := w) hs.saves]
    rcases h.accounted n hn with hsv | ⟨b, hb, rfl⟩ | hl
    · exact .inl hsv
    · exact .inl (hsaved b hb)
    · exact .inr (.inr hl)
  · rw [hs.applied, hs.next]
    exact h.bounded
  · rw [hs.next]
    exact fun n hn => h.savedBounded n ((World.saved_congr hs.saves n).mp hn)
  · intro b hb
    have := World.waiting_sublist.subset hb
    rw [huq] at this
    cases this

theorem World.Ledger.finish (h : w.Ledger) {window : Window R} (hh : w.holder = .window window)
    {written : Bool} (hw : window.written = some written) : (w.finish window written).Ledger := by
  have hwin := h.windowOk hh
  have hqueued : w.queued = w.events.pending ++ w.holder.batches := by
    simp [World.queued, World.flushing, hwin.alone]
  have hbatches : (∀ undo started, window.kind = .mutation undo started → written = true) →
      w.holder.batches = [window.batch] := by
    intro hk
    rw [hh]
    refine Holder.window_batches fun undo started hm => ?_
    rw [hw, hk undo started hm]
    simp
  unfold World.finish
  split
  next undo started hk =>
    have hb := hbatches fun _ _ _ => rfl
    have hp := hwin.quiet (by rw [hk]; simp)
    exact h.publishWindow hh hw (by simp [hqueued, hb, hp]) (by simp [hqueued, hb, hp])
      ⟨rfl, rfl, rfl, rfl, rfl, rfl, rfl, rfl, rfl, rfl⟩ (by simpa using hp) rfl
  next undo started hk =>
    have hb : w.holder.batches = [] := by
      rw [hh]
      simp only [Holder.batches, hk, hw]
    have hp := hwin.quiet (by rw [hk]; simp)
    refine World.Recorded.ledger (h.toRecorded.congr (by simp) ?_ ?_ rfl rfl rfl rfl rfl rfl rfl)
      hwin.alone rfl
    · rw [hqueued, hb, World.queued]
      simp [World.flushing, hwin.alone, Holder.batches]
    · rw [World.waiting_of_closed (by rfl)]
      simp [hwin.alone, hp]
  next hk =>
    have hb := hbatches fun _ _ _ => rfl
    exact h.publishWindow hh hw (by simp [hqueued, hb]) (by simp [hqueued, hb])
      ⟨rfl, rfl, rfl, rfl, rfl, rfl, rfl, rfl, rfl, rfl⟩ (by simp) rfl
  next hk =>
    have hb := hbatches fun undo started hm => by rw [hk] at hm; cases hm
    -- the batch goes to the back of the queue
    have hpending : (w.events.queueDurableBatch window.batch).2.pending =
        w.events.pending ++ [window.batch] := by
      rw [EventTransaction.queueDurableBatch_pending, hwin.exit hk]
      rfl
    refine World.Recorded.ledger (h.toRecorded.congr (by simp) ?_ ?_ rfl rfl rfl rfl rfl rfl rfl)
      hwin.alone rfl
    · rw [hqueued, hb, World.queued]
      simp [World.flushing, hwin.alone, hpending, Holder.batches]
    · rw [World.waiting_of_closed (by rfl), World.waiting, hh]
      simp [hwin.alone, hw, hpending, ← hh, hb]
  next call rollbacks undo hk =>
    have hb := hbatches fun _ _ _ => rfl
    have hp := hwin.quiet (by rw [hk]; simp)
    exact h.publishWindow hh hw (by simp [hqueued, hb, hp]) (by simp [hqueued, hb, hp])
      ⟨rfl, rfl, rfl, rfl, rfl, rfl, rfl, rfl, rfl, rfl⟩ (by simpa using hp) rfl
  next call rollbacks undo hk =>
    have hb := hbatches fun undo started hm => by rw [hk] at hm; cases hm
    have hp := hwin.quiet (by rw [hk]; simp)
    have hundone : World.Recorded { w with
        holder := .free
        durable := w.durable.edit (.rolledBack window.batch.transition undo)
        rolledBack := w.rolledBack ++ [window.batch.transition] } :=
      h.abandon hh hb hp ⟨rfl, rfl, rfl, rfl, rfl, rfl, rfl, rfl, rfl, rfl⟩ rfl
    exact (hundone.restoreFailed rfl hwin.alone rollbacks call).same
      ⟨by simp, by simp, rfl, rfl, rfl, rfl, rfl, rfl, rfl, rfl⟩ rfl

/-! ## Runs -/

/-- Every step keeps the ledger. -/
theorem World.Ledger.step (h : w.Ledger) {a : Action R} (hs : w.step a = some u) : u.Ledger := by
  cases World.Step.of_step hs with
  | enter hh =>
      exact h.move ⟨rfl, rfl, rfl, rfl, rfl, rfl, rfl, rfl, rfl, rfl⟩ (by rw [hh]; rfl)
        (by simp [World.mayFlush, hh]) rfl
  | mutate op captured hh hfree hfresh => exact h.mutate hh hfree op _ captured
  | start op hh hfree hfresh => exact h.mutate hh hfree op _ true
  | flushBegin byHolder captured hfree hm => exact h.flushBegin hfree hm captured
  | flushWrite ok flush hf hw => exact h.flushWrite hf hw ok
  | flushFinish flush written hf hw => exact h.flushFinish hf hw
  | exitBegin index reader hh hr hphase =>
      exact h.move ⟨rfl, rfl, rfl, rfl, rfl, rfl, rfl, rfl, rfl, rfl⟩ (by rw [hh]; rfl)
        (by simp [World.mayFlush, hh]) rfl
  | exitRecord index code captured hh hfree => exact h.exitRecord hfree code captured
  | lifecycleBegin call shells hh hsel =>
      exact h.move ⟨rfl, rfl, rfl, rfl, rfl, rfl, rfl, rfl, rfl, rfl⟩ (by rw [hh]; rfl)
        (by simp [World.mayFlush, hh]) rfl
  | stopShell outcome call shells id remaining stopped hh hr =>
      obtain ⟨hsame, -⟩ := stopRuntime_same w id outcome
      exact h.move (hsame.trans ⟨rfl, rfl, rfl, rfl, rfl, rfl, rfl, rfl, rfl, rfl⟩)
        (by rw [hh]; rfl) (by simp [World.mayFlush, hh]) rfl
  | stopShellError outcome call shells id remaining stopped ended hh hr =>
      obtain ⟨hsame, -⟩ := stopRuntime_same w id outcome
      exact h.move (hsame.trans ⟨rfl, rfl, rfl, rfl, rfl, rfl, rfl, rfl, rfl, rfl⟩)
        (by rw [hh]; rfl) (by simp [World.mayFlush, hh]) rfl
  | compensate call stopped hh => exact h.compensate hh
  | lifecycleApply failure call shells hh hfree => exact h.lifecycleApply hh hfree failure
  | write ok window hh hw => exact h.write hh hw ok
  | finish window written hh hw => exact h.finish hh hw
  | publish kinds hk => exact h.same (publishRuntimeBatch_same (Prod.ext rfl rfl) w.readers) rfl
  | readOutput index reader revision hr hphase =>
      exact h.same ⟨rfl, rfl, rfl, applied_silent .., rfl, rfl, rfl, rfl, rfl, rfl⟩ rfl
  | leaveLoop a index reader hr hphase => exact h.same (.ofReaders w _) rfl
  | publishOutput index reader hr hphase u hu =>
      obtain ⟨hsame, hholder⟩ := publishFrom_same hu
      exact h.same hsame hholder
  | publishLast index reader hr hphase u hu =>
      obtain ⟨hsame, hholder⟩ := publishFrom_same hu
      exact h.same hsame hholder
  | checkpointTerminalHistory shellId runId history last hl =>
      exact h.same ⟨rfl, rfl, rfl, applied_silent .., rfl, rfl, rfl, rfl, rfl, rfl⟩ rfl
  | restartShell shellId hh hl =>
      exact h.same ⟨rfl, rfl, rfl, applied_silent .., rfl, rfl, rfl, rfl, rfl, rfl⟩ rfl

end Boomux.Daemon
