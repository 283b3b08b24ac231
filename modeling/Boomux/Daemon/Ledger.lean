import Boomux.Basic.Run
import Boomux.Daemon.Machine

/-!
# The ledger of transitions

Every change of the registry has a number. `World.Ledger` is the invariant that says, in every
reachable state, what became of each: it is published, or its batch waits in a running flush, in
the pending queue or in an open window, in increasing order; it is in memory exactly if nobody
rolled it back; and it is in a saved state unless its batch still waits for a save.
-/

set_option autoImplicit false

namespace Boomux.Daemon

open Rust Transition

variable {R : Type} {w u : World R}

/-! ## Numbered batches -/

/-- Batches with increasing numbers below `next`, all of them known and none of them dead. -/
structure Numbered (next : Nat) (begun : List Batch) (dead : List Nat) (bs : List Batch) :
    Prop where
  increasing : bs.Pairwise fun a b => a.transition < b.transition
  below : ∀ b ∈ bs, b.transition < next
  known : ∀ b ∈ bs, b ∈ begun
  alive : ∀ b ∈ bs, b.transition ∉ dead

section Numbered

variable {next : Nat} {begun : List Batch} {dead : List Nat} {bs cs : List Batch}

theorem Numbered.sublist (h : Numbered next begun dead bs) (hs : cs.Sublist bs) :
    Numbered next begun dead cs where
  increasing := h.increasing.sublist hs
  below b hb := h.below b (hs.subset hb)
  known b hb := h.known b (hs.subset hb)
  alive b hb := h.alive b (hs.subset hb)

/-- A transition that is given up does not disturb the others. -/
theorem Numbered.skip (h : Numbered next begun dead bs) (batch : Batch) :
    Numbered (next + 1) (begun ++ [batch]) dead bs where
  increasing := h.increasing
  below b hb := Nat.lt_succ_of_lt (h.below b hb)
  known b hb := List.mem_append_left _ (h.known b hb)
  alive := h.alive

/-- One more transition is dead. -/
theorem Numbered.kill (h : Numbered next begun dead bs) {n : Nat} {dead' : List Nat}
    (hn : ∀ b ∈ bs, b.transition ≠ n) (hd : ∀ m ∈ dead', m ∈ dead ∨ m = n) :
    Numbered next begun dead' bs where
  increasing := h.increasing
  below := h.below
  known := h.known
  alive b hb hdead := by
    rcases hd _ hdead with hdead | hdead
    · exact h.alive b hb hdead
    · exact hn b hb hdead

/-- The next transition reports its batch after all others. -/
theorem Numbered.snoc (h : Numbered next begun dead bs) (hdead : ∀ n ∈ dead, n < next)
    (kinds : List DaemonEventKind) :
    Numbered (next + 1) (begun ++ [⟨next, kinds⟩]) dead (bs ++ [⟨next, kinds⟩]) where
  increasing := by
    refine List.pairwise_append.mpr ⟨h.increasing, List.pairwise_singleton _ _, ?_⟩
    intro a ha b hb
    rw [List.mem_singleton.mp hb]
    exact h.below a ha
  below b hb := by
    rcases List.mem_append.mp hb with hb | hb
    · exact Nat.lt_succ_of_lt (h.below b hb)
    · rw [List.mem_singleton.mp hb]
      exact Nat.lt_succ_self next
  known b hb := by
    rcases List.mem_append.mp hb with hb | hb
    · exact List.mem_append_left _ (h.known b hb)
    · exact List.mem_append_right _ hb
  alive b hb hd := by
    rcases List.mem_append.mp hb with hb | hb
    · exact h.alive b hb hd
    · rw [List.mem_singleton.mp hb] at hd
      exact Nat.lt_irrefl _ (hdead _ hd)

/-- All others come before the last batch. -/
theorem Numbered.lt_last {batch : Batch} (h : Numbered next begun dead (bs ++ [batch])) :
    ∀ b ∈ bs, b.transition < batch.transition := fun b hb =>
  (List.pairwise_append.mp h.increasing).2.2 b hb batch (List.mem_singleton_self _)

end Numbered

/-! ## The invariant -/

/-- The batch of an open window, unless its mutation has been rolled back. -/
def Holder.batches : Holder R → List Batch
  | .window win =>
      match win.kind, win.written with
      | .mutation _ _, some false => []
      | _, _ => [win.batch]
  | _ => []

/-- The batches that are not published yet, in the order in which they will be. -/
def World.queued (w : World R) : List Batch :=
  w.flushing ++ w.events.pending ++ w.holder.batches

/-- The queued batches that still wait for a successful save. -/
def World.waiting (w : World R) : List Batch :=
  (match w.flush with
    | some flush => if flush.written = some true then [] else flush.pending
    | none => []) ++
  match w.holder with
  | .window win => if win.written = some true then [] else w.events.pending ++ w.holder.batches
  | _ => w.events.pending

theorem World.waiting_sublist : w.waiting.Sublist w.queued := by
  rw [World.queued, List.append_assoc]
  refine List.Sublist.append ?_ ?_
  · unfold World.flushing
    cases w.flush with
    | none => exact List.Sublist.refl _
    | some flush =>
        show (if flush.written = some true then [] else flush.pending).Sublist flush.pending
        split
        · exact List.nil_sublist _
        · exact List.Sublist.refl _
  · split
    · split
      · exact List.nil_sublist _
      · exact List.Sublist.refl _
    · exact List.sublist_append_left _ _

/-- The transitions whose batches will never be published. -/
def World.dead (w : World R) : List Nat := w.rolledBack ++ w.lost

/-- Whether a saved state contains a transition. -/
def World.Saved (w : World R) (n : Nat) : Prop := ∃ g ∈ w.saves, n ∈ g.applied

/-- The part of the invariant that does not depend on where the threads are. -/
structure World.Recorded (w : World R) : Prop where
  logged : w.events.durableLog = w.published.flatMap (·.stamped)
  numbered : Numbered w.next w.begun w.dead (w.published ++ w.queued)
  dead : ∀ n ∈ w.dead, n < w.next
  lost : ∀ n ∈ w.lost, n ∈ w.durable.applied
  saved : ∀ b ∈ w.published, w.Saved b.transition
  applied : ∀ b ∈ w.published ++ w.queued, b.transition ∈ w.durable.applied
  accounted : ∀ n ∈ w.durable.applied,
    w.Saved n ∨ (∃ b ∈ w.queued, b.transition = n) ∨ n ∈ w.lost
  bounded : ∀ n ∈ w.durable.applied, n < w.next
  savedBounded : ∀ n, w.Saved n → n < w.next
  waiting : ∀ b ∈ w.waiting, ¬ w.Saved b.transition

/-- What a running flush has captured. -/
structure World.FlushOk (w : World R) (flush : Flush R) : Prop where
  captured : ∀ b ∈ flush.pending, b.transition ∈ flush.saved.applied
  bounded : ∀ n ∈ flush.saved.applied, n < w.next
  later : ∀ b ∈ w.events.pending, b.transition ∉ flush.saved.applied
  saved : flush.written = some true → flush.saved ∈ w.saves
  holder : flush.byHolder = true → w.mayFlush = true ∧ w.events.pending = []

/-- Nothing waits to be published. -/
def World.Quiet (w : World R) : Prop := w.events.pending = [] ∧ w.flushing = []

/-- What an open window has captured. -/
structure World.WindowOk (w : World R) (window : Window R) : Prop where
  alone : w.flush = none
  captured : ∀ b ∈ w.events.pending ++ w.holder.batches, b.transition ∈ window.saved.applied
  bounded : ∀ n ∈ window.saved.applied, n < w.next
  saved : window.written = some true → window.saved ∈ w.saves
  quiet : window.kind ≠ .runExit → w.events.pending = []
  exit : window.kind = .runExit → window.batch.kinds.isEmpty = false

/-- What the position of the holder says. -/
def World.HolderOk (w : World R) : Prop :=
  match w.holder with
  | .flushed | .finalizing _ _ => w.Quiet
  | .window window => w.WindowOk window
  | _ => True

structure World.Ledger (w : World R) : Prop extends World.Recorded w where
  flush : ∀ flush, w.flush = some flush → w.FlushOk flush
  holder : w.HolderOk

theorem World.Loaded.queued (h : w.Loaded) : w.queued = [] := by
  simp [World.queued, World.flushing, h.flush, EventTransaction.pending, h.transition, h.holder,
    TransitionState.idle, Holder.batches]

theorem World.Loaded.applied (h : w.Loaded) : w.durable.applied = [] := by
  rw [DurableRegistry.applied, h.edits]
  rfl

theorem World.Loaded.ledger (h : w.Loaded) : w.Ledger where
  logged := by
    rw [h.published]
    refine List.filterMap_eq_nil_iff.mpr fun e he => ?_
    obtain ⟨e', he', rfl⟩ := List.mem_map.mp he
    simp [DaemonEvent.stamp, h.log e' he']
  numbered := by
    rw [h.published, h.queued]
    exact ⟨.nil, by simp, by simp, by simp⟩
  dead := by simp [World.dead, h.rolledBack, h.lost]
  lost := by simp [h.lost]
  saved := by simp [h.published]
  applied := by simp [h.published, h.queued]
  accounted := by simp [h.applied]
  bounded := by simp [h.applied]
  savedBounded := by simp [World.Saved, h.saves]
  waiting := by simp [World.Saved, h.saves]
  flush := by simp [h.flush]
  holder := by simp [World.HolderOk, h.holder]

/-! ## Steps that the ledger does not see -/

/-- `u` differs from `w` in nothing that the ledger is about, the holder apart. -/
structure SameLedger (w u : World R) : Prop where
  log : u.events.durableLog = w.events.durableLog
  pending : u.events.pending = w.events.pending
  flush : u.flush = w.flush
  applied : u.durable.applied = w.durable.applied
  published : u.published = w.published
  saves : u.saves = w.saves
  next : u.next = w.next
  begun : u.begun = w.begun
  rolledBack : u.rolledBack = w.rolledBack
  lost : u.lost = w.lost

theorem SameLedger.refl (w : World R) : SameLedger w w :=
  ⟨rfl, rfl, rfl, rfl, rfl, rfl, rfl, rfl, rfl, rfl⟩

theorem SameLedger.trans {v : World R} (h : SameLedger w u) (h' : SameLedger u v) :
    SameLedger w v :=
  ⟨h'.log.trans h.log, h'.pending.trans h.pending, h'.flush.trans h.flush,
    h'.applied.trans h.applied, h'.published.trans h.published, h'.saves.trans h.saves,
    h'.next.trans h.next, h'.begun.trans h.begun, h'.rolledBack.trans h.rolledBack,
    h'.lost.trans h.lost⟩

theorem SameLedger.dead (h : SameLedger w u) : u.dead = w.dead := by
  rw [World.dead, h.rolledBack, h.lost, World.dead]

theorem SameLedger.flushing (h : SameLedger w u) : u.flushing = w.flushing := by
  simp [World.flushing, h.flush]

theorem World.saved_congr (hs : u.saves = w.saves) (n : Nat) : u.Saved n ↔ w.Saved n := by
  simp [World.Saved, hs]

theorem World.dead_congr (hr : u.rolledBack = w.rolledBack) (hl : u.lost = w.lost) :
    u.dead = w.dead := by
  rw [World.dead, hr, hl, World.dead]

/-- The same ledger, with the same batches in the queue and waiting for a save. -/
theorem World.Recorded.congr (h : w.Recorded) (hl : u.events.durableLog = w.events.durableLog)
    (hq : u.queued = w.queued) (hw : ∀ b ∈ u.waiting, b ∈ w.waiting)
    (ha : u.durable.applied = w.durable.applied) (hp : u.published = w.published)
    (hs : u.saves = w.saves) (hn : u.next = w.next) (hb : u.begun = w.begun)
    (hr : u.rolledBack = w.rolledBack) (hlost : u.lost = w.lost) : u.Recorded where
  logged := by rw [hl, hp, h.logged]
  numbered := by
    rw [hn, hb, World.dead_congr hr hlost, hp, hq]
    exact h.numbered
  dead := by
    rw [World.dead_congr hr hlost, hn]
    exact h.dead
  lost := by
    rw [hlost, ha]
    exact h.lost
  saved := by
    rw [hp]
    exact fun b hmem => (World.saved_congr hs _).mpr (h.saved b hmem)
  applied := by
    rw [hp, hq, ha]
    exact h.applied
  accounted := by
    rw [hq, ha, hlost]
    exact fun n hmem => (h.accounted n hmem).imp_left (World.saved_congr hs n).mpr
  bounded := by
    rw [ha, hn]
    exact h.bounded
  savedBounded := by
    rw [hn]
    exact fun n hmem => h.savedBounded n ((World.saved_congr hs n).mp hmem)
  waiting := fun b hmem hsaved => h.waiting b (hw b hmem) ((World.saved_congr hs _).mp hsaved)

/-- Whether the ledger says nothing about a holder here. -/
def Holder.plain : Holder R → Bool
  | .flushed | .finalizing _ _ | .window _ => false
  | _ => true

/-- Whether no window is open. -/
def Holder.closed : Holder R → Bool
  | .window _ => false
  | _ => true

theorem Holder.plain_closed {holder : Holder R} (h : holder.plain = true) :
    holder.closed = true := by
  cases holder with
  | window win => cases h
  | _ => rfl

theorem Holder.closed_batches {holder : Holder R} (h : holder.closed = true) :
    holder.batches = [] := by
  cases holder with
  | window win => cases h
  | _ => rfl

/-- Without a window, the pending batches wait. -/
theorem World.waiting_of_closed (h : w.holder.closed = true) :
    w.waiting = (match w.flush with
      | some flush => if flush.written = some true then [] else flush.pending
      | none => []) ++ w.events.pending := by
  unfold World.waiting
  cases hh : w.holder with
  | window win => rw [hh] at h; cases h
  | _ => rfl

theorem World.holderOk_of_plain (h : w.holder.plain = true) : w.HolderOk := by
  unfold World.HolderOk
  split <;> simp_all [Holder.plain]

theorem World.Recorded.same (h : w.Recorded) (hs : SameLedger w u)
    (hw : w.holder.closed = true) (hu : u.holder.closed = true) : u.Recorded := by
  refine h.congr hs.log ?_ ?_ hs.applied hs.published hs.saves hs.next hs.begun hs.rolledBack
    hs.lost
  · rw [World.queued, hs.flushing, hs.pending, Holder.closed_batches hu, World.queued,
      Holder.closed_batches hw]
  · rw [World.waiting_of_closed hu, World.waiting_of_closed hw, hs.flush, hs.pending]
    exact fun b hb => hb

/-- A step of another thread. -/
theorem World.Ledger.same (h : w.Ledger) (hs : SameLedger w u) (hh : u.holder = w.holder) :
    u.Ledger where
  toRecorded := by
    refine h.toRecorded.congr hs.log ?_ ?_ hs.applied hs.published hs.saves hs.next hs.begun
      hs.rolledBack hs.lost
    · rw [World.queued, hs.flushing, hs.pending, hh, World.queued]
    · rw [World.waiting, hs.flush, hs.pending, hh, World.waiting]
      exact fun b hb => hb
  flush flush hf := by
    have hok := h.flush flush (by rw [← hs.flush, hf])
    refine ⟨hok.captured, ?_, ?_, ?_, fun hb => ?_⟩
    · rw [hs.next]
      exact hok.bounded
    · rw [hs.pending]
      exact hok.later
    · rw [hs.saves]
      exact hok.saved
    · rw [World.mayFlush, hh, hs.pending]
      exact hok.holder hb
  holder := by
    have := h.holder
    unfold World.HolderOk at this ⊢
    rw [hh]
    split at this
    · exact ⟨by rw [hs.pending]; exact this.1, by rw [hs.flushing]; exact this.2⟩
    · exact ⟨by rw [hs.pending]; exact this.1, by rw [hs.flushing]; exact this.2⟩
    · refine ⟨by rw [hs.flush]; exact this.alone, ?_, by rw [hs.next]; exact this.bounded,
        by rw [hs.saves]; exact this.saved, ?_, this.exit⟩
      · rw [hs.pending, hh]
        exact this.captured
      · rw [hs.pending]
        exact this.quiet
    · trivial

/-- The holder moves on, from where it may not flush to where the ledger says nothing. -/
theorem World.Ledger.move (h : w.Ledger) (hs : SameLedger w u) (hw : w.holder.plain = true)
    (hm : w.mayFlush = false) (hu : u.holder.plain = true) : u.Ledger where
  toRecorded := h.toRecorded.same hs (Holder.plain_closed hw) (Holder.plain_closed hu)
  flush flush hf := by
    have hok := h.flush flush (by rw [← hs.flush, hf])
    refine ⟨hok.captured, ?_, ?_, by rw [hs.saves]; exact hok.saved, fun hb => ?_⟩
    · rw [hs.next]
      exact hok.bounded
    · rw [hs.pending]
      exact hok.later
    · have := (hok.holder hb).1
      rw [hm] at this
      cases this
  holder := World.holderOk_of_plain hu

/-- A world in which nobody flushes and the ledger says nothing about the holder. -/
theorem World.Recorded.ledger (h : w.Recorded) (hf : w.flush = none)
    (hp : w.holder.plain = true) : w.Ledger where
  toRecorded := h
  flush flush hs := by
    rw [hf] at hs
    cases hs
  holder := World.holderOk_of_plain hp

theorem persistFree_iff : w.persistFree = true ↔ w.flush = none ∧ w.holder.closed = true := by
  unfold World.persistFree
  cases w.holder <;> simp [Holder.closed]

/-! ### Readers -/

theorem setPhase_same (w : World R) (runId : String) (phase : ReaderPhase → ReaderPhase) :
    SameLedger w (w.setPhase runId phase) :=
  ⟨rfl, rfl, rfl, rfl, rfl, rfl, rfl, rfl, rfl, rfl⟩

theorem SameLedger.ofReaders (w : World R) (readers : List Reader) :
    SameLedger w { w with readers := readers } :=
  ⟨rfl, rfl, rfl, rfl, rfl, rfl, rfl, rfl, rfl, rfl⟩

/-- A runtime batch is published or queued; the durable batches stay. -/
theorem publishRuntimeBatch_same {kinds : List DaemonEventKind} {events : EventTransaction}
    {result : Except IoError Unit} (h : w.events.publishRuntimeBatch kinds = (result, events))
    (readers : List Reader) : SameLedger w { w with events := events, readers := readers } where
  log := by
    have := w.events.publishRuntimeBatch_durableLog kinds
    rwa [h] at this
  pending := by
    have := w.events.publishRuntimeBatch_pending kinds
    rwa [h] at this
  flush := rfl
  applied := rfl
  published := rfl
  saves := rfl
  next := rfl
  begun := rfl
  rolledBack := rfl
  lost := rfl

theorem publishFrom_same {index : Nat} {ok failed : Reader → Reader}
    (h : w.publishFrom index ok failed = some u) : SameLedger w u ∧ u.holder = w.holder := by
  obtain ⟨reader, -, rfl⟩ := Option.map_eq_some_iff.mp h
  split
  · exact ⟨.ofReaders w _, rfl⟩
  · split
    next hp => exact ⟨publishRuntimeBatch_same hp _, rfl⟩
    next => exact ⟨.ofReaders w _, rfl⟩

theorem pauseReader_same (w : World R) (runId : String) :
    SameLedger w (w.pauseReader runId).2 ∧ (w.pauseReader runId).2.holder = w.holder := by
  unfold World.pauseReader
  split
  · exact ⟨.refl w, rfl⟩
  · split
    · exact ⟨.refl w, rfl⟩
    · split
      · exact ⟨.refl w, rfl⟩
      · split
        · exact ⟨.refl w, rfl⟩
        · split
          next hp => exact ⟨publishRuntimeBatch_same hp _, rfl⟩
          next => exact ⟨setPhase_same w _ _, rfl⟩
      · exact ⟨.refl w, rfl⟩

theorem stopRun_same (w : World R) (runId : String) (outcome : StopOutcome) :
    SameLedger w (w.stopRun runId outcome).2 ∧
      (w.stopRun runId outcome).2.holder = w.holder := by
  unfold World.stopRun
  split
  · exact ⟨.refl w, rfl⟩
  · obtain ⟨hsame, hholder⟩ := pauseReader_same w runId
    split
    next hp =>
      rw [hp] at hsame hholder
      exact ⟨hsame, hholder⟩
    next hp =>
      rw [hp] at hsame hholder
      split
      · exact ⟨hsame.trans (setPhase_same _ _ _), hholder⟩
      · exact ⟨hsame.trans (setPhase_same _ _ _), hholder⟩
      · exact ⟨hsame, hholder⟩

theorem stopRuntime_same (w : World R) (shellId : String) (outcome : StopOutcome) :
    SameLedger w (w.stopRuntime shellId outcome).2 ∧
      (w.stopRuntime shellId outcome).2.holder = w.holder := by
  unfold World.stopRuntime
  split
  · exact stopRun_same w _ outcome
  · exact stopRun_same w _ outcome
  · exact ⟨.refl w, rfl⟩

end Boomux.Daemon
