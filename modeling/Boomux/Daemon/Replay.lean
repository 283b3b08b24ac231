import Boomux.Daemon.LedgerPaths

/-!
# What a captured state contains

The registry is what its edits make of the state it was loaded with, and a captured state is what
the edits until then make of it (`World.Replayed`). A path may change the registry only by an edit
and capture it only as it is (`World.Replays`), so both hold in every reachable world.
-/

set_option autoImplicit false

namespace Boomux.Daemon

open Rust Transition

variable {R : Type} {d₀ : Durable R} {w u v : World R}

/-! ## Captured states -/

/-- The state that an open window has captured. -/
def Holder.captured : Holder R → List (PersistenceGeneration R)
  | .window win => [win.saved]
  | _ => []

/-- The captured states: those that were saved, and those of a running flush and an open window. -/
def World.captures (w : World R) : List (PersistenceGeneration R) :=
  w.saves ++ (w.flush.map (·.saved)).toList ++ w.holder.captured

/-- The registry, and every captured state, is what its edits make of `d₀`. -/
structure World.Replayed (w : World R) (d₀ : Durable R) : Prop where
  durable : w.durable.state = replay d₀ w.durable.edits
  captures : ∀ g ∈ w.captures, g.state = replay d₀ g.edits

/-- The state of a generation is what edits make of `d₀`: the mutation of transition `n` is one of
them, and none that comes later rolls it back. -/
structure PersistenceGeneration.Contains (g : PersistenceGeneration R) (d₀ : Durable R)
    (n : Nat) : Prop where
  state : g.state = replay d₀ g.edits
  mutation : ∃ before mutation after, g.edits = before ++ .transition n mutation :: after ∧
    ∀ undo, .rolledBack n undo ∉ after

theorem PersistenceGeneration.Contains.mem {g : PersistenceGeneration R} {n : Nat}
    (h : g.Contains d₀ n) : n ∈ g.applied := by
  obtain ⟨before, mutation, after, hedits, hafter⟩ := h.mutation
  have hlast : n ∈ transitions (before ++ [.transition n mutation]) := by simp
  have hmem := mem_transitions_append hlast hafter
  rwa [List.append_assoc, List.singleton_append, ← hedits] at hmem

/-- A state that contains transition `n` has been saved. -/
theorem World.Replayed.saved (h : w.Replayed d₀) {n : Nat} (hs : w.Saved n) :
    ∃ g ∈ w.saves, g.Contains d₀ n := by
  obtain ⟨g, hg, hn⟩ := hs
  refine ⟨g, hg, h.captures g ?_, exists_of_mem_transitions hn⟩
  exact List.mem_append_left _ (List.mem_append_left _ hg)

/-! ## Changes of the registry -/

/-- `e` is the registry after some edits of `d`. -/
def Edited (d e : DurableRegistry R) : Prop :=
  ∃ edits, e.edits = d.edits ++ edits ∧ e.state = replay d.state edits

theorem Edited.same {d e : DurableRegistry R} (he : e.edits = d.edits) (hs : e.state = d.state) :
    Edited d e :=
  ⟨[], by rw [he, List.append_nil], hs⟩

theorem Edited.edit {d e : DurableRegistry R} (edit : Edit R) (he : e.edits = d.edits ++ [edit])
    (hs : e.state = edit.apply d.state) : Edited d e :=
  ⟨[edit], he, hs⟩

theorem Edited.trans {d e f : DurableRegistry R} (h : Edited d e) (h' : Edited e f) :
    Edited d f := by
  obtain ⟨edits, he, hs⟩ := h
  obtain ⟨edits', he', hs'⟩ := h'
  refine ⟨edits ++ edits', ?_, ?_⟩
  · rw [he', he, List.append_assoc]
  · rw [hs', hs, replay, replay, replay, List.foldl_append]

/-- The answer of the writer changes only the dirty flag. -/
theorem Edited.written (d : DurableRegistry R) (g : PersistenceGeneration R) (ok : Bool) :
    Edited d (d.writePersistedState g ok) :=
  .same (writePersistedState_edits d g ok) (writePersistedState_state d g ok)

/-- `u` comes from `w` by edits of the registry, and whatever is captured in between is the
registry as it is in `u`. -/
structure World.Replays (w u : World R) : Prop where
  durable : Edited w.durable u.durable
  captures : ∀ g ∈ u.captures, g ∈ w.captures ∨ g = u.durable.capturePersistedState

theorem World.Replayed.step (h : w.Replayed d₀) (hr : w.Replays u) : u.Replayed d₀ := by
  obtain ⟨edits, he, hs⟩ := hr.durable
  have hu : u.durable.state = replay d₀ u.durable.edits := by
    rw [hs, h.durable, he, replay, replay, replay, List.foldl_append]
  refine ⟨hu, fun g hg => ?_⟩
  rcases hr.captures g hg with hg | rfl
  · exact h.captures g hg
  · exact hu

/-- A path that captures nothing. -/
theorem World.Replays.of (hd : Edited w.durable u.durable) (hs : u.saves = w.saves)
    (hf : u.flush = w.flush ∨ u.flush = none) (hh : u.holder.captured = [] ∨
      u.holder.captured = w.holder.captured) : w.Replays u where
  durable := hd
  captures g hg := by
    left
    simp only [World.captures, List.mem_append, hs] at hg ⊢
    rcases hg with (hg | hg) | hg
    · exact .inl (.inl hg)
    · rcases hf with hf | hf
      · exact .inl (.inr (hf ▸ hg))
      · rw [hf] at hg
        cases hg
    · rcases hh with hh | hh
      · rw [hh] at hg
        cases hg
      · exact .inr (hh ▸ hg)

/-- A window opens with the registry as it is. -/
theorem World.Replays.openWindow {window : Window R} (hd : Edited w.durable u.durable)
    (hs : u.saves = w.saves) (hf : u.flush = w.flush) (hh : u.holder = Holder.window window)
    (hsaved : window.saved = u.durable.capturePersistedState) : w.Replays u where
  durable := hd
  captures g hg := by
    simp only [World.captures, List.mem_append, hs, hf, hh, Holder.captured, hsaved,
      List.mem_singleton] at hg ⊢
    rcases hg with hg | hg
    · exact .inl (.inl hg)
    · exact .inr hg

/-! ## The paths -/

theorem pauseReader_durable (w : World R) (runId : String) :
    (w.pauseReader runId).2.durable = w.durable := by
  unfold World.pauseReader
  split
  · rfl
  · split
    · rfl
    · split
      · rfl
      · split
        · rfl
        · split <;> rfl
      · rfl

theorem stopRuntime_durable (w : World R) (shellId : String) (outcome : StopOutcome) :
    (w.stopRuntime shellId outcome).2.durable = w.durable := by
  have hstop (runId : String) : (w.stopRun runId outcome).2.durable = w.durable := by
    have hpause := pauseReader_durable w runId
    unfold World.stopRun
    split
    · rfl
    · split
      next hp =>
        rw [hp] at hpause
        exact hpause
      next hp =>
        rw [hp] at hpause
        split <;> exact hpause
  unfold World.stopRuntime
  split
  · exact hstop _
  · exact hstop _
  · rfl

/-- A batch is queued behind its mutation, or the mutation has no events. -/
theorem queueDurableBatch_edited (shells : Shells) {mutation : Mutation R}
    (hm : mutation.apply w.durable.state = { w.durable.state with shells := shells })
    (kinds : List DaemonEventKind) :
    Edited w.durable ((w.drained shells).queueDurableBatch mutation kinds).durable := by
  cases kinds with
  | nil => exact .edit (.silent mutation.apply) rfl hm.symm
  | cons kind kinds => exact .edit (.transition w.next mutation) rfl hm.symm

theorem restoreFinalized_edited (w : World R) (rollbacks : List (String × StopRollback)) :
    Edited w.durable (w.restoreFinalized rollbacks).durable :=
  queueDurableBatch_edited _ rfl _

theorem compensateStopped_edited (w : World R) (shells : List String) :
    Edited w.durable (w.compensateStopped shells).durable :=
  queueDurableBatch_edited _ rfl _

theorem queueDurableBatch_saves (w : World R) (mutation : Mutation R)
    (kinds : List DaemonEventKind) : (w.queueDurableBatch mutation kinds).saves = w.saves := by
  cases kinds <;> rfl

theorem restoreFinalized_saves (w : World R) (rollbacks : List (String × StopRollback)) :
    (w.restoreFinalized rollbacks).saves = w.saves :=
  queueDurableBatch_saves ..

/-- The end of a lifecycle transaction that has failed. -/
theorem World.Replays.lifecycleFailed (hd : Edited w.durable u.durable) (hs : u.saves = w.saves)
    (hf : u.flush = w.flush) (call : LifecycleCall R) : w.Replays (u.lifecycleFailed call) :=
  .of hd hs (.inl hf) (.inl rfl)

/-- The stopped Shells are restored, and the transaction ends. -/
theorem restoreFailed_replays (hd : Edited w.durable u.durable) (hs : u.saves = w.saves)
    (hf : u.flush = w.flush) (rollbacks : List (String × StopRollback)) (call : LifecycleCall R) :
    w.Replays ((u.restoreFinalized rollbacks).lifecycleFailed call) :=
  .lifecycleFailed (hd.trans (restoreFinalized_edited u rollbacks))
    ((restoreFinalized_saves u rollbacks).trans hs)
      ((restoreFinalized_holder u rollbacks).2.trans hf)
    call

theorem mutate_replays (w : World R) (op : Operation R) (reserve : Nat → Except IoError Unit)
    (captured : Bool) : w.Replays (w.mutate op reserve captured) := by
  have hundone : Edited w.durable
      (w.durable.edit (.silent fun d => rollback (op.run d).undo (op.run d).state)) :=
    .edit _ rfl rfl
  unfold World.mutate
  dsimp only
  split
  · exact .of hundone rfl (.inl rfl) (.inl rfl)
  · exact .of hundone rfl (.inl rfl) (.inl rfl)
  · split
    · exact .of hundone rfl (.inl rfl) (.inl rfl)
    · split
      · exact .openWindow (.edit (.transition w.next (.operation op)) rfl rfl) rfl rfl rfl rfl
      · exact .of hundone rfl (.inl rfl) (.inl rfl)

theorem flushReturned_replays (hd : Edited w.durable u.durable) (hs : u.saves = w.saves)
    (hf : u.flush = none) (hh : u.holder = w.holder) (byHolder ok : Bool) :
    w.Replays (u.flushReturned byHolder ok) := by
  unfold World.flushReturned
  split
  · refine .of hd hs (.inr hf) (.inl ?_)
    cases ok <;> rfl
  · refine .of hd hs (.inr hf) (.inl ?_)
    cases ok <;> rfl
  · exact .of hd hs (.inr hf) (.inr (by rw [hh]))

theorem flushBegin_replays (hfree : w.persistFree = true) (byHolder captured : Bool) :
    w.Replays (w.flushBegin byHolder captured) := by
  have hf := (persistFree_iff.mp hfree).1
  have hsame : Edited w.durable w.durable := .same rfl rfl
  unfold World.flushBegin
  dsimp only
  split
  · exact flushReturned_replays hsame rfl hf rfl _ _
  · split
    · refine ⟨hsame, fun g hg => ?_⟩
      simp only [World.captures, List.mem_append, Option.map_some, Option.toList_some,
        List.mem_singleton] at hg ⊢
      rcases hg with (hg | hg) | hg
      · exact .inl (.inl (.inl hg))
      · exact .inr hg
      · exact .inl (.inr hg)
    · exact flushReturned_replays hsame rfl hf rfl _ _

theorem flushFinish_replays (w : World R) (flush : Flush R) (written : Bool) :
    w.Replays (w.flushFinish flush written) := by
  have hsame : Edited w.durable w.durable := .same rfl rfl
  unfold World.flushFinish
  dsimp only
  split
  · split
    · refine flushReturned_replays ?_ ?_ ?_ ?_ _ _
      · exact hsame
      all_goals rfl
    · refine flushReturned_replays ?_ ?_ ?_ ?_ _ _
      · exact hsame
      all_goals rfl
  · refine flushReturned_replays ?_ ?_ ?_ ?_ _ _
    · exact hsame
    all_goals rfl

theorem exitRecord_replays (w : World R) (index : Nat) (code : Option Nat) (captured : Bool) :
    w.Replays (w.exitRecord index code captured) := by
  have hsame : Edited w.durable w.durable := .same rfl rfl
  unfold World.exitRecord
  dsimp only
  split
  · exact .of hsame rfl (.inl rfl) (.inl rfl)
  next reader hreader =>
    split
    · split
      · exact .of hsame rfl (.inl rfl) (.inl rfl)
      · exact .of hsame rfl (.inl rfl) (.inl rfl)
    · split
      · exact .of hsame rfl (.inl rfl) (.inl rfl)
      · have hexit : Edited w.durable (w.durable.edit
            (.transition w.next (.runExit reader.shellId reader.runId code))) := .edit _ rfl rfl
        split
        · exact .openWindow hexit rfl rfl rfl rfl
        · exact .of hexit rfl (.inl rfl) (.inl rfl)

theorem compensate_replays (w : World R) (call : LifecycleCall R) (stopped : List String) :
    w.Replays ((w.compensateStopped stopped).lifecycleFailed call) :=
  .lifecycleFailed (compensateStopped_edited w stopped) (compensateStopped_holder w stopped).2.2.1
    (compensateStopped_holder w stopped).2.1 call

theorem lifecycleApply_replays (w : World R) (call : LifecycleCall R) (shells : List String)
    (failure : Option LifecycleFailure) :
    w.Replays (w.lifecycleApply call shells failure) := by
  unfold World.lifecycleApply
  dsimp only
  split
  next index =>
    set stopped : World R := { w with
      durable := w.durable.edit (.silent fun d =>
        { d with shells := (finalizeAll d.shells (shells.take index)).1 }) }
    set rollbacks := (finalizeAll w.durable.state.shells (shells.take index)).2
    have hstopped : Edited w.durable stopped.durable := .edit _ rfl rfl
    obtain ⟨-, hflush, hsaves, -⟩ :=
      compensateStopped_holder (stopped.restoreFinalized rollbacks) (shells.drop (index + 1))
    exact .lifecycleFailed
      ((hstopped.trans (restoreFinalized_edited stopped _)).trans (compensateStopped_edited _ _))
      (hsaves.trans (restoreFinalized_saves stopped _))
      (hflush.trans (restoreFinalized_holder stopped _).2) call
  · split
    · exact .openWindow (.edit (.transition w.next (.lifecycle call shells)) rfl rfl) rfl rfl rfl
        rfl
    · refine restoreFailed_replays ?_ ?_ ?_ _ call
      · exact .edit (.silent _) rfl rfl
      all_goals rfl

theorem write_replays {window : Window R} (hh : w.holder = .window window) (ok : Bool) :
    w.Replays (w.write window ok) := by
  have hwritten := Edited.written w.durable window.saved ok
  have hcaptures : ∀ u : World R, (u.saves = if ok then w.saves ++ [window.saved] else w.saves) →
      u.flush = w.flush → u.holder.captured = [window.saved] →
      ∀ g ∈ u.captures, g ∈ w.captures := by
    intro u hs hf hc g hg
    rw [World.captures, hf, hc] at hg
    rw [World.captures, hh, Holder.captured]
    simp only [List.mem_append, List.mem_singleton] at hg ⊢
    rcases hg with (hg | hg) | hg
    · rw [hs] at hg
      cases ok with
      | true => exact (List.mem_append.mp hg).imp .inl List.mem_singleton.mp
      | false => exact .inl (.inl hg)
    · exact .inl (.inr hg)
    · exact .inr hg
  by_cases hroll : ∃ undo started, window.kind = .mutation undo started ∧ ok = false
  · obtain ⟨undo, started, hk, rfl⟩ := hroll
    rw [write_mutation w hk]
    refine ⟨hwritten.trans (.edit (.rolledBack window.batch.transition undo) rfl rfl),
      fun g hg => .inl (hcaptures _ ?_ ?_ ?_ g hg)⟩ <;> rfl
  · rw [write_answered w hroll]
    refine ⟨hwritten, fun g hg => .inl (hcaptures _ ?_ ?_ ?_ g hg)⟩ <;> rfl

theorem finish_replays (w : World R) (window : Window R) (written : Bool) :
    w.Replays (w.finish window written) := by
  have hsame : Edited w.durable w.durable := .same rfl rfl
  unfold World.finish
  split
  · exact .of hsame rfl (.inl rfl) (.inl rfl)
  · exact .of hsame rfl (.inl rfl) (.inl rfl)
  · exact .of hsame rfl (.inl rfl) (.inl rfl)
  · exact .of hsame rfl (.inl rfl) (.inl rfl)
  · exact .of hsame rfl (.inl rfl) (.inl rfl)
  next call rollbacks undo hk =>
    have hundone : Edited w.durable (w.durable.edit (.rolledBack window.batch.transition undo)) :=
      .edit _ rfl rfl
    have hfailed : w.Replays (World.lifecycleFailed (World.restoreFinalized { w with
        holder := .free, durable := w.durable.edit (.rolledBack window.batch.transition undo)
        rolledBack := w.rolledBack ++ [window.batch.transition] } rollbacks) call) := by
      refine restoreFailed_replays ?_ ?_ ?_ rollbacks call
      · exact hundone
      all_goals rfl
    exact ⟨hfailed.durable, hfailed.captures⟩

theorem publishFrom_durable {index : Nat} {ok failed : Reader → Reader}
    (h : w.publishFrom index ok failed = some u) : u.durable = w.durable := by
  obtain ⟨reader, -, rfl⟩ := Option.map_eq_some_iff.mp h
  split
  · rfl
  · split <;> rfl

/-- Every step changes the registry by edits, and captures it as it is. -/
theorem World.step_replays {a : Action R} (hs : w.step a = some u) : w.Replays u := by
  have hsame : Edited w.durable w.durable := .same rfl rfl
  cases World.Step.of_step hs with
  | enter hh | exitBegin index reader hh | lifecycleBegin call shells hh =>
      exact .of hsame rfl (.inl rfl) (.inl rfl)
  | mutate op captured => exact mutate_replays w op _ captured
  | start op => exact mutate_replays w op _ true
  | flushBegin byHolder captured hfree => exact flushBegin_replays hfree byHolder captured
  | flushWrite ok flush hf =>
      refine ⟨.written _ _ _, fun g hg => .inl ?_⟩
      simp only [World.captures, hf, Option.map_some, Option.toList_some, List.mem_append,
        List.mem_singleton] at hg ⊢
      rcases hg with (hg | hg) | hg
      · cases ok with
        | true => exact .inl ((List.mem_append.mp hg).imp id List.mem_singleton.mp)
        | false => exact .inl (.inl hg)
      · exact .inl (.inr hg)
      · exact .inr hg
  | flushFinish flush written => exact flushFinish_replays w flush written
  | exitRecord index code captured => exact exitRecord_replays w index code captured
  | stopShell outcome call shells id =>
      have hd := stopRuntime_durable w id outcome
      have hl := (stopRuntime_same w id outcome).1
      exact .of (.same (by rw [hd]) (by rw [hd])) hl.saves (.inl hl.flush) (.inl rfl)
  | stopShellError outcome call shells id =>
      have hd := stopRuntime_durable w id outcome
      have hl := (stopRuntime_same w id outcome).1
      exact .of (.same (by rw [hd]) (by rw [hd])) hl.saves (.inl hl.flush) (.inl rfl)
  | compensate call stopped => exact compensate_replays w call stopped
  | lifecycleApply failure call shells => exact lifecycleApply_replays w call shells failure
  | write ok window hh => exact write_replays hh ok
  | finish window written => exact finish_replays w window written
  | publish kinds | leaveLoop a index => exact .of hsame rfl (.inl rfl) (.inr rfl)
  | readOutput index reader revision | restartShell shellId =>
      exact .of (.edit (.silent _) rfl rfl) rfl (.inl rfl) (.inr rfl)
  | checkpointTerminalHistory shellId runId history last =>
      exact .of (.edit (.silent _) rfl rfl) rfl (.inl rfl) (.inr rfl)
  | publishOutput index reader hr hphase u hu | publishLast index reader hr hphase u hu =>
      have hd := publishFrom_durable hu
      obtain ⟨hl, hh⟩ := publishFrom_same hu
      exact .of (.same (by rw [hd]) (by rw [hd])) hl.saves (.inl hl.flush) (.inr (by rw [hh]))

theorem World.Loaded.replayed (h : w.Loaded) : w.Replayed w.durable.state where
  durable := by
    rw [h.edits]
    rfl
  captures g hg := by
    simp [World.captures, h.saves, h.flush, h.holder, Holder.captured] at hg

/-- In every reachable world the registry and the captured states are what their edits make of
the state that was loaded. -/
theorem replayed_of_reach {w₀ : World R} (h : w₀.Loaded)
    (hr : Reach World.step (fun _ _ => True) w₀ w) : w.Replayed w₀.durable.state :=
  hr.invariant (I := fun w => w.Replayed w₀.durable.state) h.replayed fun _ _ _ ht _ hs =>
    ht.step (World.step_replays hs)

end Boomux.Daemon
