import Mathlib.Logic.Basic

/-!
# Steps with an undo log

A step changes a state and may fail; what it has changed by then stays changed. It logs how to undo
each change, and `rollback` undoes a log from its last record to its first. `Safe` is what a caller
that rolls a failed step back relies on, `Ensures` what it knows of one that succeeds. Both go
through `bind`, so that a sequence of steps is as safe as its parts.
-/

set_option autoImplicit false

namespace Undo

variable {σ υ ε α β : Type}

/-- What a step leaves. The last record of the log comes first. -/
structure Outcome (σ υ ε α : Type) where
  result : Except ε α
  log : List υ
  state : σ

def Step (σ υ ε α : Type) : Type := σ → Outcome σ υ ε α

namespace Step

/-- A step that only reads. -/
def read (f : σ → Except ε α) : Step σ υ ε α := fun s => ⟨f s, [], s⟩

/-- A step that goes on with the value of another. -/
def andThen (x : Step σ υ ε α) (f : α → Step σ υ ε β) : Step σ υ ε β := fun s =>
  match (x s).result with
  | .error e => ⟨.error e, (x s).log, (x s).state⟩
  | .ok a =>
      let rest := f a (x s).state
      ⟨rest.result, rest.log ++ (x s).log, rest.state⟩

instance : Monad (Step σ υ ε) where
  pure a := read fun _ => .ok a
  bind := andThen

variable {x : Step σ υ ε α} {f : α → Step σ υ ε β} {s : σ} {a : α} {b : β} {e : ε}

theorem bind_of_ok (h : (x s).result = .ok a) : (x >>= f) s =
    ⟨(f a (x s).state).result, (f a (x s).state).log ++ (x s).log, (f a (x s).state).state⟩ := by
  show andThen x f s = _
  unfold andThen
  rw [h]

theorem bind_of_error (h : (x s).result = .error e) :
    (x >>= f) s = ⟨.error e, (x s).log, (x s).state⟩ := by
  show andThen x f s = _
  unfold andThen
  rw [h]

end Step

/-! ## Rolling back -/

/-- How the records of a log are undone, and which states count as the same. -/
structure Undoing (σ υ : Type) where
  apply : υ → σ → σ
  Same : σ → σ → Prop
  equivalence : Equivalence Same
  congr : ∀ u {s t}, Same s t → Same (apply u s) (apply u t)

namespace Undoing

variable (U : Undoing σ υ)

def rollback (log : List υ) (s : σ) : σ := log.foldl (fun s u => U.apply u s) s

theorem rollback_append (log log' : List υ) (s : σ) :
    U.rollback (log ++ log') s = U.rollback log' (U.rollback log s) := List.foldl_append

theorem rollback_congr (log : List υ) {s t : σ} (h : U.Same s t) :
    U.Same (U.rollback log s) (U.rollback log t) := by
  induction log generalizing s t with
  | nil => exact h
  | cons u log ih => exact ih (U.congr u h)

end Undoing

/-! ## Safe steps -/

/-- The step keeps an invariant, also when it fails, and its log undoes it unless it fails with an
error that is `excused`. -/
structure Safe (U : Undoing σ υ) (Inv : σ → Prop) (excused : ε → Prop) (x : Step σ υ ε α)
    (s : σ) : Prop where
  kept : Inv (x s).state
  undone : U.Same (U.rollback (x s).log (x s).state) s ∨ ∃ e, (x s).result = .error e ∧ excused e

/-- What holds of the value, the log and the state of a step that succeeds. -/
def Ensures (x : Step σ υ ε α) (s : σ) (Q : α → List υ → σ → Prop) : Prop :=
  ∀ a, (x s).result = .ok a → Q a (x s).log (x s).state

/-- The step changes nothing. -/
structure Reads (x : Step σ υ ε α) (s : σ) : Prop where
  log : (x s).log = []
  state : (x s).state = s

variable {U : Undoing σ υ} {Inv : σ → Prop} {excused : ε → Prop} {x : Step σ υ ε α}
  {f : α → Step σ υ ε β} {g : σ → Except ε α} {s : σ} {a : α} {Q : β → List υ → σ → Prop}
  {Q' Q'' : α → List υ → σ → Prop}

theorem Reads.read : Reads (Step.read g : Step σ υ ε α) s := ⟨rfl, rfl⟩

theorem Reads.pure : Reads (Pure.pure a : Step σ υ ε α) s := ⟨rfl, rfl⟩

theorem Reads.bind (hx : Reads x s) (hf : ∀ a, Reads (f a) s) : Reads (x >>= f) s := by
  cases h : (x s).result with
  | error e =>
      refine ⟨?_, ?_⟩
      · rw [Step.bind_of_error h]
        exact hx.log
      · rw [Step.bind_of_error h]
        exact hx.state
  | ok a =>
      refine ⟨?_, ?_⟩
      · rw [Step.bind_of_ok h, hx.state, hx.log, (hf a).log]
        rfl
      · rw [Step.bind_of_ok h, hx.state]
        exact (hf a).state

theorem Reads.safe (hx : Reads x s) (h : Inv s) : Safe U Inv excused x s := by
  refine ⟨?_, .inl ?_⟩
  · rw [hx.state]
    exact h
  · rw [hx.state, hx.log]
    exact U.equivalence.refl s

theorem Safe.read (h : Inv s) : Safe U Inv excused (Step.read g) s := Reads.read.safe h

theorem Safe.pure (h : Inv s) : Safe U Inv excused (Pure.pure a : Step σ υ ε α) s := .read h

theorem Safe.bind (hx : Safe U Inv excused x s)
    (hf : ∀ a, (x s).result = .ok a → Safe U Inv excused (f a) (x s).state) :
    Safe U Inv excused (x >>= f) s := by
  cases h : (x s).result with
  | error e =>
      have hbind := Step.bind_of_error (f := f) h
      refine ⟨?_, ?_⟩
      · rw [hbind]
        exact hx.kept
      · rw [hbind]
        rcases hx.undone with hsame | ⟨e', he', hexcused⟩
        · exact .inl hsame
        · rw [h] at he'
          cases he'
          exact .inr ⟨e, rfl, hexcused⟩
  | ok a =>
      have hrest := hf a h
      refine ⟨?_, ?_⟩
      · rw [Step.bind_of_ok h]
        exact hrest.kept
      · rw [Step.bind_of_ok h]
        rcases hrest.undone with hsame | hexcused
        · refine .inl ?_
          have hfirst : U.Same (U.rollback (x s).log (x s).state) s := by
            rcases hx.undone with hfirst | ⟨e, he, -⟩
            · exact hfirst
            · rw [h] at he
              cases he
          rw [U.rollback_append]
          exact U.equivalence.trans (U.rollback_congr _ hsame) hfirst
        · exact .inr hexcused

/-- A step that changes nothing, and what comes after it. -/
theorem Reads.safe_bind (hx : Reads x s) (h : Inv s)
    (hf : ∀ a, (x s).result = .ok a → Safe U Inv excused (f a) s) :
      Safe U Inv excused (x >>= f) s :=
  (hx.safe h).bind fun a ha => hx.state.symm ▸ hf a ha

/-- A check, and what comes after it. -/
theorem Safe.read_bind {f : α → Step σ υ ε β} (h : Inv s)
    (hf : ∀ a, g s = .ok a → Safe U Inv excused (f a) s) :
      Safe U Inv excused (Step.read g >>= f) s :=
  Reads.read.safe_bind h hf

/-- A step, and then a value made from its own. -/
theorem Safe.bind_pure {f : α → β} (hx : Safe U Inv excused x s) :
    Safe U Inv excused (x >>= fun a => Pure.pure (f a)) s := hx.bind fun _ _ => .pure hx.kept

theorem Ensures.pure (h : Q' a [] s) : Ensures (Pure.pure a : Step σ υ ε α) s Q' := by
  intro b hb
  cases hb
  exact h

theorem Ensures.mono (h : Ensures x s Q') (himp : ∀ a log t, Q' a log t → Q'' a log t) :
    Ensures x s Q'' := fun a ha => himp _ _ _ (h a ha)

theorem Ensures.bind
    (h : Ensures x s fun a log t => Ensures (f a) t fun b log' u => Q b (log' ++ log) u) :
    Ensures (x >>= f) s Q := by
  intro b hb
  cases hx : (x s).result with
  | error e =>
      rw [Step.bind_of_error hx] at hb
      cases hb
  | ok a =>
      rw [Step.bind_of_ok hx] at hb ⊢
      exact h a hx b hb

/-- What holds of the value alone does not depend on the steps before. -/
theorem Ensures.value_bind {P : β → Prop}
    (h : ∀ a t, (x s).result = .ok a → Ensures (f a) t fun b _ _ => P b) :
    Ensures (x >>= f) s fun b _ _ => P b :=
  Ensures.bind fun a ha => h a (x s).state ha

theorem Reads.ensures_bind (hx : Reads x s) (h : ∀ a, (x s).result = .ok a → Ensures (f a) s Q) :
    Ensures (x >>= f) s Q := by
  refine Ensures.bind fun a ha => ?_
  rw [hx.log, hx.state]
  simp only [List.append_nil]
  exact h a ha

theorem Ensures.read_bind {f : α → Step σ υ ε β}
    (h : ∀ a, g s = .ok a → Ensures (f a) s Q) : Ensures (Step.read g >>= f) s Q :=
  Reads.read.ensures_bind h

/-! ## Logs -/

/-- What holds of every record that a step logs. -/
def Logs (x : Step σ υ ε α) (P : υ → Prop) : Prop := ∀ s, ∀ u ∈ (x s).log, P u

variable {P : υ → Prop}

theorem Logs.read : Logs (Step.read g : Step σ υ ε α) P := fun _ _ h => absurd h List.not_mem_nil

theorem Logs.reads (h : ∀ s, Reads x s) : Logs x P := by
  intro s u hu
  rw [(h s).log] at hu
  cases hu

theorem Logs.bind (hx : Logs x P) (hf : ∀ a, Logs (f a) P) : Logs (x >>= f) P := by
  intro s u hu
  cases h : (x s).result with
  | error e =>
      rw [Step.bind_of_error h] at hu
      exact hx s u hu
  | ok a =>
      rw [Step.bind_of_ok h] at hu
      rcases List.mem_append.mp hu with hu | hu
      · exact hf a _ u hu
      · exact hx s u hu

end Undo
