import Mathlib.Logic.Basic

/-!
# Runs of a transition system

A system is a partial step function `step : σ → α → Option σ`: the action carries every
choice the environment makes, and `none` says that the action cannot happen in that state.
Three views of its runs are used side by side.

* `exec step s as` computes the state a list of actions leads to.
* `Reach step ok s t` is reachability by steps that all meet a condition `ok` on the state
  before the step and on the action.
* `Along step P s as` and `Meets step ok s as` speak about every state, and about every
  step, of one run.

`Reach.invariant` is the induction that every safety result uses. `along_iff_meets` turns
an equivalence about one step into an equivalence about whole runs.
-/

set_option autoImplicit false

namespace Transition

variable {σ α : Type*}

/-! ## Definitions -/

/-- The state after a list of actions, `none` when one of them cannot happen. -/
def exec (step : σ → α → Option σ) : σ → List α → Option σ
  | s, [] => some s
  | s, a :: as => (step s a).bind fun u => exec step u as

/-- Reachability from `s` by steps that are all taken where `ok` holds. -/
inductive Reach (step : σ → α → Option σ) (ok : σ → α → Prop) (s : σ) : σ → Prop
  | refl : Reach step ok s s
  | tail {t u : σ} {a : α} :
      Reach step ok s t → ok t a → step t a = some u → Reach step ok s u

/-- Every state the run `as` visits from `s` satisfies `P`. -/
def Along (step : σ → α → Option σ) (P : σ → Prop) : σ → List α → Prop
  | s, [] => P s
  | s, a :: as => P s ∧ ∀ u, step s a = some u → Along step P u as

/-- Every step the run `as` takes from `s` is taken where `ok` holds. -/
def Meets (step : σ → α → Option σ) (ok : σ → α → Prop) : σ → List α → Prop
  | _, [] => True
  | s, a :: as => ∀ u, step s a = some u → ok s a ∧ Meets step ok u as

variable {step : σ → α → Option σ} {ok ok' : σ → α → Prop} {P I : σ → Prop} {s t u : σ}

/-! ## Computing runs -/

@[simp] theorem exec_nil : exec step s [] = some s := rfl

@[simp] theorem exec_cons (a : α) (as : List α) :
    exec step s (a :: as) = (step s a).bind fun u => exec step u as := rfl

theorem exec_append (as bs : List α) :
    exec step s (as ++ bs) = (exec step s as).bind fun u => exec step u bs := by
  induction as generalizing s with
  | nil => rfl
  | cons a as ih =>
      rw [List.cons_append, exec_cons, exec_cons]
      cases step s a with
      | none => rfl
      | some u => exact ih

/-- The state that a run leads to, as a term whose components are evaluated one by one. -/
theorem eq_some_getD {o : Option σ} (d : σ) (h : o.isSome = true) : o = some (o.getD d) :=
  (Option.getD_of_ne_none (Option.isSome_iff_ne_none.mp h) d).symm

/-! ## Invariants of reachable states -/

theorem Reach.trans (h : Reach step ok s t) (h' : Reach step ok t u) : Reach step ok s u := by
  induction h' with
  | refl => exact h
  | tail _ hok hstep ih => exact ih.tail hok hstep

theorem Reach.head {a : α} (hok : ok s a) (hstep : step s a = some t)
    (h : Reach step ok t u) : Reach step ok s u :=
  (Reach.refl.tail hok hstep).trans h

theorem Reach.mono (himp : ∀ t a, ok t a → ok' t a) (h : Reach step ok s t) :
    Reach step ok' s t := by
  induction h with
  | refl => exact .refl
  | tail _ hok hstep ih => exact ih.tail (himp _ _ hok) hstep

/-- A property that holds at the start and that every allowed step preserves holds of every
state reached by allowed steps. -/
theorem Reach.invariant (h0 : I s)
    (hstep : ∀ t a u, I t → ok t a → step t a = some u → I u) (h : Reach step ok s t) : I t := by
  induction h with
  | refl => exact h0
  | tail _ hok hs ih => exact hstep _ _ _ ih hok hs

theorem reach_of_exec {as : List α} (hok : Meets step ok s as) (h : exec step s as = some t) :
    Reach step ok s t := by
  induction as generalizing s with
  | nil => cases h; exact .refl
  | cons a as ih =>
      obtain ⟨v, hv, ht⟩ := Option.bind_eq_some_iff.mp h
      obtain ⟨ha, has⟩ := hok v hv
      exact .head ha hv (ih has ht)

theorem meets_true (as : List α) : Meets step (fun _ _ => True) s as := by
  induction as generalizing s with
  | nil => trivial
  | cons a as ih => exact fun _ _ => ⟨trivial, ih⟩

/-- Two conditions that agree under an invariant are met by the same runs. -/
theorem meets_congr {as : List α} (hI : ∀ s a u, I s → step s a = some u → I u)
    (hok : ∀ s a u, I s → step s a = some u → (ok s a ↔ ok' s a)) (hi : I s) :
    Meets step ok s as ↔ Meets step ok' s as := by
  induction as generalizing s with
  | nil => exact Iff.rfl
  | cons a as ih =>
      refine forall_congr' fun u => forall_congr' fun hu => ?_
      rw [hok s a u hi hu, ih (hI s a u hi hu)]

/-- An invariant of every step holds in every state of a run. -/
theorem Along.of_invariant {as : List α} (hI : ∀ s a u, I s → step s a = some u → I u)
    (hP : ∀ s, I s → P s) (hi : I s) : Along step P s as := by
  induction as generalizing s with
  | nil => exact hP s hi
  | cons a as ih => exact ⟨hP s hi, fun u hu => ih (hI s a u hi hu)⟩

/-- A step that meets the condition, and then a run that does. -/
theorem Meets.and {as : List α} (h : Meets step ok s as) (h' : Meets step ok' s as) :
    Meets step (fun s a => ok s a ∧ ok' s a) s as := by
  induction as generalizing s with
  | nil => trivial
  | cons a as ih =>
      intro u hu
      obtain ⟨ha, has⟩ := h u hu
      obtain ⟨ha', has'⟩ := h' u hu
      exact ⟨⟨ha, ha'⟩, ih has has'⟩

/-- A condition that follows from another one, under an invariant. -/
theorem Meets.imp {as : List α} (hI : ∀ s a u, I s → step s a = some u → I u)
    (hok : ∀ s a, I s → ok s a → ok' s a) (hi : I s) (h : Meets step ok s as) :
    Meets step ok' s as := by
  induction as generalizing s with
  | nil => trivial
  | cons a as ih =>
      intro u hu
      obtain ⟨ha, has⟩ := h u hu
      exact ⟨hok s a hi ha, ih (hI s a u hi hu) has⟩

theorem Meets.cons {a : α} {as : List α} (hs : step s a = some u) (hok : ok s a)
    (h : Meets step ok u as) : Meets step ok s (a :: as) := by
  intro v hv
  rw [hs] at hv
  cases hv
  exact ⟨hok, h⟩

/-- The condition at one step of a run that meets it. -/
theorem Meets.at_step {a : α} {as bs : List α} (h : Meets step ok s (as ++ a :: bs))
    (hrun : exec step s as = some t) (hs : step t a = some u) : ok t a := by
  induction as generalizing s with
  | nil =>
      cases hrun
      exact (h u hs).1
  | cons b as ih =>
      obtain ⟨v, hv, hrest⟩ := Option.bind_eq_some_iff.mp hrun
      exact ih (h v hv).2 hrest

/-- Whether every step of the run is taken where `ok` holds, computed. -/
def allMeet (step : σ → α → Option σ) (ok : σ → α → Prop) [∀ s a, Decidable (ok s a)] :
    σ → List α → Bool
  | _, [] => true
  | s, a :: as =>
      match step s a with
      | none => true
      | some u => decide (ok s a) && allMeet step ok u as

theorem meets_of_allMeet [∀ s a, Decidable (ok s a)] {as : List α}
    (h : allMeet step ok s as = true) : Meets step ok s as := by
  induction as generalizing s with
  | nil => trivial
  | cons a as ih =>
      intro u hu
      simp only [allMeet, hu, Bool.and_eq_true, decide_eq_true_eq] at h
      exact ⟨h.1, ih h.2⟩

/-- A run without a condition on its steps reaches its last state. -/
theorem reach_of_exec_true {as : List α} (h : exec step s as = some t) :
    Reach step (fun _ _ => True) s t :=
  reach_of_exec (meets_true as) h

/-! ## States and steps of one run -/

theorem Along.head {as : List α} (h : Along step P s as) : P s := by
  cases as with
  | nil => exact h
  | cons a as => exact h.1

theorem Along.last {as : List α} (h : Along step P s as) (he : exec step s as = some t) : P t := by
  induction as generalizing s with
  | nil => cases he; exact h
  | cons a as ih =>
      obtain ⟨v, hv, ht⟩ := Option.bind_eq_some_iff.mp he
      exact ih (h.2 v hv) ht

/-- When, under an invariant, a step keeps `P` exactly if it meets `ok`, the states of a run
all satisfy `P` exactly if its steps all meet `ok`. The invariant itself may need `P`. -/
theorem along_iff_meets
    (hI : ∀ s a u, I s → P s → P u → step s a = some u → I u)
    (hP : ∀ s a u, I s → P s → step s a = some u → (P u ↔ ok s a))
    {as : List α} (hi : I s) (hp : P s) : Along step P s as ↔ Meets step ok s as := by
  induction as generalizing s with
  | nil => exact ⟨fun _ => trivial, fun _ => hp⟩
  | cons a as ih =>
      constructor
      · rintro ⟨-, hall⟩ u hu
        have hpu : P u := (hall u hu).head
        exact ⟨(hP s a u hi hp hu).mp hpu, (ih (hI s a u hi hp hpu hu) hpu).mp (hall u hu)⟩
      · intro hall
        refine ⟨hp, fun u hu => ?_⟩
        obtain ⟨hok, hrest⟩ := hall u hu
        have hpu : P u := (hP s a u hi hp hu).mpr hok
        exact (ih (hI s a u hi hp hpu hu) hpu).mpr hrest

end Transition
