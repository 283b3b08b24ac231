import Mathlib.Data.List.Range

/-!
# Numbered logs and pages of them

A log whose entries carry consecutive numbers is read in pages: what comes after a number, up
to a limit. `Numbered` says that the numbers count up from a first one, `between` is the part of
a log with numbers in an interval, and `Numbered.take_drop` that cutting by position and cutting
by number are the same.
-/

set_option autoImplicit false

namespace Paging

variable {α : Type*} {key : α → Nat} {a c d n : Nat} {e : α} {l m : List α}

/-! ## Numbered logs -/

/-- The numbers of `l` count up from `a`. -/
def Numbered (key : α → Nat) (a : Nat) (l : List α) : Prop :=
  l.map key = List.range' a l.length

theorem numbered_nil : Numbered key a [] := rfl

theorem numbered_cons : Numbered key a (e :: l) ↔ key e = a ∧ Numbered key (a + 1) l := by
  simp only [Numbered, List.map_cons, List.length_cons, List.range'_succ, List.cons.injEq]

theorem numbered_append :
    Numbered key a (l ++ m) ↔ Numbered key a l ∧ Numbered key (a + l.length) m := by
  induction l generalizing a with
  | nil => simp [numbered_nil]
  | cons e l ih =>
      have hlen : a + 1 + l.length = a + (l.length + 1) := by omega
      rw [List.cons_append, numbered_cons, numbered_cons, ih, List.length_cons, hlen, and_assoc]

theorem Numbered.mem (h : Numbered key a l) (he : e ∈ l) : a ≤ key e ∧ key e < a + l.length := by
  have : key e ∈ List.range' a l.length := h ▸ List.mem_map_of_mem he
  simpa using this

theorem Numbered.exists_mem (h : Numbered key a l) (hle : a ≤ n) (hlt : n < a + l.length) :
    ∃ e ∈ l, key e = n := by
  have : n ∈ l.map key := by
    rw [h]
    exact List.mem_range'_1.mpr ⟨hle, hlt⟩
  simpa using this

theorem Numbered.pairwise (h : Numbered key a l) : l.Pairwise (key · < key ·) := by
  have : (l.map key).Pairwise (· < ·) := by
    rw [h]
    exact List.pairwise_lt_range'
  exact List.pairwise_map.mp this

theorem Numbered.drop (h : Numbered key a l) (hn : n ≤ l.length) :
    Numbered key (a + n) (l.drop n) := by
  have hsplit : Numbered key a (l.take n ++ l.drop n) := by
    rw [List.take_append_drop]
    exact h
  have hlen : (l.take n).length = n := List.length_take_of_le hn
  have := (numbered_append.mp hsplit).2
  rwa [hlen] at this

theorem Numbered.take (h : Numbered key a l) (n : Nat) : Numbered key a (l.take n) := by
  have hsplit : Numbered key a (l.take n ++ l.drop n) := by
    rw [List.take_append_drop]
    exact h
  exact (numbered_append.mp hsplit).1

/-- The last number of a numbered log. -/
theorem Numbered.getLast? (h : Numbered key a l) :
    (l.getLast?.map key).getD (a - 1) = a + l.length - 1 := by
  cases hl : l.getLast? with
  | none => simp [List.getLast?_eq_none_iff.mp hl]
  | some e =>
      obtain ⟨l', rfl⟩ := List.getLast?_eq_some_iff.mp hl
      obtain ⟨-, hlast⟩ := numbered_append.mp h
      rw [numbered_cons] at hlast
      simp only [Option.map_some, Option.getD_some, List.length_append, List.length_singleton]
      omega

/-! ## Intervals -/

/-- The entries with a number above `c` and up to `d`. -/
def between (key : α → Nat) (c d : Nat) (l : List α) : List α :=
  l.filter fun e => decide (c < key e ∧ key e ≤ d)

theorem between_eq_nil (h : d ≤ c) : between key c d l = [] := by
  refine List.filter_eq_nil_iff.mpr fun e _ => ?_
  simp only [decide_eq_true_eq, not_and]
  omega

theorem between_cons :
    between key c d (e :: l) = (if c < key e ∧ key e ≤ d then [e]
      else []) ++ between key c d l := by
  unfold between
  split
  next h => rw [List.filter_cons_of_pos (by exact decide_eq_true h), List.singleton_append]
  next h => rw [List.filter_cons_of_neg (by simpa using h), List.nil_append]

theorem between_append : between key c d (l ++ m) = between key c d l ++ between key c d m :=
  List.filter_append ..

/-- What comes before the interval does not matter. -/
theorem between_append_of_le (h : ∀ e ∈ l, key e ≤ c) :
    between key c d (l ++ m) = between key c d m := by
  have : between key c d l = [] := by
    refine List.filter_eq_nil_iff.mpr fun e he => ?_
    have := h e he
    simp only [decide_eq_true_eq, not_and]
    omega
  rw [between_append, this, List.nil_append]

/-- What comes after the interval does not matter. -/
theorem between_append_of_lt (h : ∀ e ∈ m, d < key e) :
    between key c d (l ++ m) = between key c d l := by
  have : between key c d m = [] := by
    refine List.filter_eq_nil_iff.mpr fun e he => ?_
    have := h e he
    simp only [decide_eq_true_eq, not_and]
    omega
  rw [between_append, this, List.append_nil]

theorem between_pairwise (h : l.Pairwise (key · < key ·)) :
    (between key c d l).Pairwise (key · < key ·) :=
  h.sublist List.filter_sublist

/-- The interval up to the last number is everything above `c`. -/
theorem between_eq_filter (h : ∀ e ∈ l, key e ≤ d) :
    between key c d l = l.filter fun e => decide (c < key e) :=
  List.filter_congr fun e he => by simp [h e he]

/-- Two neighbouring intervals. -/
theorem between_append_between {b : Nat} (h : l.Pairwise (key · < key ·)) (hbc : b ≤ c)
    (hcd : c ≤ d) : between key b d l = between key b c l ++ between key c d l := by
  induction l with
  | nil => rfl
  | cons e l ih =>
      obtain ⟨he, hl⟩ := List.pairwise_cons.mp h
      rw [between_cons, between_cons, between_cons, ih hl]
      by_cases hc : key e ≤ c
      · have h₁ : ¬(c < key e ∧ key e ≤ d) := by omega
        have h₂ : (b < key e ∧ key e ≤ d) ↔ (b < key e ∧ key e ≤ c) := by omega
        simp only [if_neg h₁, h₂, List.nil_append, List.append_assoc]
      · -- everything after `e` is above `c`, so the first interval is empty
        have hnil : between key b c l = [] := by
          refine List.filter_eq_nil_iff.mpr fun x hx => ?_
          have := he x hx
          simp only [decide_eq_true_eq, not_and]
          omega
        have h₁ : ¬(b < key e ∧ key e ≤ c) := by omega
        have h₂ : (b < key e ∧ key e ≤ d) ↔ (c < key e ∧ key e ≤ d) := by omega
        simp only [hnil, if_neg h₁, h₂, List.nil_append]

/-- A page cut by position is the page cut by number. -/
theorem Numbered.take_drop (h : Numbered key a l) (hac : a ≤ c + 1) (n : Nat) :
    (l.drop (c + 1 - a)).take n = between key c (c + n) l := by
  induction l generalizing a c n with
  | nil => simp [between]
  | cons e l ih =>
      obtain ⟨rfl, hl⟩ := numbered_cons.mp h
      by_cases he : key e = c + 1
      · cases n with
        | zero =>
            rw [List.take_zero]
            exact (between_eq_nil (Nat.le_refl c)).symm
        | succ n =>
            have hrest : between key c (c + (n + 1)) l = between key (c + 1) (c + 1 + n) l := by
              refine List.filter_congr fun x hx => ?_
              have := (hl.mem hx).1
              simp only [decide_eq_decide]
              omega
            have hdrop : c + 1 + 1 - (key e + 1) = 0 := by omega
            have := ih hl (show key e + 1 ≤ c + 1 + 1 by omega) n
            rw [hdrop, List.drop_zero] at this
            have hin : c < key e ∧ key e ≤ c + (n + 1) := by omega
            rw [show c + 1 - key e = 0 by omega, List.drop_zero, List.take_succ_cons, this,
              between_cons, if_pos hin, hrest, List.singleton_append]
      · have hstep : c + 1 - key e = c + 1 - (key e + 1) + 1 := by omega
        have hout : ¬(c < key e ∧ key e ≤ c + n) := by omega
        rw [hstep, List.drop_succ_cons, ih hl (by omega) n, between_cons, if_neg hout,
          List.nil_append]

end Paging
