import Mathlib.Data.List.Basic

/-!
# Text in terminated lines

A text is a list of lines, each followed by a terminator that does not occur in the lines
themselves. `splitInclusive` is Rust's `slice::split_inclusive`, `unlines` puts lines together.
`take_unlines` says what a text that is cut off anywhere looks like: some complete lines and
a rest without a terminator.
-/

set_option autoImplicit false

namespace Lines

variable {α : Type*}

/-- The lines, each with its terminator. -/
def unlines (terminator : α) (lines : List (List α)) : List α :=
  lines.flatMap (· ++ [terminator])

@[simp] theorem unlines_nil (terminator : α) : unlines terminator [] = [] := rfl

theorem unlines_cons (terminator : α) (line : List α) (lines : List (List α)) :
    unlines terminator (line :: lines) = line ++ [terminator] ++ unlines terminator lines := by
  simp [unlines]

theorem unlines_append (terminator : α) (lines lines' : List (List α)) :
    unlines terminator (lines ++ lines') =
      unlines terminator lines ++ unlines terminator lines' := by
  simp [unlines]

/-- Splitting at the terminators gives the lines back, and an empty rest. -/
theorem splitOn_unlines [BEq α] [LawfulBEq α] {terminator : α} {lines : List (List α)}
    (hlines : ∀ line ∈ lines, terminator ∉ line) :
    (unlines terminator lines).splitOn terminator = lines ++ [[]] := by
  induction lines with
  | nil => exact List.splitOn_nil terminator
  | cons line lines ih =>
      have hline : ∀ a ∈ line, (a == terminator) = false := fun a ha =>
        beq_false_of_ne fun he => hlines line List.mem_cons_self (he ▸ ha)
      rw [unlines_cons, List.append_assoc, List.singleton_append, List.cons_append,
        ← ih fun l hl => hlines l (List.mem_cons_of_mem line hl), List.splitOn_eq_splitOnP]
      exact List.splitOnP_append_cons_of_forall_mem hline terminator (beq_self_eq_true _) _

/-- A text cut off after `k` symbols is some complete lines and a rest without a terminator. -/
theorem take_unlines {terminator : α} {lines : List (List α)} (k : Nat)
    (hlines : ∀ line ∈ lines, terminator ∉ line) :
    ∃ kept tail, kept <+: lines ∧ terminator ∉ tail ∧
      (unlines terminator lines).take k = unlines terminator kept ++ tail := by
  induction lines generalizing k with
  | nil => exact ⟨[], [], List.prefix_rfl, List.not_mem_nil, by simp⟩
  | cons line lines ih =>
      have hline : terminator ∉ line := hlines line List.mem_cons_self
      rw [unlines_cons]
      by_cases hk : k ≤ line.length
      · refine ⟨[], line.take k, List.nil_prefix, fun h => hline (List.mem_of_mem_take h), ?_⟩
        rw [List.append_assoc, List.take_append_of_le_length hk, unlines_nil, List.nil_append]
      · obtain ⟨kept, tail, hkept, htail, he⟩ :=
          ih (k - (line.length + 1)) fun l hl => hlines l (List.mem_cons_of_mem line hl)
        refine ⟨line :: kept, tail, ?_, htail, ?_⟩
        · exact List.cons_prefix_cons.mpr ⟨rfl, hkept⟩
        · have hlen : (line ++ [terminator]).length ≤ k := by
            rw [List.length_append, List.length_singleton]
            omega
          have hrest : k - (line ++ [terminator]).length = k - (line.length + 1) := by simp
          rw [List.take_append, List.take_of_length_le hlen, hrest, he, unlines_cons]
          simp only [List.append_assoc]

variable [DecidableEq α]

/-- Splitting after every terminator; what follows the last one is the last piece. -/
def splitInclusive (terminator : α) : List α → List (List α)
  | [] => []
  | a :: l =>
      if a = terminator then [a] :: splitInclusive terminator l
      else match splitInclusive terminator l with
        | [] => [[a]]
        | line :: lines => (a :: line) :: lines

theorem splitInclusive_line {terminator : α} {line : List α} (h : terminator ∉ line) (l : List α) :
    splitInclusive terminator (line ++ [terminator] ++ l) =
      (line ++ [terminator]) :: splitInclusive terminator l := by
  induction line with
  | nil => simp [splitInclusive]
  | cons a line ih =>
      have hne : terminator ≠ a := List.ne_of_not_mem_cons h
      have hmem := List.not_mem_of_not_mem_cons h
      rw [List.cons_append, List.cons_append]
      simp only [splitInclusive, if_neg (Ne.symm hne), ih hmem]

/-- A rest without a terminator is one piece, and none when it is empty. -/
theorem splitInclusive_rest {terminator : α} {tail : List α} (h : terminator ∉ tail) :
    splitInclusive terminator tail = if tail.isEmpty then [] else [tail] := by
  induction tail with
  | nil => rfl
  | cons a tail ih =>
      have hne : terminator ≠ a := List.ne_of_not_mem_cons h
      have hmem := List.not_mem_of_not_mem_cons h
      simp only [splitInclusive, if_neg (Ne.symm hne), ih hmem]
      cases tail <;> rfl

end Lines
