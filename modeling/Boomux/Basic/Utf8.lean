import Mathlib.Data.List.DropRight
import Mathlib.Data.List.Infix

/-!
# The newest part of a text

A text is cut at a byte position, which must be a boundary between two characters. The longest
suffix of at most so many bytes is found from the first boundary that leaves no more; it stays the
same when text is put before one that is already as long.
-/

set_option autoImplicit false

namespace Rust

variable {text rest front s t : List Char} {limit start : Nat}

/-! ## Lengths -/

/-- `str::len`. -/
def byteLen : List Char → Nat
  | [] => 0
  | c :: text => c.utf8Size + byteLen text

@[simp] theorem byteLen_nil : byteLen [] = 0 := rfl

@[simp] theorem byteLen_cons (c : Char) (text : List Char) :
    byteLen (c :: text) = c.utf8Size + byteLen text := rfl

@[simp] theorem byteLen_append (a b : List Char) : byteLen (a ++ b) = byteLen a + byteLen b := by
  induction a with
  | nil => rw [List.nil_append, byteLen_nil, Nat.zero_add]
  | cons c a ih => rw [List.cons_append, byteLen_cons, byteLen_cons, ih, Nat.add_assoc]

theorem byteLen_eq_zero : byteLen text = 0 ↔ text = [] := by
  cases text with
  | nil => exact iff_of_true rfl rfl
  | cons c text =>
      have hpos := c.utf8Size_pos
      exact iff_of_false (by rw [byteLen_cons]; omega) (List.cons_ne_nil c text)

theorem byteLen_le_of_suffix (h : s <:+ t) : byteLen s ≤ byteLen t := by
  obtain ⟨front, rfl⟩ := h
  rw [byteLen_append]
  exact Nat.le_add_left _ _

/-- Of two suffixes of a text, the one with fewer bytes is a suffix of the other. -/
theorem suffix_of_byteLen_le (hs : s <:+ text) (ht : t <:+ text) (h : byteLen s ≤ byteLen t) :
    s <:+ t := by
  rcases List.suffix_or_suffix_of_suffix hs ht with hst | ⟨front, hts⟩
  · exact hst
  · have hfront : front = [] := by
      rw [← hts, byteLen_append] at h
      exact byteLen_eq_zero.mp (by omega)
    rw [hfront, List.nil_append] at hts
    rw [hts]

/-! ## Cutting -/

/-- The text from a byte position on, where that is a boundary between characters. -/
def sliceFrom : List Char → Nat → Option (List Char)
  | text, 0 => some text
  | [], _ + 1 => none
  | c :: text, n + 1 => if c.utf8Size ≤ n + 1 then sliceFrom text (n + 1 - c.utf8Size) else none

theorem sliceFrom_eq_some : sliceFrom text start = some rest ↔ ∃ front, text = front ++ rest
    ∧ byteLen front = start := by
  induction text generalizing start with
  | nil =>
      cases start with
      | zero =>
          refine ⟨fun h => ⟨[], Option.some.inj h, rfl⟩, fun ⟨front, htext, _⟩ => ?_⟩
          rw [sliceFrom, (List.append_eq_nil_iff.mp htext.symm).2]
      | succ n =>
          refine iff_of_false (fun h => by cases h) fun ⟨front, htext, hfront⟩ => ?_
          rw [(List.append_eq_nil_iff.mp htext.symm).1] at hfront
          cases hfront
  | cons c text ih =>
      have hpos := c.utf8Size_pos
      cases start with
      | zero =>
          refine ⟨fun h => ⟨[], Option.some.inj h, rfl⟩, fun ⟨front, htext, hfront⟩ => ?_⟩
          rw [byteLen_eq_zero.mp hfront, List.nil_append] at htext
          rw [sliceFrom, htext]
      | succ n =>
          rw [sliceFrom]
          split
          next hle =>
              rw [ih]
              constructor
              · rintro ⟨front, rfl, hfront⟩
                exact ⟨c :: front, rfl, by rw [byteLen_cons]; omega⟩
              · rintro ⟨front, htext, hfront⟩
                cases front with
                | nil => cases hfront
                | cons d front =>
                    obtain ⟨rfl, rfl⟩ := List.cons.inj htext
                    exact ⟨front, rfl, by rw [byteLen_cons] at hfront; omega⟩
          next hlt =>
              refine iff_of_false (fun h => by cases h) ?_
              rintro ⟨front, htext, hfront⟩
              cases front with
              | nil => cases hfront
              | cons d front =>
                  obtain ⟨rfl, rfl⟩ := List.cons.inj htext
                  rw [byteLen_cons] at hfront
                  omega

/-- The loop that moves a position on to the next boundary, at most `fuel` bytes. -/
def nextBoundary (text : List Char) : Nat → Nat → Nat
  | 0, start => start
  | fuel + 1, start =>
      if (sliceFrom text start).isSome then start else nextBoundary text fuel (start + 1)

/-- The text from the first boundary that leaves at most `limit` bytes, and the boundary. -/
def newestBytes (text : List Char) (limit : Nat) : Nat × List Char :=
  let start := nextBoundary text limit (byteLen text - limit)
  (start, (sliceFrom text start).getD [])

theorem nextBoundary_spec {fuel : Nat} (h : start + fuel = byteLen text
    ∨ (start = 0 ∧ byteLen text ≤ fuel)) :
    ∃ rest, sliceFrom text (nextBoundary text fuel start) = some rest
      ∧ start ≤ nextBoundary text fuel start
      ∧ ∀ boundary, start ≤ boundary → (sliceFrom text boundary).isSome →
        nextBoundary text fuel start ≤ boundary := by
  induction fuel generalizing start with
  | zero =>
      have hend : sliceFrom text start = some [] := by
        rw [sliceFrom_eq_some]
        exact ⟨text, (List.append_nil text).symm, by omega⟩
      exact ⟨[], hend, Nat.le_refl _, fun _ hle _ => hle⟩
  | succ fuel ih =>
      rw [nextBoundary]
      split
      next hsome =>
          obtain ⟨rest, hrest⟩ := Option.isSome_iff_exists.mp hsome
          exact ⟨rest, hrest, Nat.le_refl _, fun _ hle _ => hle⟩
      next hnone =>
          have hstart : start ≠ 0 := by
            rintro rfl
            cases text <;> exact hnone rfl
          obtain ⟨rest, hrest, hle, hleast⟩ := @ih (start + 1) (Or.inl (by omega))
          refine ⟨rest, hrest, by omega, fun boundary hboundary hsome => hleast boundary ?_ hsome⟩
          rcases Nat.eq_or_lt_of_le hboundary with rfl | hlt
          · exact absurd hsome hnone
          · exact hlt

/-! ## The longest suffix -/

/-- The longest suffix of at most `limit` bytes that starts at a boundary. -/
def LongestSuffix (text : List Char) (limit : Nat) (s : List Char) : Prop :=
  s <:+ text ∧ byteLen s ≤ limit ∧ ∀ t, t <:+ text → byteLen t ≤ limit → t <:+ s

theorem LongestSuffix.unique (hs : LongestSuffix text limit s) (ht : LongestSuffix text limit t) :
    s = t :=
  List.IsSuffix.eq_of_length_le (ht.2.2 s hs.1 hs.2.1) (hs.2.2 t ht.1 ht.2.1).length_le

/-- Text before a text that is as long as the limit makes no difference. -/
theorem LongestSuffix.append (h : LongestSuffix text limit s) (hlimit : limit ≤ byteLen text)
    (front : List Char) :
    LongestSuffix (front ++ text) limit s := by
  refine ⟨h.1.trans (List.suffix_append front text), h.2.1, fun t ht hlen => h.2.2 t ?_ hlen⟩
  exact suffix_of_byteLen_le ht (List.suffix_append front text) (hlen.trans hlimit)

theorem newestBytes_spec (text : List Char) (limit : Nat) :
    LongestSuffix text limit (newestBytes text limit).2
    ∧ (newestBytes text limit).1 + byteLen (newestBytes text limit).2 = byteLen text := by
  obtain ⟨rest, hrest, hle, hleast⟩ :=
    @nextBoundary_spec text (byteLen text - limit) limit (by omega)
  obtain ⟨front, htext, hfront⟩ := sliceFrom_eq_some.mp hrest
  have hnewest : (newestBytes text limit).2 = rest := by rw [newestBytes, hrest, Option.getD_some]
  have hlen : byteLen text = byteLen front + byteLen rest := by rw [← byteLen_append, ← htext]
  have hstart : (newestBytes text limit).1 = byteLen front := hfront.symm
  rw [hnewest]
  refine ⟨⟨⟨front, htext.symm⟩, by omega, fun t ht hlimit => ?_⟩, by omega⟩
  obtain ⟨before, hbefore⟩ := ht
  have hbytes : byteLen before + byteLen t = byteLen text := by rw [← byteLen_append, hbefore]
  have hboundary : nextBoundary text limit (byteLen text - limit) ≤ byteLen before := by
    refine hleast _ (by omega) ?_
    rw [sliceFrom_eq_some.mpr ⟨before, hbefore.symm, rfl⟩]
    rfl
  exact suffix_of_byteLen_le ⟨before, hbefore⟩ ⟨front, htext.symm⟩ (by omega)

end Rust
