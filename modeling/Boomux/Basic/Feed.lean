import Mathlib.Data.List.TakeDrop

/-!
# Feeds

A feed is a list that only grows. A reader of it joined when it had `since` entries, and is still
there, or left when it had some number of entries: its `share` is what was appended in between.
-/

set_option autoImplicit false

namespace Feed

variable {α : Type*} {feed more : List α} {since : Nat} {left : Option Nat} {m : Nat}

/-- What was appended from `since` on, until the reader left. -/
def share (feed : List α) (since : Nat) (left : Option Nat) : List α :=
  (feed.take (left.getD feed.length)).drop since

@[simp] theorem share_none : share feed since none = feed.drop since := by
  rw [share, Option.getD_none, List.take_length]

theorem share_some : share feed since (some m) = (feed.take m).drop since := rfl

/-- A reader that leaves keeps its share. -/
@[simp] theorem share_leave : share feed since (some feed.length) = feed.drop since := by
  rw [share_some, List.take_length]

/-- A reader that has just joined has no share yet. -/
theorem share_join : share feed feed.length none = [] := by
  rw [share_none, List.drop_length]

/-- What is appended goes to the readers that are there. -/
theorem share_append (h : since ≤ feed.length) :
    share (feed ++ more) since none = share feed since none ++ more := by
  rw [share_none, share_none, List.drop_append_of_le_length h]

/-- What is appended does not go to those that have left. -/
theorem share_append_left (h : m ≤ feed.length) :
    share (feed ++ more) since (some m) = share feed since (some m) := by
  rw [share_some, share_some, List.take_append_of_le_length h]

theorem share_front : share feed since left <+: feed.drop since := by
  rw [share, List.drop_take]
  exact List.take_prefix _ _

/-- Whoever leaves later has read more. -/
theorem front_share (hleft : ∀ n, left = some n → m ≤ n) :
    (feed.take m).drop since <+: share feed since left := by
  cases left with
  | none =>
      rw [share_none, List.drop_take]
      exact List.take_prefix _ _
  | some n =>
      rw [share_some, List.drop_take, List.drop_take]
      exact List.take_prefix_take_left (by have := hleft n rfl; omega)

end Feed
