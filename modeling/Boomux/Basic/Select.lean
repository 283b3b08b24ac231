import Boomux.Basic.BTreeMap
import Mathlib.Data.List.Sort
import Mathlib.Data.Prod.Lex
import Mathlib.Order.Lattice

/-!
# Selecting and grouping by a key

Sorting by a key, the greatest and the least element by a key, the best element under each name, and
the elements grouped by name. With a key that tells the elements of a list apart, none of these
depends on the order of the list.
-/

set_option autoImplicit false

namespace Select

variable {α β κ ρ : Type*} {l l' : List α} {a b : α}

/-- The key tells the elements of the list apart. -/
def Total (key : α → β) (l : List α) : Prop := ∀ a ∈ l, ∀ b ∈ l, key a = key b → a = b

theorem Total.perm {key : α → β} (h : Total key l) (hp : l.Perm l') : Total key l' :=
  fun a ha b hb => h a (hp.mem_iff.mpr ha) b (hp.mem_iff.mpr hb)

theorem Total.subset {key : α → β} (h : Total key l) (hs : ∀ a ∈ l', a ∈ l) : Total key l' :=
  fun a ha b hb => h a (hs a ha) b (hs b hb)

/-- A key that holds a distinct name is total. -/
theorem Total.of_nodup {name : α → κ} {key : α → β} (h : (l.map name).Nodup)
    (hname : ∀ a b, key a = key b → name a = name b) : Total key l :=
  fun a ha b hb he => List.inj_on_of_nodup_map h ha hb (hname a b he)

/-! ## Sorting -/

section Sorting

variable [LinearOrder ρ] {key : α → ρ}

/-- `sort_by` with the order of a key; elements with one key stay in their order. -/
def sortBy (key : α → ρ) (l : List α) : List α := l.insertionSort fun a b => key a ≤ key b

theorem sortBy_perm (key : α → ρ) (l : List α) : (sortBy key l).Perm l :=
  List.perm_insertionSort _ l

theorem mem_sortBy : a ∈ sortBy key l ↔ a ∈ l := (sortBy_perm key l).mem_iff

theorem sortBy_sorted (key : α → ρ) (l : List α) :
    (sortBy key l).Pairwise fun a b => key a ≤ key b := by
  have htotal : Std.Total fun a b : α => key a ≤ key b := ⟨fun a b => le_total (key a) (key b)⟩
  have htrans : IsTrans α fun a b => key a ≤ key b := ⟨fun _ _ _ => le_trans⟩
  exact List.pairwise_insertionSort _ l

theorem sortBy_eq_of_perm (h : Total key l) (hp : l.Perm l') : sortBy key l = sortBy key l' := by
  refine List.Perm.eq_of_pairwise ?_ (sortBy_sorted key l) (sortBy_sorted key l')
    ((sortBy_perm key l).trans (hp.trans (sortBy_perm key l').symm))
  intro a b ha hb hab hba
  exact h a (mem_sortBy.mp ha) b (hp.mem_iff.mpr (mem_sortBy.mp hb)) (le_antisymm hab hba)

end Sorting

/-! ## The greatest and the least -/

section Extremes

variable [LinearOrder ρ] {key : α → ρ}

/-- `max_by` with the order of a key: the last of the greatest elements. -/
def maxBy (key : α → ρ) : List α → Option α
  | [] => none
  | a :: l => some (l.foldl (fun best b => if key b < key best then best else b) a)

/-- `min_by` with the order of a key: the first of the least elements. -/
def minBy (key : α → ρ) : List α → Option α
  | [] => none
  | a :: l => some (l.foldl (fun best b => if key b < key best then b else best) a)

/-- Picking one of two again and again gives an element that every other one is related to. -/
theorem foldl_pick {pick : α → α → α} {r : α → α → Prop} (hrefl : ∀ a, r a a)
    (htrans : ∀ a b c, r a b → r b c → r a c)
    (hpick : ∀ a b, (pick a b = a ∨ pick a b = b) ∧ r a (pick a b) ∧ r b (pick a b)) (c : α)
    (l : List α) :
    l.foldl pick c ∈ c :: l ∧ ∀ b ∈ c :: l, r b (l.foldl pick c) := by
  induction l generalizing c with
  | nil => exact ⟨List.mem_singleton_self c, fun b hb => (List.mem_singleton.mp hb) ▸ hrefl b⟩
  | cons d l ih =>
      rw [List.foldl_cons]
      obtain ⟨hmem, hall⟩ := ih (pick c d)
      obtain ⟨hone, hc, hd⟩ := hpick c d
      have hbest := hall _ List.mem_cons_self
      refine ⟨?_, List.forall_mem_cons.mpr ⟨htrans _ _ _ hc hbest, List.forall_mem_cons.mpr
        ⟨htrans _ _ _ hd hbest, fun b hb => hall b (List.mem_cons_of_mem _ hb)⟩⟩⟩
      rcases List.mem_cons.mp hmem with he | hmem
      · rw [he]
        rcases hone with hone | hone
        · rw [hone]
          exact List.mem_cons_self
        · rw [hone]
          exact List.mem_cons_of_mem _ List.mem_cons_self
      · exact List.mem_cons_of_mem _ (List.mem_cons_of_mem _ hmem)

theorem maxBy_spec (h : maxBy key l = some a) : a ∈ l ∧ ∀ b ∈ l, key b ≤ key a := by
  cases l with
  | nil => cases h
  | cons c l =>
      obtain rfl := Option.some.inj h
      refine foldl_pick (r := fun a b => key a ≤ key b) (fun _ => le_refl _) (fun _ _ _ => le_trans)
        (fun a b => ?_) c l
      split
      next hlt => exact ⟨Or.inl rfl, le_refl _, hlt.le⟩
      next hge => exact ⟨Or.inr rfl, not_lt.mp hge, le_refl _⟩

theorem minBy_spec (h : minBy key l = some a) : a ∈ l ∧ ∀ b ∈ l, key a ≤ key b := by
  cases l with
  | nil => cases h
  | cons c l =>
      obtain rfl := Option.some.inj h
      refine foldl_pick (r := fun a b => key b ≤ key a) (fun _ => le_refl _)
        (fun _ _ _ hab hbc => hbc.trans hab) (fun a b => ?_) c l
      split
      next hlt => exact ⟨Or.inr rfl, hlt.le, le_refl _⟩
      next hge => exact ⟨Or.inl rfl, le_refl _, not_lt.mp hge⟩

theorem maxBy_eq_none : maxBy key l = none ↔ l = [] := by
  cases l <;> simp [maxBy]

theorem maxBy_of_ne_nil (key : α → ρ) (h : l ≠ []) : ∃ a, maxBy key l = some a :=
  Option.ne_none_iff_exists'.mp (mt maxBy_eq_none.mp h)

theorem minBy_eq_none : minBy key l = none ↔ l = [] := by
  cases l <;> simp [minBy]

/-- Two choices from the same elements, each related to all of them, are one. -/
theorem choice_unique {r : α → α → Prop} {x y : Option α} (hp : l.Perm l')
    (hanti : ∀ a ∈ l, ∀ b ∈ l, r a b → r b a → a = b)
    (hx : ∀ a, x = some a → a ∈ l ∧ ∀ b ∈ l, r b a) (hxnone : x = none ↔ l = [])
    (hy : ∀ a, y = some a → a ∈ l' ∧ ∀ b ∈ l', r b a) (hynone : y = none ↔ l' = []) : x = y := by
  cases x with
  | none =>
      have hl' : l' = [] := List.nil_perm.mp (hxnone.mp rfl ▸ hp)
      exact (hynone.mpr hl').symm
  | some a =>
      obtain ⟨ha, hamax⟩ := hx a rfl
      cases y with
      | none => exact absurd (hynone.mp rfl ▸ hp.mem_iff.mp ha) List.not_mem_nil
      | some b =>
          obtain ⟨hb, hbmax⟩ := hy b rfl
          have hbl := hp.mem_iff.mpr hb
          rw [hanti a ha b hbl (hbmax a (hp.mem_iff.mp ha)) (hamax b hbl)]

end Extremes

/-! ## The best under each name -/

section Best

variable [LinearOrder κ] [LinearOrder ρ] {name : α → κ} {rank : α → ρ} {k : κ}

/-- A map that keeps for each name the element of the highest rank, the first of several. -/
def best (name : α → κ) (rank : α → ρ) (l : List α) : BTreeMap κ α :=
  l.foldl (fun m a =>
    if (m.lookup (name a)).all fun old => rank old < rank a then m.insert (name a) a else m) .empty

/-- What a name has is the best of its elements. -/
def IsBest (name : α → κ) (rank : α → ρ) (l : List α) (k : κ) (x : Option α) : Prop :=
  (∀ a, x = some a → a ∈ l.filter (name · = k) ∧ ∀ b ∈ l.filter (name · = k), rank b ≤ rank a)
    ∧ (x = none ↔ l.filter (name · = k) = [])

/-- One more element. -/
theorem IsBest.append_singleton {m : BTreeMap κ α} (h : ∀ k, IsBest name rank l k (m.lookup k))
    (a : α)
    (k : κ) : IsBest name rank (l ++ [a]) k
      ((if (m.lookup (name a)).all fun old => rank old < rank a then m.insert (name a) a
        else m).lookup k) := by
  obtain ⟨hsome, hnone⟩ := h k
  unfold IsBest
  rw [List.filter_append]
  by_cases hk : name a = k
  · subst hk
    have hlast : [a].filter (name · = name a) = [a] := by simp
    -- The new element is one of this name.
    rw [hlast]
    cases hm : m.lookup (name a) with
    | none =>
        rw [hnone.mp hm, Option.all_none, if_pos rfl, BTreeMap.lookup_insert, if_pos rfl]
        simp
    | some old =>
        obtain ⟨hmem, hmax⟩ := hsome old hm
        rw [Option.all_some]
        -- It replaces the one there is only if it ranks higher, so that the first of equals stays.
        by_cases hlt : rank old < rank a
        · rw [if_pos (by simpa using hlt), BTreeMap.lookup_insert, if_pos rfl]
          refine ⟨?_, by simp⟩
          intro c hc
          obtain rfl := Option.some.inj hc
          refine ⟨by simp, fun b hb => ?_⟩
          rcases List.mem_append.mp hb with hb | hb
          · exact (hmax b hb).trans hlt.le
          · rw [List.mem_singleton.mp hb]
        · rw [if_neg (by simpa using hlt), hm]
          refine ⟨?_, by simp⟩
          intro c hc
          obtain rfl := Option.some.inj hc
          refine ⟨List.mem_append_left _ hmem, fun b hb => ?_⟩
          rcases List.mem_append.mp hb with hb | hb
          · exact hmax b hb
          · rw [List.mem_singleton.mp hb]
            exact not_lt.mp hlt
  -- It is of another name.
  · have hlast : [a].filter (name · = k) = [] := by simpa using hk
    have hlookup : (if (m.lookup (name a)).all fun old => rank old < rank a then m.insert (name a) a
        else m).lookup k = m.lookup k := by
      split
      · rw [BTreeMap.lookup_insert, if_neg (Ne.symm hk)]
      · rfl
    rw [hlast, List.append_nil, hlookup]
    exact ⟨hsome, hnone⟩

theorem best_spec (name : α → κ) (rank : α → ρ) (l : List α) (k : κ) :
    IsBest name rank l k ((best name rank l).lookup k) := by
  have hrun (rest before : List α) (m : BTreeMap κ α) (h : ∀ k,
      IsBest name rank before k (m.lookup k)) :
      ∀ k, IsBest name rank (before ++ rest) k ((rest.foldl (fun m a =>
        if (m.lookup (name a)).all fun old => rank old < rank a then m.insert (name a) a
          else m) m).lookup k) := by
    induction rest generalizing before m with
    | nil => simpa using h
    | cons a rest ih =>
        have hnext := ih (before ++ [a]) _ fun k => IsBest.append_singleton h a k
        rwa [List.append_assoc] at hnext
  exact hrun l [] .empty
    (fun k => ⟨by simp [BTreeMap.empty, BTreeMap.lookup], by
      simp [BTreeMap.empty, BTreeMap.lookup]⟩) k

/-- With ranks that tell the elements apart the best ones do not depend on the order. -/
theorem best_eq_of_perm (h : Total rank l) (hp : l.Perm l') :
    best name rank l = best name rank l' := by
  refine BTreeMap.ext_lookup fun k => ?_
  obtain ⟨hsome, hnone⟩ := best_spec name rank l k
  obtain ⟨hsome', hnone'⟩ := best_spec name rank l' k
  refine choice_unique (hp.filter (name · = k)) ?_ hsome hnone hsome' hnone'
  intro a ha b hb hab hba
  exact h a (List.mem_of_mem_filter ha) b (List.mem_of_mem_filter hb) (le_antisymm hab hba)

end Best

/-! ## Groups -/

section Groups

variable [LinearOrder κ] {name : α → κ} {k : κ}

/-- The elements under each name, in their order. -/
def group (name : α → κ) (l : List α) : BTreeMap κ (List α) :=
  l.foldl (fun m a => m.insert (name a) ((m.lookup (name a)).getD [] ++ [a])) .empty

theorem lookup_group (name : α → κ) (l : List α) (k : κ) : (group name l).lookup k =
    if l.filter (name · = k) = [] then none else some (l.filter (name · = k)) := by
  have hrun (rest before : List α) (m : BTreeMap κ (List α)) (h : ∀ k, m.lookup k =
      if before.filter (name · = k) = [] then none else some (before.filter (name · = k))) :
      ∀ k, (rest.foldl (fun m a => m.insert (name a) ((m.lookup (name a)).getD [] ++ [a])) m).lookup
        k =
        if (before ++ rest).filter (name · = k) = [] then none
        else some ((before ++ rest).filter (name · = k)) := by
    induction rest generalizing before m with
    | nil => simpa using h
    | cons a rest ih =>
        have hnext := ih (before ++ [a]) (m.insert (name a) ((m.lookup (name a)).getD [] ++ [a]))
          fun k => by
          rw [BTreeMap.lookup_insert, h (name a), h k, List.filter_append]
          by_cases hk : name a = k
          · subst hk
            by_cases hnil : before.filter (name · = name a) = [] <;> simp [hnil]
          · simp [hk, Ne.symm hk]
        rwa [List.append_assoc] at hnext
  exact hrun l [] .empty (fun k => by simp [BTreeMap.empty, BTreeMap.lookup]) k

theorem entries_group (name : α → κ) (l : List α) :
    (group name l).entries = (group name l).keys.map fun k => (k, l.filter (name · = k)) := by
  rw [BTreeMap.keys, List.map_map]
  refine (List.map_id _).symm.trans (List.map_congr_left fun entry hentry => ?_)
  have hlookup := BTreeMap.lookup_eq_some.mpr hentry
  rw [lookup_group] at hlookup
  split at hlookup
  · cases hlookup
  · exact Prod.ext rfl (Option.some.inj hlookup).symm

theorem mem_keys_group : k ∈ (group name l).keys ↔ ∃ a ∈ l, name a = k := by
  have hiff : k ∈ (group name l).keys ↔ (group name l).lookup k ≠ none := by
    rw [BTreeMap.mem_keys, ← Option.isSome_iff_ne_none, Option.isSome_iff_exists]
    exact exists_congr fun _ => BTreeMap.lookup_eq_some.symm
  rw [hiff, lookup_group]
  simp [List.filter_eq_nil_iff]

theorem keys_group_of_perm (hp : l.Perm l') : (group name l).keys = (group name l').keys := by
  refine List.Perm.eq_of_pairwise (fun _ _ _ _ hab hba => absurd hab hba.asymm)
    (BTreeMap.keys_sorted _) (BTreeMap.keys_sorted _) ?_
  refine (List.perm_ext_iff_of_nodup (BTreeMap.keys_nodup _) (BTreeMap.keys_nodup _)).mpr fun k =>
    ?_
  simp only [mem_keys_group, hp.mem_iff]

/-- The parts of a list under distinct names that cover it. -/
theorem flatten_filter_perm {names : List κ} (hdistinct : names.Nodup)
    (hcover : ∀ a ∈ l, name a ∈ names) :
    ((names.map fun k => l.filter (name · = k)).flatten).Perm l := by
  induction names generalizing l with
  | nil =>
      have hl : l = [] := List.eq_nil_iff_forall_not_mem.mpr fun a ha =>
        List.not_mem_nil (hcover a ha)
      rw [hl]
      exact .refl _
  | cons k names ih =>
      obtain ⟨hk, hnames⟩ := List.nodup_cons.mp hdistinct
      have hrest : names.map (fun k' => l.filter (name · = k'))
          = names.map fun k' => (l.filter (name · ≠ k)).filter (name · = k') := by
        refine List.map_congr_left fun k' hk' => ?_
        rw [List.filter_filter]
        refine List.filter_congr fun a _ => ?_
        by_cases ha : name a = k'
        · have hne : k' ≠ k := fun he => hk (he ▸ hk')
          simp [ha, hne]
        · simp [ha]
      rw [List.map_cons, List.flatten_cons, hrest]
      have hcover' : ∀ a ∈ l.filter (name · ≠ k), name a ∈ names := by
        intro a ha
        obtain ⟨hal, hne⟩ := List.mem_filter.mp ha
        exact (List.mem_cons.mp (hcover a hal)).resolve_left (of_decide_eq_true hne)
      have hsplit := List.filter_append_perm (fun a => decide (name a = k)) l
      refine ((ih hnames hcover').append_left _).trans (.trans (.of_eq ?_) hsplit)
      congr 1
      exact List.filter_congr fun a _ => by simp

/-- Every element is in one group. -/
theorem flatten_group_perm (name : α → κ) (l : List α) :
    ((group name l).values.flatten).Perm l := by
  have hvalues : (group name l).values = (group name l).keys.map fun k =>
      l.filter (name · = k) := by
    rw [BTreeMap.values, entries_group, List.map_map]
    rfl
  rw [hvalues]
  exact flatten_filter_perm (BTreeMap.keys_nodup _) fun a ha => mem_keys_group.mpr ⟨a, ha, rfl⟩

end Groups

end Select
