import Mathlib.Data.List.AList

/-!
# Hash maps

A `HashMap` is read by key only, so it is an association list without duplicate keys, and two
maps are the same when they agree on every key (`Same`). `eraseAll` takes a list of keys out
of a map, `insertAll` puts a list of entries in; putting back what was taken out gives the map
back.
-/

set_option autoImplicit false

namespace Rust

/-- `HashMap`. -/
abbrev HashMap (κ ν : Type) : Type := AList fun _ : κ => ν

namespace HashMap

variable {κ ν : Type} [DecidableEq κ] {m m' m'' : HashMap κ ν} {k : κ} {v : ν}

theorem get_insert (m : HashMap κ ν) (k : κ) (v : ν) (j : κ) :
    (m.insert k v).lookup j = if j = k then some v else m.lookup j := by
  split
  next h => rw [h, AList.lookup_insert]
  next h => exact AList.lookup_insert_ne h

theorem get_erase (m : HashMap κ ν) (k j : κ) :
    (m.erase k).lookup j = if j = k then none else m.lookup j := by
  split
  next h => rw [h, AList.lookup_erase]
  next h => exact AList.lookup_erase_ne h

/-! ## The same map -/

/-- The maps agree on every key. -/
def Same (m m' : HashMap κ ν) : Prop := ∀ k, m.lookup k = m'.lookup k

theorem Same.refl (m : HashMap κ ν) : Same m m := fun _ => rfl

theorem Same.symm (h : Same m m') : Same m' m := fun k => (h k).symm

theorem Same.trans (h : Same m m') (h' : Same m' m'') : Same m m'' :=
  fun k => (h k).trans (h' k)

theorem Same.insert (h : Same m m') (k : κ) (v : ν) :
    Same (m.insert k v) (m'.insert k v) := fun j => by
  rw [get_insert, get_insert, h j]

theorem Same.erase (h : Same m m') (k : κ) : Same (m.erase k) (m'.erase k) := fun j => by
  rw [get_erase, get_erase, h j]

/-- Taking a new entry out again. -/
theorem Same.erase_insert (hk : m.lookup k = none) (v : ν) : Same ((m.insert k v).erase k) m :=
  fun j => by
  rw [get_erase, get_insert]
  split
  next h => rw [h, hk]
  next h => rfl

/-- Putting an entry back where it was. -/
theorem Same.insert_erase (hk : m.lookup k = some v) :
    Same ((m.erase k).insert k v) m := fun j => by
  rw [get_insert, get_erase]
  split
  next h => rw [h, hk]
  next h => rfl

/-- Overwriting an entry and putting the old one back. -/
theorem Same.insert_insert (hk : m.lookup k = some v) (w : ν) :
    Same ((m.insert k w).insert k v) m := fun j => by
  rw [get_insert, get_insert]
  split
  next h => rw [h, hk]
  next h => rfl

/-! ## Editing an entry -/

/-- Editing the value of a key, if it has one. -/
def modify (m : HashMap κ ν) (k : κ) (f : ν → ν) : HashMap κ ν :=
  match m.lookup k with
  | some v => m.insert k (f v)
  | none => m

theorem get_modify (m : HashMap κ ν) (k : κ) (f : ν → ν) (j : κ) :
    (modify m k f).lookup j = if j = k then (m.lookup j).map f else m.lookup j := by
  unfold modify
  split
  next v hk =>
    rw [get_insert]
    split
    next h => rw [h, hk, Option.map_some]
    next => rfl
  next hk =>
    split
    next h => rw [h, hk, Option.map_none]
    next => rfl

/-- Editing an overwritten entry into the old one. -/
theorem Same.modify_insert (hk : m.lookup k = some v) {w : ν} {f : ν → ν} (hf : f w = v) :
    Same (modify (m.insert k w) k f) m := fun j => by
  rw [get_modify, get_insert]
  split
  next h => rw [Option.map_some, hf, h, hk]
  next h => rfl

theorem Same.modify (h : Same m m') (k : κ) (f : ν → ν) : Same (modify m k f) (modify m' k f) :=
  fun j => by
  rw [get_modify, get_modify, h j]

/-! ## All entries -/

/-- The entries, in an order that means nothing. -/
def toList (m : HashMap κ ν) : List (κ × ν) := (AList.entries m).map fun e => (e.1, e.2)

theorem mem_toList : (k, v) ∈ toList m ↔ m.lookup k = some v := by
  unfold toList
  constructor
  · intro h
    obtain ⟨e, he, heq⟩ := List.mem_map.mp h
    obtain ⟨rfl, rfl⟩ := Prod.mk.inj heq
    exact AList.mem_lookup_iff.mpr he
  · intro h
    exact List.mem_map.mpr ⟨⟨k, v⟩, AList.mem_lookup_iff.mp h, rfl⟩

/-! ## Several entries -/

/-- The entries of the keys that are in the map. -/
def entries (m : HashMap κ ν) (keys : List κ) : List (κ × ν) :=
  keys.filterMap fun k => (m.lookup k).map (k, ·)

/-- Taking keys out. -/
def eraseAll (m : HashMap κ ν) (keys : List κ) : HashMap κ ν := keys.foldl (fun m k => m.erase k) m

/-- Putting entries in. -/
def insertAll (m : HashMap κ ν) (entries : List (κ × ν)) : HashMap κ ν :=
  entries.foldl (fun m e => m.insert e.1 e.2) m

theorem mem_entries {keys : List κ} : (k, v) ∈ entries m keys ↔ k ∈ keys ∧ m.lookup k = some v := by
  unfold entries
  simp only [List.mem_filterMap, Option.map_eq_some_iff, Prod.mk.injEq]
  constructor
  · rintro ⟨k', hk', v', hv', rfl, rfl⟩
    exact ⟨hk', hv'⟩
  · rintro ⟨hk, hv⟩
    exact ⟨k, hk, v, hv, rfl, rfl⟩

theorem get_eraseAll (keys : List κ) (m : HashMap κ ν) (j : κ) :
    (eraseAll m keys).lookup j = if j ∈ keys then none else m.lookup j := by
  induction keys generalizing m with
  | nil => simp [eraseAll]
  | cons k keys ih =>
      show (eraseAll (m.erase k) keys).lookup j = _
      rw [ih, get_erase]
      by_cases hj : j = k
      · simp [hj]
      · simp [hj]

/-- A key that is not among the entries keeps its value. -/
theorem get_insertAll_of_not_mem {es : List (κ × ν)} (h : ∀ v, (k, v) ∉ es) (m : HashMap κ ν) :
    (insertAll m es).lookup k = m.lookup k := by
  induction es generalizing m with
  | nil => rfl
  | cons e es ih =>
      show (insertAll (m.insert e.1 e.2) es).lookup k = _
      have hne : k ≠ e.1 := fun he => h e.2 (he ▸ List.mem_cons_self)
      rw [ih (fun v hv => h v (List.mem_cons_of_mem _ hv)), get_insert, if_neg hne]

/-- A key whose entries all carry one value gets that value. -/
theorem get_insertAll_of_mem {es : List (κ × ν)} (hmem : (k, v) ∈ es)
    (h : ∀ w, (k, w) ∈ es → w = v) (m : HashMap κ ν) : (insertAll m es).lookup k = some v := by
  induction es generalizing m with
  | nil => exact absurd hmem List.not_mem_nil
  | cons e es ih =>
      show (insertAll (m.insert e.1 e.2) es).lookup k = _
      by_cases hlater : (k, v) ∈ es
      · exact ih hlater (fun w hw => h w (List.mem_cons_of_mem _ hw)) _
      · have he : e = (k, v) := by
          rcases List.mem_cons.mp hmem with he | he
          · exact he.symm
          · exact absurd he hlater
        have hnot : ∀ w, (k, w) ∉ es := fun w hw => by
          have hwv := h w (List.mem_cons_of_mem _ hw)
          exact hlater (hwv ▸ hw)
        rw [get_insertAll_of_not_mem hnot, he, get_insert, if_pos rfl]

/-- A value comes from an entry or was there before. -/
theorem mem_of_get_insertAll {es : List (κ × ν)} (h : (insertAll m es).lookup k = some v) :
    (k, v) ∈ es ∨ m.lookup k = some v := by
  induction es generalizing m with
  | nil => exact Or.inr h
  | cons e es ih =>
      rcases ih (show (insertAll (m.insert e.1 e.2) es).lookup k = some v from h) with hmem | hget
      · exact Or.inl (List.mem_cons_of_mem _ hmem)
      · rw [get_insert] at hget
        split at hget
        next hk =>
          obtain rfl := Option.some.inj hget
          exact Or.inl (hk ▸ List.mem_cons_self)
        next => exact Or.inr hget

/-- With distinct keys the map has exactly the entries. -/
theorem get_insertAll_eq_some {es : List (κ × ν)} (h : (es.map Prod.fst).Nodup) :
    (insertAll ∅ es).lookup k = some v ↔ (k, v) ∈ es := by
  constructor
  · intro hget
    rcases mem_of_get_insertAll hget with hmem | hempty
    · exact hmem
    · cases hempty
  · intro hmem
    refine get_insertAll_of_mem hmem (fun w hw => ?_) _
    exact (Prod.mk.inj (List.inj_on_of_nodup_map h hw hmem rfl)).2

theorem eraseAll_same (h : Same m m') (keys : List κ) : Same (eraseAll m keys) (eraseAll m' keys) :=
  fun j => by
  rw [get_eraseAll, get_eraseAll, h j]

theorem insertAll_same (h : Same m m') (es : List (κ × ν)) :
    Same (insertAll m es) (insertAll m' es) := by
  induction es generalizing m m' with
  | nil => exact h
  | cons e es ih => exact ih (h.insert e.1 e.2)

/-- Taking new entries out again. -/
theorem Same.eraseAll_insertAll {es : List (κ × ν)} (h : ∀ e ∈ es, m.lookup e.1 = none) :
    Same (eraseAll (insertAll m es) (es.map Prod.fst)) m := fun j => by
  rw [get_eraseAll]
  split
  next hj =>
    obtain ⟨e, he, rfl⟩ := List.mem_map.mp hj
    exact (h e he).symm
  next hj =>
    exact get_insertAll_of_not_mem (fun v hv => hj (List.mem_map.mpr ⟨(j, v), hv, rfl⟩)) m

/-- Putting back the entries of the keys that were taken out. -/
theorem Same.insertAll_eraseAll (m : HashMap κ ν) (keys : List κ) :
    Same (insertAll (eraseAll m keys) (entries m keys)) m := fun j => by
  cases hj : m.lookup j with
  | none =>
      have hnot : ∀ v, (j, v) ∉ entries m keys := fun v hv => by
        rw [(mem_entries.mp hv).2] at hj
        cases hj
      rw [get_insertAll_of_not_mem hnot, get_eraseAll, hj, ite_self]
  | some v =>
      by_cases hmem : j ∈ keys
      · have hvalue : ∀ w, (j, w) ∈ entries m keys → w = v := fun w hw => by
          rw [(mem_entries.mp hw).2] at hj
          exact Option.some.inj hj
        exact get_insertAll_of_mem (mem_entries.mpr ⟨hmem, hj⟩) hvalue _
      · have hnot : ∀ v, (j, v) ∉ entries m keys := fun v hv => hmem (mem_entries.mp hv).1
        rw [get_insertAll_of_not_mem hnot, get_eraseAll, if_neg hmem, hj]

end HashMap

end Rust
