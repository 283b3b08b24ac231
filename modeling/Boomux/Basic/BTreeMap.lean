import Mathlib.Order.Lattice
import Mathlib.Data.List.Nodup
import Mathlib.Data.List.Perm.Basic
import Mathlib.Algebra.BigOperators.Group.List.Basic

/-!
# Ordered maps

A map as its entries in the order of their keys. Inserting under a key that has an entry replaces
it; the entries that a test retains stay in their order.
-/

set_option autoImplicit false

/-- A `BTreeMap`: its entries, each key once, in order. -/
structure BTreeMap (κ ν : Type*) [LinearOrder κ] where
  entries : List (κ × ν)
  sorted : entries.Pairwise fun a b => a.1 < b.1

namespace BTreeMap

variable {κ ν : Type*} [LinearOrder κ] {m : BTreeMap κ ν} {k j : κ} {v w : ν}

instance [DecidableEq ν] : DecidableEq (BTreeMap κ ν) := fun m m' =>
  decidable_of_iff (m.entries = m'.entries) ⟨fun h => by cases m; cases m'; cases h; rfl,
    fun h => by rw [h]⟩

/-! ## Operations -/

def empty : BTreeMap κ ν := ⟨[], List.Pairwise.nil⟩

def keys (m : BTreeMap κ ν) : List κ := m.entries.map Prod.fst

def values (m : BTreeMap κ ν) : List ν := m.entries.map Prod.snd

def len (m : BTreeMap κ ν) : ℕ := m.entries.length

def containsKey (m : BTreeMap κ ν) (k : κ) : Bool := m.entries.any (·.1 = k)

def lookup (m : BTreeMap κ ν) (k : κ) : Option ν := (m.entries.find? (·.1 = k)).map Prod.snd

/-- `retain`, with a test of the key and the value. -/
def retain (m : BTreeMap κ ν) (p : κ × ν → Bool) : BTreeMap κ ν :=
  ⟨m.entries.filter p, m.sorted.filter p⟩

def remove (m : BTreeMap κ ν) (k : κ) : BTreeMap κ ν := m.retain (·.1 ≠ k)

/-- `insert`: what the map holds under the key, if anything, gives way. -/
def insert (m : BTreeMap κ ν) (k : κ) (v : ν) : BTreeMap κ ν where
  entries := m.entries.filter (·.1 < k) ++ (k, v) :: m.entries.filter (k < ·.1)
  sorted := by
    rw [List.pairwise_append, List.pairwise_cons]
    refine ⟨m.sorted.filter _, ⟨?_, m.sorted.filter _⟩, ?_⟩
    · intro a ha
      exact of_decide_eq_true (List.mem_filter.mp ha).2
    · intro a ha b hb
      have hak : a.1 < k := of_decide_eq_true (List.mem_filter.mp ha).2
      rcases List.mem_cons.mp hb with rfl | hb
      · exact hak
      · exact hak.trans (of_decide_eq_true (List.mem_filter.mp hb).2)

/-- A map collected from pairs: of several under one key the last stays. -/
def collect (pairs : List (κ × ν)) : BTreeMap κ ν :=
  pairs.foldl (fun m pair => m.insert pair.1 pair.2) empty

/-! ## Keys -/

theorem keys_sorted (m : BTreeMap κ ν) : m.keys.Pairwise (· < ·) := by
  unfold keys
  rw [List.pairwise_map]
  exact m.sorted

theorem keys_nodup (m : BTreeMap κ ν) : m.keys.Nodup := m.keys_sorted.imp ne_of_lt

@[simp]
theorem length_keys : m.keys.length = m.len := List.length_map _

theorem mem_keys : k ∈ m.keys ↔ ∃ v, (k, v) ∈ m.entries := by
  simp [keys]

theorem containsKey_iff : m.containsKey k = true ↔ k ∈ m.keys := by
  simp [containsKey, keys]

theorem mem_keys_of_mem (h : (k, v) ∈ m.entries) : k ∈ m.keys := mem_keys.mpr ⟨v, h⟩

theorem mem_values : v ∈ m.values ↔ ∃ k, (k, v) ∈ m.entries := by
  simp [values]

/-- A key has one entry. -/
theorem entry_unique (h : (k, v) ∈ m.entries) (h' : (k, w) ∈ m.entries) : v = w := by
  have hpair := List.inj_on_of_nodup_map m.keys_nodup h h' rfl
  exact (Prod.mk.inj hpair).2

theorem lookup_eq_some : m.lookup k = some v ↔ (k, v) ∈ m.entries := by
  unfold lookup
  rw [Option.map_eq_some_iff]
  constructor
  · rintro ⟨⟨j, w⟩, hfind, rfl⟩
    obtain rfl : j = k := by simpa using List.find?_some hfind
    exact List.mem_of_find?_eq_some hfind
  · intro hmem
    obtain ⟨a, ha⟩ : ∃ a, m.entries.find? (·.1 = k) = some a :=
      Option.isSome_iff_exists.mp (List.find?_isSome.mpr ⟨(k, v), hmem, decide_eq_true rfl⟩)
    obtain rfl : a.1 = k := by simpa using List.find?_some ha
    exact ⟨a, ha, entry_unique (List.mem_of_find?_eq_some ha) hmem⟩

/-- Maps with the same values are equal. -/
theorem ext_lookup {m' : BTreeMap κ ν} (h : ∀ k, m.lookup k = m'.lookup k) : m = m' := by
  have hmem (k : κ) (v : ν) : (k, v) ∈ m.entries ↔ (k, v) ∈ m'.entries := by
    rw [← lookup_eq_some, ← lookup_eq_some, h]
  have hperm : m.entries.Perm m'.entries :=
    (List.perm_ext_iff_of_nodup (List.Nodup.of_map _ m.keys_nodup)
      (List.Nodup.of_map _ m'.keys_nodup)).mpr fun ⟨k, v⟩ => hmem k v
  have hentries : m.entries = m'.entries :=
    hperm.eq_of_pairwise (fun a b _ _ hab hba => absurd hab hba.asymm) m.sorted m'.sorted
  cases m
  cases m'
  congr

/-! ## Retaining -/

theorem mem_retain {p : κ × ν → Bool} : (k, v) ∈ (m.retain p).entries ↔ (k, v) ∈ m.entries
    ∧ p (k, v) = true :=
  List.mem_filter

theorem retain_of_forall {p : κ × ν → Bool} (h : ∀ a ∈ m.entries, p a = true) : m.retain p = m := by
  obtain ⟨entries, sorted⟩ := m
  unfold retain
  congr
  exact List.filter_eq_self.mpr h

theorem mem_remove : (j, w) ∈ (m.remove k).entries ↔ (j, w) ∈ m.entries ∧ j ≠ k := by
  unfold remove
  rw [mem_retain, decide_eq_true_iff]

/-! ## Inserting -/

/-- The entries after an insertion: the new one and those under other keys. -/
theorem entries_insert_perm (m : BTreeMap κ ν) (k : κ) (v : ν) :
    (m.insert k v).entries.Perm ((k, v) :: (m.remove k).entries) := by
  have hsplit : (m.remove k).entries.Perm
      (m.entries.filter (·.1 < k) ++ m.entries.filter (k < ·.1)) := by
    have hpart := List.filter_append_perm (fun a : κ × ν => decide (a.1 < k)) (m.remove k).entries
    refine hpart.symm.trans (List.Perm.of_eq ?_)
    unfold remove retain
    simp only [List.filter_filter]
    congr 1
    · refine List.filter_congr fun a _ => ?_
      by_cases h : a.1 < k
      · simp [h, h.ne]
      · simp [h]
    · refine List.filter_congr fun a _ => ?_
      rcases lt_trichotomy a.1 k with h | h | h
      · simp [h, h.le]
      · simp [h]
      · simp [h, h.ne', h.le]
  exact List.perm_middle.trans (hsplit.symm.cons _)

theorem mem_insert : (j, w) ∈ (m.insert k v).entries ↔ (j = k ∧ w = v)
    ∨ ((j, w) ∈ m.entries ∧ j ≠ k) := by
  rw [(m.entries_insert_perm k v).mem_iff, List.mem_cons, mem_remove, Prod.mk.injEq]

theorem mem_keys_insert : j ∈ (m.insert k v).keys ↔ j = k ∨ j ∈ m.keys := by
  simp only [mem_keys, mem_insert]
  constructor
  · rintro ⟨w, ⟨rfl, -⟩ | ⟨hm, -⟩⟩
    · exact Or.inl rfl
    · exact Or.inr ⟨w, hm⟩
  · rintro (rfl | ⟨w, hm⟩)
    · exact ⟨v, Or.inl ⟨rfl, rfl⟩⟩
    · by_cases h : j = k
      · exact ⟨v, Or.inl ⟨h, rfl⟩⟩
      · exact ⟨w, Or.inr ⟨hm, h⟩⟩

theorem lookup_insert (m : BTreeMap κ ν) (k : κ) (v : ν) (j : κ) :
    (m.insert k v).lookup j = if j = k then some v else m.lookup j := by
  refine Option.ext fun w => ?_
  rw [lookup_eq_some, mem_insert]
  split
  · rename_i h
    simp [h, eq_comm]
  · rename_i h
    simp [h, lookup_eq_some]

theorem lookup_remove (m : BTreeMap κ ν) (k j : κ) :
    (m.remove k).lookup j = if j = k then none else m.lookup j := by
  refine Option.ext fun w => ?_
  rw [lookup_eq_some, mem_remove]
  split
  · rename_i h
    simp [h]
  · rename_i h
    simp [h, lookup_eq_some]

theorem values_insert_perm (m : BTreeMap κ ν) (k : κ) (v : ν) :
    (m.insert k v).values.Perm (v :: (m.remove k).values) :=
  (m.entries_insert_perm k v).map Prod.snd

theorem len_insert (m : BTreeMap κ ν) (k : κ) (v : ν) :
    (m.insert k v).len = (m.remove k).len + 1 :=
  (m.entries_insert_perm k v).length_eq

theorem remove_of_not_mem (h : k ∉ m.keys) : m.remove k = m := by
  refine retain_of_forall fun a ha => ?_
  rw [decide_eq_true_iff]
  rintro rfl
  exact h (mem_keys_of_mem ha)

/-- Putting in what is there changes nothing. -/
theorem insert_of_lookup (h : m.lookup k = some v) : m.insert k v = m := by
  refine ext_lookup fun j => ?_
  rw [lookup_insert]
  split
  next hj => rw [hj, h]
  next => rfl

/-! ## Collecting -/

theorem foldl_insert_perm (pairs : List (κ × ν)) (m : BTreeMap κ ν)
    (h : (m.keys ++ pairs.map Prod.fst).Nodup) :
    (pairs.foldl (fun m pair => m.insert pair.1 pair.2) m).entries.Perm (m.entries ++ pairs) := by
  induction pairs generalizing m with
  | nil => simp
  | cons pair pairs ih =>
      obtain ⟨k, v⟩ := pair
      rw [List.map_cons, List.nodup_append, List.nodup_cons] at h
      obtain ⟨hm, ⟨hk, hpairs⟩, hdisjoint⟩ := h
      have hnew : k ∉ m.keys := fun hmem => hdisjoint k hmem k (List.mem_cons_self ..) rfl
      have hinsert : (m.insert k v).entries.Perm ((k, v) :: m.entries) := by
        have hperm := m.entries_insert_perm k v
        rwa [remove_of_not_mem hnew] at hperm
      refine (ih (m.insert k v) ?_).trans ?_
      · rw [List.nodup_append]
        refine ⟨keys_nodup _, hpairs, ?_⟩
        intro j hj j' hj' heq
        subst heq
        rcases mem_keys_insert.mp hj with rfl | hj
        · exact hk hj'
        · exact hdisjoint j hj j (List.mem_cons_of_mem _ hj') rfl
      · exact (hinsert.append_right pairs).trans List.perm_middle.symm

/-- Pairs under distinct keys are all there, in the keys' order. -/
theorem entries_collect_perm {pairs : List (κ × ν)} (h : (pairs.map Prod.fst).Nodup) :
    (collect pairs).entries.Perm pairs := by
  simpa [collect, empty] using foldl_insert_perm pairs empty (by simpa [keys, empty] using h)

/-- The order of pairs under distinct keys is of no account. -/
theorem collect_eq_of_perm {pairs pairs' : List (κ × ν)} (h : (pairs.map Prod.fst).Nodup)
    (hp : pairs.Perm pairs') : collect pairs = collect pairs' := by
  have h' : (pairs'.map Prod.fst).Nodup := (hp.map Prod.fst).nodup_iff.mp h
  refine ext_lookup fun k => Option.ext fun v => ?_
  rw [lookup_eq_some, lookup_eq_some, (entries_collect_perm h).mem_iff, hp.mem_iff,
    (entries_collect_perm h').mem_iff]

/-! ## The first of each key -/

/-- A map filled by `entry(..).or_insert(..)`: of several pairs under one key the first stays. -/
def collectFirst (pairs : List (κ × ν)) : BTreeMap κ ν :=
  pairs.foldl (fun m pair => if m.containsKey pair.1 then m else m.insert pair.1 pair.2) empty

theorem containsKey_iff_lookup : m.containsKey k = true ↔ (m.lookup k).isSome = true := by
  rw [containsKey_iff, mem_keys, Option.isSome_iff_exists]
  exact exists_congr fun _ => lookup_eq_some.symm

theorem lookup_collectFirst (pairs : List (κ × ν)) (k : κ) :
    (collectFirst pairs).lookup k = (pairs.find? (·.1 = k)).map Prod.snd := by
  have hrun (m : BTreeMap κ ν) : (pairs.foldl (fun m pair => if m.containsKey pair.1 then m
      else m.insert pair.1 pair.2) m).lookup k = (m.lookup k).or
        ((pairs.find? (·.1 = k)).map Prod.snd) := by
    induction pairs generalizing m with
    | nil => simp
    | cons pair pairs ih =>
        rw [List.foldl_cons, ih, List.find?_cons]
        by_cases hk : pair.1 = k
        · subst hk
          cases hm : m.lookup pair.1 with
          | none =>
              have hnew : m.containsKey pair.1 = false := by
                rw [← Bool.not_eq_true, containsKey_iff_lookup, hm]
                exact Bool.false_ne_true
              simp [hnew, lookup_insert]
          | some v =>
              have hold : m.containsKey pair.1 = true := by
                rw [containsKey_iff_lookup, hm]
                rfl
              simp [hold, hm]
        · have hsame : (if m.containsKey pair.1 then m else m.insert pair.1 pair.2).lookup k =
              m.lookup k := by
            split
            · rfl
            · rw [lookup_insert, if_neg (Ne.symm hk)]
          simp [hsame, hk]
  rw [collectFirst, hrun empty]
  simp [lookup, empty]

end BTreeMap
