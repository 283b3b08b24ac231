import Boomux.Basic.HashMap

/-!
# Records listed by their owners

Two maps: of owners, each with a list of keys, and of members, each with the key of its owner.
`Listed` says that the lists are a second index of the members: every member is in the list of its
owner, once, and the lists have nothing else. The lemmas are for the edits that change both maps at
once.
-/

set_option autoImplicit false

namespace Rust

variable {κ ι ω μ : Type} [DecidableEq κ] [DecidableEq ι]

/-- The lists of the owners are the members, by owner. -/
structure Listed (list : ω → List ι) (owner : μ → κ) (owners : HashMap κ ω)
    (members : HashMap ι μ) : Prop where
  nodup : ∀ {o w}, owners.lookup o = some w → (list w).Nodup
  listed : ∀ {i m}, members.lookup i = some m → ∃ w, owners.lookup (owner m) = some w ∧ i ∈ list w
  owned : ∀ {o w i}, owners.lookup o = some w → i ∈ list w → ∃ m, members.lookup i = some m
    ∧ owner m = o

namespace Listed

variable {list : ω → List ι} {owner : μ → κ} {owners owners' : HashMap κ ω}
    {members members' : HashMap ι μ}
  {o : κ} {w w' : ω} {i : ι} {m m' : μ}

theorem empty : Listed list owner (∅ : HashMap κ ω) (∅ : HashMap ι μ) where
  nodup h := by cases h
  listed h := by cases h
  owned h := by cases h

theorem congr (h : Listed list owner owners members) (ho : HashMap.Same owners owners')
    (hm : HashMap.Same members members') : Listed list owner owners' members' where
  nodup hw := h.nodup ((ho _).trans hw)
  listed hi := by
    obtain ⟨w, hw, hmem⟩ := h.listed ((hm _).trans hi)
    exact ⟨w, (ho _).symm.trans hw, hmem⟩
  owned hw hi := by
    obtain ⟨m, hm', howner⟩ := h.owned ((ho _).trans hw) hi
    exact ⟨m, (hm _).symm.trans hm', howner⟩

/-- A key without a member is in no list. -/
theorem not_mem (h : Listed list owner owners members) (hw : owners.lookup o = some w)
    (hi : members.lookup i = none) : i ∉ list w := by
  intro hmem
  obtain ⟨m, hm, -⟩ := h.owned hw hmem
  rw [hi] at hm
  cases hm

theorem mem (h : Listed list owner owners members) (hw : owners.lookup (owner m) = some w)
    (hi : members.lookup i = some m) : i ∈ list w := by
  obtain ⟨w', hw', hmem⟩ := h.listed hi
  rw [hw] at hw'
  obtain rfl := Option.some.inj hw'
  exact hmem

/-- A member is listed by its owner alone. -/
theorem owner_eq (h : Listed list owner owners members) (hw : owners.lookup o = some w)
    (hmem : i ∈ list w)
    (hi : members.lookup i = some m) : owner m = o := by
  obtain ⟨m', hm', howner⟩ := h.owned hw hmem
  rw [hi] at hm'
  obtain rfl := Option.some.inj hm'
  exact howner

/-! ## Edits of one record -/

/-- An owner is edited, its list apart. -/
theorem editOwner (h : Listed list owner owners members) (hw : owners.lookup o = some w)
    (hlist : list w' = list w) : Listed list owner (owners.insert o w') members where
  nodup := by
    intro p v hv
    rw [HashMap.get_insert] at hv
    split at hv
    next =>
      obtain rfl := Option.some.inj hv
      rw [hlist]
      exact h.nodup hw
    next => exact h.nodup hv
  listed := by
    intro j n hn
    obtain ⟨v, hv, hmem⟩ := h.listed hn
    by_cases hp : owner n = o
    · rw [hp, hw] at hv
      obtain rfl := Option.some.inj hv
      exact ⟨w', by rw [HashMap.get_insert, if_pos hp], hlist ▸ hmem⟩
    · exact ⟨v, by rw [HashMap.get_insert, if_neg hp, hv], hmem⟩
  owned := by
    intro p v j hv hmem
    rw [HashMap.get_insert] at hv
    split at hv
    next hp =>
      obtain rfl := Option.some.inj hv
      obtain ⟨n, hn, howner⟩ := h.owned hw (hlist ▸ hmem)
      exact ⟨n, hn, howner.trans hp.symm⟩
    next => exact h.owned hv hmem

/-- A member is edited, its owner apart. -/
theorem editMember (h : Listed list owner owners members) (hi : members.lookup i = some m)
    (howner : owner m' = owner m) : Listed list owner owners (members.insert i m') where
  nodup := h.nodup
  listed := by
    intro j n hn
    rw [HashMap.get_insert] at hn
    split at hn
    next hj =>
      obtain rfl := Option.some.inj hn
      rw [howner, hj]
      exact h.listed hi
    next => exact h.listed hn
  owned := by
    intro p v j hv hmem
    obtain ⟨n, hn, hp⟩ := h.owned hv hmem
    by_cases hj : j = i
    · rw [hj, hi] at hn
      obtain rfl := Option.some.inj hn
      exact ⟨m', by rw [HashMap.get_insert, if_pos hj], howner.trans hp⟩
    · exact ⟨n, by rw [HashMap.get_insert, if_neg hj, hn], hp⟩

/-! ## Adding and removing -/

/-- A new member is put at the end of its owner's list. -/
theorem add (h : Listed list owner owners members) (hw : owners.lookup o = some w)
    (hi : members.lookup i = none) (howner : owner m = o) (hlist : list w' = list w ++ [i]) :
    Listed list owner (owners.insert o w') (members.insert i m) where
  nodup := by
    intro p v hv
    rw [HashMap.get_insert] at hv
    split at hv
    next =>
      obtain rfl := Option.some.inj hv
      rw [hlist]
      exact (h.nodup hw).append (List.nodup_singleton i)
        (List.disjoint_singleton.mpr (h.not_mem hw hi))
    next => exact h.nodup hv
  listed := by
    intro j n hn
    rw [HashMap.get_insert] at hn
    split at hn
    next hj =>
      obtain rfl := Option.some.inj hn
      refine ⟨w', by rw [HashMap.get_insert, if_pos howner], ?_⟩
      rw [hlist, hj]
      exact List.mem_append_right _ List.mem_cons_self
    next =>
      obtain ⟨v, hv, hmem⟩ := h.listed hn
      -- The owner of another member may be the one whose list grows.
      by_cases hp : owner n = o
      · rw [hp, hw] at hv
        obtain rfl := Option.some.inj hv
        refine ⟨w', by rw [HashMap.get_insert, if_pos hp], ?_⟩
        rw [hlist]
        exact List.mem_append_left _ hmem
      · exact ⟨v, by rw [HashMap.get_insert, if_neg hp, hv], hmem⟩
  owned := by
    intro p v j hv hmem
    rw [HashMap.get_insert] at hv
    split at hv
    next hp =>
      obtain rfl := Option.some.inj hv
      rw [hlist] at hmem
      by_cases hj : j = i
      -- The last of the list is the new member, and the others were there.
      · exact ⟨m, by rw [HashMap.get_insert, if_pos hj], howner.trans hp.symm⟩
      · have hold : j ∈ list w := by
          rcases List.mem_append.mp hmem with hold | hlast
          · exact hold
          · exact absurd (List.mem_singleton.mp hlast) hj
        obtain ⟨n, hn, hq⟩ := h.owned hw hold
        exact ⟨n, by rw [HashMap.get_insert, if_neg hj, hn], hq.trans hp.symm⟩
    next =>
      obtain ⟨n, hn, hq⟩ := h.owned hv hmem
      have hj : j ≠ i := by
        rintro rfl
        rw [hi] at hn
        cases hn
      exact ⟨n, by rw [HashMap.get_insert, if_neg hj, hn], hq⟩

/-- A member is taken out of its owner's list. -/
theorem remove (h : Listed list owner owners members) (hw : owners.lookup o = some w)
    (hi : members.lookup i = some m) (howner : owner m = o) (hlist : list w' = (list w).erase i) :
    Listed list owner (owners.insert o w') (members.erase i) where
  nodup := by
    intro p v hv
    rw [HashMap.get_insert] at hv
    split at hv
    next =>
      obtain rfl := Option.some.inj hv
      rw [hlist]
      exact (h.nodup hw).erase i
    next => exact h.nodup hv
  listed := by
    intro j n hn
    rw [HashMap.get_erase] at hn
    split at hn
    next => cases hn
    next hj =>
      obtain ⟨v, hv, hmem⟩ := h.listed hn
      by_cases hp : owner n = o
      · rw [hp, hw] at hv
        obtain rfl := Option.some.inj hv
        refine ⟨w', by rw [HashMap.get_insert, if_pos hp], ?_⟩
        rw [hlist]
        exact (List.mem_erase_of_ne hj).mpr hmem
      · exact ⟨v, by rw [HashMap.get_insert, if_neg hp, hv], hmem⟩
  owned := by
    intro p v j hv hmem
    rw [HashMap.get_insert] at hv
    split at hv
    next hp =>
      obtain rfl := Option.some.inj hv
      rw [hlist] at hmem
      obtain ⟨hj, hold⟩ := (h.nodup hw).mem_erase_iff.mp hmem
      obtain ⟨n, hn, hq⟩ := h.owned hw hold
      exact ⟨n, by rw [HashMap.get_erase, if_neg hj, hn], hq.trans hp.symm⟩
    next hp =>
      obtain ⟨n, hn, hq⟩ := h.owned hv hmem
      have hj : j ≠ i := by
        rintro rfl
        rw [hi] at hn
        obtain rfl := Option.some.inj hn
        exact hp (hq.symm.trans howner)
      exact ⟨n, by rw [HashMap.get_erase, if_neg hj, hn], hq⟩

/-- A new owner comes with new members. -/
theorem addOwner {entries : List (ι × μ)} (h : Listed list owner owners members)
    (hw : owners.lookup o = none) (hnew : ∀ e ∈ entries, members.lookup e.1 = none)
    (hnodup : (entries.map Prod.fst).Nodup) (howner : ∀ e ∈ entries, owner e.2 = o)
    (hlist : list w = entries.map Prod.fst) :
    Listed list owner (owners.insert o w) (HashMap.insertAll members entries) where
  nodup := by
    intro p v hv
    rw [HashMap.get_insert] at hv
    split at hv
    next =>
      obtain rfl := Option.some.inj hv
      rwa [hlist]
    next => exact h.nodup hv
  listed := by
    intro j n hn
    rcases HashMap.mem_of_get_insertAll hn with hmem | hold
    · refine ⟨w, by rw [HashMap.get_insert, if_pos (howner _ hmem)], ?_⟩
      rw [hlist]
      exact List.mem_map_of_mem hmem
    · obtain ⟨v, hv, hmem⟩ := h.listed hold
      have hp : owner n ≠ o := by
        intro hp
        rw [hp, hw] at hv
        cases hv
      exact ⟨v, by rw [HashMap.get_insert, if_neg hp, hv], hmem⟩
  owned := by
    intro p v j hv hmem
    rw [HashMap.get_insert] at hv
    split at hv
    next hp =>
      obtain rfl := Option.some.inj hv
      rw [hlist] at hmem
      obtain ⟨e, he, rfl⟩ := List.mem_map.mp hmem
      refine ⟨e.2, HashMap.get_insertAll_of_mem he (fun n hn => ?_) members,
        (howner e he).trans hp.symm⟩
      exact (Prod.mk.inj (List.inj_on_of_nodup_map hnodup hn he rfl)).2
    next hp =>
      obtain ⟨n, hn, hq⟩ := h.owned hv hmem
      have hj : ∀ n', (j, n') ∉ entries := by
        intro n' hn'
        have hnone := hnew _ hn'
        rw [hn] at hnone
        cases hnone
      exact ⟨n, by rw [HashMap.get_insertAll_of_not_mem hj, hn], hq⟩

/-- An owner goes with its members. -/
theorem removeOwner (h : Listed list owner owners members) (hw : owners.lookup o = some w) :
    Listed list owner (owners.erase o) (HashMap.eraseAll members (list w)) where
  nodup := by
    intro p v hv
    rw [HashMap.get_erase] at hv
    split at hv
    next => cases hv
    next => exact h.nodup hv
  listed := by
    intro j n hn
    rw [HashMap.get_eraseAll] at hn
    split at hn
    next => cases hn
    next hj =>
      obtain ⟨v, hv, hmem⟩ := h.listed hn
      have hp : owner n ≠ o := by
        intro hp
        rw [hp, hw] at hv
        obtain rfl := Option.some.inj hv
        exact hj hmem
      exact ⟨v, by rw [HashMap.get_erase, if_neg hp, hv], hmem⟩
  owned := by
    intro p v j hv hmem
    rw [HashMap.get_erase] at hv
    split at hv
    next => cases hv
    next hp =>
      obtain ⟨n, hn, hq⟩ := h.owned hv hmem
      have hj : j ∉ list w := fun hj => hp (hq.symm.trans (h.owner_eq hw hj hn))
      exact ⟨n, by rw [HashMap.get_eraseAll, if_neg hj, hn], hq⟩

end Listed

end Rust
