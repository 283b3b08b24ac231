import Boomux.Basic.HashMap
import Boomux.Basic.Rust

/-!
# Recovery plans

Which panes of the desktop to recover next. A candidate's Shell is looked up in the list of Shells;
after a few lookups the list is indexed. The plan is that of looking every candidate up in the whole
list. A time is a number of seconds, and of a duration only whole seconds occur.
-/

set_option autoImplicit false

namespace Boomux.Desktop.Recovery

open Rust

def maxConcurrent : Nat := 4

/-! ## Retries -/

structure Retry where
  run : Option String
  deadline : Option Nat
  failures : Nat
  stopped : Bool
  deriving DecidableEq

namespace Retry

/-- `Retry::default`. -/
def new : Retry := ⟨none, none, 0, false⟩

def begin (retry : Retry) (run : Option String) : Retry :=
  let retry := if retry.run ≠ run then { retry with run := run, failures := 0, stopped := false }
    else retry
  { retry with deadline := none }

def succeeded (retry : Retry) (run : Option String) : Retry :=
  { retry.begin run with failures := 0, stopped := false }

/-- The pause after a number of failures in a row. -/
def backoff (failures : Nat) : Nat := min (1 <<< min (failures - 1) 5) 30

/-- `failed`; the count is a `u8` and stays at its greatest value. -/
def failed (retry : Retry) (stopped : Bool) (now : Nat) : Retry :=
  let failures := min (retry.failures + 1) 255
  { retry with failures := failures, stopped := stopped, deadline := some (now + backoff failures) }

def waiting (retry : Retry) (now : Nat) : Bool := retry.deadline.any (now < ·)

/-- A retry waits for at least a second and at most half a minute. -/
theorem backoff_bounds (failures : Nat) : 1 ≤ backoff failures ∧ backoff failures ≤ 30 := by
  have hpos : 0 < 1 <<< min (failures - 1) 5 := by
    rw [Nat.one_shiftLeft]
    exact Nat.two_pow_pos _
  unfold backoff
  omega

theorem waiting_failed (retry : Retry) (stopped : Bool) (now later : Nat) (h : now + 30 ≤ later) :
    (retry.failed stopped now).waiting later = false := by
  have hbound := (backoff_bounds (min (retry.failures + 1) 255)).2
  simp only [waiting, failed, Option.any_some, decide_eq_false_iff_not, Nat.not_lt]
  omega

end Retry

/-! ## Plans -/

structure Candidate where
  pane : Nat
  shell : String
  retry : Retry

structure Shell where
  id : String
  run : Option String
  eligible : Bool
  deriving DecidableEq

/-- `enumerate`. -/
def enumerate (shells : List Shell) : List (Nat × Shell) :=
  shells.zipIdx.map fun (shell, i) => (i, shell)

/-- The lookup in the list. -/
def lookup (shells : List Shell) (id : String) : Option (Nat × Shell) :=
  (enumerate shells).find? (·.2.id = id)

/-- The `index` of the Shells. -/
def indexOf (shells : List Shell) : HashMap String (Nat × Shell) :=
  HashMap.insertAll ∅ ((enumerate shells).map fun (i, shell) => (shell.id, (i, shell)))

/-- The variables of the loop of `plan`. -/
structure Progress where
  index : Option (HashMap String (Nat × Shell))
  directLookups : Nat
  result : List (Nat × Nat)

/-- The candidate's Shell: by a lookup in the list at first, then by the index, built when it is
needed. -/
def Progress.find (shells : List Shell) (progress : Progress) (id : String) :
    Option (Nat × Shell) × Progress :=
  if progress.directLookups < maxConcurrent then
    (lookup shells id, { progress with directLookups := progress.directLookups + 1 })
  else
    let index := progress.index.getD (indexOf shells)
    (index.lookup id, { progress with index := some index })

/-- A Shell that is not recovered: not eligible, or stopped on this very run. -/
def Candidate.rejects (candidate : Candidate) (shell : Shell) : Bool :=
  !shell.eligible || (candidate.retry.stopped && candidate.retry.run = shell.run)

/-- The loop of `plan`. -/
def planLoop (shells : List Shell) (limit now : Nat) : List Candidate → Progress → List (Nat × Nat)
  | [], progress => progress.result
  | candidate :: candidates, progress =>
      if candidate.retry.waiting now then planLoop shells limit now candidates progress
      else
        match progress.find shells candidate.shell with
        | (none, progress) => planLoop shells limit now candidates progress
        | (some (i, shell), progress) =>
            if candidate.rejects shell then planLoop shells limit now candidates progress
            else
              let result := progress.result ++ [(candidate.pane, i)]
              if result.length = limit then result
              else planLoop shells limit now candidates { progress with result := result }

def plan (candidates : List Candidate) (shells : List Shell) (available now : Nat) :
    List (Nat × Nat) :=
  let limit := min available maxConcurrent
  if limit = 0 then [] else planLoop shells limit now candidates ⟨none, 0, []⟩

/-! ## The plan without an index -/

variable {shells : List Shell} {limit now : Nat} {progress : Progress}

/-- What one candidate is planned as, looked up in the whole list. -/
def recovered (shells : List Shell) (now : Nat) (candidate : Candidate) : Option (Nat × Nat) :=
  if candidate.retry.waiting now then none
  else ((lookup shells candidate.shell).filter fun found => !candidate.rejects found.2).map
    fun found =>
    (candidate.pane, found.1)

/-- The index finds what the list has, for no two Shells share an id. -/
theorem lookup_indexOf (h : (shells.map (·.id)).Nodup) (id : String) :
    (indexOf shells).lookup id = lookup shells id := by
  have hids : (enumerate shells).map (·.2.id) = shells.map (·.id) := by
    simp only [enumerate, List.map_map]
    exact (List.map_map (f := Prod.fst) (g := Shell.id) (l := shells.zipIdx)).symm.trans
      (congrArg (List.map Shell.id) (List.zipIdx_map_fst 0 shells))
  have hnodup : (((enumerate shells).map fun (i, shell) =>
      (shell.id, (i, shell))).map Prod.fst).Nodup := by
    rw [List.map_map]
    exact hids ▸ h
  refine Option.ext fun found => ?_
  unfold indexOf
  rw [HashMap.get_insertAll_eq_some hnodup, lookup]
  constructor
  · intro hmem
    obtain ⟨⟨i, shell⟩, hfound, heq⟩ := List.mem_map.mp hmem
    obtain ⟨rfl, rfl⟩ := Prod.mk.inj heq
    obtain ⟨first, hfirst⟩ := Option.isSome_iff_exists.mp
      (List.find?_isSome (p := fun entry : Nat × Shell => decide (entry.2.id = shell.id)).mpr
        ⟨_, hfound, by simp⟩)
    have hid : first.2.id = shell.id := by simpa using List.find?_some hfirst
    rw [hfirst, List.inj_on_of_nodup_map (hids.symm ▸ h)
      (List.mem_of_find?_eq_some hfirst) hfound hid]
  · intro hfind
    have hid : found.2.id = id := by simpa using List.find?_some hfind
    exact List.mem_map.mpr ⟨found, List.mem_of_find?_eq_some hfind, by rw [← hid]⟩

/-- Nothing but the index of the Shells is ever used as the index. -/
def Progress.Indexed (shells : List Shell) (progress : Progress) : Prop :=
  ∀ index, progress.index = some index → index = indexOf shells

/-- Either lookup finds what the list has. -/
theorem Progress.Indexed.find (h : progress.Indexed shells) (hids : (shells.map (·.id)).Nodup)
    (id : String) :
    (progress.find shells id).1 = lookup shells id
      ∧ (progress.find shells id).2.Indexed shells
        ∧ (progress.find shells id).2.result = progress.result := by
  unfold Progress.find
  split
  · exact ⟨rfl, h, rfl⟩
  · have hindex : progress.index.getD (indexOf shells) = indexOf shells := by
      cases hsome : progress.index with
      | none => rfl
      | some index => exact h index hsome
    dsimp only
    rw [hindex]
    exact ⟨lookup_indexOf hids id, fun index hsome => (Option.some.inj hsome).symm, rfl⟩

/-- The loop adds what the candidates are recovered as, up to the limit. -/
theorem planLoop_eq (hids : (shells.map (·.id)).Nodup) (candidates : List Candidate)
    (h : progress.Indexed shells)
    (hlimit : progress.result.length < limit) : planLoop shells limit now candidates progress
      = (progress.result ++ candidates.filterMap (recovered shells now)).take limit := by
  induction candidates generalizing progress with
  | nil =>
      rw [planLoop, List.filterMap_nil, List.append_nil,
        List.take_of_length_le (Nat.le_of_lt hlimit)]
  | cons candidate candidates ih =>
      unfold planLoop
      cases hwaiting : candidate.retry.waiting now with
      -- The candidate waits for its next try.
      | true => simpa [recovered, hwaiting] using ih h hlimit
      | false =>
          obtain ⟨hfound, hindexed, hresult⟩ := h.find hids candidate.shell
          rcases hfind : progress.find shells candidate.shell with ⟨found, next⟩
          rw [hfind] at hfound hindexed hresult
          dsimp only at hfound hindexed hresult
          rw [← hresult] at hlimit ⊢
          cases found with
          -- No Shell is bound to the pane.
          | none => simpa [recovered, hwaiting, ← hfound] using ih hindexed hlimit
          | some pair =>
              obtain ⟨i, shell⟩ := pair
              dsimp only
              cases hrejects : candidate.rejects shell with
              | true => simpa [recovered, hwaiting, ← hfound, hrejects] using ih hindexed hlimit
              | false =>
                  have hrecovered : recovered shells now candidate = some (candidate.pane, i) := by
                    simp [recovered, hwaiting, ← hfound, hrejects]
                  have hsplit : next.result ++ (candidate.pane, i) :: candidates.filterMap
                      (recovered shells now)
                      = next.result ++ [(candidate.pane, i)] ++ candidates.filterMap
                        (recovered shells now) :=
                    List.append_cons _ _ _
                  rw [List.filterMap_cons_some hrecovered, hsplit]
                  simp only [Bool.false_eq_true, if_false]
                  -- With this candidate the limit may be reached, and the rest is cut.
                  split
                  next hfull => rw [List.take_left' hfull]
                  next hroom =>
                    refine @ih { next with result := next.result ++ [(candidate.pane, i)] }
                      hindexed ?_
                    rw [List.length_append, List.length_singleton] at hroom ⊢
                    omega

/-- The plan is the first pairs of those that every candidate, looked up in the whole list of
Shells, is recovered as. -/
theorem plan_eq_recovered (candidates : List Candidate) (shells : List Shell) (available now : Nat)
    (hids : (shells.map (·.id)).Nodup) :
    plan candidates shells available now
      = (candidates.filterMap (recovered shells now)).take (min available maxConcurrent) := by
  unfold plan
  dsimp only
  split
  next hzero => rw [hzero, List.take_zero]
  next hsome =>
    have hstart : Progress.Indexed shells ⟨none, 0, []⟩ := fun _ h => nomatch h
    rw [planLoop_eq hids candidates hstart (Nat.pos_of_ne_zero hsome), List.nil_append]

/-- Four candidates without a Shell and one that has ended do not use the one slot. -/
theorem plan_skips_rejected :
    plan [⟨0, "missing-1", .new⟩, ⟨1, "missing-2", .new⟩, ⟨2, "missing-3", .new⟩,
      ⟨3, "missing-4", .new⟩,
        ⟨4, "finished", .new⟩, ⟨5, "ready", .new⟩] [⟨"finished", none, false⟩,
          ⟨"ready", some "run", true⟩] 1 0
      = [(5, 1)] := by
  rw [plan_eq_recovered _ _ _ _ (by decide)]
  decide +kernel

end Boomux.Desktop.Recovery
