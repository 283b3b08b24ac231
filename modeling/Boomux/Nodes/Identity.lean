import Boomux.Basic.Run
import Boomux.Basic.Rust
import Mathlib.Data.List.Nodup

/-!
# Rekeying a Node

A Node's identity is replaced while no federation channel is admitted under it. A `World` is the
identity manager behind its lock, `node.json`, the channels that hold a lease and the rekeys that
wait for them to be dropped. An action is one critical section: the lock is let go only in
`wait_timeout`, so a rekey goes on when `wake` gives it the lock again, after a notification, a
spurious wake-up or its timeout.
-/

set_option autoImplicit false

namespace Boomux.Nodes.Identity

open Rust Transition

/-! ## Replacing the file -/

/-- The steps of `replace` that can fail. -/
inductive FileStep
  | parent | secureStateDir | acquireIdentityLock | load | serialize | createTemporary | writeAll
  | syncAll | rename
  deriving DecidableEq, Repr

/-- The steps that fail, and how. -/
abbrev Faults := FileStep → Option IoError

def attempt (faults : Faults) (step : FileStep) : Except IoError Unit :=
  match faults step with
  | none => .ok ()
  | some error => .error error

/-- What reading `node.json` gives. -/
abbrev File := Except IoError String

/-- `replace`, up to the rename, after which nothing fails; the new id is a fresh UUID. -/
def prepare (faults : Faults) (file : File) (expectedNodeId fresh : String) :
    Except IoError String := do
  attempt faults .parent
  attempt faults .secureStateDir
  attempt faults .acquireIdentityLock
  attempt faults .load
  let nodeId ← file
  require (nodeId = expectedNodeId) ⟨.invalidInput, "persisted Node identity changed before rekey"⟩
  attempt faults .serialize
  attempt faults .createTemporary
  attempt faults .writeAll
  attempt faults .syncAll
  attempt faults .rename
  pure fresh

/-- `replace`: its result, and the file after it. -/
def replace (faults : Faults) (file : File) (expectedNodeId fresh : String) :
    Except IoError String × File :=
  match prepare faults file expectedNodeId fresh with
  | .ok nodeId => (.ok nodeId, .ok nodeId)
  | .error error => (.error error, file)

/-! ## The world -/

/-- A lease that is held, and how many rekeys had succeeded when it was granted. -/
structure Lease where
  id : Nat
  granted : Nat
  deriving DecidableEq, Repr

/-- A rekey that has closed admission, and the identity when it was called. -/
structure Rekey where
  call : Nat
  expectedNodeId : String
  began : String
  deriving DecidableEq, Repr

/-- A rekey that has returned: its result, and the identity when it was called and when it returned.
-/
structure Returned where
  call : Nat
  expectedNodeId : String
  began : String
  result : Except IoError String
  after : String

/-- The manager's state, the file, and what the calls hold; the calls and the leases have numbers,
and `issued` counts the UUIDs. `foreign` says that another process has written the file. -/
structure World where
  identity : String
  admissionOpen : Bool
  admitted : Nat
  file : File
  leases : List Lease
  draining : List Rekey
  returned : List Returned
  calls : Nat
  granted : Nat
  issued : Nat
  foreign : Bool

/-- A manager that has loaded or created its identity. -/
def World.start (nodeId : String) : World where
  identity := nodeId
  admissionOpen := true
  admitted := 0
  file := .ok nodeId
  leases := []
  draining := []
  returned := []
  calls := 0
  granted := 0
  issued := 0
  foreign := false

/-- The rekeys that have succeeded. -/
def World.successes (w : World) : List Returned := w.returned.filter (·.result.isOk)

inductive Action
  | admitLease
  | drop (lease : Nat)
  | rekey (expectedNodeId : String) (expired : Bool) (faults : Faults)
  | wake (call : Nat) (timedOut expired : Bool) (faults : Faults)
  | write (file : File)

/-! ## Steps -/

namespace World

variable (uuid : Nat → String) (w : World)

/-- The rekey returns. -/
def reply (rekey : Rekey) (result : Except IoError String) : World :=
  { w with returned := w.returned ++
      [⟨rekey.call, rekey.expectedNodeId, rekey.began, result, w.identity⟩] }

def timedOut : IoError := ⟨.timedOut, "timed out draining active federation channels"⟩

/-- The rekey gives up: admission opens again, and all who wait are notified. -/
def giveUp (rekey : Rekey) (error : IoError) : World :=
  { w with admissionOpen := true }.reply rekey (.error error)

/-- The rekey installs the replacement, and admission opens again. -/
def install (rekey : Rekey) (nodeId : String) : World :=
  { w with identity := nodeId, admissionOpen := true }.reply rekey (.ok nodeId)

/-- The end of `rekey`, once no lease is held. -/
def finish (rekey : Rekey) (faults : Faults) : World :=
  let (result, file) := replace faults w.file rekey.expectedNodeId (uuid w.issued)
  let w := { w with file, issued := w.issued + 1 }
  match result with
  | .ok nodeId => w.install rekey nodeId
  | .error error => w.giveUp rekey error

/-- One turn of the loop of `rekey`, with the lock held; `expired` says that the deadline has
passed. -/
def turn (rekey : Rekey) (expired : Bool) (faults : Faults) : World :=
  if w.admitted ≠ 0 then
    if expired then w.giveUp rekey timedOut
    else { w with draining := w.draining ++ [rekey] }
  else w.finish uuid rekey faults

/-- `admit`. -/
def admitLease : Except IoError World := do
  require w.admissionOpen ⟨.wouldBlock, "Boomux Node federation admission is closed"⟩
  match checkedAdd w.admitted 1 with
  | none => .error (.ofMessage "Node federation admission count overflow")
  | some admitted =>
      .ok { w with
        admitted
        leases := w.leases ++ [⟨w.granted, w.successes.length⟩]
        granted := w.granted + 1 }

/-- `rekey`, up to its first wait. -/
def rekey (expectedNodeId : String) (expired : Bool) (faults : Faults) : World :=
  let call : Rekey := ⟨w.calls, expectedNodeId, w.identity⟩
  let w := { w with calls := w.calls + 1 }
  if w.identity ≠ expectedNodeId then
    w.reply call (.error ⟨.invalidInput,
      "current Node identity does not match the confirmed Node ID"⟩)
  else if !w.admissionOpen then
    w.reply call (.error ⟨.wouldBlock, "Boomux Node federation admission is already closed"⟩)
  else { w with admissionOpen := false }.turn uuid call expired faults

end World

/-- One critical section. A lease is dropped once, and only a rekey that waits is woken. -/
def step (uuid : Nat → String) (w : World) : Action → Option World
  | .admitLease => some (w.admitLease.toOption.getD w)
  | .drop lease =>
      if w.leases.any (·.id == lease) then
        some { w with admitted := w.admitted - 1, leases := w.leases.eraseP (·.id == lease) }
      else none
  | .rekey expectedNodeId expired faults => some (w.rekey uuid expectedNodeId expired faults)
  | .wake call timedOut expired faults =>
      (w.draining.find? (·.call == call)).map fun rekey =>
        let w := { w with draining := w.draining.eraseP (·.call == call) }
        if timedOut && w.admitted ≠ 0 then w.giveUp rekey World.timedOut
        else w.turn uuid rekey expired faults
  | .write file => some { w with file, foreign := true }

/-! ## What every section keeps -/

/-- The UUIDs issued so far are distinct, and none of them is the identity that the manager started
with. -/
structure FreshUuids (uuid : Nat → String) (nodeId : String) (issued : Nat) : Prop where
  distinct : ∀ m < issued, ∀ n < m, uuid m ≠ uuid n
  new : ∀ n < issued, uuid n ≠ nodeId

theorem FreshUuids.mono {uuid : Nat → String} {nodeId : String} {issued issued' : Nat}
    (h : FreshUuids uuid nodeId issued) (hle : issued' ≤ issued) : FreshUuids uuid nodeId issued' :=
  ⟨fun m hm => h.distinct m (Nat.lt_of_lt_of_le hm hle), fun n hn =>
    h.new n (Nat.lt_of_lt_of_le hn hle)⟩

variable {uuid : Nat → String} {first : String} {w u : World} {call : Rekey} {faults : Faults}

/-- The identities that were in use: the present one, and those that were replaced. -/
def World.history (w : World) : List String := w.identity :: w.successes.map (·.expectedNodeId)

/-- What holds whether or not a rekey is draining. -/
structure Kept (uuid : Nat → String) (first : String) (w : World) : Prop where
  admitted : w.admitted = w.leases.length
  file : w.foreign = false → w.file = .ok w.identity
  leases : ∀ lease ∈ w.leases, lease.granted = w.successes.length
  issued : ∀ nodeId ∈ w.history, nodeId = first ∨ ∃ n < w.issued, nodeId = uuid n
  distinct : FreshUuids uuid first w.issued → w.history.Nodup
  failed : ∀ r ∈ w.returned, ∀ error, r.result = .error error → r.after = r.began

/-- Admission is open unless one rekey drains, and that one confirmed the present identity. -/
def Gate (w : World) : Prop :=
  (w.draining = [] ∧ w.admissionOpen = true)
    ∨ ∃ rekey, w.draining = [rekey] ∧ w.admissionOpen = false ∧ rekey.began = w.identity
      ∧ rekey.expectedNodeId = w.identity

/-- The rekey holds the lock, has closed admission, and confirmed the present identity. -/
structure Holds (call : Rekey) (w : World) : Prop where
  alone : w.draining = []
  closed : w.admissionOpen = false
  began : call.began = w.identity
  expected : call.expectedNodeId = w.identity

theorem prepare_eq_ok {file : File} {expectedNodeId fresh nodeId : String}
    (h : prepare faults file expectedNodeId fresh = .ok nodeId) : nodeId = fresh := by
  unfold prepare at h
  simp only [bind_eq_ok] at h
  obtain ⟨-, -, -, -, -, -, -, -, -, -, -, -, -, -, -, -, -, -, -, -, -, -, h⟩ := h
  exact (Except.ok.inj h).symm

/-- A failed rekey that returns keeps everything but the list of returns. -/
theorem Kept.reply_error (h : Kept uuid first w) (hbegan : call.began = w.identity)
    (error : IoError) :
    Kept uuid first (w.reply call (.error error)) := by
  have hsuccesses : (w.reply call (.error error)).successes = w.successes := by
    simp [World.successes, World.reply, Except.isOk, Except.toBool]
  have hhistory : (w.reply call (.error error)).history = w.history := by
    rw [World.history, hsuccesses]
    rfl
  refine ⟨h.admitted, h.file, ?_, ?_, ?_, fun r hr => ?_⟩
  · rw [hsuccesses]
    exact h.leases
  · rw [hhistory]
    exact h.issued
  · rw [hhistory]
    exact h.distinct
  · rcases List.mem_append.mp hr with hr | hr
    · exact h.failed r hr
    · obtain rfl := List.mem_singleton.mp hr
      exact fun _ _ => hbegan.symm

theorem Kept.giveUp (h : Kept uuid first w) (hbegan : call.began = w.identity) (error : IoError) :
    Kept uuid first (w.giveUp call error) :=
  Kept.reply_error (w := { w with admissionOpen := true })
    ⟨h.admitted, h.file, h.leases, h.issued, h.distinct, h.failed⟩ hbegan error

/-- A rekey that replaces the identity, with no lease held. -/
theorem Kept.install (h : Kept uuid first w) (hidle : w.admitted = 0)
    (hexpected : call.expectedNodeId = w.identity) :
    Kept uuid first
      ({ w with file := .ok (uuid w.issued), issued := w.issued + 1 }.install call
        (uuid w.issued)) := by
  have hleases : w.leases = [] := List.eq_nil_of_length_eq_zero (h.admitted.symm.trans hidle)
  have hnew (hfresh : FreshUuids uuid first (w.issued + 1)) : uuid w.issued ∉ w.history := by
    intro hmem
    rcases h.issued _ hmem with hfirst | ⟨n, hn, he⟩
    · exact hfresh.new _ (Nat.lt_succ_self _) hfirst
    · exact hfresh.distinct _ (Nat.lt_succ_self _) n hn he
  -- The identities in use are those before, and the fresh one.
  have hhistory : ({ w with file := .ok (uuid w.issued), issued := w.issued + 1 }.install call
      (uuid w.issued)).history.Perm (uuid w.issued :: w.history) := by
    simp only [World.history, World.successes, World.install, World.reply, List.filter_append,
      List.map_append]
    refine List.Perm.cons _ ?_
    rw [← hexpected]
    exact @List.perm_append_comm _ _ [call.expectedNodeId]
  refine ⟨h.admitted, fun _ => rfl, ?_, fun nodeId hmem => ?_, ?_, fun r hr => ?_⟩
  · show ∀ lease ∈ w.leases, _
    rw [hleases]
    exact fun lease hlease => absurd hlease List.not_mem_nil
  · rcases List.mem_cons.mp (hhistory.mem_iff.mp hmem) with rfl | hmem
    · exact Or.inr ⟨w.issued, Nat.lt_succ_self _, rfl⟩
    · exact (h.issued nodeId hmem).imp_right fun ⟨n, hn, he⟩ => ⟨n, Nat.lt_succ_of_lt hn, he⟩
  · exact fun hfresh => hhistory.nodup_iff.mpr
      (List.nodup_cons.mpr ⟨hnew hfresh, h.distinct (hfresh.mono (Nat.le_succ _))⟩)
  · rcases List.mem_append.mp hr with hr | hr
    · exact h.failed r hr
    · obtain rfl := List.mem_singleton.mp hr
      exact fun error herror => by cases herror

theorem Kept.finish (h : Kept uuid first w) (hcall : Holds call w)
    (hidle : w.admitted = 0) (faults : Faults) :
    Kept uuid first (w.finish uuid call faults) ∧ Gate (w.finish uuid call faults) := by
  unfold World.finish replace
  cases hprepare : prepare faults w.file call.expectedNodeId (uuid w.issued) with
  | error error =>
      refine ⟨Kept.giveUp (w := { w with issued := w.issued + 1 }) ⟨h.admitted, h.file, h.leases,
        ?_, ?_,
        h.failed⟩ hcall.began error, Or.inl ⟨hcall.alone, rfl⟩⟩
      · exact fun nodeId hmem => (h.issued nodeId hmem).imp_right fun ⟨n, hn, he⟩ =>
          ⟨n, Nat.lt_succ_of_lt hn, he⟩
      · exact fun hfresh => h.distinct (hfresh.mono (Nat.le_succ _))
  | ok nodeId =>
      obtain rfl := prepare_eq_ok hprepare
      exact ⟨h.install hidle hcall.expected, Or.inl ⟨hcall.alone, rfl⟩⟩

/-- A turn of the loop of the rekey that has closed admission. -/
theorem Kept.turn (h : Kept uuid first w) (hcall : Holds call w) (expired : Bool)
    (faults : Faults) :
    Kept uuid first (w.turn uuid call expired faults) ∧ Gate (w.turn uuid call expired faults) := by
  unfold World.turn
  split
  · split
    · exact ⟨h.giveUp hcall.began World.timedOut, Or.inl ⟨hcall.alone, rfl⟩⟩
    · refine ⟨⟨h.admitted, h.file, h.leases, h.issued, h.distinct, h.failed⟩,
        Or.inr ⟨call, ?_, hcall.closed,
        hcall.began, hcall.expected⟩⟩
      show w.draining ++ [call] = [call]
      rw [hcall.alone, List.nil_append]
  next hidle => exact h.finish hcall (not_not.mp hidle) faults

/-- Every section keeps the invariant. -/
theorem step_kept (h : Kept uuid first w) (hgate : Gate w) {a : Action}
    (hstep : step uuid w a = some u) : Kept uuid first u ∧ Gate u := by
  cases a with
  | admitLease =>
      obtain rfl := Option.some.inj hstep
      cases hadmit : w.admitLease with
      | error error => exact ⟨h, hgate⟩
      | ok u =>
          obtain ⟨-, hadmit⟩ := require_bind_eq_ok.mp hadmit
          split at hadmit
          · cases hadmit
          next admitted hadd =>
              obtain rfl := Except.ok.inj hadmit
              refine ⟨⟨?_, h.file, fun lease hlease => ?_, h.issued, h.distinct, h.failed⟩, hgate⟩
              · show admitted = (w.leases ++ [_]).length
                rw [(checkedAdd_eq_some.mp hadd).2, h.admitted, List.length_append,
                  List.length_singleton]
              · rcases List.mem_append.mp hlease with hlease | hlease
                · exact h.leases lease hlease
                · rw [List.mem_singleton.mp hlease]
                  rfl
  | drop lease =>
      rw [step] at hstep
      split at hstep
      next hany =>
          obtain rfl := Option.some.inj hstep
          refine ⟨⟨?_, h.file, fun lease hlease => h.leases lease (List.mem_of_mem_eraseP hlease),
            h.issued,
            h.distinct, h.failed⟩, hgate⟩
          show w.admitted - 1 = (w.leases.eraseP _).length
          rw [h.admitted, List.length_eraseP, if_pos hany]
      next => cases hstep
  | rekey expectedNodeId expired faults =>
      obtain rfl := Option.some.inj hstep
      have hkept : Kept uuid first { w with calls := w.calls + 1 } :=
        ⟨h.admitted, h.file, h.leases, h.issued, h.distinct, h.failed⟩
      unfold World.rekey
      dsimp only
      split
      · exact ⟨hkept.reply_error rfl _, hgate⟩
      next hexpected =>
          split
          · exact ⟨hkept.reply_error rfl _, hgate⟩
          next hopen =>
              rcases hgate with ⟨halone, -⟩ | ⟨rekey, -, hclosed, -⟩
              · exact Kept.turn (w := { w with calls := w.calls + 1, admissionOpen := false })
                  ⟨h.admitted, h.file, h.leases, h.issued, h.distinct, h.failed⟩
                  ⟨halone, rfl, rfl, (not_not.mp hexpected).symm⟩ expired faults
              · rw [hclosed] at hopen
                exact absurd rfl hopen
  | wake call timedOut expired faults =>
      obtain ⟨rekey, hfind, rfl⟩ := Option.map_eq_some_iff.mp hstep
      rcases hgate with ⟨halone, -⟩ | ⟨only, honly, hclosed, hbegan, hexpected⟩
      · rw [halone] at hfind
        cases hfind
      · -- The rekey that drains is the only one, and it holds the lock again.
        have hmem := List.mem_of_find?_eq_some hfind
        rw [honly, List.mem_singleton] at hmem
        subst hmem
        have hleft : w.draining.eraseP (·.call == call) = [] := by
          have hcall := List.find?_some hfind
          rw [honly]
          exact List.eraseP_cons_of_pos (p := fun r : Rekey => r.call == call) hcall
        have hkept : Kept uuid first { w with draining := w.draining.eraseP (·.call == call) } :=
          ⟨h.admitted, h.file, h.leases, h.issued, h.distinct, h.failed⟩
        dsimp only
        split
        · exact ⟨hkept.giveUp hbegan World.timedOut, Or.inl ⟨hleft, rfl⟩⟩
        · exact hkept.turn ⟨hleft, hclosed, hbegan, hexpected⟩ expired faults
  | write file =>
      obtain rfl := Option.some.inj hstep
      exact ⟨⟨h.admitted, fun hforeign => Bool.noConfusion hforeign, h.leases, h.issued, h.distinct,
        h.failed⟩, hgate⟩

/-! ## Rekeys are safe -/

theorem start_kept (first : String) : Kept uuid first (World.start first)
    ∧ Gate (World.start first) := by
  refine ⟨⟨rfl, fun _ => rfl, ?_, ?_, ?_, ?_⟩, Or.inl ⟨rfl, rfl⟩⟩
  · exact fun lease hlease => absurd hlease List.not_mem_nil
  · exact fun nodeId hmem => Or.inl (List.mem_singleton.mp hmem)
  · exact fun _ => List.nodup_singleton first
  · exact fun r hr => absurd hr List.not_mem_nil

theorem reach_kept (h : Reach (step uuid) (fun _ _ => True) (World.start first) w) :
    Kept uuid first w ∧ Gate w :=
  h.invariant (I := fun w => Kept uuid first w ∧ Gate w) (start_kept first)
    fun _ _ _ hinv _ hstep => step_kept hinv.1 hinv.2 hstep

/-- With a lease held, a turn of a rekey leaves the identity. -/
theorem turn_of_admitted (hbusy : w.admitted ≠ 0) (call : Rekey) (expired : Bool)
    (faults : Faults) :
    (w.turn uuid call expired faults).identity = w.identity
      ∧ (w.turn uuid call expired faults).file = w.file := by
  rw [World.turn, if_pos hbusy]
  cases expired <;> exact ⟨rfl, rfl⟩

/-- The manager replaces the identity only while no lease is held. -/
theorem step_idle (h : Kept uuid first w) {a : Action} (hstep : step uuid w a = some u)
    (hown : ∀ file, a ≠ .write file) (hchanged : u.identity ≠ w.identity ∨ u.file ≠ w.file) :
      w.leases = [] := by
  by_contra hleases
  have hbusy : w.admitted ≠ 0 := by
    rw [h.admitted]
    exact mt List.eq_nil_of_length_eq_zero hleases
  suffices hsame : u.identity = w.identity ∧ u.file = w.file by
    rcases hchanged with hne | hne
    · exact hne hsame.1
    · exact hne hsame.2
  cases a with
  | admitLease =>
      obtain rfl := Option.some.inj hstep
      cases hadmit : w.admitLease with
      | error error => exact ⟨rfl, rfl⟩
      | ok u =>
          obtain ⟨-, hadmit⟩ := require_bind_eq_ok.mp hadmit
          split at hadmit <;> cases hadmit
          exact ⟨rfl, rfl⟩
  | drop lease =>
      rw [step] at hstep
      split at hstep <;> cases hstep
      exact ⟨rfl, rfl⟩
  | rekey expectedNodeId expired faults =>
      obtain rfl := Option.some.inj hstep
      unfold World.rekey
      dsimp only
      split
      · exact ⟨rfl, rfl⟩
      · split
        · exact ⟨rfl, rfl⟩
        · exact turn_of_admitted (w := { w with calls := w.calls + 1, admissionOpen := false })
            hbusy _ expired faults
  | wake call timedOut expired faults =>
      obtain ⟨rekey, -, rfl⟩ := Option.map_eq_some_iff.mp hstep
      dsimp only
      split
      · exact ⟨rfl, rfl⟩
      · exact turn_of_admitted (w := { w with draining := w.draining.eraseP (·.call == call) })
          hbusy rekey expired
          faults
  | write file => exact absurd rfl (hown file)

/-- In every interleaving: the identity is replaced only while no lease is held, and every lease
that is held was granted after the last replacement; no two successful rekeys confirmed one id; the
manager and the file agree unless another process wrote the file; admission is open whenever no
rekey drains; and a rekey that returned an error left the identity as it found it. -/
theorem rekey_safe (h : Reach (step uuid) (fun _ _ => True) (World.start first) w)
    (hfresh : FreshUuids uuid first w.issued) :
    (∀ a u, step uuid w a = some u → (∀ file, a ≠ .write file) →
        u.identity ≠ w.identity ∨ u.file ≠ w.file → w.leases = [])
      ∧ (∀ lease ∈ w.leases, lease.granted = w.successes.length)
      ∧ (w.successes.map (·.expectedNodeId)).Nodup
      ∧ (w.foreign = false → w.file = .ok w.identity)
      ∧ (w.draining = [] → w.admissionOpen = true)
      ∧ ∀ r ∈ w.returned, ∀ error, r.result = .error error → r.after = r.began := by
  obtain ⟨hkept, hgate⟩ := reach_kept h
  refine ⟨fun a u hstep hown => step_idle hkept hstep hown, hkept.leases,
    (List.nodup_cons.mp (hkept.distinct hfresh)).2, hkept.file, fun hnone => ?_, hkept.failed⟩
  rcases hgate with ⟨-, hopen⟩ | ⟨rekey, hone, -⟩
  · exact hopen
  · rw [hnone] at hone
    cases hone

def uuids : Nat → String
  | 0 => "5c2f0d7e-41d7-4b0e-9d5c-3f9a2a1b6c01"
  | _ => "0b8a4c3d-7f65-4e1c-8a2b-9d0e1f2a3b02"

/-- A rekey waits for a lease, while another one is refused; the lease is dropped and the rekey
succeeds. -/
def drainedRun : List Action :=
  [.admitLease, .rekey "9e107d9d-372b-4a6d-8c5f-1e2d3c4b5a00" false fun _ => none,
    .rekey "9e107d9d-372b-4a6d-8c5f-1e2d3c4b5a00" false fun _ => none, .drop 0,
      .wake 0 false false fun _ => none]

theorem rekey_safe_of_drainedRun :
    ∃ w, exec (step uuids) (World.start "9e107d9d-372b-4a6d-8c5f-1e2d3c4b5a00") drainedRun = some w
      ∧ w.identity = uuids 0
      ∧ (∀ a u, step uuids w a = some u → (∀ file, a ≠ .write file) →
          u.identity ≠ w.identity ∨ u.file ≠ w.file → w.leases = [])
      ∧ (∀ lease ∈ w.leases, lease.granted = w.successes.length)
      ∧ (w.successes.map (·.expectedNodeId)).Nodup
      ∧ (w.foreign = false → w.file = .ok w.identity)
      ∧ (w.draining = [] → w.admissionOpen = true)
      ∧ ∀ r ∈ w.returned, ∀ error, r.result = .error error → r.after = r.began :=
  ⟨_, rfl, rfl, rekey_safe (reach_of_exec_true
      (show exec (step uuids) (World.start "9e107d9d-372b-4a6d-8c5f-1e2d3c4b5a00") drainedRun =
        some _ from rfl))
    ⟨fun _ hm n hn => absurd (Nat.lt_of_lt_of_le hn (Nat.le_of_lt_succ hm)) (Nat.not_lt_zero n),
      fun _ hn => Nat.lt_one_iff.mp hn ▸ by decide⟩⟩

end Boomux.Nodes.Identity
