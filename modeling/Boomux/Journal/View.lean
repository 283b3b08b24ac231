import Boomux.Daemon.Start
import Boomux.Journal.LocalShell

/-!
# What a start sees of the journal

The start of a run appends to the journal and asks whether a Shell was created in it. Of a creation
it looks at the Shell's id only, of the file only at how a write ended. `LocalShellJournal.view` is
that part of a journal; an append to the journal is one to the view (`append_view`).
-/

set_option autoImplicit false

namespace Boomux.Journal

open Rust

/-- The record as a start sees it. -/
def LocalShellJournalRecord.view : LocalShellJournalRecord → Daemon.LocalShellJournalRecord
  | .create transaction => .create transaction.shellId
  | .start transaction => .start transaction.shellId transaction.run.toPersistedShellRun

/-- The run of the record has not ended. -/
def LocalShellJournalRecord.runs : LocalShellJournalRecord → Bool
  | .create _ => true
  | .start transaction => transaction.run.endedAtMs.isNone

def LocalShellJournal.view (j : LocalShellJournal) : Daemon.LocalShellJournal :=
  ⟨j.records.map (·.view), j.failed⟩

/-- What an append does to the file, within the limit on its size. -/
def Codec.appendIo (c : Codec) (j : LocalShellJournal) (record : LocalShellJournalRecord)
    (outcome : WriteOutcome) : Daemon.AppendIo :=
  if j.file.length + (c.line record ++ [newline]).length ≤ maxBytes then
    match outcome with
    | .written => .written
    | .takenBack error => .refused error
    | .ambiguous error _ _ => .ambiguous error
  else .refused exceedsLimit

section View

variable {c : Codec} {j : LocalShellJournal} {record : LocalShellJournalRecord}
  {records : List LocalShellJournalRecord} {seen seen' : Sequence}

theorem view_create (transaction : LocalShellTransaction) :
    (LocalShellJournalRecord.create transaction).view = .create transaction.shellId := rfl

theorem view_start (transaction : LocalShellStartTransaction) :
    (LocalShellJournalRecord.start transaction).view =
      .start transaction.shellId transaction.run.toPersistedShellRun := rfl

theorem runs_of_record (h : seen.record record = .ok seen') : record.runs = true := by
  cases record with
  | create transaction => rfl
  | start transaction =>
      simp only [Sequence.record] at h
      split at h
      · cases h
      · split at h
        · cases h
        · simp only [bind_eq_ok, require_eq_ok, Bool.and_eq_true] at h
          obtain ⟨-, ⟨⟨⟨-, hended⟩, -⟩, -⟩, -⟩ := h
          exact hended

/-- Both loops accept the same records, and go on alike. -/
theorem foldlM_record_view (hruns : ∀ r ∈ records, r.runs = true) :
    (∃ seen', records.foldlM Sequence.record seen = .ok seen') ↔
      Daemon.validateSequence seen.generations seen.runIds (records.map (·.view)) = true := by
  induction records generalizing seen with
  | nil => exact ⟨fun _ => rfl, fun _ => ⟨seen, rfl⟩⟩
  | cons record records ih =>
      have ih (seen : Sequence) := @ih seen fun r hr => hruns r (List.mem_cons_of_mem _ hr)
      have hrecord := hruns record List.mem_cons_self
      rw [List.foldlM_cons, List.map_cons]
      cases record with
      | create transaction =>
          simp only [view_create, Daemon.validateSequence, Sequence.record]
          -- A creation is the first record of its Shell.
          cases seen.generations.lookup transaction.shellId with
          | some generation =>
              constructor
              · rintro ⟨_, h⟩
                cases h
              · intro h
                cases h
          | none => exact ih ⟨seen.generations.insert transaction.shellId 0, seen.runIds⟩
      | start transaction =>
          simp only [view_start, Daemon.validateSequence, Sequence.record]
          -- A start follows a record of its Shell, with the next generation and an unused run.
          cases seen.generations.lookup transaction.shellId with
          | none =>
              constructor
              · rintro ⟨_, h⟩
                cases h
              · intro h
                cases h
          | some generation =>
              dsimp only [Option.bind_some]
              cases checkedAdd generation 1 with
              | none =>
                  constructor
                  · rintro ⟨_, h⟩
                    cases h
                  · intro h
                    cases h
              | some expected =>
                  have ih := ih ⟨seen.generations.insert transaction.shellId expected,
                    transaction.run.id :: seen.runIds⟩
                  simp only [LocalShellJournalRecord.runs] at hrecord
                  simp only [bind_eq_ok, require_eq_ok, hrecord, Except.ok.injEq, Bool.and_eq_true,
                    Bool.and_true, beq_iff_eq, decide_eq_true_eq, Bool.not_eq_true',
                    List.contains_eq_mem, decide_eq_false_iff_not]
                  dsimp only at ih
                  rw [← ih]
                  constructor
                  · rintro ⟨last, seen', ⟨_, hvalid, rfl⟩, hrest⟩
                    exact ⟨hvalid, last, hrest⟩
                  · rintro ⟨hvalid, last, hrest⟩
                    exact ⟨last, _, ⟨(), hvalid, rfl⟩, hrest⟩

theorem validateSequence_view (hruns : ∀ r ∈ records, r.runs = true) :
    validateSequence records = .ok () ↔
      Daemon.validateSequence ∅ [] (records.map (·.view)) = true := by
  have h := @foldlM_record_view _ .empty hruns
  dsimp only [Sequence.empty] at h
  rw [← h, validateSequence]
  simp only [bind_eq_ok, and_true]
  rfl

/-- The records of a valid sequence are of runs that have not ended. -/
theorem runs_of_validateSequence (h : validateSequence records = .ok ()) :
    ∀ r ∈ records, r.runs = true := by
  simp only [validateSequence, bind_eq_ok] at h
  obtain ⟨last, h, -⟩ := h
  generalize Sequence.empty = seen at h
  induction records generalizing seen with
  | nil => exact fun r hr => by cases hr
  | cons record records ih =>
      rw [List.foldlM_cons] at h
      obtain ⟨next, hnext, hrest⟩ := bind_eq_ok.mp h
      intro r hr
      obtain rfl | hr := List.mem_cons.mp hr
      · exact runs_of_record hnext
      · exact ih next hrest r hr

theorem error_of_ne_ok {x : Except IoError Unit} (h : x ≠ .ok ()) : ∃ error, x = .error error := by
  cases x with
  | ok u => exact absurd rfl h
  | error error => exact ⟨error, rfl⟩

/-- An append to a journal, as a start sees it: it has the same effect, and succeeds alike. -/
theorem append_view (hvalid : validateSequence j.records = .ok ()) (hrecord : record.runs = true)
    (outcome : WriteOutcome) :
    (c.append j record outcome).2.view
        = (j.view.append record.view (c.appendIo j record outcome)).2 ∧
      ((c.append j record outcome).1 = .ok ()
        ↔ (j.view.append record.view (c.appendIo j record outcome)).1 = .ok ()) := by
  have hsequence : validateSequence (j.records ++ [record]) = .ok () ↔
      Daemon.validateSequence ∅ [] (j.view.records ++ [record.view]) = true := by
    rw [validateSequence_view, List.map_append]
    · rfl
    · intro r hr
      obtain hr | hr := List.mem_append.mp hr
      · exact runs_of_validateSequence hvalid r hr
      · exact List.mem_singleton.mp hr ▸ hrecord
  unfold Codec.append Codec.appendIo Daemon.LocalShellJournal.append
  by_cases hfailed : j.failed = true
  · -- an append that failed before bars every later one
    have hbarred : Daemon.LocalShellJournal.ensureUsable j.view = .error
        (.ofMessage "local Shell transaction journal has an ambiguous failed append") :=
          if_pos hfailed
    have hadmits : c.admits j record = .error
        (.ofMessage "local Shell transaction journal has an ambiguous failed append") := by
      unfold Codec.admits ensureUsable
      rw [hfailed]
      rfl
    rw [hbarred, hadmits]
    exact ⟨rfl, Iff.intro (fun h => (by cases h)) fun h => (by cases h)⟩
  have husable : Daemon.LocalShellJournal.ensureUsable j.view = .ok () := if_neg hfailed
  rw [husable]
  dsimp only
  by_cases hseq : validateSequence (j.records ++ [record]) = .ok ()
  · rw [if_pos (hsequence.mp hseq)]
    by_cases hsize : j.file.length + (c.line record ++ [newline]).length ≤ maxBytes
    · rw [if_pos hsize, admits_eq_ok.mpr ⟨by simpa using hfailed, hseq, hsize⟩]
      cases outcome with
      | written => exact ⟨by simp [LocalShellJournal.view], Iff.rfl⟩
      | takenBack error => exact ⟨rfl, Iff.intro (fun h => (by cases h)) fun h => (by cases h)⟩
      | ambiguous error rollback written =>
          exact ⟨rfl, Iff.intro (fun h => (by cases h)) fun h => (by cases h)⟩
    · obtain ⟨error, herror⟩ := error_of_ne_ok fun h => hsize (admits_eq_ok.mp h).2.2
      rw [if_neg hsize, herror]
      exact ⟨rfl, Iff.intro (fun h => (by cases h)) fun h => (by cases h)⟩
  · obtain ⟨error, herror⟩ := error_of_ne_ok fun h => hseq (admits_eq_ok.mp h).2.1
    rw [if_neg (fun h => hseq (hsequence.mpr h)), herror]
    exact ⟨rfl, Iff.intro (fun h => (by cases h)) fun h => (by cases h)⟩

end View

end Boomux.Journal
