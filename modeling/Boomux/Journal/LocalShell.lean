import Boomux.Basic.HashMap
import Boomux.Basic.Lines
import Boomux.Daemon.Shell

/-!
# The local Shell transaction journal

`local_shell_journal.rs`: a file of one JSON line for each record, with a checksum over the
record's own JSON. The JSON texts and the SHA-256 digest come from libraries, so they are
parameters (`Codec`). A file is the list of its bytes.
-/

set_option autoImplicit false

namespace Boomux.Journal

open Rust

export Daemon (ShellRunExitReason TerminalProfile)

def version : Nat := 1
def maxBytes : Nat := 8 * 1024 * 1024
/-- `b'\n'`. -/
def newline : UInt8 := 10

/-! ## Records -/

structure ShellSpec where
  name : String
  command : List String
  cwd : String
  deriving DecidableEq, Repr

inductive ShellStatus
  | pending
  | running
  | exited (code : Option Nat)
  deriving DecidableEq, Repr

structure ShellRunSnapshot where
  id : String
  generation : Nat
  startedAtMs : Nat
  endedAtMs : Option Nat
  exitReason : Option ShellRunExitReason
  outputRevision : Nat
  environmentHasRunId : Bool
  deriving DecidableEq, Repr

structure ShellSnapshot where
  id : String
  revision : Nat
  workspaceId : String
  name : String
  cwd : String
  command : List String
  status : ShellStatus
  run : Option ShellRunSnapshot
  recoveredAgentId : Option String
  foregroundProcess : Option String
  deriving DecidableEq, Repr

/-- `PersistedShellRun`, with the fields that only a record of the journal is looked at for. -/
structure PersistedShellRun extends Daemon.PersistedShellRun where
  startedAtMs : Nat
  endedAtMs : Option Nat
  environmentHasRunId : Bool
  deriving DecidableEq, Repr

structure LocalShellTransaction where
  operationId : String
  requestFingerprint : String
  requestBytes : Nat
  globalWorkspaceId : String
  expectedGlobalRevision : Nat
  nodeId : String
  requestedOwnerWorkspaceId : String
  ownerWorkspaceId : String
  ownerWorkspaceName : String
  ownerRevision : Nat
  defaultCwd : Option String
  shellId : String
  shell : ShellSpec
  resultShell : ShellSnapshot
  deriving DecidableEq, Repr

structure LocalShellStartTransaction where
  shellId : String
  run : PersistedShellRun
  deriving DecidableEq, Repr

inductive LocalShellJournalRecord
  | create (transaction : LocalShellTransaction)
  | start (transaction : LocalShellStartTransaction)
  deriving DecidableEq, Repr

structure JournalEntry where
  version : Nat
  record : LocalShellJournalRecord
  checksum : String
  deriving DecidableEq, Repr

def invalid (message : String) : IoError := ⟨.invalidData, message⟩

/-! ## The sequence of records -/

/-- The two maps of `validate_sequence`. -/
structure Sequence where
  generations : HashMap String Nat
  runIds : List String

def Sequence.empty : Sequence := ⟨∅, []⟩

/-- One turn of the loop of `validate_sequence`. -/
def Sequence.record (seen : Sequence) : LocalShellJournalRecord → Except IoError Sequence
  | .create transaction =>
      match seen.generations.lookup transaction.shellId with
      | some _ => .error (invalid "local Shell journal contains a duplicate creation")
      | none => .ok { seen with generations := seen.generations.insert transaction.shellId 0 }
  | .start transaction =>
      match seen.generations.lookup transaction.shellId with
      | none => .error (invalid "local Shell journal start does not follow its creation")
      | some generation =>
          match checkedAdd generation 1 with
          | none => .error (invalid "local Shell journal run generation exhausted")
          | some expected => do
              require (transaction.run.generation == expected &&
                  transaction.run.endedAtMs.isNone && transaction.run.exitReason.isNone &&
                  !seen.runIds.contains transaction.run.id)
                (invalid "local Shell journal contains an invalid run sequence")
              .ok ⟨seen.generations.insert transaction.shellId expected,
                transaction.run.id :: seen.runIds⟩

def validateSequence (records : List LocalShellJournalRecord) : Except IoError Unit := do
  let _ ← records.foldlM Sequence.record .empty
  .ok ()

/-! ## Texts -/

/-- `serde_json` and `Sha256` as the journal uses them. -/
structure Codec where
  /-- `serde_json::to_vec(&record)`. -/
  payload : LocalShellJournalRecord → List UInt8
  /-- `format!("{:x}", Sha256::digest(&payload))`. -/
  digest : List UInt8 → String
  /-- `serde_json::to_vec(&entry)`. -/
  print : JournalEntry → List UInt8
  /-- `serde_json::from_slice`. -/
  parse : List UInt8 → Except String JournalEntry

/-- `JournalState`. -/
structure LocalShellJournal where
  file : List UInt8
  records : List LocalShellJournalRecord
  failed : Bool
  deriving DecidableEq, Repr

/-- What becomes of a write to the file: it is taken; it fails and what was written is cut off
again; or cutting it off fails as well. -/
inductive WriteOutcome
  | written
  | takenBack (error : IoError)
  | ambiguous (error rollback : IoError) (written : List UInt8)

def ensureUsable (j : LocalShellJournal) : Except IoError Unit :=
  require (!j.failed) (.ofMessage "local Shell transaction journal has an ambiguous failed append")

def exceedsLimit : IoError := invalid "local Shell transaction journal exceeds the size limit"

namespace Codec

variable (c : Codec)

def entry (record : LocalShellJournalRecord) : JournalEntry where
  version := version
  record := record
  checksum := c.digest (c.payload record)

/-- The line of a record, without its newline. -/
def line (record : LocalShellJournalRecord) : List UInt8 := c.print (c.entry record)

/-- The checks of `append` before it writes. -/
def admits (j : LocalShellJournal) (record : LocalShellJournalRecord) : Except IoError Unit := do
  ensureUsable j
  validateSequence (j.records ++ [record])
  require (decide (j.file.length + (c.line record ++ [newline]).length ≤ maxBytes)) exceedsLimit

def append (j : LocalShellJournal) (record : LocalShellJournalRecord) (outcome : WriteOutcome) :
    Except IoError Unit × LocalShellJournal :=
  match c.admits j record with
  | .error error => (.error error, j)
  | .ok () =>
      match outcome with
      | .written => (.ok (), { j with
          file := j.file ++ (c.line record ++ [newline]), records := j.records ++ [record] })
      | .takenBack error => (.error error, j)
      | .ambiguous error rollback written =>
          (.error ⟨error.kind, "local Shell journal append failed: " ++ error.message ++
            "; rollback also failed: " ++ rollback.message⟩,
            { j with file := j.file ++ written, failed := true })

/-- The loop of `parse_records`: the records of the complete lines and their length. -/
def parseLines (records : List LocalShellJournalRecord) (offset : Nat) :
    List (List UInt8) → Except IoError (List LocalShellJournalRecord × Nat)
  | [] => .ok (records, offset)
  | line :: lines =>
      if line.getLast? ≠ some newline then .ok (records, offset)
      else match c.parse line.dropLast with
        | .error error => .error (invalid ("could not parse local Shell transaction: " ++ error))
        | .ok entry => do
            require (entry.version == version)
              (invalid ("unsupported local Shell transaction version " ++ toString entry.version ++
                "; expected " ++ toString version))
            require (entry.checksum == c.digest (c.payload entry.record))
              (invalid "local Shell transaction checksum does not match")
            parseLines (records ++ [entry.record]) (offset + line.length) lines

def parseRecords (bytes : List UInt8) :
    Except IoError (List LocalShellJournalRecord × Nat) := do
  let (records, offset) ← c.parseLines [] 0 (Lines.splitInclusive newline bytes)
  validateSequence records
  .ok (records, offset)

/-- `load_at`, on the bytes of the file; what follows the complete lines is cut off. -/
def load (bytes : List UInt8) : Except IoError LocalShellJournal := do
  require (decide (bytes.length ≤ maxBytes)) exceedsLimit
  let (records, validBytes) ← c.parseRecords bytes
  .ok ⟨bytes.take validBytes, records, false⟩

/-- The journal after an append that is accepted. -/
def accept (j : LocalShellJournal) (record : LocalShellJournalRecord) :
    Except IoError LocalShellJournal :=
  match c.append j record .written with
  | (.ok (), j') => .ok j'
  | (.error error, _) => .error error

end Codec

/-- An append is let in when none has failed before, and the records and their length are valid. -/
theorem admits_eq_ok {c : Codec} {j : LocalShellJournal} {record : LocalShellJournalRecord} :
    c.admits j record = .ok () ↔ j.failed = false ∧
      validateSequence (j.records ++ [record]) = .ok () ∧
      j.file.length + (c.line record ++ [newline]).length ≤ maxBytes := by
  unfold Codec.admits ensureUsable
  simp only [bind_eq_ok, require_eq_ok, Bool.not_eq_true', decide_eq_true_eq]
  constructor
  · rintro ⟨_, hfailed, _, hseq, hsize⟩
    exact ⟨hfailed, hseq, hsize⟩
  · rintro ⟨hfailed, hseq, hsize⟩
    exact ⟨(), hfailed, (), hseq, hsize⟩

/-- The journal that `load_at` creates. -/
def LocalShellJournal.empty : LocalShellJournal := ⟨[], [], false⟩

end Boomux.Journal
