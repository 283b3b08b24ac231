import Boomux.Basic.Rust

/-!
# Integrations

`integrations.rs`: which harness a key names, how one resumes a session, and what the id of a
session may be. The daemon resumes the agents of recovered Shells with it, and the conversations of
a Workspace are opened with it.
-/

set_option autoImplicit false

namespace Boomux.Integrations

open Rust

structure ResumeCapability where
  executable : String
  argumentsBeforeSession : List String
  deriving DecidableEq

structure TitleCapability where
  providesCatalog : Bool
  deriving DecidableEq

structure IntegrationDescriptor where
  key : String
  titles : Option TitleCapability
  resume : Option ResumeCapability
  deriving DecidableEq

/-- `ResumeCapability::command`. -/
def ResumeCapability.command (resume : ResumeCapability) (storedCommand : List String)
    (externalSessionId : String) : Option (List String) := do
  let executable ←
    match storedCommand with
    | [] => some resume.executable
    | [command] => if fileName command = some resume.executable then some command else none
    | _ => none
  some (executable :: resume.argumentsBeforeSession ++ [externalSessionId])

def opencode : IntegrationDescriptor where
  key := "opencode"
  titles := some { providesCatalog := true }
  resume := some { executable := "opencode", argumentsBeforeSession := ["--session"] }

def pi : IntegrationDescriptor where
  key := "pi"
  titles := some { providesCatalog := false }
  resume := some { executable := "pi", argumentsBeforeSession := ["--session"] }

def claude : IntegrationDescriptor where
  key := "claude"
  titles := some { providesCatalog := false }
  resume := some { executable := "claude", argumentsBeforeSession := ["--resume"] }

def codex : IntegrationDescriptor where
  key := "codex"
  titles := some { providesCatalog := true }
  resume := some { executable := "codex", argumentsBeforeSession := ["resume"] }

def kiro : IntegrationDescriptor where
  key := "kiro-v3"
  titles := some { providesCatalog := false }
  resume := some { executable := "kiro-cli", argumentsBeforeSession := ["--v3", "chat",
    "--resume-id"] }

def kiroV2 : IntegrationDescriptor where
  key := "kiro-v2"
  titles := none
  resume := none

/-- `integrations::ALL`. -/
def allIntegrations : List IntegrationDescriptor := [opencode, pi, claude, codex, kiroV2, kiro]

/-- `integrations::by_key`; the key `kiro` is an older name. -/
def byKey (key : String) : Option IntegrationDescriptor :=
  let key := if key = "kiro" then "kiro-v3" else key
  allIntegrations.find? (·.key = key)

def maxExternalSessionIdBytes : Nat := 256

/-- `value.trim() == value`: no whitespace at either end. -/
def trimmed (value : String) : Bool :=
  !(value.toList.head?.any isWhitespace || value.toList.getLast?.any isWhitespace)

/-- `integrations::validate_external_session_id`. -/
def validateExternalSessionId (value : String) : Except String Unit :=
  require (!(value.isEmpty || decide (maxExternalSessionIdBytes < value.utf8ByteSize) ||
    !trimmed value || value.toList.any isControl)) "external session ID is invalid"

/-- A valid session id is a plain text without whitespace at either end. -/
theorem validateExternalSessionId_eq_ok {value : String} {u : Unit} :
    validateExternalSessionId value = .ok u ↔
      value.isEmpty = false ∧ value.utf8ByteSize ≤ maxExternalSessionIdBytes ∧
        trimmed value = true ∧ value.toList.any isControl = false := by
  rw [validateExternalSessionId, require_eq_ok]
  simp only [Bool.not_eq_true', Bool.or_eq_false_iff, decide_eq_false_iff_not, Nat.not_lt,
    Bool.not_eq_false', and_assoc]

end Boomux.Integrations
