import Boomux.Basic.Rust

/-!
# Errors of the daemon

`DaemonError` is what a client sees of an error: the wire code and the message.
-/

set_option autoImplicit false

namespace Boomux.Daemon

open Rust

/-- `ErrorCode`. -/
inductive ErrorCode
  | invalidArgument | notFound | alreadyExists | busy | daemonStopping | shellStartFailed
  | persistenceFailed | timeout | unsupportedVersion | cursorExpired | runChanged | revisionAhead
  | idempotencyExpired | nodeIdentityUnavailable | nodeRegistrationUnavailable
  | nodeIdentityChanged | ambiguousTarget | revisionChanged | outcomeUnknown | internal | unknown
  deriving DecidableEq, Repr

/-- `DaemonError`, with its `wire_code` and its text. -/
structure DaemonError where
  code : ErrorCode
  message : String
  deriving DecidableEq, Repr

/-- `not_found`. -/
def notFound (kind id : String) : IoError := ⟨.notFound, kind ++ " not found: " ++ id⟩

namespace DaemonError

/-- `DaemonError::validation`. -/
def validation (message : String) : DaemonError := ⟨.invalidArgument, message⟩

/-- `DaemonError::lifecycle`. -/
def lifecycle (code : ErrorCode) (message : String) : DaemonError := ⟨code, message⟩

/-- `DaemonError::persistence`. -/
def persistence (source : IoError) : DaemonError := ⟨.persistenceFailed, source.message⟩

/-- `DaemonError::persistence_context`. -/
def persistenceContext (_source : IoError) (message : String) : DaemonError :=
  ⟨.persistenceFailed, message⟩

/-- `From<io::Error>`. -/
def ofIo (source : IoError) : DaemonError :=
  match source.kind with
  | .invalidInput | .invalidData => ⟨.invalidArgument, source.message⟩
  | .notFound => ⟨.notFound, source.message⟩
  | .alreadyExists => ⟨.alreadyExists, source.message⟩
  | .wouldBlock => ⟨.busy, source.message⟩
  | .connectionAborted => ⟨.daemonStopping, source.message⟩
  | .timedOut => ⟨.timeout, source.message⟩
  | _ => ⟨.internal, source.message⟩

/-- `append_error_context`. -/
def appendErrorContext (primary : DaemonError) (context : String) : DaemonError :=
  { primary with message := primary.message ++ "; " ++ context }

end DaemonError

end Boomux.Daemon
