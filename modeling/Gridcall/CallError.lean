import Gridcall.Host.Text
import Gridcall.Managed.Reading

/-!
# Failures of one call

`CallError` lists why a call can fail. Each failure is shown to the host as an error code, and its
message goes to the log.
-/

namespace Gridcall

/-- A failure local to one call. -/
inductive CallError where
  | nullArgument (what : String)
  | invalidReference (handle : Handle)
  | noConverter (source target : String)
  /-- The callable failed or panicked. -/
  | invocationFailure (message : String)
  /-- A kind of value that the code it reached does not handle. -/
  | unsupportedVariant (host : HostType)
  /-- A value of the wrong shape or class. -/
  | typeMismatch (expected actual : String)
  /-- A value of the right kind that could not be parsed or narrowed. -/
  | conversion (target message : String)
  | argumentCount (expected actual : Nat)
deriving DecidableEq

namespace CallError

def code : CallError → ErrorCode
  | nullArgument _ => .null
  | invocationFailure _ => .null
  | invalidReference _ => .ref
  | noConverter _ _ => .value
  | unsupportedVariant _ => .value
  | typeMismatch _ _ => .value
  | conversion _ _ => .value
  | argumentCount _ _ => .value

def toHost (e : CallError) : HostValue := .error e.code

def message : CallError → String
  | nullArgument what => s!"null argument: {what}"
  | invalidReference handle => s!"invalid object handle {handle}"
  | noConverter source target => s!"no converter from {source} to {target}"
  | invocationFailure message => s!"invocation failed: {message}"
  | unsupportedVariant host => s!"unsupported value variant {host}"
  | typeMismatch expected actual => s!"expected {expected}, got {actual}"
  | conversion target message => s!"cannot convert to {target}: {message}"
  | argumentCount expected actual => s!"expected at most {expected} arguments, got {actual}"

end CallError

end Gridcall
