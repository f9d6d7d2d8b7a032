import Gridcall.Call.Descriptor
import Gridcall.CallError
import Gridcall.Host.Inspect
import Gridcall.Marshal.Mapping

/-!
# The journal

Everything the bridge does is noted in a journal as an `Event`. `Event.report?` gives the log line of
an event, if it has one: level, message and fields, which `Report.line` writes out.
-/

namespace Gridcall

/-- Something the bridge did. -/
inductive Event where
  | registryBuilt (converters : Nat)
  | registered (id : ExportId) (callable : String)
  | minted (handle : Handle) (className : ClassName)
  /-- A live handle was released. -/
  | released (handle : Handle)
  /-- A mapping was looked up among all converters, and the managed type of the one that was found. -/
  | resolved (mapping : Mapping) (converter : Option ManagedType)
  | unknownId (id : ExportId)
  | unknownName (name : String)
  | opened (id : ExportId) (callable : String)
  /-- The call that began last among those that have not ended ends. -/
  | closed
  /-- The host's list of exports differs from the registered ones. -/
  | exportMismatch (missing unexpected : List ExportId)
  /-- The arguments of a call are about to be decoded; `shown` if the log may show them. -/
  | decoding (callable : String) (args : List HostValue) (shown : Bool)
  | entered (callable : String) (receiver : Option Object) (args : List Managed)
  | failed (callable : String) (error : CallError)

/-- How important a log line is. -/
inductive Level where
  | error
  | warn
  | info
  | debug
deriving DecidableEq

def Level.text : Level → String
  | error => "ERROR"
  | warn => "WARN"
  | info => "INFO"
  | debug => "DEBUG"

inductive FieldValue where
  | number (n : Int)
  | text (s : String)
  /-- A text that is written between quotes. -/
  | quotedText (s : String)

def FieldValue.written : FieldValue → String
  | number n => toString n
  | text s => s
  | quotedText s => quoted s

/-- A log line. -/
structure Report where
  level : Level
  message : String
  fields : List (String × FieldValue)

/-- A log line as it is written, without the time: level, place, message and details. -/
def Report.line (place : String) (r : Report) : String :=
  let level := "".pushn ' ' (5 - r.level.text.length) ++ r.level.text
  String.join (s!"{level} {place}: {r.message}" ::
    r.fields.map fun f => s!" {f.1}={f.2.written}")

def inspectIds (ids : List ExportId) : String :=
  bracketed (ids.map fun id => s!"ExportId({id})")

def Event.report? : Event → Option Report
  | registryBuilt n => some ⟨.info, "converter registry built", [("converters", .number n)]⟩
  | registered id callable =>
    some ⟨.info, "registered export",
      [("export", .number id.raw.toNat), ("callable", .text callable)]⟩
  | minted handle className =>
    some ⟨.debug, "minted handle",
      [("handle", .number handle.raw.toInt), ("class", .text className)]⟩
  | released handle => some ⟨.debug, "released handle", [("handle", .number handle.raw.toInt)]⟩
  | resolved mapping converter =>
    let found := match converter with
      | some type => "Some(" ++ quoted type.text ++ ")"
      | none => "None"
    some ⟨.debug, "resolved converter",
      [("mapping", .text mapping.text), ("converter", .text found)]⟩
  | unknownId id =>
    some ⟨.error, "call to unregistered export", [("export", .number id.raw.toNat)]⟩
  | unknownName name => some ⟨.error, "call to unregistered name", [("name", .quotedText name)]⟩
  | exportMismatch missing unexpected =>
    some ⟨.error, "export list mismatch",
      [("missing", .text (inspectIds missing)), ("unexpected", .text (inspectIds unexpected))]⟩
  | decoding callable args true =>
    some ⟨.debug, "decoding arguments",
      [("callable", .text callable), ("args", .text (bracketed (args.map HostValue.inspect)))]⟩
  | decoding callable args false =>
    some ⟨.debug, "decoding arguments",
      [("callable", .text callable), ("count", .number args.length)]⟩
  | opened _ _ => none
  | closed => none
  | entered _ _ _ => none
  | failed callable error =>
    some ⟨.warn, "call failed", [("callable", .text callable), ("error", .text error.message)]⟩

/-- The part of the program that notes an event, by which log lines are chosen. -/
def Event.place : Event → String
  | registryBuilt _ => "xlbridge::registry"
  | resolved _ _ => "xlbridge::registry"
  | minted _ _ => "xlbridge::heap"
  | released _ => "xlbridge::heap"
  | decoding _ _ _ => "xlbridge::invoker"
  | entered _ _ _ => "xlbridge::invoker"
  | failed _ _ => "xlbridge::invoker"
  | _ => "xlbridge::dispatch"

/-- The callable that was entered, with its receiver and its arguments. -/
def Event.callee? : Event → Option (String × Option Object × List Managed)
  | entered callable receiver args => some (callable, receiver, args)
  | _ => none

def Event.failure? : Event → Option (String × CallError)
  | failed callable error => some (callable, error)
  | _ => none

end Gridcall
