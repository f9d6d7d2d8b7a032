import Gridcall.Call.Frame

/-!
# Stubs

A `Stub` is a callable described by data, for trying out a bridge with exports that read, return, fail
or call on.
-/

namespace Gridcall

/-- A callable described by data. -/
inductive Stub where
  /-- Returns a value, whose objects are made anew on each call. -/
  | constant (v : Managed)
  /-- Returns an argument, read as a kind. -/
  | read (kind : ReadKind) (index : Nat)
  | fail (message : String)
  | panic (payload : Option String)
  /-- Returns a new object that holds the text of an argument. -/
  | newObject (className : ClassName) (index : Nat)
  | receiverText
  | receiverNumber
  /-- Returns the receiver, or null without one. -/
  | receiver
  /-- Calls the export named by the first argument with the values of the second. -/
  | callName
  /-- Calls an export with the values of the first argument. -/
  | callId (id : ExportId)
  /-- Returns the host value of an argument. -/
  | encode (index : Nat)
  /-- Returns an argument as a long; a missing argument counts as null. -/
  | long (index : Nat)
  /-- Releases the handle whose number is an argument, and returns whether it was live. -/
  | release (index : Nat)
  /-- Returns the object under the handle whose number is an argument, or null. -/
  | lookup (index : Nat)

namespace Stub

def callable : Stub → Callable
  | constant v => fun _ => v.renew fun className contents =>
      Action.convert (.create className contents)
  | read kind index => fun frame => do return kind.embed (← frame.arg kind index)
  | fail message => fun _ => Action.fail message
  | panic payload => fun _ => Dialogue.stop (.panic payload)
  | newObject className index => fun frame => do
    let text ← frame.arg .string index
    return .object (← Action.convert (.create className (.text text)))
  | receiverText => fun frame => do return .string (← frame.receiverAs Contents.asText?)
  | receiverNumber => fun frame => do return .long (← frame.receiverAs Contents.asNumber?)
  | receiver => fun frame => return (frame.receiver.map Managed.object).getD .null
  | callName => fun frame => do
    let name ← frame.arg .string 0
    let args ← frame.arg (.list .value) 1
    return .value (← Action.call (.name name) args)
  | callId id => fun frame => do
    let args ← frame.arg (.list .value) 0
    return .value (← Action.call (.id id) args)
  | encode index => fun frame => do
    let v ← frame.arg .managed index
    let result ← Action.convert (.encode v)
    return .value (← Action.ofExcept CallError.message result)
  | long index => fun frame => do
    let v := (frame.args[index]?).getD .null
    return .long (← Action.ofExcept ReadError.message (v.read .long))
  | release index => fun frame => do
    let raw ← frame.arg .long index
    return .boolean (← Action.convert (.release ⟨raw⟩))
  | lookup index => fun frame => do
    let raw ← frame.arg .long index
    let o ← Action.convert (.lookup ⟨raw⟩)
    return (o.map Managed.object).getD .null

end Stub

end Gridcall
