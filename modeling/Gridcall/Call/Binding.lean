import Gridcall.Call.Exports
import Gridcall.Marshal.Conversion
import Gridcall.Settings

/-!
# Binding

What happens around a callable: incoming values become the frame of a call, and the value that the
callable returns becomes the result.

* `coerceHandles` : strings that spell handles;
* `Descriptor.splitReceiver`, `Descriptor.resolveReceiver` : the receiver of an instance call;
* `bindArguments` : one argument per parameter;
* `encodeResult` : the result of a call.
-/

namespace Gridcall

/-! ## Handles spelled as strings -/

/-- The reference that a string spells; any other value stays as it is. -/
def coerceHandle (marker : Char) : HostValue → HostValue
  | .string s =>
    match ObjectHandle.ofCellText? s marker with
    | some h => .object h
    | none => .string s
  | v => v

/-- Replaces the strings among the arguments that spell handles, if the settings ask for it. Strings
inside grids stay. -/
def coerceHandles (settings : Settings) (args : List HostValue) : List HostValue :=
  if settings.coerceHandleStrings then args.map (coerceHandle settings.handleMarker) else args

/-! ## The receiver -/

def missingReceiver : CallError := .nullArgument "missing receiver"

namespace Descriptor

def splitReceiver (d : Descriptor) (args : List HostValue) :
    Except CallError (Option HostValue × List HostValue) :=
  match d.kind, args with
  | .method, [] => .error missingReceiver
  | .method, receiver :: rest => .ok (some receiver, rest)
  | _, args => .ok (none, args)

/-- The object that a receiver refers to, which must be of the declaring class. -/
def resolveReceiver (d : Descriptor) (heap : Heap) :
    Option HostValue → Except CallError (Option Object)
  | none => .ok none
  | some (.object reference) =>
    match heap.getOfClass? reference.handle d.declaring with
    | some (.ok o) => .ok (some o)
    | some (.error actual) => .error (.typeMismatch d.declaring actual)
    | none => .error (.invalidReference reference.handle)
  | some .nil => .error missingReceiver
  | some .missing => .error missingReceiver
  | some v => .error (.typeMismatch d.declaring v.hostType.text)

end Descriptor

/-! ## Arguments -/

/-- Decodes an argument. A grid reaches a parameter that is no array as it is. -/
def bindArgument (r : Registry) (param : ManagedType) (arg : HostValue) : MarshalM Managed :=
  match arg with
  | .array grid => if param.isArray then decode r (.array grid) param else return .value (.array grid)
  | arg => decode r arg param

/-- Decodes arguments place by place. Parameters without an argument are null, and arguments without
a parameter are left out. -/
def bindPositional (r : Registry) : List ManagedType → List HostValue → MarshalM (List Managed)
  | [], _ => return []
  | _ :: params, [] => do
    let rest ← bindPositional r params []
    return .null :: rest
  | param :: params, arg :: args => do
    let v ← bindArgument r param arg
    let rest ← bindPositional r params args
    return v :: rest

/-- Decodes the arguments of a call. A variadic tail takes its values as they are. -/
def bindArguments (r : Registry) (d : Descriptor) (args : List HostValue) :
    MarshalM (List Managed) :=
  match d.tailElement? with
  | none =>
    if d.params.length < args.length then
      throw (.argumentCount d.params.length args.length)
    else bindPositional r d.params args
  | some element => do
    let fixed := d.params.length - 1
    let head ← bindPositional r d.params.dropLast (args.take fixed)
    return head ++ [.array element ((args.drop fixed).map .value)]

def prepare (r : Registry) (settings : Settings) (d : Descriptor) (args : List HostValue) :
    MarshalM CallFrame := do
  let (receiver, args) ← d.splitReceiver args
  modify fun s => s.note (.decoding d.name args settings.logArguments)
  let args ← bindArguments r d args
  let receiver ← d.resolveReceiver (← get).store.heap receiver
  return { descriptor := d, receiver, args }

/-! ## The result -/

/-- Encodes the value that a callable returned. Nothing is encoded for a callable without a result,
and host values pass as they are. -/
def encodeResult (r : Registry) (d : Descriptor) (v : Managed) : MarshalM HostValue :=
  match d.returns, v with
  | none, _ => return .nil
  | some _, .value v => return v
  | some _, .null => throw (.nullArgument s!"{d.name} returned null")
  | some _, v => encode r v

end Gridcall
