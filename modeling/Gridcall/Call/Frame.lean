import Gridcall.Call.Action

/-!
# Call frames

* `CallFrame` : what a callable sees of its call;
* `CallFrame.arg` : an argument, read as the callable wants it;
* `Callable` : what an export does.
-/

namespace Gridcall

structure CallFrame where
  descriptor : Descriptor
  /-- The receiver of an instance call. -/
  receiver : Option Object
  /-- One argument per parameter; a variadic tail is a single array. -/
  args : List Managed

namespace CallFrame

def fail {α : Type} (f : CallFrame) (message : String) : Action α :=
  .fail (f.descriptor.name ++ ": " ++ message)

def arg (f : CallFrame) (kind : ReadKind) (index : Nat) : Action kind.Carrier :=
  match f.args[index]? with
  | none => f.fail s!"no argument {index}"
  | some v =>
    match v.read kind with
    | .ok x => return x
    | .error e => f.fail s!"argument {index}: {e.message}"

/-- The contents of the receiver, read by a library that knows its objects. -/
def receiverAs {α : Type} (f : CallFrame) (read : Contents Managed → Option α) : Action α :=
  match f.receiver with
  | none => f.fail "no receiver"
  | some o =>
    match read o.contents with
    | some x => return x
    | none => f.fail s!"receiver of class {o.className} has an unexpected representation"

end CallFrame

abbrev Callable := CallFrame → Action Managed

end Gridcall
