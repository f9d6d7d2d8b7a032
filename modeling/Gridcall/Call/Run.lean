import Gridcall.Call.Binding

/-!
# Running calls

A `Bridge` holds what stays fixed while calls run: settings, converters and exports. A call may make
further calls, so it is run with a bound on how deep calls may nest; a call that nests deeper has no
outcome.

* `Action.run` : runs an action, given how further calls are run;
* `Bridge.runExport` : one call of one export, every failure of which becomes an error code;
* `Bridge.callOverloads` : tries exports in turn;
* `Bridge.call?` : a call to any target.
-/

namespace Gridcall

/-- What stays fixed while calls run. -/
structure Bridge where
  settings : Settings
  registry : Registry
  exports : Exports

/-- Computations on the state of a bridge; they have no outcome if calls nest too deep. -/
abbrev CallM := StateT MarshalState Option

/-- A way to run further calls. -/
abbrev Nested := Target → List HostValue → CallM (Except UnknownExport HostValue)

/-- Runs a conversion and keeps its failure as a value. -/
def MarshalM.toCall {α : Type} (act : MarshalM α) : CallM (Except CallError α) :=
  fun s => some (act s)

def note (e : Event) : CallM Unit := modify fun s => s.note e

def Request.answer (r : Registry) (nested : Nested) : (request : Request) → CallM request.Answer
  | convert request => fun s => some (request.answer r r.outside s)
  | call target args => nested target args

def Action.run {α : Type} (r : Registry) (nested : Nested) (action : Action α) :
    CallM (Except Breakdown α) := Dialogue.run (Request.answer r nested) action

namespace Bridge

/-- Runs the callable of an export on a frame and encodes what it returns. -/
def runCallable (b : Bridge) (nested : Nested) (e : Export) (frame : CallFrame) :
    CallM (Except CallError HostValue) := do
  note (.entered e.descriptor.name frame.receiver frame.args)
  match ← (e.callable frame).run b.registry nested with
  | .error reason => return .error (.invocationFailure reason.message)
  | .ok v => (encodeResult b.registry e.descriptor v).toCall

def tryExport (b : Bridge) (nested : Nested) (e : Export) (args : List HostValue) :
    CallM (Except CallError HostValue) := do
  match ← (prepare b.registry b.settings e.descriptor args).toCall with
  | .error err => return .error err
  | .ok frame => b.runCallable nested e frame

/-- Runs an export on arguments. A failure is noted and becomes an error code. -/
def runExport (b : Bridge) (nested : Nested) (e : Export) (args : List HostValue) :
    CallM HostValue := do
  match ← b.tryExport nested e args with
  | .ok v => return v
  | .error err =>
    note (.failed e.descriptor.name err)
    return err.toHost

/-- Calls the export with a number. The journal tells where the call begins and ends. -/
def callId (b : Bridge) (nested : Nested) (id : ExportId) (args : List HostValue) :
    CallM (Except UnknownExport HostValue) := do
  match b.exports.find? id with
  | none =>
    note (.unknownId id)
    return .error (.id id)
  | some e =>
    note (.opened id e.descriptor.name)
    let v ← b.runExport nested e (coerceHandles b.settings args)
    note .closed
    return .ok v

/-- Calls exports in turn up to the first result that is no error code; `last` is the result if there
are no further exports. -/
def callOverloads (b : Bridge) (nested : Nested) (args : List HostValue) :
    (ids : List ExportId) → (last : HostValue) → CallM (Except UnknownExport HostValue)
  | [], last => return .ok last
  | id :: ids, _ => do
    match ← b.callId nested id args with
    | .error unknown => return .error unknown
    | .ok v => if v.isError then b.callOverloads nested args ids v else return .ok v

/-- Calls a target, given how further calls are run. Without any export to try the result is
`#NAME?`. -/
def callTarget (b : Bridge) (nested : Nested) : Nested
  | .id id, args => b.callId nested id args
  | .overloads ids, args => b.callOverloads nested args ids (.error .name)
  | .name name, args =>
    match b.exports.idsOf? name with
    | none => do
      note (.unknownName name)
      return .error (.name name)
    | some ids => b.callOverloads nested args ids (.error .name)

/-- Calls a target. Calls nest at most `depth` deep, the outermost one counted. -/
def call? (b : Bridge) : (depth : Nat) → Nested
  | 0, _, _ => fun _ => none
  | depth + 1, target, args => b.callTarget (b.call? depth) target args

/-- Compares the exports with the list that the host was given. A difference is noted. -/
def verify (b : Bridge) (expected : List ExportId) : StateM MarshalState
    (Except RegistrationError Unit) := do
  match b.exports.verify expected with
  | .error (.mismatch missing unexpected) =>
    modify fun s => s.note (.exportMismatch missing unexpected)
    return .error (.mismatch missing unexpected)
  | result => return result

/-- The state of a bridge that has just been set up: its journal tells how. -/
def initialState (b : Bridge) : MarshalState :=
  let events := .registryBuilt b.registry.length :: b.exports.events
  { MarshalState.empty with
    store := { heap := .withCapacity b.settings.heapCapacity, journal := events.reverse } }

/-- How deep calls may nest when a program makes a call: once per argument, and deep enough for
callables that call one another. -/
def nestingBound (args : List HostValue) : Nat := args.length + 1000

def call (b : Bridge) : Nested := fun target args => b.call? (nestingBound args) target args

end Bridge

end Gridcall
