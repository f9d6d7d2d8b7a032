import Gridcall.Call.Frame
import Gridcall.Journal

/-!
# The export table

* `Exports` : the registered callables by number, and the numbers of each name;
* `Exports.register`, `Exports.registerAll` : registration, which rejects faulty descriptors and
  numbers that are taken;
* `Exports.verify` : comparison with the list that the host was given.
-/

namespace Gridcall

/-- A callable with its number and its descriptor. -/
structure Export where
  id : ExportId
  descriptor : Descriptor
  callable : Callable

/-- Why a registration or a verification fails. -/
inductive RegistrationError where
  | duplicate (id : ExportId)
  | invalid (name : String) (fault : Descriptor.Fault)
  /-- Numbers that the host was given and nobody registered, and registered ones it was not given. -/
  | mismatch (missing unexpected : List ExportId)
deriving DecidableEq

def labelIds? (label : String) (ids : List ExportId) : Option String :=
  if ids.isEmpty then none else some (label ++ " [" ++ ", ".intercalate (ids.map toString) ++ "]")

def RegistrationError.message : RegistrationError → String
  | duplicate id => s!"export {id} registered twice"
  | invalid name fault => "invalid descriptor for \x60" ++ name ++ "\x60: " ++ fault.text
  | mismatch missing unexpected =>
    let parts := [labelIds? "not registered" missing, labelIds? "not exported" unexpected]
    "export list mismatch: " ++ "; ".intercalate (parts.filterMap id)

structure Exports where
  /-- The callables in order of registration. -/
  table : List Export
  /-- The numbers registered under each name, in order of registration. -/
  names : List (String × List ExportId)

namespace Exports

def empty : Exports where
  table := []
  names := []

def find? (x : Exports) (id : ExportId) : Option Export := x.table.find? fun e => e.id == id

/-- The numbers registered under a name, if there are any. -/
def idsOf? (x : Exports) (name : String) : Option (List ExportId) := x.names.lookup name

/-- The numbers registered under a name, in order of registration. -/
def overloads (x : Exports) (name : String) : List ExportId := (x.idsOf? name).getD []

def addName (name : String) (id : ExportId) :
    List (String × List ExportId) → List (String × List ExportId)
  | [] => [(name, [id])]
  | (n, ids) :: rest =>
    if n == name then (n, ids ++ [id]) :: rest else (n, ids) :: addName name id rest

/-- Registers a callable. A fault of the descriptor is reported before a number that is taken, and either
leaves the table as it is. -/
def register (x : Exports) (e : Export) : Exports × Except RegistrationError Unit :=
  match e.descriptor.fault? with
  | some fault => (x, .error (.invalid e.descriptor.name fault))
  | none =>
    if (x.find? e.id).isSome then (x, .error (.duplicate e.id))
    else
      ({ table := x.table ++ [e]
         names := addName e.descriptor.name e.id x.names }, .ok ())

def registerAll (x : Exports) : List Export → Exports × Except RegistrationError Unit
  | [] => (x, .ok ())
  | e :: es =>
    match x.register e with
    | (x, .ok ()) => x.registerAll es
    | (x, .error err) => (x, .error err)

def sorted (x : Exports) : List Export := x.table.mergeSort fun a b => a.id.le b.id

def sortedIds (ids : List ExportId) : List ExportId :=
  (ids.mergeSort ExportId.le).eraseReps

/-- Compares the registered numbers with those that the host was given, which are put in order once, so
that each registered number is found among them by halving. -/
def verify (x : Exports) (expected : List ExportId) : Except RegistrationError Unit :=
  let given := (sortedIds expected).toArray
  let missing := given.toList.filter fun id => (x.find? id).isNone
  let unexpected := (x.sorted.map Export.id).filter fun id => !given.binSearchContains id ExportId.lt
  if missing.isEmpty && unexpected.isEmpty then .ok () else .error (.mismatch missing unexpected)

def events (x : Exports) : List Event :=
  x.table.map fun e => .registered e.id e.descriptor.text

end Exports

end Gridcall
