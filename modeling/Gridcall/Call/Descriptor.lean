import Gridcall.Managed.Type

/-!
# Callable descriptors

* `ExportId` : the number under which the host knows a callable;
* `Descriptor` : name, class, parameters and result of a callable;
* `Descriptor.fault?` : why a descriptor cannot be registered, if it cannot.

A variadic callable takes any number of further arguments through its last parameter, which must be
an array.
-/

namespace Gridcall

/-- The number of an exported callable, assigned by the host. -/
structure ExportId where
  raw : UInt32
deriving DecidableEq

instance : ToString ExportId := ⟨fun id => toString id.raw⟩

def ExportId.le (a b : ExportId) : Bool := a.raw ≤ b.raw

def ExportId.lt (a b : ExportId) : Bool := a.raw < b.raw

inductive CallableKind where
  | static
  /-- With a receiver, whose handle is the first argument. -/
  | method
  | constructor
deriving DecidableEq

def CallableKind.label : CallableKind → String
  | static => "Static"
  | method => "Instance"
  | constructor => "Constructor"

/-- What is known of a callable before it is called. -/
structure Descriptor where
  name : String
  declaring : ClassName
  /-- The types of its parameters, the receiver excluded. -/
  params : List ManagedType
  /-- The type of its result; `none` if it has none. -/
  returns : Option ManagedType
  kind : CallableKind
  /-- Whether the last parameter takes any number of arguments. -/
  variadic : Bool
deriving DecidableEq

namespace Descriptor

def function (name : String) (declaring : ClassName) (params : List ManagedType)
    (returns : Option ManagedType) : Descriptor where
  name := name
  declaring := declaring
  params := params
  returns := returns
  kind := .static
  variadic := false

def method (name : String) (declaring : ClassName) (params : List ManagedType)
    (returns : Option ManagedType) : Descriptor :=
  { function name declaring params returns with kind := .method }

def constructor (declaring : ClassName) (params : List ManagedType) : Descriptor :=
  { function declaring declaring params (some (.ofClass declaring)) with kind := .constructor }

def asVariadic (d : Descriptor) : Descriptor := { d with variadic := true }

def named (d : Descriptor) (name : String) : Descriptor := { d with name }

def isStatic (d : Descriptor) : Bool := d.kind == .static

def tailElement? (d : Descriptor) : Option ManagedType :=
  if d.variadic then d.params.getLast?.bind ManagedType.element? else none

/-- Why the descriptor cannot be registered. -/
inductive Fault where
  | emptyName
  /-- The callable is variadic, and its last parameter is no array. -/
  | noTail
deriving DecidableEq

def Fault.text : Fault → String
  | emptyName => "empty name"
  | noTail => "variadic callable must end with an array parameter"

def fault? (d : Descriptor) : Option Fault :=
  if d.name.isEmpty then some .emptyName
  else if d.variadic && d.tailElement?.isNone then some .noTail
  else none

/-- The parameters as they are written, the variadic tail as its element type with three dots. -/
def paramTexts (d : Descriptor) : List String :=
  match d.tailElement? with
  | some element => d.params.dropLast.map ManagedType.text ++ [element.text ++ "..."]
  | none => d.params.map ManagedType.text

/-- The written form of a descriptor; instance methods show their class. -/
def text (d : Descriptor) : String :=
  let owner := match d.kind with
    | .method => d.declaring ++ "."
    | _ => ""
  let result := match d.returns with
    | some type => " -> " ++ type.text
    | none => ""
  owner ++ d.name ++ "(" ++ ", ".intercalate d.paramTexts ++ ")" ++ result

instance : ToString Descriptor := ⟨text⟩

end Descriptor

end Gridcall
