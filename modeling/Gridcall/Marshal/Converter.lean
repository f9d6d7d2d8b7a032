import Gridcall.Journal
import Gridcall.Marshal.Request

/-!
# Converters

A `Converter` maps between one managed type and one kind of host value. This module says which
converters exist and when each one is eligible; `Marshal.Decode` and `Marshal.Encode` say what they
do.

* `Store` : the heap with the journal, what a conversion may change;
* `ClientConverter` : a converter supplied from outside, with its own rules and with dialogues that say
  what it does;
* `Converter.acceptsHost`, `Converter.acceptsManaged` : eligibility for decoding and encoding;
* `Converter.defaults` : the standard converters, in their order.
-/

namespace Gridcall

/-! ## The store -/

/-- The heap with the journal of what was done. -/
structure Store where
  heap : Heap
  /-- What was done, the latest first. -/
  journal : List Event

namespace Store

def empty : Store where
  heap := .empty
  journal := []

def note (s : Store) (e : Event) : Store := { s with journal := e :: s.journal }

def create (s : Store) (className : ClassName) (contents : Contents Managed) : Object × Store :=
  let (o, heap) := s.heap.create className contents
  (o, { s with heap })

def mint (s : Store) (o : Object) : Handle × Store :=
  let (handle, heap) := s.heap.mint o
  (handle, { s with heap }.note (.minted handle o.className))

def release (s : Store) (handle : Handle) : Bool × Store :=
  match s.heap.release handle with
  | (true, heap) => (true, { s with heap }.note (.released handle))
  | (false, heap) => (false, { s with heap })

/-- Gives out a handle for a managed value. An object is stored as it is; any other value is put
into an object whose class is the name of the value's type. -/
def mintValue (s : Store) (v : Managed) : HostValue × Store :=
  let (o, s) := match v with
    | .object o => (o, s)
    | v => s.create v.typeName (.boxed v)
  let (handle, s) := s.mint o
  (.object { className := o.className, handle }, s)

end Store

/-! ## The converters -/

/-- A converter supplied from outside. -/
structure ClientConverter where
  managedType : ManagedType
  /-- The host half of the mapping; `none` if every kind is accepted. -/
  hostType : Option HostType
  /-- Higher wins when several converters are eligible. -/
  priority : Int
  acceptsHost : HostType → ManagedType → Bool
  acceptsManaged : ManagedType → Bool
  /-- How deep the conversions may nest that the converter asks for on a heap to encode a value, or to
  decode one, counted by the converters from outside that take part in them. -/
  encodeRoom : Heap → Managed → Nat
  decodeRoom : Heap → HostValue → Nat
  /-- Encodes a managed value; the kind is what the caller would like to have. -/
  encode : Option HostType → Managed → Conversion.Action HostValue
  /-- Decodes a host value; the type is what the caller requires. -/
  decode : Option ManagedType → HostValue → Conversion.Action Managed

/-- A two-way conversion between a managed type and a kind of host value. -/
inductive Converter where
  | number (type : ManagedType)
  | numericText (type : ManagedType)
  | boolean
  | string
  /-- Characters and text of one character. -/
  | char
  /-- Arrays and grids read as sequences. -/
  | array (element : ManagedType)
  /-- Arrays of rows and grids. -/
  | table (element : ManagedType) (priority : Int)
  | object
  /-- Null and empty cells; decoding only. -/
  | nil
  | raw
  | client (c : ClientConverter)

/-- Whether a converter for `own` values takes a host value of kind `host` into a slot of type
`required`: the kinds agree and the slot accepts the converter's type. -/
def eligibleByType (managedType : ManagedType) (own : Option HostType) (host : HostType)
    (required : ManagedType) : Bool :=
  (match own with
    | none => true
    | some own => own == host) && required.accepts managedType

/-- Whether an array converter over `own` elements takes an array over `actual` elements: over the
root it takes elements that are neither primitive nor arrays, otherwise exactly its own. -/
def takesElement (own actual : ManagedType) : Bool :=
  if own = .object then !actual.isPrimitive && !actual.isArray else actual == own

def isObjectType : ManagedType → Bool
  | .object => true
  | .ofClass _ => true
  | _ => false

namespace Converter

def managedType : Converter → ManagedType
  | number type => type
  | numericText type => type
  | boolean => .boolean
  | string => .string
  | char => .char
  | array element => .array element
  | table element _ => .array (.array element)
  | object => .object
  | nil => .object
  | raw => .value
  | client c => c.managedType

/-- The host half of the mapping; `none` if every kind is accepted. -/
def hostType : Converter → Option HostType
  | number _ => some .number
  | numericText _ => some .string
  | boolean => some .boolean
  | string => some .string
  | char => some .string
  | array _ => some .array
  | table _ _ => some .array
  | object => some .object
  | nil => some .nil
  | raw => none
  | client c => c.hostType

def priority : Converter → Int
  | number _ => 10
  | numericText _ => -1
  | boolean => 10
  | string => 10
  | char => 5
  | array _ => 10
  | table _ priority => priority
  | object => 0
  | nil => -5
  | raw => -10
  | client c => c.priority

/-- Whether a host value of kind `host` can be decoded into a slot of type `required`. -/
def acceptsHost (c : Converter) (host : HostType) (required : ManagedType) : Bool :=
  match c with
  | array _ => host == .array && required == c.managedType
  | table _ _ => host == .array && required == c.managedType
  | object => host == .object && isObjectType required
  | nil => (host == .nil || host == .missing) && isObjectType required
  | client c => c.acceptsHost host required
  | c => eligibleByType c.managedType c.hostType host required

/-- Whether a managed value of type `type` can be encoded. -/
def acceptsManaged (c : Converter) (type : ManagedType) : Bool :=
  match c with
  | array own =>
    match type.element? with
    | some element => takesElement own element
    | none => false
  | table own _ =>
    match type.element?.bind ManagedType.element? with
    | some element => takesElement own element
    | none => false
  | nil => false
  | client c => c.acceptsManaged type
  | c => c.managedType.accepts type

def accepts (c : Converter) (m : Mapping) : Bool :=
  match m.direction, m.host with
  | .toManaged, some host => c.acceptsHost host m.managed
  | .toManaged, none => false
  | .toHost, _ => c.acceptsManaged m.managed

def numericTypes : List ManagedType := [.double, .float, .long, .int, .short, .byte]

/-- The standard converters: numbers, truth values, text, numbers as text, arrays, tables, objects,
empty cells, and host values as they are. -/
def defaults : List Converter :=
  numericTypes.map number ++ [boolean, string, char] ++ numericTypes.map numericText ++
    (numericTypes ++ [ManagedType.boolean, .string, .object]).map array ++
    [table .double 10, table .object 11, object, nil, raw]

end Converter

namespace ClientConverter

/-- A converter with the standard rules of eligibility that answers every value with one label. -/
def labelling (managedType : ManagedType) (hostType : Option HostType) (priority : Int)
    (label : String) : ClientConverter where
  managedType := managedType
  hostType := hostType
  priority := priority
  acceptsHost := eligibleByType managedType hostType
  acceptsManaged := managedType.accepts
  encodeRoom _ _ := 0
  decodeRoom _ _ := 0
  encode _ _ := return .string label
  decode _ _ := return .string label

end ClientConverter

end Gridcall
