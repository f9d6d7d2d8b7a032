import Gridcall.Managed.Value

/-!
# Typed reading of managed values

A `ReadKind` names what a callable expects of an argument, `ReadKind.Carrier` is the type of what is
read, and `Managed.read` reads it. Numbers are widened and never narrowed, and a single character
reads as text.

* `ReadError` : what was expected and what was there;
* `ReadKind.embed` : what was read, back as a managed value.
-/

namespace Gridcall

/-- What a callable may expect of a managed value. -/
inductive ReadKind where
  | boolean
  | byte
  | short
  | int
  | long
  | float
  | double
  | char
  | string
  | value
  | object
  /-- Any managed value. -/
  | managed
  | option (kind : ReadKind)
  | list (kind : ReadKind)
deriving DecidableEq

abbrev ReadKind.Carrier : ReadKind → Type
  | boolean => Bool
  | byte => Int8
  | short => Int16
  | int => Int32
  | long => Int64
  | float => Single
  | double => Double
  | char => Char
  | string => String
  | value => HostValue
  | object => Object
  | managed => Managed
  | option kind => Option kind.Carrier
  | list kind => List kind.Carrier

/-- A value that is not what was expected. -/
structure ReadError where
  expected : String
  actual : String
deriving DecidableEq

def ReadError.message (e : ReadError) : String := s!"expected {e.expected}, got {e.actual}"

namespace Managed

def unexpected {α : Type} (expected : String) (v : Managed) : Except ReadError α :=
  .error { expected, actual := v.typeName }

def read : (kind : ReadKind) → Managed → Except ReadError kind.Carrier
  | .boolean, boolean b => .ok b
  | .boolean, v => unexpected "boolean" v
  | .byte, byte i => .ok i
  | .byte, v => unexpected "byte" v
  | .short, short i => .ok i
  | .short, byte i => .ok i.toInt16
  | .short, v => unexpected "short" v
  | .int, int i => .ok i
  | .int, short i => .ok i.toInt32
  | .int, byte i => .ok i.toInt32
  | .int, v => unexpected "int" v
  | .long, v =>
    match v.toInt64? with
    | some i => .ok i
    | none => unexpected "long" v
  | .float, float x => .ok x
  | .float, short i => .ok (.ofInt i.toInt)
  | .float, byte i => .ok (.ofInt i.toInt)
  | .float, v => unexpected "float" v
  | .double, v =>
    match v.toDouble? with
    | some x => .ok x
    | none => unexpected "double" v
  | .char, char c => .ok c
  | .char, v => unexpected "char" v
  | .string, string s => .ok s
  | .string, char c => .ok (String.singleton c)
  | .string, v => unexpected "String" v
  | .value, value v => .ok v
  | .value, v => unexpected "Value" v
  | .object, object o => .ok o
  | .object, v => unexpected "Object" v
  | .managed, v => .ok v
  | .option _, null => .ok none
  | .option kind, v => (read kind v).map some
  | .list kind, array _ items => items.mapM (read kind)
  | .list _, v => unexpected "array" v

end Managed

namespace ReadKind

/-- The managed type of what is read; any managed value counts as an object. -/
def managedType : ReadKind → ManagedType
  | boolean => .boolean
  | byte => .byte
  | short => .short
  | int => .int
  | long => .long
  | float => .float
  | double => .double
  | char => .char
  | string => .string
  | value => .value
  | object => .object
  | managed => .object
  | option kind => kind.managedType
  | list kind => .array kind.managedType

/-- What was read, as a managed value; nothing is null. -/
def embed : (kind : ReadKind) → kind.Carrier → Managed
  | boolean, b => .boolean b
  | byte, i => .byte i
  | short, i => .short i
  | int, i => .int i
  | long, i => .long i
  | float, x => .float x
  | double, x => .double x
  | char, c => .char c
  | string, s => .string s
  | value, v => .value v
  | object, o => .object o
  | managed, v => v
  | option _, none => .null
  | option kind, some x => embed kind x
  | list kind, xs => .array kind.managedType (xs.map (embed kind))

end ReadKind

end Gridcall
