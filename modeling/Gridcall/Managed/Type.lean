import Gridcall.Host.Value

/-!
# Managed types

* `ManagedType` : the types that callables declare and converters are keyed on;
* `ManagedType.text` : their written form;
* `ManagedType.accepts` : whether a value of one type may stand where another is required.
-/

namespace Gridcall

inductive ManagedType where
  | boolean
  | byte
  | short
  | int
  | long
  | float
  | double
  | char
  | string
  /-- The root of the reference types. -/
  | object
  /-- Host values, handed over as they are. -/
  | value
  | ofClass (name : ClassName)
  | array (element : ManagedType)
deriving DecidableEq

namespace ManagedType

def element? : ManagedType → Option ManagedType
  | array element => some element
  | _ => none

def isArray : ManagedType → Bool
  | array _ => true
  | _ => false

/-- Whether the type is one of the eight that are no reference types. -/
def isPrimitive : ManagedType → Bool
  | boolean | byte | short | int | long | float | double | char => true
  | _ => false

def text : ManagedType → String
  | boolean => "boolean"
  | byte => "byte"
  | short => "short"
  | int => "int"
  | long => "long"
  | float => "float"
  | double => "double"
  | char => "char"
  | string => "String"
  | object => "Object"
  | value => "Value"
  | ofClass name => name
  | array element => element.text ++ "[]"

instance : ToString ManagedType := ⟨text⟩

/-- Whether a value of type `actual` may stand where `required` is asked for. A type accepts itself,
the root accepts all but raw host values, and an array of the root accepts arrays whose elements are
neither primitive nor raw host values. -/
def accepts (required actual : ManagedType) : Bool :=
  required == actual ||
    match required, actual with
    | object, actual => actual != value
    | array required, array actual => required == object && !actual.isPrimitive && actual != value
    | _, _ => false

end ManagedType

end Gridcall
