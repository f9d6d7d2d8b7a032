import Gridcall.Host.Equality
import Gridcall.Managed.Type

/-!
# Managed values

`Managed` holds what a callable receives and returns. Objects are opaque: they carry an identity, a
class and contents that only the library which made them can read.

* `Managed.runtimeType?` : the type of a value, none for null;
* `Managed.toDouble?`, `Managed.toInt64?` : numbers, widened;
* `Managed.equals` : equality, with numeric comparison of floats and identity of objects;
* `Managed.renew` : a copy whose objects are made anew.
-/

namespace Gridcall

structure ObjectId where
  /-- The place of the object in the order of creation. -/
  index : Nat
deriving DecidableEq

/-- What an object holds; `α` is the type of values that an object can box. -/
inductive Contents (α : Type) where
  | text (s : String)
  | number (n : Int64)
  /-- A value that was put into an object because it had no host form of its own. -/
  | boxed (value : α)
  /-- A record of the library named `owner`, which holds a text. -/
  | record (owner text : String)

def Contents.asText? {α : Type} : Contents α → Option String
  | text s => some s
  | _ => none

def Contents.asNumber? {α : Type} : Contents α → Option Int64
  | number n => some n
  | _ => none

/-- A managed object over boxed values of type `α`. -/
structure ObjectOf (α : Type) where
  id : ObjectId
  className : ClassName
  contents : Contents α

inductive Managed where
  | null
  | boolean (b : Bool)
  | byte (v : Int8)
  | short (v : Int16)
  | int (v : Int32)
  | long (v : Int64)
  | float (v : Single)
  | double (v : Double)
  | char (c : Char)
  | string (s : String)
  /-- An array with its declared element type. -/
  | array (element : ManagedType) (items : List Managed)
  /-- A host value, as it came. -/
  | value (v : HostValue)
  | object (o : ObjectOf Managed)

abbrev Object := ObjectOf Managed

def ObjectOf.identical {α : Type} (a b : ObjectOf α) : Bool := a.id == b.id

namespace Managed

instance : Inhabited Managed := ⟨null⟩

def runtimeType? : Managed → Option ManagedType
  | null => none
  | boolean _ => some .boolean
  | byte _ => some .byte
  | short _ => some .short
  | int _ => some .int
  | long _ => some .long
  | float _ => some .float
  | double _ => some .double
  | char _ => some .char
  | string _ => some .string
  | array element _ => some (.array element)
  | value _ => some .value
  | object o => some (.ofClass o.className)

def typeName (v : Managed) : String := (v.runtimeType?.map ManagedType.text).getD "null"

def isNull : Managed → Bool
  | null => true
  | _ => false

/-- A number of any width as a double; longs are rounded. -/
def toDouble? : Managed → Option Double
  | byte v => some (.ofInt v.toInt)
  | short v => some (.ofInt v.toInt)
  | int v => some (.ofInt v.toInt)
  | long v => some (.ofInt v.toInt)
  | float v => some v.convert
  | double v => some v
  | _ => none

def toInt64? : Managed → Option Int64
  | byte v => some v.toInt64
  | short v => some v.toInt64
  | int v => some v.toInt64
  | long v => some v
  | _ => none

/-! ## Equality -/

mutual

/-- Equality of values: floats compare as numbers, objects by identity, host values by sameness. -/
def equals : Managed → Managed → Bool
  | null, null => true
  | boolean a, boolean b => a == b
  | byte a, byte b => a == b
  | short a, short b => a == b
  | int a, int b => a == b
  | long a, long b => a == b
  | float a, float b => a.equals b
  | double a, double b => a.equals b
  | char a, char b => a == b
  | string a, string b => a == b
  | array e items, array e' items' => e == e' && equalsItems items items'
  | value a, value b => a.same b
  | object a, object b => a.identical b
  | _, _ => false

def equalsItems : List Managed → List Managed → Bool
  | [], [] => true
  | a :: as, b :: bs => equals a b && equalsItems as bs
  | _, _ => false

end

/-! ## Copies with new objects -/

mutual

/-- A copy of the value in which every object is made anew by `create`, from left to right. -/
def renew {m : Type → Type} [Monad m] (create : ClassName → Contents Managed → m Object) :
    Managed → m Managed
  | array element items => do
    let items ← renewItems create items
    return .array element items
  | object o => do
    let o ← create o.className o.contents
    return .object o
  | v => pure v

def renewItems {m : Type → Type} [Monad m] (create : ClassName → Contents Managed → m Object) :
    List Managed → m (List Managed)
  | [] => pure []
  | v :: vs => do
    let v ← renew create v
    let vs ← renewItems create vs
    return v :: vs

end

theorem sizeOf_lt_of_mem_items {element : ManagedType} {items : List Managed} {v : Managed}
    (h : v ∈ items) : sizeOf v < sizeOf (array element items) := by
  have := List.sizeOf_lt_of_mem h
  simp only [array.sizeOf_spec]
  omega

end Managed

end Gridcall
