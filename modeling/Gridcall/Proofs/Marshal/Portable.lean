import Gridcall.Managed.Value
import Gridcall.Proofs.Marshal.Defaults

/-!
# Values that survive the way to the host

* `Managed.Alike` : values that differ at most in which NaN a single precision number is;
* `PortableItem element m` : the items that arrays over `element` may hold;
* `Portable m` : the values that come back from the host as they were;
* `Managed.objectCount` : the number of objects in a value, one handle each.
-/

namespace Gridcall

/-- The two values are the same, but for which NaN a single precision number is. Objects are the same
if they are one object. -/
inductive Managed.Alike : Managed → Managed → Prop
  | refl (v : Managed) : Alike v v
  /-- All NaNs are alike. -/
  | nan {x y : Single} (hx : x.isNaN) (hy : y.isNaN) : Alike (.float x) (.float y)
  | array (element : ManagedType) {items items' : List Managed} (h : List.Forall₂ Alike items items') :
      Alike (.array element items) (.array element items')

/-- The items that an array over an element type may hold; those of the root are listed last. -/
inductive PortableItem : ManagedType → Managed → Prop
  | boolean (b : Bool) : PortableItem .boolean (.boolean b)
  | byte (n : Int8) : PortableItem .byte (.byte n)
  | short (n : Int16) : PortableItem .short (.short n)
  | int (n : Int32) : PortableItem .int (.int n)
  /-- 64-bit integers that a double holds exactly. -/
  | long (n : Int64) (h : n.toInt.natAbs ≤ 2 ^ 53) : PortableItem .long (.long n)
  | float (x : Single) : PortableItem .float (.float x)
  | double (x : Double) : PortableItem .double (.double x)
  | string (s : String) : PortableItem .string (.string s)
  | null : PortableItem .object .null
  | rootBoolean (b : Bool) : PortableItem .object (.boolean b)
  | rootDouble (x : Double) : PortableItem .object (.double x)
  | rootString (s : String) : PortableItem .object (.string s)
  | rootObject (o : Object) : PortableItem .object (.object o)
  /-- Grids that are handed over as they are. -/
  | rootGrid (grid : HostGrid) : PortableItem .object (.value (.array grid))

/-- The values that come back from the host as they were. -/
inductive Portable : Managed → Prop
  | scalar {type : ManagedType} {v : Managed} (h : PortableItem type v) (htype : type ≠ .object) :
      Portable v
  | char (c : Char) : Portable (.char c)
  | object (o : Object) : Portable (.object o)
  | value (v : HostValue) : Portable (.value v)
  /-- Arrays with at least one item. -/
  | array {element : ManagedType} {items : List Managed} (hne : items ≠ [])
      (hitems : ∀ item ∈ items, PortableItem element item) : Portable (.array element items)
  /-- Rectangles with at least one row and one column. -/
  | table {element : ManagedType} {width : Nat} {rows : List (List Managed)}
      (helement : element = .double ∨ element = .object) (hne : rows ≠ []) (hwidth : 0 < width)
      (hlength : ∀ row ∈ rows, row.length = width)
      (hitems : ∀ row ∈ rows, ∀ item ∈ row, PortableItem element item) :
      Portable (.array (.array element) (rows.map (.array element)))

namespace Managed

mutual

def objectCount : Managed → Nat
  | object _ => 1
  | array _ items => objectCounts items
  | _ => 0

def objectCounts : List Managed → Nat
  | [] => 0
  | v :: vs => objectCount v + objectCounts vs

end

theorem objectCounts_eq_sum (vs : List Managed) : objectCounts vs = (vs.map objectCount).sum := by
  induction vs with
  | nil => rfl
  | cons v vs ih => rw [objectCounts, ih, List.map_cons, List.sum_cons]

end Managed

/-- Arrays over the element type of a portable item are read from grids. -/
theorem PortableItem.isVectorElement {element : ManagedType} {item : Managed}
    (h : PortableItem element item) : element.isVectorElement := by
  cases h <;> rfl

/-- A portable item of a scalar type is a value of that type, and no object. -/
theorem PortableItem.scalar_facts {type : ManagedType} {v : Managed} (h : PortableItem type v)
    (htype : type ≠ .object) : v.runtimeType? = some type ∧ v.objectCount = 0 := by
  cases h <;> first | exact ⟨rfl, rfl⟩ | exact absurd rfl htype

end Gridcall
