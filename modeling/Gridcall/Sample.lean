import Gridcall.Call.Run

/-!
# The sample library

Seven exports on which a bridge can be tried out: people with names, some text and arithmetic, and
calls by name.

* `Sample.exports` : the exports with their numbers;
* `Sample.bridge` : a bridge that offers them.
-/

namespace Gridcall

namespace Sample

def person : ClassName := "Person"

def personName? : Contents Managed → Option String
  | .record owner name => if owner == person then some name else none
  | _ => none

def table : ManagedType := .array (.array .object)

/-- The sum of numbers, added from left to right to negative zero, which changes nothing. -/
def sum (xs : List Double) : Double := xs.foldl Binary.add (.zero true)

/-- The rows turned into columns. The first row decides how many columns there are; missing items
are null. -/
def transpose (rows : List (List Managed)) : List (List Managed) :=
  let width := (rows.head?.map List.length).getD 0
  (List.range width).map fun column => rows.map fun row => (row[column]?).getD .null

def newPerson : Callable := fun frame => do
  let name ← frame.arg .string 0
  return .object (← Action.convert (.create person (.record person name)))

def getName : Callable := fun frame => do
  return .string (← frame.receiverAs personName?)

/-- Appends the texts of all further arguments to the first one. -/
def concat : Callable := fun frame => do
  let start ← frame.arg .string 0
  let parts ← frame.arg (.list .value) 1
  return .string (start ++ String.join (parts.map HostValue.text))

def sumUp : Callable := fun frame => do
  return .double (sum (← frame.arg (.list .double) 0))

def transposeTable : Callable := fun frame => do
  let rows ← frame.arg (.list (.list .managed)) 0
  return .array (.array .object) ((transpose rows).map (.array .object))

/-- Calls the export named by the first argument with the other arguments. -/
def construct : Callable := fun frame => do
  let name ← frame.arg .string 0
  let args ← frame.arg (.list .value) 1
  return .value (← Action.call (.name name) args)

def add : Callable := fun frame => do
  let a ← frame.arg .int 0
  let b ← frame.arg .int 1
  let total := a.toInt + b.toInt
  if IntegerKind.int.contains total then return IntegerKind.int.wrap total
  else Action.fail s!"Add: {a} + {b} overflows int"

def exports : List Export :=
  [⟨⟨1⟩, .constructor person [.string], newPerson⟩,
   ⟨⟨2⟩, .method "GetName" person [] (some .string), getName⟩,
   ⟨⟨3⟩, (Descriptor.function "Concat" "Text" [.string, .array .object] (some .string)).asVariadic,
    concat⟩,
   ⟨⟨4⟩, .function "Sum" "Maths" [.array .double] (some .double), sumUp⟩,
   ⟨⟨5⟩, .function "Transpose" "Maths" [table] (some table), transposeTable⟩,
   ⟨⟨6⟩,
    (Descriptor.function "Construct" "Reflection" [.string, .array .value]
      (some .object)).asVariadic,
    construct⟩,
   ⟨⟨7⟩, .function "Add" "Maths" [.int, .int] (some .int), add⟩]

/-- A bridge with the standard converters that offers the sample library. -/
def bridge (settings : Settings) : Bridge where
  settings := settings
  registry := Converter.defaults
  exports := (Exports.empty.registerAll exports).1

end Sample

end Gridcall
