import Gridcall.Call.Descriptor
import Gridcall.Json.Shape

/-!
# Managed types and descriptors as JSON

Managed types are written and read; descriptors are only written.
-/

namespace Gridcall

namespace ManagedType

def ofLabel? : String → Option ManagedType
  | "Boolean" => some boolean
  | "Byte" => some byte
  | "Short" => some short
  | "Int" => some int
  | "Long" => some long
  | "Float" => some float
  | "Double" => some double
  | "Char" => some char
  | "String" => some string
  | "Object" => some object
  | "Value" => some value
  | _ => none

def toJson : ManagedType → Json
  | boolean => .ofText "Boolean"
  | byte => .ofText "Byte"
  | short => .ofText "Short"
  | int => .ofText "Int"
  | long => .ofText "Long"
  | float => .ofText "Float"
  | double => .ofText "Double"
  | char => .ofText "Char"
  | string => .ofText "String"
  | object => .ofText "Object"
  | value => .ofText "Value"
  | ofClass name => .ofCase "Class" (.ofText name)
  | array element => .ofCase "Array" element.toJson

def ofJson? (room : Nat) (j : Json) : Option ManagedType :=
  match room, j with
  | _, .string (some name) => ofLabel? name
  | room + 1, .object [(some name, content)] =>
    if name = "Class" then content.text?.map .ofClass
    else if name = "Array" then (ofJson? room content).map array
    else if Json.isEmptyContent (some content) then ofLabel? name
    else none
  | _, _ => none

end ManagedType

instance : ToJson ManagedType := ⟨ManagedType.toJson⟩

instance : ToJson Descriptor where
  toJson d := .ofFields
    [("name", .ofText d.name),
     ("declaring", .ofText d.declaring),
     ("params", .array (d.params.map ToJson.toJson)),
     ("returns", (d.returns.map ToJson.toJson).getD .null),
     ("kind", .ofText d.kind.label),
     ("variadic", .boolean d.variadic)]

end Gridcall
