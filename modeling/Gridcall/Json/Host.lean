import Gridcall.Host.Value
import Gridcall.Json.Shape

/-!
# Host values as JSON

Every type of the host side with its JSON form: how it is written (`toJson`) and how it is read
(`ofJson?`, given the room for brackets).

A grid is an array of rows. What was written is read back, with rows padded to equal length and the
bounds of ranges checked.
-/

namespace Gridcall

/-! ## Parts of host values -/

instance : ToJson ErrorCode := ⟨fun c => .ofText c.label⟩

def ErrorCode.ofJson? : Nat → Json → Option ErrorCode := Json.nameOf? ErrorCode.ofLabel?

instance : ToJson HostType := ⟨fun h => .ofText h.text⟩

def HostType.ofJson? : Nat → Json → Option HostType := Json.nameOf? HostType.ofText?

instance : ToJson ObjectHandle where
  toJson h := .ofFields [("class", .ofText h.className), ("handle", .ofInt h.handle.raw.toInt)]

def ObjectHandle.ofJson? : Nat → Json → Option ObjectHandle
  | 0, _ => none
  | _ + 1, j => do
    match ← j.record? ["class", "handle"] with
    | [className, handle] => return ⟨← className.text?, ⟨← handle.int64?⟩⟩
    | _ => none

instance : ToJson CellRange where
  toJson r := .ofFields
    [("row_first", .ofInt r.rowFirst.toNat), ("row_last", .ofInt r.rowLast.toNat),
     ("column_first", .ofInt r.columnFirst.toNat), ("column_last", .ofInt r.columnLast.toNat)]

/-- Reads a range; its bounds must be in order. -/
def CellRange.ofJson? : Nat → Json → Option CellRange
  | 0, _ => none
  | _ + 1, j => do
    match ← j.record? ["row_first", "row_last", "column_first", "column_last"] with
    | [rowFirst, rowLast, columnFirst, columnLast] =>
      (CellRange.ofBounds (← rowFirst.uint32?) (← rowLast.uint32?) (← columnFirst.uint32?)
        (← columnLast.uint32?)).toOption
    | _ => none

instance : ToJson SheetId := ⟨fun s => .ofInt s.raw.toNat⟩

instance : ToJson BigData where
  toJson
    | .inline bytes => .ofCase "Inline" (.array (bytes.map fun b => .ofInt b.toNat))
    | .handle handle length =>
      .ofCase "Handle" (.ofFields [("handle", .ofInt handle.toNat), ("length", .ofInt length.toNat)])

def BigData.ofJson? : Nat → Json → Option BigData
  | 0, _ => none
  | room + 1, j => do
    match ← j.case? with
    | ("Inline", some content) =>
      return .inline (← Json.listOf? (fun _ => Json.uint8?) room content)
    | ("Handle", some content) =>
      guard (0 < room)
      match ← content.record? ["handle", "length"] with
      | [number, length] => return .handle (← number.uint64?) (← length.uint64?)
      | _ => none
    | _ => none

/-! ## Host values -/

namespace HostValue

def ofEmptyCase? : String → Option HostValue
  | "Missing" => some missing
  | "Nil" => some nil
  | _ => none

def multiReferenceOfJson? : Nat → Json → Option HostValue
  | 0, _ => none
  | room + 1, j => do
    match ← j.record? ["sheet", "ranges"] with
    | [sheet, ranges] =>
      return multiReference ⟨← sheet.uint64?⟩ (← Json.listOf? CellRange.ofJson? room ranges)
    | _ => none

def ofSimpleCase? (room : Nat) (name : String) (content : Json) : Option HostValue :=
  match name with
  | "String" => content.text?.map string
  | "Number" => content.double?.map number
  | "Boolean" => content.boolean?.map boolean
  | "Error" => (ErrorCode.ofJson? room content).map error
  | "Object" => (ObjectHandle.ofJson? room content).map object
  | "Reference" => (CellRange.ofJson? room content).map reference
  | "MultiReference" => multiReferenceOfJson? room content
  | "SheetId" => content.uint64?.map fun raw => sheetId ⟨raw⟩
  | "Range" => (CellRange.ofJson? room content).map range
  | "BigData" => (BigData.ofJson? room content).map bigData
  | _ => if Json.isEmptyContent (some content) then ofEmptyCase? name else none

/-- Reads a grid, given how a cell is read with the room that two brackets leave, if they leave
any. -/
def gridOfJson? (readCell : Option (Json → Option HostValue)) (j : Json) : Option HostGrid := do
  let rows ← j.items?
  match readCell with
  | none =>
    guard rows.isEmpty
    return HostGrid.ofRows []
  | some readCell => return HostGrid.ofRows (← rows.mapM fun row => do (← row.items?).mapM readCell)

def ofJson? (room : Nat) (j : Json) : Option HostValue :=
  match room, j with
  | _, .string (some name) => ofEmptyCase? name
  | room + 1, .object [(some name, content)] =>
    if name = "Array" then
      match room with
      | 0 => none
      | 1 => (gridOfJson? none content).map array
      | room + 2 => (gridOfJson? (some (ofJson? room)) content).map array
    else ofSimpleCase? room name content
  | _, _ => none

end HostValue

def HostGrid.ofJson? : Nat → Json → Option HostGrid
  | 0, _ => none
  | 1, j => HostValue.gridOfJson? none j
  | room + 2, j => HostValue.gridOfJson? (some (HostValue.ofJson? room)) j

/-! ## Writing host values -/

mutual

def HostValue.toJson : HostValue → Json
  | .string s => .ofCase "String" (.ofText s)
  | .number n => .ofCase "Number" (.ofDouble n)
  | .boolean b => .ofCase "Boolean" (.boolean b)
  | .error code => .ofCase "Error" (ToJson.toJson code)
  | .missing => .ofText "Missing"
  | .nil => .ofText "Nil"
  | .object h => .ofCase "Object" (ToJson.toJson h)
  | .array grid => .ofCase "Array" (HostGrid.toJson grid)
  | .reference r => .ofCase "Reference" (ToJson.toJson r)
  | .multiReference s rs =>
    .ofCase "MultiReference"
      (.ofFields [("sheet", ToJson.toJson s), ("ranges", .array (rs.map ToJson.toJson))])
  | .sheetId s => .ofCase "SheetId" (ToJson.toJson s)
  | .range r => .ofCase "Range" (ToJson.toJson r)
  | .bigData data => .ofCase "BigData" (ToJson.toJson data)

def HostGrid.toJson : HostGrid → Json
  | ⟨rows, columns, cells⟩ =>
    .array ((Grid.toRows ⟨rows, columns, HostValue.cellsToJson cells⟩).map Json.array)

def HostValue.cellsToJson : List HostValue → List Json
  | [] => []
  | v :: vs => v.toJson :: HostValue.cellsToJson vs

end

instance : ToJson HostValue := ⟨HostValue.toJson⟩

instance : ToJson HostGrid := ⟨HostGrid.toJson⟩

end Gridcall
