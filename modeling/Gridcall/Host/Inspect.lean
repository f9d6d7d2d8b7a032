import Gridcall.Host.Value
import Gridcall.Number.Style
import Gridcall.Text.Quoted

/-!
# Host values in logs

`HostValue.inspect` writes a value with its constructors and field names, so that a log shows what
was passed and not only how it looks in a cell.
-/

namespace Gridcall

def bracketed (items : List String) : String := "[" ++ ", ".intercalate items ++ "]"

def withFields (name : String) (fields : List (String × String)) : String :=
  name ++ " \x7b " ++ ", ".intercalate (fields.map fun f => f.1 ++ ": " ++ f.2) ++ " \x7d"

def CellRange.inspect (r : CellRange) : String :=
  withFields "CellRange"
    [("row_first", toString r.rowFirst), ("row_last", toString r.rowLast),
      ("column_first", toString r.columnFirst), ("column_last", toString r.columnLast)]

def SheetId.inspect (s : SheetId) : String := s!"SheetId({s.raw})"

def ObjectHandle.inspect (h : ObjectHandle) : String :=
  withFields "ObjectHandle"
    [("class", "ClassName(" ++ quoted h.className ++ ")"), ("handle", s!"Handle({h.handle})")]

def BigData.inspect : BigData → String
  | inline bytes => "Inline(" ++ bracketed (bytes.map toString) ++ ")"
  | handle number length =>
    withFields "Handle" [("handle", toString number), ("length", toString length)]

namespace HostValue

mutual

def inspect : HostValue → String
  | string s => "String(" ++ quoted s ++ ")"
  | number n => "Number(" ++ n.write .log ++ ")"
  | boolean b => s!"Boolean({b})"
  | error code => "Error(" ++ code.label ++ ")"
  | missing => "Missing"
  | nil => "Nil"
  | object h => "Object(" ++ h.inspect ++ ")"
  | array grid => "Array(" ++ inspectGrid grid ++ ")"
  | reference r => "Reference(" ++ r.inspect ++ ")"
  | multiReference s rs =>
    withFields "MultiReference"
      [("sheet", s.inspect), ("ranges", bracketed (rs.map CellRange.inspect))]
  | sheetId s => "SheetId(" ++ s.inspect ++ ")"
  | range r => "Range(" ++ r.inspect ++ ")"
  | bigData d => "BigData(" ++ d.inspect ++ ")"

def inspectGrid : HostGrid → String
  | ⟨rows, columns, cells⟩ =>
    withFields "HostArray"
      [("rows", toString rows), ("columns", toString columns),
        ("cells", bracketed (inspectCells cells))]

def inspectCells : List HostValue → List String
  | [] => []
  | v :: vs => inspect v :: inspectCells vs

end

end HostValue

end Gridcall
