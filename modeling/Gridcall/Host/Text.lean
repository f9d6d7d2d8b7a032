import Gridcall.Host.Value
import Gridcall.Number.Reading
import Gridcall.Number.Style

/-!
# Host values as text

* `HostValue.text` : what a value shows in a cell;
* `ObjectHandle.cellText` : a handle spelled as a string, the marker, the class, a dash and the
  number; `ObjectHandle.ofCellText?` reads it back.

The class in a handle text may hold dashes and markers: the last dash ends it.
-/

namespace Gridcall

/-! ## Handle texts -/

namespace ObjectHandle

def text (h : ObjectHandle) : String := s!"<{h.className} #{h.handle}>"

instance : ToString ObjectHandle := ⟨text⟩

/-- The handle spelled as a string that a formula can pass back. -/
def cellText (h : ObjectHandle) (marker : Char) : String :=
  String.ofList (marker :: (h.className.toList ++ '-' :: (toString h.handle).toList))

def splitLastDash? : List Char → Option (List Char × List Char)
  | [] => none
  | c :: cs =>
    match splitLastDash? cs with
    | some (before, after) => some (c :: before, after)
    | none => if c == '-' then some ([], cs) else none

/-- Reads a handle text: the marker, a class that is not empty, a dash and a number. -/
def ofCellText? (text : String) (marker : Char) : Option ObjectHandle :=
  match text.toList with
  | [] => none
  | c :: body =>
    if c == marker then
      match splitLastDash? body with
      | none => none
      | some (className, digits) =>
        if className.isEmpty then none
        else (readInt64? digits).map fun raw => ⟨String.ofList className, ⟨raw⟩⟩
    else none

end ObjectHandle

/-! ## Cell texts -/

namespace HostValue

/-- What a value shows in a cell. Text stands for itself and empty cells show nothing. -/
def text : HostValue → String
  | string s => s
  | number n => n.write .cell
  | boolean true => "TRUE"
  | boolean false => "FALSE"
  | error code => code.text
  | missing => ""
  | nil => ""
  | object h => h.text
  | array grid => s!"\x7b{grid.rows}x{grid.columns} array\x7d"
  | reference r => r.text
  | multiReference s rs => s!"[{s}]" ++ ",".intercalate (rs.map CellRange.text)
  | sheetId s => s!"[{s}]"
  | range r => r.text
  | bigData (.inline bytes) => s!"<{bytes.length} bytes>"
  | bigData (.handle handle length) => s!"<data #{handle}, {length} bytes>"

instance : ToString HostValue := ⟨text⟩

end HostValue

end Gridcall
