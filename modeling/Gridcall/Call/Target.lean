import Gridcall.Call.Descriptor

/-!
# Call targets

A call goes to one export, to a list of exports that are tried in turn, or to the exports of one name.
`UnknownExport` is the one way in which a call has no result: its target is not registered.
-/

namespace Gridcall

inductive Target where
  | id (id : ExportId)
  /-- The first of these exports that does not answer with an error code. -/
  | overloads (ids : List ExportId)
  /-- The exports registered under this name, tried as overloads. -/
  | name (name : String)
deriving DecidableEq

/-- A call to something that was never registered: the host's list of exports and the registered ones
disagree. -/
inductive UnknownExport where
  | id (id : ExportId)
  | name (name : String)
deriving DecidableEq

def UnknownExport.message : UnknownExport → String
  | .id number => s!"no callable registered for export {number}"
  | .name text => "no callable registered under the name \x60" ++ text ++ "\x60"

end Gridcall
