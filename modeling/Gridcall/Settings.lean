/-!
# Settings

The options of a bridge. Every option has a default.
-/

namespace Gridcall

/-- The options of a bridge. -/
structure Settings where
  /-- Whether string arguments that spell a handle are replaced by the handle. -/
  coerceHandleStrings : Bool := true
  /-- The first character of handles spelled as strings. -/
  handleMarker : Char := '&'
  /-- The number of objects that the heap makes room for at the start. -/
  heapCapacity : Nat := 1024
  /-- Whether the journal may show the arguments of calls. -/
  logArguments : Bool := false
  /-- Which log lines a host that keeps a log shows. -/
  logFilter : Option String := none
deriving DecidableEq

end Gridcall
