import Gridcall.Settings
import Gridcall.Settings.Toml

/-!
# Settings documents

`Settings.ofDocument?` reads settings from a TOML document. Options that are not mentioned keep their
defaults; unknown and repeated ones are refused.
-/

namespace Gridcall

namespace Settings

def set? (s : Settings) (key : String) (value : Toml.Value) : Option Settings :=
  match key, value with
  | "coerce_handle_strings", .boolean b => some { s with coerceHandleStrings := b }
  | "handle_marker", .string text =>
    match text.toList with
    | [c] => some { s with handleMarker := c }
    | _ => none
  | "heap_capacity", .integer i => if 0 ≤ i then some { s with heapCapacity := i.toNat } else none
  | "log_arguments", .boolean b => some { s with logArguments := b }
  | "log_filter", .string text => some { s with logFilter := some text }
  | _, _ => none

def setAll? (s : Settings) : List (String × Toml.Value) → Option Settings
  | [] => some s
  | (key, value) :: entries => do (← s.set? key value).setAll? entries

def ofDocument? (text : String) : Option Settings := do
  let entries ← Toml.entries? text
  guard (decide (entries.map Prod.fst).Nodup)
  ({} : Settings).setAll? entries

end Settings

end Gridcall
