import Gridcall.Host.Visitor
import Gridcall.Marshal.Narrow
import Gridcall.Marshal.Registry

/-!
# Decoding

From host values to managed values.

* `Outside.decodeUsing` : what each converter makes of a host value;
* `Outside.decode` : decoding with the best converter of a registry;
* `decodeCells` : the cells of a grid, one after the other. Cells of one kind in a row share the
  converter that was found for the first of them.

How converters from outside are run is a parameter. A grid inside a grid is handed over as it is, unless
the element type is an array itself.
-/

namespace Gridcall

/-- The best converter of a registry for decoding, or the failure that there is none. -/
def decoderFor (r : Registry) (host : HostType) (required : ManagedType) : MarshalM Converter := do
  let c ← resolveOr r (.decoding host required) (.noConverter host.text required.text)
  return c.converter

/-- Decodes cells from left to right; `last` is the converter of the cell before, with the kind it
was found for, and `decodeCell` decodes one cell with a given converter. -/
def decodeCells (r : Registry) (element : ManagedType) :
    (cells : List HostValue) → (last : Option (HostType × Converter)) →
    (decodeCell : Converter → (cell : HostValue) → cell ∈ cells → MarshalM Managed) →
    MarshalM (List Managed × Option (HostType × Converter))
  | [], last, _ => return ([], last)
  | cell :: cells, last, decodeCell => do
    let host := cell.hostType
    let decodeRest := fun c v h => decodeCell c v (List.mem_cons_of_mem _ h)
    if host == .array && !element.isArray then
      let (items, last) ← decodeCells r element cells last decodeRest
      return (.value cell :: items, last)
    else
      let converter ← match last.filter fun l => l.1 == host with
        | some (_, converter) => pure converter
        | none => decoderFor r host element
      let item ← decodeCell converter cell List.mem_cons_self
      let (items, last) ← decodeCells r element cells (some (host, converter)) decodeRest
      return (item :: items, last)

/-- Decodes the rows of a grid from top to bottom, each into an array. -/
def decodeRows (r : Registry) (element : ManagedType) :
    (rows : List (List HostValue)) → (last : Option (HostType × Converter)) →
    (decodeCell : Converter → (cell : HostValue) → (∃ row ∈ rows, cell ∈ row) → MarshalM Managed) →
    MarshalM (List Managed)
  | [], _, _ => return []
  | row :: rows, last, decodeCell => do
    let (items, last) ← decodeCells r element row last fun c v h =>
      decodeCell c v ⟨row, List.mem_cons_self, h⟩
    let rest ← decodeRows r element rows last fun c v h =>
      decodeCell c v (h.elim fun row h => ⟨row, List.mem_cons_of_mem _ h.1, h.2⟩)
    return .array element items :: rest

/-- The object behind a reference, whose class must be the required one if a class is required. -/
def objectBehind (heap : Heap) (required : Option ManagedType) (v : HostValue) :
    Except CallError Managed :=
  match v.asObject? with
  | none => .error (.typeMismatch HostType.object.text v.hostType.text)
  | some reference =>
    match heap.get? reference.handle with
    | none => .error (.invalidReference reference.handle)
    | some o =>
      match required with
      | some (.ofClass className) =>
        if o.className = className then .ok (.object o)
        else .error (.typeMismatch className o.className)
      | _ => .ok (.object o)

def decodeNil : HostValue → Except CallError Managed
  | .nil => .ok .null
  | .missing => .ok .null
  | v => .error (.typeMismatch HostType.nil.text v.hostType.text)

def decodeChar (text : String) : Except CallError Managed :=
  match text.toList with
  | [c] => .ok (.char c)
  | _ => .error (.conversion ManagedType.char.text ("\x60" ++ text ++ "\x60 is not a single character"))

namespace Outside

variable (o : Outside)

def decodeUsing (r : Registry) (c : Converter) (required : Option ManagedType) (v : HostValue) :
    MarshalM Managed :=
  match c with
  | .number type => do narrow type (← v.accept .numeric)
  | .numericText type => do readNumber type (← v.accept .text)
  | .boolean => do return .boolean (← v.accept .logical)
  | .string => do return .string (← v.accept .text)
  | .char => do decodeChar (← v.accept .text)
  | .object => do objectBehind (← get).store.heap required v
  | .nil => decodeNil v
  | .raw => return .value v
  | .client c => o.decoding c required v
  | .array element =>
    match h : v with
    | .array grid => do
      let (items, _) ← decodeCells r element grid.vector none fun c cell hcell =>
        have : sizeOf cell < sizeOf v :=
          h ▸ HostValue.sizeOf_lt_of_mem_cells (Grid.mem_cells_of_mem_vector hcell)
        decodeUsing r c (some element) cell
      return .array element items
    | v => throw (.typeMismatch (ManagedType.array element).text v.hostType.text)
  | .table element _ =>
    match h : v with
    | .array grid => do
      let rows ← decodeRows r element grid.toRows none fun c cell hcell =>
        have : sizeOf cell < sizeOf v :=
          h ▸ HostValue.sizeOf_lt_of_mem_cells
            (hcell.elim fun _ hrow => Grid.mem_cells_of_mem_toRows hrow.1 hrow.2)
        decodeUsing r c (some element) cell
      return .array (.array element) rows
    | v => throw (.typeMismatch (ManagedType.array (.array element)).text v.hostType.text)
termination_by sizeOf v
decreasing_by all_goals (subst h; assumption)

def decode (r : Registry) (v : HostValue) (required : ManagedType) : MarshalM Managed := do
  let c ← decoderFor r v.hostType required
  o.decodeUsing r c (some required) v

end Outside

end Gridcall
