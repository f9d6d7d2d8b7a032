import Gridcall.Marshal.Registry

/-!
# Encoding

From managed values to host values.

* `Outside.encodeUsing` : what each converter makes of a managed value;
* `Outside.encode` : encoding with the best converter of a registry; a value without one is put into the
  heap and returned as a handle.

How converters from outside are run is a parameter. Null items become empty cells, and rows of different
lengths are padded.
-/

namespace Gridcall

/-- The failure of a null value where a converter for `type` needs one. -/
def nullValue (type : ManagedType) : CallError := .nullArgument s!"null {type} value"

/-- The failure of a converter for `type` on a value of another type; null has its own. -/
def refuse {α : Type} (type : ManagedType) (v : Managed) : MarshalM α :=
  if v.isNull then throw (nullValue type) else throw (.typeMismatch type.text v.typeName)

def numberText? : Managed → Option String
  | .byte v => some (toString v)
  | .short v => some (toString v)
  | .int v => some (toString v)
  | .long v => some (toString v)
  | .float v => some (toString v)
  | .double v => some (toString v)
  | _ => none

def mintValue (v : Managed) : MarshalM HostValue := fun s =>
  let (reference, store) := s.store.mintValue v
  (.ok reference, { s with store })

/-- Encodes a managed value that is not null with the best converter of a registry, given how a
converter encodes it. -/
def encodeWith (r : Registry) (v : Managed)
    (encodeBy : Converter → MarshalM HostValue) : MarshalM HostValue := do
  match v.runtimeType? with
  | none => throw (.nullArgument "cannot encode a null value")
  | some type =>
    match ← resolve r (.encoding type) with
    | some c => encodeBy c.converter
    | none => mintValue v

/-- Encodes items from left to right, null ones as empty cells; `encodeItem` encodes one item with a
given converter. -/
def encodeItems (r : Registry) :
    (items : List Managed) →
    (encodeItem : Converter → (item : Managed) → item ∈ items → MarshalM HostValue) →
    MarshalM (List HostValue)
  | [], _ => return []
  | item :: items, encodeItem => do
    let cell ← if item.isNull then pure HostValue.nil
      else encodeWith r item fun c => encodeItem c item List.mem_cons_self
    let cells ← encodeItems r items fun c v h => encodeItem c v (List.mem_cons_of_mem _ h)
    return cell :: cells

/-- Encodes rows from top to bottom. A null row is empty; any other row must be an array, whatever
its declared element type. -/
def encodeRows (r : Registry) (element : ManagedType) :
    (rows : List Managed) →
    (encodeItem : Converter → (item : Managed) →
      (∃ e items, .array e items ∈ rows ∧ item ∈ items) → MarshalM HostValue) →
    MarshalM (List (List HostValue))
  | [], _ => return []
  | row :: rows, encodeItem => do
    let cells ← match h : row with
      | .null => pure []
      | .array e items =>
        encodeItems r items fun c v hv => encodeItem c v ⟨e, items, h ▸ List.mem_cons_self, hv⟩
      | row => throw (.typeMismatch (ManagedType.array element).text row.typeName)
    let rest ← encodeRows r element rows fun c v hv =>
      encodeItem c v (hv.elim fun e hv => hv.elim fun items hv =>
        ⟨e, items, List.mem_cons_of_mem _ hv.1, hv.2⟩)
    return cells :: rest

namespace Outside

variable (o : Outside)

/-- Encodes a managed value with a given converter; `wanted` is the kind that the caller would like
to have. -/
def encodeUsing (r : Registry) (c : Converter) (wanted : Option HostType) (v : Managed) :
    MarshalM HostValue :=
  match c with
  | .number type =>
    match v.toDouble? with
    | some x => return .number x
    | none => refuse type v
  | .numericText type =>
    match numberText? v with
    | some s => return .string s
    | none => refuse type v
  | .boolean =>
    match v with
    | .boolean b => return .boolean b
    | v => refuse .boolean v
  | .string =>
    match v with
    | .string s => return .string s
    | v => refuse .string v
  | .char =>
    match v with
    | .char c => return .string (String.singleton c)
    | v => refuse .char v
  | .object => if v.isNull then throw (nullValue .object) else mintValue v
  | .nil => throw (.noConverter v.typeName HostType.nil.text)
  | .raw =>
    match v with
    | .value v => return v
    | v => refuse .value v
  | .client c => o.encoding c wanted v
  | .array element =>
    match h : v with
    | .array e items => do
      let cells ← encodeItems r items fun c item hitem =>
        have : sizeOf item < sizeOf v := h ▸ Managed.sizeOf_lt_of_mem_items hitem
        encodeUsing r c none item
      return .array (HostGrid.ofRow cells)
    | v => refuse (.array element) v
  | .table element _ =>
    match h : v with
    | .array e rows => do
      let cells ← encodeRows r element rows fun c item hitem =>
        have : sizeOf item < sizeOf v := by
          obtain ⟨e', items, hrow, hmem⟩ := hitem
          have h₁ : sizeOf item < sizeOf (Managed.array e' items) :=
            Managed.sizeOf_lt_of_mem_items hmem
          have h₂ : sizeOf (Managed.array e' items) < sizeOf (Managed.array e rows) :=
            Managed.sizeOf_lt_of_mem_items hrow
          rw [h]
          omega
        encodeUsing r c none item
      return .array (HostGrid.ofRows cells)
    | v => refuse (.array (.array element)) v
termination_by sizeOf v
decreasing_by all_goals (subst h; assumption)

def encode (r : Registry) (v : Managed) : MarshalM HostValue :=
  encodeWith r v fun c => o.encodeUsing r c none v

end Outside

end Gridcall
