import Gridcall.Proofs.Marshal.Resolution

/-!
# The standard converters

Which of the standard converters a registry of all of them picks, for every kind of host value, every
required type and every managed type.

* `Converter.standardDecoder?`, `Converter.scan_decoding` : the picks for decoding;
  `Converter.StandardDecodes` sorts them by what they do;
* `Converter.standardEncoder`, `Converter.scan_encoding` : the picks for encoding. There is always
  one, and what has no form of its own is put into the heap.
-/

namespace Gridcall

namespace ManagedType

def isNumeric : ManagedType → Bool
  | byte | short | int | long | float | double => true
  | _ => false

/-- Whether grids are read as arrays over the type. -/
def isVectorElement : ManagedType → Bool
  | boolean | string | object => true
  | type => type.isNumeric

/-- Whether grids are read as arrays of rows over the type. -/
def isTableElement : ManagedType → Bool
  | double | object => true
  | _ => false

variable {type : ManagedType}

theorem isVectorElement_of_isTableElement (h : type.isTableElement) : type.isVectorElement := by
  cases type <;> first | rfl | cases h

theorem isVectorElement_of_isNumeric (h : type.isNumeric) : type.isVectorElement := by
  cases type <;> first | rfl | cases h

theorem isArray_of_isVectorElement (h : type.isVectorElement) : type.isArray = false := by
  cases type <;> first | rfl | cases h

theorem exists_element_of_isArray (h : type.isArray) : ∃ element, type = .array element := by
  cases type with
  | array element => exact ⟨element, rfl⟩
  | _ => cases h

end ManagedType

namespace Converter

def standardTable : ManagedType → Converter
  | .double => table .double 10
  | _ => table .object 11

/-- The standard converter that takes a host value of a kind into a slot of a type. -/
def standardDecoder? : HostType → ManagedType → Option Converter
  | _, .value => some raw
  | .number, .object => some (number .double)
  | .number, type => if type.isNumeric then some (number type) else none
  | .string, .string => some string
  | .string, .object => some string
  | .string, .char => some char
  | .string, type => if type.isNumeric then some (numericText type) else none
  | .boolean, .boolean => some boolean
  | .boolean, .object => some boolean
  | .object, type => if isObjectType type then some object else none
  | .nil, type => if isObjectType type then some nil else none
  | .missing, type => if isObjectType type then some nil else none
  | .array, .array (.array element) =>
    if element.isTableElement then some (standardTable element) else none
  | .array, .array element => if element.isVectorElement then some (array element) else none
  | _, _ => none

section Decoder

variable {type : ManagedType}

theorem standardDecoder?_number (h : type.isNumeric) :
    standardDecoder? .number type = some (number type) := by
  cases type <;> first | rfl | cases h

theorem standardDecoder?_numericText (h : type.isNumeric) :
    standardDecoder? .string type = some (numericText type) := by
  cases type <;> first | rfl | cases h

theorem standardDecoder?_array (h : type.isVectorElement) :
    standardDecoder? .array (.array type) = some (array type) := by
  cases type <;> first | rfl | cases h

theorem standardDecoder?_table (h : type.isTableElement) :
    standardDecoder? .array (.array (.array type)) = some (standardTable type) := by
  cases type <;> first | rfl | cases h

theorem standardDecoder?_value (host : HostType) : standardDecoder? host .value = some raw := by
  cases host <;> rfl

end Decoder

/-- The pick for decoding is the tabulated one. -/
theorem scan_decoding (host : HostType) (required : ManagedType) :
    (Registry.scan defaults (.decoding host required)).map Registered.converter =
      standardDecoder? host required := by
  cases required with
  | array element =>
    cases element with
    | array element => cases element <;> cases host <;> rfl
    | _ => cases host <;> rfl
  | _ => cases host <;> rfl

theorem decoder_defaults (host : HostType) (required : ManagedType) :
    Registry.decoder defaults host required =
      match standardDecoder? host required with
      | some c => .ok c
      | none => .error (.noConverter host.text required.text) := by
  rw [Registry.decoder, ← scan_decoding]
  cases Registry.scan defaults (.decoding host required) <;> rfl

/-- Whether the values of a converter are scalars of one type. -/
def isScalar : Converter → Bool
  | number type => type.isNumeric
  | numericText type => type.isNumeric
  | boolean | string | char => true
  | _ => false

theorem exists_standardTable {element : ManagedType} (h : element.isTableElement) :
    ∃ priority, standardTable element = table element priority := by
  cases element with
  | double => exact ⟨10, rfl⟩
  | object => exact ⟨11, rfl⟩
  | _ => cases h

/-- When a standard converter takes a host value of a kind into a slot of a type. -/
inductive StandardDecodes : HostType → ManagedType → Converter → Prop
  | raw (host : HostType) : StandardDecodes host .value raw
  /-- A scalar is read as one of the slot's own type. -/
  | scalar {c : Converter} {host : HostType} {required : ManagedType} (hc : c.isScalar)
      (hhost : c.hostType = some host) (hrequired : c.managedType = required) :
      StandardDecodes host required c
  /-- The root takes doubles, text and truth values. -/
  | root {c : Converter} {host : HostType} (hc : c = number .double ∨ c = string ∨ c = boolean)
      (hhost : c.hostType = some host) : StandardDecodes host .object c
  | object {required : ManagedType} (h : isObjectType required) :
      StandardDecodes .object required object
  /-- Empty cells and missing arguments are null. -/
  | nil {host : HostType} {required : ManagedType} (hhost : host = .nil ∨ host = .missing)
      (h : isObjectType required) : StandardDecodes host required nil
  | array {element : ManagedType} (h : element.isVectorElement) :
      StandardDecodes .array (.array element) (array element)
  | table {element : ManagedType} {priority : Int} (h : element.isTableElement)
      (hc : standardTable element = table element priority) :
      StandardDecodes .array (.array (.array element)) (table element priority)

theorem standardDecodes_of_eq_some {host : HostType} {required : ManagedType} {c : Converter}
    (h : standardDecoder? host required = some c) : StandardDecodes host required c := by
  have hrow : ∀ {p : Bool} {d : Converter}, (if p then some d else none) = some c →
      p = true ∧ d = c := by
    intro p d hif
    rwa [Option.ite_none_right_eq_some, Option.some.injEq] at hif
  unfold standardDecoder? at h
  split at h
  · obtain rfl := Option.some.inj h
    exact .raw host
  · obtain rfl := Option.some.inj h
    exact .root (Or.inl rfl) rfl
  · obtain ⟨hnumeric, rfl⟩ := hrow h
    exact .scalar hnumeric rfl rfl
  · obtain rfl := Option.some.inj h
    exact .scalar rfl rfl rfl
  · obtain rfl := Option.some.inj h
    exact .root (Or.inr (Or.inl rfl)) rfl
  · obtain rfl := Option.some.inj h
    exact .scalar rfl rfl rfl
  · obtain ⟨hnumeric, rfl⟩ := hrow h
    exact .scalar hnumeric rfl rfl
  · obtain rfl := Option.some.inj h
    exact .scalar rfl rfl rfl
  · obtain rfl := Option.some.inj h
    exact .root (Or.inr (Or.inr rfl)) rfl
  · obtain ⟨hobject, rfl⟩ := hrow h
    exact .object hobject
  · obtain ⟨hobject, rfl⟩ := hrow h
    exact .nil (Or.inl rfl) hobject
  · obtain ⟨hobject, rfl⟩ := hrow h
    exact .nil (Or.inr rfl) hobject
  · obtain ⟨helement, rfl⟩ := hrow h
    obtain ⟨priority, htable⟩ := exists_standardTable helement
    rw [htable]
    exact .table helement htable
  · obtain ⟨helement, rfl⟩ := hrow h
    exact .array helement
  · cases h

/-- The standard converter that takes a managed value of a type to the host. -/
def standardEncoder : ManagedType → Converter
  | .boolean => boolean
  | .char => char
  | .string => string
  | .value => raw
  | .array (.array element) =>
    if element = .double ∨ !element.isPrimitive && !element.isArray then standardTable element
    else object
  | .array element =>
    if element.isNumeric || element = .boolean || element = .string then array element
    else if !element.isPrimitive then array .object
    else object
  | type => if type.isNumeric then number type else object

section Encoder

variable {type : ManagedType}

theorem standardEncoder_number (h : type.isNumeric) : standardEncoder type = number type := by
  cases type <;> first | rfl | cases h

theorem standardEncoder_array (h : type.isVectorElement) :
    standardEncoder (.array type) = array type := by
  cases type <;> first | rfl | cases h

theorem standardEncoder_table (h : type.isTableElement) :
    standardEncoder (.array (.array type)) = standardTable type := by
  cases type <;> first | rfl | cases h

end Encoder

/-- The pick for encoding is the tabulated one. -/
theorem scan_encoding (type : ManagedType) :
    (Registry.scan defaults (.encoding type)).map Registered.converter =
      some (standardEncoder type) := by
  cases type with
  | array element =>
    cases element with
    | array element => cases element <;> rfl
    | _ => rfl
  | _ => rfl

end Converter

end Gridcall
