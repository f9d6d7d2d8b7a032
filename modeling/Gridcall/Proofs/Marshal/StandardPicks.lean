import Gridcall.Proofs.Marshal.Defaults

/-!
# The table of the standard picks

What a registry of the standard converters answers, read as a table over all kinds of host values and
all managed types, however deep their nesting. Nothing in the table depends on what was asked before.

* `Converter.StandardEncodes` : the rows for encoding. Every managed type is in one of them;
* `Converter.StandardDecodes`, `Converter.Decodable` : the rows for decoding, with and without the
  converter;
* `Converter.standardEncodes_iff`, `Converter.standardDecodes_iff` : the tables are those of
  `standardEncoder` and `standardDecoder?`;
* `Converter.pick`, `Converter.pick_eq` : the answer of a registry that was asked before;
* `Converter.standard_picks` : its answers are the rows of the tables.
-/

namespace Gridcall

namespace Converter

/-! ## Encoding -/

/-- The converter that takes a managed value of a type to the host. -/
inductive StandardEncodes : ManagedType → Converter → Prop
  | number {type : ManagedType} (h : type.isNumeric) : StandardEncodes type (number type)
  | boolean : StandardEncodes .boolean boolean
  | string : StandardEncodes .string string
  | char : StandardEncodes .char char
  | raw : StandardEncodes .value raw
  /-- An array over scalars is a row of its own type. -/
  | array {element : ManagedType} (h : element.isNumeric ∨ element = .boolean ∨ element = .string) :
      StandardEncodes (.array element) (array element)
  /-- An array over other references is taken item by item. -/
  | items {element : ManagedType} (h : isObjectType element ∨ element = .value) :
      StandardEncodes (.array element) (array .object)
  | doubles : StandardEncodes (.array (.array .double)) (table .double 10)
  /-- A table over references is taken cell by cell, text included. -/
  | cells {element : ManagedType}
      (h : element = .string ∨ isObjectType element ∨ element = .value) :
      StandardEncodes (.array (.array element)) (table .object 11)
  /-- The root and the classes are put into the heap. -/
  | object {type : ManagedType} (h : isObjectType type) : StandardEncodes type object
  /-- So are character arrays, which are neither text nor rows, -/
  | chars : StandardEncodes (.array .char) object
  /-- tables over primitives other than doubles, -/
  | primitives {element : ManagedType} (h : element.isPrimitive) (hdouble : element ≠ .double) :
      StandardEncodes (.array (.array element)) object
  /-- and arrays of three or more dimensions. -/
  | deep (element : ManagedType) : StandardEncodes (.array (.array (.array element))) object

/-- Every type is in the table, under the converter that is tabulated for it. -/
theorem standardEncodes_standardEncoder (type : ManagedType) :
    StandardEncodes type (standardEncoder type) := by
  cases type with
  | boolean => exact .boolean
  | char => exact .char
  | string => exact .string
  | value => exact .raw
  | object => exact .object rfl
  | ofClass name => exact .object rfl
  | array element =>
    cases element with
    | array element =>
      cases element with
      | double => exact .doubles
      | string => exact .cells (Or.inl rfl)
      | object => exact .cells (Or.inr (Or.inl rfl))
      | ofClass name => exact .cells (Or.inr (Or.inl rfl))
      | value => exact .cells (Or.inr (Or.inr rfl))
      | array element => exact .deep element
      | _ => exact .primitives rfl nofun
    | boolean => exact .array (Or.inr (Or.inl rfl))
    | string => exact .array (Or.inr (Or.inr rfl))
    | char => exact .chars
    | object => exact .items (Or.inl rfl)
    | ofClass name => exact .items (Or.inl rfl)
    | value => exact .items (Or.inr rfl)
    | _ => exact .array (Or.inl rfl)
  | _ => exact .number rfl

theorem object_or_ofClass {type : ManagedType} (h : isObjectType type) :
    type = .object ∨ ∃ name, type = .ofClass name := by
  cases type with
  | object => exact Or.inl rfl
  | ofClass name => exact Or.inr ⟨name, rfl⟩
  | _ => cases h

/-- A type is in no second row. -/
theorem standardEncoder_of_standardEncodes {type : ManagedType} {c : Converter}
    (h : StandardEncodes type c) : standardEncoder type = c := by
  cases h with
  | number h => exact standardEncoder_number h
  | boolean | string | char | raw | doubles | chars | deep => rfl
  | array h =>
    obtain h | rfl | rfl := h
    · exact standardEncoder_array (ManagedType.isVectorElement_of_isNumeric h)
    · rfl
    · rfl
  | items h =>
    obtain h | rfl := h
    · obtain rfl | ⟨name, rfl⟩ := object_or_ofClass h <;> rfl
    · rfl
  | cells h =>
    obtain rfl | h | rfl := h
    · rfl
    · obtain rfl | ⟨name, rfl⟩ := object_or_ofClass h <;> rfl
    · rfl
  | object h => obtain rfl | ⟨name, rfl⟩ := object_or_ofClass h <;> rfl
  | @primitives element h hdouble =>
    cases element with
    | double => exact absurd rfl hdouble
    | string | object | value | ofClass | array => cases h
    | _ => rfl

theorem standardEncodes_iff {type : ManagedType} {c : Converter} :
    StandardEncodes type c ↔ standardEncoder type = c := by
  refine ⟨standardEncoder_of_standardEncodes, fun h => ?_⟩
  rw [← h]
  exact standardEncodes_standardEncoder type

/-! ## Decoding -/

/-- Whether a host value of a kind can be taken into a slot of a type. -/
inductive Decodable : HostType → ManagedType → Prop
  /-- A raw slot takes every kind. -/
  | value (host : HostType) : Decodable host .value
  | number {type : ManagedType} (h : type.isNumeric ∨ type = .object) : Decodable .number type
  /-- Text may spell a number. -/
  | string {type : ManagedType}
      (h : type.isNumeric ∨ type = .string ∨ type = .char ∨ type = .object) : Decodable .string type
  | boolean {type : ManagedType} (h : type = .boolean ∨ type = .object) : Decodable .boolean type
  | object {type : ManagedType} (h : isObjectType type) : Decodable .object type
  | nil {type : ManagedType} (h : isObjectType type) : Decodable .nil type
  | missing {type : ManagedType} (h : isObjectType type) : Decodable .missing type
  | array {element : ManagedType} (h : element.isVectorElement) : Decodable .array (.array element)
  | table {element : ManagedType} (h : element.isTableElement) :
      Decodable .array (.array (.array element))

/-- The scalar converters by the kind of host value that they take. -/
theorem isScalar_cases {c : Converter} {host : HostType} (hc : c.isScalar)
    (hhost : c.hostType = some host) :
    (host = .number ∧ ∃ type : ManagedType, type.isNumeric ∧ c = .number type) ∨
      (host = .string ∧ ((∃ type : ManagedType, type.isNumeric ∧ c = .numericText type) ∨
        c = .string ∨ c = .char)) ∨
      (host = .boolean ∧ c = .boolean) := by
  cases c with
  | number type => exact Or.inl ⟨(Option.some.inj hhost).symm, type, hc, rfl⟩
  | numericText type =>
    exact Or.inr (Or.inl ⟨(Option.some.inj hhost).symm, Or.inl ⟨type, hc, rfl⟩⟩)
  | string => exact Or.inr (Or.inl ⟨(Option.some.inj hhost).symm, Or.inr (Or.inl rfl)⟩)
  | char => exact Or.inr (Or.inl ⟨(Option.some.inj hhost).symm, Or.inr (Or.inr rfl)⟩)
  | boolean => exact Or.inr (Or.inr ⟨(Option.some.inj hhost).symm, rfl⟩)
  | _ => cases hc

theorem standardDecoder?_of_standardDecodes {host : HostType} {type : ManagedType} {c : Converter}
    (h : StandardDecodes host type c) : standardDecoder? host type = some c := by
  cases h with
  | raw => exact standardDecoder?_value host
  | scalar hc hhost hrequired =>
    subst hrequired
    obtain ⟨rfl, type, h, rfl⟩ | ⟨rfl, ⟨type, h, rfl⟩ | rfl | rfl⟩ | ⟨rfl, rfl⟩ :=
      isScalar_cases hc hhost
    · exact standardDecoder?_number h
    · exact standardDecoder?_numericText h
    · rfl
    · rfl
    · rfl
  | root hc hhost =>
    obtain rfl | rfl | rfl := hc <;>
    · obtain rfl := Option.some.inj hhost
      rfl
  | object h => obtain rfl | ⟨name, rfl⟩ := object_or_ofClass h <;> rfl
  | nil hhost h =>
    obtain rfl | rfl := hhost <;> obtain rfl | ⟨name, rfl⟩ := object_or_ofClass h <;> rfl
  | array h => exact standardDecoder?_array h
  | table h hc => rw [standardDecoder?_table h, hc]

theorem standardDecodes_iff {host : HostType} {type : ManagedType} {c : Converter} :
    StandardDecodes host type c ↔ standardDecoder? host type = some c :=
  ⟨standardDecoder?_of_standardDecodes, standardDecodes_of_eq_some⟩

theorem Decodable.of_standardDecodes {host : HostType} {type : ManagedType} {c : Converter}
    (h : StandardDecodes host type c) : Decodable host type := by
  cases h with
  | raw => exact .value host
  | scalar hc hhost hrequired =>
    subst hrequired
    obtain ⟨rfl, type, h, rfl⟩ | ⟨rfl, ⟨type, h, rfl⟩ | rfl | rfl⟩ | ⟨rfl, rfl⟩ :=
      isScalar_cases hc hhost
    · exact .number (Or.inl h)
    · exact .string (Or.inl h)
    · exact .string (Or.inr (Or.inl rfl))
    · exact .string (Or.inr (Or.inr (Or.inl rfl)))
    · exact .boolean (Or.inl rfl)
  | root hc hhost =>
    obtain rfl | rfl | rfl := hc
    · obtain rfl := Option.some.inj hhost
      exact .number (Or.inr rfl)
    · obtain rfl := Option.some.inj hhost
      exact .string (Or.inr (Or.inr (Or.inr rfl)))
    · obtain rfl := Option.some.inj hhost
      exact .boolean (Or.inr rfl)
  | object h => exact .object h
  | nil hhost h =>
    obtain rfl | rfl := hhost
    · exact .nil h
    · exact .missing h
  | array h => exact .array h
  | table h hc => exact .table h

theorem decodable_iff {host : HostType} {type : ManagedType} :
    Decodable host type ↔ ∃ c, StandardDecodes host type c := by
  refine ⟨fun h => ?_, fun ⟨c, h⟩ => .of_standardDecodes h⟩
  cases h with
  | value => exact ⟨_, .raw host⟩
  | number h =>
    obtain h | rfl := h
    · exact ⟨number type, .scalar h rfl rfl⟩
    · exact ⟨_, .root (Or.inl rfl) rfl⟩
  | string h =>
    obtain h | rfl | rfl | rfl := h
    · exact ⟨numericText type, .scalar h rfl rfl⟩
    · exact ⟨string, .scalar rfl rfl rfl⟩
    · exact ⟨char, .scalar rfl rfl rfl⟩
    · exact ⟨_, .root (Or.inr (Or.inl rfl)) rfl⟩
  | boolean h =>
    obtain rfl | rfl := h
    · exact ⟨boolean, .scalar rfl rfl rfl⟩
    · exact ⟨_, .root (Or.inr (Or.inr rfl)) rfl⟩
  | object h => exact ⟨_, .object h⟩
  | nil h => exact ⟨_, .nil (Or.inl rfl) h⟩
  | missing h => exact ⟨_, .nil (Or.inr rfl) h⟩
  | array h => exact ⟨_, .array h⟩
  | table h =>
    obtain ⟨priority, hc⟩ := exists_standardTable h
    exact ⟨_, .table h hc⟩

/-! ## The answers of a registry -/

/-- The converter that a registry of the standard converters picks after some questions. -/
def pick (store : Store) (past : List Query) (q : Query) : Option Converter :=
  (resolve defaults q.mapping (afterQueries defaults ⟨store, .empty⟩ past)).1.map
    Registered.converter

/-- Past questions do not show in the answer. -/
theorem pick_eq (store : Store) (past : List Query) (q : Query) :
    pick store past q = (Registry.scan defaults q.mapping).map Registered.converter := by
  have hs := truthful_afterQueries (s := ⟨store, .empty⟩) (Memo.truthful_empty defaults) past
  obtain ⟨s', hrun, -⟩ := resolve_of_truthful hs q.mapping
  rw [pick, hrun]

theorem pick_encoding (store : Store) (past : List Query) (type : ManagedType) :
    pick store past (.encoding type) = some (standardEncoder type) :=
  (pick_eq store past _).trans (scan_encoding type)

theorem pick_decoding (store : Store) (past : List Query) (host : HostType) (type : ManagedType) :
    pick store past (.decoding host type) = standardDecoder? host type :=
  (pick_eq store past _).trans (scan_decoding host type)

/-- **The standard converters answer as tabulated.** For encoding, every managed type has the converter
of its row, and none is without one. For decoding, the pairs of a kind of host value and a managed type
that have a converter are those of the table, and have the converter of their row. Whatever was asked
before, the answers are the same. -/
theorem standard_picks (store : Store) (past : List Query) :
    (∀ type c, pick store past (.encoding type) = some c ↔ StandardEncodes type c) ∧
      (∀ type, ∃ c, pick store past (.encoding type) = some c) ∧
      (∀ host type, (∃ c, pick store past (.decoding host type) = some c) ↔
        Decodable host type) ∧
      ∀ host type c, pick store past (.decoding host type) = some c ↔
        StandardDecodes host type c := by
  have hdecoding : ∀ host type c, pick store past (.decoding host type) = some c ↔
      StandardDecodes host type c := by
    intro host type c
    rw [pick_decoding, standardDecodes_iff]
  refine ⟨fun type c => ?_, fun type => ⟨_, pick_encoding store past type⟩, fun host type => ?_,
    hdecoding⟩
  · rw [pick_encoding, standardEncodes_iff, Option.some.injEq]
  · rw [decodable_iff]
    exact exists_congr (hdecoding host type)

end Converter

end Gridcall
