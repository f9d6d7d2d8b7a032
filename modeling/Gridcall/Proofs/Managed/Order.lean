import Gridcall.Managed.Type

/-!
# The order of managed types

`required.accepts actual` orders the managed types, however deep they nest: the root stands above all
types but that of raw host values, and an array of the root above the arrays of references. The type of
raw host values stands alone.

* `ManagedType.IsReference` : what an array of the root may hold;
* `ManagedType.Above` : the order, by its three rules. It is what `accepts` decides (`accepts_iff`);
* `Above.trans`, `Above.antisymm` : the rules compose, and no two types stand above each other;
* `accepts_partialOrder` : the laws.
-/

namespace Gridcall.ManagedType

variable {a b c : ManagedType}

/-- What an array of the root may hold: all but primitives and raw host values. -/
structure IsReference (type : ManagedType) : Prop where
  not_primitive : type.isPrimitive = false
  ne_value : type ≠ value

/-- A type stands above another: both are one, or it is the root, or an array of the root. -/
inductive Above : ManagedType → ManagedType → Prop
  | itself (type : ManagedType) : Above type type
  | root {type : ManagedType} (h : type ≠ value) : Above object type
  | items {element : ManagedType} (h : element.IsReference) : Above (array object) (array element)

theorem accepts_iff : a.accepts b ↔ a.Above b := by
  constructor
  · intro h
    unfold accepts at h
    rw [Bool.or_eq_true, beq_iff_eq] at h
    rcases h with rfl | h
    · exact .itself a
    · split at h
      · exact .root (by simpa using h)
      · simp only [Bool.and_eq_true, beq_iff_eq, Bool.not_eq_true', bne_iff_ne] at h
        obtain ⟨⟨rfl, hprimitive⟩, hvalue⟩ := h
        exact .items ⟨hprimitive, hvalue⟩
      · cases h
  · intro h
    cases h with
    | itself => simp [accepts]
    | root hvalue => simp [accepts, hvalue]
    | items href => simp [accepts, href.not_primitive, href.ne_value]

namespace Above

/-- Only raw host values stand where raw host values are required, -/
theorem eq_value_of_above (h : value.Above b) : b = value := by
  cases h
  rfl

/-- and they stand nowhere else. -/
theorem eq_value_of_below (h : a.Above value) : a = value := by
  cases h with
  | itself => rfl
  | root hvalue => exact absurd rfl hvalue

/-- Nothing but the root stands above the root. -/
theorem eq_object (h : a.Above object) : a = object := by
  cases h <;> rfl

theorem trans (hab : a.Above b) (hbc : b.Above c) : a.Above c := by
  cases hab with
  | itself => exact hbc
  | root hb =>
    refine .root ?_
    rintro rfl
    exact hb hbc.eq_value_of_below
  | items hb =>
    cases hbc with
    | itself => exact .items hb
    | items hc => exact .items hc

theorem antisymm (hab : a.Above b) (hba : b.Above a) : a = b := by
  cases hab with
  | itself => rfl
  | root => exact hba.eq_object.symm
  | items => cases hba <;> rfl

end Above

/-- **The managed types are ordered.** Every type accepts itself, what is accepted by an accepted type
is accepted, and two types that accept each other are one. Raw host values are accepted by their own
type alone, which accepts nothing else, and the root accepts all types but theirs. -/
theorem accepts_partialOrder :
    (∀ a : ManagedType, a.accepts a) ∧
      (∀ a b c : ManagedType, a.accepts b → b.accepts c → a.accepts c) ∧
      (∀ a b : ManagedType, a.accepts b → b.accepts a → a = b) ∧
      (∀ a : ManagedType, a.accepts value ↔ a = value) ∧
      (∀ b : ManagedType, value.accepts b ↔ b = value) ∧
      ∀ b : ManagedType, object.accepts b ↔ b ≠ value := by
  simp only [accepts_iff]
  refine ⟨.itself, fun a b c => .trans, fun a b => Above.antisymm, fun a => ?_, fun b => ?_, fun b => ?_⟩
  · exact ⟨Above.eq_value_of_below, fun h => h ▸ .itself a⟩
  · exact ⟨Above.eq_value_of_above, fun h => h ▸ .itself b⟩
  · refine ⟨?_, .root⟩
    rintro h rfl
    cases h.eq_value_of_below

/-- Arrays are not ordered as their elements are: an array of arrays of the root accepts no other one. -/
example : (array object).accepts (array (array .string)) ∧
    ¬ (array (array object)).accepts (array (array .string)) := by
  decide

end Gridcall.ManagedType
