import Gridcall.Host.Equality
import Gridcall.Proofs.Host.Grid

/-!
# Values that are the same

Two host values are the same (`HostValue.same`, also written `==`) up to the classes that references
claim to have.

* `HostValue.sameCells_iff`, `HostValue.same_array_iff` : lists and grids are the same place by place;
* `HostValue.cases_of_same` : the same values are equal, or two references under one handle, or grids
  that are the same place by place;
* `HostValue.hostType_eq_of_same` : the same values are of one kind.
-/

namespace Gridcall.HostValue

def Same (v v' : HostValue) : Prop := v.same v' = true

theorem sameCells_iff {cells cells' : List HostValue} :
    sameCells cells cells' = true ↔ List.Forall₂ Same cells cells' := by
  induction cells generalizing cells' with
  | nil => cases cells' <;> simp [sameCells]
  | cons v cells ih =>
    cases cells' with
    | nil => simp [sameCells]
    | cons v' cells' => rw [sameCells, Bool.and_eq_true, List.forall₂_cons, ih, Same]

theorem same_array_iff {g g' : HostGrid} : Same (.array g) (.array g') ↔ g.Matches Same g' := by
  obtain ⟨rows, columns, cells⟩ := g
  obtain ⟨rows', columns', cells'⟩ := g'
  rw [Same, same, sameGrid, Bool.and_eq_true, Bool.and_eq_true, beq_iff_eq, beq_iff_eq, sameCells_iff]
  constructor
  · rintro ⟨⟨hrows, hcolumns⟩, hcells⟩
    exact ⟨hrows, hcolumns, hcells⟩
  · intro h
    exact ⟨⟨h.rows, h.columns⟩, h.cells⟩

/-- Only references and grids can be the same without being equal. -/
theorem cases_of_same {v v' : HostValue} (h : Same v v') :
    (v = v' ∧ v.hostType ≠ .array) ∨
      (∃ a b : ObjectHandle, v = .object a ∧ v' = .object b ∧ a.handle = b.handle) ∨
      ∃ g g' : HostGrid, v = .array g ∧ v' = .array g' ∧ g.Matches Same g' := by
  cases v with
  | object a =>
    cases v' with
    | object b => exact .inr (.inl ⟨a, b, rfl, rfl, beq_iff_eq.mp h⟩)
    | _ => cases h
  | array g =>
    cases v' with
    | array g' => exact .inr (.inr ⟨g, g', rfl, rfl, same_array_iff.mp h⟩)
    | _ => cases h
  | _ =>
    refine .inl ⟨?_, by rintro ⟨⟩⟩
    cases v' <;> simp_all [Same, same]

theorem hostType_eq_of_same {v v' : HostValue} (h : Same v v') : v.hostType = v'.hostType := by
  rcases cases_of_same h with ⟨rfl, -⟩ | ⟨a, b, rfl, rfl, -⟩ | ⟨g, g', rfl, rfl, -⟩ <;> rfl

end Gridcall.HostValue
