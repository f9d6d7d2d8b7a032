/-!
# Tables of characters

A class of characters as ranges of code points.

* `CharTable.contains` : membership, stated by `contains_eq_true_iff`;
* `CharTable.ascending` : the ranges are in order and apart from each other.
-/

namespace Gridcall

/-- A class of characters: ranges of code points, both ends included. -/
abbrev CharTable := List (Nat × Nat)

namespace CharTable

def contains (t : CharTable) (c : Char) : Bool := t.any fun r => r.1 ≤ c.toNat && c.toNat ≤ r.2

theorem contains_eq_true_iff {t : CharTable} {c : Char} :
    t.contains c = true ↔ ∃ r ∈ t, r.1 ≤ c.toNat ∧ c.toNat ≤ r.2 := by
  simp [contains]

/-- Whether each range has its ends in order and lies before the next. -/
def ascending : CharTable → Bool
  | [] => true
  | [r] => r.1 ≤ r.2
  | r :: s :: t => r.1 ≤ r.2 && r.2 < s.1 && ascending (s :: t)

end CharTable

end Gridcall
