import Gridcall.Text.CharTable

/-!
# Combining tables of characters

Tables made from other tables. Each of these has its ranges in order, neither overlapping nor touching,
so that equal classes have equal tables.

* `CharTable.normal` : a table with its ranges in order, which changes no membership
  (`contains_normal`);
* `CharTable.union`, `CharTable.complement`, `CharTable.inter`, `CharTable.minus`,
  `CharTable.difference` : combinations;
* `CharTable.folded` : a table with both cases of its ASCII letters;
* `CharTable.ofClassName?` : the classes that have a name.
-/

namespace Gridcall

namespace CharTable

/-! ## Order -/

/-- Puts a range in front of a table that begins no sooner. -/
def insertFirst (r : Nat × Nat) : CharTable → CharTable
  | [] => [r]
  | s :: t => if s.1 ≤ r.2 + 1 then insertFirst (r.1, max r.2 s.2) t else r :: s :: t

/-- The table with its ranges in order. -/
def normal (t : CharTable) : CharTable :=
  (t.mergeSort fun r s => r.1 ≤ s.1).foldr insertFirst []

theorem contains_insertFirst {r : Nat × Nat} {t : CharTable} {c : Char}
    (h : ∀ s ∈ t, r.1 ≤ s.1) :
    (insertFirst r t).contains c = contains (r :: t) c := by
  induction t generalizing r with
  | nil => rfl
  | cons s t ih =>
    have h₁ := h s (by simp)
    have h₂ : ∀ u ∈ t, (r.1, max r.2 s.2).1 ≤ u.1 := fun u hu => h u (by simp [hu])
    rw [insertFirst]
    split
    · rw [ih h₂, Bool.eq_iff_iff]
      simp only [contains, List.any_cons, Bool.or_eq_true, Bool.and_eq_true, decide_eq_true_eq]
      grind
    · rfl

theorem fst_of_mem_insertFirst {r s : Nat × Nat} {t : CharTable} (h : s ∈ insertFirst r t) :
    s.1 = r.1 ∨ s ∈ t := by
  induction t generalizing r with
  | nil => simp_all [insertFirst]
  | cons u t ih =>
    rw [insertFirst] at h
    split at h
    · rcases ih h with h | h <;> simp_all
    · rcases List.mem_cons.1 h with rfl | h <;> simp_all

theorem fst_of_mem_foldr_insertFirst {s : Nat × Nat} {t : CharTable}
    (h : s ∈ t.foldr insertFirst []) : ∃ r ∈ t, s.1 = r.1 := by
  induction t with
  | nil => simp at h
  | cons r t ih =>
    rcases fst_of_mem_insertFirst h with h | h
    · exact ⟨r, by simp, h⟩
    · obtain ⟨u, hu, e⟩ := ih h
      exact ⟨u, by simp [hu], e⟩

theorem contains_foldr_insertFirst {t : CharTable} {c : Char}
    (h : t.Pairwise fun r s => r.1 ≤ s.1) :
    CharTable.contains (t.foldr insertFirst []) c = t.contains c := by
  induction h with
  | nil => rfl
  | cons hr _ ih =>
    rw [List.foldr_cons, contains_insertFirst]
    · simp only [contains, List.any_cons] at ih ⊢
      rw [ih]
    · intro s hs
      obtain ⟨u, hu, e⟩ := fst_of_mem_foldr_insertFirst hs
      exact e ▸ hr u hu

/-- Putting ranges in order changes no membership. -/
theorem contains_normal (t : CharTable) (c : Char) : t.normal.contains c = t.contains c := by
  have h := @List.pairwise_mergeSort _ (fun (r s : Nat × Nat) => decide (r.1 ≤ s.1))
    (by simp; omega) (by simp; omega) t
  simp only [decide_eq_true_eq] at h
  rw [normal, contains_foldr_insertFirst h, contains, contains]
  exact (List.mergeSort_perm t _).any_eq

/-! ## Small classes -/

def range (first last : Char) : CharTable := [(first.toNat, last.toNat)]

def single (c : Char) : CharTable := range c c

def everything : CharTable := [(0, 0x10FFFF)]

def only? : CharTable → Option Char
  | [(first, last)] => if first = last then some (Char.ofNat first) else none
  | _ => none

/-! ## Combinations -/

def union (s t : CharTable) : CharTable := (s ++ t).normal

theorem contains_union (s t : CharTable) (c : Char) :
    (s.union t).contains c = (s.contains c || t.contains c) := by
  rw [union, contains_normal, contains, List.any_append, contains, contains]

/-- The gaps that the ranges of a table leave from a place on. -/
def gapsFrom (first : Nat) : CharTable → CharTable
  | [] => if first ≤ 0x10FFFF then [(first, 0x10FFFF)] else []
  | r :: t => if first < r.1 then (first, r.1 - 1) :: gapsFrom (r.2 + 1) t else gapsFrom (r.2 + 1) t

def complement (t : CharTable) : CharTable := t.normal.gapsFrom 0

def inter (s t : CharTable) : CharTable := (s.complement.union t.complement).complement

/-- The characters of the first class that are not in the second. -/
def minus (s t : CharTable) : CharTable := s.inter t.complement

def difference (s t : CharTable) : CharTable := (s.minus t).union (t.minus s)

/-- A part of a table, moved up or down. -/
def shifted (t : CharTable) (move : Nat → Nat) : CharTable := t.map fun r => (move r.1, move r.2)

/-! ## Classes -/

def digits : CharTable := [(0x30, 0x39)]

def upperLetters : CharTable := [(0x41, 0x5A)]

def lowerLetters : CharTable := [(0x61, 0x7A)]

def letters : CharTable := upperLetters ++ lowerLetters

def blanks : CharTable := [(0x09, 0x0D), (0x20, 0x20)]

def wordChars : CharTable := [(0x30, 0x39), (0x41, 0x5A), (0x5F, 0x5F), (0x61, 0x7A)]

/-- The class with the other case of each of its ASCII letters. -/
def folded (t : CharTable) : CharTable :=
  (t.union ((t.inter upperLetters).shifted (· + 0x20))).union
    ((t.inter lowerLetters).shifted (· - 0x20))

def ofClassName? (name : String) : Option CharTable :=
  match name with
  | "alnum" => some (digits ++ letters)
  | "alpha" => some letters
  | "ascii" => some [(0x00, 0x7F)]
  | "blank" => some [(0x09, 0x09), (0x20, 0x20)]
  | "cntrl" => some [(0x00, 0x1F), (0x7F, 0x7F)]
  | "digit" => some digits
  | "graph" => some [(0x21, 0x7E)]
  | "lower" => some lowerLetters
  | "print" => some [(0x20, 0x7E)]
  | "punct" => some [(0x21, 0x2F), (0x3A, 0x40), (0x5B, 0x60), (0x7B, 0x7E)]
  | "space" => some blanks
  | "upper" => some upperLetters
  | "word" => some wordChars
  | "xdigit" => some [(0x30, 0x39), (0x41, 0x46), (0x61, 0x66)]
  | _ => none

end CharTable

end Gridcall
