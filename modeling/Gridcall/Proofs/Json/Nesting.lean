import Gridcall.Proofs.Json.Token

/-!
# Nested brackets

How many brackets of a compact text are open at once, and how deep a tree is: the two agree.

* `Json.nesting` : the greatest number of brackets that tokens open at once;
* `Json.depth` : the number of arrays and objects around each other;
* `nesting_tokens` : the nesting of the tokens of a value is its depth.
-/

namespace Gridcall

namespace Json

/-! ## Brackets of a text -/

/-- The number of brackets that are open after a token, if `level` are open before it. -/
def Token.levelAfter (level : Nat) : Token → Nat
  | openArray => level + 1
  | openObject => level + 1
  | closeArray => level - 1
  | closeObject => level - 1
  | _ => level

/-- The greatest number of brackets that are open at once, if `level` are open at first. -/
def nesting (level : Nat) : List Token → Nat
  | [] => level
  | t :: ts => max level (nesting (t.levelAfter level) ts)

theorem le_nesting (level : Nat) (ts : List Token) : level ≤ nesting level ts := by
  cases ts with
  | nil => exact Nat.le_refl _
  | cons t ts => exact Nat.le_max_left _ _

/-! ## Depth of a tree -/

mutual

/-- The number of arrays and objects that stand inside each other. -/
def depth : Json → Nat
  | array items => itemsDepth items + 1
  | object fields => fieldsDepth fields + 1
  | _ => 0

/-- The depth of the deepest item. -/
def itemsDepth : List Json → Nat
  | [] => 0
  | item :: items => max item.depth (itemsDepth items)

def fieldsDepth : List (Option String × Json) → Nat
  | [] => 0
  | (_, v) :: fields => max v.depth (fieldsDepth fields)

end

theorem depth_le_of_mem_items {items : List Json} {item : Json} (h : item ∈ items) :
    item.depth ≤ itemsDepth items := by
  induction items with
  | nil => cases h
  | cons first items ih =>
    rw [itemsDepth]
    rcases List.mem_cons.mp h with rfl | h
    · exact Nat.le_max_left _ _
    · exact Nat.le_trans (ih h) (Nat.le_max_right _ _)

theorem depth_le_of_mem_fields {fields : List (Option String × Json)} {f : Option String × Json}
    (h : f ∈ fields) : f.2.depth ≤ fieldsDepth fields := by
  induction fields with
  | nil => cases h
  | cons first fields ih =>
    rw [fieldsDepth]
    rcases List.mem_cons.mp h with rfl | h
    · exact Nat.le_max_left _ _
    · exact Nat.le_trans (ih h) (Nat.le_max_right _ _)

/-! ## Both agree -/

mutual

theorem nesting_append (j : Json) (level : Nat) (rest : List Token) :
    nesting level (j.tokens ++ rest) = max (level + j.depth) (nesting level rest) := by
  have hrest := le_nesting level rest
  match j with
  | null | boolean b | number text | string text =>
    simp only [tokens, depth, List.cons_append, List.nil_append, nesting, Token.levelAfter]
    omega
  | array [] =>
    simp only [tokens, depth, itemsDepth, List.cons_append, List.nil_append, nesting,
      Token.levelAfter, Nat.add_sub_cancel]
    omega
  | array (item :: items) =>
    simp only [tokens, depth, itemsDepth, List.cons_append, List.append_assoc, nesting,
      Token.levelAfter, nesting_append item, nesting_itemTokens items]
    omega
  | object [] =>
    simp only [tokens, depth, fieldsDepth, List.cons_append, List.nil_append, nesting,
      Token.levelAfter, Nat.add_sub_cancel]
    omega
  | object ((name, v) :: fields) =>
    simp only [tokens, depth, fieldsDepth, List.cons_append, List.append_assoc, nesting,
      Token.levelAfter, nesting_append v, nesting_fieldTokens fields]
    omega

/-- Behind the items one bracket is closed. -/
theorem nesting_itemTokens (items : List Json) (level : Nat) (rest : List Token) :
    nesting (level + 1) (itemTokens items ++ rest) =
      max (level + 1 + itemsDepth items) (nesting level rest) := by
  match items with
  | [] =>
    simp only [itemTokens, itemsDepth, List.cons_append, List.nil_append, nesting, Token.levelAfter,
      Nat.add_sub_cancel, Nat.add_zero]
  | item :: items =>
    simp only [itemTokens, itemsDepth, List.cons_append, List.append_assoc, nesting,
      Token.levelAfter, nesting_append item, nesting_itemTokens items]
    omega

theorem nesting_fieldTokens (fields : List (Option String × Json)) (level : Nat)
    (rest : List Token) : nesting (level + 1) (fieldTokens fields ++ rest) =
      max (level + 1 + fieldsDepth fields) (nesting level rest) := by
  match fields with
  | [] =>
    simp only [fieldTokens, fieldsDepth, List.cons_append, List.nil_append, nesting,
      Token.levelAfter, Nat.add_sub_cancel, Nat.add_zero]
  | (name, v) :: fields =>
    simp only [fieldTokens, fieldsDepth, List.cons_append, List.append_assoc, nesting,
      Token.levelAfter, nesting_append v, nesting_fieldTokens fields]
    omega

end

/-- The text of a value opens as many brackets at once as the value is deep. -/
theorem nesting_tokens (j : Json) : nesting 0 j.tokens = j.depth := by
  have h := nesting_append j 0 []
  rw [List.append_nil] at h
  simpa [nesting] using h

end Json

end Gridcall
