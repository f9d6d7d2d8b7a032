import Gridcall.Host.Text
import Gridcall.Proofs.Number.Spelling

/-!
# Texts that spell handles

A handle text is the marker, a class, a dash and a number. A class may hold dashes and markers, so the
last dash of the text ends it, and the number that follows has no sign but a plus.

* `splitLastDash?_eq_some_iff` : what stands before the last dash and behind it;
* `NaturalText` : at most a plus and one or more digits;
* `SpellsHandle` : the parts of a handle text. A text has them in one way at most (`SpellsHandle.unique`);
* `ofCellText?_spelling` : handles are read from the texts that spell them, and from no others;
* `ofCellText?_cellText` : what is read from the text of a handle. The dash of a negative number is
  taken for the one that ends the class.
-/

namespace Gridcall

/-- At most a plus and one or more digits, with the number that they spell. -/
inductive NaturalText : List Char → Nat → Prop where
  | bare {digits : List Char} (h : IsDigits digits) :
    NaturalText digits (Nat.ofDigitChars 10 digits 0)
  | plus {digits : List Char} (h : IsDigits digits) :
    NaturalText ('+' :: digits) (Nat.ofDigitChars 10 digits 0)

theorem IsDigits.dash_notMem {cs : List Char} (h : IsDigits cs) : '-' ∉ cs := by
  intro hmem
  exact absurd (h.isDigit _ hmem) (by decide)

theorem NaturalText.dash_notMem {cs : List Char} {n : Nat} (h : NaturalText cs n) : '-' ∉ cs := by
  cases h with
  | bare hdigits => exact hdigits.dash_notMem
  | plus hdigits => simp [hdigits.dash_notMem]

theorem NaturalText.integerText {cs : List Char} {n : Nat} (h : NaturalText cs n) : IntegerText cs n := by
  cases h with
  | bare hdigits => exact .unsigned hdigits
  | plus hdigits => exact .plus hdigits

/-- Without a dash there is no minus. -/
theorem IntegerText.exists_naturalText {cs : List Char} {i : Int} (h : IntegerText cs i) (hdash : '-' ∉ cs) :
    ∃ n : Nat, i = n ∧ NaturalText cs n := by
  cases h with
  | unsigned hdigits => exact ⟨_, rfl, .bare hdigits⟩
  | plus hdigits => exact ⟨_, rfl, .plus hdigits⟩
  | minus => exact absurd List.mem_cons_self hdash

/-- Numbers in full are read if 63 bits hold them. -/
theorem readInt64?_repr (n : Nat) :
    readInt64? n.repr.toList = if n < 2 ^ 63 then some (.ofInt n) else none := by
  have htext : IntegerText n.repr.toList n := by
    have h := IntegerText.unsigned (isDigits_repr n)
    rwa [show Nat.ofDigitChars 10 n.repr.toList 0 = n from digitsValue_repr n] at h
  rw [readInt64?_of_integerText htext]
  exact if_congr (by omega) rfl rfl

namespace ObjectHandle

/-! ## The last dash -/

theorem splitLastDash?_eq_none {cs : List Char} (h : '-' ∉ cs) : splitLastDash? cs = none := by
  induction cs with
  | nil => rfl
  | cons c cs ih =>
    obtain ⟨hc, hcs⟩ := not_or.mp (mt List.mem_cons.mpr h)
    rw [splitLastDash?, ih hcs]
    exact if_neg fun heq => hc (beq_iff_eq.mp heq).symm

theorem splitLastDash?_append (before : List Char) {after : List Char} (h : '-' ∉ after) :
    splitLastDash? (before ++ '-' :: after) = some (before, after) := by
  induction before with
  | nil =>
    rw [List.nil_append, splitLastDash?, splitLastDash?_eq_none h]
    rfl
  | cons c before ih => rw [List.cons_append, splitLastDash?, ih]

/-- The last dash parts what stands before it from a rest without dashes. -/
theorem splitLastDash?_eq_some_iff {cs before after : List Char} :
    splitLastDash? cs = some (before, after) ↔ cs = before ++ '-' :: after ∧ '-' ∉ after := by
  constructor
  · intro h
    by_cases hcs : '-' ∈ cs
    · obtain ⟨after', before', hrev, hafter'⟩ := List.eq_append_cons_of_mem (List.mem_reverse.mpr hcs)
      have hsplit : cs = before'.reverse ++ '-' :: after'.reverse := by
        rw [← List.reverse_reverse cs, hrev]
        simp
      have hdash : '-' ∉ after'.reverse := mt List.mem_reverse.mp hafter'
      rw [hsplit, splitLastDash?_append _ hdash] at h
      obtain ⟨rfl, rfl⟩ := Prod.mk.inj (Option.some.inj h)
      exact ⟨hsplit, hdash⟩
    · rw [splitLastDash?_eq_none hcs] at h
      cases h
  · rintro ⟨rfl, hafter⟩
    exact splitLastDash?_append before hafter

/-! ## The parts of a handle text -/

/-- A text spells a handle: the marker, a class that is not empty, a dash, and a number of at most 63
bits. The class may hold dashes and markers. -/
structure SpellsHandle (text : String) (marker : Char) (className : ClassName) (number : String)
    (n : Nat) : Prop where
  text_eq : text.toList = marker :: (className.toList ++ '-' :: number.toList)
  className_ne : className ≠ ""
  number : NaturalText number.toList n
  lt : n < 2 ^ 63

variable {text : String} {marker : Char}

/-- Behind the marker the last dash decides, and then the number. -/
theorem ofCellText?_of_toList_eq {className number : List Char}
    (h : text.toList = marker :: (className ++ '-' :: number)) (hdash : '-' ∉ number) :
    ofCellText? text marker = if className.isEmpty then none
      else (readInt64? number).map fun raw => ⟨String.ofList className, ⟨raw⟩⟩ := by
  unfold ofCellText?
  rw [h]
  dsimp only
  rw [if_pos (beq_self_eq_true marker), splitLastDash?_append className hdash]

theorem SpellsHandle.ofCellText?_eq {className : ClassName} {number : String} {n : Nat}
    (h : SpellsHandle text marker className number n) :
    ofCellText? text marker = some ⟨className, ⟨.ofInt n⟩⟩ := by
  have hread : readInt64? number.toList = some (.ofInt n) := by
    have hlt := h.lt
    rw [readInt64?_eq_some_iff, Int64.toInt_ofInt_of_le (by omega) (by omega)]
    exact h.number.integerText
  rw [ofCellText?_of_toList_eq h.text_eq h.number.dash_notMem, hread, if_neg, Option.map_some,
    String.ofList_toList]
  rw [List.isEmpty_iff, String.toList_eq_nil_iff]
  exact h.className_ne

theorem exists_spellsHandle {h : ObjectHandle} (hread : ofCellText? text marker = some h) :
    ∃ number n, SpellsHandle text marker h.className number n ∧ h.handle.raw.toInt = n := by
  unfold ofCellText? at hread
  split at hread
  · cases hread
  · next c body htext =>
    obtain ⟨hc, hread⟩ := Option.ite_none_right_eq_some.mp hread
    split at hread
    · cases hread
    · next className digits hsplit =>
      obtain ⟨hbody, hdash⟩ := splitLastDash?_eq_some_iff.mp hsplit
      obtain ⟨hclass, hread⟩ := Option.ite_none_left_eq_some.mp hread
      obtain ⟨raw, hraw, rfl⟩ := Option.map_eq_some_iff.mp hread
      obtain ⟨n, hn, hnumber⟩ := (readInt64?_eq_some_iff.mp hraw).exists_naturalText hdash
      have hlt := raw.toInt_lt
      refine ⟨String.ofList digits, n, ⟨?_, ?_, ?_, by omega⟩, hn⟩
      · rw [htext, beq_iff_eq.mp hc, hbody, String.toList_ofList, String.toList_ofList]
      · rwa [Ne, ← String.toList_eq_nil_iff, String.toList_ofList, ← List.isEmpty_iff]
      · rwa [String.toList_ofList]

/-- A text spells one handle at most, and has its parts in one way. -/
theorem SpellsHandle.unique {className className' : ClassName} {number number' : String} {n n' : Nat}
    (h : SpellsHandle text marker className number n)
    (h' : SpellsHandle text marker className' number' n') :
    className = className' ∧ number = number' ∧ n = n' := by
  have hbody : className.toList ++ '-' :: number.toList = className'.toList ++ '-' :: number'.toList :=
    (List.cons.inj (h.text_eq.symm.trans h'.text_eq)).2
  have hsplit := splitLastDash?_append className.toList h.number.dash_notMem
  rw [hbody, splitLastDash?_append className'.toList h'.number.dash_notMem] at hsplit
  obtain ⟨hclass, hnumber⟩ := Prod.mk.inj (Option.some.inj hsplit)
  obtain rfl := String.toList_inj.mp hclass
  obtain rfl := String.toList_inj.mp hnumber
  have hvalue := h.number.integerText.unique h'.number.integerText
  exact ⟨rfl, rfl, by omega⟩

/-- **Handle texts.** A handle is read from a text exactly if the text is the marker, the class, a dash
and a number: the class is not empty and may hold dashes and markers, the number is at most a plus and
one or more digits, and 63 bits hold it. All other texts are refused. A text has these parts in one way
at most, and no handle that is read is negative. -/
theorem ofCellText?_spelling (text : String) (marker : Char) :
    (∀ h, ofCellText? text marker = some h ↔
      ∃ number n, SpellsHandle text marker h.className number n ∧ h.handle.raw.toInt = n) ∧
    (ofCellText? text marker = none ↔
      ∀ className number n, ¬ SpellsHandle text marker className number n) ∧
    (∀ className className' number number' n n', SpellsHandle text marker className number n →
      SpellsHandle text marker className' number' n' →
        className = className' ∧ number = number' ∧ n = n') ∧
    ∀ h, ofCellText? text marker = some h → 0 ≤ h.handle.raw := by
  refine ⟨fun h => ⟨exists_spellsHandle, ?_⟩, ⟨fun hnone className number n hspells => ?_, fun hall => ?_⟩,
    fun _ _ _ _ _ _ => SpellsHandle.unique, fun h hread => ?_⟩
  · rintro ⟨number, n, hspells, hn⟩
    rw [hspells.ofCellText?_eq, ← hn, Int64.ofInt_toInt]
  · rw [hspells.ofCellText?_eq] at hnone
    cases hnone
  · rw [Option.eq_none_iff_forall_ne_some]
    intro h hread
    obtain ⟨number, n, hspells, -⟩ := exists_spellsHandle hread
    exact hall _ _ _ hspells
  · obtain ⟨number, n, -, hn⟩ := exists_spellsHandle hread
    rw [Int64.le_iff_toInt_le, hn]
    exact Int.natCast_nonneg n

/-- Markers and dashes in the class, a plus and a leading zero. With a minus in place of the plus the
class ends one dash later. -/
theorem ofCellText?_spelling_dashes :
    SpellsHandle "&a&-b-+07" '&' "a&-b" "+07" 7 ∧
      ofCellText? "&a&-b-+07" '&' = some ⟨"a&-b", ⟨7⟩⟩ ∧
      SpellsHandle "&a&-b--07" '&' "a&-b-" "07" 7 ∧
      ofCellText? "&a&-b--07" '&' = some ⟨"a&-b-", ⟨7⟩⟩ ∧
      ¬ SpellsHandle "&a&-b--07" '&' "a&-b" "-07" 7 := by
  have hdigits : IsDigits ['0', '7'] := ⟨by decide, by simp⟩
  have hplus : SpellsHandle "&a&-b-+07" '&' "a&-b" "+07" 7 := ⟨rfl, by decide, .plus hdigits, by decide⟩
  have hminus : SpellsHandle "&a&-b--07" '&' "a&-b-" "07" 7 := ⟨rfl, by decide, .bare hdigits, by decide⟩
  refine ⟨hplus, ((ofCellText?_spelling _ _).1 _).mpr ⟨_, _, hplus, by decide⟩, hminus,
    ((ofCellText?_spelling _ _).1 _).mpr ⟨_, _, hminus, by decide⟩, fun h => ?_⟩
  obtain ⟨hclass, -⟩ := (ofCellText?_spelling _ _).2.2.1 _ _ _ _ _ _ h hminus
  exact absurd hclass (by decide)

/-! ## Handles as text -/

theorem toList_cellText_of_nonneg {h : ObjectHandle} (hnonneg : 0 ≤ h.handle.raw.toInt) :
    (h.cellText marker).toList =
      marker :: (h.className.toList ++ '-' :: h.handle.raw.toInt.toNat.repr.toList) := by
  have hnumber : (toString h.handle).toList = h.handle.raw.toInt.toNat.repr.toList := by
    show h.handle.raw.toInt.repr.toList = _
    rw [Int.repr_eq_if, if_pos hnonneg]
  rw [cellText, String.toList_ofList, hnumber]

/-- The dash of a negative number follows the one that ends the class, which is the same text as that of
a class with a dash more. -/
theorem toList_cellText_of_neg {h : ObjectHandle} (hneg : h.handle.raw.toInt < 0) :
    (h.cellText marker).toList =
      marker :: ((h.className ++ "-").toList ++ '-' :: (-h.handle.raw.toInt).toNat.repr.toList) := by
  have hnumber : (toString h.handle).toList = '-' :: (-h.handle.raw.toInt).toNat.repr.toList := by
    show h.handle.raw.toInt.repr.toList = _
    rw [Int.repr_eq_if, if_neg (Int.not_le.mpr hneg), String.toList_append]
    rfl
  rw [cellText, String.toList_ofList, hnumber, String.toList_append, List.append_assoc]
  rfl

/-- What is read from a class and a number in full. -/
theorem ofCellText?_of_repr {className : ClassName} {n : Nat}
    (h : text.toList = marker :: (className.toList ++ '-' :: n.repr.toList)) :
    ofCellText? text marker =
      if className = "" then none else if n < 2 ^ 63 then some ⟨className, ⟨.ofInt n⟩⟩ else none := by
  rw [ofCellText?_of_toList_eq h (isDigits_repr n).dash_notMem, readInt64?_repr, String.ofList_toList]
  refine if_congr ?_ rfl ?_
  · rw [List.isEmpty_iff, String.toList_eq_nil_iff]
  · split_ifs <;> rfl

theorem append_dash_ne (className : ClassName) : className ++ "-" ≠ "" := by
  intro h
  have htext := congrArg String.toList h
  rw [String.toList_append] at htext
  exact List.append_ne_nil_of_right_ne_nil _ (by decide) htext

/-- **Handles come back from text unless they are negative.** The text of a handle is read as the same
class and number if the class is not empty and the number is not negative. The dash of a negative number
is taken for the one that ends the class: the class gains a dash and the number loses its sign, and the
least number, which has no opposite, is refused. -/
theorem ofCellText?_cellText (h : ObjectHandle) (marker : Char) :
    ofCellText? (h.cellText marker) marker =
      if h.handle.raw = Int64.minValue then none
      else if h.handle.raw < 0 then some ⟨h.className ++ "-", ⟨-h.handle.raw⟩⟩
      else if h.className = "" then none
      else some h := by
  have hlow := h.handle.raw.le_toInt
  have hhigh := h.handle.raw.toInt_lt
  have hleast : h.handle.raw = Int64.minValue ↔ h.handle.raw.toInt = -2 ^ 63 := by
    rw [← Int64.toInt_inj, Int64.toInt_minValue]
  have hsign : h.handle.raw < 0 ↔ h.handle.raw.toInt < 0 := Int64.lt_iff_toInt_lt
  simp only [hleast, hsign]
  rcases Int.lt_or_le h.handle.raw.toInt 0 with hneg | hnonneg
  · have hopposite : Int64.ofInt (-h.handle.raw.toInt).toNat = -h.handle.raw := by
      rw [Int.toNat_of_nonneg (by omega), Int64.ofInt_neg, Int64.ofInt_toInt]
    rw [ofCellText?_of_repr (toList_cellText_of_neg hneg), if_neg (append_dash_ne _), hopposite,
      if_pos hneg]
    by_cases hmin : h.handle.raw.toInt = -2 ^ 63
    · rw [if_pos hmin, if_neg (by omega)]
    · rw [if_neg hmin, if_pos (by omega)]
  · have hsame : Int64.ofInt h.handle.raw.toInt.toNat = h.handle.raw := by
      rw [Int.toNat_of_nonneg hnonneg, Int64.ofInt_toInt]
    have hfits : h.handle.raw.toInt.toNat < 2 ^ 63 := by omega
    rw [ofCellText?_of_repr (toList_cellText_of_nonneg hnonneg), hsame, if_pos hfits,
      if_neg (show h.handle.raw.toInt ≠ -2 ^ 63 by omega), if_neg (Int.not_lt.mpr hnonneg)]

/-- The fifth handle below zero comes back as the fifth one above, of a class with a dash more. -/
theorem ofCellText?_cellText_negative :
    let h : ObjectHandle := ⟨"Person", ⟨-5⟩⟩
    h.className ≠ "" ∧ h.cellText '&' = "&Person--5" ∧
      ofCellText? (h.cellText '&') '&' = some ⟨"Person-", ⟨5⟩⟩ ∧
      ofCellText? (h.cellText '&') '&' ≠ some h := by
  intro h
  have hread : ofCellText? (h.cellText '&') '&' = some ⟨"Person-", ⟨5⟩⟩ := by
    cbv
  refine ⟨by decide, by decide, hread, ?_⟩
  rw [hread]
  decide

end ObjectHandle

end Gridcall
