import Gridcall.Proofs.Marshal.Cells
import Gridcall.Proofs.Marshal.Narrowing
import Gridcall.Proofs.Number.Spelling
import Gridcall.Proofs.Number.Whole

/-!
# Integers in text

What the converters between numbers and text make of a text that spells an integer, of any length.

* `SpellsInteger` : an optional sign and digits between blanks;
* `Binary.truncate?_ofInt_of_near`, `Binary.natAbs_of_truncate?_ofInt` : what is left of an integer of
  63 bits and more when it goes through a double;
* `decodeUsing_integerText` : integers in range are read exactly, all others are refused, but for the
  few just beyond the bounds of the widest type, which become the bound.
-/

namespace Gridcall

/-! ## Doubles around two to the 63 -/

namespace FloatFormat

/-- The word of two to the 63 as a double: its exponent field, and no fraction. -/
def word63 : Nat := 1086 * 2 ^ 52

theorem magnitude_word63 : double.magnitude word63 = 2 ^ 63 := by
  have hword : word63 = (double.unitExponent + 11 + 1) * 2 ^ double.fractionBits + 0 := rfl
  rw [hword, magnitude_whole _ _ (by decide)]
  norm_num [double]

theorem midpoint_word63 : double.midpoint word63 = 2 ^ 63 + 1024 := by
  have hword : word63 + 1 = (double.unitExponent + 11 + 1) * 2 ^ double.fractionBits + 1 := rfl
  rw [midpoint, magnitude_word63, hword, magnitude_whole _ _ (by decide)]
  norm_num [double]

theorem midpoint_before_word63 : double.midpoint (word63 - 1) = 2 ^ 63 - 512 := by
  have hword : word63 - 1 =
      (double.unitExponent + 10 + 1) * 2 ^ double.fractionBits + (2 ^ 52 - 1) := rfl
  have hnext : word63 - 1 + 1 = word63 := rfl
  rw [midpoint, hnext, magnitude_word63, hword, magnitude_whole _ _ (by decide)]
  norm_num [double]

theorem rounds_word63 {q : ℚ} (hlow : 2 ^ 63 - 512 < q) (hhigh : q ≤ 2 ^ 63 + 1024) :
    double.Rounds q word63 := by
  refine rounds_of_passes (by decide) ?_ fun _ hpasses => ?_
  · intro w hw
    rw [show w = word63 - 1 by omega]
    exact .inl (midpoint_before_word63 ▸ hlow)
  · rcases hpasses with hlt | ⟨-, hodd⟩
    · exact (midpoint_word63 ▸ hlt).not_ge hhigh
    · exact absurd hodd (by decide)

end FloatFormat

namespace Binary

/-- Integers next to two to the 63 become that double. -/
theorem truncate?_ofInt_of_near {i : Int} (hlow : 2 ^ 63 - 512 < i.natAbs)
    (hhigh : i.natAbs ≤ 2 ^ 63 + 1024) :
    (ofInt i : Double).truncate? = some (if i < 0 then -2 ^ 63 else 2 ^ 63) := by
  have hword : (ofInt i : Double).word = FloatFormat.word63 := by
    refine (rounds_ofInt i).unique (FloatFormat.rounds_word63 ?_ ?_)
    · rw [sub_lt_iff_lt_add]
      exact_mod_cast (by omega : 2 ^ 63 < i.natAbs + 512)
    · exact_mod_cast hhigh
  have hfinite : (ofInt i : Double).isFinite := by
    rw [isFinite, hword]
    decide
  have habs : (nearestInteger i).natAbs = 2 ^ 63 := by
    have hmagnitude := natAbs_nearestInteger i
    rw [hword, FloatFormat.magnitude_word63] at hmagnitude
    exact_mod_cast hmagnitude
  have hsign := nearestInteger_neg_iff (i := i)
  rw [truncate?_ofInt_eq hfinite, Option.some.injEq]
  split_ifs <;> omega

/-- Integers further out become doubles further out, or infinity. -/
theorem natAbs_of_truncate?_ofInt {i j : Int} (hlow : 2 ^ 63 + 1024 < i.natAbs)
    (h : (ofInt i : Double).truncate? = some j) : 2 ^ 63 < j.natAbs := by
  have hbeyond : FloatFormat.double.midpoint FloatFormat.word63 < i.natAbs := by
    rw [FloatFormat.midpoint_word63]
    exact_mod_cast hlow
  have hword : FloatFormat.word63 < (ofInt i : Double).word :=
    (rounds_ofInt i FloatFormat.word63).mpr ⟨by decide, .inl hbeyond⟩
  have hmagnitude : (2 : ℚ) ^ 63 < FloatFormat.double.magnitude (ofInt i : Double).word := by
    rw [← FloatFormat.magnitude_word63]
    exact FloatFormat.double.magnitude_strictMono hword
  rw [truncate?_ofInt_eq (isFinite_of_truncate? h)] at h
  rw [← natAbs_nearestInteger, Option.some.inj h] at hmagnitude
  exact_mod_cast hmagnitude

end Binary

/-! ## Integers of the managed side -/

def Managed.integer? : Managed → Option Int
  | .byte v => some v.toInt
  | .short v => some v.toInt
  | .int v => some v.toInt
  | .long v => some v.toInt
  | _ => none

namespace IntegerKind

theorem integer?_wrap {k : IntegerKind} {i : Int} (h : k.contains i = true) :
    (k.wrap i).integer? = some i := by
  obtain ⟨hlow, hhigh⟩ := contains_iff.mp h
  cases k with
  | byte => exact congrArg some (Int8.toInt_ofInt_of_le hlow (Int.lt_of_le_of_lt hhigh (by decide)))
  | short => exact congrArg some (Int16.toInt_ofInt_of_le hlow (Int.lt_of_le_of_lt hhigh (by decide)))
  | int => exact congrArg some (Int32.toInt_ofInt_of_le hlow (Int.lt_of_le_of_lt hhigh (by decide)))
  | long => exact congrArg some (Int64.toInt_ofInt_of_le hlow (Int.lt_of_le_of_lt hhigh (by decide)))

theorem contains_long {k : IntegerKind} {i : Int} (h : k.contains i = true) : long.contains i = true := by
  rw [contains_iff] at *
  cases k <;> simp only [least, greatest] at * <;> omega

theorem narrow_managedType (k : IntegerKind) (x : Double) : narrow k.managedType x = narrowDouble k x := by
  cases k <;> rfl

theorem contains_eq_false_of_beyond (k : IntegerKind) {j : Int} (h : 2 ^ 63 < j.natAbs) :
    k.contains j = false := by
  rw [← Bool.not_eq_true, contains_iff]
  cases k <;> simp only [least, greatest] <;> omega

/-- The double nearest to the greatest value of a type, which is the greatest value itself but for the
widest type. -/
theorem truncate?_greatest (k : IntegerKind) :
    (Binary.ofInt k.greatest : Double).truncate? = some (if k = .long then 2 ^ 63 else k.greatest) := by
  cases k with
  | long =>
    have hpart := Binary.truncate?_ofInt_of_near (i := long.greatest) (by simp [greatest])
      (by simp [greatest])
    rwa [if_neg (by simp [greatest])] at hpart
  | _ => exact Binary.truncate?_ofInt (by decide)

end IntegerKind

theorem narrowDouble_of_none {x : Double} (h : x.truncate? = none) (k : IntegerKind) :
    narrowDouble k x = .error (outOfRange k.managedType (toString x)) := by
  rw [narrowDouble, h]

theorem narrowDouble_of_some {x : Double} {j : Int} (h : x.truncate? = some j) (k : IntegerKind) :
    narrowDouble k x =
      if k.contains j then .ok (k.wrap j)
      else if j = if k = .long then 2 ^ 63 else k.greatest then .ok (k.wrap k.greatest)
      else .error (outOfRange k.managedType (toString x)) := by
  rw [narrowDouble, h, k.truncate?_greatest]
  simp only [Option.some.injEq, eq_comm]

/-- What becomes of an integer that does not fit the widest type, when it is narrowed as a double. -/
theorem narrowDouble_ofInt {i : Int} (h : IntegerKind.long.contains i = false) (k : IntegerKind) :
    narrowDouble k (.ofInt i) =
      if k = .long ∧ i.natAbs ≤ 2 ^ 63 + 1024 then .ok (k.wrap (if i < 0 then k.least else k.greatest))
      else .error (outOfRange k.managedType (toString (Binary.ofInt i : Double))) := by
  have hbeyond : 2 ^ 63 ≤ i.natAbs := by
    rw [← Bool.not_eq_true, IntegerKind.contains_iff] at h
    simp only [IntegerKind.least, IntegerKind.greatest] at h
    omega
  by_cases hnear : i.natAbs ≤ 2 ^ 63 + 1024
  · rw [narrowDouble_of_some (Binary.truncate?_ofInt_of_near (by omega) hnear)]
    simp only [hnear, and_true]
    by_cases hnegative : i < 0
    · cases k <;> simp [hnegative, IntegerKind.contains, IntegerKind.least, IntegerKind.greatest]
    · cases k <;> simp [hnegative, IntegerKind.contains, IntegerKind.least, IntegerKind.greatest]
  · have hlong : ¬ (k = .long ∧ i.natAbs ≤ 2 ^ 63 + 1024) := fun h => hnear h.2
    rw [if_neg hlong]
    cases hpart : (Binary.ofInt i : Double).truncate? with
    | none => exact narrowDouble_of_none hpart k
    | some j =>
      have hj := Binary.natAbs_of_truncate?_ofInt (Nat.lt_of_not_le hnear) hpart
      have hgreatest : j ≠ if k = .long then 2 ^ 63 else k.greatest := by
        cases k <;> simp only [IntegerKind.greatest, reduceCtorEq, if_true, if_false] <;> omega
      rw [narrowDouble_of_some hpart, k.contains_eq_false_of_beyond hj, if_neg Bool.false_ne_true,
        if_neg hgreatest]

/-! ## Text -/

/-- A text that spells an integer: an optional sign and one or more digits between blanks. -/
def SpellsInteger (text : String) (i : Int) : Prop :=
  ∃ lead cs trail, text.toList = lead ++ cs ++ trail ∧ (∀ c ∈ lead, isBlank c = true) ∧
    (∀ c ∈ trail, isBlank c = true) ∧ IntegerText cs i

theorem spellsInteger_iff {text : String} {i : Int} :
    SpellsInteger text i ↔ IntegerText (trimBlank text.toList) i := by
  constructor
  · rintro ⟨lead, cs, trail, htext, hlead, htrail, h⟩
    rwa [htext, trimBlank_append hlead htrail h.ne_nil h.isBlank]
  · intro h
    obtain ⟨lead, trail, htext, hlead, htrail⟩ := exists_eq_append_trimBlank text.toList
    exact ⟨lead, _, trail, htext, hlead, htrail, h⟩

theorem readInt64?_eq_ite_contains {cs : List Char} {i : Int} (h : IntegerText cs i) :
    readInt64? cs = if IntegerKind.long.contains i then some (.ofInt i) else none := by
  rw [readInt64?_of_integerText h]
  refine if_congr ?_ rfl rfl
  rw [IntegerKind.contains_iff]
  simp only [IntegerKind.least, IntegerKind.greatest]
  omega

theorem readNumber_of_spellsInteger {text : String} {i : Int} (h : SpellsInteger text i) (k : IntegerKind) :
    readNumber k.managedType text =
      if k.contains i then .ok (k.wrap i)
      else if k = .long ∧ i.natAbs ≤ 2 ^ 63 + 1024 then
        .ok (k.wrap (if i < 0 then k.least else k.greatest))
      else .error (outOfRange k.managedType
        (if IntegerKind.long.contains i then toString i else toString (Binary.ofInt i : Double))) := by
  have htrim := spellsInteger_iff.mp h
  unfold readNumber
  dsimp only
  rw [IntegerKind.ofManagedType?_eq_some_iff.mpr rfl, readInt64?_eq_ite_contains htrim]
  cases hlong : IntegerKind.long.contains i with
  | true =>
    have hfits : k = .long → k.contains i = true := by
      rintro rfl
      exact hlong
    have hexact : (Int64.ofInt i).toInt = i :=
      Option.some.inj (IntegerKind.integer?_wrap (k := .long) hlong)
    simp only [if_true, narrowInteger, hexact]
    cases hcontains : k.contains i with
    | true => rfl
    | false =>
      have hk : ¬ (k = .long ∧ i.natAbs ≤ 2 ^ 63 + 1024) := fun hk => by
        rw [hfits hk.1] at hcontains
        cases hcontains
      rw [if_neg hk]
  | false =>
    have hne : i ≠ 0 := by
      rintro rfl
      cases hlong
    have hcontains : k.contains i = false := by
      rw [← Bool.not_eq_true] at hlong ⊢
      exact fun h => hlong (IntegerKind.contains_long h)
    simp only [Bool.false_eq_true, if_false, readBinary?_of_integerText htrim hne]
    rw [k.narrow_managedType, narrowDouble_ofInt hlong, hcontains]
    rfl

/-- **Integers in text are read exactly, but for those just beyond the widest type.** A converter between
numbers and text makes a text that spells an integer, with any number of digits, into that integer if
it lies between the bounds of the type. If not, it fails, except that the widest type takes integers up
to 1024 beyond two to the 63, on either side, for its bound: they are read as a double first, and the
nearest double is two to the 63. -/
theorem decodeUsing_integerText {text : String} {i : Int} (h : SpellsInteger text i) (k : IntegerKind)
    (r : Registry) (required : Option ManagedType) (s : MarshalState) :
    decodeUsing r (.numericText k.managedType) required (.string text) s =
      (if k.contains i then .ok (k.wrap i)
        else if k = .long ∧ i.natAbs ≤ 2 ^ 63 + 1024 then
          .ok (k.wrap (if i < 0 then k.least else k.greatest))
        else .error (.conversion k.managedType.text
          ((if IntegerKind.long.contains i then toString i else toString (Binary.ofInt i : Double)) ++
            " is out of range")), s) ∧
      (k.contains i → (k.wrap i).integer? = some i) := by
  rw [decodeUsing_numericText, readNumber_of_spellsInteger h k]
  exact ⟨rfl, IntegerKind.integer?_wrap⟩

/-- Blanks, a sign and leading zeros: 128 is refused as a byte, and read as a short. -/
theorem decodeUsing_integerText_byte : SpellsInteger " +0128\n" 128 ∧
    (decodeUsing [] (.numericText .byte) none (.string " +0128\n") .empty).1 =
      .error (.conversion "byte" "128 is out of range") ∧
    (decodeUsing [] (.numericText .short) none (.string " +0128\n") .empty).1 =
      .ok (.short 128) := by
  have h : SpellsInteger " +0128\n" 128 :=
    spellsInteger_iff.mpr (readInteger?_eq_some_iff.mp (by cbv))
  obtain ⟨hbyte, -⟩ := decodeUsing_integerText h .byte [] none .empty
  obtain ⟨hshort, -⟩ := decodeUsing_integerText h .short [] none .empty
  rw [if_neg (by decide), if_neg (by decide), if_pos (by decide)] at hbyte
  rw [if_pos (by decide)] at hshort
  exact ⟨h, congrArg Prod.fst hbyte, congrArg Prod.fst hshort⟩

/-- One below the least 64-bit integer is read as the least one. -/
theorem decodeUsing_integerText_below_least :
    SpellsInteger "-9223372036854775809" (-9223372036854775809) ∧
      IntegerKind.long.contains (-9223372036854775809) = false ∧
      (decodeUsing [] (.numericText .long) none (.string "-9223372036854775809") .empty).1 =
        .ok (.long Int64.minValue) := by
  have h : SpellsInteger "-9223372036854775809" (-9223372036854775809) :=
    spellsInteger_iff.mpr (readInteger?_eq_some_iff.mp (by cbv))
  refine ⟨h, by decide, ?_⟩
  have hread := readNumber_of_spellsInteger h .long
  rw [if_neg (by decide), if_pos (by decide), if_pos (by decide)] at hread
  have hbound : IntegerKind.long.wrap IntegerKind.long.least = .long Int64.minValue := rfl
  have htype : IntegerKind.long.managedType = .long := rfl
  rw [decodeUsing_numericText, ← htype, hread, hbound]

end Gridcall
