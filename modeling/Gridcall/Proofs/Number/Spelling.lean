import Gridcall.Number.Reading
import Gridcall.Number.Style
import Gridcall.Proofs.Number.Decimal
import Gridcall.Text.Blank

/-!
# Numbers and their text

* `trimBlank_append` : blanks around a text without blanks are cut off;
* `IntegerText cs i` : `cs` is an optional sign and digits, which spell `i`. Such texts are what
  `readInteger?` reads (`readInteger?_eq_some_iff`), and `readBinary?` takes them for the number
  nearest to the integer (`readBinary?_of_integerText`);
* `Decimal.Shows d cs` : `cs` is digits that spell the value of `d`, maybe with a point. The full text of
  a decimal is (`shows_positional`);
* `readBinary?_write` : the text of a finite number is read as its shortest digits, with its sign.
-/

namespace Gridcall

/-! ## Runs of characters -/

theorem dropWhile_run {p : Char → Bool} {run rest : List Char} (hrun : ∀ c ∈ run, p c = true)
    (hrest : ∀ c ∈ rest.head?, p c = false) : (run ++ rest).dropWhile p = rest := by
  rw [List.dropWhile_append_of_pos hrun]
  cases rest with
  | nil => rfl
  | cons c rest => simp [hrest c rfl]

theorem takeWhile_run {p : Char → Bool} {run rest : List Char} (hrun : ∀ c ∈ run, p c = true)
    (hrest : ∀ c ∈ rest.head?, p c = false) : (run ++ rest).takeWhile p = run := by
  rw [List.takeWhile_append_of_pos hrun]
  cases rest with
  | nil => simp
  | cons c rest => simp [hrest c rfl]

theorem trimBlank_append {lead cs trail : List Char} (hlead : ∀ c ∈ lead, isBlank c = true)
    (htrail : ∀ c ∈ trail, isBlank c = true) (hne : cs ≠ []) (hcs : ∀ c ∈ cs, isBlank c = false) :
    trimBlank (lead ++ cs ++ trail) = cs := by
  have hfront : (lead ++ (cs ++ trail)).dropWhile isBlank = cs ++ trail := by
    refine dropWhile_run hlead fun c hc => hcs c ?_
    rw [List.head?_append_of_ne_nil _ hne] at hc
    exact List.mem_of_mem_head? hc
  have hback : (trail.reverse ++ cs.reverse).dropWhile isBlank = cs.reverse := by
    refine dropWhile_run (fun c hc => htrail c (List.mem_reverse.mp hc)) fun c hc => ?_
    exact hcs c (List.mem_reverse.mp (List.mem_of_mem_head? hc))
  rw [trimBlank, List.append_assoc, hfront, List.reverse_append, hback, List.reverse_reverse]

/-- The characters of a trimmed text stand in the text between blanks. -/
theorem exists_eq_append_trimBlank (cs : List Char) : ∃ lead trail, cs = lead ++ trimBlank cs ++ trail ∧
    (∀ c ∈ lead, isBlank c = true) ∧ ∀ c ∈ trail, isBlank c = true := by
  have hfront := (List.takeWhile_append_dropWhile (p := isBlank) (l := cs)).symm
  have hback := (List.takeWhile_append_dropWhile (p := isBlank)
    (l := (cs.dropWhile isBlank).reverse)).symm
  refine ⟨cs.takeWhile isBlank, ((cs.dropWhile isBlank).reverse.takeWhile isBlank).reverse, ?_,
    fun c hc => List.mem_takeWhile_imp hc,
    fun c hc => List.mem_takeWhile_imp (List.mem_reverse.mp hc)⟩
  rw [trimBlank, List.append_assoc, ← List.reverse_append, ← hback, List.reverse_reverse]
  exact hfront

/-! ## Digits -/

/-- One or more ASCII digits. -/
structure IsDigits (cs : List Char) : Prop where
  ne_nil : cs ≠ []
  isDigit : ∀ c ∈ cs, c.isDigit = true

theorem toNat_of_isDigit {c : Char} (h : c.isDigit = true) : 48 ≤ c.toNat ∧ c.toNat ≤ 57 := by
  simp only [Char.isDigit, Bool.and_eq_true, decide_eq_true_eq] at h
  exact h

theorem isBlank_of_isDigit {c : Char} (h : c.isDigit = true) : isBlank c = false := by
  have hc := toNat_of_isDigit h
  rw [← Bool.not_eq_true]
  intro hblank
  obtain ⟨range, hrange, hlow, hhigh⟩ := CharTable.contains_eq_true_iff.mp hblank
  have hapart : ∀ range ∈ blankRanges, range.2 < 48 ∨ 57 < range.1 := by decide
  have := hapart range hrange
  omega

theorem toLower_of_isDigit {c : Char} (h : c.isDigit = true) : c.toLower = c := by
  have hc := toNat_of_isDigit h
  refine dif_neg fun hupper => ?_
  have : 65 ≤ c.toNat := hupper.1
  omega

theorem isDigits_repr (n : Nat) : IsDigits n.repr.toList where
  ne_nil := by
    rw [Nat.toList_repr]
    exact Nat.toDigits_ne_nil
  isDigit c hc := by
    rw [Nat.toList_repr] at hc
    exact Nat.isDigit_of_mem_toDigits (by decide) (by decide) hc

theorem digitsValue_repr (n : Nat) : digitsValue n.repr.toList = n := by
  rw [Nat.toList_repr]
  exact Nat.ofDigitChars_ten_toDigits

theorem readNatural?_eq_some_iff {cs : List Char} {n : Nat} :
    readNatural? cs = some n ↔ IsDigits cs ∧ n = digitsValue cs := by
  unfold readNatural?
  split_ifs with hempty hall
  · simp only [false_iff, not_and]
    exact fun h => absurd (List.isEmpty_iff.mp hempty) h.ne_nil
  · simp only [Option.some.injEq]
    have hdigits : IsDigits cs := ⟨fun h => hempty (List.isEmpty_iff.mpr h), List.all_eq_true.mp hall⟩
    exact ⟨fun h => ⟨hdigits, h.symm⟩, fun h => h.2.symm⟩
  · simp only [false_iff, not_and]
    exact fun h => absurd (List.all_eq_true.mpr h.isDigit) hall

/-! ## Integers -/

/-- An optional sign and one or more digits, with the integer that they spell. -/
inductive IntegerText : List Char → Int → Prop where
  | unsigned {digits : List Char} (h : IsDigits digits) :
    IntegerText digits (Nat.ofDigitChars 10 digits 0)
  | plus {digits : List Char} (h : IsDigits digits) :
    IntegerText ('+' :: digits) (Nat.ofDigitChars 10 digits 0)
  | minus {digits : List Char} (h : IsDigits digits) :
    IntegerText ('-' :: digits) (-(Nat.ofDigitChars 10 digits 0 : Int))

theorem splitSign_of_isDigit {c : Char} (h : c.isDigit = true) (cs : List Char) :
    splitSign (c :: cs) = (false, c :: cs) := by
  unfold splitSign
  split
  · next heq =>
    cases heq
    cases h
  · next heq =>
    cases heq
    cases h
  · rfl

theorem IsDigits.exists_cons {cs : List Char} (h : IsDigits cs) :
    ∃ c rest, c.isDigit = true ∧ cs = c :: rest := by
  obtain ⟨c, rest, rfl⟩ := List.exists_cons_of_ne_nil h.ne_nil
  exact ⟨c, rest, h.isDigit c List.mem_cons_self, rfl⟩

theorem IsDigits.splitSign_eq {cs : List Char} (h : IsDigits cs) : splitSign cs = (false, cs) := by
  obtain ⟨c, rest, hc, rfl⟩ := h.exists_cons
  exact splitSign_of_isDigit hc rest

theorem readNatural?_of_isDigits {cs : List Char} (h : IsDigits cs) :
    readNatural? cs = some (Nat.ofDigitChars 10 cs 0) :=
  readNatural?_eq_some_iff.mpr ⟨h, rfl⟩

theorem readInteger?_eq_map (cs : List Char) : readInteger? cs =
    (readNatural? (splitSign cs).2).map fun n : Nat => if (splitSign cs).1 then -(n : Int) else n := by
  unfold readInteger?
  obtain ⟨negative, rest⟩ := splitSign cs
  dsimp only
  cases readNatural? rest <;> rfl

/-- Integers are read from the texts that spell them, and from no others. -/
theorem readInteger?_eq_some_iff {cs : List Char} {i : Int} :
    readInteger? cs = some i ↔ IntegerText cs i := by
  rw [readInteger?_eq_map]
  constructor
  · intro h
    obtain ⟨n, hread, rfl⟩ := Option.map_eq_some_iff.mp h
    obtain ⟨hdigits, rfl⟩ := readNatural?_eq_some_iff.mp hread
    unfold splitSign at hdigits ⊢
    split at hdigits
    · exact .minus hdigits
    · exact .plus hdigits
    · exact .unsigned hdigits
  · rintro (hdigits | hdigits | hdigits)
    · rw [hdigits.splitSign_eq]
      exact congrArg (Option.map _) (readNatural?_of_isDigits hdigits)
    · exact congrArg (Option.map _) (readNatural?_of_isDigits hdigits)
    · exact congrArg (Option.map _) (readNatural?_of_isDigits hdigits)

theorem IntegerText.unique {cs : List Char} {i j : Int} (hi : IntegerText cs i) (hj : IntegerText cs j) :
    i = j :=
  Option.some.inj ((readInteger?_eq_some_iff.mpr hi).symm.trans (readInteger?_eq_some_iff.mpr hj))

/-- Integers in text are read if 64 bits hold them. -/
theorem readInt64?_of_integerText {cs : List Char} {i : Int} (h : IntegerText cs i) :
    readInt64? cs = if -2 ^ 63 ≤ i ∧ i < 2 ^ 63 then some (.ofInt i) else none := by
  rw [readInt64?, readInteger?_eq_some_iff.mpr h, Option.bind_some, Int64.toInt_minValue,
    Int64.toInt_maxValue]
  exact if_congr (by omega) rfl rfl

/-- 64-bit integers are read from the texts that spell them. -/
theorem readInt64?_eq_some_iff {cs : List Char} {v : Int64} :
    readInt64? cs = some v ↔ IntegerText cs v.toInt := by
  constructor
  · intro h
    obtain ⟨i, hread, -⟩ := Option.bind_eq_some_iff.mp h
    have htext := readInteger?_eq_some_iff.mp hread
    rw [readInt64?_of_integerText htext] at h
    obtain ⟨hbounds, hi⟩ := Option.ite_none_right_eq_some.mp h
    rwa [← Option.some.inj hi, Int64.toInt_ofInt_of_le hbounds.1 hbounds.2]
  · intro h
    rw [readInt64?_of_integerText h, if_pos ⟨v.le_toInt, v.toInt_lt⟩, Int64.ofInt_toInt]

theorem IntegerText.ne_nil {cs : List Char} {i : Int} (h : IntegerText cs i) : cs ≠ [] := by
  cases h with
  | unsigned hdigits => exact hdigits.ne_nil
  | plus hdigits => exact List.cons_ne_nil _ _
  | minus hdigits => exact List.cons_ne_nil _ _

theorem IntegerText.isBlank {cs : List Char} {i : Int} (h : IntegerText cs i) :
    ∀ c ∈ cs, Gridcall.isBlank c = false := by
  have hsign : ∀ {sign : Char} {digits : List Char}, Gridcall.isBlank sign = false → IsDigits digits →
      ∀ c ∈ sign :: digits, Gridcall.isBlank c = false := by
    intro sign digits hsign hdigits c hc
    rcases List.mem_cons.mp hc with rfl | hc
    · exact hsign
    · exact isBlank_of_isDigit (hdigits.isDigit c hc)
  cases h with
  | unsigned hdigits => exact fun c hc => isBlank_of_isDigit (hdigits.isDigit c hc)
  | plus hdigits => exact hsign (by decide) hdigits
  | minus hdigits => exact hsign (by decide) hdigits

/-! ## Numerals -/

section

variable {f : FloatFormat} {cs rest whole fraction : List Char}

theorem readNumeral?_whole (h : IsDigits whole) : readNumeral? whole = some ⟨whole, [], 0⟩ := by
  have htake : whole.takeWhile Char.isDigit = whole := List.takeWhile_eq_self_iff.mpr h.isDigit
  have hdrop : whole.dropWhile Char.isDigit = [] := List.dropWhile_eq_nil_iff.mpr h.isDigit
  simp [readNumeral?, htake, hdrop, h.ne_nil, readExponent?]

theorem readNumeral?_point (h : IsDigits whole) (hfraction : ∀ c ∈ fraction, c.isDigit = true) :
    readNumeral? (whole ++ '.' :: fraction) = some ⟨whole, fraction, 0⟩ := by
  have hpoint : ∀ c ∈ ('.' :: fraction).head?, c.isDigit = false := by
    rintro c ⟨⟩
    rfl
  have htake := takeWhile_run h.isDigit hpoint
  have hdrop := dropWhile_run h.isDigit hpoint
  have htake' : fraction.takeWhile Char.isDigit = fraction := List.takeWhile_eq_self_iff.mpr hfraction
  have hdrop' : fraction.dropWhile Char.isDigit = [] := List.dropWhile_eq_nil_iff.mpr hfraction
  simp [readNumeral?, htake, hdrop, htake', hdrop', h.ne_nil, readExponent?]

/-- What starts with a digit behind its sign is no name. -/
theorem readBinary?_of_isDigit {c : Char} {negative : Bool} (hc : c.isDigit = true)
    (hsplit : splitSign cs = (negative, c :: rest)) : (readBinary? cs : Option (Binary f)) =
      (readNumeral? (c :: rest)).map fun n => n.toDecimal.toBinary negative := by
  have hname : ∀ (name : String) (d : Char) (more : List Char), name.toList = d :: more →
      d.isDigit = false → (String.ofList ((c :: rest).map Char.toLower) == name) = false := by
    intro name d more hlist hd
    refine beq_eq_false_iff_ne.mpr ?_
    rintro rfl
    rw [String.toList_ofList, List.map_cons, toLower_of_isDigit hc] at hlist
    rw [(List.cons.inj hlist).1, hd] at hc
    cases hc
  unfold readBinary?
  rw [hsplit]
  simp only [hname "inf" 'i' ['n', 'f'] rfl rfl,
    hname "infinity" 'i' ['n', 'f', 'i', 'n', 'i', 't', 'y'] rfl rfl,
    hname "nan" 'n' ['a', 'n'] rfl rfl, Bool.or_self, Bool.false_eq_true, if_false]

/-- Digits are read as the number nearest to the integer that they spell. -/
theorem toBinary_of_isDigits (negative : Bool) : (Numeral.toDecimal ⟨whole, [], 0⟩).toBinary negative =
    (Binary.ofRatio negative (Nat.ofDigitChars 10 whole 0) 1 : Binary f) := by
  have hvalue : (Numeral.toDecimal ⟨whole, [], 0⟩).value = Nat.ofDigitChars 10 whole 0 / (1 : Nat) := by
    simp only [Numeral.toDecimal, Decimal.value, List.append_nil, List.length_nil, Nat.cast_zero,
      sub_zero, zpow_zero, mul_one, Nat.cast_one, div_one]
    rfl
  have hword := (Decimal.rounds_toWord f _).unique
    (hvalue ▸ f.rounds_roundWord (Nat.ofDigitChars 10 whole 0) Nat.one_pos)
  simp only [Decimal.toBinary, Binary.ofRatio, hword]

/-- The text of an integer is read as the number nearest to it. Only zero has two such numbers. -/
theorem readBinary?_of_integerText {i : Int} (h : IntegerText cs i) (hi : i ≠ 0) :
    (readBinary? cs : Option (Binary f)) = some (.ofInt i) := by
  have hread : ∀ {digits : List Char} {negative : Bool}, IsDigits digits →
      splitSign cs = (negative, digits) → (readBinary? cs : Option (Binary f)) =
        some (.ofRatio negative (Nat.ofDigitChars 10 digits 0) 1) := by
    intro digits negative hdigits hsplit
    obtain ⟨c, rest, hc, rfl⟩ := hdigits.exists_cons
    rw [readBinary?_of_isDigit hc hsplit, readNumeral?_whole hdigits, Option.map_some,
      toBinary_of_isDigits]
  unfold Binary.ofInt
  cases h with
  | unsigned hdigits =>
    rw [hread hdigits hdigits.splitSign_eq, decide_eq_false (by omega), Int.natAbs_natCast]
  | plus hdigits =>
    rw [hread hdigits rfl, decide_eq_false (by omega), Int.natAbs_natCast]
  | minus hdigits =>
    rw [hread hdigits rfl, decide_eq_true (by omega), Int.natAbs_neg, Int.natAbs_natCast]

end

namespace Decimal

theorem toList_zeros (n : Nat) : (zeros n).toList = List.replicate n '0' := String.toList_ofList

theorem isDigit_of_mem_replicate {n : Nat} {c : Char} (h : c ∈ List.replicate n '0') :
    c.isDigit = true := by
  rw [(List.mem_replicate.mp h).2]
  rfl

theorem value_toDecimal {whole fraction : List Char} {n : Nat}
    (h : Nat.ofDigitChars 10 (whole ++ fraction) 0 = n) :
    (Numeral.toDecimal ⟨whole, fraction, 0⟩).value = n * 10 ^ (-(fraction.length : Int)) := by
  rw [← h, ← Int.zero_sub]
  rfl

/-- Digits that spell the value of a decimal, with a point among them if there are digits behind it. -/
def Shows (d : Decimal) (cs : List Char) : Prop :=
  ∃ whole fraction, IsDigits whole ∧ (∀ c ∈ fraction, c.isDigit = true) ∧
    cs = whole ++ (if fraction = [] then [] else '.' :: fraction) ∧
    (Numeral.toDecimal ⟨whole, fraction, 0⟩).value = d.value

theorem isDigit_of_mem_zeros_digits {d : Decimal} {n : Nat} {c : Char}
    (h : c ∈ List.replicate n '0' ++ d.digits.repr.toList) : c.isDigit = true := by
  rcases List.mem_append.mp h with hc | hc
  · exact isDigit_of_mem_replicate hc
  · exact (isDigits_repr d.digits).isDigit c hc

theorem shows_zeros_behind {d : Decimal} {n : Nat} (hn : d.exponent = n) :
    d.Shows (d.digits.repr.toList ++ List.replicate n '0') := by
  refine ⟨d.digits.repr.toList ++ List.replicate n '0', [], ⟨?_, ?_⟩, by simp, by simp, ?_⟩
  · exact List.append_ne_nil_of_left_ne_nil (isDigits_repr d.digits).ne_nil _
  · exact fun c hc => isDigit_of_mem_zeros_digits (List.mem_append.mpr (List.mem_append.mp hc).symm)
  · have hzeros : Nat.ofDigitChars 10 (d.digits.repr.toList ++ List.replicate n '0' ++ []) 0 =
        10 ^ n * d.digits := by
      rw [List.append_nil, Nat.ofDigitChars_append, Nat.ofDigitChars_replicate_zero]
      exact congrArg (10 ^ n * ·) (digitsValue_repr d.digits)
    rw [value_toDecimal hzeros, value, hn, List.length_nil, Nat.cast_zero, neg_zero, zpow_zero,
      zpow_natCast]
    push_cast
    ring

theorem shows_point {d : Decimal} {kept : Nat} (hkept : 0 < kept) (hneg : d.exponent < 0)
    (h : d.digits.repr.length = kept + (-d.exponent).toNat) :
    d.Shows (d.digits.repr.toList.take kept ++ '.' :: d.digits.repr.toList.drop kept) := by
  have hdigits := isDigits_repr d.digits
  have hlength : d.digits.repr.toList.length = d.digits.repr.length := String.length_toList
  have hne : d.digits.repr.toList.drop kept ≠ [] := by
    rw [Ne, List.drop_eq_nil_iff]
    omega
  refine ⟨d.digits.repr.toList.take kept, d.digits.repr.toList.drop kept, ⟨?_, ?_⟩, ?_, ?_, ?_⟩
  · rw [Ne, List.take_eq_nil_iff]
    rintro (hzero | hnil)
    · omega
    · exact hdigits.ne_nil hnil
  · exact fun c hc => hdigits.isDigit c (List.mem_of_mem_take hc)
  · exact fun c hc => hdigits.isDigit c (List.mem_of_mem_drop hc)
  · rw [if_neg hne]
  · have hvalue : Nat.ofDigitChars 10 (d.digits.repr.toList.take kept ++ d.digits.repr.toList.drop kept) 0 =
        d.digits := by
      rw [List.take_append_drop]
      exact digitsValue_repr d.digits
    rw [value_toDecimal hvalue, value, List.length_drop]
    congr 2
    omega

theorem shows_zeros_before {d : Decimal} {before : Nat} (hneg : d.exponent < 0)
    (h : (-d.exponent).toNat = before + d.digits.repr.length) :
    d.Shows ('0' :: '.' :: (List.replicate before '0' ++ d.digits.repr.toList)) := by
  have hlength : d.digits.repr.toList.length = d.digits.repr.length := String.length_toList
  have hne : List.replicate before '0' ++ d.digits.repr.toList ≠ [] :=
    List.append_ne_nil_of_right_ne_nil _ (isDigits_repr d.digits).ne_nil
  refine ⟨['0'], List.replicate before '0' ++ d.digits.repr.toList, ⟨by simp, by simp⟩,
    fun c hc => isDigit_of_mem_zeros_digits hc, ?_, ?_⟩
  · rw [if_neg hne]
    rfl
  · have hzeros : Nat.ofDigitChars 10 (['0'] ++ (List.replicate before '0' ++ d.digits.repr.toList)) 0 =
        d.digits := by
      have hzero : Nat.ofDigitChars 10 ['0'] 0 = 0 := rfl
      rw [Nat.ofDigitChars_append, Nat.ofDigitChars_append, hzero, Nat.ofDigitChars_replicate_zero,
        Nat.mul_zero]
      exact digitsValue_repr d.digits
    rw [value_toDecimal hzeros, value, List.length_append, List.length_replicate]
    congr 2
    omega

/-- A decimal that is written in full shows its value. -/
theorem shows_positional (d : Decimal) : d.Shows (d.positional false).toList := by
  simp only [positional, Bool.false_eq_true, if_false]
  split_ifs with hexponent hplaces
  · have hshows := d.shows_zeros_behind (Int.toNat_of_nonneg hexponent).symm
    simpa [toList_zeros] using hshows
  · have hshows := d.shows_point (Nat.sub_pos_of_lt hplaces) (Int.not_le.mp hexponent)
      (Nat.sub_add_cancel hplaces.le).symm
    simpa using hshows
  · have hshows := d.shows_zeros_before (Int.not_le.mp hexponent)
      (Nat.sub_add_cancel (Nat.le_of_not_lt hplaces)).symm
    rw [String.toList_append, String.toList_append, toList_zeros, List.append_assoc]
    exact hshows

/-- A decimal that is written in full behind a sign is read as the number nearest to it. -/
theorem readBinary?_positional {f : FloatFormat} (d : Decimal) (negative : Bool) :
    (readBinary? ((if negative then ['-'] else []) ++ (d.positional false).toList) : Option (Binary f)) =
      some (d.toBinary negative) := by
  obtain ⟨whole, fraction, hwhole, hfraction, htext, hvalue⟩ := d.shows_positional
  have hnumeral : readNumeral? (d.positional false).toList = some ⟨whole, fraction, 0⟩ := by
    rw [htext]
    split_ifs with hempty
    · rw [hempty, List.append_nil]
      exact readNumeral?_whole hwhole
    · exact readNumeral?_point hwhole hfraction
  obtain ⟨c, rest, hc, hcons⟩ : ∃ c rest, c.isDigit = true ∧ (d.positional false).toList = c :: rest := by
    obtain ⟨c, rest, hc, rfl⟩ := hwhole.exists_cons
    exact ⟨c, _, hc, htext⟩
  have hsplit : splitSign ((if negative then ['-'] else []) ++ (d.positional false).toList) =
      (negative, c :: rest) := by
    rw [hcons]
    cases negative with
    | true => rfl
    | false => exact splitSign_of_isDigit hc rest
  rw [readBinary?_of_isDigit hc hsplit, ← hcons, hnumeral, Option.map_some]
  simp only [toBinary, toWord_congr hvalue]

theorem positional_ne_nil (d : Decimal) : (d.positional false).toList ≠ [] := by
  obtain ⟨whole, fraction, hwhole, -, htext, -⟩ := d.shows_positional
  rw [htext]
  exact List.append_ne_nil_of_left_ne_nil hwhole.ne_nil _

theorem isBlank_of_mem_positional {d : Decimal} {c : Char} (hc : c ∈ (d.positional false).toList) :
    isBlank c = false := by
  obtain ⟨whole, fraction, hwhole, hfraction, htext, -⟩ := d.shows_positional
  rw [htext, List.mem_append] at hc
  rcases hc with hc | hc
  · exact isBlank_of_isDigit (hwhole.isDigit c hc)
  · split_ifs at hc
    · cases hc
    · rcases List.mem_cons.mp hc with rfl | hc
      · decide
      · exact isBlank_of_isDigit (hfraction c hc)

end Decimal

namespace Binary

variable {f g : FloatFormat}

/-- The decimal that the text of a finite number shows, without its sign. -/
def shown (x : Binary f) : Decimal := if x.isZero then ⟨0, 0⟩ else x.shortest .up

theorem toList_write {x : Binary f} (hx : x.isFinite) : (x.write .cell).toList =
    (if x.negative then ['-'] else []) ++ (x.shown.positional false).toList := by
  have hzero : (Decimal.positional ⟨0, 0⟩ false) = "0" := by decide
  have hmagnitude : (if x.isZero then (if NumberStyle.cell.keepsPoint then "0.0" else "0")
      else (x.shortest NumberStyle.cell.tie).write .cell) = x.shown.positional false := by
    unfold shown
    cases x.isZero with
    | true => exact hzero.symm
    | false => rfl
  unfold write
  rw [if_neg (not_isNaN_of_isFinite hx), if_neg (not_isInfinite_of_isFinite hx)]
  dsimp only
  rw [hmagnitude]
  cases x.negative with
  | true => exact String.toList_append
  | false => rfl

theorem rounds_shown {x : Binary f} (hx : x.isFinite) : f.Rounds x.shown.value x.word := by
  unfold shown
  split_ifs with hzero
  · have hvalue : Decimal.value ⟨0, 0⟩ = f.magnitude 0 := by
      have hunits : f.unitsOf 0 = 0 := FloatFormat.unitsOf_subnormal (Nat.two_pow_pos _)
      simp [Decimal.value, FloatFormat.magnitude, hunits]
    rw [eq_of_beq hzero, hvalue]
    exact FloatFormat.rounds_magnitude (Nat.zero_le _)
  · exact rounds_shortest hx .up

theorem readBinary?_write {x : Binary f} (hx : x.isFinite) :
    (readBinary? (x.write .cell).toList : Option (Binary g)) = some (x.shown.toBinary x.negative) := by
  rw [toList_write hx]
  exact x.shown.readBinary?_positional x.negative

theorem trimBlank_write {x : Binary f} (hx : x.isFinite) :
    trimBlank (x.write .cell).toList = (x.write .cell).toList := by
  have hne : (x.write .cell).toList ≠ [] := by
    rw [toList_write hx]
    exact List.append_ne_nil_of_right_ne_nil _ x.shown.positional_ne_nil
  have hblank : ∀ c ∈ (x.write .cell).toList, isBlank c = false := by
    intro c hc
    rw [toList_write hx, List.mem_append] at hc
    rcases hc with hc | hc
    · split_ifs at hc
      · rw [List.mem_singleton.mp hc]
        decide
      · cases hc
    · exact Decimal.isBlank_of_mem_positional hc
  have htrim : trimBlank ([] ++ (x.write .cell).toList ++ []) = (x.write .cell).toList :=
    trimBlank_append (by simp) (by simp) hne hblank
  rwa [List.nil_append, List.append_nil] at htrim

end Binary

end Gridcall
