import Gridcall.Json.Shape
import Gridcall.Json.Token
import Mathlib

/-!
# Numbers in JSON texts

Integers are read back from their digits, and a text that spells a number is a single word.

* `NumberParts.IsWhole` : digits without leading zeros. The digits of a natural number are such;
* `integer?_ofInt` : an integer is read back; below it the machine integers, within their bounds;
* `isWordChar_of_ofChars?` : a text that spells a number consists of the characters of words.
-/

namespace Gridcall

/-- A check that is passed. -/
theorem guard_bind {α : Type} {p : Prop} [Decidable p] (h : p) (next : Unit → Option α) :
    (guard p >>= next) = next () := by
  rw [guard, if_pos h]
  rfl

namespace NumberParts

/-! ## Digits -/

/-- Digits as a natural number is written: a zero stands first only if it stands alone. -/
structure IsWhole (digits : List Char) : Prop where
  ne_nil : digits ≠ []
  isDigit : ∀ c ∈ digits, c.isDigit = true
  first : digits = ['0'] ∨ digits.head? ≠ some '0'

theorem digitChar_ne_zero : ∀ n < 10, n ≠ 0 → n.digitChar ≠ '0' := by decide

theorem head?_toDigits_ne {n : Nat} (h : n ≠ 0) : (Nat.toDigits 10 n).head? ≠ some '0' := by
  induction n using Nat.strongRecOn with
  | ind n ih =>
    rw [Nat.toDigits_eq_if (by decide)]
    split
    · next hlt => simpa using digitChar_ne_zero n hlt h
    · next hle =>
      rw [List.head?_append_of_ne_nil _ Nat.toDigits_ne_nil]
      exact ih (n / 10) (by omega) (by omega)

theorem isWhole_toDigits (n : Nat) : IsWhole (Nat.toDigits 10 n) where
  ne_nil := Nat.toDigits_ne_nil
  isDigit c hc := Nat.isDigit_of_mem_toDigits (by decide) (by decide) hc
  first := by
    by_cases h : n = 0
    · subst h
      exact .inl (Nat.toDigits_zero 10)
    · exact .inr (head?_toDigits_ne h)

theorem natural_toDigits (n : Nat) : natural (Nat.toDigits 10 n) = n := Nat.ofDigitChars_ten_toDigits

variable {digits : List Char}

theorem splitWhole?_of_isWhole (h : IsWhole digits) : splitWhole? digits = some (digits, []) := by
  have hsplit : splitDigits? digits = some (digits, []) := by
    have htake : digits.takeWhile Char.isDigit = digits := List.takeWhile_eq_self_iff.mpr h.isDigit
    have hdrop : digits.dropWhile Char.isDigit = [] := List.dropWhile_eq_nil_iff.mpr h.isDigit
    simp [splitDigits?, htake, hdrop, h.ne_nil]
  have hfirst : (digits == ['0'] || digits.head? != some '0') = true := by
    simpa using h.first
  rw [splitWhole?, hsplit]
  exact guard_bind hfirst _

theorem ofChars?_of_isWhole (h : IsWhole digits) : ofChars? digits = some ⟨false, digits, none, none⟩ := by
  have hsplit := splitWhole?_of_isWhole h
  cases digits with
  | nil => exact absurd rfl h.ne_nil
  | cons c cs =>
    have hsign : c ≠ '-' := by
      rintro rfl
      exact absurd (h.isDigit _ List.mem_cons_self) (by decide)
    simp [ofChars?, hsplit, hsign, splitFraction?, readExponentPart?]

theorem ofChars?_neg_of_isWhole (h : IsWhole digits) :
    ofChars? ('-' :: digits) = some ⟨true, digits, none, none⟩ := by
  simp [ofChars?, splitWhole?_of_isWhole h, splitFraction?, readExponentPart?]

end NumberParts

/-! ## Integers -/

namespace Json

open NumberParts

theorem parts?_ofInt (i : Int) :
    (ofInt i).parts? = some ⟨decide (i < 0), Nat.toDigits 10 i.natAbs, none, none⟩ := by
  show NumberParts.ofChars? (toString i).toList = _
  cases i with
  | ofNat n =>
    have htext : (toString (Int.ofNat n)).toList = Nat.toDigits 10 n := Nat.toList_repr
    rw [htext, ofChars?_of_isWhole (isWhole_toDigits n)]
    simp
  | negSucc n =>
    have htext : (toString (Int.negSucc n)).toList = '-' :: Nat.toDigits 10 (n + 1) := by
      show ("-" ++ (n + 1).repr).toList = _
      rw [String.toList_append, Nat.toList_repr]
      rfl
    rw [htext, ofChars?_neg_of_isWhole (isWhole_toDigits _)]
    simp

theorem integer?_ofInt (i : Int) : (ofInt i).integer? = some i := by
  rw [integer?, parts?_ofInt, Option.bind_some, toInteger?]
  simp only [natural_toDigits]
  split
  · next h =>
    have hneg : i < 0 := of_decide_eq_true h
    rw [if_neg (by omega)]
    congr 1
    omega
  · next h =>
    have hpos : ¬ i < 0 := of_decide_eq_false (Bool.eq_false_iff.mpr h)
    congr 1
    omega

theorem naturalBelow?_ofInt {bound n : Nat} (h : n < bound) : (ofInt n).naturalBelow? bound = some n := by
  simp [naturalBelow?, integer?_ofInt, h]

theorem uint8?_ofInt (n : UInt8) : (ofInt n.toNat).uint8? = some n := by
  simp [uint8?, naturalBelow?_ofInt n.toNat_lt]

theorem uint32?_ofInt (n : UInt32) : (ofInt n.toNat).uint32? = some n := by
  simp [uint32?, naturalBelow?_ofInt n.toNat_lt]

theorem uint64?_ofInt (n : UInt64) : (ofInt n.toNat).uint64? = some n := by
  simp [uint64?, naturalBelow?_ofInt n.toNat_lt]

theorem int64?_ofInt (i : Int64) : (ofInt i.toInt).int64? = some i := by
  have hbounds : (decide (Int64.minValue.toInt ≤ i.toInt) &&
      decide (i.toInt ≤ Int64.maxValue.toInt)) = true := by
    simp only [Bool.and_eq_true, decide_eq_true_eq]
    exact ⟨i.minValue_le_toInt, i.toInt_le⟩
  rw [int64?, integer?_ofInt]
  exact (guard_bind hbounds _).trans (congrArg some i.ofInt_toInt)

end Json

/-! ## Numbers as words -/

namespace NumberParts

open Json (isWordChar)

theorem isWordChar_of_isDigit {c : Char} (h : c.isDigit = true) : isWordChar c = true := by
  simp [isWordChar, Char.isAlphanum, h]

/-- What is left after some characters of words. -/
def Leaves (cs rest : List Char) : Prop := ∃ word, cs = word ++ rest ∧ ∀ c ∈ word, isWordChar c = true

theorem Leaves.refl (cs : List Char) : Leaves cs cs := ⟨[], rfl, by simp⟩

theorem Leaves.cons {c : Char} {cs rest : List Char} (hc : isWordChar c = true) (h : Leaves cs rest) :
    Leaves (c :: cs) rest := by
  obtain ⟨word, rfl, hword⟩ := h
  refine ⟨c :: word, rfl, ?_⟩
  rintro d hd
  rcases List.mem_cons.mp hd with rfl | hd
  · exact hc
  · exact hword d hd

theorem Leaves.trans {cs cs' rest : List Char} (h : Leaves cs cs') (h' : Leaves cs' rest) :
    Leaves cs rest := by
  obtain ⟨word, rfl, hword⟩ := h
  obtain ⟨word', rfl, hword'⟩ := h'
  refine ⟨word ++ word', (List.append_assoc _ _ _).symm, ?_⟩
  rintro c hc
  rcases List.mem_append.mp hc with hc | hc
  · exact hword c hc
  · exact hword' c hc

variable {cs rest digits : List Char}

theorem leaves_of_splitDigits? (h : splitDigits? cs = some (digits, rest)) : Leaves cs rest := by
  unfold splitDigits? at h
  dsimp only at h
  split at h
  · cases h
  · cases h
    refine ⟨cs.takeWhile Char.isDigit, List.takeWhile_append_dropWhile.symm, fun c hc => ?_⟩
    exact isWordChar_of_isDigit (List.mem_takeWhile_imp hc)

theorem leaves_of_splitWhole? (h : splitWhole? cs = some (digits, rest)) : Leaves cs rest := by
  simp only [splitWhole?, Option.bind_eq_bind, Option.bind_eq_some_iff] at h
  obtain ⟨⟨digits', rest'⟩, hsplit, -, -, heq⟩ := h
  cases heq
  exact leaves_of_splitDigits? hsplit

theorem leaves_of_splitFraction? {fraction : Option (List Char)}
    (h : splitFraction? cs = some (fraction, rest)) : Leaves cs rest := by
  unfold splitFraction? at h
  split at h
  · obtain ⟨⟨digits, rest'⟩, hsplit, heq⟩ := Option.bind_eq_some_iff.mp h
    cases heq
    exact .cons rfl (leaves_of_splitDigits? hsplit)
  · cases h
    exact .refl cs

/-- The sign of an exponent, and what follows it. -/
theorem leaves_of_sign (cs : List Char) : Leaves cs (match cs with
    | '-' :: cs => (true, cs)
    | '+' :: cs => (false, cs)
    | cs => (false, cs)).2 := by
  split
  · exact .cons rfl (.refl _)
  · exact .cons rfl (.refl _)
  · exact .refl _

theorem leaves_of_readExponentPart? {exponent : Option (Bool × List Char)}
    (h : readExponentPart? cs = some exponent) : Leaves cs [] := by
  unfold readExponentPart? at h
  split at h
  · exact .refl []
  · next c cs =>
    simp only [Option.bind_eq_bind, Option.bind_eq_some_iff, Option.guard_eq_some'] at h
    obtain ⟨-, hletter, ⟨digits, rest⟩, hsplit, -, hrest, -⟩ := h
    have hc : isWordChar c = true := by
      rcases Bool.or_eq_true_iff.mp hletter with h | h <;> (obtain rfl := eq_of_beq h; rfl)
    obtain rfl : rest = [] := List.isEmpty_iff.mp hrest
    exact .cons hc ((leaves_of_sign cs).trans (leaves_of_splitDigits? hsplit))

/-- The sign of a number, and what follows it. -/
theorem leaves_of_minus (cs : List Char) : Leaves cs (match cs with
    | '-' :: cs => (true, cs)
    | cs => (false, cs)).2 := by
  split
  · exact .cons rfl (.refl _)
  · exact .refl _

/-- A text that spells a number consists of the characters of words. -/
theorem isWordChar_of_ofChars? {p : NumberParts} (h : ofChars? cs = some p) :
    ∀ c ∈ cs, isWordChar c = true := by
  simp only [ofChars?, Option.bind_eq_bind, Option.bind_eq_some_iff] at h
  obtain ⟨⟨whole, cs₁⟩, hwhole, ⟨fraction, cs₂⟩, hfraction, exponent, hexponent, -⟩ := h
  have hleaves : Leaves cs [] := (((leaves_of_minus cs).trans (leaves_of_splitWhole? hwhole)).trans
    (leaves_of_splitFraction? hfraction)).trans (leaves_of_readExponentPart? hexponent)
  obtain ⟨word, rfl, hword⟩ := hleaves
  rwa [List.append_nil]

end NumberParts

end Gridcall
