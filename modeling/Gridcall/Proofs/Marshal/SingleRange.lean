import Gridcall.Proofs.Marshal.Cells
import Gridcall.Proofs.Number.Rounding

/-!
# Single precision numbers from doubles

A double that is decoded as a single precision number is rounded to the nearest one, however large it
is: what lies beyond the range becomes an infinity and is not refused.

* `single_midpoint_last` : the midpoint behind the greatest single precision number;
* `decode_single_of_isFinite` : what becomes of a finite double, and of a text that reads as one.
-/

namespace Gridcall

namespace FloatFormat

theorem magnitude_single_infinityWord : single.magnitude single.infinityWord = 2 ^ 128 := by
  have hword : single.infinityWord = (single.unitExponent + 105 + 1) * 2 ^ single.fractionBits + 0 := rfl
  rw [hword, magnitude_whole _ _ (by decide)]
  norm_num [single]

/-- The midpoint behind the greatest single precision number. -/
theorem single_midpoint_last : single.midpoint (single.infinityWord - 1) = 2 ^ 128 - 2 ^ 103 := by
  have hword : single.infinityWord - 1 =
      (single.unitExponent + 104 + 1) * 2 ^ single.fractionBits + (2 ^ 23 - 1) := rfl
  have hnext : single.infinityWord - 1 + 1 = single.infinityWord := rfl
  rw [midpoint, hnext, magnitude_single_infinityWord, hword, magnitude_whole _ _ (by decide)]
  norm_num [single]

end FloatFormat

namespace Binary

variable {n : Double}

/-- A finite double becomes a finite single precision number if it lies before the last midpoint. On the
midpoint the even word is that of infinity. -/
theorem isFinite_convert_iff (hn : n.isFinite) :
    (n.convert : Single).isFinite ↔ |n.value| < 2 ^ 128 - 2 ^ 103 := by
  have hrounds := rounds_convert (g := .single) hn
  have hodd : (FloatFormat.single.infinityWord - 1) % 2 = 1 := by decide
  have hpasses : FloatFormat.single.Passes (FloatFormat.single.infinityWord - 1)
      (FloatFormat.double.magnitude n.word) ↔ ¬ |n.value| < 2 ^ 128 - 2 ^ 103 := by
    rw [FloatFormat.Passes, FloatFormat.single_midpoint_last, abs_value, not_lt, le_iff_lt_or_eq,
      and_iff_left hodd]
  have hword : (n.convert : Single).word < FloatFormat.single.infinityWord ↔
      ¬ FloatFormat.single.infinityWord - 1 < (n.convert : Single).word := by
    have hpos : 0 < FloatFormat.single.infinityWord := by decide
    omega
  have hlast : FloatFormat.single.infinityWord - 1 < FloatFormat.single.infinityWord := by decide
  rw [isFinite, decide_eq_true_eq, hword, hrounds, hpasses, and_iff_right hlast, not_not]

theorem isInfinite_convert_iff (hn : n.isFinite) :
    (n.convert : Single).isInfinite ↔ 2 ^ 128 - 2 ^ 103 ≤ |n.value| := by
  have hle := (rounds_convert (g := .single) hn).le_infinityWord
  rw [← not_lt, ← isFinite_convert_iff hn, isInfinite, beq_iff_eq, isFinite, decide_eq_true_eq]
  omega

end Binary

/-- Text that reads as a number is narrowed as that number. -/
theorem readNumber_float {text : String} {n : Double} (h : readBinary? (trimBlank text.toList) = some n) :
    readNumber .float text = .ok (.float n.convert) := by
  unfold readNumber
  simp only [h]
  rfl

/-- **Finite doubles become the nearest single precision numbers, or infinities.** Decoding a finite
double as a single precision number succeeds, whether it comes as a number or as a text that reads as
one, and so it does with the standard converters. Below the midpoint behind the greatest single
precision number the answer is a finite number with no other nearer; from there on it is the infinity
of the same sign. -/
theorem decode_single_of_isFinite {n : Double} (hn : n.isFinite) : ∃ x : Single,
    (∀ r required s,
      decodeUsing r (.number .float) required (.number n) s = (.ok (.float x), s)) ∧
    (onHeap (decode Converter.defaults (.number n) .float) = pure (.float x)) ∧
    (∀ text, readBinary? (trimBlank text.toList) = some n →
      (∀ r required s,
        decodeUsing r (.numericText .float) required (.string text) s = (.ok (.float x), s)) ∧
      onHeap (decode Converter.defaults (.string text) .float) = pure (.float x)) ∧
    x.negative = n.negative ∧
    (|n.value| < 2 ^ 128 - 2 ^ 103 →
      x.isFinite ∧ ∀ z : Single, z.isFinite → |x.value - n.value| ≤ |z.value - n.value|) ∧
    (2 ^ 128 - 2 ^ 103 ≤ |n.value| → x.isInfinite) := by
  have hnumber : ∀ r required s,
      decodeUsing r (.number .float) required (.number n) s = (.ok (.float n.convert), s) :=
    fun r required s => decodeUsing_number r .float required n s
  refine ⟨n.convert, hnumber, ?_, fun text htext => ?_, Binary.negative_convert hn, fun hrange => ?_,
    (Binary.isInfinite_convert_iff hn).mpr⟩
  · have hpick : Converter.standardDecoder? (HostValue.number n).hostType .float =
        some (.number .float) := Converter.standardDecoder?_number rfl
    rw [onHeap_decode_of hpick]
    exact onHeap_eq_pure (hnumber _ _)
  · have hread : ∀ r required s, decodeUsing r (.numericText .float) required (.string text) s =
        (.ok (.float n.convert), s) := fun r required s => by
      rw [decodeUsing_numericText, readNumber_float htext]
    refine ⟨hread, ?_⟩
    have hpick : Converter.standardDecoder? (HostValue.string text).hostType .float =
        some (.numericText .float) := Converter.standardDecoder?_numericText rfl
    rw [onHeap_decode_of hpick]
    exact onHeap_eq_pure (hread _ _)
  · have hfinite := (Binary.isFinite_convert_iff hn).mpr hrange
    exact ⟨hfinite, fun z _ => Binary.abs_value_convert_sub_le hn hfinite z⟩

/-- A tenth lies in the range, and as a text it is no multiple of a power of two. -/
theorem decode_single_of_isFinite_tenth :
    let n : Double := ⟨false, 0x3FB999999999999A, by decide⟩
    n.isFinite ∧ |n.value| < 2 ^ 128 - 2 ^ 103 ∧
      readBinary? (trimBlank " 0.1".toList) = some n ∧ ∃ x : Single, x.isFinite ∧
        onHeap (decode Converter.defaults (.number n) .float) = pure (.float x) ∧
        onHeap (decode Converter.defaults (.string " 0.1") .float) = pure (.float x) ∧
        ∀ z : Single, z.isFinite → |x.value - n.value| ≤ |z.value - n.value| := by
  intro n
  have hn : n.isFinite := by decide
  have hrange : |n.value| < 2 ^ 128 - 2 ^ 103 :=
    (Binary.isFinite_convert_iff hn).mp (by decide +kernel)
  have htext : readBinary? (trimBlank " 0.1".toList) = some n := by decide +kernel
  obtain ⟨x, -, hnumber, hread, -, hnearest, -⟩ := decode_single_of_isFinite hn
  exact ⟨hn, hrange, htext, x, (hnearest hrange).1, hnumber, (hread _ htext).2, (hnearest hrange).2⟩

/-- Ten to the 39 is a finite double, as a number and as a text, and becomes infinity. -/
theorem decode_single_infinity :
    let n : Double := ⟨false, 0x48078287F49C4A1D, by decide⟩
    n.isFinite ∧ readBinary? (trimBlank "1e39".toList) = some n ∧
      (∀ s, decodeUsing [] (.number .float) none (.number n) s = (.ok (.float (.infinity false)), s)) ∧
      ∀ s, decodeUsing [] (.numericText .float) none (.string "1e39") s =
        (.ok (.float (.infinity false)), s) := by
  intro n
  have hconvert : (n.convert : Single) = .infinity false := by decide +kernel
  have htext : readBinary? (trimBlank "1e39".toList) = some n := by decide +kernel
  refine ⟨by decide, htext, fun s => ?_, fun s => ?_⟩
  · rw [← hconvert]
    exact decodeUsing_number [] .float none n s
  · rw [decodeUsing_numericText, readNumber_float htext, hconvert]

end Gridcall
