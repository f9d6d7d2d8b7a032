import Gridcall.Proofs.Marshal.SingleRange
import Gridcall.Proofs.Number.TwoRoundings

/-!
# Single precision numbers as text

A single precision number is written with the fewest digits that tell it from the others of its
format, and its text is read as a double first.

* `encodeUsing_float_text`, `decodeUsing_float_text` : the two ways;
* `decode_encode_float_text` : a finite number comes back as it was, but for one magnitude.
-/

namespace Gridcall

theorem encodeUsing_float_text (r : Registry) (wanted : Option HostType) (x : Single) (s : MarshalState) :
    encodeUsing r (.numericText .float) wanted (.float x) s = (.ok (.string (toString x)), s) := by
  rw [encodeUsing, Outside.encodeUsing]
  rfl

theorem decodeUsing_float_text {x : Single} (hx : x.isFinite) (r : Registry)
    (required : Option ManagedType) (s : MarshalState) :
    decodeUsing r (.numericText .float) required (.string (toString x)) s =
      (.ok (.float x.throughText), s) := by
  have hread : readBinary? (trimBlank (toString x).toList) =
      some (x.shown.toBinary x.negative : Double) := by
    change readBinary? (trimBlank (x.write .cell).toList) = _
    rw [Binary.trimBlank_write hx, Binary.readBinary?_write hx]
  rw [decodeUsing_numericText, readNumber_float hread]
  rfl

/-- The text of a number from the decimal that it shows. -/
theorem Binary.toString_of_shown {f : FloatFormat} {x : Binary f} {d : Decimal} {text : String}
    (hx : x.isFinite) (hd : x.shown = d)
    (htext : (if x.negative then ['-'] else []) ++ (d.positional false).toList = text.toList) :
    toString x = text := by
  rw [← String.toList_inj, ← htext, ← hd]
  exact toList_write hx

/-- **Single precision numbers come back from text.** A finite number is encoded as its text, and the
text is decoded as the same number, bit for bit, but for `7.038531e-26` with either sign: its text is
read as the double in the middle between it and the next number, and rounded to that one. -/
theorem decode_encode_float_text {x : Single} (hx : x.isFinite) :
    (∀ r wanted s, encodeUsing r (.numericText .float) wanted (.float x) s =
      (.ok (.string (toString x)), s)) ∧
    ∀ r required s, decodeUsing r (.numericText .float) required (.string (toString x)) s =
      (.ok (.float (if x.word = 0x15AE43FD then ⟨x.negative, 0x15AE43FE, by decide⟩ else x)), s) := by
  refine ⟨fun r wanted s => encodeUsing_float_text r wanted x s, fun r required s => ?_⟩
  rw [decodeUsing_float_text hx, Binary.throughText_eq hx]

/-- A tenth below zero. -/
theorem decode_encode_float_text_tenth :
    let x : Single := ⟨true, 0x3DCCCCCD, by decide⟩
    x.isFinite ∧ toString x = "-0.1" ∧
      (∀ s, encodeUsing [] (.numericText .float) none (.float x) s = (.ok (.string "-0.1"), s)) ∧
      ∀ s, decodeUsing [] (.numericText .float) none (.string "-0.1") s = (.ok (.float x), s) := by
  intro x
  have hx : x.isFinite := by decide
  have hshown : x.shown = ⟨1, -1⟩ := by
    simp only [Binary.shown, Binary.shortest, Binary.ofLength?, Binary.readsBack, Decimal.toWord,
      Decimal.position, decimalLength_eq_toDigits]
    decide +kernel
  have htext : toString x = "-0.1" := Binary.toString_of_shown hx hshown (by decide +kernel)
  obtain ⟨hencode, hdecode⟩ := decode_encode_float_text hx
  rw [htext] at hencode hdecode
  exact ⟨hx, htext, fun s => hencode [] none s, fun s => hdecode [] none s⟩

/-- The number that comes back as the next one. -/
theorem decode_encode_float_text_next :
    let x : Single := ⟨false, 0x15AE43FD, by decide⟩
    x.isFinite ∧
      (∀ s, encodeUsing [] (.numericText .float) none (.float x) s =
        (.ok (.string "0.00000000000000000000000007038531"), s)) ∧
      ∀ s, decodeUsing [] (.numericText .float) none (.string "0.00000000000000000000000007038531") s =
        (.ok (.float ⟨false, 0x15AE43FE, by decide⟩), s) := by
  intro x
  have hx : x.isFinite := by decide
  have hshown : x.shown = ⟨7038531, -32⟩ := by
    simp only [Binary.shown, Binary.shortest, Binary.ofLength?, Binary.readsBack, Decimal.toWord,
      Decimal.position, decimalLength_eq_toDigits]
    decide +kernel
  have htext : toString x = "0.00000000000000000000000007038531" :=
    Binary.toString_of_shown hx hshown (by decide +kernel)
  rw [← htext]
  refine ⟨hx, fun s => encodeUsing_float_text [] none x s, fun s => ?_⟩
  rw [decodeUsing_float_text hx, Binary.throughText_eq hx]
  rfl

end Gridcall
