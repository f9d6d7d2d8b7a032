import Gridcall.Proofs.Marshal.IntegerRange
import Gridcall.Proofs.Marshal.RoundTrip

/-!
# Longs as numbers

A long travels as the double nearest to it. Up to two to the 53 it comes back as it was, and beyond as
the nearest long that is a double; only two to the 63, which is no long, comes back as the greatest one.

* `Binary.abs_nearestInteger_sub_le` : the double nearest to a long is at most 512 away;
* `throughNumber` : the long that comes back;
* `decode_encode_long` : how it relates to the long that was sent.
-/

namespace Gridcall

namespace FloatFormat

/-- Every multiple of 1024 up to two to the 63 is a double. -/
theorem exists_magnitude_of_multiple {m : Nat} (hm : m ≤ 2 ^ 53) :
    ∃ w, double.magnitude w = (m * 1024 : Nat) := by
  rcases Nat.lt_or_eq_of_le hm with hlt | rfl
  · obtain ⟨w, -, hunits⟩ := double.exists_word hlt (double.unitExponent + 10) (by decide)
    refine ⟨w, ?_⟩
    rw [magnitude, hunits, div_eq_iff double.scale_pos'.ne', scale_eq, Nat.pow_add]
    push_cast
    ring
  · exact ⟨word63, by rw [magnitude_word63]; norm_num⟩

end FloatFormat

namespace Binary

variable {i : Int}

theorem magnitude_ofInt_le (hi : i.natAbs ≤ 2 ^ 63) :
    FloatFormat.double.magnitude (ofInt i : Double).word ≤ 2 ^ 63 := by
  rw [← FloatFormat.magnitude_word63]
  refine FloatFormat.double.magnitude_strictMono.monotone ((rounds_ofInt i).mono
    (FloatFormat.rounds_magnitude (by decide)) ?_)
  rw [FloatFormat.magnitude_word63]
  exact_mod_cast hi

theorem isFinite_ofInt (hi : i.natAbs ≤ 2 ^ 63) : (ofInt i : Double).isFinite := by
  have hle := magnitude_ofInt_le hi
  rw [← FloatFormat.magnitude_word63, FloatFormat.double.magnitude_strictMono.le_iff_le] at hle
  exact decide_eq_true (Nat.lt_of_le_of_lt hle (by decide))

theorem natAbs_nearestInteger_le (hi : i.natAbs ≤ 2 ^ 63) : (nearestInteger i).natAbs ≤ 2 ^ 63 := by
  have hle := magnitude_ofInt_le hi
  rw [← natAbs_nearestInteger] at hle
  exact_mod_cast hle

/-- Up to two to the 63 the double nearest to an integer is at most 512 away: it is not farther than the
nearest multiple of 1024. -/
theorem abs_nearestInteger_sub_le (hi : i.natAbs ≤ 2 ^ 63) : |nearestInteger i - i| ≤ 512 := by
  obtain ⟨w, hw⟩ := FloatFormat.exists_magnitude_of_multiple (m := (i.natAbs + 512) / 1024) (by omega)
  have hnearest := (rounds_ofInt i).abs_sub_le (of_decide_eq_true (isFinite_ofInt hi)) w
  rw [← natAbs_nearestInteger, hw] at hnearest
  have hmultiple : |(((i.natAbs + 512) / 1024 * 1024 : Nat) : Int) - i.natAbs| ≤ 512 := by
    rw [abs_le]
    constructor <;> omega
  have hmagnitude : |((nearestInteger i).natAbs : Int) - i.natAbs| ≤ 512 :=
    le_trans (by exact_mod_cast hnearest) hmultiple
  have hsign := nearestInteger_neg_iff (i := i)
  rw [abs_le] at hmagnitude ⊢
  constructor <;> omega

end Binary

/-! ## There and back -/

/-- The long that comes back from the double nearest to a long. -/
def throughNumber (v : Int64) : Int64 := .ofInt (min (Binary.nearestInteger v.toInt) (2 ^ 63 - 1))

theorem natAbs_toInt_le (v : Int64) : v.toInt.natAbs ≤ 2 ^ 63 := by
  have hlow := v.le_toInt
  have hhigh := v.toInt_lt
  omega

theorem toInt_throughNumber (v : Int64) :
    (throughNumber v).toInt = min (Binary.nearestInteger v.toInt) (2 ^ 63 - 1) := by
  have hle := Binary.natAbs_nearestInteger_le (natAbs_toInt_le v)
  exact Int64.toInt_ofInt_of_le (by omega) (by omega)

theorem narrowDouble_long_ofInt (v : Int64) :
    narrowDouble .long (.ofInt v.toInt) = .ok (.long (throughNumber v)) := by
  have hle := Binary.natAbs_nearestInteger_le (natAbs_toInt_le v)
  have hpart : (Binary.ofInt v.toInt : Double).truncate? = some (Binary.nearestInteger v.toInt) :=
    Binary.truncate?_ofInt_eq (Binary.isFinite_ofInt (natAbs_toInt_le v))
  rw [narrowDouble_of_some hpart, if_pos rfl]
  unfold throughNumber
  by_cases hbound : Binary.nearestInteger v.toInt ≤ 2 ^ 63 - 1
  · have hcontains : IntegerKind.long.contains (Binary.nearestInteger v.toInt) = true :=
      IntegerKind.contains_iff.mpr ⟨(by omega : -2 ^ 63 ≤ Binary.nearestInteger v.toInt), hbound⟩
    rw [if_pos hcontains, min_eq_left hbound]
    rfl
  · have hcontains : ¬ IntegerKind.long.contains (Binary.nearestInteger v.toInt) = true :=
      fun h => hbound (IntegerKind.contains_iff.mp h).2
    rw [if_neg hcontains, if_pos (by omega), min_eq_right (by omega)]
    rfl

theorem throughNumber_of_natAbs_le {v : Int64} (hv : v.toInt.natAbs ≤ 2 ^ 53) : throughNumber v = v := by
  rw [← Int64.toInt_inj, toInt_throughNumber, Binary.nearestInteger_of_natAbs_le hv]
  omega

theorem abs_toInt_throughNumber_sub_le (v : Int64) : |(throughNumber v).toInt - v.toInt| ≤ 512 := by
  have hnear := Binary.abs_nearestInteger_sub_le (natAbs_toInt_le v)
  have hhigh := v.toInt_lt
  rw [toInt_throughNumber]
  rw [abs_le] at hnear ⊢
  constructor <;> omega

theorem throughNumber_mono {v v' : Int64} (h : v ≤ v') : throughNumber v ≤ throughNumber v' := by
  rw [Int64.le_iff_toInt_le] at h ⊢
  rw [toInt_throughNumber, toInt_throughNumber]
  exact min_le_min_right _ (Binary.nearestInteger_mono h)

/-- What came back is sent as the same number. -/
theorem ofInt_throughNumber (v : Int64) :
    (.ofInt (throughNumber v).toInt : Double) = .ofInt v.toInt := by
  have hle := Binary.natAbs_nearestInteger_le (natAbs_toInt_le v)
  rw [toInt_throughNumber]
  by_cases hbound : Binary.nearestInteger v.toInt ≤ 2 ^ 63 - 1
  · rw [min_eq_left hbound, Binary.ofInt_nearestInteger]
  · have htop : Binary.nearestInteger v.toInt = 2 ^ 63 := by omega
    have hsame : (Binary.ofInt (2 ^ 63 - 1) : Double) = Binary.ofInt (2 ^ 63) := by decide +kernel
    rw [min_eq_right (by omega), hsame, ← htop, Binary.ofInt_nearestInteger]

/-- A long is encoded as a number, and the number is decoded as a long, by the converter for longs and
by the standard converters. -/
structure Travels (v : Int64) (x : Double) (w : Int64) : Prop where
  encoded : ∀ r wanted s, encodeUsing r (.number .long) wanted (.long v) s = (.ok (.number x), s)
  decoded : ∀ r required s, decodeUsing r (.number .long) required (.number x) s = (.ok (.long w), s)
  encoded_standard : onHeap (encode Converter.defaults (.long v)) = pure (.number x)
  decoded_standard : onHeap (decode Converter.defaults (.number x) .long) = pure (.long w)

theorem travels (v : Int64) : Travels v (.ofInt v.toInt) (throughNumber v) := by
  have hencode : ∀ r wanted,
      encodeUsing r (.number .long) wanted (.long v) = pure (.number (.ofInt v.toInt)) := by
    intro r wanted
    rw [encodeUsing, Outside.encodeUsing]
    rfl
  have hdecode : ∀ r required s, decodeUsing r (.number .long) required (.number (.ofInt v.toInt)) s =
      (.ok (.long (throughNumber v)), s) := by
    intro r required s
    rw [decodeUsing_number, ← narrowDouble_long_ofInt]
    rfl
  have hpick : Converter.standardDecoder? (HostValue.number (.ofInt v.toInt)).hostType .long =
      some (.number .long) := Converter.standardDecoder?_number rfl
  refine ⟨fun r wanted s => by rw [hencode]; rfl, hdecode, encode_eq_pure rfl (hencode _ _), ?_⟩
  rw [onHeap_decode_of hpick]
  exact onHeap_eq_pure (hdecode _ _)

/-- **Longs survive as numbers as well as doubles allow.** A long is encoded as the double nearest to it,
and the double is decoded as a long again. Up to two to the 53 the long comes back as it was, and always
one comes back that is at most 512 away. It is encoded as the same number, so that another way there and
back changes nothing, and the order of longs is kept. -/
theorem decode_encode_long (v : Int64) :
    Travels v (.ofInt v.toInt) (throughNumber v) ∧
      (v.toInt.natAbs ≤ 2 ^ 53 → throughNumber v = v) ∧
      |(throughNumber v).toInt - v.toInt| ≤ 512 ∧
      Travels (throughNumber v) (.ofInt v.toInt) (throughNumber v) ∧
      ∀ v', v ≤ v' → throughNumber v ≤ throughNumber v' := by
  have hback := travels (throughNumber v)
  rw [ofInt_throughNumber] at hback
  have hthere := travels v
  refine ⟨hthere, throughNumber_of_natAbs_le, abs_toInt_throughNumber_sub_le v, ?_,
    fun _ => throughNumber_mono⟩
  exact ⟨hback.encoded, hthere.decoded, hback.encoded_standard, hthere.decoded_standard⟩

/-- The first long that is no double is a tie and goes to the even neighbour. The greatest long comes back. -/
example : throughNumber 9007199254740993 = 9007199254740992 ∧
    throughNumber Int64.maxValue = Int64.maxValue := by
  decide +kernel

end Gridcall
