import Gridcall.Managed.Reading
import Gridcall.Proofs.Marshal.LongNumbers
import Gridcall.Proofs.Number.Amount

/-!
# Numbers read from managed values

A callable reads numbers in the type that it wants, alone or inside options and lists, however deep. What
it reads has the shape of the value, and stands for the same numbers, with one exception: a long that is
read as a double is rounded, and beyond two to the 53 the double may be another number.

* `Managed.amount?` : what the numbers among the managed values stand for;
* `ReadKind.IsNumeric`, `ReadKind.Fits` : the kinds in question, and the values that they take;
* `ReadKind.Mirrors` : what was read mirrors the value, shape and numbers;
* `Widened` : a managed number and the double that is read from it;
* `read_numeric` : what is read mirrors the value, and what fits is read.
-/

namespace Gridcall

def Managed.amount? : Managed → Option Amount
  | byte i => some (.finite i.toInt)
  | short i => some (.finite i.toInt)
  | int i => some (.finite i.toInt)
  | long i => some (.finite i.toInt)
  | float x => some x.amount
  | double x => some x.amount
  | _ => none

namespace ReadKind

/-- Numbers, alone or inside options and lists. -/
inductive IsNumeric : ReadKind → Prop
  | byte : IsNumeric byte
  | short : IsNumeric short
  | int : IsNumeric int
  | long : IsNumeric long
  | float : IsNumeric float
  | double : IsNumeric double
  | option {kind : ReadKind} (h : IsNumeric kind) : IsNumeric (option kind)
  | list {kind : ReadKind} (h : IsNumeric kind) : IsNumeric (list kind)

def sources : ReadKind → List ManagedType
  | byte => [.byte]
  | short => [.byte, .short]
  | int => [.byte, .short, .int]
  | long => [.byte, .short, .int, .long]
  | float => [.byte, .short, .float]
  | double => [.byte, .short, .int, .long, .float, .double]
  | _ => []

/-- A value has the shape that a kind asks for, with numbers that the kind takes. -/
def Fits : ReadKind → Managed → Prop
  | option kind, v => v = .null ∨ kind.Fits v
  | list kind, v => ∃ element items, v = .array element items ∧ ∀ item ∈ items, kind.Fits item
  | kind, v => ∃ type ∈ kind.sources, v.runtimeType? = some type

/-- What was read mirrors a value: nothing stands for null alone, a list has one member for each item in
order, and a number stands for what the managed number stands for. Of doubles it is said by `double`. -/
def Mirrors (double : Managed → Double → Prop) : (kind : ReadKind) → Managed → kind.Carrier → Prop
  | .byte, v, i => v.amount? = some (.finite (i.toInt : ℚ))
  | .short, v, i => v.amount? = some (.finite (i.toInt : ℚ))
  | .int, v, i => v.amount? = some (.finite (i.toInt : ℚ))
  | .long, v, i => v.amount? = some (.finite (i.toInt : ℚ))
  | .float, v, x => v.amount? = some x.amount
  | .double, v, x => double v x
  | .option _, v, none => v = .null
  | .option kind, v, some x => v ≠ .null ∧ kind.Mirrors double v x
  | .list kind, v, xs =>
    ∃ element items, v = .array element items ∧ List.Forall₂ (kind.Mirrors double) items xs
  | _, _, _ => False

end ReadKind

/-- A double stands for what a managed number stands for. -/
def Exactly (v : Managed) (x : Double) : Prop := v.amount? = some x.amount

/-- A double is read from a managed number: it stands for the same, or the number is a long of more bits
than a double has and the double is the integer nearest to it that is one. -/
inductive Widened : Managed → Double → Prop
  | exact {v : Managed} {x : Double} (h : Exactly v x) : Widened v x
  | rounded {i : Int64} {x : Double} (hlong : 2 ^ 53 < i.toInt.natAbs)
      (hx : x.amount = .finite (Binary.nearestInteger i.toInt))
      (hnear : |Binary.nearestInteger i.toInt - i.toInt| ≤ 512) : Widened (.long i) x

variable {v : Managed} {kind : ReadKind}

/-! ## Numbers -/

theorem natAbs_toInt_byte_lt (i : Int8) : i.toInt.natAbs < 2 ^ 24 := by
  have hlow := i.le_toInt
  have hhigh := i.toInt_lt
  omega

theorem natAbs_toInt_short_lt (i : Int16) : i.toInt.natAbs < 2 ^ 24 := by
  have hlow := i.le_toInt
  have hhigh := i.toInt_lt
  omega

theorem natAbs_toInt_int_lt (i : Int32) : i.toInt.natAbs < 2 ^ 53 := by
  have hlow := i.le_toInt
  have hhigh := i.toInt_lt
  omega

theorem amount_ofInt_long (i : Int64) :
    (.ofInt i.toInt : Double).amount = .finite (Binary.nearestInteger i.toInt) := by
  rw [Binary.amount_of_isFinite (Binary.isFinite_ofInt (natAbs_toInt_le i)), Binary.value_ofInt]

theorem widened_long (i : Int64) : Widened (.long i) (.ofInt i.toInt) := by
  rcases Nat.lt_or_ge (2 ^ 53) i.toInt.natAbs with hlarge | hsmall
  · exact .rounded hlarge (amount_ofInt_long i) (Binary.abs_nearestInteger_sub_le (natAbs_toInt_le i))
  · refine .exact ?_
    unfold Exactly
    rw [amount_ofInt_long, Binary.nearestInteger_of_natAbs_le hsmall]
    rfl

/-- Integers of two bytes are singles, -/
theorem amount_ofInt_single {i : Int} (hi : i.natAbs < 2 ^ 24) : (.ofInt i : Single).amount = .finite i :=
  Binary.amount_ofInt (by decide) hi

/-- and those of four bytes are doubles. -/
theorem exactly_ofInt {i : Int} (hv : v.amount? = some (.finite i)) (hi : i.natAbs < 2 ^ 53) :
    Exactly v (.ofInt i) := by
  unfold Exactly
  rw [hv, Binary.amount_ofInt (by decide) hi]

theorem widened_of_toDouble? {x : Double} (h : v.toDouble? = some x) : Widened v x := by
  cases v with
  | byte i =>
    obtain rfl := Option.some.inj h
    exact .exact (exactly_ofInt rfl ((natAbs_toInt_byte_lt i).trans (by decide)))
  | short i =>
    obtain rfl := Option.some.inj h
    exact .exact (exactly_ofInt rfl ((natAbs_toInt_short_lt i).trans (by decide)))
  | int i =>
    obtain rfl := Option.some.inj h
    exact .exact (exactly_ofInt rfl (natAbs_toInt_int_lt i))
  | long i =>
    obtain rfl := Option.some.inj h
    exact widened_long i
  | float x =>
    obtain rfl := Option.some.inj h
    exact .exact (congrArg some (Binary.amount_convert FloatFormat.single_widens_double x).symm)
  | double x =>
    obtain rfl := Option.some.inj h
    exact .exact rfl
  | _ => cases h

theorem amount?_of_toInt64? {i : Int64} (h : v.toInt64? = some i) :
    v.amount? = some (.finite (i.toInt : ℚ)) := by
  cases v with
  | byte j =>
    obtain rfl := Option.some.inj h
    rw [Int8.toInt_toInt64]
    rfl
  | short j =>
    obtain rfl := Option.some.inj h
    rw [Int16.toInt_toInt64]
    rfl
  | int j =>
    obtain rfl := Option.some.inj h
    rw [Int32.toInt_toInt64]
    rfl
  | long j =>
    obtain rfl := Option.some.inj h
    rfl
  | _ => cases h

/-! ## Reading -/

section Reading

variable {α β ε : Type} {f : α → Except ε β} {as : List α} {bs : List β}

theorem mapM_eq_ok_iff_forall₂ : as.mapM f = .ok bs ↔ List.Forall₂ (fun a b => f a = .ok b) as bs := by
  induction as generalizing bs with
  | nil =>
    rw [List.mapM_nil, List.forall₂_nil_left_iff]
    exact ⟨fun h => (Except.ok.inj h).symm, fun h => congrArg Except.ok h.symm⟩
  | cons a as ih =>
    rw [List.mapM_cons, List.forall₂_cons_left_iff]
    cases ha : f a with
    | error e => exact iff_of_false (fun h => nomatch h) (fun ⟨b, _, hb, _⟩ => nomatch hb)
    | ok b =>
      cases has : as.mapM f with
      | error e =>
        refine iff_of_false (fun h => nomatch h) ?_
        rintro ⟨_, bs', -, hbs, -⟩
        rw [← ih, has] at hbs
        cases hbs
      | ok bs' =>
        constructor
        · intro h
          exact ⟨b, bs', rfl, ih.mp has, (Except.ok.inj h).symm⟩
        · rintro ⟨_, bs'', hb, hbs, rfl⟩
          obtain rfl := Except.ok.inj hb
          obtain rfl := Except.ok.inj (has.symm.trans (ih.mpr hbs))
          rfl

theorem exists_mapM_eq_ok_iff : (∃ bs, as.mapM f = .ok bs) ↔ ∀ a ∈ as, ∃ b, f a = .ok b := by
  simp only [mapM_eq_ok_iff_forall₂]
  induction as with
  | nil => simp
  | cons a as ih => simp [List.forall₂_cons_left_iff, ← ih]

end Reading

theorem read_option_of_ne_null (h : v ≠ .null) : v.read (.option kind) = (v.read kind).map some := by
  cases v <;> first | rfl | exact absurd rfl h

theorem eq_array_of_read {xs : List kind.Carrier} (h : v.read (.list kind) = .ok xs) :
    ∃ element items, v = .array element items ∧ items.mapM (Managed.read kind) = .ok xs := by
  cases v with
  | array element items => exact ⟨element, items, rfl, h⟩
  | _ => cases h

/-- What is read mirrors the value. -/
theorem mirrors_of_read (hkind : kind.IsNumeric) {x : kind.Carrier} (h : v.read kind = .ok x) :
    kind.Mirrors Widened v x := by
  induction hkind generalizing v with
  | byte =>
    cases v with
    | byte i =>
      obtain rfl := Except.ok.inj h
      rfl
    | _ => cases h
  | short =>
    cases v with
    | short i =>
      obtain rfl := Except.ok.inj h
      rfl
    | byte i =>
      obtain rfl := Except.ok.inj h
      rw [ReadKind.Mirrors, Int8.toInt_toInt16]
      rfl
    | _ => cases h
  | int =>
    cases v with
    | int i =>
      obtain rfl := Except.ok.inj h
      rfl
    | short i =>
      obtain rfl := Except.ok.inj h
      rw [ReadKind.Mirrors, Int16.toInt_toInt32]
      rfl
    | byte i =>
      obtain rfl := Except.ok.inj h
      rw [ReadKind.Mirrors, Int8.toInt_toInt32]
      rfl
    | _ => cases h
  | long =>
    cases hv : v.toInt64? with
    | none =>
      simp only [Managed.read, hv] at h
      cases h
    | some i =>
      simp only [Managed.read, hv] at h
      obtain rfl := Except.ok.inj h
      exact amount?_of_toInt64? hv
  | float =>
    cases v with
    | float y =>
      obtain rfl := Except.ok.inj h
      rfl
    | short i =>
      obtain rfl := Except.ok.inj h
      exact congrArg some (amount_ofInt_single (natAbs_toInt_short_lt i)).symm
    | byte i =>
      obtain rfl := Except.ok.inj h
      exact congrArg some (amount_ofInt_single (natAbs_toInt_byte_lt i)).symm
    | _ => cases h
  | double =>
    cases hv : v.toDouble? with
    | none =>
      simp only [Managed.read, hv] at h
      cases h
    | some y =>
      simp only [Managed.read, hv] at h
      obtain rfl := Except.ok.inj h
      exact widened_of_toDouble? hv
  | @option kind hkind ih =>
    by_cases hnull : v = .null
    · subst hnull
      obtain rfl := Except.ok.inj h
      rfl
    · rw [read_option_of_ne_null hnull] at h
      cases hread : v.read kind with
      | error e =>
        rw [hread] at h
        cases h
      | ok y =>
        rw [hread] at h
        obtain rfl := Except.ok.inj h
        exact ⟨hnull, ih hread⟩
  | list hkind ih =>
    obtain ⟨element, items, rfl, hitems⟩ := eq_array_of_read h
    exact ⟨element, items, rfl, (mapM_eq_ok_iff_forall₂.mp hitems).imp fun _ _ => ih⟩

/-- Exactly the values that fit are read. -/
theorem exists_read_iff (hkind : kind.IsNumeric) : (∃ x, v.read kind = .ok x) ↔ kind.Fits v := by
  induction hkind generalizing v with
  | byte | short | int | long | float | double =>
    cases v <;> simp [Managed.read, Managed.unexpected, Managed.toInt64?, Managed.toDouble?,
      ReadKind.Fits, ReadKind.sources, Managed.runtimeType?]
  | @option kind hkind ih =>
    by_cases hnull : v = .null
    · subst hnull
      exact iff_of_true ⟨none, rfl⟩ (.inl rfl)
    · rw [read_option_of_ne_null hnull]
      constructor
      · rintro ⟨x, hx⟩
        cases hread : v.read kind with
        | error e =>
          rw [hread] at hx
          cases hx
        | ok y => exact .inr (ih.mp ⟨y, hread⟩)
      · rintro (h | h)
        · exact absurd h hnull
        · obtain ⟨y, hread⟩ := ih.mpr h
          exact ⟨some y, by rw [hread]; rfl⟩
  | list hkind ih =>
    constructor
    · rintro ⟨xs, hread⟩
      obtain ⟨element, items, rfl, hitems⟩ := eq_array_of_read hread
      have hread := exists_mapM_eq_ok_iff.mp ⟨xs, hitems⟩
      exact ⟨element, items, rfl, fun item hitem => ih.mp (hread item hitem)⟩
    · rintro ⟨element, items, rfl, hfits⟩
      exact exists_mapM_eq_ok_iff.mpr fun item hitem => ih.mpr (hfits item hitem)

/-- **Numbers are widened, and only longs are rounded.** A value is read as numbers, alone or inside
options and lists, exactly if it fits. What is read has the shape of the value, and every number in it
stands for what the managed number stands for, but for longs of more than 53 bits that are read as
doubles: these become the nearest double, which is another number at most 512 away. -/
theorem read_numeric (hkind : kind.IsNumeric) (v : Managed) :
    ((∃ x, v.read kind = .ok x) ↔ kind.Fits v) ∧
      ∀ x, v.read kind = .ok x → kind.Mirrors Widened v x :=
  ⟨exists_read_iff hkind, fun _ => mirrors_of_read hkind⟩

/-- A row with a long that is no double, an empty item and a byte, read as optional doubles. -/
theorem read_numeric_row :
    (ReadKind.list (.option .double)).IsNumeric ∧
      (ReadKind.list (.option .double)).Mirrors Widened
        (.array .object [.long 9007199254740993, .null, .byte (-3)])
        [some (.ofInt 9007199254740993), none, some (.ofInt (-3))] :=
  ⟨.list (.option .double), (read_numeric (.list (.option .double)) _).2 _ rfl⟩

/-- A long that is no double is read as its neighbour. -/
theorem read_long_inexact :
    (Managed.long 9007199254740993).read .double = .ok (.ofInt 9007199254740992) ∧
      ¬ ReadKind.Mirrors Exactly .double (.long 9007199254740993) (.ofInt 9007199254740992) := by
  have hsame : (Binary.ofInt 9007199254740993 : Double) = .ofInt 9007199254740992 := by decide +kernel
  have hdouble : (Binary.ofInt 9007199254740992 : Double).amount = .finite (9007199254740992 : Int) := by
    have hlong := amount_ofInt_long 9007199254740992
    rw [Binary.nearestInteger_of_natAbs_le (by decide)] at hlong
    exact hlong
  refine ⟨congrArg Except.ok hsame, fun hexact => ?_⟩
  have hvalue := Amount.finite.inj (Option.some.inj (hexact.trans (congrArg some hdouble)))
  exact absurd (Int.cast_injective hvalue) (by decide)

end Gridcall
