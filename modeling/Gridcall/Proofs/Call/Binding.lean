import Gridcall.Proofs.Call.Stages
import Gridcall.Proofs.Marshal.LastConverter

/-!
# Values bound to parameters

Incoming values are bound to parameters by their places: each parameter takes the value at its own place,
and a variadic tail takes what is left, as it is.

* `Given r param arg?` : what a parameter is given for the value at its place, if there is one;
* `Fills r params own` : every parameter is given its own, `FailsAt` : the first that cannot be;
  `bindPositional_eq_ok_iff` and `bindPositional_eq_error_iff` say that there is nothing else;
* `Descriptor.Binds` : the arguments that values make for a callable, one for each parameter;
* `Descriptor.Rejects` : why values do not make arguments;
* `bindArguments_eq_ok_iff`, `bindArguments_eq_error_iff` : binding does the one or the other;
* `Descriptor.cut?` : the places of a variadic call, cut off with bounds that are checked.
-/

namespace Gridcall

variable {r : Registry} {d : Descriptor} {param element : ManagedType} {params init : List ManagedType}
  {arg? : Option HostValue} {own : List HostValue} {v : Managed} {values : List Managed}
  {s s' : MarshalState} {err : CallError}

/-! ## One parameter -/

/-- What a parameter is given for the value at its place, if there is one. -/
inductive Given (r : Registry) (param : ManagedType) :
    Option HostValue → MarshalState → Managed → MarshalState → Prop
  /-- Without a value it is null. -/
  | absent (s : MarshalState) : Given r param none s .null s
  /-- A grid reaches a parameter that is no array as it is. -/
  | raw {arg : HostValue} (hraw : keptRaw param arg = true) (s : MarshalState) :
      Given r param (some arg) s (.value arg) s
  /-- Any other value is decoded. -/
  | decoded {arg : HostValue} {s s' : MarshalState} {v : Managed} (hraw : keptRaw param arg = false)
      (hdecode : decode r arg param s = (.ok v, s')) : Given r param (some arg) s v s'

/-- A grid is bound like a cell of a grid, and so is any other value. -/
theorem bindArgument_eq_decodeAlone (r : Registry) (param : ManagedType) (arg : HostValue) :
    bindArgument r param arg = decodeAlone r param arg := by
  unfold decodeAlone keptRaw
  cases arg with
  | array grid =>
    unfold bindArgument
    cases param.isArray <;> rfl
  | _ => rfl

def bindPlace (r : Registry) : ManagedType × Option HostValue → MarshalM Managed
  | (param, some arg) => decodeAlone r param arg
  | (_, none) => return .null

theorem bindPlace_eq_ok_iff :
    bindPlace r (param, arg?) s = (.ok v, s') ↔ Given r param arg? s v s' := by
  cases arg? with
  | none =>
    constructor
    · intro h
      cases h
      exact .absent s
    · intro h
      cases h
      rfl
  | some arg =>
    unfold bindPlace
    dsimp only
    cases hraw : keptRaw param arg with
    | true =>
      rw [decodeAlone_of_raw hraw]
      constructor
      · intro h
        cases h
        exact .raw hraw s
      · intro h
        cases h with
        | raw => rfl
        | decoded hdecoded =>
          rw [hraw] at hdecoded
          cases hdecoded
    | false =>
      rw [decodeAlone_of_not_raw hraw]
      refine ⟨.decoded hraw, fun h => ?_⟩
      cases h with
      | raw hkept =>
        rw [hraw] at hkept
        cases hkept
      | decoded _ hdecode => exact hdecode

/-- Only a value that has to be decoded can fail. -/
theorem bindPlace_eq_error_iff : bindPlace r (param, arg?) s = (.error err, s') ↔
    ∃ arg, arg? = some arg ∧ keptRaw param arg = false ∧ decode r arg param s = (.error err, s') := by
  cases arg? with
  | none =>
    constructor
    · intro h
      cases h
    · rintro ⟨arg, ⟨⟩, -⟩
  | some arg =>
    unfold bindPlace
    dsimp only
    constructor
    · intro h
      cases hraw : keptRaw param arg with
      | true =>
        rw [decodeAlone_of_raw hraw] at h
        cases h
      | false =>
        rw [decodeAlone_of_not_raw hraw] at h
        exact ⟨arg, rfl, hraw, h⟩
    · rintro ⟨_, ⟨⟩, hraw, h⟩
      rw [decodeAlone_of_not_raw hraw, h]

/-! ## All parameters -/

/-- The parameters, each with the value at its place if there is one. -/
def places (params : List ManagedType) (own : List HostValue) : List (ManagedType × Option HostValue) :=
  params.mapIdx fun i param => (param, own[i]?)

theorem length_places (params : List ManagedType) (own : List HostValue) :
    (places params own).length = params.length := List.length_mapIdx

theorem getElem?_places (params : List ManagedType) (own : List HostValue) (i : Nat) :
    (places params own)[i]? = params[i]?.map fun param => (param, own[i]?) := List.getElem?_mapIdx

theorem take_places (params : List ManagedType) (own : List HostValue) (n : Nat) :
    (places params own).take n = places (params.take n) own := by
  refine List.ext_getElem? fun i => ?_
  rw [List.getElem?_take, getElem?_places, getElem?_places, List.getElem?_take]
  split <;> rfl

/-- Values behind the last parameter have no place. -/
theorem places_take (params : List ManagedType) (own : List HostValue) :
    places params (own.take params.length) = places params own := by
  refine List.ext_getElem? fun i => ?_
  rw [getElem?_places, getElem?_places]
  by_cases hi : i < params.length
  · rw [List.getElem?_take, if_pos hi]
  · rw [List.getElem?_eq_none (Nat.le_of_not_lt hi)]
    rfl

theorem bindPositional_eq (r : Registry) (params : List ManagedType) (own : List HostValue) :
    bindPositional r params own = (places params own).mapM (bindPlace r) := by
  induction params generalizing own with
  | nil => rfl
  | cons param params ih =>
    cases own with
    | nil =>
      have hplaces : places (param :: params) [] = (param, none) :: places params [] := by
        simp [places]
      rw [hplaces, List.mapM_cons, bindPositional, ih]
      rfl
    | cons arg own =>
      have hplaces : places (param :: params) (arg :: own) =
          (param, some arg) :: places params own := by
        simp [places]
      rw [hplaces, List.mapM_cons, bindPositional, ih, bindArgument_eq_decodeAlone]
      rfl

/-- Every parameter is given its own, one after the other. -/
structure Fills (r : Registry) (params : List ManagedType) (own : List HostValue) (s : MarshalState)
    (values : List Managed) (s' : MarshalState) : Prop where
  length_eq : values.length = params.length
  /-- The states are those in which the parameters are met. -/
  given : ∃ states : Nat → MarshalState, states 0 = s ∧ states params.length = s' ∧
    ∀ i param, params[i]? = some param →
      ∃ v, values[i]? = some v ∧ Given r param own[i]? (states i) v (states (i + 1))

theorem fills_iff_oneByOne :
    Fills r params own s values s' ↔ OneByOne (bindPlace r) (places params own) s values s' := by
  have hplace : ∀ (states : Nat → MarshalState) i,
      (∀ place, (places params own)[i]? = some place →
        ∃ v, values[i]? = some v ∧ bindPlace r place (states i) = (.ok v, states (i + 1))) ↔
      ∀ param, params[i]? = some param →
        ∃ v, values[i]? = some v ∧ Given r param own[i]? (states i) v (states (i + 1)) := by
    intro states i
    rw [getElem?_places]
    cases params[i]? with
    | none => simp
    | some param => simp [bindPlace_eq_ok_iff]
  rw [oneByOne_iff_states, length_places]
  constructor
  · rintro ⟨hlength, states, hstart, hend, hgiven⟩
    exact ⟨hlength, states, hstart, hend, fun i => (hplace states i).mpr (hgiven i)⟩
  · rintro ⟨hlength, states, hstart, hend, hgiven⟩
    exact ⟨hlength, states, hstart, hend, fun i => (hplace states i).mp (hgiven i)⟩

theorem bindPositional_eq_ok_iff :
    bindPositional r params own s = (.ok values, s') ↔ Fills r params own s values s' := by
  rw [bindPositional_eq, mapM_eq_ok_iff, fills_iff_oneByOne]

/-- The value for parameter `i` is the first that does not decode. -/
structure FailsAt (r : Registry) (params : List ManagedType) (own : List HostValue) (s : MarshalState)
    (i : Nat) (err : CallError) (s' : MarshalState) : Prop where
  lt_length : i < params.length
  fails : ∃ param arg values s₁, params[i]? = some param ∧ own[i]? = some arg ∧
    Fills r (params.take i) own s values s₁ ∧ keptRaw param arg = false ∧
    decode r arg param s₁ = (.error err, s')

theorem bindPositional_eq_error_iff :
    bindPositional r params own s = (.error err, s') ↔ ∃ i, FailsAt r params own s i err s' := by
  rw [bindPositional_eq, mapM_eq_error_iff]
  constructor
  · rintro ⟨before, ⟨param, arg?⟩, after, values, s₁, hplaces, hbefore, hfail⟩
    have hplace := getElem?_places params own before.length
    rw [hplaces, List.getElem?_append_right (Nat.le_refl _), Nat.sub_self, List.getElem?_cons_zero]
      at hplace
    obtain ⟨param, hparam, heq⟩ := Option.map_eq_some_iff.mp hplace.symm
    obtain ⟨rfl, rfl⟩ := Prod.mk.inj heq
    obtain ⟨arg, harg, hraw, hdecode⟩ := bindPlace_eq_error_iff.mp hfail
    have hfills : Fills r (params.take before.length) own s values s₁ := by
      rwa [fills_iff_oneByOne, ← take_places, hplaces, List.take_left]
    exact ⟨before.length, (List.getElem?_eq_some_iff.mp hparam).1, param, arg, values, s₁, hparam,
      harg, hfills, hraw, hdecode⟩
  · rintro ⟨i, hi, param, arg, values, s₁, hparam, harg, hfills, hraw, hdecode⟩
    rw [fills_iff_oneByOne, ← take_places] at hfills
    have hi' : i < (places params own).length := by rwa [length_places]
    have hplace : (places params own)[i] = (param, some arg) := by
      rw [← Option.some_inj, ← List.getElem?_eq_getElem, getElem?_places, hparam, harg]
      rfl
    refine ⟨_, _, (places params own).drop (i + 1), values, s₁, ?_, hfills,
      bindPlace_eq_error_iff.mpr ⟨arg, rfl, hraw, hdecode⟩⟩
    rw [← hplace, List.getElem_cons_drop, List.take_append_drop]

/-! ## Variadic tails -/

namespace Descriptor

theorem tailElement?_of_fixed (hd : d.variadic = false) : d.tailElement? = none := by
  rw [tailElement?, hd]
  rfl

/-- The last parameter of a variadic callable is an array. -/
theorem exists_tail (hfault : d.fault? = none) (hd : d.variadic = true) :
    ∃ init element, d.params = init ++ [.array element] ∧ d.tailElement? = some element := by
  have htail : d.tailElement?.isNone = false := by
    unfold fault? at hfault
    rw [hd] at hfault
    split at hfault
    · cases hfault
    · cases hnone : d.tailElement?.isNone with
      | false => rfl
      | true =>
        rw [hnone] at hfault
        cases hfault
  cases helement : d.tailElement? with
  | none =>
    rw [helement] at htail
    cases htail
  | some element =>
    have hlast := helement
    unfold tailElement? at hlast
    rw [if_pos hd] at hlast
    obtain ⟨last, hlast, harray⟩ := Option.bind_eq_some_iff.mp hlast
    obtain ⟨init, hparams⟩ := List.getLast?_eq_some_iff.mp hlast
    obtain rfl : last = .array element := by
      cases last with
      | array e => rw [Option.some.inj harray]
      | _ => cases harray
    exact ⟨init, element, hparams, rfl⟩

end Descriptor

/-! ## The arguments of a call -/

theorem bindArguments_of_fixed (hd : d.variadic = false) (hcount : own.length ≤ d.params.length) :
    bindArguments r d own = bindPositional r d.params own := by
  rw [bindArguments, d.tailElement?_of_fixed hd]
  exact if_neg (Nat.not_lt.mpr hcount)

theorem bindArguments_of_tooMany (hd : d.variadic = false) (hcount : d.params.length < own.length) :
    bindArguments r d own = throw (.argumentCount d.params.length own.length) := by
  rw [bindArguments, d.tailElement?_of_fixed hd]
  exact if_pos hcount

/-- The values for the tail are not looked at. -/
theorem bindArguments_of_tail (hparams : d.params = init ++ [.array element])
    (htail : d.tailElement? = some element) : bindArguments r d own = (do
      let head ← bindPositional r init own
      return head ++ [.array element ((own.drop init.length).map .value)]) := by
  have hfixed : d.params.length - 1 = init.length := by simp [hparams]
  have hinit : d.params.dropLast = init := by rw [hparams, List.dropLast_concat]
  rw [bindArguments, htail]
  dsimp only
  rw [hfixed, hinit, bindPositional_eq, places_take, ← bindPositional_eq]

/-- The arguments with which a callable is entered: one for each parameter. -/
structure Descriptor.Binds (r : Registry) (d : Descriptor) (own : List HostValue) (s : MarshalState)
    (values : List Managed) (s' : MarshalState) : Prop where
  length_eq : values.length = d.params.length
  /-- There are not more values than parameters, and each parameter is given its own. -/
  fixed : d.variadic = false → own.length ≤ d.params.length ∧ Fills r d.params own s values s'
  /-- The last parameter is given the values from its place on, as they are. -/
  tail : d.variadic = true → ∃ init element head items, d.params = init ++ [.array element] ∧
    values = head ++ [.array element items] ∧ Fills r init own s head s' ∧
    items.length = own.length - (d.params.length - 1) ∧
    ∀ j, items[j]? = own[d.params.length - 1 + j]?.map .value

theorem bindArguments_eq_ok_iff (hfault : d.fault? = none) :
    bindArguments r d own s = (.ok values, s') ↔ d.Binds r own s values s' := by
  cases hd : d.variadic with
  | false =>
    by_cases hcount : own.length ≤ d.params.length
    · rw [bindArguments_of_fixed hd hcount, bindPositional_eq_ok_iff]
      refine ⟨fun h => ⟨h.length_eq, fun _ => ⟨hcount, h⟩, fun htail => ?_⟩, fun h => (h.fixed hd).2⟩
      rw [hd] at htail
      cases htail
    · rw [bindArguments_of_tooMany hd (Nat.not_le.mp hcount)]
      constructor
      · intro h
        cases h
      · intro h
        exact absurd (h.fixed hd).1 hcount
  | true =>
    obtain ⟨init, element, hparams, htail⟩ := d.exists_tail hfault hd
    have hlast : d.params.length - 1 = init.length := by simp [hparams]
    rw [bindArguments_of_tail hparams htail, bind_eq_ok_iff]
    constructor
    · rintro ⟨head, s₁, hhead, hpure⟩
      cases hpure
      have hfills := bindPositional_eq_ok_iff.mp hhead
      refine ⟨by simp [hparams, hfills.length_eq], fun hfixed => ?_, fun _ => ?_⟩
      · rw [hd] at hfixed
        cases hfixed
      · refine ⟨init, element, head, _, hparams, rfl, hfills, by simp [hlast], fun j => ?_⟩
        rw [List.getElem?_map, List.getElem?_drop, hlast]
    · intro h
      obtain ⟨init', element', head, items, hparams', rfl, hfills, -, hitems⟩ := h.tail hd
      rw [hparams] at hparams'
      obtain ⟨rfl, heq⟩ := List.append_inj' hparams' rfl
      cases heq
      have hdrop : items = (own.drop init.length).map .value := by
        refine List.ext_getElem? fun j => ?_
        rw [hitems, List.getElem?_map, List.getElem?_drop, hlast]
      exact ⟨head, s', bindPositional_eq_ok_iff.mpr hfills, by rw [hdrop]; rfl⟩

theorem positional_of_fixed (hd : d.variadic = false) : d.positional = d.params := by
  rw [Descriptor.positional, d.tailElement?_of_fixed hd]
  rfl

theorem positional_of_tail (hparams : d.params = init ++ [.array element])
    (htail : d.tailElement? = some element) : d.positional = init := by
  rw [Descriptor.positional, htail, hparams, List.dropLast_concat]
  rfl

/-- Why values are rejected as the arguments of a call. -/
inductive Descriptor.Rejects (r : Registry) (d : Descriptor) (own : List HostValue) (s : MarshalState) :
    CallError → MarshalState → Prop
  /-- There are more values than parameters. None of them was looked at. -/
  | tooMany (hd : d.variadic = false) (hcount : d.params.length < own.length) :
      Rejects r d own s (.argumentCount d.params.length own.length) s
  /-- The value for a parameter that takes one does not decode. -/
  | argument (hcount : d.variadic = false → own.length ≤ d.params.length) {i : Nat} {err : CallError}
      {s' : MarshalState} (hfails : FailsAt r d.positional own s i err s') : Rejects r d own s err s'

theorem bindArguments_eq_error_iff (hfault : d.fault? = none) :
    bindArguments r d own s = (.error err, s') ↔ d.Rejects r own s err s' := by
  cases hd : d.variadic with
  | false =>
    by_cases hcount : own.length ≤ d.params.length
    · rw [bindArguments_of_fixed hd hcount, bindPositional_eq_error_iff, ← positional_of_fixed hd]
      constructor
      · rintro ⟨i, hfails⟩
        exact .argument (fun _ => hcount) hfails
      · intro h
        cases h with
        | tooMany _ hlt => exact absurd hcount (Nat.not_le.mpr hlt)
        | argument _ hfails => exact ⟨_, hfails⟩
    · rw [bindArguments_of_tooMany hd (Nat.not_le.mp hcount)]
      constructor
      · intro h
        cases h
        exact .tooMany hd (Nat.not_le.mp hcount)
      · intro h
        cases h with
        | tooMany => rfl
        | argument hle => exact absurd (hle hd) hcount
  | true =>
    obtain ⟨init, element, hparams, htail⟩ := d.exists_tail hfault hd
    rw [bindArguments_of_tail hparams htail, map_eq_error_iff, bindPositional_eq_error_iff,
      ← positional_of_tail hparams htail]
    constructor
    · rintro ⟨i, hfails⟩
      refine .argument (fun hfixed => ?_) hfails
      rw [hd] at hfixed
      cases hfixed
    · intro h
      cases h with
      | tooMany hfixed =>
        rw [hd] at hfixed
        cases hfixed
      | argument _ hfails => exact ⟨_, hfails⟩

/-! ## Bounds -/

/-- The first `n` items and the others, if there are so many. -/
def splitAt? {α : Type} (n : Nat) (as : List α) : Option (List α × List α) :=
  if n ≤ as.length then some (as.splitAt n) else none

/-- The parameters of a variadic callable that take one value each, with the values for them and those
for the tail, if no bound is violated when they are cut off. -/
def Descriptor.cut? (d : Descriptor) (own : List HostValue) :
    Option (List ManagedType × List HostValue × List HostValue) := do
  let fixed ← d.params.length.ppred
  let (params, _) ← splitAt? fixed d.params
  if own.length < d.params.length then return (params, own, [])
  let (head, tail) ← splitAt? fixed own
  return (params, head, tail)

theorem cut?_eq (hparams : d.params = init ++ [.array element]) (own : List HostValue) :
    d.cut? own = some (init, own.take init.length, own.drop init.length) := by
  have hlength : d.params.length = init.length + 1 := by simp [hparams]
  have hinit : splitAt? init.length d.params = some (init, [.array element]) := by
    rw [splitAt?, if_pos (by omega), hparams, List.splitAt_eq, List.take_left, List.drop_left]
  have hppred : (init.length + 1).ppred = some init.length := rfl
  unfold Descriptor.cut?
  rw [hlength, hppred]
  simp only [Option.bind_eq_bind, Option.bind_some, hinit]
  split
  · next hshort =>
    have hle : own.length ≤ init.length := by omega
    rw [List.take_of_length_le hle, List.drop_of_length_le hle]
    rfl
  · next hlong =>
    rw [splitAt?, if_pos (by omega), List.splitAt_eq]
    rfl

end Gridcall
