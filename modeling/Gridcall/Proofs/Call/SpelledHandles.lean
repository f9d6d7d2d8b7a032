import Gridcall.Proofs.Call.Overloads
import Gridcall.Proofs.Call.Receiver
import Gridcall.Proofs.Host.HandleText
import Gridcall.Proofs.Marshal.Strings

/-!
# Handles spelled as strings

A call replaces the strings among its arguments that spell handles, once for every export that it tries,
and the calls that a callable makes do it again. None of this shows: a call on strings is the call on the
handles that they spell.

* `TakenFor marker v w` : what a single argument is taken for; `takenFor_iff` says that this is what the
  replacement makes of it;
* `Settings.KeepsText` : a text that calls take for itself;
* `rewritten?` : the way round the replacement if no argument spells a handle. `rewritten?_getD` : both
  ways give one list;
* `coerceHandles_idem` : replacing twice is replacing once, the reason for everything about calls below;
* `decode_string` : conversions do not look for handles in strings;
* `Bridge.KeepsStrings` : what holds of strings when they are not replaced;
* `call?_spelled` : the calls.
-/

namespace Gridcall

variable {marker : Char} {settings : Settings} {v w : HostValue} {args args' : List HostValue}

/-! ## What an argument is taken for -/

/-- What an argument is taken for where strings may spell handles. A string that spells a handle is taken
for the handle, and everything else for itself, a grid with all that it holds included. -/
inductive TakenFor (marker : Char) : HostValue → HostValue → Prop
  | handle {text : String} {className : ClassName} {number : String} {n : Nat}
      (h : ObjectHandle.SpellsHandle text marker className number n) :
      TakenFor marker (.string text) (.object ⟨className, ⟨.ofInt n⟩⟩)
  | itself {v : HostValue} (h : ∀ text className number n, v = .string text →
      ¬ ObjectHandle.SpellsHandle text marker className number n) : TakenFor marker v v

theorem coerceHandle_string_of_some {text : String} {h : ObjectHandle}
    (hread : ObjectHandle.ofCellText? text marker = some h) :
    coerceHandle marker (.string text) = .object h := by
  simp only [coerceHandle, hread]

theorem coerceHandle_string_of_none {text : String}
    (hread : ObjectHandle.ofCellText? text marker = none) :
    coerceHandle marker (.string text) = .string text := by
  simp only [coerceHandle, hread]

theorem TakenFor.coerceHandle_eq (h : TakenFor marker v w) : coerceHandle marker v = w := by
  cases h with
  | handle h => exact coerceHandle_string_of_some h.ofCellText?_eq
  | itself h =>
    cases v with
    | string text =>
      refine coerceHandle_string_of_none ?_
      rw [Option.eq_none_iff_forall_ne_some]
      intro found hfound
      obtain ⟨number, n, hspells, -⟩ := ObjectHandle.exists_spellsHandle hfound
      exact h text _ _ _ rfl hspells
    | _ => rfl

theorem takenFor_coerceHandle (marker : Char) (v : HostValue) :
    TakenFor marker v (coerceHandle marker v) := by
  cases v with
  | string text =>
    cases hread : ObjectHandle.ofCellText? text marker with
    | some h =>
      obtain ⟨number, n, hspells, hn⟩ := ObjectHandle.exists_spellsHandle hread
      have htaken : TakenFor marker (.string text) (.object ⟨h.className, ⟨.ofInt n⟩⟩) := .handle hspells
      rw [coerceHandle_string_of_some hread]
      rwa [← hn, Int64.ofInt_toInt] at htaken
    | none =>
      rw [coerceHandle_string_of_none hread]
      refine .itself ?_
      rintro text className number n ⟨⟩ hspells
      rw [hspells.ofCellText?_eq] at hread
      cases hread
  | _ => exact .itself (by simp)

/-- An argument is taken for what the replacement makes of it, and for nothing else. -/
theorem takenFor_iff : TakenFor marker v w ↔ coerceHandle marker v = w := by
  refine ⟨TakenFor.coerceHandle_eq, ?_⟩
  rintro rfl
  exact takenFor_coerceHandle marker v

/-! ## Lists of arguments -/

theorem coerceHandles_of_on (h : settings.coerceHandleStrings = true) (args : List HostValue) :
    coerceHandles settings args = args.map (coerceHandle settings.handleMarker) := if_pos h

theorem coerceHandles_of_off (h : settings.coerceHandleStrings = false) (args : List HostValue) :
    coerceHandles settings args = args := by
  unfold coerceHandles
  rw [h]
  exact if_neg Bool.false_ne_true

/-- With the replacement on, every argument is taken for something, and the list of these is the one
that a call works on. -/
theorem forall₂_takenFor_iff (h : settings.coerceHandleStrings = true) :
    List.Forall₂ (TakenFor settings.handleMarker) args args' ↔ args' = coerceHandles settings args := by
  rw [coerceHandles_of_on h]
  induction args generalizing args' with
  | nil => simp
  | cons v args ih =>
    cases args' with
    | nil => simp
    | cons w args' => simp [ih, takenFor_iff, eq_comm]

/-- A handle does not spell another one. -/
theorem TakenFor.itself_of (h : TakenFor marker v w) : TakenFor marker w w := by
  cases h with
  | handle h => exact .itself (by simp)
  | itself h => exact .itself h

theorem coerceHandle_idem (marker : Char) (v : HostValue) :
    coerceHandle marker (coerceHandle marker v) = coerceHandle marker v :=
  (takenFor_coerceHandle marker v).itself_of.coerceHandle_eq

theorem coerceHandles_idem (settings : Settings) (args : List HostValue) :
    coerceHandles settings (coerceHandles settings args) = coerceHandles settings args := by
  cases h : settings.coerceHandleStrings with
  | false => rw [coerceHandles_of_off h, coerceHandles_of_off h]
  | true =>
    rw [coerceHandles_of_on h, coerceHandles_of_on h, List.map_map]
    exact List.map_congr_left fun v _ => coerceHandle_idem _ v

/-- A text that is taken for itself: where texts may spell handles, it spells none. -/
def Settings.KeepsText (settings : Settings) (text : String) : Prop :=
  settings.coerceHandleStrings = true →
    ∀ className number n, ¬ ObjectHandle.SpellsHandle text settings.handleMarker className number n

theorem coerceHandles_cons_string {text : String} (h : settings.KeepsText text) (args : List HostValue) :
    coerceHandles settings (.string text :: args) = .string text :: coerceHandles settings args := by
  cases hon : settings.coerceHandleStrings with
  | false => rw [coerceHandles_of_off hon, coerceHandles_of_off hon]
  | true =>
    have hself : TakenFor settings.handleMarker (.string text) (.string text) := by
      refine .itself ?_
      rintro _ className number n ⟨⟩
      exact h hon className number n
    rw [coerceHandles_of_on hon, coerceHandles_of_on hon, List.map_cons, hself.coerceHandle_eq]

/-- A text without a dash spells no handle. -/
theorem keepsText_of_notMem {text : String} (h : '-' ∉ text.toList) (settings : Settings) :
    settings.KeepsText text := by
  intro _ className number n hspells
  refine h ?_
  rw [hspells.text_eq]
  simp

/-! ## The way round the replacement -/

/-- The handle that a value spells, if it is a string that spells one. -/
def spelled? (marker : Char) : HostValue → Option ObjectHandle
  | .string text => ObjectHandle.ofCellText? text marker
  | _ => none

/-- The arguments with handles for the strings that spell them. If there is nothing to replace, no list
is made, and the arguments are passed on as they came. -/
def rewritten? (settings : Settings) (args : List HostValue) : Option (List HostValue) :=
  if settings.coerceHandleStrings ∧ ∃ v ∈ args, (spelled? settings.handleMarker v).isSome then
    some (args.map fun v => ((spelled? settings.handleMarker v).map HostValue.object).getD v)
  else none

theorem coerceHandle_eq_getD (marker : Char) (v : HostValue) :
    coerceHandle marker v = ((spelled? marker v).map HostValue.object).getD v := by
  cases v with
  | string text =>
    unfold coerceHandle spelled?
    dsimp only
    cases ObjectHandle.ofCellText? text marker <;> rfl
  | _ => rfl

theorem coerceHandle_eq_self_iff : coerceHandle marker v = v ↔ spelled? marker v = none := by
  rw [coerceHandle_eq_getD]
  cases hspelled : spelled? marker v with
  | none => simp
  | some h =>
    cases v with
    | string text => simp
    | _ => cases hspelled

theorem rewritten?_of_spelled (hon : settings.coerceHandleStrings = true)
    (h : ∃ v ∈ args, (spelled? settings.handleMarker v).isSome) :
    rewritten? settings args = some (coerceHandles settings args) := by
  rw [coerceHandles_of_on hon, rewritten?, if_pos ⟨hon, h⟩]
  exact congrArg some (List.map_congr_left fun v _ => (coerceHandle_eq_getD _ v).symm)

theorem coerceHandles_of_not_spelled
    (h : ¬ (settings.coerceHandleStrings ∧ ∃ v ∈ args, (spelled? settings.handleMarker v).isSome)) :
    coerceHandles settings args = args := by
  cases hon : settings.coerceHandleStrings with
  | false => exact coerceHandles_of_off hon args
  | true =>
    have hsame : ∀ v ∈ args, coerceHandle settings.handleMarker v = id v := by
      intro v hv
      rw [id, coerceHandle_eq_self_iff, ← Option.not_isSome_iff_eq_none]
      exact fun hsome => h ⟨hon, v, hv, hsome⟩
    rw [coerceHandles_of_on hon, List.map_congr_left hsame, List.map_id]

theorem rewritten?_getD (settings : Settings) (args : List HostValue) :
    (rewritten? settings args).getD args = coerceHandles settings args := by
  by_cases h : settings.coerceHandleStrings ∧ ∃ v ∈ args, (spelled? settings.handleMarker v).isSome
  · rw [rewritten?_of_spelled h.1 h.2, Option.getD_some]
  · rw [coerceHandles_of_not_spelled h, rewritten?, if_neg h, Option.getD_none]

/-- The arguments are passed on as they came exactly if the replacement leaves them as they are. -/
theorem rewritten?_eq_none_iff : rewritten? settings args = none ↔ coerceHandles settings args = args := by
  refine ⟨fun h => ?_, fun hsame => ?_⟩
  · rw [← rewritten?_getD, h, Option.getD_none]
  · rw [rewritten?]
    refine if_neg ?_
    rintro ⟨hon, v, hv, hsome⟩
    rw [coerceHandles_of_on hon] at hsame
    have hself : coerceHandle settings.handleMarker v = v :=
      List.map_inj_left.mp (hsame.trans (List.map_id args).symm) v hv
    rw [coerceHandle_eq_self_iff.mp hself] at hsome
    cases hsome

/-! ## Calls -/

section Calls

variable {b : Bridge} {nested : Nested} {s : MarshalState}

theorem callId_congr (h : coerceHandles b.settings args = coerceHandles b.settings args') (id : ExportId) :
    b.callId nested id args = b.callId nested id args' := by
  unfold Bridge.callId
  rw [h]

theorem callOverloads_congr (h : coerceHandles b.settings args = coerceHandles b.settings args')
    (ids : List ExportId) (last : HostValue) :
    b.callOverloads nested args ids last = b.callOverloads nested args' ids last := by
  induction ids generalizing last with
  | nil => rfl
  | cons id ids ih =>
    unfold Bridge.callOverloads
    simp only [callId_congr h, ih]

theorem callTarget_congr (h : coerceHandles b.settings args = coerceHandles b.settings args')
    (target : Target) : b.callTarget nested target args = b.callTarget nested target args' := by
  cases target with
  | id id => exact callId_congr h id
  | overloads ids => exact callOverloads_congr h ids _
  | name name =>
    unfold Bridge.callTarget
    simp only [callOverloads_congr h]

/-- A call depends on its arguments only through what they are replaced by. -/
theorem call?_congr (h : coerceHandles b.settings args = coerceHandles b.settings args') (depth : Nat)
    (target : Target) : b.call? depth target args = b.call? depth target args' := by
  cases depth with
  | zero => rfl
  | succ depth => exact callTarget_congr h target

/-- What holds of strings when they are not replaced: an export works on its arguments as they are, and
no instance call whose receiver is a string enters its callable. -/
structure Bridge.KeepsStrings (b : Bridge) : Prop where
  args : ∀ nested id e args s, b.exports.find? id = some e → b.callId nested id args s =
    (b.runExport nested e args (s.note (.opened id e.descriptor.name))).map
      fun p => (.ok p.1, p.2.note .closed)
  receiver : ∀ nested e text rest s, b.exports.find? e.id = some e → e.descriptor.kind = .method →
    b.FailsBefore nested e (.string text :: rest) s

theorem keepsStrings (h : b.settings.coerceHandleStrings = false) : b.KeepsStrings where
  args nested id e args s hfind := by
    rw [callId_of_some hfind, coerceHandles_of_off h]
  receiver nested e text rest s hfind hmethod := by
    rcases (bindsReceiver nested hfind hmethod (.string text :: rest) s).entered with hentered | hfails
    · obtain ⟨frame, s₁, reference, o, -, -, hhead, -⟩ := hentered
      rw [coerceHandles_of_off h, List.head?_cons] at hhead
      cases hhead
    · exact hfails

end Calls

/-- **Calls on strings that spell handles.** Where strings may spell handles, a call on any arguments is
the call on the list in which each string that spells a handle has been replaced by the handle and nothing
else has been touched, whatever it goes to, however deep calls nest and whatever the state is. There is
one such list. The way round the replacement gives the list that the replacement gives, and is taken
exactly if that list is the same as before. Replacing twice is replacing once. Where strings may not spell
handles, every export works on its arguments as they are, and no string finds a receiver. And with
converters of the library no string is decoded into an object, inside grids or outside. -/
theorem call?_spelled (b : Bridge) :
    (b.settings.coerceHandleStrings = true → ∀ args args',
      (List.Forall₂ (TakenFor b.settings.handleMarker) args args' ↔ args' = coerceHandles b.settings args) ∧
      (List.Forall₂ (TakenFor b.settings.handleMarker) args args' →
        (∀ nested id s, b.callId nested id args s = b.callId nested id args' s) ∧
        ∀ depth target s, b.call? depth target args s = b.call? depth target args' s)) ∧
    (∀ args, (rewritten? b.settings args).getD args = coerceHandles b.settings args ∧
      (rewritten? b.settings args = none ↔ coerceHandles b.settings args = args)) ∧
    (∀ args, coerceHandles b.settings (coerceHandles b.settings args) = coerceHandles b.settings args) ∧
    (b.settings.coerceHandleStrings = false → b.KeepsStrings) ∧
    (b.registry.BuiltIn → ∀ text required,
      StaysText b.registry text (decode b.registry (.string text) required)) := by
  refine ⟨fun hon args args' => ⟨forall₂_takenFor_iff hon, fun htaken => ?_⟩, fun args => ?_,
    coerceHandles_idem b.settings, keepsStrings, fun hr => decode_string hr⟩
  · have hsame : coerceHandles b.settings args = coerceHandles b.settings args' := by
      rw [(forall₂_takenFor_iff hon).mp htaken, coerceHandles_idem]
    refine ⟨fun nested id s => ?_, fun depth target s => ?_⟩
    · rw [callId_congr hsame]
    · rw [call?_congr hsame]
  · exact ⟨rewritten?_getD b.settings args, rewritten?_eq_none_iff⟩

/-- A person that is called by text, between a text that spells no handle and a grid that holds the text
of one. With the replacement off the call by text is not entered. -/
theorem call?_spelled_person :
    let getName : Export := ⟨⟨1⟩, .method "GetName" "Person" [.string, .object] (some .string),
      fun frame => frame.receiverAs fun | .text name => some (.string name) | _ => none⟩
    let bridge : Bool → Bridge := fun on =>
      ⟨{ coerceHandleStrings := on }, Converter.defaults, ⟨[getName], [("GetName", [⟨1⟩])]⟩⟩
    let s : MarshalState := ⟨⟨(Heap.empty.mint ⟨⟨0⟩, "Person", .text "Ada"⟩).2, []⟩, .empty⟩
    let grid : HostValue := .array ⟨1, 1, [.string "&Person-1"]⟩
    let args : List HostValue := [.string "&Person-1", .string "Person-1", grid]
    let spelled : List HostValue := [.object ⟨"Person", ⟨1⟩⟩, .string "Person-1", grid]
    List.Forall₂ (TakenFor '&') args spelled ∧
      (bridge true).call? 1 (.name "GetName") args s = (bridge true).call? 1 (.name "GetName") spelled s ∧
      ((bridge true).call? 1 (.name "GetName") spelled s).map Prod.fst = some (.ok (.string "Ada")) ∧
      (bridge false).FailsBefore (fun _ _ _ => none) getName args s ∧
      StaysText Converter.defaults "&Person-1"
        (decode Converter.defaults (.string "&Person-1") (.ofClass "Person")) := by
  intro getName bridge s grid args spelled
  have htaken : List.Forall₂ (TakenFor '&') args spelled := by
    refine .cons (takenFor_iff.mpr ?_) (.cons (takenFor_iff.mpr ?_) (.cons (takenFor_iff.mpr rfl) .nil))
    · cbv
    · cbv
  obtain ⟨hon, -, -, -, htext⟩ := call?_spelled (bridge true)
  obtain ⟨-, -, -, hoff, -⟩ := call?_spelled (bridge false)
  refine ⟨htaken, ((hon rfl args spelled).2 htaken).2 1 _ s, ?_, (hoff rfl).receiver _ _ _ _ s rfl rfl,
    htext Registry.builtIn_defaults _ _⟩
  simp only [bridge, getName, s, spelled, grid]
  cbv

end Gridcall
