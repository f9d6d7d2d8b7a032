import Gridcall.Proofs.Json.Number

/-!
# Texts in JSON

What `quote` writes is found and read back, character by character.

* `splitText?_quote` : the closing quote of a written text is found;
* `readBody?_quote` : what stands between the quotes is read back.
-/

namespace Gridcall

namespace Json

/-! ## Escapes -/

/-- How a character is written: by a short escape, by its number, or as it is. -/
theorem escape_cases (c : Char) :
    (∃ letter, escape c = ['\\', letter] ∧ shortEscape? letter = some c ∧ letter ≠ 'u') ∨
      (c.toNat < 0x20 ∧
        escape c = ['\\', 'u', '0', '0', hexDigit (c.toNat / 16), hexDigit (c.toNat % 16)]) ∨
      (escape c = [c] ∧ c ≠ '"' ∧ c ≠ '\\' ∧ 0x20 ≤ c.toNat) := by
  by_cases hshort : c ∈ ['"', '\\', '\x08', '\t', '\n', '\x0c', '\r']
  · refine .inl ?_
    simp only [List.mem_cons, List.not_mem_nil, or_false] at hshort
    rcases hshort with rfl | rfl | rfl | rfl | rfl | rfl | rfl <;>
      exact ⟨_, rfl, rfl, by decide⟩
  · simp only [List.mem_cons, List.not_mem_nil, or_false, not_or] at hshort
    obtain ⟨hquote, hslash, hb, ht, hn, hf, hr⟩ := hshort
    by_cases hcontrol : c.toNat < 0x20
    · exact .inr (.inl ⟨hcontrol, by simp [escape, hquote, hslash, hb, ht, hn, hf, hr, hcontrol]⟩)
    · refine .inr (.inr ⟨?_, hquote, hslash, by omega⟩)
      simp [escape, hquote, hslash, hb, ht, hn, hf, hr, hcontrol]

/-- The digits of a control character spell its number. -/
theorem hexNumber?_control : ∀ n < 0x20,
    hexNumber? ['0', '0', hexDigit (n / 16), hexDigit (n % 16)] = some n := by decide

theorem bodyCodes?_escape (c : Char) (rest : List Char) :
    bodyCodes? (escape c ++ rest) = (bodyCodes? rest).map fun codes => c.toNat :: codes := by
  obtain ⟨letter, hescape, hletter, hu⟩ | ⟨hcontrol, hescape⟩ | ⟨hescape, -, hslash, hcode⟩ :=
    escape_cases c
  · rw [hescape, List.cons_append, List.cons_append, List.nil_append]
    simp [bodyCodes?, hu, hletter, Option.map_eq_bind]
  · rw [hescape]
    simp [bodyCodes?, hexNumber?_control _ hcontrol, Option.map_eq_bind]
  · rw [hescape, List.singleton_append]
    have hcheck : (decide (0x20 ≤ c.toNat) && c != '\\') = true := by
      simp [hslash, hcode]
    have hread : bodyCodes? (c :: rest) = (guard (0x20 ≤ c.toNat && c != '\\') >>= fun _ =>
        bodyCodes? rest >>= fun codes => pure (c.toNat :: codes)) := by
      rw [bodyCodes?] <;> simp [hslash]
    rw [hread, guard_bind hcheck, Option.map_eq_bind]
    rfl

/-- No digit ends a text or escapes what follows. -/
theorem hexDigit_ne : ∀ n < 16, hexDigit n ≠ '"' ∧ hexDigit n ≠ '\\' := by decide

theorem splitText?_cons {c : Char} (hquote : c ≠ '"') (hslash : c ≠ '\\') (rest : List Char) :
    splitText? (c :: rest) = (splitText? rest).map fun p => (c :: p.1, p.2) := by
  simp [splitText?, hslash]

theorem splitText?_escape (c : Char) (rest : List Char) :
    splitText? (escape c ++ rest) = (splitText? rest).map fun p => (escape c ++ p.1, p.2) := by
  obtain ⟨letter, hescape, -⟩ | ⟨hcontrol, hescape⟩ | ⟨hescape, hquote, hslash, -⟩ := escape_cases c
  · rw [hescape]
    rfl
  · have hhigh := hexDigit_ne (c.toNat / 16) (by omega)
    have hlow := hexDigit_ne (c.toNat % 16) (by omega)
    rw [hescape]
    simp [splitText?, hhigh, hlow, Function.comp_def]
  · rw [hescape, List.singleton_append, splitText?_cons hquote hslash]
    rfl

/-! ## Texts -/

theorem bodyCodes?_flatMap_escape (cs : List Char) :
    bodyCodes? (cs.flatMap escape) = some (cs.map Char.toNat) := by
  induction cs with
  | nil => simp [bodyCodes?]
  | cons c cs ih => rw [List.flatMap_cons, bodyCodes?_escape, ih, Option.map_some, List.map_cons]

theorem not_surrogate (c : Char) : isHighSurrogate c.toNat = false ∧ isLowSurrogate c.toNat = false := by
  have hvalid : c.toNat < 0xD800 ∨ 0xDFFF < c.toNat ∧ c.toNat < 0x110000 := c.valid
  simp only [isHighSurrogate, isLowSurrogate, Bool.and_eq_false_iff, decide_eq_false_iff_not]
  omega

theorem joinCodes?_map_toNat (cs : List Char) : joinCodes? (cs.map Char.toNat) = some cs := by
  induction cs with
  | nil => simp [joinCodes?]
  | cons c cs ih =>
    obtain ⟨hhigh, hlow⟩ := not_surrogate c
    cases cs with
    | nil => simp [joinCodes?, hhigh, hlow, Char.ofNat_toNat]
    | cons d ds =>
      simp only [List.map_cons] at ih ⊢
      simp [joinCodes?, hhigh, hlow, ih, Char.ofNat_toNat]

theorem readBody?_quote (s : String) : readBody? (s.toList.flatMap escape) = some (some s) := by
  rw [readBody?, bodyCodes?_flatMap_escape, Option.map_some, joinCodes?_map_toNat, Option.map_some,
    String.ofList_toList]

theorem splitText?_quote (cs rest : List Char) :
    splitText? (cs.flatMap escape ++ '"' :: rest) = some (cs.flatMap escape, rest) := by
  induction cs with
  | nil => simp [splitText?]
  | cons c cs ih =>
    rw [List.flatMap_cons, List.append_assoc, splitText?_escape, ih, Option.map_some]

end Json

end Gridcall
