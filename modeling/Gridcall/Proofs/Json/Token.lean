import Gridcall.Json.Tree
import Gridcall.Proofs.Json.Text

/-!
# Compact texts

The tokens of a written value are found again, so the value is read back from its text.

* `Token.Legible` : a number is written as one, and a text does not hold half of a surrogate pair;
* `tokens?_chars` : a token is found, if no word goes on after it;
* `Json.Legible` : all tokens of a value are legible;
* `tokens?_write`, `read?_write` : the tokens of a legible value are those of its compact text, from
  which it is read back.
-/

namespace Gridcall

namespace Json

/-! ## Words -/

/-- No word goes on with this text. -/
def EndsWord (rest : List Char) : Prop := ∀ c ∈ rest.head?, isWordChar c = false

theorem endsWord_cons {c : Char} (h : isWordChar c = false) (rest : List Char) :
    EndsWord (c :: rest) := by
  rintro d hd
  obtain rfl := Option.some.inj hd
  exact h

section Words

variable {word rest : List Char} {c : Char}

theorem takeWhile_append (hword : ∀ c ∈ word, isWordChar c = true) (hrest : EndsWord rest) :
    (word ++ rest).takeWhile isWordChar = word := by
  rw [List.takeWhile_append_of_pos hword]
  cases rest with
  | nil => simp
  | cons c rest => simp [hrest c rfl]

theorem dropWhile_append (hword : ∀ c ∈ word, isWordChar c = true) (hrest : EndsWord rest) :
    (word ++ rest).dropWhile isWordChar = rest := by
  rw [List.dropWhile_append_of_pos hword]
  cases rest with
  | nil => rfl
  | cons c rest => simp [hrest c rfl]

theorem not_isSpace_of_isWordChar (h : isWordChar c = true) : isSpace c = false := by
  refine Bool.eq_false_iff.mpr fun hspace => ?_
  simp only [isSpace, Bool.or_eq_true, beq_iff_eq] at hspace
  obtain ((rfl | rfl) | rfl) | rfl := hspace <;> cases h

theorem ofMark?_of_isWordChar (h : isWordChar c = true) : Token.ofMark? c = none := by
  unfold Token.ofMark?
  split
  all_goals first | cases h | rfl

theorem ne_quote_of_isWordChar (h : isWordChar c = true) : (c == '"') = false := by
  refine Bool.eq_false_iff.mpr fun hquote => ?_
  obtain rfl := eq_of_beq hquote
  cases h

/-- A word is found, if no word goes on after it. -/
theorem tokens?_word {token : Token} (hne : word ≠ []) (hword : ∀ c ∈ word, isWordChar c = true)
    (htoken : Token.ofWord? word = some token) (hrest : EndsWord rest) :
    tokens? (word ++ rest) = (tokens? rest).map fun tokens => token :: tokens := by
  cases word with
  | nil => exact absurd rfl hne
  | cons c cs =>
    have hc := hword c List.mem_cons_self
    have hcs : ∀ d ∈ cs, isWordChar d = true := fun d hd => hword d (List.mem_cons_of_mem _ hd)
    rw [List.cons_append, tokens?, not_isSpace_of_isWordChar hc, ofMark?_of_isWordChar hc,
      ne_quote_of_isWordChar hc, takeWhile_append hcs hrest, dropWhile_append hcs hrest, htoken]
    simp [Option.map_eq_bind]

end Words

/-! ## Tokens -/

/-- A number is written as one, and a text does not hold half of a surrogate pair. -/
def Token.Legible : Token → Prop
  | number text => (NumberParts.ofChars? text.toList).isSome
  | string text => text.isSome
  | _ => True

/-- Whether a token is written as a word, so that another word must not follow. -/
def Token.isWord : Token → Bool
  | null => true
  | boolean _ => true
  | number _ => true
  | _ => false

theorem ofWord?_of_ofChars? {text : String} (h : (NumberParts.ofChars? text.toList).isSome) :
    Token.ofWord? text.toList = some (.number text) := by
  have hname : ∀ token : Token, NumberParts.ofChars? token.chars = none → text.toList ≠ token.chars := by
    intro token hnone heq
    rw [heq, hnone] at h
    cases h
  obtain ⟨p, hp⟩ := Option.isSome_iff_exists.mp h
  rw [Token.ofWord?, if_neg (hname .null rfl), if_neg (hname (.boolean true) rfl),
    if_neg (hname (.boolean false) rfl), hp, Option.map_some, String.ofList_toList]

theorem tokens?_mark {c : Char} {token : Token} (hspace : isSpace c = false)
    (hmark : Token.ofMark? c = some token) (rest : List Char) :
    tokens? (c :: rest) = (tokens? rest).map fun tokens => token :: tokens := by
  rw [tokens?, hspace, hmark]
  simp [Option.map_eq_bind]

theorem tokens?_quote (s : String) (rest : List Char) :
    tokens? (quote s ++ rest) = (tokens? rest).map fun tokens => .string (some s) :: tokens := by
  have hsplit := splitText?_quote s.toList rest
  rw [quote, List.cons_append, List.append_assoc, List.singleton_append, tokens?]
  simp only [show isSpace '"' = false from rfl, show Token.ofMark? '"' = none from rfl, BEq.rfl,
    Bool.false_eq_true, if_false, if_true]
  split
  · next hnone =>
    rw [hsplit] at hnone
    cases hnone
  · next body tail hsome =>
    rw [hsplit] at hsome
    cases hsome
    simp [readBody?_quote, Option.map_eq_bind]

theorem tokens?_chars {token : Token} (h : token.Legible) {rest : List Char}
    (hrest : token.isWord = true → EndsWord rest) :
    tokens? (token.chars ++ rest) = (tokens? rest).map fun tokens => token :: tokens := by
  cases token with
  | null =>
    have hword : Token.null.chars.all isWordChar = true := rfl
    exact tokens?_word (by decide) (List.all_eq_true.mp hword) rfl (hrest rfl)
  | boolean b =>
    have hword : ∀ b, (Token.boolean b).chars.all isWordChar = true := fun b => by cases b <;> rfl
    cases b with
    | true => exact tokens?_word (by decide) (List.all_eq_true.mp (hword true)) rfl (hrest rfl)
    | false => exact tokens?_word (by decide) (List.all_eq_true.mp (hword false)) rfl (hrest rfl)
  | number text =>
    obtain ⟨p, hp⟩ := Option.isSome_iff_exists.mp h
    refine tokens?_word ?_ (NumberParts.isWordChar_of_ofChars? hp) (ofWord?_of_ofChars? h) (hrest rfl)
    rintro (hnil : text.toList = [])
    rw [hnil] at hp
    cases hp
  | string text =>
    obtain ⟨s, rfl⟩ := Option.isSome_iff_exists.mp h
    exact tokens?_quote s rest
  | _ => exact tokens?_mark rfl rfl rest

/-! ## Values -/

/-- The tokens are found in their text, if no word goes on after it. -/
def Spells (ts : List Token) : Prop := ∀ rest, EndsWord rest →
  tokens? (ts.flatMap Token.chars ++ rest) = (tokens? rest).map fun tokens => ts ++ tokens

namespace Spells

variable {t : Token} {ts us : List Token}

theorem single (h : t.Legible) : Spells [t] := by
  intro rest hrest
  rw [List.flatMap_singleton, tokens?_chars h fun _ => hrest]
  rfl

theorem cons (hword : t.isWord = false) (h : t.Legible) (hts : Spells ts) : Spells (t :: ts) := by
  intro rest hrest
  have hfirst : t.isWord = true → EndsWord (ts.flatMap Token.chars ++ rest) := by simp [hword]
  rw [List.flatMap_cons, List.append_assoc, tokens?_chars h hfirst, hts rest hrest, Option.map_map]
  rfl

theorem append (hts : Spells ts) (hus : Spells us)
    (hbetween : ∀ rest, EndsWord (us.flatMap Token.chars ++ rest)) : Spells (ts ++ us) := by
  intro rest hrest
  rw [List.flatMap_append, List.append_assoc, hts _ (hbetween rest), hus rest hrest, Option.map_map]
  simp only [List.append_assoc, Function.comp_def]

end Spells

theorem endsWord_itemTokens (items : List Json) (rest : List Char) :
    EndsWord ((itemTokens items).flatMap Token.chars ++ rest) := by
  cases items <;> exact endsWord_cons rfl _

theorem endsWord_fieldTokens (fields : List (Option String × Json)) (rest : List Char) :
    EndsWord ((fieldTokens fields).flatMap Token.chars ++ rest) := by
  cases fields <;> exact endsWord_cons rfl _

/-- All tokens of a value are legible. -/
def Legible (j : Json) : Prop := ∀ t ∈ j.tokens, t.Legible

mutual

theorem spells_tokens (j : Json) (h : ∀ t ∈ j.tokens, t.Legible) : Spells j.tokens := by
  match j with
  | null => exact .single trivial
  | boolean b => exact .single trivial
  | number text => exact .single (h _ List.mem_cons_self)
  | string text => exact .single (h _ List.mem_cons_self)
  | array [] => exact .cons rfl trivial (.single trivial)
  | array (item :: items) =>
    simp only [tokens, List.mem_cons, List.mem_append] at h
    exact .cons rfl trivial <| (spells_tokens item fun t ht => h t (.inr (.inl ht))).append
      (spells_itemTokens items fun t ht => h t (.inr (.inr ht))) (endsWord_itemTokens items)
  | object [] => exact .cons rfl trivial (.single trivial)
  | object ((name, v) :: fields) =>
    simp only [tokens, List.mem_cons, List.mem_append] at h
    refine .cons rfl trivial (.cons rfl (h _ (.inr (.inl rfl))) (.cons rfl trivial ?_))
    exact (spells_tokens v fun t ht => h t (.inr (.inr (.inr (.inl ht))))).append
      (spells_fieldTokens fields fun t ht => h t (.inr (.inr (.inr (.inr ht)))))
      (endsWord_fieldTokens fields)

theorem spells_itemTokens (items : List Json) (h : ∀ t ∈ itemTokens items, t.Legible) :
    Spells (itemTokens items) := by
  match items with
  | [] => exact .single trivial
  | item :: items =>
    simp only [itemTokens, List.mem_cons, List.mem_append] at h
    exact .cons rfl trivial <| (spells_tokens item fun t ht => h t (.inr (.inl ht))).append
      (spells_itemTokens items fun t ht => h t (.inr (.inr ht))) (endsWord_itemTokens items)

theorem spells_fieldTokens (fields : List (Option String × Json))
    (h : ∀ t ∈ fieldTokens fields, t.Legible) : Spells (fieldTokens fields) := by
  match fields with
  | [] => exact .single trivial
  | (name, v) :: fields =>
    simp only [fieldTokens, List.mem_cons, List.mem_append] at h
    refine .cons rfl trivial (.cons rfl (h _ (.inr (.inl rfl))) (.cons rfl trivial ?_))
    exact (spells_tokens v fun t ht => h t (.inr (.inr (.inr (.inl ht))))).append
      (spells_fieldTokens fields fun t ht => h t (.inr (.inr (.inr (.inr ht)))))
      (endsWord_fieldTokens fields)

end

theorem tokens?_write {j : Json} (h : j.Legible) : tokens? j.write.toList = some j.tokens := by
  have hspelled := spells_tokens j h [] (by rintro c ⟨⟩)
  rw [List.append_nil] at hspelled
  rw [write, String.toList_ofList, hspelled, tokens?, Option.map_some, List.append_nil]

theorem read?_write {j : Json} (h : j.Legible) : read? j.write = some j := by
  rw [read?, tokens?_write h]
  exact ofTokens?_tokens j

/-! ## Legible values -/

theorem legible_itemTokens {items : List Json} (h : ∀ item ∈ items, item.Legible) :
    ∀ t ∈ itemTokens items, t.Legible := by
  induction items with
  | nil => simp [itemTokens, Token.Legible]
  | cons item items ih =>
    have hitem := h item List.mem_cons_self
    have hrest := ih fun item hitem => h item (List.mem_cons_of_mem _ hitem)
    simp only [itemTokens, List.mem_cons, List.mem_append]
    rintro t (rfl | ht | ht)
    · exact trivial
    · exact hitem t ht
    · exact hrest t ht

theorem legible_fieldTokens {fields : List (Option String × Json)}
    (h : ∀ f ∈ fields, f.1.isSome ∧ f.2.Legible) : ∀ t ∈ fieldTokens fields, t.Legible := by
  induction fields with
  | nil => simp [fieldTokens, Token.Legible]
  | cons f fields ih =>
    obtain ⟨hname, hv⟩ := h f List.mem_cons_self
    have hrest := ih fun f hf => h f (List.mem_cons_of_mem _ hf)
    simp only [fieldTokens, List.mem_cons, List.mem_append]
    rintro t (rfl | rfl | rfl | ht | ht)
    · exact trivial
    · exact hname
    · exact trivial
    · exact hv t ht
    · exact hrest t ht

theorem legible_array {items : List Json} (h : ∀ item ∈ items, item.Legible) :
    (array items).Legible := by
  cases items with
  | nil => simp [Legible, tokens, Token.Legible]
  | cons item items =>
    have hitem := h item List.mem_cons_self
    have hrest := legible_itemTokens fun item hitem => h item (List.mem_cons_of_mem _ hitem)
    simp only [Legible, tokens, List.mem_cons, List.mem_append]
    rintro t (rfl | ht | ht)
    · exact trivial
    · exact hitem t ht
    · exact hrest t ht

theorem legible_ofFields {fields : List (String × Json)} (h : ∀ f ∈ fields, f.2.Legible) :
    (ofFields fields).Legible := by
  cases fields with
  | nil => simp [ofFields, Legible, tokens, Token.Legible]
  | cons f fields =>
    have hv := h f List.mem_cons_self
    have hrest : ∀ t ∈ fieldTokens (fields.map fun f => (some f.1, f.2)), t.Legible := by
      refine legible_fieldTokens fun g hg => ?_
      obtain ⟨f, hf, rfl⟩ := List.mem_map.mp hg
      exact ⟨rfl, h f (List.mem_cons_of_mem _ hf)⟩
    simp only [ofFields, List.map_cons, Legible, tokens, List.mem_cons, List.mem_append]
    rintro t (rfl | rfl | rfl | ht | ht)
    · exact trivial
    · exact rfl
    · exact trivial
    · exact hv t ht
    · exact hrest t ht

@[simp] theorem legible_ofText (s : String) : (ofText s).Legible := by
  rintro t ht
  obtain rfl := List.mem_singleton.mp ht
  exact rfl

@[simp] theorem legible_ofInt (i : Int) : (ofInt i).Legible := by
  rintro t ht
  obtain rfl := List.mem_singleton.mp ht
  exact Option.isSome_iff_exists.mpr ⟨_, parts?_ofInt i⟩

/-- A double that is read back is written as a number. -/
theorem legible_ofDouble {x : Double} (hfinite : x.isFinite = true) (h : (ofDouble x).double?.isSome) :
    (ofDouble x).Legible := by
  rw [ofDouble, if_pos hfinite] at h ⊢
  rintro t ht
  obtain rfl := List.mem_singleton.mp ht
  obtain ⟨y, hy⟩ := Option.isSome_iff_exists.mp h
  obtain ⟨p, hp, -⟩ := Option.bind_eq_some_iff.mp hy
  exact Option.isSome_iff_exists.mpr ⟨p, hp⟩

end Json

end Gridcall
