import Gridcall.Json.Token

/-!
# JSON trees

* `Json` : a JSON value; the fields of objects keep their order and may repeat;
* `Json.write` : its compact text, by way of its tokens;
* `Json.read?` : the tree of a text.

Reading takes one token at a time and holds the containers that are still open in a list, so that any
depth of nesting is read. How deep is too deep is for those to say who use a tree.
-/

namespace Gridcall

inductive Json where
  | null
  | boolean (b : Bool)
  /-- A number, as it is written. -/
  | number (text : String)
  /-- A text; `none` stands for one that holds half of a surrogate pair. -/
  | string (text : Option String)
  | array (items : List Json)
  | object (fields : List (Option String × Json))

namespace Json

/-! ## Writing -/

mutual

def tokens : Json → List Token
  | null => [.null]
  | boolean b => [.boolean b]
  | number text => [.number text]
  | string text => [.string text]
  | array [] => [.openArray, .closeArray]
  | array (item :: items) => .openArray :: (item.tokens ++ itemTokens items)
  | object [] => [.openObject, .closeObject]
  | object ((name, v) :: fields) =>
    .openObject :: .string name :: .colon :: (v.tokens ++ fieldTokens fields)

def itemTokens : List Json → List Token
  | [] => [.closeArray]
  | item :: items => .comma :: (item.tokens ++ itemTokens items)

def fieldTokens : List (Option String × Json) → List Token
  | [] => [.closeObject]
  | (name, v) :: fields => .comma :: .string name :: .colon :: (v.tokens ++ fieldTokens fields)

end

def write (j : Json) : String := String.ofList (j.tokens.flatMap Token.chars)

/-! ## Reading -/

/-- A container that is still open, with what it holds so far, the latest first. -/
inductive Open where
  | array (items : List Json)
  /-- An object that waits for the value of a field. -/
  | object (fields : List (Option String × Json)) (name : Option String)

/-- What has been read of a value. -/
inductive Progress where
  /-- A value has to follow; the innermost container may close if it has just been opened. -/
  | value (stack : List Open) (opened : Bool)
  /-- The name of a field has to follow; the object may close if it has just been opened. -/
  | name (stack : List Open) (fields : List (Option String × Json)) (opened : Bool)
  /-- A colon has to follow. -/
  | colon (stack : List Open) (fields : List (Option String × Json)) (name : Option String)
  /-- A value has been read, and the innermost container goes on or closes. -/
  | done (stack : List Open) (v : Json)

namespace Progress

def start : Progress := value [] false

def takeValue (stack : List Open) (opened : Bool) : Token → Option Progress
  | .null => some (done stack .null)
  | .boolean b => some (done stack (.boolean b))
  | .number text => some (done stack (.number text))
  | .string text => some (done stack (.string text))
  | .openArray => some (value (.array [] :: stack) true)
  | .openObject => some (name stack [] true)
  | .closeArray =>
    match stack, opened with
    | .array items :: stack, true => some (done stack (.array items.reverse))
    | _, _ => none
  | _ => none

def takeNext (stack : List Open) (v : Json) (token : Token) : Option Progress :=
  match stack, token with
  | .array items :: stack, .comma => some (value (.array (v :: items) :: stack) false)
  | .array items :: stack, .closeArray => some (done stack (.array (v :: items).reverse))
  | .object fields n :: stack, .comma => some (name stack ((n, v) :: fields) false)
  | .object fields n :: stack, .closeObject =>
    some (done stack (.object ((n, v) :: fields).reverse))
  | _, _ => none

def take : Progress → Token → Option Progress
  | value stack opened, token => takeValue stack opened token
  | name stack fields _, .string n => some (colon stack fields n)
  | name stack fields true, .closeObject => some (done stack (.object fields.reverse))
  | name _ _ _, _ => none
  | colon stack fields n, .colon => some (value (.object fields n :: stack) false)
  | colon _ _ _, _ => none
  | done stack v, token => takeNext stack v token

end Progress

def ofTokens? (tokens : List Token) : Option Json :=
  match tokens.foldlM Progress.take .start with
  | some (.done [] v) => some v
  | _ => none

def read? (text : String) : Option Json := do ofTokens? (← tokens? text.toList)

/-! ## Tokens and values -/

mutual

theorem take_tokens (j : Json) (stack : List Open) (opened : Bool) (rest : List Token) :
    (j.tokens ++ rest).foldlM Progress.take (.value stack opened) =
      rest.foldlM Progress.take (.done stack j) := by
  match j with
  | null => rfl
  | boolean b => rfl
  | number text => rfl
  | string text => rfl
  | array [] => rfl
  | array (item :: items) =>
    have h := take_tokens item (.array [] :: stack) true (itemTokens items ++ rest)
    have h' := take_itemTokens items item [] stack rest
    simp only [tokens, List.cons_append, List.append_assoc, List.foldlM_cons] at h h' ⊢
    simpa [Progress.take, Progress.takeValue, h'] using h
  | object [] => rfl
  | object ((name, v) :: fields) =>
    have h := take_tokens v (.object [] name :: stack) false (fieldTokens fields ++ rest)
    have h' := take_fieldTokens fields name v [] stack rest
    simp only [tokens, List.cons_append, List.append_assoc, List.foldlM_cons] at h h' ⊢
    simpa [Progress.take, Progress.takeValue, h'] using h

theorem take_itemTokens (items : List Json) (v : Json) (before : List Json) (stack : List Open)
    (rest : List Token) :
    (itemTokens items ++ rest).foldlM Progress.take (.done (.array before :: stack) v) =
      rest.foldlM Progress.take (.done stack (.array (before.reverse ++ v :: items))) := by
  match items with
  | [] => simp [itemTokens, Progress.take, Progress.takeNext]
  | item :: items =>
    have h := take_tokens item (.array (v :: before) :: stack) false (itemTokens items ++ rest)
    have h' := take_itemTokens items item (v :: before) stack rest
    simp only [itemTokens, List.cons_append, List.append_assoc, List.foldlM_cons] at h h' ⊢
    simpa [Progress.take, Progress.takeNext, h'] using h

theorem take_fieldTokens (fields : List (Option String × Json)) (name : Option String) (v : Json)
    (before : List (Option String × Json)) (stack : List Open) (rest : List Token) :
    (fieldTokens fields ++ rest).foldlM Progress.take (.done (.object before name :: stack) v) =
      rest.foldlM Progress.take
        (.done stack (.object (before.reverse ++ (name, v) :: fields))) := by
  match fields with
  | [] => simp [fieldTokens, Progress.take, Progress.takeNext]
  | (n, w) :: fields =>
    have h := take_tokens w (.object ((name, v) :: before) n :: stack) false
      (fieldTokens fields ++ rest)
    have h' := take_fieldTokens fields n w ((name, v) :: before) stack rest
    simp only [fieldTokens, List.cons_append, List.append_assoc, List.foldlM_cons] at h h' ⊢
    simpa [Progress.take, Progress.takeNext, h'] using h

end

theorem ofTokens?_tokens (j : Json) : ofTokens? j.tokens = some j := by
  have h := take_tokens j [] false []
  simp only [List.append_nil] at h
  simp [ofTokens?, Progress.start, h]

end Json

end Gridcall
