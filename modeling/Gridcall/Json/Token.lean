import Gridcall.Json.Number
import Gridcall.Json.Text

/-!
# Tokens of JSON

* `Token` : the signs that a JSON text consists of;
* `Token.chars` : how a token is written;
* `Json.tokens?` : the tokens of a text, the space between them dropped.
-/

namespace Gridcall

namespace Json

/-- A sign of a JSON text. -/
inductive Token where
  | openArray
  | closeArray
  | openObject
  | closeObject
  | comma
  | colon
  | null
  | boolean (b : Bool)
  /-- A number, as it is written. -/
  | number (text : String)
  /-- A text; `none` stands for one that holds half of a surrogate pair. -/
  | string (text : Option String)
deriving DecidableEq

def Token.chars : Token → List Char
  | openArray => ['[']
  | closeArray => [']']
  | openObject => ['{']
  | closeObject => ['}']
  | comma => [',']
  | colon => [':']
  | null => ['n', 'u', 'l', 'l']
  | boolean true => ['t', 'r', 'u', 'e']
  | boolean false => ['f', 'a', 'l', 's', 'e']
  | number text => text.toList
  | string (some text) => quote text
  | string none => ['"', '\\', 'u', 'd', '8', '0', '0', '"']

def Token.ofMark? (c : Char) : Option Token :=
  match c with
  | '[' => some openArray
  | ']' => some closeArray
  | '{' => some openObject
  | '}' => some closeObject
  | ',' => some comma
  | ':' => some colon
  | _ => none

def isSpace (c : Char) : Bool := c == ' ' || c == '\t' || c == '\n' || c == '\r'

def isWordChar (c : Char) : Bool := c.isAlphanum || c == '+' || c == '-' || c == '.'

def Token.ofWord? (word : List Char) : Option Token :=
  if word = null.chars then some null
  else if word = (boolean true).chars then some (boolean true)
  else if word = (boolean false).chars then some (boolean false)
  else (NumberParts.ofChars? word).map fun _ => number (String.ofList word)

def tokens? : List Char → Option (List Token)
  | [] => some []
  | c :: cs =>
    if isSpace c then tokens? cs
    else match Token.ofMark? c with
      | some token => do return token :: (← tokens? cs)
      | none =>
        if c == '"' then
          match h : splitText? cs with
          | none => none
          | some (body, rest) => do
            let text ← readBody? body
            have := length_lt_of_splitText? h
            return .string text :: (← tokens? rest)
        else do
          let token ← Token.ofWord? (c :: cs.takeWhile isWordChar)
          return token :: (← tokens? (cs.dropWhile isWordChar))
termination_by cs => cs.length
decreasing_by
  · simp
  · simp
  · simp only [List.length_cons]; omega
  · have := (List.dropWhile_suffix isWordChar (l := cs)).length_le
    simp only [List.length_cons]
    omega

end Json

end Gridcall
