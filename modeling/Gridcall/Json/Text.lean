import Gridcall.Text.Hex

/-!
# Text in JSON

A text stands between quotes, with some characters written as escapes.

* `Json.quote` : writes a text; only quotes, backslashes and control characters are escaped;
* `Json.splitText?` : finds the closing quote;
* `Json.readBody?` : reads what stands between the quotes.

Escapes name UTF-16 units, so a body can be well formed and still spell no text, when it holds one
half of a surrogate pair without the other.
-/

namespace Gridcall

namespace Json

/-! ## Writing -/

/-- The lower case hexadecimal digit of a number below sixteen. -/
def hexDigit (n : Nat) : Char := Nat.digitChar n

def escape (c : Char) : List Char :=
  if c == '"' then ['\\', '"']
  else if c == '\\' then ['\\', '\\']
  else if c == '\x08' then ['\\', 'b']
  else if c == '\t' then ['\\', 't']
  else if c == '\n' then ['\\', 'n']
  else if c == '\x0c' then ['\\', 'f']
  else if c == '\r' then ['\\', 'r']
  else if c.toNat < 0x20 then ['\\', 'u', '0', '0', hexDigit (c.toNat / 16), hexDigit (c.toNat % 16)]
  else [c]

def quote (s : String) : List Char := '"' :: (s.toList.flatMap escape ++ ['"'])

/-! ## Reading -/

/-- The character that a backslash and a letter stand for. -/
def shortEscape? (c : Char) : Option Char :=
  match c with
  | '"' => some '"'
  | '\\' => some '\\'
  | '/' => some '/'
  | 'b' => some '\x08'
  | 'f' => some '\x0c'
  | 'n' => some '\n'
  | 'r' => some '\r'
  | 't' => some '\t'
  | _ => none

/-- The codes that a body spells: the code of each character, the UTF-16 unit of each numeric
escape. -/
def bodyCodes? : List Char → Option (List Nat)
  | [] => some []
  | '\\' :: 'u' :: a :: b :: c :: d :: rest => do
    let unit ← hexNumber? [a, b, c, d]
    return unit :: (← bodyCodes? rest)
  | '\\' :: c :: rest => do
    let escaped ← shortEscape? c
    return escaped.toNat :: (← bodyCodes? rest)
  | c :: rest => do
    guard (0x20 ≤ c.toNat && c != '\\')
    return c.toNat :: (← bodyCodes? rest)

/-- Whether a code is the first half of a surrogate pair. -/
def isHighSurrogate (code : Nat) : Bool := 0xD800 ≤ code && code < 0xDC00

/-- Whether a code is the second half of a surrogate pair. -/
def isLowSurrogate (code : Nat) : Bool := 0xDC00 ≤ code && code < 0xE000

/-- The characters of codes, surrogate pairs joined; `none` if a half stands alone. -/
def joinCodes? : List Nat → Option (List Char)
  | [] => some []
  | [code] => if isHighSurrogate code || isLowSurrogate code then none else some [Char.ofNat code]
  | code :: next :: rest =>
    if isHighSurrogate code then
      if isLowSurrogate next then
        (joinCodes? rest).map fun cs =>
          Char.ofNat (0x10000 + 0x400 * (code - 0xD800) + (next - 0xDC00)) :: cs
      else none
    else if isLowSurrogate code then none
    else (joinCodes? (next :: rest)).map fun cs => Char.ofNat code :: cs

/-- Reads a body. The outer answer says whether it is well formed, the inner one is its text. -/
def readBody? (body : List Char) : Option (Option String) :=
  (bodyCodes? body).map fun codes => (joinCodes? codes).map String.ofList

/-- Splits at the closing quote: the body before it and the rest after it. -/
def splitText? : List Char → Option (List Char × List Char)
  | [] => none
  | '"' :: rest => some ([], rest)
  | '\\' :: c :: rest => (splitText? rest).map fun (body, rest) => ('\\' :: c :: body, rest)
  | c :: rest => (splitText? rest).map fun (body, rest) => (c :: body, rest)

theorem length_lt_of_splitText? {cs body rest : List Char} (h : splitText? cs = some (body, rest)) :
    rest.length < cs.length := by
  fun_induction splitText? cs generalizing body with
  | case1 => simp at h
  | case2 rest =>
    simp only [Option.some.injEq, Prod.mk.injEq] at h
    simp [h.2]
  | case3 c cs ih =>
    obtain ⟨⟨b, r⟩, hr, heq⟩ := Option.map_eq_some_iff.1 h
    simp only [Prod.mk.injEq] at heq
    obtain ⟨_, rfl⟩ := heq
    have := ih hr
    simp only [List.length_cons]
    omega
  | case4 c cs _ _ ih =>
    obtain ⟨⟨b, r⟩, hr, heq⟩ := Option.map_eq_some_iff.1 h
    simp only [Prod.mk.injEq] at heq
    obtain ⟨_, rfl⟩ := heq
    have := ih hr
    simp only [List.length_cons]
    omega

end Json

end Gridcall
