import Gridcall.Json.Text

/-!
# Flat TOML documents

A reader for the part of TOML that settings need: lines with a key and a text, a truth value or an
integer. Tables, dotted keys and all other values are refused.

* `Toml.Value` : the values;
* `Toml.entries?` : the keys of a document with their values, in order.
-/

namespace Gridcall

namespace Toml

inductive Value where
  | string (s : String)
  | boolean (b : Bool)
  /-- A signed 64-bit integer. -/
  | integer (i : Int)

/-! ## Characters -/

def isSpace (c : Char) : Bool := c == ' ' || c == '\t'

/-- Whether a character may stand in comments and texts: anything but control characters, tabs
excepted. -/
def isPlain (c : Char) : Bool := c == '\t' || (0x20 ≤ c.toNat && c.toNat != 0x7f)

/-- Whether a character may stand in a key without quotes. -/
def isKeyChar (c : Char) : Bool := c.isAlphanum || c == '_' || c == '-'

/-- The character that a backslash and a letter stand for. -/
def shortEscape? (c : Char) : Option Char :=
  match c with
  | '"' => some '"'
  | '\\' => some '\\'
  | 'b' => some '\x08'
  | 'f' => some '\x0c'
  | 'n' => some '\n'
  | 'r' => some '\r'
  | 't' => some '\t'
  | _ => none

/-! ## Texts -/

def prepend (c : Char) (read : Option (List Char × List Char)) : Option (List Char × List Char) :=
  read.map fun (text, rest) => (c :: text, rest)

/-- Reads a text in double quotes, up to the closing one. -/
def readBasic? : List Char → Option (List Char × List Char)
  | [] => none
  | '"' :: rest => some ([], rest)
  | '\\' :: 'u' :: a :: b :: c :: d :: rest => do
    prepend (← charOfHex? [a, b, c, d]) (readBasic? rest)
  | '\\' :: 'U' :: a :: b :: c :: d :: e :: f :: g :: h :: rest => do
    prepend (← charOfHex? [a, b, c, d, e, f, g, h]) (readBasic? rest)
  | '\\' :: c :: rest => do prepend (← shortEscape? c) (readBasic? rest)
  | c :: rest => if isPlain c && c != '\\' then prepend c (readBasic? rest) else none

/-- Reads a text in single quotes, up to the closing one. -/
def readLiteral? : List Char → Option (List Char × List Char)
  | [] => none
  | '\'' :: rest => some ([], rest)
  | c :: rest => if isPlain c then prepend c (readLiteral? rest) else none

def endsLine (cs : List Char) : Bool :=
  match cs.dropWhile isSpace with
  | '\n' :: _ => true
  | '\r' :: '\n' :: _ => true
  | _ => false

/-- Reads a text in three double quotes, up to the closing ones, which up to two further quotes may
precede. A backslash at the end of a line takes away all white space up to the next character;
`skipping` says that this is going on. -/
def readLongBasic? : (skipping : Bool) → List Char → Option (List Char × List Char)
  | _, [] => none
  | _, '"' :: '"' :: '"' :: '"' :: '"' :: rest => some (['"', '"'], rest)
  | _, '"' :: '"' :: '"' :: '"' :: rest => some (['"'], rest)
  | _, '"' :: '"' :: '"' :: rest => some ([], rest)
  | skipping, '\r' :: '\n' :: rest =>
    if skipping then readLongBasic? true rest else prepend '\n' (readLongBasic? false rest)
  | skipping, '\n' :: rest =>
    if skipping then readLongBasic? true rest else prepend '\n' (readLongBasic? false rest)
  | _, '\\' :: 'u' :: a :: b :: c :: d :: rest => do
    prepend (← charOfHex? [a, b, c, d]) (readLongBasic? false rest)
  | _, '\\' :: 'U' :: a :: b :: c :: d :: e :: f :: g :: h :: rest => do
    prepend (← charOfHex? [a, b, c, d, e, f, g, h]) (readLongBasic? false rest)
  | _, '\\' :: c :: rest =>
    if endsLine (c :: rest) then readLongBasic? true (c :: rest)
    else do prepend (← shortEscape? c) (readLongBasic? false rest)
  | skipping, c :: rest =>
    if skipping && isSpace c then readLongBasic? true rest
    else if isPlain c && c != '\\' then prepend c (readLongBasic? false rest)
    else none

/-- Reads a text in three single quotes, up to the closing ones, which up to two further quotes may
precede. -/
def readLongLiteral? : List Char → Option (List Char × List Char)
  | [] => none
  | '\'' :: '\'' :: '\'' :: '\'' :: '\'' :: rest => some (['\'', '\''], rest)
  | '\'' :: '\'' :: '\'' :: '\'' :: rest => some (['\''], rest)
  | '\'' :: '\'' :: '\'' :: rest => some ([], rest)
  | '\r' :: '\n' :: rest => prepend '\n' (readLongLiteral? rest)
  | '\n' :: rest => prepend '\n' (readLongLiteral? rest)
  | c :: rest => if isPlain c then prepend c (readLongLiteral? rest) else none

def dropNewline : List Char → List Char
  | '\n' :: rest => rest
  | '\r' :: '\n' :: rest => rest
  | cs => cs

/-- Reads a text of any kind; `none` as well if no text begins here. -/
def readText? : List Char → Option (List Char × List Char)
  | '"' :: '"' :: '"' :: rest => readLongBasic? false (dropNewline rest)
  | '\'' :: '\'' :: '\'' :: rest => readLongLiteral? (dropNewline rest)
  | '"' :: rest => readBasic? rest
  | '\'' :: rest => readLiteral? rest
  | _ => none

/-! ## Integers -/

/-- Digits with single underscores between them, the underscores dropped. -/
def digits? (isDigit : Char → Bool) : List Char → Option (List Char)
  | [] => none
  | [c] => if isDigit c then some [c] else none
  | c :: '_' :: rest => if isDigit c then (digits? isDigit rest).map (c :: ·) else none
  | c :: rest => if isDigit c then (digits? isDigit rest).map (c :: ·) else none

def natural? (base : Nat) (cs : List Char) : Option Nat := do
  let isDigit c := ((hexValue? c).map fun d => decide (d < base)).getD false
  return (← digits? isDigit cs).foldl (fun n c => base * n + (hexValue? c).getD 0) 0

/-- A decimal number, which begins with zero only if it is zero. -/
def decimal? (cs : List Char) : Option Nat :=
  if cs.head? == some '0' && cs.length != 1 then none else natural? 10 cs

def anyInteger? : List Char → Option Int
  | '0' :: 'x' :: cs => (natural? 16 cs).map Int.ofNat
  | '0' :: 'o' :: cs => (natural? 8 cs).map Int.ofNat
  | '0' :: 'b' :: cs => (natural? 2 cs).map Int.ofNat
  | '-' :: cs => (decimal? cs).map fun n => -(n : Int)
  | '+' :: cs => (decimal? cs).map Int.ofNat
  | cs => (decimal? cs).map Int.ofNat

def integer? (cs : List Char) : Option Int := do
  let i ← anyInteger? cs
  guard (Int64.minValue.toInt ≤ i && i ≤ Int64.maxValue.toInt)
  return i

/-! ## Lines -/

def readValue? (cs : List Char) : Option (Value × List Char) :=
  match cs with
  | '"' :: _ => (readText? cs).map fun (text, rest) => (.string (String.ofList text), rest)
  | '\'' :: _ => (readText? cs).map fun (text, rest) => (.string (String.ofList text), rest)
  | cs =>
    let isWord c := isKeyChar c || c == '+'
    let word := cs.takeWhile isWord
    let value? :=
      if word == ['t', 'r', 'u', 'e'] then some (.boolean true)
      else if word == ['f', 'a', 'l', 's', 'e'] then some (.boolean false)
      else (integer? word).map .integer
    value?.map fun value => (value, cs.dropWhile isWord)

/-- Reads a key; keys in quotes stand on one line. -/
def readKey? (cs : List Char) : Option (List Char × List Char) :=
  match cs with
  | '"' :: rest => readBasic? rest
  | '\'' :: rest => readLiteral? rest
  | cs =>
    let key := cs.takeWhile isKeyChar
    if key.isEmpty then none else some (key, cs.dropWhile isKeyChar)

/-- Drops the rest of a line that holds at most a comment. -/
def dropLine? (cs : List Char) : Option (List Char) :=
  let cs := match cs.dropWhile isSpace with
    | '#' :: rest => rest.dropWhile isPlain
    | cs => cs
  match cs with
  | [] => some []
  | '\n' :: rest => some rest
  | '\r' :: '\n' :: rest => some rest
  | _ => none

def readLine? (cs : List Char) : Option ((String × Value) × List Char) := do
  let (key, cs) ← readKey? (cs.dropWhile isSpace)
  match cs.dropWhile isSpace with
  | '=' :: cs =>
    let (value, cs) ← readValue? (cs.dropWhile isSpace)
    return ((String.ofList key, value), ← dropLine? cs)
  | _ => none

/-- Reads entries, with blank lines and comments between them. -/
def readEntries? (cs : List Char) : Option (List (String × Value)) :=
  if cs.isEmpty then some []
  else
    let next : Option (Option (String × Value) × List Char) :=
      match dropLine? cs with
      | some rest => some (none, rest)
      | none => (readLine? cs).map fun (entry, rest) => (some entry, rest)
    match next with
    | none => none
    | some (found, rest) =>
      if rest.length < cs.length then (readEntries? rest).map (found.toList ++ ·) else none
termination_by cs.length

/-- The entries of a document, a byte order mark at its start skipped. -/
def entries? (text : String) : Option (List (String × Value)) :=
  match text.toList with
  | '\ufeff' :: cs => readEntries? cs
  | cs => readEntries? cs

end Toml

end Gridcall
