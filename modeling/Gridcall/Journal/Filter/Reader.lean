import Gridcall.Journal.Filter
import Gridcall.Number.Reading
import Gridcall.Text.Pattern.Reader

/-!
# Reading log filters

The rules of a filter stand between commas. A rule is a level, or a place with a span in brackets and
a level, of which any may be missing: `warn`, `xlbridge::heap=debug`, `[dispatch{export=7}]=info`.

* `LogFilter.ofText?` : reads a filter;
* `LogFilter.ofSetting` : the filter of a program: warnings, if none is set or it cannot be read.

The marks of a rule are looked for behind its leading blanks, but its parts are cut out of the rule as
it stands, at the same distance from its beginning.
-/

namespace Gridcall

namespace LogFilter

/-! ## Cutting -/

/-- What is left of a text behind a number of bytes, unless a character would be cut. -/
def dropBytes? : List Char → Nat → Option (List Char)
  | cs, 0 => some cs
  | [], _ => none
  | c :: cs, n => if c.utf8Size ≤ n then dropBytes? cs (n - c.utf8Size) else none

/-- The beginning of a text with a number of bytes, unless a character would be cut. -/
def takeBytes? : List Char → Nat → Option (List Char)
  | _, 0 => some []
  | [], _ => none
  | c :: cs, n => if c.utf8Size ≤ n then (takeBytes? cs (n - c.utf8Size)).map (c :: ·) else none

def part? (text : List Char) (first last : Nat) : Option String := do
  return String.ofList (← takeBytes? (← dropBytes? text first) (last - first))

/-- The first mark in a text, with the number of bytes before it, if there are `n` before the text;
and what follows it. -/
def findMark? (isMark : Char → Bool) : (n : Nat) → List Char → Option (Nat × Char × List Char)
  | _, [] => none
  | n, c :: cs => if isMark c then some (n, c, cs) else findMark? isMark (n + c.utf8Size) cs

/-! ## Levels and tests -/

def reach? (word : String) : Option Nat :=
  match readUnsigned? word with
  | some n => if n ≤ everything then some n else none
  | none =>
    match word.toLower with
    | "off" => some 0
    | "error" => some Level.error.reach
    | "warn" => some Level.warn.reach
    | "info" => some Level.info.reach
    | "debug" => some Level.debug.reach
    | "trace" => some everything
    | _ => none
where
  /-- Digits, possibly behind a plus sign. -/
  readUnsigned? (word : String) : Option Nat :=
    match word.toList with
    | '+' :: cs => readNatural? cs
    | cs => readNatural? cs

/-- The reach that the end of a rule stands for; everything, if nothing is there. -/
def lastReach? (rule : List Char) (first : Nat) : Option Nat := do
  let word ← dropBytes? rule first
  if word.isEmpty then return everything else reach? (String.ofList word)

/-- Reads what the value of a field is compared with. Truth values and numbers stand for themselves,
anything else is a pattern. -/
def test? (cs : List Char) : Option FieldTest :=
  let text := String.ofList cs
  if text = "true" || text = "false" then some .never
  else match reach?.readUnsigned? text with
    | some n => if n < UInt64.size then some (.number n) else some .never
    | none =>
      if (readBinary? cs : Option (Binary .double)).isSome then some .never
      else (Pattern.ofText? text).map (.pattern text)

/-- Reads a field: its name and, behind an equals sign, its value up to the next such sign. -/
def field? (cs : List Char) : Option (String × Option FieldTest) :=
  let name := String.ofList (cs.takeWhile (· ≠ '='))
  match cs.dropWhile (· ≠ '=') with
  | [] => some (name, none)
  | _ :: value => (test? (value.takeWhile (· ≠ '='))).map fun test => (name, some test)

/-! ## Rules -/

def ruleBehind? (rule : List Char) (scope : LogScope) (n : Nat) : List Char → Option LogRule
  | [] => some ⟨scope, everything⟩
  | '=' :: _ => (lastReach? rule (n + 1)).map (⟨scope, ·⟩)
  | _ => none

/-- Reads a rule from byte `n`, where its span begins: a name, a field in braces, or both. -/
def spanRule? (rule : List Char) (place : String) (n : Nat) (cs : List Char) : Option LogRule := do
  let (stop, mark, cs) ← findMark? (fun c => c == ']' || c == '\x7b') n cs
  let name ← part? rule n stop
  if mark = ']' then
    ruleBehind? rule { place, span := some name, field := none } (stop + 1) cs
  else
    let (last, _, cs) ← findMark? (· == '\x7d') (stop + 1) cs
    let text ← part? rule (stop + 1) last
    guard (text ≠ "")
    let field ← field? text.toList
    let span := if name = "" then none else some name
    match cs with
    | ']' :: cs => ruleBehind? rule { place, span, field := some field } (last + 2) cs
    | _ => none

/-- Whether a rule can begin with a character that opens no span. -/
def beginsRule (c : Char) : Bool := c == '-' || c == ':' || c == '_' || isAlphanumeric c

def rule? (text : String) : Option LogRule :=
  let rule := text.toList
  match trimBlank rule with
  | [] => none
  | '[' :: cs => spanRule? rule "" 1 cs
  | c :: cs =>
    if !beginsRule c then none
    else match findMark? (fun c => c == '=' || c == '[') 0 (c :: cs) with
      | none =>
        match reach? text with
        | some reach => some ⟨.everywhere, reach⟩
        | none => some ⟨{ LogScope.everywhere with place := text }, everything⟩
      | some (stop, mark, cs) => do
        let place ← part? rule 0 stop
        if mark = '[' then spanRule? rule place (stop + 1) cs
        else return ⟨{ LogScope.everywhere with place }, ← lastReach? rule (stop + 1)⟩

/-! ## Filters -/

/-- Reads a filter. Without any rule it shows errors. -/
def ofText? (text : String) : Option LogFilter := do
  let rules ← ((text.splitOn ",").filter (· ≠ "")).mapM rule?
  return if rules.isEmpty then [⟨.everywhere, Level.error.reach⟩] else rules

def ofSetting (text : Option String) : LogFilter :=
  (text.bind ofText?).getD [⟨.everywhere, Level.warn.reach⟩]

end LogFilter

end Gridcall
