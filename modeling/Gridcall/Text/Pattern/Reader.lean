import Gridcall.Text.Alphanumeric
import Gridcall.Text.Pattern.Bracket

/-!
# Reading patterns

Patterns are written as regular expressions: `.` and classes such as `[a-z]` for one character, `|`
for a choice, groups in parentheses, and `?`, `*` and `+` for repetitions. There are no counted
repetitions: a brace that is not marked by a backslash is an error.

* `Pattern.signs?` : the signs that a pattern consists of;
* `Pattern.ofSigns?` : the pattern of a list of signs;
* `Pattern.ofText?` : the pattern that a text describes.
-/

namespace Gridcall

namespace Pattern

/-! ## Signs -/

inductive Sign where
  /-- A part that is not divided further, and how deep brackets are nested in it. -/
  | atom (p : Pattern) (depth : Nat)
  | flags
  /-- The beginning of a group, and its number if it has one. -/
  | opened (number : Option Nat)
  | closed
  | bar
  | repeated (how : Repetition)

def isGroupName : List Char → Bool
  | [] => false
  | c :: cs =>
    (c == '_' || isAlphabetic c) &&
      cs.all fun c => c == '_' || c == '.' || c == '[' || c == ']' || isAlphanumeric c

/-- Where in a pattern its reader stands. -/
structure SignState where
  flags : PatternFlags := {}
  /-- The flags behind each open group. -/
  outer : List PatternFlags := []
  names : List (List Char) := []
  /-- How many groups have a number so far. -/
  numbered : Nat := 0

namespace SignState

def enter (s : SignState) (flags : PatternFlags) : SignState :=
  { s with flags, outer := s.flags :: s.outer }

def enterNumbered (s : SignState) : Sign × SignState :=
  (.opened (some s.numbered), { s.enter s.flags with numbered := s.numbered + 1 })

/-- Goes into a group behind its name, which is new and ends at an angle bracket. -/
def enterNamed? (s : SignState) (cs : List Char) : Option (Sign × SignState × List Char) :=
  let name := cs.takeWhile (· ≠ '>')
  match cs.dropWhile (· ≠ '>') with
  | [] => none
  | _ :: rest =>
    if isGroupName name && !s.names.contains name then
      let (sign, s) := s.enterNumbered
      some (sign, { s with names := name :: s.names }, rest)
    else none

def leave? (s : SignState) : Option SignState :=
  match s.outer with
  | [] => none
  | flags :: outer => some { s with flags, outer }

end SignState

/-- Reads the sign that begins with a question mark behind a parenthesis: a group with a name, a
group with flags of its own, or a change of flags. -/
def special? (s : SignState) : List Char → Option (Sign × SignState × List Char)
  | 'P' :: '<' :: cs => s.enterNamed? cs
  | '<' :: cs => s.enterNamed? cs
  | cs =>
    let letters := cs.takeWhile fun c => c ≠ ')' && c ≠ ':'
    match cs.dropWhile fun c => c ≠ ')' && c ≠ ':' with
    | ')' :: rest =>
      if letters.isEmpty then none
      else (s.flags.setAll? [] true letters).map fun flags => (.flags, { s with flags }, rest)
    | ':' :: rest =>
      (s.flags.setAll? [] true letters).map fun flags => (.opened none, s.enter flags, rest)
    | _ => none

/-- Reads a repetition behind its mark; a question mark reverses what is tried first. -/
def repetition (f : PatternFlags) (optional again : Bool) (cs : List Char) : Sign × List Char :=
  match cs with
  | '?' :: cs => (.repeated { optional, again, fewFirst := !f.fewFirst }, cs)
  | cs => (.repeated { optional, again, fewFirst := f.fewFirst }, cs)

def atom? (f : PatternFlags) : List Char → Option (Sign × List Char)
  | [] => none
  | c :: cs =>
    match c with
    | '\x7b' => none
    | '[' => do
      let (t, cs) ← Bracket.read? f cs
      return (.atom (.ofTable f.bytes t.table) t.depth, cs)
    | '.' => f.dot?.map fun t => (.atom (.ofTable false t) 0, cs)
    | '^' => some (.atom (.place (.start f.extent)) 0, cs)
    | '$' => some (.atom (.place (.finish f.extent)) 0, cs)
    | '\\' => do
      let (e, cs) ← Escape.read? f cs
      match e with
      | .place p => return (.atom (.place p) 0, cs)
      | .oneOf t => return (.atom (.ofTable true (← f.withCase? t)) 0, cs)
      | .char c => return (.atom (← f.literal? c) 0, cs)
    | c => (f.literal? c).map fun p => (.atom p 0, cs)

def sign? (s : SignState) : List Char → Option (Sign × SignState × List Char)
  | [] => none
  | c :: cs =>
    match c with
    | '(' =>
      match s.flags.skip cs with
      | '?' :: cs => special? s cs
      | _ => let (sign, s) := s.enterNumbered; some (sign, s, cs)
    | ')' => s.leave?.map fun s => (.closed, s, cs)
    | '|' => some (.bar, s, cs)
    | '?' => let (sign, cs) := repetition s.flags true false cs; some (sign, s, cs)
    | '*' => let (sign, cs) := repetition s.flags true true cs; some (sign, s, cs)
    | '+' => let (sign, cs) := repetition s.flags false true cs; some (sign, s, cs)
    | c => (atom? s.flags (c :: cs)).map fun (sign, cs) => (sign, s, cs)

/-- The signs of a pattern; `fuel` bounds its length. -/
def signs? : (fuel : Nat) → SignState → List Char → Option (List Sign)
  | 0, _, _ => some []
  | fuel + 1, s, cs =>
    match s.flags.skip cs with
    | [] => some []
    | cs => do
      let (sign, s, rest) ← sign? s cs
      return sign :: (← signs? fuel s rest)

/-! ## Groups -/

structure Part where
  pattern : Pattern
  /-- How deep groups, repetitions, sequences, choices and brackets are nested in it. -/
  depth : Nat
  repeatable : Bool := true

/-- How deep parts are nested that are put together to one. A part alone stays what it is. -/
def Part.depthOf (parts : List Part) : Nat :=
  let depth := parts.foldl (fun depth part => max depth part.depth) 0
  if parts.length ≤ 1 then depth else depth + 1

/-- A group that is being read. -/
structure OpenGroup where
  number : Option Nat := none
  /-- The alternatives before the last bar, the latest first. -/
  choices : List Part := []
  /-- The parts behind it, the latest first. -/
  parts : List Part := []

namespace OpenGroup

def add (g : OpenGroup) (part : Part) : OpenGroup := { g with parts := part :: g.parts }

def joined (g : OpenGroup) : Part :=
  { pattern := inOrder (g.parts.reverse.map (·.pattern)), depth := Part.depthOf g.parts }

/-- Goes on with the next alternative. -/
def next (g : OpenGroup) : OpenGroup := { g with choices := g.joined :: g.choices, parts := [] }

/-- All alternatives. -/
def whole (g : OpenGroup) : Part :=
  let choices := g.joined :: g.choices
  { pattern := oneOf (choices.reverse.map (·.pattern)), depth := Part.depthOf choices }

def close (g : OpenGroup) : Part :=
  let whole := g.whole
  let pattern := match g.number with
    | some number => .group number whole.pattern
    | none => whole.pattern
  { pattern, depth := whole.depth + 1 }

def repeat? (g : OpenGroup) (how : Repetition) : Option OpenGroup :=
  match g.parts with
  | [] => none
  | part :: parts =>
    if part.repeatable then
      some { g with parts := ⟨part.pattern.times how, part.depth + 1, true⟩ :: parts }
    else none

end OpenGroup

def maxDepth : Nat := 250

def ofSigns? : OpenGroup → List OpenGroup → List Sign → Option Pattern
  | top, outer, [] =>
    if outer.isEmpty && top.whole.depth ≤ maxDepth then some top.whole.pattern else none
  | top, outer, sign :: signs =>
    match sign with
    | .atom p depth => ofSigns? (top.add ⟨p, depth, true⟩) outer signs
    | .flags => ofSigns? (top.add ⟨.nothing, 0, false⟩) outer signs
    | .opened number => ofSigns? { number } (top :: outer) signs
    | .closed =>
      match outer with
      | [] => none
      | next :: outer => ofSigns? (next.add top.close) outer signs
    | .bar => ofSigns? top.next outer signs
    | .repeated how => (top.repeat? how).bind fun top => ofSigns? top outer signs

def ofText? (text : String) : Option Pattern :=
  (signs? (text.length + 1) {} text.toList).bind (ofSigns? {} [])

end Pattern

end Gridcall
