import Gridcall.Text.Hex
import Gridcall.Text.Pattern.Flags

/-!
# Escapes and classes of patterns

What a backslash stands for, and classes of characters in brackets.

* `Escape.read?` : what a backslash and the characters behind it stand for;
* `Bracket.read?` : the class that is written behind a bracket.
-/

namespace Gridcall

/-! ## Escapes -/

/-- What a backslash and the characters behind it stand for. -/
inductive Escape where
  | char (c : Char)
  /-- One character of a class of bytes. -/
  | oneOf (t : CharTable)
  | place (p : Place)

namespace Escape

/-- Takes characters, behind what is skipped before each of them. -/
def take? (f : PatternFlags) : Nat → List Char → Option (List Char × List Char)
  | 0, cs => some ([], cs)
  | count + 1, cs =>
    match f.skip cs with
    | [] => none
    | c :: cs => (take? f count cs).map fun (taken, rest) => (c :: taken, rest)

def hex? (f : PatternFlags) (count : Nat) (cs : List Char) : Option (Escape × List Char) := do
  let (digits, rest) ← take? f count cs
  return (.char (← charOfHex? digits), rest)

def isAscii : Escape → Bool
  | char c => c.toNat < 0x80
  | _ => true

/-- Whether a character stands for itself behind a backslash. -/
def isEscapable (c : Char) : Bool := c.toNat < 0x80 && !c.isAlphanum && c != '<' && c != '>'

def ofByteLetter? (c : Char) : Option Escape :=
  match c with
  | 'd' => some (.oneOf .digits)
  | 's' => some (.oneOf .blanks)
  | 'w' => some (.oneOf .wordChars)
  | 'b' => some (.place (.boundary true))
  | 'B' => some (.place (.boundary false))
  | '<' => some (.place .wordStart)
  | '>' => some (.place .wordFinish)
  | _ => none

def ofLetter? (c : Char) : Option Escape :=
  match c with
  | 'a' => some (.char '\x07')
  | 'f' => some (.char '\x0c')
  | 't' => some (.char '\t')
  | 'n' => some (.char '\n')
  | 'r' => some (.char '\r')
  | 'v' => some (.char '\x0b')
  | 'A' => some (.place (.start .text))
  | 'z' => some (.place (.finish .text))
  | c => if isEscapable c then some (.char c) else none

def read? (f : PatternFlags) : List Char → Option (Escape × List Char)
  | [] => none
  | 'x' :: cs => (hex? f 2 cs).filter fun e => !f.bytes || e.1.isAscii
  | 'u' :: cs => hex? f 4 cs
  | 'U' :: cs => hex? f 8 cs
  | c :: cs =>
    ((if f.bytes then ofByteLetter? c else none).or (ofLetter? c)).map fun e => (e, cs)

end Escape

/-! ## Classes -/

/-- How two classes in brackets are combined. -/
inductive SetOperator where
  | inter
  | minus
  /-- The characters of one only. -/
  | difference

def SetOperator.combine : SetOperator → CharTable → CharTable → CharTable
  | inter, s, t => s.inter t
  | minus, s, t => s.minus t
  | difference, s, t => s.difference t

def SetOperator.ofChar? (c : Char) : Option SetOperator :=
  match c with
  | '&' => some inter
  | '-' => some minus
  | '~' => some difference
  | _ => none

/-- A class, and how deep brackets and operators are nested in it. -/
structure NestedTable where
  table : CharTable
  /-- How deep its parts are nested. -/
  depth : Nat

/-- A class in brackets that is being read. -/
structure Bracket where
  /-- Whether the class holds what is not listed. -/
  negated : Bool
  /-- Whether nothing but dashes has been read, which stand for themselves here. -/
  opened : Bool := true
  /-- What is listed behind the last operator. -/
  items : List NestedTable := []
  /-- The class before the last operator, and the operator. -/
  left : Option (NestedTable × SetOperator) := none

namespace Bracket

def list (b : Bracket) (t : CharTable) (depth : Nat) : Bracket :=
  { b with opened := false, items := ⟨t, depth⟩ :: b.items }

/-- Lists a dash, or a closing bracket in front of everything else. -/
def listMark (b : Bracket) (t : CharTable) (opened : Bool) : Bracket :=
  { b with opened, items := ⟨t, 0⟩ :: b.items }

/-- What is listed behind the last operator. -/
def union (b : Bracket) : NestedTable :=
  let table : CharTable := b.items.flatMap (·.table)
  let depth := b.items.foldl (fun depth t => max depth t.depth) 0
  { table := table.normal, depth := if b.items.length ≤ 1 then depth else depth + 1 }

def listed (b : Bracket) : NestedTable :=
  match b.left with
  | some (t, operator) =>
    { table := operator.combine t.table b.union.table, depth := max t.depth b.union.depth + 1 }
  | none => b.union

/-- Goes on behind an operator. -/
def operate (b : Bracket) (operator : SetOperator) : Bracket :=
  { b with opened := false, items := [], left := some (b.listed, operator) }

def close? (f : PatternFlags) (b : Bracket) : Option NestedTable := do
  let t ← if b.negated then f.complement? b.listed.table else some b.listed.table
  return { table := t, depth := b.listed.depth + 1 }

/-! ## Reading -/

/-- Reads the beginning of a class: whether it is negated. -/
def start (f : PatternFlags) (cs : List Char) : Bracket × List Char :=
  match f.skip cs with
  | '^' :: cs => ({ negated := true }, cs)
  | cs => ({ negated := false }, cs)

/-- Reads a class that is given by its name, behind its bracket. Says whether it is negated. -/
def named? : List Char → Option (Bool × CharTable × List Char)
  | ':' :: '^' :: cs => (name? cs).map fun (t, cs) => (true, t, cs)
  | ':' :: cs => (name? cs).map fun (t, cs) => (false, t, cs)
  | _ => none
where
  /-- Reads the name of a class and the end of its bracket. -/
  name? (cs : List Char) : Option (CharTable × List Char) :=
    match cs.dropWhile Char.isAlpha with
    | ':' :: ']' :: rest =>
      (CharTable.ofClassName? (String.ofList (cs.takeWhile Char.isAlpha))).map fun t => (t, rest)
    | _ => none

/-- Reads an item of a class, which is no place and must be ASCII if characters are bytes. -/
def item? (f : PatternFlags) : List Char → Option (Escape × List Char)
  | [] => none
  | c :: cs => do
    let (e, cs) ← if c = '\\' then Escape.read? f cs else some (.char c, cs)
    match e with
    | .place _ => none
    | e => if f.bytes && !e.isAscii then none else return (e, cs)

def itemTable? (f : PatternFlags) : Escape → Option CharTable
  | .char c => f.withCase? (.single c)
  | .oneOf t => f.withCase? t
  | .place _ => none

/-- Reads an item or a range of a class. A range goes from a character to one that is not before
it. -/
def range? (f : PatternFlags) (cs : List Char) : Option (CharTable × List Char) := do
  let (first, cs) ← item? f cs
  match f.skip cs with
  | '-' :: more =>
    if f.peek? more = some ']' || f.peek? more = some '-' then return (← itemTable? f first, cs)
    else
      let (last, rest) ← item? f (f.skip more)
      match first, last with
      | .char a, .char b => if a ≤ b then return (← f.withCase? (.range a b), rest) else none
      | _, _ => none
  | _ => return (← itemTable? f first, cs)

/-- Reads an operator, which is a character that comes twice. -/
def operator? (c : Char) : List Char → Option (SetOperator × List Char)
  | [] => none
  | d :: cs => if d = c then (SetOperator.ofChar? c).map fun operator => (operator, cs) else none

/-- Reads a class up to its closing bracket, with the classes around it; `fuel` bounds its length. -/
def readWithin? (f : PatternFlags) :
    (fuel : Nat) → Bracket → List Bracket → List Char → Option (NestedTable × List Char)
  | 0, _, _, _ => none
  | fuel + 1, top, outer, cs =>
    match f.skip cs with
    | [] => none
    | c :: cs => do
      if top.opened && (c = '-' || (c = ']' && top.items.isEmpty)) then
        readWithin? f fuel (top.listMark (← f.withCase? (.single c)) (c = '-')) outer cs
      else if c = ']' then
        let t ← top.close? f
        match outer with
        | [] => return (t, cs)
        | next :: outer => readWithin? f fuel (next.list t.table t.depth) outer cs
      else
        match operator? c cs with
        | some (operator, cs) => readWithin? f fuel (top.operate operator) outer cs
        | none =>
          if c = '[' then
            match named? cs with
            | some (negated, t, cs) =>
              let t ← f.withCase? t
              let t ← if negated then f.complement? t else some t
              readWithin? f fuel (top.list t 0) outer cs
            | none =>
              let (inner, cs) := start f cs
              readWithin? f fuel inner (top :: outer) cs
          else
            let (t, cs) ← range? f (c :: cs)
            readWithin? f fuel (top.list t 0) outer cs

def read? (f : PatternFlags) (cs : List Char) : Option (NestedTable × List Char) :=
  let (b, rest) := start f cs
  readWithin? f (cs.length + 1) b [] rest

end Bracket

end Gridcall
