import Gridcall.Text.CharTable.Algebra

/-!
# Patterns

A pattern describes texts. Where it leaves a choice, it says what to try first.

Patterns are built in a simple form: sequences and choices are not nested into their like, characters
that follow each other are one text, and a choice between characters is one class. What a pattern
accepts is said in `Gridcall.Text.Pattern.Search`.

* `Pattern.ofChar`, `Pattern.ofTable` : a single character;
* `Pattern.inOrder` : one pattern behind the other;
* `Pattern.oneOf` : a choice;
* `Pattern.times` : a repetition.
-/

namespace Gridcall

/-- How often a part of a pattern comes. -/
structure Repetition where
  optional : Bool
  again : Bool
  fewFirst : Bool
deriving DecidableEq

/-- What has a first and a last place. -/
inductive Extent where
  | text
  /-- A line, ended by a line feed. -/
  | line
  /-- A line, ended by a carriage return, a line feed, or both. -/
  | anyLine
deriving DecidableEq

/-- A kind of place between characters. -/
inductive Place where
  | start (of : Extent)
  | finish (of : Extent)
  /-- Where a word begins or ends; or any other place, if not `here`. -/
  | boundary (here : Bool)
  | wordStart
  | wordFinish
deriving DecidableEq

inductive Pattern where
  | nothing
  | text (cs : List Char)
  /-- One character of a class, which is made of bytes or of all characters. -/
  | one (bytes : Bool) (t : CharTable)
  | place (p : Place)
  | repeated (how : Repetition) (p : Pattern)
  | group (number : Nat) (p : Pattern)
  | sequence (p q : Pattern)
  /-- The first or, if that fails, the second. -/
  | choice (p q : Pattern)
deriving DecidableEq

namespace Pattern

/-! ## Lengths -/

/-- The least number of characters that a pattern takes; none, if part of it is a class without
characters. -/
def leastLength? : Pattern → Option Nat
  | nothing | place _ => some 0
  | text cs => some cs.length
  | one _ t => if t.isEmpty then none else some 1
  | repeated how p => p.leastLength?.map fun n => if how.optional then 0 else n
  | group _ p => p.leastLength?
  | sequence p q => do return (← p.leastLength?) + (← q.leastLength?)
  | choice p q => do return min (← p.leastLength?) (← q.leastLength?)

/-- The greatest number of characters that a pattern takes; none, if there is no bound or part of it is
a class without characters. -/
def greatestLength? : Pattern → Option Nat
  | nothing | place _ => some 0
  | text cs => some cs.length
  | one _ t => if t.isEmpty then none else some 1
  | repeated how p => if how.again then none else p.greatestLength?
  | group _ p => p.greatestLength?
  | sequence p q => do return (← p.greatestLength?) + (← q.greatestLength?)
  | choice p q => do return max (← p.greatestLength?) (← q.greatestLength?)

/-! ## Characters -/

def ofChar (c : Char) : Pattern := text [c]

def ofTable (bytes : Bool) (t : CharTable) : Pattern :=
  match t.normal with
  | [] => one true []
  | t =>
    match t.only? with
    | some c => ofChar c
    | none => one bytes t

/-! ## Sequences -/

def parts : Pattern → List Pattern
  | nothing => []
  | sequence p q => p :: q.parts
  | p => [p]

/-- A sequence of parts that are no sequences themselves. -/
def ofParts : List Pattern → Pattern
  | [] => nothing
  | [p] => p
  | p :: ps => sequence p (ofParts ps)

/-- Puts a part in front of others. A text is joined with a text behind it. -/
def consPart : Pattern → List Pattern → List Pattern
  | text cs, text ds :: ps => text (cs ++ ds) :: ps
  | p, ps => p :: ps

def inOrder (ps : List Pattern) : Pattern := ofParts ((ps.flatMap parts).foldr consPart [])

/-! ## Choices -/

def branches : Pattern → List Pattern
  | choice p q => p :: q.branches
  | p => [p]

def ofBranches : List Pattern → Pattern
  | [] => one true []
  | [p] => p
  | p :: ps => choice p (ofBranches ps)

def char? : Pattern → Option Char
  | text [c] => some c
  | _ => none

def table? : Pattern → Option CharTable
  | one _ t => some t
  | _ => none

/-- A choice of branches that are no choices themselves, as a class if they are all characters or all
classes. -/
def ofBranchesOrTable : List Pattern → Pattern
  | [p] => p
  | ps =>
    match ps.mapM char? with
    | some cs => ofTable false (cs.flatMap CharTable.single)
    | none =>
      match ps.mapM table? with
      | some ts => ofTable false ts.flatten
      | none => ofBranches ps

def manyParts? : Pattern → Option (List Pattern)
  | sequence p q => some (p :: q.parts)
  | _ => none

def commonParts : List Pattern → List Pattern → List Pattern
  | p :: ps, q :: qs => if p = q then p :: commonParts ps qs else []
  | _, _ => []

/-- A choice. Parts with which all its branches begin are put in front of it, which changes what is
tried first if such a part leaves a choice. -/
def oneOf (ps : List Pattern) : Pattern :=
  let ps := ps.flatMap branches
  match ps.mapM manyParts? with
  | some (first :: second :: others) =>
    let lists := second :: others
    let common := lists.foldl commonParts first
    if common.isEmpty then ofBranchesOrTable ps
    else
      let rests := (first :: lists).map fun parts => inOrder (parts.drop common.length)
      inOrder (common ++ [ofBranchesOrTable (rests.flatMap branches)])
  | _ => ofBranchesOrTable ps

/-! ## Repetitions -/

/-- A repetition. What takes no character comes once at most. -/
def times (how : Repetition) (p : Pattern) : Pattern :=
  if p.greatestLength? = some 0 then
    if how.optional then repeated { how with again := false } p else p
  else repeated how p

end Pattern

end Gridcall
