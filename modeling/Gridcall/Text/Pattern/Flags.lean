import Gridcall.Text.Blank
import Gridcall.Text.Pattern

/-!
# Flags of patterns

Flags say how the text of a pattern is read. Letters in their other case are known for bytes only, as
are the classes behind a backslash: where characters are not bytes, they are errors.

* `PatternFlags.setAll?` : sets the flags that letters stand for;
* `PatternFlags.skip` : what is left behind blanks and comments;
* `PatternFlags.literal?`, `PatternFlags.withCase?`, `PatternFlags.complement?` : characters and classes
  as the flags have them.
-/

namespace Gridcall

structure PatternFlags where
  /-- The case of ASCII letters does not matter. -/
  folded : Bool := false
  /-- The marks of beginning and end are about lines. -/
  lines : Bool := false
  /-- A dot stands for line breaks, too. -/
  dotAll : Bool := false
  /-- Carriage returns break lines, too. -/
  carriage : Bool := false
  /-- Repetitions try fewer first, unless marked. -/
  fewFirst : Bool := false
  /-- Blanks and comments are skipped. -/
  spaced : Bool := false
  /-- Characters are bytes, so that no class may reach beyond ASCII. -/
  bytes : Bool := false

namespace PatternFlags

/-! ## Letters -/

def set? (f : PatternFlags) (letter : Char) (on : Bool) : Option PatternFlags :=
  match letter with
  | 'i' => some { f with folded := on }
  | 'm' => some { f with lines := on }
  | 's' => some { f with dotAll := on }
  | 'R' => some { f with carriage := on }
  | 'U' => some { f with fewFirst := on }
  | 'x' => some { f with spaced := on }
  | 'u' => some { f with bytes := !on }
  | _ => none

/-- Sets flags: letters that come once each, switched off behind a dash, which no dash follows and
which is not the last. -/
def setAll? (f : PatternFlags) (seen : List Char) (on : Bool) : List Char → Option PatternFlags
  | [] => some f
  | '-' :: letters => if on && !letters.isEmpty then f.setAll? seen false letters else none
  | letter :: letters =>
    if seen.contains letter then none
    else (f.set? letter on).bind fun f => f.setAll? (letter :: seen) on letters

/-! ## Blanks -/

/-- What is left behind blanks and comments, if they are skipped. -/
def skip (f : PatternFlags) : List Char → List Char
  | [] => []
  | c :: cs =>
    if !f.spaced then c :: cs
    else if isBlank c then f.skip cs
    else if c = '#' then skipLine cs
    else c :: cs
where
  /-- What is left behind a comment. -/
  skipLine : List Char → List Char
    | [] => []
    | c :: cs => if c = '\n' then f.skip cs else skipLine cs

/-- The character that decides whether a dash before it makes a range: the next one, behind blanks and
the mark of a comment, but not behind the comment, if they are skipped. -/
def peek? (f : PatternFlags) (cs : List Char) : Option Char :=
  if !f.spaced then cs.head?
  else
    match cs.dropWhile isBlank with
    | [] => cs.head?
    | '#' :: more => (more.dropWhile isBlank).head?.or cs.head?
    | c :: _ => some c

/-! ## Characters and classes -/

def extent (f : PatternFlags) : Extent :=
  if !f.lines then .text else if f.carriage then .anyLine else .line

def withCase? (f : PatternFlags) (t : CharTable) : Option CharTable :=
  if !f.folded then some t else if f.bytes then some t.folded else none

def literal? (f : PatternFlags) (c : Char) : Option Pattern :=
  (f.withCase? (.single c)).map fun t => if f.folded && c.isAlpha then .one true t else .ofChar c

/-- All characters outside a class, unless some of them are no bytes. -/
def complement? (f : PatternFlags) (t : CharTable) : Option CharTable :=
  if f.bytes then none else some t.complement

/-- The characters that a dot stands for, unless some of them are no bytes. -/
def dot? (f : PatternFlags) : Option CharTable :=
  if f.dotAll then f.complement? []
  else if f.carriage then f.complement? [(0x0A, 0x0A), (0x0D, 0x0D)]
  else f.complement? (.single '\n')

end PatternFlags

end Gridcall
