import Gridcall.Journal
import Gridcall.Text.Pattern.Search

/-!
# Log filters

A filter says which log lines are shown: a list of rules, each of which grants a reach. A rule may be
about places of the program, about lines with some field, about calls, or about calls with some field;
a line is shown if the best rule about lines reaches it, or a rule about one of the calls within which
it was noted.

* `LogFilter.lineReach` : the reach of the rules about lines, of which the most specific decides;
* `LogFilter.callReach` : the reach of the rules about calls, of which the greatest counts;
* `LogFilter.lines` : the log lines of a journal that are shown.
-/

namespace Gridcall

/-- How much a level lets through: the number of levels that are at least as important. -/
def Level.reach : Level → Nat
  | error => 1
  | warn => 2
  | info => 3
  | debug => 4

/-- What the value of a field is compared with. -/
inductive FieldTest where
  | number (n : Nat)
  /-- A pattern of texts, and how it is written. -/
  | pattern (text : String) (p : Pattern)
  /-- Something that no field of a call is: a truth value or another number. -/
  | never
deriving DecidableEq

def FieldTest.accepts : FieldTest → FieldValue → Bool
  | number n, .number m => m == n
  | pattern _ p, .text s => p.accepts s
  | pattern _ p, .quotedText s => p.accepts s
  | _, _ => false

/-- What a rule of a log filter is about. -/
structure LogScope where
  /-- How the names of the places begin. -/
  place : String
  span : Option String
  /-- A field that must be there, and what it must be. -/
  field : Option (String × Option FieldTest)
deriving DecidableEq

structure LogRule where
  scope : LogScope
  /-- Lines up to this reach are shown; nothing is at zero. -/
  reach : Nat

namespace LogScope

def everywhere : LogScope := { place := "", span := none, field := none }

def fieldName (s : LogScope) : Option String := s.field.map Prod.fst

def hasTest (s : LogScope) : Bool := s.field.any fun f => f.2.isSome

/-- Whether a rule is about lines: it names no span and tests no field. -/
def isOfLines (s : LogScope) : Bool := s.span.isNone && !s.hasTest

/-- Whether a rule is about spans: it names a span or a field. -/
def isOfSpans (s : LogScope) : Bool := s.span.isSome || s.field.isSome

def fits (s : LogScope) (place : String) (fields : List String) : Bool :=
  s.place.toList.isPrefixOf place.toList && s.fieldName.all fields.contains

def passes (s : LogScope) (fields : List (String × FieldValue)) : Bool :=
  match s.field with
  | some (name, some test) => (fields.lookup name).any test.accepts
  | _ => true

/-- Whether `t` is at least as specific as `s`: its place is longer, or as long and its field comes
later, where no field comes first. -/
def isUpTo (s t : LogScope) : Bool :=
  s.place.length < t.place.length ||
    (s.place.length == t.place.length && s.fieldName.getD "" ≤ t.fieldName.getD "")

end LogScope

abbrev LogFilter := List LogRule

namespace LogFilter

def everything : Nat := 5

/-- The greatest reach of any rule; a rule that tests a field has every span watched. -/
def bound (f : LogFilter) : Nat :=
  if f.any fun r => r.scope.hasTest then everything else (f.map LogRule.reach).foldl max 0

/-- The rules that count: of those with the same scope the last. -/
def latest : LogFilter → LogFilter
  | [] => []
  | r :: f => if f.any fun s => s.scope == r.scope then latest f else r :: latest f

/-- How far lines with the given fields are shown at a place: the most specific rule decides. -/
def lineReach (f : LogFilter) (place : String) (fields : List String) : Nat :=
  let rules := f.latest.filter fun r => r.scope.isOfLines && r.scope.fits place fields
  let better (best r : LogRule) := if best.scope.isUpTo r.scope then r else best
  (rules.foldl better ⟨.everywhere, 0⟩).reach

def callPlace : String := "xlbridge::dispatch"

def callSpan : String := "dispatch"

def callFields (id : ExportId) (callable : String) : List (String × FieldValue) :=
  [("export", .number id.raw.toNat), ("name", .quotedText callable)]

/-- How far lines are shown within a call. Calls are watched only by a filter that could show steps of
calls. -/
def callReach (f : LogFilter) (fields : List (String × FieldValue)) : Nat :=
  let rules := f.latest.filter fun r =>
    r.scope.isOfSpans && r.scope.span.all (· == callSpan) &&
      r.scope.fits callPlace (fields.map Prod.fst) && r.scope.passes fields
  if f.bound < Level.debug.reach then 0 else (rules.map LogRule.reach).foldl max 0

/-- Whether the log line of an event is shown, given the reaches of the calls around it. -/
def shows (f : LogFilter) (around : List Nat) (place : String) (r : Report) : Bool :=
  around.any (r.level.reach ≤ ·) ||
    r.level.reach ≤ f.lineReach place ("message" :: r.fields.map Prod.fst)

/-- The log lines of events that are shown, given the reaches of the calls around the first. -/
def lines (f : LogFilter) (around : List Nat) : List Event → List String
  | [] => []
  | .opened id callable :: events => f.lines (f.callReach (callFields id callable) :: around) events
  | .closed :: events => f.lines around.tail events
  | e :: events =>
    match e.report? with
    | none => f.lines around events
    | some r =>
      if f.shows around e.place r then r.line e.place :: f.lines around events
      else f.lines around events

end LogFilter

end Gridcall
