import Gridcall.Text.Pattern.Network

/-!
# Searching for patterns

A pattern is looked for at every place of a text from left to right. The first way of matching that is
found counts, and the text is accepted if it reaches to the end.

All ways are followed at once: at each place of the text there is a list of the nodes that are reached,
what to try first in front. Each node is in it once, where it was reached first. Nodes behind the one
at which the pattern has been found are given up.

* `Place.holds` : whether a place is of some kind;
* `Network.reached` : the nodes that are reached from others without a character;
* `Network.accepts` : whether the first match ends with the text;
* `Pattern.accepts` : the same for a pattern.
-/

namespace Gridcall

/-! ## Places -/

/-- What is around a place in a text. -/
structure Surroundings where
  before : Option Char
  behind : Option Char

namespace Surroundings

def wordBefore (s : Surroundings) : Bool := s.before.any CharTable.wordChars.contains

def wordBehind (s : Surroundings) : Bool := s.behind.any CharTable.wordChars.contains

def begins (s : Surroundings) : Extent → Bool
  | .text => s.before.isNone
  | .line => s.before.all (· == '\n')
  | .anyLine => s.before.all fun c => c == '\n' || (c == '\r' && s.behind != some '\n')

def ends (s : Surroundings) : Extent → Bool
  | .text => s.behind.isNone
  | .line => s.behind.all (· == '\n')
  | .anyLine => s.behind.all fun c => c == '\r' || (c == '\n' && s.before != some '\r')

end Surroundings

def Place.holds (s : Surroundings) : Place → Bool
  | start of => s.begins of
  | finish of => s.ends of
  | boundary here => (s.wordBefore != s.wordBehind) == here
  | wordStart => !s.wordBefore && s.wordBehind
  | wordFinish => s.wordBefore && !s.wordBehind

namespace Network

/-! ## Steps -/

/-- The nodes to which a node leads without a character. -/
def followers (n : Network) (s : Surroundings) (i : Nat) : List Nat :=
  match n.nodes[i]? with
  | some (.fork first second) => [first, second]
  | some (.place p next) => if p.holds s then [next] else []
  | _ => []

/-- The nodes that are reached from others without a character, each of them once: those reached from the
first of the others, then those reached from the next. Only `fresh` nodes are listed. -/
def reachedAmong (n : Network) (s : Surroundings) : (fresh is : List Nat) → List Nat
  | _, [] => []
  | fresh, i :: is =>
    if i ∈ fresh then i :: n.reachedAmong s (fresh.erase i) (n.followers s i ++ is)
    else n.reachedAmong s fresh is
termination_by fresh is => (fresh.length, is.length)
decreasing_by
  · have := List.length_erase_of_mem ‹i ∈ fresh›
    have := List.length_pos_of_mem ‹i ∈ fresh›
    exact Prod.Lex.left _ _ (by omega)
  · exact Prod.Lex.right _ (Nat.lt_succ_self _)

/-- The nodes that are reached from others without a character, what to try first in front. -/
def reached (n : Network) (s : Surroundings) (is : List Nat) : List Nat :=
  n.reachedAmong s (List.range n.nodes.size) is

def isFound (n : Network) (i : Nat) : Bool := n.nodes[i]? matches some .found

def after? (n : Network) (c : Char) (i : Nat) : Option Nat :=
  match n.nodes[i]? with
  | some (.one t next) => if t.contains c then some next else none
  | _ => none

/-! ## Texts -/

/-- Whether the first match ends with the text, of which `cs` is left behind `before`. -/
def accepts (n : Network) (before : Option Char) (is : List Nat) : List Char → Bool
  | [] => (n.reached ⟨before, none⟩ is).any n.isFound
  | c :: cs =>
    let live := (n.reached ⟨before, some c⟩ is).takeWhile fun i => !n.isFound i
    n.accepts (some c) (live.filterMap (n.after? c)) cs

end Network

/-- Whether the first match in a text ends with the text. -/
def Pattern.accepts (p : Pattern) (text : String) : Bool :=
  let (start, n) := Network.ofPattern p
  n.accepts none [start] text.toList

end Gridcall
