import Gridcall.Text.Pattern

/-!
# Networks

A pattern is laid out as a network of nodes. From a node that takes a character one goes on to the next
node; a fork leads to two nodes, the first of which is tried first.

* `Network.lay` : lays a pattern out before a node;
* `Network.ofPattern` : the network that looks for a pattern everywhere in a text.
-/

namespace Gridcall

/-- A node of a network; nodes are known by their number. -/
inductive Node where
  | found
  | one (t : CharTable) (next : Nat)
  /-- Goes on at some places only. -/
  | place (p : Place) (next : Nat)
  /-- Goes on in two ways, of which the first is tried first. -/
  | fork (first second : Nat)

structure Network where
  nodes : Array Node := #[]

def Repetition.fork (how : Repetition) (through past : Nat) : Node :=
  if how.fewFirst then .fork past through else .fork through past

namespace Network

/-- Adds a node. Returns its number and the network. -/
def add (n : Network) (node : Node) : Nat × Network := (n.nodes.size, ⟨n.nodes.push node⟩)

def set (n : Network) (i : Nat) (node : Node) : Network := ⟨n.nodes.setIfInBounds i node⟩

/-- Lays a text out before a node. Returns where to begin. -/
def layText (next : Nat) (n : Network) : List Char → Nat × Network
  | [] => (next, n)
  | c :: cs =>
    let (second, n) := n.layText next cs
    n.add (.one (.single c) second)

/-- Lays a pattern out before a node. Returns where to begin.

Behind a part that may come again there is a fork, which leads back to the part or on. If the part may be
left out, one begins at that fork, provided that the part takes characters: otherwise the fork might be
passed before the part has been gone through, and what it prefers would be lost. So then there is another
fork in front. -/
def lay (next : Nat) (n : Network) : Pattern → Nat × Network
  | .nothing => (next, n)
  | .text cs => n.layText next cs
  | .one _ t => n.add (.one t next)
  | .place p => n.add (.place p next)
  | .group _ p => n.lay next p
  | .sequence p q =>
    let (second, n) := n.lay next q
    n.lay second p
  | .choice p q =>
    let (first, n) := n.lay next p
    let (second, n) := n.lay next q
    n.add (.fork first second)
  | .repeated how p =>
    if how.again then
      let (again, n) := n.add .found
      let (start, n) := n.lay again p
      let n := n.set again (how.fork start next)
      if !how.optional then (start, n)
      else if p.leastLength?.any (0 < ·) then (again, n)
      else n.add (how.fork start next)
    else
      let (start, n) := n.lay next p
      if how.optional then n.add (how.fork start next) else (start, n)

/-- The network that looks for a pattern everywhere in a text: if it does not begin at a place, one
character is skipped. Returns where to begin. -/
def ofPattern (p : Pattern) : Nat × Network :=
  let (found, n) := add {} .found
  let (start, n) := n.lay found p
  let (skip, n) := n.add (.one .everything (n.nodes.size + 1))
  n.add (.fork start skip)

end Network

end Gridcall
