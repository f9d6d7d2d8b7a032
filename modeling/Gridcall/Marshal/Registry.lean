import Gridcall.Marshal.Converter

/-!
# The converter registry

A registry is a list of converters in order of registration. Of the converters that accept a mapping
the one of highest priority is taken, among equals the one registered first. Answers are remembered
in a `Memo`, so that no mapping is looked up among all converters twice.

* `Registry.scan` : the look-up among all converters;
* `Registry.stats` : the counters;
* `resolve` : the look-up through the memo;
* `MarshalM` : computations on the store and the memo;
* `Outside` : how converters from outside are run.
-/

namespace Gridcall

/-- The converters of a bridge, in order of registration. -/
abbrev Registry := List Converter

/-- A converter with its place in the registry, counted from zero. -/
structure Registered where
  index : Nat
  converter : Converter

def Registered.profile (c : Registered) : Profile where
  place := c.index
  managedType := c.converter.managedType
  hostType := c.converter.hostType
  priority := c.converter.priority

namespace Registry

def indexed (r : Registry) : List Registered := r.zipIdx.map fun (c, i) => ⟨i, c⟩

/-- The better of a pick so far and a later candidate: the candidate has to be of greater
priority. -/
def better (pick : Option Registered) (candidate : Registered) : Option Registered :=
  match pick with
  | some best =>
    if candidate.converter.priority ≤ best.converter.priority then some best else some candidate
  | none => some candidate

def scan (r : Registry) (m : Mapping) : Option Registered :=
  (r.indexed.filter fun c => c.converter.accepts m).foldl better none

def at? (r : Registry) (index : Nat) : Option Registered :=
  (r[index]?).map fun c => ⟨index, c⟩

end Registry

/-- Remembered answers, as places in the registry; `none` remembers that no converter exists. -/
structure Memo where
  /-- The answers, the latest first. -/
  answers : List (Mapping × Option Nat)
  /-- The number of look-ups among all converters. -/
  scans : Nat

namespace Memo

def empty : Memo where
  answers := []
  scans := 0

def find? (m : Memo) (mapping : Mapping) : Option (Option Nat) := m.answers.lookup mapping

def counted (m : Memo) : Memo := { m with scans := m.scans + 1 }

def remember (m : Memo) (mapping : Mapping) (answer : Option Nat) : Memo :=
  { m with answers := (mapping, answer) :: m.answers }

def count (m : Memo) (direction : Direction) : Nat :=
  m.answers.countP fun a => a.1.direction == direction

end Memo

def Registry.stats (r : Registry) (m : Memo) : RegistryStats where
  converters := r.length
  scans := m.scans
  toManaged := m.count .toManaged
  toHost := m.count .toHost

/-- What conversions change: the store and the memo. -/
structure MarshalState where
  store : Store
  memo : Memo

def MarshalState.empty : MarshalState where
  store := .empty
  memo := .empty

def MarshalState.note (s : MarshalState) (e : Event) : MarshalState :=
  { s with store := s.store.note e }

/-- The events noted so far, from first to last, and the state with an empty journal. -/
def MarshalState.takeJournal (s : MarshalState) : List Event × MarshalState :=
  (s.store.journal.reverse, { s with store := { s.store with journal := [] } })

/-- Computations on the store and the memo that may fail. Changes made before a failure stay. -/
abbrev MarshalM := ExceptT CallError (StateM MarshalState)

/-- Looks a mapping up among all converters, which is counted and noted. -/
def MarshalState.scan (s : MarshalState) (r : Registry) (m : Mapping) :
    Option Registered × MarshalState :=
  let found := r.scan m
  let s := { s with memo := s.memo.counted }
  (found, s.note (.resolved m (found.map fun c => c.converter.managedType)))

/-- The best converter for a mapping, from the memo or by a scan whose answer is then remembered. -/
def resolve (r : Registry) (m : Mapping) : StateM MarshalState (Option Registered) := fun s =>
  match s.memo.find? m with
  | some answer => (answer.bind r.at?, s)
  | none =>
    let (found, s) := s.scan r m
    (found, { s with memo := s.memo.remember m (found.map Registered.index) })

def resolveOr (r : Registry) (m : Mapping) (failure : CallError) : MarshalM Registered := do
  match ← resolve r m with
  | some c => return c
  | none => throw failure

def onStore {m : Type → Type} [MonadStateOf MarshalState m] {α : Type} (act : Store → α × Store) : m α :=
  modifyGet fun s =>
    let (x, store) := act s.store
    (x, { s with store })

/-- How converters from outside are run. -/
structure Outside where
  decoding : ClientConverter → Option ManagedType → HostValue → MarshalM Managed
  encoding : ClientConverter → Option HostType → Managed → MarshalM HostValue

end Gridcall
