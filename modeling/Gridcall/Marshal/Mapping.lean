import Gridcall.Managed.Type

/-!
# Mappings

A `Mapping` is what a converter is looked up by. Decoding knows the kind of the host value and the
type that is required; encoding knows the type of the managed value only.
-/

namespace Gridcall

/-- Which way a conversion goes. -/
inductive Direction where
  | toHost
  | toManaged
deriving DecidableEq

/-- A question to the converter registry. -/
structure Mapping where
  managed : ManagedType
  /-- The kind of the host value, where it is known. -/
  host : Option HostType
  direction : Direction
deriving DecidableEq

namespace Mapping

def decoding (host : HostType) (managed : ManagedType) : Mapping where
  managed := managed
  host := some host
  direction := .toManaged

/-- The mapping of a managed value to whatever represents it. -/
def encoding (managed : ManagedType) : Mapping where
  managed := managed
  host := none
  direction := .toHost

/-- The written form of a mapping, with a question mark for what is open. -/
def text (m : Mapping) : String :=
  match m.direction, m.host with
  | .toManaged, some host => s!"{host} -> {m.managed}"
  | .toManaged, none => s!"? -> {m.managed}"
  | .toHost, _ => s!"{m.managed} -> ?"

end Mapping

end Gridcall
