import Gridcall.CallError
import Gridcall.Dialogue
import Gridcall.Heap
import Gridcall.Marshal.Mapping

/-!
# Requests of conversions

Whoever takes part in a conversion may ask for the heap, for further conversions, and about the registry.
What a converter from outside does is a dialogue of such requests.

* `Conversion.Request`, `Conversion.Request.Answer` : what can be asked for, and the type of each answer;
* `Conversion.Action` : what is done to arrive at a converted value;
* `Profile` : what a converter shows of itself;
* `RegistryStats` : the counters of a registry.
-/

namespace Gridcall

/-- What a converter shows of itself. -/
structure Profile where
  /-- Its place in the registry, counted from zero. -/
  place : Nat
  managedType : ManagedType
  hostType : Option HostType
  priority : Int

structure RegistryStats where
  converters : Nat
  /-- The number of look-ups among all converters. -/
  scans : Nat
  /-- The number of answers on decoding that are remembered, and on encoding. -/
  toManaged : Nat
  toHost : Nat
deriving DecidableEq

namespace Conversion

/-- What a conversion can be asked for. -/
inductive Request where
  | create (className : ClassName) (contents : Contents Managed)
  | lookup (handle : Handle)
  | mint (o : Object)
  | release (handle : Handle)
  | heapStats
  | decode (v : HostValue) (required : ManagedType)
  | encode (v : Managed)
  /-- The converter that takes a host value of a kind into a slot of a type. -/
  | decoder (host : HostType) (required : ManagedType)
  /-- The converter that takes a managed value of a type to the host. -/
  | encoder (runtime : ManagedType)
  | converters
  /-- Whether the converter at a place answers a mapping. -/
  | accepts (place : Nat) (m : Mapping)
  | decodeAt (place : Nat) (required : Option ManagedType) (v : HostValue)
  | encodeAt (place : Nat) (wanted : Option HostType) (v : Managed)
  | registryStats

/-- The type of the answer to a request. There is none about a place without a converter. -/
abbrev Request.Answer : Request → Type
  | create _ _ => Object
  | lookup _ => Option Object
  | mint _ => Handle
  | release _ => Bool
  | heapStats => HeapStats
  | decode _ _ => Except CallError Managed
  | encode _ => Except CallError HostValue
  | decoder _ _ => Option Profile
  | encoder _ => Option Profile
  | converters => List Profile
  | accepts _ _ => Option Bool
  | decodeAt _ _ _ => Option (Except CallError Managed)
  | encodeAt _ _ _ => Option (Except CallError HostValue)
  | registryStats => RegistryStats

/-- What is done to arrive at a value of type `α`, or at the failure of the conversion. -/
abbrev Action := Dialogue Request.Answer CallError

end Conversion

end Gridcall
