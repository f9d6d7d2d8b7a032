import Gridcall.Marshal.Decode
import Gridcall.Marshal.Encode

/-!
# Conversions

A converter from outside may ask for further conversions, in which converters from outside may take part
again. How deep this may go is limited for each of them, by the room that it says it needs for a value.

* `Conversion.Request.answer` : the answer to a request;
* `Outside.nested`, `Outside.within` : run the dialogues of converters from outside, in limited depth;
* `decode`, `encode` : conversions with the best converter of a registry;
* `decodeUsing`, `encodeUsing` : conversions with a given converter.
-/

namespace Gridcall

/-- The answer to a request. Converters from outside are run as `o` says if the request is for another
conversion. -/
def Conversion.Request.answer (r : Registry) (o : Outside) :
    (request : Request) → StateM MarshalState request.Answer
  | create className contents => onStore fun s => s.create className contents
  | lookup handle => do return (← get).store.heap.get? handle
  | mint object => onStore fun s => s.mint object
  | release handle => onStore fun s => s.release handle
  | heapStats => do return (← get).store.heap.stats
  | decode v required => (o.decode r v required).run
  | encode v => (o.encode r v).run
  | decoder host required => do return (← resolve r (.decoding host required)).map Registered.profile
  | encoder runtime => do return (← resolve r (.encoding runtime)).map Registered.profile
  | converters => return r.indexed.map Registered.profile
  | accepts place m => return (r[place]?).map fun c => c.accepts m
  | decodeAt place required v => (r[place]?).mapM fun c => (o.decodeUsing r c required v).run
  | encodeAt place wanted v => (r[place]?).mapM fun c => (o.encodeUsing r c wanted v).run
  | registryStats => do return r.stats (← get).memo

/-- The failure of a conversion that nests too deep. -/
def nestsTooDeep (c : ClientConverter) : CallError :=
  .conversion c.managedType.text "conversions nest too deep"

/-- Runs converters from outside up to `depth` deep; `limit` runs those that nest deeper. -/
def Outside.nested (r : Registry) (limit : Outside) : (depth : Nat) → Outside
  | 0 => limit
  | depth + 1 =>
    let answer := Conversion.Request.answer r (nested r limit depth)
    { decoding := fun c required v => .mk ((c.decode required v).run answer)
      encoding := fun c wanted v => .mk ((c.encode wanted v).run answer) }

/-- Runs converters from outside, which fail where they nest more than `depth` deep. -/
def Outside.within (r : Registry) (depth : Nat) : Outside :=
  let limit : Outside :=
    { decoding := fun c _ _ => throw (nestsTooDeep c)
      encoding := fun c _ _ => throw (nestsTooDeep c) }
  nested r limit depth

/-- Runs each converter from outside with the room that it needs. -/
def Registry.outside (r : Registry) : Outside where
  decoding c required v := do
    (Outside.within r (c.decodeRoom (← get).store.heap v + 1)).decoding c required v
  encoding c wanted v := do
    (Outside.within r (c.encodeRoom (← get).store.heap v + 1)).encoding c wanted v

def decodeUsing (r : Registry) (c : Converter) (required : Option ManagedType) (v : HostValue) :
    MarshalM Managed := r.outside.decodeUsing r c required v

def decode (r : Registry) (v : HostValue) (required : ManagedType) : MarshalM Managed :=
  r.outside.decode r v required

def encodeUsing (r : Registry) (c : Converter) (wanted : Option HostType) (v : Managed) :
    MarshalM HostValue := r.outside.encodeUsing r c wanted v

def encode (r : Registry) (v : Managed) : MarshalM HostValue := r.outside.encode r v

end Gridcall
