import Gridcall.Marshal.Conversion

/-!
# Round trips

`roundTrip` encodes a managed value and decodes the result into the value's own type.
-/

namespace Gridcall

/-- The host value of a managed value, and what that becomes in a slot of the value's own type. -/
def roundTrip (r : Registry) (v : Managed) : MarshalM (HostValue × Managed) := do
  let host ← encode r v
  match v.runtimeType? with
  | none => throw (.nullArgument "cannot encode a null value")
  | some type => return (host, ← decode r host type)

end Gridcall
