/-!
# Hexadecimal digits

* `hexNumber?` : the number that digits of either case spell;
* `charOfHex?` : the character with that number.
-/

namespace Gridcall

def hexValue? (c : Char) : Option Nat :=
  if c.isDigit then some (c.toNat - '0'.toNat)
  else if 'a' ≤ c && c ≤ 'f' then some (c.toNat - 'a'.toNat + 10)
  else if 'A' ≤ c && c ≤ 'F' then some (c.toNat - 'A'.toNat + 10)
  else none

def hexNumber? (cs : List Char) : Option Nat :=
  cs.foldlM (fun n c => (hexValue? c).map fun d => 16 * n + d) 0

/-- The character with a code, unless the code is half of a surrogate pair or too great. -/
def charOfCode? (code : Nat) : Option Char :=
  if code.isValidChar then some (Char.ofNat code) else none

def charOfHex? (digits : List Char) : Option Char := (hexNumber? digits).bind charOfCode?

end Gridcall
