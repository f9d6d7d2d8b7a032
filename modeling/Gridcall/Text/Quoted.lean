import Gridcall.Text.Combining
import Gridcall.Text.Unprintable

/-!
# Quoted text for logs

`quoted` writes a text between double quotes so that it stays on one line and every character can
be told: quotes and backslashes are marked, and characters that do not show on their own are written
by number.
-/

namespace Gridcall

def isHidden (c : Char) : Bool := isCombining c || isUnprintable c

def quotedChar (c : Char) : List Char :=
  match c with
  | '"' => ['\\', '"']
  | '\\' => ['\\', '\\']
  | '\n' => ['\\', 'n']
  | '\r' => ['\\', 'r']
  | '\t' => ['\\', 't']
  | '\x00' => ['\\', '0']
  | c =>
    if isHidden c then ['\\', 'u', '\x7b'] ++ Nat.toDigits 16 c.toNat ++ ['\x7d'] else [c]

def quoted (s : String) : String := String.ofList ('"' :: (s.toList.flatMap quotedChar ++ ['"']))

end Gridcall
