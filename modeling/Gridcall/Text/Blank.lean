import Gridcall.Text.CharTable

/-!
# Blank characters

The characters with the white space property, and trimming by them.

* `isBlank` : membership in the table `blankRanges`;
* `trimBlank` : a text without blanks at either end.
-/

namespace Gridcall

def blankRanges : CharTable :=
  [(0x09, 0x0D), (0x20, 0x20), (0x85, 0x85), (0xA0, 0xA0), (0x1680, 0x1680), (0x2000, 0x200A),
   (0x2028, 0x2029), (0x202F, 0x202F), (0x205F, 0x205F), (0x3000, 0x3000)]

def isBlank (c : Char) : Bool := blankRanges.contains c

example : blankRanges.ascending = true := by decide

def trimBlank (cs : List Char) : List Char :=
  ((cs.dropWhile isBlank).reverse.dropWhile isBlank).reverse

end Gridcall
