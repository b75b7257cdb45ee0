/-!
# Blank — white space at the ends of a text

Configuration values and range texts are trimmed before they are read.  What counts as white space
is the Unicode property `White_Space`, not only the ASCII blanks.  This file defines:

* `isBlank` — the property, as a table of code points;
* `trimStart`, `trimEnd`, `trim` — a text without its leading, trailing or surrounding blanks.
-/

namespace SeriesExec
namespace Text

/-- Code points with the Unicode property `White_Space`, as closed intervals. -/
def blankIntervals : List (Nat × Nat) :=
  [(0x0009, 0x000D), (0x0020, 0x0020), (0x0085, 0x0085), (0x00A0, 0x00A0), (0x1680, 0x1680),
   (0x2000, 0x200A), (0x2028, 0x2029), (0x202F, 0x202F), (0x205F, 0x205F), (0x3000, 0x3000)]

/-- Whether a character is white space. -/
def isBlank (c : Char) : Bool :=
  blankIntervals.any fun r => decide (r.1 ≤ c.toNat) && decide (c.toNat ≤ r.2)

/-- The text without its leading blanks. -/
def trimStart (cs : List Char) : List Char :=
  cs.dropWhile isBlank

/-- The text without its trailing blanks. -/
def trimEnd (cs : List Char) : List Char :=
  (cs.reverse.dropWhile isBlank).reverse

/-- The text without the blanks around it. -/
def trim (cs : List Char) : List Char :=
  trimEnd (trimStart cs)

end Text
end SeriesExec
