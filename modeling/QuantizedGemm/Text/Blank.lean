import QuantizedGemm.Text.Ranges

/-!
# Blank characters

The characters that the Unicode property `White_Space` holds of. They may surround a number in a
setting and a directive of a log filter, and some patterns may be laid out with them.
-/

namespace QuantizedGemm.Text

/-- The ranges of `White_Space`, ends included. -/
def blankRanges : List (Nat × Nat) :=
  [(0x9, 0xd), (0x20, 0x20), (0x85, 0x85), (0xa0, 0xa0), (0x1680, 0x1680), (0x2000, 0x200a),
   (0x2028, 0x2029), (0x202f, 0x202f), (0x205f, 0x205f), (0x3000, 0x3000)]

/-- Whether `c` is white space. -/
def isBlank (c : Char) : Bool := liesIn blankRanges c

/-- Drops the blanks at both ends. -/
def trimBlanks (cs : List Char) : List Char :=
  ((cs.dropWhile isBlank).reverse.dropWhile isBlank).reverse

end QuantizedGemm.Text
