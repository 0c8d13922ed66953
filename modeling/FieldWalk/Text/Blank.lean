import FieldWalk.Text.Ranges
/-! Blank characters: the white space of every script and the separators among the controls. -/

namespace FieldWalk.Text

/-- The blank code points. -/
def blankRanges : Ranges := [
  (9, 13), (28, 32), (133, 133), (160, 160), (5760, 5760), (8192, 8202), (8232, 8233), (8239, 8239),
  (8287, 8287), (12288, 12288)]

/-- White space, in the sense of the Unicode property with the four information separators. -/
def isBlank (c : Char) : Bool :=
  blankRanges.contains c

/-- The text without blanks at its two ends. -/
def trimBlank (cs : List Char) : List Char :=
  ((cs.dropWhile isBlank).reverse.dropWhile isBlank).reverse

end FieldWalk.Text
