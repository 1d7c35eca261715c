import ApiSurface.Text.Ranges

/-!
Blank characters and trimming, on lists of characters and on strings.
-/

namespace ApiSurface.Text

/-- The characters with the Unicode property `White_Space`. -/
def blankRanges : List (Nat × Nat) :=
  [(0x9, 0xD), (0x20, 0x20), (0x85, 0x85), (0xA0, 0xA0), (0x1680, 0x1680), (0x2000, 0x200A),
   (0x2028, 0x2029), (0x202F, 0x202F), (0x205F, 0x205F), (0x3000, 0x3000)]

def isBlank (c : Char) : Bool :=
  within blankRanges c

/-- Drops the characters at the end of a list that satisfy `p`. -/
def dropEndWhile (p : Char → Bool) (cs : List Char) : List Char :=
  (cs.reverse.dropWhile p).reverse

/-- Drops the blanks on both sides. -/
def trim (cs : List Char) : List Char :=
  dropEndWhile isBlank (cs.dropWhile isBlank)

/-- The string without the blanks on both sides. -/
def trimmed (s : String) : String :=
  String.ofList (trim s.toList)

end ApiSurface.Text
