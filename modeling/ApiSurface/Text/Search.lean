/-!
Where one text stands in another.
-/

namespace ApiSurface.Text

/-- Whether `text` ends with `ending`. -/
def endsWith (ending text : String) : Bool :=
  ending.toList.isSuffixOf text.toList

/-- Whether `needle` stands somewhere in a text. -/
def occursIn (needle : List Char) : List Char → Bool
  | [] => needle.isEmpty
  | c :: cs => needle.isPrefixOf (c :: cs) || occursIn needle cs

end ApiSurface.Text
