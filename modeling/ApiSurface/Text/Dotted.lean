/-!
Dotted names: `a.b.C` lies inside `a.b`, and its last segment is `C`.
-/

namespace ApiSurface.Text

/-- What is left of `name` after `outer` and a dot, if it starts with them. -/
def afterDot? (outer name : String) : Option String :=
  (outer.toList ++ ['.']).isPrefixOf? name.toList |>.map String.ofList

/-- Whether `name` is `outer`, a dot and a non-empty rest. -/
def isInside (outer name : String) : Bool :=
  match afterDot? outer name with
  | some rest => rest ≠ ""
  | none => false

/-- The text after the last dot, or all of it if there is no dot. -/
def lastSegment (name : String) : String :=
  String.ofList (name.toList.reverse.takeWhile (· ≠ '.')).reverse

end ApiSurface.Text
