import ApiSurface.Annotations.Basic
import ApiSurface.Error
import ApiSurface.Text.Blank
import ApiSurface.Text.Word

/-!
Filters that select annotations, written `a.b.Name` or `a.b.Name(attribute=value, ...)`.

The name is a dotted list of identifiers. What stands between the parentheses is cut at the commas;
blank pieces are skipped and every other piece is a name and a value around its first `=`.
-/

namespace ApiSurface

/-- Selects the annotations of one name that have all the given attributes. -/
structure Filter where
  name : String
  attributes : List Attribute
deriving DecidableEq, Repr

namespace Filter

open Text

/-- Whether a character can start an identifier. -/
def isStart (c : Char) : Bool :=
  c.isAlpha || c == '_' || c == '$'

/-- Whether a character can continue an identifier. -/
def isContinue (c : Char) : Bool :=
  isWord c || c == '$'

/-- The longest dotted name that continues an identifier, and the rest. -/
def scanName : List Char → List Char × List Char
  | [] => ([], [])
  | [c] => if isContinue c then ([c], []) else ([], [c])
  | c :: d :: cs =>
    if isContinue c then
      let (name, rest) := scanName (d :: cs)
      (c :: name, rest)
    else if c == '.' && isStart d then
      let (name, rest) := scanName cs
      (c :: d :: name, rest)
    else ([], c :: d :: cs)

/-- The text between an opening parenthesis and the closing one that ends the source, blanks after
it apart; it lies on one line. -/
def body? (cs : List Char) : Option (List Char) :=
  match (dropEndWhile isBlank cs).reverse with
  | ')' :: inner => if inner.contains '\n' then none else some inner.reverse
  | _ => none

/-- The attribute written in a piece: non-blank texts around its first `=`. -/
def attribute? (piece : List Char) : Option Attribute :=
  match piece.dropWhile (· ≠ '=') with
  | [] => none
  | _ :: after =>
    let name := trim (piece.takeWhile (· ≠ '='))
    let value := trim after
    if name.isEmpty || value.isEmpty then none
    else some ⟨String.ofList name, String.ofList value⟩

/-- The attributes of a body, one for every piece between commas that is not
blank. -/
def attributes? (body : List Char) : Option (List Attribute) :=
  (((body.splitOn ',').map trim).filter (!·.isEmpty)).mapM attribute?

/-- Reads the name and what may follow it. -/
def ofChars? (source : List Char) : Option Filter :=
  match source.dropWhile isBlank with
  | [] => none
  | c :: cs =>
    if isStart c then
      let (name, rest) := scanName cs
      let name := String.ofList (c :: name)
      match rest.dropWhile isBlank with
      | [] => some ⟨name, []⟩
      | '(' :: rest => do
        let body ← body? rest
        let attributes ← attributes? body
        some ⟨name, attributes⟩
      | _ => none
    else none

/-- Reads a filter; a malformed one is reported with its source. -/
def parse (source : String) : Except Error Filter :=
  match ofChars? source.toList with
  | some filter => .ok filter
  | none => .error (.invalidAnnotationFilter source)

/-- Whether a written attribute value is the expected one: equal to it, or ending in a dot and the
expected value, as the qualified name of a constant does. -/
def valueMatches (actual expected : String) : Bool :=
  let actual := trim actual.toList
  let expected := expected.toList
  actual == expected ||
    match expected.isSuffixOf? actual with
    | some front => front.getLast? == some '.'
    | none => false

/-- Whether the filter selects an annotation of this name with these attributes. -/
def selects (filter : Filter) (name : String) (attributes : List Attribute) : Bool :=
  name == filter.name &&
    filter.attributes.all fun expected =>
      attributes.any fun actual =>
        actual.name == expected.name && valueMatches actual.value expected.value

/-- Whether one of the filters selects the annotation. -/
def anySelects (filters : List Filter) (name : String) (attributes : List Attribute) : Bool :=
  filters.any (·.selects name attributes)

end Filter

end ApiSurface
