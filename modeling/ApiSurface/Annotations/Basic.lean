import ApiSurface.Nullability
import ApiSurface.Text.Dotted

/-!
Annotations as they are written on an element or a type: a name and a list of attributes.
-/

namespace ApiSurface

/-- One `name = value` of an annotation. -/
structure Attribute where
  name : String
  value : String
deriving DecidableEq, Repr, Inhabited

namespace Attribute

/-- Attributes are ordered by name, then by value. -/
instance : Ord Attribute :=
  ⟨compareLex (compareOn Attribute.name) (compareOn Attribute.value)⟩

/-- The attributes in increasing order. -/
def sort (attributes : List Attribute) : List Attribute :=
  attributes.mergeSort fun a b => (compare a b).isLE

end Attribute

/-- An annotation as it stands on an element or a type. -/
structure AnnotationUse where
  name : String
  attributes : List Attribute := []
deriving DecidableEq, Repr, Inhabited

namespace AnnotationUse

/-- The value of the first attribute of that name. -/
def attribute? (a : AnnotationUse) (name : String) : Option String :=
  (a.attributes.find? (·.name = name)).map (·.value)

def simpleName (a : AnnotationUse) : String :=
  Text.lastSegment a.name

def nullMark (a : AnnotationUse) : NullMark :=
  NullMark.ofName a.name

end AnnotationUse

end ApiSurface
