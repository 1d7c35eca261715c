import ApiSurface.Annotations.FilterLists
import ApiSurface.Annotations.Showability

/-!
Classifiers decide what an annotation does to the element it stands on.

A classifier names the attributes on which its verdicts depend. Annotations that agree in their name
and in those attributes are classified together.
-/

namespace ApiSurface

/-- What a classifier sees of an annotation: its name, its attributes, and the annotations of the
class that declares it. -/
structure Occurrence where
  name : String
  attributes : List Attribute
  metaAnnotations : List AnnotationUse
deriving DecidableEq, Repr

/-- The verdicts on annotations; those left out have no effect. -/
structure Classifier where
  relevant : String → List Attribute → List Attribute := fun _ _ => []
  showability : Occurrence → Showability := fun _ => .noEffect
  hides : Occurrence → Bool := fun _ => false
  suppresses : Occurrence → Bool := fun _ => false

/-- The classifier under which annotations do nothing. -/
def Classifier.noEffect : Classifier := {}

namespace FilterLists

/-- Whether some filter for annotations of this name asks for the attribute `wanted`. -/
def asksFor (lists : FilterLists Filter) (name wanted : String) : Bool :=
  lists.all.any fun filter =>
    filter.name == name && filter.attributes.any (·.name == wanted)

/-- The attributes that some filter asks for, in increasing order. -/
def relevant (lists : FilterLists Filter) (name : String) (attributes : List Attribute) :
    List Attribute :=
  Attribute.sort (attributes.filter fun a => lists.asksFor name a.name)

/-- Full shows come before single ones, and those before shows for stubs. -/
def showability (lists : FilterLists Filter) (o : Occurrence) : Showability :=
  if Filter.anySelects lists.shown o.name o.attributes then ⟨true, true, false⟩
  else if Filter.anySelects lists.shownSingly o.name o.attributes then ⟨true, false, false⟩
  else if Filter.anySelects lists.shownForStubs o.name o.attributes then ⟨true, true, true⟩
  else .noEffect

/-- An annotation hides by itself, or by an annotation of its class. -/
def hides (lists : FilterLists Filter) (o : Occurrence) : Bool :=
  Filter.anySelects lists.hidden o.name o.attributes ||
    o.metaAnnotations.any fun a => Filter.anySelects lists.hiddenByMeta a.name a.attributes

def suppresses (lists : FilterLists Filter) (o : Occurrence) : Bool :=
  o.metaAnnotations.any fun a => Filter.anySelects lists.suppressedByMeta a.name a.attributes

/-- The classifier given by filters. -/
def classifier (lists : FilterLists Filter) : Classifier where
  relevant := lists.relevant
  showability := lists.showability
  hides := lists.hides
  suppresses := lists.suppresses

end FilterLists

end ApiSurface
