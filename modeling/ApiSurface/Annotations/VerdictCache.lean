import ApiSurface.Annotations.Classifier

/-!
Classified annotations are kept, so that each is classified once.

The identity of an annotation is its name with the attributes that the classifier finds relevant. An
entry is known by its slot, which stays the same for as long as the cache lives.
-/

namespace ApiSurface

/-- The verdicts on all annotations of one identity. -/
structure Verdict where
  name : String
  attributes : List Attribute
  nullMark : NullMark
  showability : Showability
  hides : Bool
  suppresses : Bool
deriving DecidableEq, Repr

/-- Classifies an annotation. `metaOf` gives the annotations of the class of a given name. -/
def Classifier.classify (classifier : Classifier) (metaOf : String → List AnnotationUse)
    (a : AnnotationUse) : Verdict :=
  let o : Occurrence := ⟨a.name, classifier.relevant a.name a.attributes, metaOf a.name⟩
  { name := o.name
    attributes := o.attributes
    nullMark := .ofName o.name
    showability := classifier.showability o
    hides := classifier.hides o
    suppresses := classifier.suppresses o }

/-- The entries in the order in which they were made. -/
structure VerdictCache where
  infos : List Verdict := []
deriving DecidableEq, Repr

/-- What a look-up gives: the entry, its slot, and the name whose annotations were asked for if the
entry had to be made. -/
structure Lookup where
  slot : Nat
  info : Verdict
  asked : Option String
deriving DecidableEq, Repr

namespace VerdictCache

def empty : VerdictCache := {}

def size (cache : VerdictCache) : Nat := cache.infos.length

def isEmpty (cache : VerdictCache) : Bool := cache.infos.isEmpty

/-- The entry with this identity and its slot. -/
def find? (cache : VerdictCache) (name : String) (attributes : List Attribute) :
    Option (Verdict × Nat) :=
  cache.infos.zipIdx.find? fun e => e.1.name == name && e.1.attributes == attributes

/-- The entry for an annotation, which is made if there is none yet. -/
def lookup (classifier : Classifier) (metaOf : String → List AnnotationUse) (a : AnnotationUse) :
    StateM VerdictCache Lookup := fun cache =>
  match cache.find? a.name (classifier.relevant a.name a.attributes) with
  | some (info, slot) => (⟨slot, info, none⟩, cache)
  | none =>
    let info := classifier.classify metaOf a
    (⟨cache.size, info, some a.name⟩, ⟨cache.infos ++ [info]⟩)

end VerdictCache

end ApiSurface
