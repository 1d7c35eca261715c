import ApiSurface.Text.Search

/-!
Nullability of types, and what an annotation says about it.
-/

namespace ApiSurface

/-- Whether a value of a type may be null. `platform` is the unknown nullability of foreign code,
`undefined` that of a type for which the question makes no sense. -/
inductive Nullability where
  | platform
  | nullable
  | nonNull
  | undefined
deriving DecidableEq, Repr, Inhabited

namespace Nullability

def all : List Nullability := [platform, nullable, nonNull, undefined]

def name : Nullability → String
  | platform => "Platform"
  | nullable => "Nullable"
  | nonNull => "NonNull"
  | undefined => "Undefined"

/-- The mark written behind a type. -/
def suffix : Nullability → String
  | platform => "!"
  | nullable => "?"
  | nonNull | undefined => ""

end Nullability

/-- What an annotation says about nullability. -/
inductive NullMark where
  | nullable
  | nonNull
  | unrelated
deriving DecidableEq, Repr

namespace NullMark

def all : List NullMark := [nullable, nonNull, unrelated]

def name : NullMark → String
  | nullable => "Nullable"
  | nonNull => "NonNull"
  | unrelated => "NotNullability"

def namesNullable (annotationName : String) : Bool :=
  Text.endsWith "Nullable" annotationName

def namesNonNull (annotationName : String) : Bool :=
  Text.endsWith "NonNull" annotationName || Text.endsWith "NotNull" annotationName ||
    Text.endsWith "Nonnull" annotationName

/-- The mark that an annotation of this name makes, read off the end of the name. -/
def ofName (annotationName : String) : NullMark :=
  if namesNullable annotationName then nullable
  else if namesNonNull annotationName then nonNull
  else unrelated

/-- The nullability that the mark decides, if it decides any. -/
def nullability? : NullMark → Option Nullability
  | nullable => some .nullable
  | nonNull => some .nonNull
  | unrelated => none

end NullMark

end ApiSurface
