import ApiSurface.Text.Quoted

/-!
Keys by which elements of different codebases are matched.
-/

namespace ApiSurface

/-- What identifies an element among those of its kind: a name, and for what has parameters their
erased types. -/
inductive MatchKey where
  | package (name : String)
  | cls (name : String)
  | typeAlias (name : String)
  | constructor (parameters : List String)
  | method (name : String) (parameters : List String)
  | field (name : String)
  | property (name : String)
  | parameter (owner : MatchKey) (index : Nat)
deriving DecidableEq, Repr, Ord, Inhabited

namespace MatchKey

/-- The key as it reads in a signature. -/
def text : MatchKey → String
  | package name | cls name | typeAlias name | field name | property name => name
  | constructor parameters => "<init>(" ++ ", ".intercalate parameters ++ ")"
  | method name parameters => name ++ "(" ++ ", ".intercalate parameters ++ ")"
  | parameter owner index => owner.text ++ "#" ++ toString index

/-- A diagnostic text. -/
def describe : MatchKey → String
  | package name => "Package(" ++ Text.quoted name ++ ")"
  | cls name => "Class(" ++ Text.quoted name ++ ")"
  | typeAlias name => "TypeAlias(" ++ Text.quoted name ++ ")"
  | constructor parameters => "Constructor(" ++ Text.quotedList parameters ++ ")"
  | method name parameters =>
    "Method \x7b name: " ++ Text.quoted name ++ ", parameters: " ++ Text.quotedList parameters ++
      " \x7d"
  | field name => "Field(" ++ Text.quoted name ++ ")"
  | property name => "Property(" ++ Text.quoted name ++ ")"
  | parameter owner index =>
    "Parameter \x7b owner: " ++ owner.describe ++ ", index: " ++ toString index ++ " \x7d"

/-- The positions of the keys in increasing order; equal keys keep their order. -/
def sortedPositions (keys : List MatchKey) : List Nat :=
  (keys.zipIdx.mergeSort fun a b => (compare a.1 b.1).isLE).map (·.2)

end MatchKey

end ApiSurface
