/-!
How an annotation makes the element it stands on part of the shown surface.
-/

namespace ApiSurface

/-- Whether an element is shown, whether its contents are shown with it, and whether it is shown in
stubs only. -/
structure Showability where
  shows : Bool
  recursive : Bool
  forStubsOnly : Bool
deriving DecidableEq, Repr, Inhabited

namespace Showability

/-- The verdict of an annotation that shows nothing. -/
def noEffect : Showability := ⟨false, false, false⟩

/-- Shows the element itself and not its contents. -/
def showsNonRecursive (s : Showability) : Bool := s.shows && !s.recursive

/-- Shows the element together with its contents. -/
def showsContents (s : Showability) : Bool := s.shows && s.recursive

/-- Of two verdicts the one that shows counts. If both do, the contents are shown when either shows
them, and the element is for stubs only when both say so. -/
def combine (s t : Showability) : Showability :=
  match s.shows, t.shows with
  | false, _ => t
  | true, false => s
  | true, true => ⟨true, s.recursive || t.recursive, s.forStubsOnly && t.forStubsOnly⟩

/-- The combined verdict of a list, starting from no effect. -/
def combineAll (verdicts : List Showability) : Showability :=
  verdicts.foldl combine noEffect

end Showability

end ApiSurface
