import ApiSurface.Element.Basic
import ApiSurface.Text.Search

/-!
Whether an element is part of the shown surface.

An element that some annotation shows is not hidden. Any other element is hidden when its
documentation or an annotation hides it, or when its containers hide their contents: going outwards,
the first container that shows its contents or is hidden itself decides.

Verdicts on annotations are kept in the cache of the element's codebase, and only what is needed for
an answer is looked up.
-/

namespace ApiSurface

namespace Element

/-- The tag that hides an element in its documentation. -/
def hideTag : String := "@hide"

variable (x : Element)

/-- The verdicts on all annotations of an element. -/
def verdicts : StateM VerdictCache (List Verdict) :=
  x.modifiers.annotations.mapM x.codebase.verdict

/-- The combined verdict of all annotations. -/
def showability : StateM VerdictCache Showability := do
  return .combineAll ((← x.verdicts).map (·.showability))

/-- Whether the documentation or an annotation hides the element. -/
def isHiddenItself : StateM VerdictCache Bool := do
  if Text.occursIn hideTag.toList x.documentation.toList then return true
  return (← x.verdicts).any (·.hides)

/-- Whether one of the containers, given outwards, hides its contents. -/
def hidesContents : List Element → StateM VerdictCache Bool
  | [] => return false
  | p :: ps => do
    if (← p.showability).showsContents then return false
    if ← p.isHiddenItself then return true
    hidesContents ps

/-- Whether the element is not part of the shown surface. -/
def isHidden : StateM VerdictCache Bool := do
  if (← x.showability).shows then return false
  if ← x.isHiddenItself then return true
  hidesContents x.ancestors

/-- Whether an annotation excludes the element from compatibility checks. -/
def suppressesCompatibility : StateM VerdictCache Bool := do
  return (← x.verdicts).any (·.suppresses)

/-- The narrowest visibility of the element and its containers. -/
def effectiveVisibility : Visibility :=
  x.ancestors.foldl (fun v p => v.narrower p.modifiers.visibility) x.modifiers.visibility

end Element

end ApiSurface
