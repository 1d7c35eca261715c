import ApiSurface.Ty.Render

/-!
Erased types as they identify the parameters of a member: a variable stands for its first bound.

Bounds can be cyclic, so at most eight are followed one after another; after that, and where a
variable has no bound, the erasure is the root class.
-/

namespace ApiSurface.Ty

/-- How many bounds are followed one after another. -/
def maxBounds : Nat := 8

/-- The erased text of a type when `onVar` gives the text for a variable at its head. -/
def eraseHead (onVar : String → String) : Ty → String
  | .var v => onVar v.name
  | .array _ _ _ c => c.eraseHead onVar ++ "[]"
  | t => t.erasedText

/-- The erased text of a variable when at most `n` bounds are followed. -/
def eraseVar (boundOf : String → Option Ty) : Nat → String → String
  | 0, _ => objectName
  | n + 1, name =>
    match boundOf name with
    | some bound => bound.eraseHead (eraseVar boundOf n)
    | none => objectName

/-- The erased text of a type whose variables have the bounds `boundOf`. -/
def erasedWith (boundOf : String → Option Ty) (t : Ty) : String :=
  t.eraseHead (eraseVar boundOf maxBounds)

end ApiSurface.Ty
