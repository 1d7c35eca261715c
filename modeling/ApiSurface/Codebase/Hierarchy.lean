import ApiSurface.Codebase.Tables
import ApiSurface.Ty.Substitution

/-!
Super classes and the members that a class inherits from them.

Super classes are named by their types, and nothing keeps a class from being its own ancestor, so a
chain of super classes ends where it would come to a class for the second time.
-/

namespace ApiSurface.Tables

variable (t : Tables)

/-- The super class, if the tables have it. -/
def superClass? (c : ClassId) : Option ClassId :=
  (t.classAt c).decl.superType.bind fun ty => t.classIndex[ty.name]?

/-- The chain of super classes from `next` on, without those that were seen. -/
def superChain : Nat → List ClassId → Option ClassId → List ClassId
  | n + 1, seen, some c =>
    if seen.contains c then [] else c :: superChain n (c :: seen) (t.superClass? c)
  | _, _, _ => []

/-- The super classes of a class, nearest first. -/
def superClasses (c : ClassId) : List ClassId :=
  t.superChain t.classes.size [c] (t.superClass? c)

/-- What the type variables of the super class stand for in a class. -/
def superBindings (c : ClassId) : Bindings :=
  match t.superClass? c, (t.classAt c).decl.superType with
  | some super, some ty =>
    .ofList (((t.classAt super).decl.typeParameters.map (·.name)).zip ty.args)
  | _, _ => ∅

/-- The key of a member. -/
def keyOf (m : MemberId) : MatchKey := t.memberKey (t.memberAt m)

/-- Whether sub classes inherit a member. -/
def isInheritable (m : MemberId) : Bool :=
  let e := t.memberAt m
  e.kind ≠ .constructor && e.modifiers.visibility ≠ .ownClass

/-- The members that super classes offer, each with the class that declares it. -/
def offered (c : ClassId) : List (ClassId × MemberId) :=
  (t.superClasses c).flatMap fun a =>
    ((t.classAt a).members.filter t.isInheritable).map fun m => (a, m)

/-- The first of the offered members for every key that was not seen. -/
def firstOfKey (seen : List MatchKey) : List (ClassId × MemberId) → List (ClassId × MemberId)
  | [] => []
  | (a, m) :: rest =>
    if seen.contains (t.keyOf m) then firstOfKey seen rest
    else (a, m) :: firstOfKey (t.keyOf m :: seen) rest

/-- The members that a class inherits, each with the class that declares it. -/
def inherited (c : ClassId) : List (ClassId × MemberId) :=
  t.firstOfKey ((t.classAt c).members.map t.keyOf) (t.offered c)

end ApiSurface.Tables
