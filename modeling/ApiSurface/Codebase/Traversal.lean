import ApiSurface.Codebase.Basic

/-!
Walks over a codebase: packages in the order of their names, in each its type aliases and then its
classes, in each class its members by kind.

Nested classes are visited before their container is left, or after it. A class has a smaller number
than the classes nested in it, so from class `c` on a walk goes at most `size - c` levels down.
-/

namespace ApiSurface

/-- One step of a walk over a codebase. -/
inductive Visit where
  | codebase
  | leaveCodebase
  | package (p : PackageId)
  | leavePackage (p : PackageId)
  | typeAlias (a : AliasId)
  | cls (c : ClassId)
  | leaveClass (c : ClassId)
  | constructor (m : MemberId)
  | method (m : MemberId)
  | property (m : MemberId)
  | field (m : MemberId)
deriving DecidableEq, Repr

namespace Visit

/-- The step that meets a member of a kind. -/
def ofMember : MemberKind → MemberId → Visit
  | .constructor => constructor
  | .method => method
  | .property => property
  | .field => field

end Visit

namespace Tables

variable (t : Tables)

/-- The members of a class of one kind. -/
def membersOfKind (c : ClassId) (kind : MemberKind) : List MemberId :=
  (t.classAt c).members.filter fun m => (t.memberAt m).kind = kind

/-- The members of a class, kind after kind. -/
def visitMembers (c : ClassId) : List Visit :=
  MemberKind.all.flatMap fun kind => (t.membersOfKind c kind).map (Visit.ofMember kind)

/-- A class, its members and its nested classes, at most `n` levels down. -/
def visitClassWithin (nesting : Bool) : Nat → ClassId → List Visit
  | 0, _ => []
  | n + 1, c =>
    let nested := (t.classAt c).nested.flatMap (visitClassWithin nesting n)
    .cls c :: t.visitMembers c ++
      if nesting then nested ++ [.leaveClass c] else .leaveClass c :: nested

/-- A class, its members and its nested classes. With `nesting`, the class is left after them. -/
def visitClass (nesting : Bool) (c : ClassId) : List Visit :=
  t.visitClassWithin nesting (t.classes.size - c) c

/-- A package, its type aliases and its classes. -/
def visitPackage (nesting : Bool) (p : PackageId) : List Visit :=
  let e := t.packageAt p
  .package p :: e.aliases.map .typeAlias ++ e.classes.flatMap (t.visitClass nesting) ++
    [.leavePackage p]

/-- All classes of a work list, each followed by those nested in it, at most `n` in number. -/
def drain : Nat → List ClassId → List ClassId
  | n + 1, c :: pending => c :: drain n ((t.classAt c).nested ++ pending)
  | _, _ => []

/-- All classes of a package, each before those nested in it. -/
def allClasses (p : PackageId) : List ClassId :=
  t.drain t.classes.size (t.packageAt p).classes

end Tables

/-- The whole codebase, package after package. -/
def Codebase.visit (cb : Codebase) (nesting : Bool) : List Visit :=
  .codebase :: cb.packages.flatMap (cb.tables.visitPackage nesting) ++ [.leaveCodebase]

end ApiSurface
