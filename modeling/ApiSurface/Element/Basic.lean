import ApiSurface.Codebase.Basic
import ApiSurface.Codebase.Hierarchy

/-!
Elements of a codebase: packages, classes, type aliases, members and parameters.

A member can be seen from another class than the one that declares it, possibly in another codebase:
it then keeps its declaration and belongs to the class it is seen from.
-/

namespace ApiSurface

structure PackageRef where
  codebase : Codebase
  id : PackageId

structure ClassRef where
  codebase : Codebase
  id : ClassId

structure AliasRef where
  codebase : Codebase
  id : AliasId

/-- A member declared in the codebase `home`, seen in the class `container`. -/
structure MemberRef where
  home : Codebase
  id : MemberId
  container : ClassRef
  inheritedFrom : Option ClassRef := none

structure ParameterRef where
  member : MemberRef
  index : Nat

namespace PackageRef

variable (p : PackageRef)

def entry : PackageEntry := p.codebase.tables.packageAt p.id

def name : String := p.entry.decl.name

/-- The classes that are not nested, in the order of their declaration. -/
def topLevelClasses : List ClassRef := p.entry.classes.map (⟨p.codebase, ·⟩)

def aliases : List AliasRef := p.entry.aliases.map (⟨p.codebase, ·⟩)

/-- Whether two views are of the same element. -/
def same (p q : PackageRef) : Bool := p.codebase.number == q.codebase.number && p.id == q.id

end PackageRef

namespace ClassRef

variable (c : ClassRef)

def entry : ClassEntry := c.codebase.tables.classAt c.id

def name : String := c.entry.decl.name

def kind : ClassKind := c.entry.decl.kind

def package : PackageRef := ⟨c.codebase, c.entry.package⟩

def container? : Option ClassRef := c.entry.container.map (⟨c.codebase, ·⟩)

/-- The name relative to the container or to the package. -/
def simpleName : String :=
  let outer := match c.container? with
    | some outer => outer.name
    | none => c.package.name
  (Text.afterDot? outer c.name).getD c.name

def nested : List ClassRef := c.entry.nested.map (⟨c.codebase, ·⟩)

/-- The members that the class declares, in the order of their declaration. -/
def members : List MemberRef :=
  c.entry.members.map fun m => { home := c.codebase, id := m, container := c }

def superClass? : Option ClassRef := (c.codebase.tables.superClass? c.id).map (⟨c.codebase, ·⟩)

def superClasses : List ClassRef := (c.codebase.tables.superClasses c.id).map (⟨c.codebase, ·⟩)

/-- The members that the class inherits, seen in this class. -/
def inheritedMembers : List MemberRef :=
  (c.codebase.tables.inherited c.id).map fun (a, m) =>
    { home := c.codebase, id := m, container := c, inheritedFrom := some ⟨c.codebase, a⟩ }

/-- The type of the class with its own type variables as arguments. -/
def classTy (p : Ident) : ClassTy := c.codebase.tables.classTy p c.id

/-- Where the outermost container was found. -/
def origin : Origin :=
  let outermost := (c.codebase.tables.enclosing c.id).getLast?.getD c.id
  (c.codebase.tables.classAt outermost).decl.origin.getD c.codebase.defaultOrigin

/-- Whether two views are of the same element. -/
def same (c d : ClassRef) : Bool := c.codebase.number == d.codebase.number && c.id == d.id

end ClassRef

namespace AliasRef

variable (a : AliasRef)

def entry : AliasEntry := a.codebase.tables.aliasAt a.id

def name : String := a.entry.decl.name

def simpleName : String := Text.lastSegment a.name

def package : PackageRef := ⟨a.codebase, a.entry.package⟩

/-- Whether two views are of the same element. -/
def same (a b : AliasRef) : Bool := a.codebase.number == b.codebase.number && a.id == b.id

end AliasRef

namespace MemberRef

variable (m : MemberRef)

def entry : MemberEntry := m.home.tables.memberAt m.id

def name : String := m.entry.name

def kind : MemberKind := m.entry.kind

def key : MatchKey := m.home.tables.memberKey m.entry

def erasedParameters : List String := m.home.tables.erasedParameters m.entry

def parameters : List ParameterRef := (List.range m.entry.parameters.length).map (⟨m, ·⟩)

/-- The member as seen in another class. -/
def duplicate (target : ClassRef) : MemberRef :=
  { m with container := target, inheritedFrom := some m.container }

/-- Whether two optional views are of the same class, or both absent. -/
def sameOrigin : Option ClassRef → Option ClassRef → Bool
  | some c, some d => c.same d
  | none, none => true
  | _, _ => false

/-- Whether two views are of the same member, seen in the same class and from the same class. -/
def same (m n : MemberRef) : Bool :=
  m.home.number == n.home.number && m.id == n.id && m.container.same n.container &&
    sameOrigin m.inheritedFrom n.inheritedFrom

end MemberRef

namespace Codebase

variable (cb : Codebase)

/-- The package with this number. -/
def package? (id : PackageId) : Option PackageRef :=
  if id < cb.tables.packages.size then some ⟨cb, id⟩ else none

/-- The class with this number. -/
def class? (id : ClassId) : Option ClassRef :=
  if id < cb.tables.classes.size then some ⟨cb, id⟩ else none

theorem class?_eq_some_iff {cb : Codebase} {id : ClassId} {c : ClassRef} :
    cb.class? id = some c ↔ id < cb.tables.classes.size ∧ ⟨cb, id⟩ = c := by
  rw [class?, Option.ite_none_right_eq_some, Option.some.injEq]

/-- The type alias with this number. -/
def typeAlias? (id : AliasId) : Option AliasRef :=
  if id < cb.tables.aliases.size then some ⟨cb, id⟩ else none

/-- The member with this number, seen in the class that declares it. -/
def member? (id : MemberId) : Option MemberRef :=
  if id < cb.tables.members.size then
    some { home := cb, id, container := ⟨cb, (cb.tables.memberAt id).declaredIn⟩ }
  else none

def packageNamed? (name : String) : Option PackageRef := (cb.findPackage? name).map (⟨cb, ·⟩)

def classNamed? (name : String) : Option ClassRef := (cb.findClass? name).map (⟨cb, ·⟩)

def aliasNamed? (name : String) : Option AliasRef := (cb.findAlias? name).map (⟨cb, ·⟩)

end Codebase

/-- The member with this key that a class declares, or else the one that it inherits. -/
def ClassRef.findMember? (c : ClassRef) (key : MatchKey) : Option MemberRef :=
  match c.members.find? (·.key == key) with
  | some m => some m
  | none => c.inheritedMembers.find? (·.key == key)

namespace ParameterRef

variable (p : ParameterRef)

def decl : ParameterDecl := p.member.entry.parameters.getD p.index default

/-- Whether two views are of the same parameter. -/
def same (p q : ParameterRef) : Bool := p.member.same q.member && p.index == q.index

end ParameterRef

/-- An element of any kind. -/
inductive Element where
  | package (p : PackageRef)
  | cls (c : ClassRef)
  | typeAlias (a : AliasRef)
  | member (m : MemberRef)
  | parameter (p : ParameterRef)

namespace Element

/-- The codebase that an element belongs to: for a member that of the class it is seen in. -/
def codebase : Element → Codebase
  | package p => p.codebase
  | cls c => c.codebase
  | typeAlias a => a.codebase
  | member m => m.container.codebase
  | parameter p => p.member.container.codebase

def modifiers : Element → DeclModifiers
  | package p => p.entry.decl.modifiers
  | cls c => c.entry.decl.modifiers
  | typeAlias a => a.entry.decl.modifiers
  | member m => m.entry.modifiers
  | parameter p => p.decl.modifiers

/-- Parameters have no documentation of their own. -/
def documentation : Element → String
  | package p => p.entry.decl.documentation
  | cls c => c.entry.decl.documentation
  | typeAlias a => a.entry.decl.documentation
  | member m => m.entry.documentation
  | parameter _ => ""

/-- The key by which the element is matched with elements of other codebases. -/
def key : Element → MatchKey
  | package p => .package p.name
  | cls c => .cls c.name
  | typeAlias a => .typeAlias a.name
  | member m => m.key
  | parameter p => .parameter p.member.key p.index

def origin : Element → Origin
  | package p => p.codebase.defaultOrigin
  | cls c => c.origin
  | typeAlias a => a.codebase.defaultOrigin
  | member m => m.container.origin
  | parameter p => p.member.container.origin

def isFromClasspath (x : Element) : Bool := x.origin == .classPath

def parent? : Element → Option Element
  | package _ => none
  | cls c =>
    match c.container? with
    | some outer => some (.cls outer)
    | none => some (.package c.package)
  | typeAlias a => some (.package a.package)
  | member m => some (.cls m.container)
  | parameter p => some (.member p.member)

/-- Whether two elements match across codebases. -/
def matchesElement (x y : Element) : Bool := x.key == y.key

/-- Whether two views are of the same element. -/
def same : Element → Element → Bool
  | package p, package q => p.same q
  | cls c, cls d => c.same d
  | typeAlias a, typeAlias b => a.same b
  | member m, member n => m.same n
  | parameter p, parameter q => p.same q
  | _, _ => false

/-- The containers of a class, outwards, up to its package. -/
def aboveClass (c : ClassRef) : List Element :=
  (c.codebase.tables.containers c.id).map (fun outer => .cls ⟨c.codebase, outer⟩) ++
    [.package c.package]

/-- The containers of an element, outwards, up to its package. -/
def ancestors : Element → List Element
  | package _ => []
  | cls c => aboveClass c
  | typeAlias a => [.package a.package]
  | member m => .cls m.container :: aboveClass m.container
  | parameter p => .member p.member :: .cls p.member.container :: aboveClass p.member.container

end Element

end ApiSurface
