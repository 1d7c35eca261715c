import ApiSurface.Element.Declaration
import ApiSurface.Element.MatchKey
import ApiSurface.Ty.Erasure
import Std.Data.TreeMap.Basic

/-!
The tables of a codebase: its packages, classes, members and type aliases, each known by its number,
how they contain each other, and where each name is found.

A container always has a smaller number than what it contains, so that following containers outwards
from the class number `n` takes at most `n` steps.

The numbers of a codebase have 32 bits. Here they are not bounded, so the tables stand for a
codebase with fewer than 2^32 packages, classes, members and type aliases each.
-/

namespace ApiSurface

abbrev PackageId := Nat
abbrev ClassId := Nat
abbrev MemberId := Nat
abbrev AliasId := Nat

/-- A package with its top-level classes and its type aliases. -/
structure PackageEntry where
  decl : PackageDecl
  classes : List ClassId := []
  aliases : List AliasId := []
deriving DecidableEq, Inhabited

/-- A class with the classes and members that it contains. -/
structure ClassEntry where
  decl : ClassDecl
  package : PackageId
  container : Option ClassId
  nested : List ClassId := []
  members : List MemberId := []
deriving DecidableEq, Inhabited

/-- A member; its type is always known. -/
structure MemberEntry where
  kind : MemberKind
  name : String
  modifiers : DeclModifiers
  documentation : String
  typeParameters : List TypeParameter
  ty : Ty
  parameters : List ParameterDecl
  declaredIn : ClassId
deriving DecidableEq, Inhabited

structure AliasEntry where
  decl : AliasDecl
  package : PackageId
deriving DecidableEq, Inhabited

structure Tables where
  packages : Array PackageEntry := #[]
  classes : Array ClassEntry := #[]
  members : Array MemberEntry := #[]
  aliases : Array AliasEntry := #[]
  packageIndex : Std.TreeMap String PackageId := ∅
  classIndex : Std.TreeMap String ClassId := ∅
  aliasIndex : Std.TreeMap String AliasId := ∅

namespace Tables

variable (t : Tables)

def packageAt (p : PackageId) : PackageEntry := t.packages.getD p default

def classAt (c : ClassId) : ClassEntry := t.classes.getD c default

def memberAt (m : MemberId) : MemberEntry := t.members.getD m default

def aliasAt (a : AliasId) : AliasEntry := t.aliases.getD a default

/-- The class and its containers, outwards, in at most `n` steps. -/
def enclosingWithin : Nat → ClassId → List ClassId
  | 0, c => [c]
  | n + 1, c =>
    match (t.classAt c).container with
    | some outer => c :: enclosingWithin n outer
    | none => [c]

/-- The class and its containers, outwards. -/
def enclosing (c : ClassId) : List ClassId := t.enclosingWithin c c

/-- The containers of a class, outwards. -/
def containers (c : ClassId) : List ClassId := (t.enclosing c).tail

/-- The type of a class with its own type variables as arguments, inside at most `n` outer types. -/
def classTyWithin (p : Ident) : Nat → ClassId → ClassTy
  | n, c =>
    let e := t.classAt c
    { id := p
      mods := { id := p, nullability := .nonNull }
      name := e.decl.name
      outer :=
        match n, e.container with
        | n + 1, some outer =>
          if e.decl.modifiers.isStatic then none else some (classTyWithin (p.child 0) n outer)
        | _, _ => none
      args := e.decl.typeParameters.mapIdx fun k parameter =>
        .var { id := p.child (k + 1), mods := { id := p.child (k + 1) }, name := parameter.name } }

/-- The type of a class with its own type variables as arguments. A class that is not static lies
inside the type of its container. -/
def classTy (p : Ident) (c : ClassId) : ClassTy := t.classTyWithin p c c

/-- The type variables that a member can name, nearest first. -/
def scope (m : MemberEntry) : List TypeParameter :=
  m.typeParameters ++ (t.enclosing m.declaredIn).flatMap fun c => (t.classAt c).decl.typeParameters

/-- The first bound of a type variable as a member sees it. -/
def firstBound (m : MemberEntry) (name : String) : Option Ty :=
  ((t.scope m).find? (·.name == name)).bind (·.bounds.head?)

/-- The erased types of the parameters of a member. -/
def erasedParameters (m : MemberEntry) : List String :=
  m.parameters.map fun p => p.ty.erasedWith (t.firstBound m)

/-- The key of a member. -/
def memberKey (m : MemberEntry) : MatchKey :=
  match m.kind with
  | .constructor => .constructor (t.erasedParameters m)
  | .method => .method m.name (t.erasedParameters m)
  | .property => .property m.name
  | .field => .field m.name

end Tables

end ApiSurface
