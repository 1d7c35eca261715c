import ApiSurface.Ty.Equality

/-!
Declarations: what is said about a package, a class, a member, a parameter or a type alias where it
is declared.
-/

namespace ApiSurface

/-- Who may use an element, from the fewest to the most. -/
inductive Visibility where
  | ownClass
  | ownPackage
  | ownModule
  | subclasses
  | everyone
deriving DecidableEq, Repr, Inhabited

namespace Visibility

def all : List Visibility := [ownClass, ownPackage, ownModule, subclasses, everyone]

def name : Visibility → String
  | ownClass => "Private"
  | ownPackage => "PackagePrivate"
  | ownModule => "Internal"
  | subclasses => "Protected"
  | everyone => "Public"

def rank : Visibility → Nat
  | ownClass => 0
  | ownPackage => 1
  | ownModule => 2
  | subclasses => 3
  | everyone => 4

/-- The narrower of two visibilities. -/
def narrower (v w : Visibility) : Visibility :=
  if v.rank ≤ w.rank then v else w

end Visibility

/-- Where a class was found. -/
inductive Origin where
  | commandLine
  | sourcePath
  | classPath
deriving DecidableEq, Repr, Inhabited

namespace Origin

def all : List Origin := [commandLine, sourcePath, classPath]

def name : Origin → String
  | commandLine => "CommandLineSource"
  | sourcePath => "SourcePath"
  | classPath => "ClassPath"

end Origin

inductive ClassKind where
  | cls
  | interface
  | enum
  | annotationType
  | object
deriving DecidableEq, Repr, Inhabited

namespace ClassKind

def all : List ClassKind := [cls, interface, enum, annotationType, object]

def name : ClassKind → String
  | cls => "Class"
  | interface => "Interface"
  | enum => "Enum"
  | annotationType => "AnnotationType"
  | object => "Object"

end ClassKind

/-- The kinds of members, in the order in which they are visited. -/
inductive MemberKind where
  | constructor
  | method
  | property
  | field
deriving DecidableEq, Repr

instance : Inhabited MemberKind := ⟨.method⟩

namespace MemberKind

def all : List MemberKind := [constructor, method, property, field]

def name : MemberKind → String
  | constructor => "Constructor"
  | method => "Method"
  | property => "Property"
  | field => "Field"

end MemberKind

/-- Modifiers of a declared element. -/
structure DeclModifiers where
  visibility : Visibility := .everyone
  isStatic : Bool := false
  isFinal : Bool := false
  isAbstract : Bool := false
  isDeprecated : Bool := false
  annotations : List AnnotationUse := []
deriving DecidableEq, Repr, Inhabited

/-- A declared type variable. -/
structure TypeParameter where
  name : String
  bounds : List Ty := []
deriving DecidableEq, Inhabited

structure PackageDecl where
  name : String
  modifiers : DeclModifiers := {}
  documentation : String := ""
deriving DecidableEq, Inhabited

structure ClassDecl where
  name : String
  kind : ClassKind := .cls
  modifiers : DeclModifiers := {}
  documentation : String := ""
  typeParameters : List TypeParameter := []
  superType : Option ClassTy := none
  interfaces : List ClassTy := []
  origin : Option Origin := none
deriving DecidableEq, Inhabited

structure ParameterDecl where
  name : Option String := none
  ty : Ty
  modifiers : DeclModifiers := {}
  defaultValue : Option String := none
deriving DecidableEq, Inhabited

/-- A declared member. The type may be left out for a constructor, and so may its name. -/
structure MemberDecl where
  kind : MemberKind := .method
  name : String := ""
  modifiers : DeclModifiers := {}
  documentation : String := ""
  typeParameters : List TypeParameter := []
  ty : Option Ty := none
  parameters : List ParameterDecl := []
deriving DecidableEq, Inhabited

structure AliasDecl where
  name : String
  modifiers : DeclModifiers := {}
  documentation : String := ""
  typeParameters : List TypeParameter := []
  ty : Ty
deriving DecidableEq, Inhabited

end ApiSurface
