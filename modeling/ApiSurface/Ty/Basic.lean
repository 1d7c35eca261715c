import ApiSurface.Annotations.Basic

/-!
Type trees as they occur in signatures.

Trees are shared: one node can stand in several places, and operations that change nothing hand back
the node they were given. To make that visible, every node and every modifiers value carries an
identity, given when it is made. Two values are the same instance exactly when they are equal,
identities included; `Ty.plain` forgets identities, so trees have the same content when their plain
forms are equal.
-/

namespace ApiSurface

/-- The identity of an instance: the stamp of the step that made it and its place in what that step
made. -/
structure Ident where
  stamp : Nat := 0
  path : List Nat := []
deriving DecidableEq, Repr, Inhabited

/-- The identity for the child number `k` of what is made at `p`. -/
def Ident.child (p : Ident) (k : Nat) : Ident := ⟨p.stamp, k :: p.path⟩

/-- What is said about one use of a type. -/
structure TypeModifiers where
  id : Ident := {}
  nullability : Nullability := .platform
  annotations : List AnnotationUse := []
deriving DecidableEq, Repr, Inhabited

namespace TypeModifiers

/-- Modifiers whose nullability is read off the annotations: the first that says something about it
decides. -/
def ofAnnotations (id : Ident) (annotations : List AnnotationUse) : TypeModifiers where
  id := id
  nullability := (annotations.findSome? (·.nullMark.nullability?)).getD .platform
  annotations := annotations

/-- A new instance with another nullability. -/
def withNullability (id : Ident) (n : Nullability) (m : TypeModifiers) : TypeModifiers :=
  { m with id := id, nullability := n }

/-- The modifiers without their identity. -/
def plain (m : TypeModifiers) : TypeModifiers := { m with id := {} }

end TypeModifiers

/-- The types that are not references. -/
inductive Primitive where
  | boolean
  | byte
  | char
  | double
  | float
  | int
  | long
  | short
  | void
deriving DecidableEq, Repr

namespace Primitive

def all : List Primitive := [boolean, byte, char, double, float, int, long, short, void]

def name : Primitive → String
  | boolean => "Boolean"
  | byte => "Byte"
  | char => "Char"
  | double => "Double"
  | float => "Float"
  | int => "Int"
  | long => "Long"
  | short => "Short"
  | void => "Void"

/-- How the type is written in a signature. -/
def keyword : Primitive → String
  | boolean => "boolean"
  | byte => "byte"
  | char => "char"
  | double => "double"
  | float => "float"
  | int => "int"
  | long => "long"
  | short => "short"
  | void => "void"

end Primitive

/-- One use of a type variable. -/
structure Variable where
  id : Ident := {}
  mods : TypeModifiers := {}
  name : String
deriving DecidableEq, Repr

mutual

/-- A type. A lambda is a class type whose arguments are its receiver, its parameters and its
result. A wildcard is bounded by the type it extends (`upper`) and by the type it is a super type of
(`lower`). -/
inductive Ty where
  | primitive (id : Ident) (mods : TypeModifiers) (kind : Primitive)
  | array (id : Ident) (mods : TypeModifiers) (varargs : Bool) (component : Ty)
  | cls (c : ClassTy)
  | lambda (suspend receiver : Bool) (c : ClassTy)
  | var (v : Variable)
  | wildcard (id : Ident) (mods : TypeModifiers) (upper lower : Option Ty)

/-- A class with type arguments, possibly inside an outer class type. -/
structure ClassTy where
  id : Ident
  mods : TypeModifiers
  name : String
  outer : Option ClassTy
  args : List Ty

end

instance : Inhabited ClassTy := ⟨⟨{}, {}, "", none, []⟩⟩
instance : Inhabited Ty := ⟨.cls default⟩

/-- The name of the root of all classes. -/
def objectName : String := "java.lang.Object"

/-- The name of a class type relative to its outer type, or else its last segment. -/
def ClassTy.simpleName (c : ClassTy) : String :=
  match c.outer.bind fun o => Text.afterDot? o.name c.name with
  | some rest => rest
  | none => Text.lastSegment c.name

namespace Ty

/-- The kinds of nodes. -/
inductive Kind where
  | primitive
  | array
  | cls
  | lambda
  | var
  | wildcard
deriving DecidableEq, Repr

def kind : Ty → Kind
  | primitive .. => .primitive
  | array .. => .array
  | cls _ => .cls
  | lambda .. => .lambda
  | var _ => .var
  | wildcard .. => .wildcard

/-- The modifiers of the root. -/
def mods : Ty → TypeModifiers
  | primitive _ m _ | array _ m _ _ | wildcard _ m _ _ => m
  | cls c | lambda _ _ c => c.mods
  | var v => v.mods

def nullability (t : Ty) : Nullability := t.mods.nullability

/-- The class type of a class or a lambda. -/
def asClass? : Ty → Option ClassTy
  | cls c | lambda _ _ c => some c
  | _ => none

/-- Whether the type is the root of all classes. -/
def isObject (t : Ty) : Bool :=
  match t.asClass? with
  | some c => c.name == objectName
  | none => false

def isPrimitive : Ty → Bool
  | primitive .. => true
  | _ => false

def isVarargs : Ty → Bool
  | array _ _ varargs _ => varargs
  | _ => false

/-- A new root with other modifiers over the same children. -/
def withModifiers (p : Ident) (m : TypeModifiers) : Ty → Ty
  | primitive _ _ k => primitive p m k
  | array _ _ varargs c => array p m varargs c
  | cls c => cls { c with id := p, mods := m }
  | lambda suspend receiver c => lambda suspend receiver { c with id := p, mods := m }
  | var v => var { v with id := p, mods := m }
  | wildcard _ _ upper lower => wildcard p m upper lower

@[simp] theorem mods_withModifiers (p : Ident) (m : TypeModifiers) (t : Ty) :
    (t.withModifiers p m).mods = m := by
  cases t <;> rfl

/-- A new root with another nullability over the same children. -/
def withNullability (p : Ident) (n : Nullability) (t : Ty) : Ty :=
  t.withModifiers p (t.mods.withNullability p n)

end Ty

end ApiSurface
