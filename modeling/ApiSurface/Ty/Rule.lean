import ApiSurface.Ty.Edit

/-!
Editors given by a list of changes.
-/

namespace ApiSurface

/-- The changes that an edit makes. -/
structure Rule where
  /-- Annotations of this name are dropped. -/
  strip : Option String := none
  /-- The nullability becomes the second one, where it is the first one if that is given. -/
  nullability : Option (Option Nullability × Nullability) := none
  /-- All modifiers become new instances. -/
  fresh : Bool := false
  /-- The kinds of nodes that are left alone. -/
  keep : List Ty.Kind := []
  /-- Variables of this name become this type, even if variables are left alone. -/
  replaceVar : Option (String × Ty) := none
  /-- Class types of the first name get the second one. -/
  renameClass : Option (String × String) := none

namespace Rule

def stripped (rule : Rule) (p : Ident) (m : TypeModifiers) : TypeModifiers :=
  match rule.strip with
  | some name =>
    if m.annotations.any (·.name == name) then
      { m with id := p, annotations := m.annotations.filter (·.name ≠ name) }
    else m
  | none => m

def renulled (rule : Rule) (p : Ident) (m : TypeModifiers) : TypeModifiers :=
  match rule.nullability with
  | some (none, target) => m.withNullability p target
  | some (some source, target) =>
    if m.nullability = source then m.withNullability p target else m
  | none => m

def freshened (rule : Rule) (p : Ident) (m : TypeModifiers) : TypeModifiers :=
  if rule.fresh then { m with id := p } else m

/-- The change to modifiers. -/
def modifiers (rule : Rule) (p : Ident) (m : TypeModifiers) : TypeModifiers :=
  rule.freshened p (rule.renulled p (rule.stripped p m))

/-- The type that replaces a variable. -/
def replacement? (rule : Rule) (v : Variable) : Option Ty :=
  match rule.replaceVar with
  | some (name, t) => if v.name = name then some t else none
  | none => none

/-- The change of a class name. -/
def renamed (rule : Rule) (p : Ident) (c : ClassTy) : ClassTy :=
  match rule.renameClass with
  | some (source, target) => if c.name = source then { c with id := p, name := target } else c
  | none => c

/-- The editor that makes all the changes. -/
def editor (rule : Rule) : Editor where
  modifiers := rule.modifiers
  replace? _ v := rule.replacement? v
  keeps k := rule.keep.contains k
  finish := rule.renamed

/-- The editor that makes the changes to modifiers only. -/
def modifiersEditor (rule : Rule) : Editor where
  modifiers := rule.modifiers

end Rule

end ApiSurface
