import ApiSurface.Ty.Edit
import Std.Data.TreeMap.Basic

/-!
Substitution of types for type variables.
-/

namespace ApiSurface

/-- The types that variables stand for, by name. -/
abbrev Bindings := Std.TreeMap String Ty

/-- The editor that replaces bound variables. Where a variable is marked nullable, so is the type
that replaces it. -/
def Bindings.editor (s : Bindings) : Editor where
  replace? p v :=
    s[v.name]?.map fun t =>
      if v.mods.nullability = .nullable then t.withNullability p .nullable else t

/-- Replaces all bound variables at once. -/
def Ty.substitute (p : Ident) (s : Bindings) (t : Ty) : Ty :=
  if s.isEmpty then t else s.editor.edit p t

end ApiSurface
