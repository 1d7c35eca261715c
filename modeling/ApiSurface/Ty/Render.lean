import ApiSurface.SignatureFormat
import ApiSurface.Ty.Basic

/-!
The text of a type in a signature.
-/

namespace ApiSurface

/-- What the text of a type shows. An erased text shows no arguments, annotations and marks. -/
structure RenderOptions where
  nullMarks : Bool := false
  annotations : Bool := false
  erased : Bool := false
deriving DecidableEq, Repr, Inhabited

namespace RenderOptions

/-- The options for the erased text. -/
def erasure : RenderOptions := { erased := true }

/-- The options of a signature format. -/
def ofFormat (f : SignatureFormat) : RenderOptions := { nullMarks := f.usesNullMarks }

/-- The annotations in front of a type. -/
def annotationText (o : RenderOptions) (m : TypeModifiers) : String :=
  if o.annotations && !o.erased then
    String.join (m.annotations.map fun a => "@" ++ a.name ++ " ")
  else ""

/-- The nullability mark behind a type. -/
def markText (o : RenderOptions) (m : TypeModifiers) : String :=
  if o.nullMarks && !o.erased then m.nullability.suffix else ""

theorem annotationText_of_erased {o : RenderOptions} (ho : o.erased = true) (m : TypeModifiers) :
    o.annotationText m = "" := by
  simp [annotationText, ho]

theorem markText_of_erased {o : RenderOptions} (ho : o.erased = true) (m : TypeModifiers) :
    o.markText m = "" := by
  simp [markText, ho]

/-- The options for an outer class type, which bears no mark. -/
def forOuter (o : RenderOptions) : RenderOptions := { o with nullMarks := false }

/-- The type arguments of a class, given their texts. -/
def argumentText (args : List String) : String :=
  if args.isEmpty then "" else "<" ++ ", ".intercalate args ++ ">"

end RenderOptions

mutual

/-- The text of a type. -/
def Ty.render (o : RenderOptions) : Ty → String
  | .primitive _ m k => o.annotationText m ++ k.keyword
  | .array _ m varargs c =>
    c.render o ++ o.annotationText m ++ (if varargs && !o.erased then "..." else "[]") ++
      o.markText m
  | .cls c => c.render o
  | .lambda _ _ c => c.render o
  | .var v => o.annotationText v.mods ++ v.name ++ o.markText v.mods
  | .wildcard _ _ _ (some lower) => "? super " ++ lower.render o
  | .wildcard _ _ (some upper) none =>
    if upper.isObject then "?" else "? extends " ++ upper.render o
  | .wildcard _ _ none none => "?"

/-- The texts of type arguments. -/
def Ty.renderArgs (o : RenderOptions) : List Ty → List String
  | [] => []
  | t :: ts => t.render o :: Ty.renderArgs o ts

/-- The text of a class type. Inside an outer type the name is relative to it. -/
def ClassTy.render (o : RenderOptions) (c : ClassTy) : String :=
  match c with
  | ⟨id, m, name, outer, args⟩ =>
    (match ClassTy.renderOuter o outer with
      | some text =>
        text ++ "." ++ o.annotationText m ++ (ClassTy.mk id m name outer args).simpleName
      | none => o.annotationText m ++ name) ++
      (if o.erased then "" else RenderOptions.argumentText (Ty.renderArgs o args)) ++ o.markText m

/-- The text of an outer type, if there is one. -/
def ClassTy.renderOuter (o : RenderOptions) : Option ClassTy → Option String
  | none => none
  | some c => some (c.render o.forOuter)

end

namespace Ty

/-- The text with arguments and neither annotations nor marks. -/
def text (t : Ty) : String := t.render {}

/-- The erased text; variables keep their names. -/
def erasedText (t : Ty) : String := t.render .erasure

theorem renderArgs_eq (o : RenderOptions) (ts : List Ty) : renderArgs o ts = ts.map (render o) := by
  induction ts with
  | nil => rfl
  | cons t ts ih => simp [renderArgs, ih]

end Ty

end ApiSurface
