import ApiSurface.Error
import ApiSurface.Text.Quoted
import Std.Data.TreeMap.Basic

/-!
Options of a codebase: values of several types under names.

The types that values can have are given by a family `Value` over a type of kinds. A key has a name,
a kind and a fallback; a value that was set under its name with another kind does not count.
-/

namespace ApiSurface

/-- Names an option and the kind of its values. -/
structure OptionSpec {κ : Type} (Value : κ → Type) where
  name : String
  kind : κ
  fallback : Value kind
  description : String

/-- A key and the value to set for it. -/
structure Setting {κ : Type} (Value : κ → Type) where
  key : OptionSpec Value
  value : Value key.kind

/-- Values by name. -/
structure Options {κ : Type} (Value : κ → Type) where
  description : String
  values : Std.TreeMap String (Sigma Value)

namespace Options

variable {κ : Type} {Value : κ → Type}

/-- The options in which nothing is set. -/
def empty : Options Value := ⟨"empty", ∅⟩

/-- Options in which nothing is set and that have no description. -/
def blank : Options Value := ⟨"", ∅⟩

/-- Options in the making: the values by name, and a name for each setting that found its name with
a value already. -/
structure Draft (Value : κ → Type) where
  values : Std.TreeMap String (Sigma Value)
  duplicates : Array String

/-- Sets a value, in place of an earlier one if there is one; the name is then a duplicate. -/
def Draft.set (d : Draft Value) (s : Setting Value) : Draft Value :=
  let (known, values) := d.values.containsThenInsert s.key.name ⟨s.key.kind, s.value⟩
  ⟨values, if known then d.duplicates.push s.key.name else d.duplicates⟩

/-- What the settings make when they are set one after another. -/
def draft (settings : List (Setting Value)) : Draft Value :=
  settings.foldl Draft.set ⟨∅, #[]⟩

/-- Options with the given settings, each of another name. -/
def build (description : String) (settings : List (Setting Value)) :
    Except Error (Options Value) :=
  let d := draft settings
  if d.duplicates.isEmpty then
    .ok ⟨description, d.values⟩
  else
    let listed := ", ".intercalate d.duplicates.toList
    .error (.duplicateOptionKey s!"{listed} in options '{description}'")

def isEmpty (o : Options Value) : Bool := o.values.isEmpty

/-- Whether a value is set under the name of the key. -/
def contains (o : Options Value) (key : OptionSpec Value) : Bool :=
  o.values.contains key.name

/-- The value set for the key, or its fallback. -/
def get [DecidableEq κ] (o : Options Value) (key : OptionSpec Value) : Value key.kind :=
  match o.values[key.name]? with
  | some ⟨kind, value⟩ => if h : kind = key.kind then h ▸ value else key.fallback
  | none => key.fallback

/-- A diagnostic text with the names that are set. -/
def describe (o : Options Value) : String :=
  "ModelOptions \x7b description: " ++ Text.quoted o.description ++ ", keys: " ++
    Text.quotedList o.values.keys ++ " \x7d"

end Options

/-- The kinds of values that the options of a codebase have. -/
inductive ValueKind where
  | bool
  | int
  | uint
  | text
  | list
deriving DecidableEq, Repr

/-- The type of the values of a kind. -/
abbrev ValueKind.Value : ValueKind → Type
  | bool => Bool
  | int => Int
  | uint => Nat
  | text => String
  | list => List String

end ApiSurface
