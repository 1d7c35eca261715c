/-!
What can go wrong, and how it is reported.

Every cause but an unknown id and a failed read carries a text, and a caller that knows more puts a
context in front of that text.
-/

namespace ApiSurface

/-- The causes of failure. -/
inductive Error where
  | unknownItem (kind : String) (id : Nat)
  | duplicateClass (name : String)
  | duplicateTypeAlias (name : String)
  | malformedContainment (detail : String)
  | immutableTypeAliasType (name : String)
  | invalidType (detail : String)
  | duplicateOptionKey (detail : String)
  | unknownFileFormat (detail : String)
  | invalidAnnotationFilter (source : String)
  | serialization (detail : String)
  | io (detail : String)
deriving DecidableEq, Repr

namespace Error

/-- The text shown to the user. -/
def message : Error → String
  | unknownItem kind id => s!"unknown {kind} id {id}"
  | duplicateClass name => s!"duplicate class: {name}"
  | duplicateTypeAlias name => s!"duplicate type alias: {name}"
  | malformedContainment detail => s!"malformed containment: {detail}"
  | immutableTypeAliasType name => s!"cannot reassign the type of type alias {name}"
  | invalidType detail => s!"invalid type: {detail}"
  | duplicateOptionKey detail => s!"duplicate option key: {detail}"
  | unknownFileFormat detail => s!"unknown file format: {detail}"
  | invalidAnnotationFilter source => s!"invalid annotation filter: {source}"
  | serialization detail => s!"serialization error: {detail}"
  | io detail => s!"io error: {detail}"

/-- Puts `about` and a colon in front of the text; an unknown id and a failed read stay as they
are. -/
def context (about : String) : Error → Error
  | unknownItem kind id => unknownItem kind id
  | duplicateClass name => duplicateClass s!"{about}: {name}"
  | duplicateTypeAlias name => duplicateTypeAlias s!"{about}: {name}"
  | malformedContainment detail => malformedContainment s!"{about}: {detail}"
  | immutableTypeAliasType name => immutableTypeAliasType s!"{about}: {name}"
  | invalidType detail => invalidType s!"{about}: {detail}"
  | duplicateOptionKey detail => duplicateOptionKey s!"{about}: {detail}"
  | unknownFileFormat detail => unknownFileFormat s!"{about}: {detail}"
  | invalidAnnotationFilter source => invalidAnnotationFilter s!"{about}: {source}"
  | serialization detail => serialization s!"{about}: {detail}"
  | io detail => io detail

end Error

end ApiSurface
