import ApiSurface.Annotations.Filter
import ApiSurface.Element.Basic

/-!
Diagnostic texts of elements, codebases and filters.
-/

namespace ApiSurface

/-- A record with its fields. -/
def describeRecord (name : String) (fields : List (String × String)) : String :=
  name ++ " \x7b " ++ ", ".intercalate (fields.map fun f => f.1 ++ ": " ++ f.2) ++ " \x7d"

def describeBool (b : Bool) : String := if b then "true" else "false"

def describeOption : Option String → String
  | some text => "Some(" ++ text ++ ")"
  | none => "None"

def Codebase.describe (cb : Codebase) : String :=
  describeRecord "Codebase"
    [("description", Text.quoted cb.settings.description),
      ("from_classpath", describeBool cb.settings.fromClasspath),
      ("packages", toString cb.tables.packages.size),
      ("classes", toString cb.tables.classes.size),
      ("members", toString cb.tables.members.size),
      ("type_aliases", toString cb.tables.aliases.size)]

def ClassRef.describe (c : ClassRef) : String :=
  "ClassItem(" ++ Text.quoted c.name ++ ")"

def MemberRef.describe (m : MemberRef) : String :=
  describeRecord "MemberItem"
    [("key", m.key.describe), ("containing_class", m.container.describe),
      ("inherited_from", describeOption (m.inheritedFrom.map ClassRef.describe))]

def Element.describe : Element → String
  | package p => "PackageItem(" ++ Text.quoted p.name ++ ")"
  | cls c => c.describe
  | typeAlias a => "TypeAliasItem(" ++ Text.quoted a.name ++ ")"
  | member m => m.describe
  | parameter p =>
    describeRecord "ParameterItem"
      [("member", p.member.describe), ("index", toString p.index)]

def Attribute.describe (a : Attribute) : String :=
  describeRecord "AnnotationAttribute"
    [("name", Text.quoted a.name), ("value", Text.quoted a.value)]

def Filter.describe (f : Filter) : String :=
  describeRecord "AnnotationFilter"
    [("qualified_name", Text.quoted f.name),
      ("attributes", "[" ++ ", ".intercalate (f.attributes.map Attribute.describe) ++ "]")]

end ApiSurface
