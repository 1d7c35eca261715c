import ApiSurface.Annotations.Showability
import ApiSurface.Element.Declaration
import ApiSurface.Json.Reader
import ApiSurface.Json.Record
import ApiSurface.SignatureFormat

/-!
The JSON forms of plain data: enumerations, attributes, annotations and showability.
-/

namespace ApiSurface

/-- How values of a type are read from JSON and written to it. -/
structure JsonForm (α : Type) where
  read? : Json → Option α
  write : α → String

namespace JsonForm

/-- Reads JSON text. -/
def parse {α : Type} (form : JsonForm α) (content : String) : Except Error α :=
  match (Json.ofString? content).bind form.read? with
  | some v => .ok v
  | none => .error (.serialization "not a value of the expected form")

/-- Reads JSON text and writes what was read. -/
def normalize {α : Type} (form : JsonForm α) (content : String) : Except Error String :=
  form.write <$> form.parse content

/-- An enumeration is written as the name of its value. -/
def ofNames {α : Type} (all : List α) (name : α → String) : JsonForm α where
  read? v := v.asVariant?.bind fun text => all.find? (name · == text)
  write a := Json.writeText (name a)

def nullability : JsonForm Nullability := ofNames Nullability.all Nullability.name

def primitive : JsonForm Primitive := ofNames Primitive.all Primitive.name

def visibility : JsonForm Visibility := ofNames Visibility.all Visibility.name

def origin : JsonForm Origin := ofNames Origin.all Origin.name

def classKind : JsonForm ClassKind := ofNames ClassKind.all ClassKind.name

def memberKind : JsonForm MemberKind := ofNames MemberKind.all MemberKind.name

def nullMark : JsonForm NullMark := ofNames NullMark.all NullMark.name

def signatureFormat : JsonForm SignatureFormat :=
  ofNames SignatureFormat.all SignatureFormat.optionName

def attr : JsonForm Attribute where
  read? v := do
    match ← v.asRecord? ["name", "value"] with
    | [name, value] =>
      some ⟨← Json.required? Json.asText? name, ← Json.required? Json.asText? value⟩
    | _ => none
  write a :=
    Json.writeObject [("name", Json.writeText a.name), ("value", Json.writeText a.value)]

def annotationUse : JsonForm AnnotationUse where
  read? v := do
    match ← v.asRecord? ["qualified_name", "attributes"] with
    | [name, attributes] =>
      some ⟨← Json.required? Json.asText? name,
        ← Json.optional? [] (Json.asList? attr.read?) attributes⟩
    | _ => none
  write a :=
    Json.writeObject
      [("qualified_name", Json.writeText a.name),
        ("attributes", Json.writeList (a.attributes.map attr.write))]

def showability : JsonForm Showability where
  read? v := do
    match ← v.asRecord? ["show", "recursive", "for_stubs_only"] with
    | [shows, recursive, forStubsOnly] =>
      some ⟨← Json.required? Json.asBool? shows, ← Json.required? Json.asBool? recursive,
        ← Json.required? Json.asBool? forStubsOnly⟩
    | _ => none
  write s :=
    Json.writeObject
      [("show", Json.writeBool s.shows), ("recursive", Json.writeBool s.recursive),
        ("for_stubs_only", Json.writeBool s.forStubsOnly)]

end JsonForm

end ApiSurface
