import ApiSurface.Annotations.Filter
import ApiSurface.Json.Reader
import ApiSurface.Json.Record

/-!
The six lists of filters that decide what annotations do to the surface, and the JSON file that
holds them.
-/

namespace ApiSurface

/-- One list for each effect. `α` is `String` for lists as they are written and `Filter` for lists
that have been read. -/
structure FilterLists (α : Type) where
  shown : List α := []
  shownSingly : List α := []
  shownForStubs : List α := []
  hidden : List α := []
  hiddenByMeta : List α := []
  suppressedByMeta : List α := []
deriving DecidableEq, Repr

/-- What is found where a file is expected. -/
inductive FileState where
  | missing
  | directory
  | bytes (content : ByteArray)

/-- The text of a file, or the failure to read one. -/
def FileState.text : FileState → Except Error String
  | .missing => .error (.io "no such file")
  | .directory => .error (.io "is a directory")
  | .bytes content =>
    match String.fromUTF8? content with
    | some s => .ok s
    | none => .error (.io "the content is not valid UTF-8")

namespace FilterLists

/-- The names of the lists in a file, in order. -/
def fieldNames : List String :=
  ["showAnnotations", "showSingleAnnotations", "showForStubPurposesAnnotations",
    "hideAnnotations", "hideMetaAnnotations", "suppressCompatibilityMetaAnnotations"]

/-- The six lists in the order of their names. -/
def toLists {α : Type} (l : FilterLists α) : List (List α) :=
  [l.shown, l.shownSingly, l.shownForStubs, l.hidden, l.hiddenByMeta, l.suppressedByMeta]

/-- All elements of the six lists in order. -/
def all {α : Type} (l : FilterLists α) : List α :=
  l.toLists.flatten

/-- Reads the lists from a JSON value. A list that is missing is empty. -/
def ofValue? (v : Json) : Option (FilterLists String) := do
  let fields ← v.asRecord? fieldNames
  let lists ← fields.mapM (Json.optional? [] (Json.asList? Json.asText?))
  match lists with
  | [shown, shownSingly, shownForStubs, hidden, hiddenByMeta, suppressedByMeta] =>
    some { shown, shownSingly, shownForStubs, hidden, hiddenByMeta, suppressedByMeta }
  | _ => none

/-- Reads the lists from JSON text. -/
def ofJson (content : String) : Except Error (FilterLists String) :=
  match (Json.ofString? content).bind ofValue? with
  | some lists => .ok lists
  | none => .error ((Error.serialization "not a set of filter lists").context "annotation filters")

/-- Reads the lists from a file; what is wrong with its text is reported with its name. -/
def load (name : String) (file : FileState) : Except Error (FilterLists String) := do
  let content ← file.text
  (ofJson content).mapError (Error.context name)

/-- Reads every filter; the first malformed one is reported. -/
def parse (sources : FilterLists String) : Except Error (FilterLists Filter) := do
  let shown ← sources.shown.mapM Filter.parse
  let shownSingly ← sources.shownSingly.mapM Filter.parse
  let shownForStubs ← sources.shownForStubs.mapM Filter.parse
  let hidden ← sources.hidden.mapM Filter.parse
  let hiddenByMeta ← sources.hiddenByMeta.mapM Filter.parse
  let suppressedByMeta ← sources.suppressedByMeta.mapM Filter.parse
  return { shown, shownSingly, shownForStubs, hidden, hiddenByMeta, suppressedByMeta }

end FilterLists

end ApiSurface
