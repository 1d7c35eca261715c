import ApiSurface.Json.Basic

/-!
Reading plain data out of JSON values: texts, truth values, lists, named variants and records.

A record is an object, or a list of its fields in order. Fields that the record does not have are
skipped, a field that it has may come once.
-/

namespace ApiSurface.Json

def asText? : Json → Option String
  | .text t => t
  | _ => none

def asBool? : Json → Option Bool
  | .bool b => some b
  | _ => none

/-- The items of a list, each read by `read`. -/
def asList? {α : Type} (read : Json → Option α) : Json → Option (List α)
  | .list items => items.mapM read
  | _ => none

/-- The name of a variant without data: a text, or an object whose one field is `null`. -/
def asVariant? : Json → Option String
  | .text t => t
  | .object [(key, .null)] => key
  | _ => none

/-- The value of a field that is there at most once. The outer `none` says that it comes twice. -/
def field? (fields : List (Option String × Json)) (name : String) : Option (Option Json) :=
  match fields.filter (·.1 == some name) with
  | [] => some none
  | [(_, v)] => some (some v)
  | _ => none

/-- The values of the named fields, `none` for one that is missing. -/
def asRecord? (names : List String) : Json → Option (List (Option Json))
  | .object fields =>
    if fields.all (·.1.isSome) then names.mapM (field? fields) else none
  | .list items =>
    if items.length ≤ names.length then
      some (items.map some ++ List.replicate (names.length - items.length) none)
    else none
  | _ => none

/-- Reads a field that must be there. -/
def required? {α : Type} (read : Json → Option α) (field : Option Json) : Option α :=
  field.bind read

/-- Reads a field that is `missing` when it is not there. -/
def optional? {α : Type} (missing : α) (read : Json → Option α) : Option Json → Option α
  | none => some missing
  | some v => read v

end ApiSurface.Json
