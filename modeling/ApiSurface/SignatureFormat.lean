import ApiSurface.Error
import ApiSurface.Text.Blank

/-!
Versions of the signature file format.

From the second version on, a file starts with a header line that names the version. A file without
such a line is of the first version.
-/

namespace ApiSurface

/-- The versions in increasing order. -/
inductive SignatureFormat where
  | v1
  | v2
  | v3
  | v4
deriving DecidableEq, Repr, Ord, Inhabited

namespace SignatureFormat

def all : List SignatureFormat := [v1, v2, v3, v4]

/-- The newest version. -/
def latest : SignatureFormat := v4

/-- The version that is written unless another one is asked for. -/
def standard : SignatureFormat := v2

def description : SignatureFormat → String
  | v1 => "Doclava signature files"
  | v2 | v3 | v4 => "Metalava signature files"

/-- The version as the header names it. -/
def version? : SignatureFormat → Option String
  | v1 => none
  | v2 => some "2.0"
  | v3 => some "3.0"
  | v4 => some "4.0"

/-- Whether default values are written in the short form. -/
def usesConciseDefaults : SignatureFormat → Bool
  | v4 => true
  | _ => false

/-- Whether nullability marks are written behind types. -/
def usesNullMarks : SignatureFormat → Bool
  | v1 | v2 => false
  | v3 | v4 => true

/-- The start of every header line. -/
def headerStart : String := "// Signature format: "

/-- The header line of a file. -/
def header? (f : SignatureFormat) : Option String :=
  f.version?.map fun version => headerStart ++ version ++ "\n"

/-- The name by which a user asks for the format. -/
def optionName : SignatureFormat → String
  | v1 => "v1"
  | v2 => "v2"
  | v3 => "v3"
  | v4 => "v4"

def isLineEnd (c : Char) : Bool := c == '\r' || c == '\n'

/-- The format of a file with this first line. -/
def ofHeader (line : String) : Except Error SignatureFormat :=
  match headerStart.toList.isPrefixOf? (Text.dropEndWhile isLineEnd line.toList) with
  | none => .ok v1
  | some rest =>
    let version := String.ofList (Text.trim rest)
    match all.find? (·.version? == some version) with
    | some f => .ok f
    | none => .error (.unknownFileFormat s!"header version '{version}'")

/-- The format of this name; blanks around it and the case of ASCII letters do not matter. -/
def ofName (text : String) : Except Error SignatureFormat :=
  let name := String.ofList ((Text.trim text.toList).map Char.toLower)
  match all.find? (·.optionName == name) with
  | some f => .ok f
  | none => .error (.unknownFileFormat text)

end SignatureFormat

end ApiSurface
