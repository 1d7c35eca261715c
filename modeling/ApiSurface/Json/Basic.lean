/-!
JSON values as they are read, and the compact text of JSON values as they are written.

Reading keeps the fields of an object in order, repeated ones included, so that the reader of a
record can refuse a field that comes twice.
-/

namespace ApiSurface

/-- A JSON value. A text is `none` when one of its escapes names no character. The value of a number
is never asked for. -/
inductive Json where
  | null
  | bool (b : Bool)
  | number
  | text (t : Option String)
  | list (items : List Json)
  | object (fields : List (Option String × Json))

namespace Json

/-- The hexadecimal digit for a number below 16. -/
def hexDigit (n : Nat) : Char :=
  if n < 10 then Char.ofNat (48 + n) else Char.ofNat (87 + n)

/-- The form of one character in a written text. -/
def writtenChar (c : Char) : List Char :=
  match c with
  | '"' => ['\\', '"']
  | '\\' => ['\\', '\\']
  | '\x08' => ['\\', 'b']
  | '\t' => ['\\', 't']
  | '\n' => ['\\', 'n']
  | '\x0c' => ['\\', 'f']
  | '\r' => ['\\', 'r']
  | c =>
    if c.toNat < 0x20 then
      ['\\', 'u', '0', '0', hexDigit (c.toNat / 16), hexDigit (c.toNat % 16)]
    else [c]

/-- The written form of a text. -/
def writeText (s : String) : String :=
  String.ofList ('"' :: s.toList.flatMap writtenChar ++ ['"'])

/-- The written form of a truth value. -/
def writeBool (b : Bool) : String :=
  if b then "true" else "false"

/-- The written form of a list of written values. -/
def writeList (items : List String) : String :=
  "[" ++ ",".intercalate items ++ "]"

/-- The written form of an object with written values. -/
def writeObject (fields : List (String × String)) : String :=
  "\x7b" ++ ",".intercalate (fields.map fun f => writeText f.1 ++ ":" ++ f.2) ++ "\x7d"

end Json

end ApiSurface
