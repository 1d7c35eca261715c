import ApiSurface.Json.Basic

/-!
Reading JSON text. The grammar is the strict one: no comments, no trailing commas, and only the four
JSON blanks around values.
-/

namespace ApiSurface.Json

/-- The blanks that may stand between the parts of a JSON text. -/
def isSpace (c : Char) : Bool :=
  c == ' ' || c == '\t' || c == '\n' || c == '\r'

def skipSpace (cs : List Char) : List Char :=
  cs.dropWhile isSpace

/-- One element of a text: a character, or a 16-bit unit given by its number. -/
inductive Piece where
  | char (c : Char)
  | unit (n : Nat)

/-- The characters that pieces spell. Two units in a row can name one character; a unit that is half
of such a pair and stands alone names none. -/
def spell : List Piece → Option (List Char)
  | [] => some []
  | .char c :: ps => (spell ps).map (c :: ·)
  | .unit n :: ps =>
    if 0xDC00 ≤ n && n ≤ 0xDFFF then none
    else if 0xD800 ≤ n && n ≤ 0xDBFF then
      match ps with
      | .unit m :: ps =>
        if 0xDC00 ≤ m && m ≤ 0xDFFF then
          (spell ps).map (Char.ofNat (0x10000 + (n - 0xD800) * 0x400 + (m - 0xDC00)) :: ·)
        else none
      | _ => none
    else (spell ps).map (Char.ofNat n :: ·)

def hexValue? (c : Char) : Option Nat :=
  if '0' ≤ c && c ≤ '9' then some (c.toNat - 48)
  else if 'a' ≤ c && c ≤ 'f' then some (c.toNat - 87)
  else if 'A' ≤ c && c ≤ 'F' then some (c.toNat - 55)
  else none

/-- The number that four hexadecimal digits write. -/
def unit? (a b c d : Char) : Option Nat := do
  let a ← hexValue? a
  let b ← hexValue? b
  let c ← hexValue? c
  let d ← hexValue? d
  some (((a * 16 + b) * 16 + c) * 16 + d)

/-- The character that a backslash and this letter stand for. -/
def escape? : Char → Option Char
  | '"' => some '"'
  | '\\' => some '\\'
  | '/' => some '/'
  | 'b' => some '\x08'
  | 'f' => some '\x0c'
  | 'n' => some '\n'
  | 'r' => some '\r'
  | 't' => some '\t'
  | _ => none

/-- The pieces of a text up to its closing quote, and the rest. -/
def scanText : List Char → Option (List Piece × List Char)
  | [] => none
  | '"' :: rest => some ([], rest)
  | '\\' :: 'u' :: a :: b :: c :: d :: rest => do
    let n ← unit? a b c d
    let (pieces, rest) ← scanText rest
    some (.unit n :: pieces, rest)
  | '\\' :: letter :: rest => do
    let c ← escape? letter
    let (pieces, rest) ← scanText rest
    some (.char c :: pieces, rest)
  | c :: rest =>
    if c == '\\' || c.toNat < 0x20 then none
    else do
      let (pieces, rest) ← scanText rest
      some (.char c :: pieces, rest)

/-- The text up to its closing quote, and the rest. -/
def text? (cs : List Char) : Option (Option String × List Char) := do
  let (pieces, rest) ← scanText cs
  some ((spell pieces).map String.ofList, rest)

/-- Skips one digit or more. -/
def digits? : List Char → Option (List Char)
  | c :: rest => if c.isDigit then some (rest.dropWhile Char.isDigit) else none
  | [] => none

/-- Skips an integer without sign; a leading zero stands alone. -/
def integer? : List Char → Option (List Char)
  | '0' :: rest =>
    match rest with
    | c :: _ => if c.isDigit then none else some rest
    | [] => some []
  | cs => digits? cs

def fraction? : List Char → Option (List Char)
  | '.' :: rest => digits? rest
  | cs => some cs

def exponent? : List Char → Option (List Char)
  | c :: rest =>
    if c == 'e' || c == 'E' then
      match rest with
      | '+' :: rest | '-' :: rest => digits? rest
      | _ => digits? rest
    else some (c :: rest)
  | [] => some []

/-- Skips a number. -/
def number? (cs : List Char) : Option (List Char) := do
  let unsigned := match cs with
    | '-' :: rest => rest
    | _ => cs
  exponent? (← fraction? (← integer? unsigned))

mutual

/-- Reads one value, blanks before it included. The fuel bounds the number of nested and following
values. -/
def value? : Nat → List Char → Option (Json × List Char)
  | 0, _ => none
  | fuel + 1, cs =>
    match skipSpace cs with
    | 'n' :: 'u' :: 'l' :: 'l' :: rest => some (.null, rest)
    | 't' :: 'r' :: 'u' :: 'e' :: rest => some (.bool true, rest)
    | 'f' :: 'a' :: 'l' :: 's' :: 'e' :: rest => some (.bool false, rest)
    | '"' :: rest => do
      let (t, rest) ← text? rest
      some (.text t, rest)
    | '[' :: rest =>
      match skipSpace rest with
      | ']' :: rest => some (.list [], rest)
      | _ => do
        let (items, rest) ← items? fuel rest
        some (.list items, rest)
    | '\x7b' :: rest =>
      match skipSpace rest with
      | '\x7d' :: rest => some (.object [], rest)
      | _ => do
        let (fields, rest) ← fields? fuel rest
        some (.object fields, rest)
    | cs => do
      let rest ← number? cs
      some (.number, rest)

/-- Reads the items of a list up to its closing bracket. -/
def items? : Nat → List Char → Option (List Json × List Char)
  | 0, _ => none
  | fuel + 1, cs => do
    let (item, rest) ← value? fuel cs
    match skipSpace rest with
    | ']' :: rest => some ([item], rest)
    | ',' :: rest => do
      let (items, rest) ← items? fuel rest
      some (item :: items, rest)
    | _ => none

/-- Reads the fields of an object up to its closing brace. -/
def fields? : Nat → List Char → Option (List (Option String × Json) × List Char)
  | 0, _ => none
  | fuel + 1, cs =>
    match skipSpace cs with
    | '"' :: rest => do
      let (key, rest) ← text? rest
      match skipSpace rest with
      | ':' :: rest => do
        let (v, rest) ← value? fuel rest
        match skipSpace rest with
        | '\x7d' :: rest => some ([(key, v)], rest)
        | ',' :: rest => do
          let (fields, rest) ← fields? fuel rest
          some ((key, v) :: fields, rest)
        | _ => none
      | _ => none
    | _ => none

end

/-- Reads a text that holds one value and blanks around it. -/
def ofString? (s : String) : Option Json :=
  match value? (2 * s.length + 2) s.toList with
  | some (v, rest) => if (skipSpace rest).isEmpty then some v else none
  | none => none

end ApiSurface.Json
