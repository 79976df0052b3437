import BillOfMaterials.Toml.Quoted
import BillOfMaterials.Toml.Scalar
import BillOfMaterials.Toml.Table

/-!
# TOML keys and values

Reads keys and values at the front of a text. Arrays and tables between braces may span lines, hold
comments and end with a comma, and nest to a fixed depth. Only a dotted key stays on one line.
-/
namespace BillOfMaterials.Toml

/-- Arrays and tables between braces nest at most this deep. -/
def maxDepth : Nat := 80

/-- A dotted key has at most this many parts in front of its last. -/
def maxPath : Nat := 79

def skipSpaces (text : List Char) : List Char := text.dropWhile isSpace

/-- Spaces, line breaks and comments. -/
def skipTrivia (text : List Char) : List Char :=
  match text with
  | ' ' :: rest | '\t' :: rest | '\n' :: rest => skipTrivia rest
  | '\r' :: '\n' :: rest => skipTrivia rest
  | '#' :: rest => skipTrivia (rest.dropWhile isText)
  | _ => text
termination_by text.length
decreasing_by
  all_goals simp only [List.length_cons]
  · omega
  · omega
  · omega
  · omega
  · have := (List.dropWhile_sublist (l := rest) isText).length_le
    omega

def isBareKey (c : Char) : Bool := c.isAlphanum || c == '_' || c == '-'

/-- One part of a key: quoted on a single line, or bare. -/
def readKeyPart (text : List Char) : Option (String × List Char) :=
  match text with
  | '"' :: rest => readBasic [] rest
  | '\'' :: rest => readLiteral [] rest
  | _ =>
    let part := text.takeWhile isBareKey
    if part.isEmpty then none else some (String.ofList part, text.dropWhile isBareKey)

/-- Reads the parts of a key behind those in `path`, newest first, of which there are at most
`fuel`. -/
def readKeyParts (path : List String) :
    (fuel : Nat) → List Char → Option ((List String × String) × List Char)
  | 0, _ => none
  | fuel + 1, text => do
    let (part, rest) ← readKeyPart text
    match skipSpaces rest with
    | '.' :: more => readKeyParts (part :: path) fuel (skipSpaces more)
    | rest => if path.length ≤ maxPath then some ((path.reverse, part), rest) else none

/-- A dotted key: the path in front of its last part, and that part. Spaces around it are
skipped. -/
def readKey (text : List Char) : Option ((List String × String) × List Char) :=
  readKeyParts [] (text.length + 1) (skipSpaces text)

def endsScalar (c : Char) : Bool :=
  c == '\n' || c == '\r' || c == '#' || c == '=' || c == ',' ||
    c == '[' || c == ']' || c == '{' || c == '}'

/-- The characters of a scalar, and what follows it. Blanks are part of it if more of it follows;
`blanks` holds those that have just been read, and `done` what is in front, newest first. -/
def splitScalar (done blanks : List Char) : List Char → List Char × List Char
  | [] => (done.reverse, [])
  | c :: rest =>
    if isSpace c then splitScalar done (c :: blanks) rest
    else if endsScalar c || (!blanks.isEmpty && (c == '"' || c == '\'')) then
      (done.reverse, c :: rest)
    else splitScalar (c :: (blanks ++ done)) [] rest

def readScalar (text : List Char) : Option (Value × List Char) :=
  let (scalar, rest) := splitScalar [] [] text
  (scalar? scalar).map (·, rest)

/-- A value that is not made of others. -/
def readSimple (text : List Char) : Option (Value × List Char) :=
  match text with
  | '"' :: _ | '\'' :: _ => (readQuoted text).map fun (s, rest) => (.string s, rest)
  | _ => readScalar text

/-- Reads the items of an array; `done` holds those read, newest first. -/
def readItems (item : List Char → Option (Value × List Char)) (done : List Value) :
    (fuel : Nat) → List Char → Option (Value × List Char)
  | 0, _ => none
  | fuel + 1, text =>
    match skipTrivia text with
    | ']' :: rest => some (.array false done.reverse, rest)
    | text => do
      let (value, rest) ← item text
      match skipTrivia rest with
      | ',' :: rest => readItems item (value :: done) fuel rest
      | ']' :: rest => some (.array false (value :: done).reverse, rest)
      | _ => none

/-- Reads a key, an equals sign and a value, skipping what may stand between them. -/
def readPair (skip : List Char → List Char) (item : List Char → Option (Value × List Char))
    (text : List Char) : Option (((List String × String) × Value) × List Char) := do
  let (key, rest) ← readKey text
  match skip rest with
  | '=' :: rest =>
    let (value, rest) ← item (skip rest)
    some ((key, value), rest)
  | _ => none

/-- Reads the pairs of a table between braces into its entries. -/
def readPairs (item : List Char → Option (Value × List Char)) (entries : Entries) :
    (fuel : Nat) → List Char → Option (Value × List Char)
  | 0, _ => none
  | fuel + 1, text =>
    match skipTrivia text with
    | '}' :: rest => some (.table .inline entries, rest)
    | text => do
      let ((key, value), rest) ← readPair skipTrivia item text
      let (_, entries) ← assign key.1 key.2 value .inline entries
      match skipTrivia rest with
      | ',' :: rest => readPairs item entries fuel rest
      | '}' :: rest => some (.table .inline entries, rest)
      | _ => none

/-- Reads a value that nests at most `depth` deep. -/
def readValueTo : (depth : Nat) → List Char → Option (Value × List Char)
  | 0, text => readSimple text
  | depth + 1, text =>
    match text with
    | '[' :: rest => readItems (readValueTo depth) [] (rest.length + 1) rest
    | '{' :: rest => readPairs (readValueTo depth) [] (rest.length + 1) rest
    | _ => readSimple text

def readValue (text : List Char) : Option (Value × List Char) := readValueTo maxDepth text

end BillOfMaterials.Toml
