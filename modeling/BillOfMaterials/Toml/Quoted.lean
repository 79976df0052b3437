import BillOfMaterials.Toml.Value
import BillOfMaterials.Text.Hex

/-!
# TOML strings

Reads a string behind its opening quotes. Basic strings have escapes and literal strings have none;
either kind may span lines when it opens and closes with three quotes.
-/
namespace BillOfMaterials.Toml

/-- Characters that may stand for themselves in strings and comments: all but control characters,
of which only the tab is allowed. -/
def isText (c : Char) : Bool := c == '\t' || (' ' ≤ c && c != '\x7f')

def isSpace (c : Char) : Bool := c == ' ' || c == '\t'

/-- The character that exactly `count` hexadecimal digits name. -/
def codePoint? (count : Nat) (text : List Char) : Option Char :=
  let ds := text.take count
  let values := ds.filterMap Text.Hex.value?
  let point := values.foldl (fun n v => n * 16 + v) 0
  if values.length = count ∧ point.isValidChar then some (Char.ofNat point) else none

/-- The character an escape stands for, and how many characters spell it behind the backslash. -/
def escape? : List Char → Option (Char × Nat)
  | 'b' :: _ => some ('\x08', 1)
  | 't' :: _ => some ('\t', 1)
  | 'n' :: _ => some ('\n', 1)
  | 'f' :: _ => some ('\x0c', 1)
  | 'r' :: _ => some ('\r', 1)
  | 'e' :: _ => some ('\x1b', 1)
  | '"' :: _ => some ('"', 1)
  | '\\' :: _ => some ('\\', 1)
  | 'x' :: rest => (codePoint? 2 rest).map (·, 3)
  | 'u' :: rest => (codePoint? 4 rest).map (·, 5)
  | 'U' :: rest => (codePoint? 8 rest).map (·, 9)
  | _ => none

def textOf (done : List Char) : String := String.ofList done.reverse

/-- Reads a basic string to its quote; `done` holds what has been read, newest first. -/
def readBasic (done text : List Char) : Option (String × List Char) :=
  match text with
  | [] => none
  | '"' :: rest => some (textOf done, rest)
  | '\\' :: rest =>
    match escape? rest with
    | none => none
    | some (c, count) => readBasic (c :: done) (rest.drop count)
  | c :: rest => if isText c then readBasic (c :: done) rest else none
termination_by text.length
decreasing_by
  · simp only [List.length_drop, List.length_cons]
    omega
  · simp

def readLiteral (done : List Char) : List Char → Option (String × List Char)
  | [] => none
  | '\'' :: rest => some (textOf done, rest)
  | c :: rest => if isText c then readLiteral (c :: done) rest else none

/-- A line break, right behind the opening quotes, is not part of the string. -/
def dropLineBreak : List Char → List Char
  | '\n' :: rest => rest
  | '\r' :: '\n' :: rest => rest
  | text => text

/-- Spaces and line breaks. -/
def dropBlankLines : List Char → List Char
  | ' ' :: rest | '\t' :: rest | '\n' :: rest => dropBlankLines rest
  | '\r' :: '\n' :: rest => dropBlankLines rest
  | text => text

theorem length_dropBlankLines_le (text : List Char) :
    (dropBlankLines text).length ≤ text.length := by
  fun_induction dropBlankLines text with
  | case1 rest ih | case2 rest ih | case3 rest ih | case4 rest ih =>
    simp only [List.length_cons]
    omega
  | case5 text => exact Nat.le_refl _

/-- What follows a backslash that ends its line, with the blanks in front of the next text
dropped. -/
def continuedLine? (text : List Char) : Option (List Char) :=
  match text.dropWhile isSpace with
  | '\n' :: rest => some (dropBlankLines rest)
  | '\r' :: '\n' :: rest => some (dropBlankLines rest)
  | _ => none

theorem length_of_continuedLine? {text rest : List Char} (h : continuedLine? text = some rest) :
    rest.length ≤ text.length := by
  have dropped := (List.dropWhile_sublist (l := text) isSpace).length_le
  unfold continuedLine? at h
  split at h
  · next start =>
    have kept := length_dropBlankLines_le ‹_›
    simp only [start, List.length_cons] at dropped
    cases h
    omega
  · next start =>
    have kept := length_dropBlankLines_le ‹_›
    simp only [start, List.length_cons] at dropped
    cases h
    omega
  · contradiction

/-- The quotes behind three closing ones belong to the string, two at most. -/
def closeMultiline (quote : Char) (done rest : List Char) : String × List Char :=
  let extra := (rest.take 2).takeWhile (· == quote)
  (textOf (extra ++ done), rest.drop extra.length)

/-- Reads a basic string of several lines to its three quotes. -/
def readMultilineBasic (done text : List Char) : Option (String × List Char) :=
  match text with
  | [] => none
  | '"' :: '"' :: '"' :: rest => some (closeMultiline '"' done rest)
  | '\\' :: rest =>
    match _line : continuedLine? rest with
    | some rest' => readMultilineBasic done rest'
    | none =>
      match escape? rest with
      | none => none
      | some (c, count) => readMultilineBasic (c :: done) (rest.drop count)
  | '\r' :: '\n' :: rest => readMultilineBasic ('\n' :: '\r' :: done) rest
  | c :: rest => if c == '\n' || isText c then readMultilineBasic (c :: done) rest else none
termination_by text.length
decreasing_by
  · have shorter := length_of_continuedLine? _line
    simp only [List.length_cons]
    omega
  · simp only [List.length_drop, List.length_cons]
    omega
  · simp only [List.length_cons]
    omega
  · simp

/-- Reads a literal string of several lines to its three quotes. -/
def readMultilineLiteral (done : List Char) : List Char → Option (String × List Char)
  | [] => none
  | '\'' :: '\'' :: '\'' :: rest => some (closeMultiline '\'' done rest)
  | '\r' :: '\n' :: rest => readMultilineLiteral ('\n' :: '\r' :: done) rest
  | c :: rest => if c == '\n' || isText c then readMultilineLiteral (c :: done) rest else none

/-- Reads any string at its opening quotes; `none` also if there are none. -/
def readQuoted : List Char → Option (String × List Char)
  | '"' :: '"' :: '"' :: rest => readMultilineBasic [] (dropLineBreak rest)
  | '"' :: rest => readBasic [] rest
  | '\'' :: '\'' :: '\'' :: rest => readMultilineLiteral [] (dropLineBreak rest)
  | '\'' :: rest => readLiteral [] rest
  | _ => none

end BillOfMaterials.Toml
