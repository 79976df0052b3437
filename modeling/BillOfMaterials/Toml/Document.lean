import BillOfMaterials.Toml.Expression

/-!
# TOML documents

A document is a sequence of lines, each an assignment, a header, or nothing but a comment.
Assignments go to the table of the last header.
-/
namespace BillOfMaterials.Toml

inductive Line where
  | pair (path : List String) (key : String) (value : Value)
  | tableHeader (path : List String) (key : String)
  | arrayHeader (path : List String) (key : String)

/-- The root table as far as it is built, and the path of the last header. -/
structure Document where
  root : Entries
  current : List String

namespace Document

def empty : Document := ⟨[], []⟩

/-- Applies an edit to the root table. -/
def editRoot (d : Document) (current : List String) (edit : TableEdit) : Option Document :=
  (edit .header d.root).map fun (_, root) => ⟨root, current⟩

def add (d : Document) : Line → Option Document
  | .pair path key value => d.editRoot d.current (editAt false (assign path key value) d.current)
  | .tableHeader path key => d.editRoot (path ++ [key]) (openTable path key)
  | .arrayHeader path key => d.editRoot (path ++ [key]) (openArrayItem path key)

end Document

/-- Reads a header behind its first bracket. -/
def readHeader (text : List Char) : Option (Line × List Char) :=
  match text with
  | '[' :: rest => do
    let ((path, key), rest) ← readKey rest
    match rest with
    | ']' :: ']' :: rest => some (.arrayHeader path key, rest)
    | _ => none
  | _ => do
    let ((path, key), rest) ← readKey text
    match rest with
    | ']' :: rest => some (.tableHeader path key, rest)
    | _ => none

def readLine (text : List Char) : Option (Line × List Char) :=
  match text with
  | '[' :: rest => readHeader rest
  | _ => (readPair skipSpaces readValue text).map fun (((path, key), value), rest) =>
    (.pair path key value, rest)

/-- Skips what may follow on a line: spaces, a comment and the line break. -/
def finishLine (text : List Char) : Option (List Char) :=
  let rest := match skipSpaces text with
    | '#' :: comment => comment.dropWhile isText
    | rest => rest
  match rest with
  | [] => some []
  | '\n' :: rest => some rest
  | '\r' :: '\n' :: rest => some rest
  | _ => none

/-- Reads the lines of a document, of which there are at most `fuel`. -/
def readLines (d : Document) : (fuel : Nat) → List Char → Option Document
  | 0, _ => none
  | fuel + 1, text =>
    match skipTrivia text with
    | [] => some d
    | start => do
      let (line, rest) ← readLine start
      let d ← d.add line
      let rest ← finishLine rest
      readLines d fuel rest

/-- A byte order mark in front is not part of the document. -/
def dropByteOrderMark : List Char → List Char
  | c :: rest => if c = '\ufeff' then rest else c :: rest
  | [] => []

/-- The entries of the root table, if the text is a document. -/
def parse (text : String) : Option Entries :=
  let text := dropByteOrderMark text.toList
  (readLines .empty (text.length + 1) text).map Document.root

end BillOfMaterials.Toml
