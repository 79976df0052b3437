import Mathlib.Data.List.Forall2

/-!
# The grammar of JSON

Which texts are JSON values, which texts spell a given string, and what objects look like, with gaps
of blanks wherever they may stand. The readers are held against this description, which they have no
part in.
-/
namespace BillOfMaterials.Json

def blanks : List Char := [' ', '\t', '\n', '\r']

/-- Any number of blanks. -/
def Gap (text : List Char) : Prop := ∀ c ∈ text, c ∈ blanks

theorem gap_nil : Gap [] := by simp [Gap]

/-- A text and the gaps around it. -/
structure Spaced where
  before : List Char := []
  inner : List Char
  after : List Char := []
  gapBefore : Gap before := by exact gap_nil
  gapAfter : Gap after := by exact gap_nil

def Spaced.text (s : Spaced) : List Char := s.before ++ s.inner ++ s.after

def lowerHex : List Char :=
  ['0', '1', '2', '3', '4', '5', '6', '7', '8', '9', 'a', 'b', 'c', 'd', 'e', 'f']

def upperHex : List Char :=
  ['0', '1', '2', '3', '4', '5', '6', '7', '8', '9', 'A', 'B', 'C', 'D', 'E', 'F']

/-- The digit is that of `n`, in either case. -/
def HexDigit (digit : Char) (n : Nat) : Prop := lowerHex[n]? = some digit ∨ upperHex[n]? = some digit

/-- Four hexadecimal digits and the number they stand for. -/
inductive FourHex : List Char → Nat → Prop
  | mk {a b c d : Char} {x y z w : Nat} (first : HexDigit a x) (second : HexDigit b y)
      (third : HexDigit c z) (fourth : HexDigit d w) :
      FourHex [a, b, c, d] (((x * 16 + y) * 16 + z) * 16 + w)

/-- What stands behind a backslash for which character. -/
def escapes : List (Char × Char) :=
  [('"', '"'), ('\\', '\\'), ('/', '/'), ('b', '\x08'), ('f', '\x0c'), ('n', '\n'), ('r', '\r'),
    ('t', '\t')]

/-- The character stands in a string as it is. -/
def Plain (c : Char) : Prop := ' ' ≤ c ∧ c ≠ '"' ∧ c ≠ '\\'

instance (c : Char) : Decidable (Plain c) := inferInstanceAs (Decidable (_ ∧ _ ∧ _))

/-- The ways to write a character inside a string. One beyond the first 65536 may be written as the
two surrogates that stand for it. -/
inductive Spelling : List Char → Char → Prop
  | plain {c : Char} (h : Plain c) : Spelling [c] c
  | escaped {letter c : Char} (h : (letter, c) ∈ escapes) : Spelling ['\\', letter] c
  | unit {digits : List Char} {c : Char} (h : FourHex digits c.toNat) :
      Spelling ('\\' :: 'u' :: digits) c
  | pair {digits digits' : List Char} {high low : Nat} {c : Char} (h : FourHex digits high)
      (h' : FourHex digits' low) (leading : 0xD800 ≤ high ∧ high ≤ 0xDBFF)
      (trailing : 0xDC00 ≤ low ∧ low ≤ 0xDFFF)
      (point : c.toNat = 0x10000 + (high - 0xD800) * 0x400 + (low - 0xDC00)) :
      Spelling ('\\' :: 'u' :: digits ++ '\\' :: 'u' :: digits') c

/-- The text is a string in quotes, and stands for `s`. -/
def StringText (text : List Char) (s : String) : Prop :=
  ∃ parts, List.Forall₂ Spelling parts s.toList ∧ text = '"' :: parts.flatten ++ ['"']

/-- A part of a string that need not stand for anything: surrogates may be alone. -/
inductive Piece : List Char → Prop
  | plain {c : Char} (h : Plain c) : Piece [c]
  | escaped {letter c : Char} (h : (letter, c) ∈ escapes) : Piece ['\\', letter]
  | unit {digits : List Char} {n : Nat} (h : FourHex digits n) : Piece ('\\' :: 'u' :: digits)

def IsQuoted (text : List Char) : Prop :=
  ∃ pieces : List (List Char), (∀ piece ∈ pieces, Piece piece) ∧
    text = '"' :: pieces.flatten ++ ['"']

def Digits (text : List Char) : Prop := text ≠ [] ∧ ∀ c ∈ text, c.isDigit = true

/-- The digits in front of the point: no zero leads others. -/
def Whole (text : List Char) : Prop := text = ['0'] ∨ Digits text ∧ text.head? ≠ some '0'

def Fraction (text : List Char) : Prop := text = [] ∨ ∃ digits, Digits digits ∧ text = '.' :: digits

def Exponent (text : List Char) : Prop :=
  text = [] ∨ ∃ mark sign digits, mark ∈ ['e', 'E'] ∧ sign ∈ [[], ['+'], ['-']] ∧ Digits digits ∧
    text = mark :: sign ++ digits

def IsNumber (text : List Char) : Prop :=
  ∃ sign whole fraction exponent, sign ∈ [[], ['-']] ∧ Whole whole ∧ Fraction fraction ∧
    Exponent exponent ∧ text = sign ++ whole ++ fraction ++ exponent

def words : List (List Char) := ["null".toList, "true".toList, "false".toList]

/-- Parts between brackets, separated by commas. -/
def bracketed (opening : Char) (gap : List Char) (parts : List (List Char)) (closing : Char) :
    List Char :=
  opening :: gap ++ [','].intercalate parts ++ [closing]

/-- A key and a value with the colon between them. -/
def pairText (key value : Spaced) : List Char := key.text ++ ':' :: value.text

inductive IsValue : List Char → Prop
  | word {text : List Char} (h : text ∈ words) : IsValue text
  | number {text : List Char} (h : IsNumber text) : IsValue text
  | string {text : List Char} (h : IsQuoted text) : IsValue text
  | array {gap : List Char} {items : List Spaced} (h : Gap gap)
      (each : ∀ item ∈ items, IsValue item.inner) :
      IsValue (bracketed '[' gap (items.map Spaced.text) ']')
  | object {gap : List Char} {members : List (Spaced × Spaced)} (h : Gap gap)
      (keys : ∀ m ∈ members, IsQuoted m.1.inner) (values : ∀ m ∈ members, IsValue m.2.inner) :
      IsValue (bracketed '{' gap (members.map fun m => pairText m.1 m.2) '}')

/-- A member of an object, with the text of its value. -/
structure Member where
  key : String
  keyText : Spaced
  value : Spaced
  spelt : StringText keyText.inner key

def Member.text (m : Member) : List Char := pairText m.keyText m.value

/-- An object up to the values of its members, whose texts may be any. -/
structure Object where
  gap : List Char := []
  members : List Member
  isGap : Gap gap := by exact gap_nil

namespace Object

def text (o : Object) : List Char := bracketed '{' o.gap (o.members.map Member.text) '}'

def keys (o : Object) : List String := o.members.map Member.key

end Object
end BillOfMaterials.Json
