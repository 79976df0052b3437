import BillOfMaterials.Text.Hex

/-!
# JSON strings

Reads the body of a string after its opening quote, and writes a string so that reading gives it
back. Reading stops at the first fault from the left.
-/
namespace BillOfMaterials.Json

/-- Why a text is refused: it breaks the grammar, a value has the wrong shape, or it ends early. -/
inductive ReadError where
  | illFormed
  | mismatched
  | truncated
  deriving DecidableEq

abbrev Parsed (α : Type) := Except ReadError (α × List Char)

def isBlank (c : Char) : Bool := c == ' ' || c == '\n' || c == '\t' || c == '\r'

def skipBlank (text : List Char) : List Char := text.dropWhile isBlank

/-- The character that a letter stands for behind a backslash. -/
def letterEscape? : Char → Option Char
  | '"' => some '"'
  | '\\' => some '\\'
  | '/' => some '/'
  | 'b' => some '\x08'
  | 'f' => some '\x0c'
  | 'n' => some '\n'
  | 'r' => some '\r'
  | 't' => some '\t'
  | _ => none

/-- Four hexadecimal digits. A text that ends within four bytes is truncated, whatever it holds. -/
def readUnit : List Char → Parsed Nat
  | a :: b :: c :: d :: rest =>
    match Text.Hex.value? a, Text.Hex.value? b, Text.Hex.value? c, Text.Hex.value? d with
    | some a, some b, some c, some d => .ok (((a * 16 + b) * 16 + c) * 16 + d, rest)
    | _, _, _, _ => .error .illFormed
  | short =>
    if (String.ofList short).utf8ByteSize < 4 then .error .truncated else .error .illFormed

def isLeading (unit : Nat) : Bool := 0xD800 ≤ unit && unit ≤ 0xDBFF

def isTrailing (unit : Nat) : Bool := 0xDC00 ≤ unit && unit ≤ 0xDFFF

/-- Reads the rest of an escape whose `\u` gave a leading surrogate. -/
def readTrailing (leading : Nat) : List Char → Parsed Char
  | [] | ['\\'] => .error .truncated
  | '\\' :: 'u' :: rest =>
    match readUnit rest with
    | .error e => .error e
    | .ok (unit, rest) =>
      if isTrailing unit then
        .ok (Char.ofNat (0x10000 + (leading - 0xD800) * 0x400 + (unit - 0xDC00)), rest)
      else .error .illFormed
  | _ => .error .illFormed

/-- Reads an escape after its backslash. Surrogates come in pairs. -/
def readEscape : List Char → Parsed Char
  | [] => .error .truncated
  | 'u' :: rest =>
    match readUnit rest with
    | .error e => .error e
    | .ok (unit, rest) =>
      if isTrailing unit then .error .illFormed
      else if isLeading unit then readTrailing unit rest
      else .ok (Char.ofNat unit, rest)
  | c :: rest =>
    match letterEscape? c with
    | some d => .ok (d, rest)
    | none => .error .illFormed

theorem length_of_readUnit {text rest : List Char} {unit : Nat}
    (h : readUnit text = .ok (unit, rest)) : rest.length < text.length := by
  unfold readUnit at h
  split at h
  · split at h
    · simp only [Except.ok.injEq, Prod.mk.injEq] at h
      simp only [← h.2, List.length_cons]
      omega
    · contradiction
  · split at h <;> contradiction

theorem length_of_readTrailing {text rest : List Char} {leading : Nat} {c : Char}
    (h : readTrailing leading text = .ok (c, rest)) : rest.length < text.length := by
  unfold readTrailing at h
  split at h
  · contradiction
  · contradiction
  · split at h
    · contradiction
    next read =>
      have shorter := length_of_readUnit read
      split at h
      · simp only [Except.ok.injEq, Prod.mk.injEq] at h
        simp only [← h.2, List.length_cons]
        omega
      · contradiction
  · contradiction

theorem length_of_readEscape {text rest : List Char} {c : Char}
    (h : readEscape text = .ok (c, rest)) : rest.length < text.length := by
  unfold readEscape at h
  split at h
  · contradiction
  · split at h
    · contradiction
    next read =>
      have shorter := length_of_readUnit read
      simp only [List.length_cons]
      split at h
      · contradiction
      · split at h
        · have shorter' := length_of_readTrailing h
          omega
        · simp only [Except.ok.injEq, Prod.mk.injEq] at h
          rw [← h.2]
          omega
  · split at h
    · simp only [Except.ok.injEq, Prod.mk.injEq] at h
      simp [← h.2]
    · contradiction

/-- Reads the body of a string and its closing quote; `done` holds the characters before, newest
first. Control characters have to be escaped. -/
def readBody (done : List Char) (text : List Char) : Parsed String :=
  match text with
  | [] => .error .truncated
  | '"' :: rest => .ok (String.ofList done.reverse, rest)
  | '\\' :: rest =>
    match _read : readEscape rest with
    | .error e => .error e
    | .ok (c, rest') => readBody (c :: done) rest'
  | c :: rest => if c < ' ' then .error .illFormed else readBody (c :: done) rest
termination_by text.length
decreasing_by
  · have shorter := length_of_readEscape _read
    simp only [List.length_cons]
    omega
  · simp

/-- How a character is written inside a string. -/
def escape (c : Char) : List Char :=
  match c with
  | '"' => ['\\', '"']
  | '\\' => ['\\', '\\']
  | '\x08' => ['\\', 'b']
  | '\x0c' => ['\\', 'f']
  | '\n' => ['\\', 'n']
  | '\r' => ['\\', 'r']
  | '\t' => ['\\', 't']
  | c =>
    if c < ' ' then
      ['\\', 'u', '0', '0', Text.Hex.digit (c.toNat / 16), Text.Hex.digit (c.toNat % 16)]
    else [c]

def writeString (s : String) : List Char := '"' :: s.toList.flatMap escape ++ ['"']

end BillOfMaterials.Json
