/-!
# UTF-8 text

Bytes are read one character or one maximal invalid part at a time: an invalid part is the
longest run of bytes that begins some character but cannot be completed, or else a single byte.
`decode?` accepts only valid text; `decodeLossy` shows each invalid part as U+FFFD.
-/
namespace BillOfMaterials.Text.Utf8

/-- A character begun but not finished: how many bytes it still needs, the least and the greatest
value of the next byte, and the bits of the code point read so far. -/
structure Partial where
  owed : Nat
  low : UInt8
  high : UInt8
  bits : Nat

/-- What a byte means between two characters. -/
inductive Lead where
  | complete (c : Char)
  | opening (rest : Partial)
  | invalid

/-- The narrowed ranges after `E0`, `ED`, `F0` and `F4` exclude overlong forms, surrogates and code
points above U+10FFFF. -/
def lead (b : UInt8) : Lead :=
  if b < 0x80 then .complete (Char.ofNat b.toNat)
  else if 0xC2 ≤ b ∧ b ≤ 0xDF then .opening ⟨1, 0x80, 0xBF, b.toNat % 32⟩
  else if b = 0xE0 then .opening ⟨2, 0xA0, 0xBF, 0⟩
  else if b = 0xED then .opening ⟨2, 0x80, 0x9F, 13⟩
  else if 0xE1 ≤ b ∧ b ≤ 0xEF then .opening ⟨2, 0x80, 0xBF, b.toNat % 16⟩
  else if b = 0xF0 then .opening ⟨3, 0x90, 0xBF, 0⟩
  else if b = 0xF4 then .opening ⟨3, 0x80, 0x8F, 4⟩
  else if 0xF1 ≤ b ∧ b ≤ 0xF3 then .opening ⟨3, 0x80, 0xBF, b.toNat % 8⟩
  else .invalid

/-- The pieces read so far, newest first, with `none` for an invalid part, and the open
character. -/
structure Reader where
  pieces : List (Option Char)
  pending : Option Partial

namespace Reader

def empty : Reader := ⟨[], none⟩

/-- Reads a byte between two characters. -/
def start (pieces : List (Option Char)) (b : UInt8) : Reader :=
  match lead b with
  | .complete c => ⟨some c :: pieces, none⟩
  | .opening p => ⟨pieces, some p⟩
  | .invalid => ⟨none :: pieces, none⟩

/-- A byte that cannot continue the open character closes it as invalid and is read afresh. -/
def push (r : Reader) (b : UInt8) : Reader :=
  match r.pending with
  | none => start r.pieces b
  | some p =>
    if p.low ≤ b ∧ b ≤ p.high then
      let bits := p.bits * 64 + b.toNat % 64
      if p.owed ≤ 1 then ⟨some (Char.ofNat bits) :: r.pieces, none⟩
      else ⟨r.pieces, some ⟨p.owed - 1, 0x80, 0xBF, bits⟩⟩
    else start (none :: r.pieces) b

/-- All pieces in order; a character still open at the end is invalid. -/
def finish (r : Reader) : List (Option Char) :=
  match r.pending with
  | none => r.pieces.reverse
  | some _ => (none :: r.pieces).reverse

end Reader

def pieces (bytes : List UInt8) : List (Option Char) :=
  (bytes.foldl Reader.push Reader.empty).finish

def replacement : Char := Char.ofNat 0xFFFD

/-- The text with every maximal invalid part shown as U+FFFD. -/
def decodeLossy (bytes : List UInt8) : String :=
  String.ofList ((pieces bytes).map (Option.getD · replacement))

/-- The text, if the bytes are valid UTF-8. -/
def decode? (bytes : List UInt8) : Option String :=
  let read := pieces bytes
  if read.all Option.isSome then some (String.ofList (read.filterMap id)) else none

def encode (text : String) : List UInt8 := text.toList.flatMap String.utf8EncodeChar

end BillOfMaterials.Text.Utf8
