import BillOfMaterials.Json.Text
import BillOfMaterials.Number.Double

/-!
# Values of the wrong shape

A scalar that stands where another shape is wanted is read to its end first, so a fault inside it is
found before the mismatch. Here, unlike in skipped values, a number that no double can hold is
ill-formed.
-/
namespace BillOfMaterials.Json

open Number

def maxSignificand : Nat := Nat.pow 2 64 - 1

/-- The leading digits that fit behind `significand`, and how many digits there are behind them. -/
def absorbDigits (significand : Nat) : List Char → Nat × Nat
  | [] => (significand, 0)
  | d :: rest =>
    let next := significand * 10 + digitValue d
    if next ≤ maxSignificand then absorbDigits next rest else (significand, rest.length + 1)

/-- A number that is kept as an exact significand and a power of ten, either rounded on its own. -/
def decimalFault (d : Decimal) : ReadError := if d.productFits then .mismatched else .illFormed

/-- Behind the exponent mark of a number. -/
def exponentFault (d : Decimal) (text : List Char) : ReadError :=
  let (negative, unsigned) := match text with
    | '+' :: rest => (false, rest)
    | '-' :: rest => (true, rest)
    | _ => (false, text)
  match unsigned with
  | [] => .truncated
  | c :: _ =>
    if c.isDigit then
      let amount : Int := ofDigits (unsigned.takeWhile Char.isDigit)
      decimalFault ⟨d.significand, if negative then d.exponent - amount else d.exponent + amount⟩
    else .illFormed

/-- Behind the point of a number. -/
def fractionFault (d : Decimal) (text : List Char) : ReadError :=
  let digits := text.takeWhile Char.isDigit
  let rest := text.dropWhile Char.isDigit
  if digits.isEmpty then
    if text.isEmpty then .truncated else .illFormed
  else
    let (significand, dropped) := absorbDigits d.significand digits
    let d : Decimal := ⟨significand, d.exponent - (digits.length - dropped : Nat)⟩
    match rest with
    | 'e' :: rest | 'E' :: rest => exponentFault d rest
    | _ => decimalFault d

/-- What is wrong with a number, its minus sign aside, where no number is wanted. -/
def numberFault (text : List Char) : ReadError :=
  match text with
  | [] => .truncated
  | c :: next =>
    if !c.isDigit then .illFormed
    else if c = '0' ∧ (next.head?.any Char.isDigit) then .illFormed
    else
      let (significand, dropped) := absorbDigits 0 (text.takeWhile Char.isDigit)
      let d : Decimal := ⟨significand, dropped⟩
      match text.dropWhile Char.isDigit with
      | '.' :: rest => fractionFault d rest
      | 'e' :: rest | 'E' :: rest => exponentFault d rest
      | _ => decimalFault d

/-- What is wrong with a word that has to be spelled out. -/
def wordFault : List Char → List Char → ReadError
  | [], _ => .mismatched
  | _ :: _, [] => .truncated
  | d :: word, c :: rest => if c = d then wordFault word rest else .illFormed

/-- What is wrong with the value at the front of a text if its shape is not the one wanted. -/
def valueFault : List Char → ReadError
  | [] => .truncated
  | 'n' :: rest => wordFault ['u', 'l', 'l'] rest
  | 't' :: rest => wordFault ['r', 'u', 'e'] rest
  | 'f' :: rest => wordFault ['a', 'l', 's', 'e'] rest
  | '-' :: rest => numberFault rest
  | '"' :: rest =>
    match readBody [] rest with
    | .error e => e
    | .ok _ => .mismatched
  | '[' :: _ | '{' :: _ => .mismatched
  | c :: rest => if c.isDigit then numberFault (c :: rest) else .illFormed

end BillOfMaterials.Json
