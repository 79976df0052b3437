/-!
# Limits of doubles

Which natural and decimal numbers fit into a double-precision number.
-/
namespace BillOfMaterials.Number

/-- The double nearest to a natural number that is not too big for one; a tie goes to the even
significand of 53 bits. -/
def nearestDouble (n : Nat) : Nat :=
  let unit := Nat.pow 2 (n.log2 + 1 - 53)
  let low := n / unit
  let rest := n % unit
  (if 2 * rest > unit || (2 * rest == unit && low % 2 == 1) then low + 1 else low) * unit

/-- From here on a number is rounded beyond the greatest double. -/
def overflowBound : Nat := Nat.pow 2 1024 - Nat.pow 2 970

/-- A nonnegative decimal number: `significand * 10 ^ exponent`. -/
structure Decimal where
  significand : Nat
  exponent : Int
  deriving DecidableEq

def digitValue (c : Char) : Nat := c.toNat - 48

/-- The value of decimal digits. -/
def ofDigits (digits : List Char) : Nat := digits.foldl (fun n d => n * 10 + digitValue d) 0

/-- The number of digits of a natural number. -/
def digitCount (n : Nat) : Nat := (Nat.toDigits 10 n).length

/-- The number itself is below the bound. Numbers of extreme magnitude are told by their digit
count, without computing the power of ten. -/
def Decimal.fits (d : Decimal) : Bool :=
  let magnitude : Int := digitCount d.significand + d.exponent
  if d.significand = 0 ∨ magnitude < 300 then true
  else if magnitude > 310 then false
  else if d.exponent ≥ 0 then d.significand * Nat.pow 10 d.exponent.toNat < overflowBound
  else d.significand < overflowBound * Nat.pow 10 (-d.exponent).toNat

/-- The product of the doubles nearest to the significand and to the power of ten is below the
bound. -/
def Decimal.productFits (d : Decimal) : Bool :=
  d.significand = 0 || d.exponent < 0 ||
    (d.exponent ≤ 308 &&
      nearestDouble d.significand * nearestDouble (Nat.pow 10 d.exponent.toNat) < overflowBound)

end BillOfMaterials.Number
