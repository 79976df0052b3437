import BillOfMaterials.Toml.Value
import BillOfMaterials.Text.Hex

/-!
# TOML scalars

Recognises words, numbers, dates and times, given the characters that spell them. Digits may be
separated by single underscores, and dates have to be on the calendar. Integers are told by their
first characters; one whose further characters are no digits counts as misspelt.
-/
namespace BillOfMaterials.Toml

open Number

/-- Whether each underscore has a digit in front and another behind; `before` tells whether a digit
is in front of the text. -/
def areGrouped (isDigit : Char → Bool) (before : Bool) : List Char → Bool
  | [] => true
  | '_' :: rest => before && rest.head?.any isDigit && areGrouped isDigit false rest
  | c :: rest => areGrouped isDigit (isDigit c) rest

/-- Removes the underscores of a number, each of which separates two digits. -/
def ungrouped? (isDigit : Char → Bool) (text : List Char) : Option (List Char) :=
  if areGrouped isDigit false text then some (text.filter (· != '_')) else none

def isOctalDigit (c : Char) : Bool := '0' ≤ c && c ≤ '7'

def isBinaryDigit (c : Char) : Bool := c == '0' || c == '1'

def isHexDigit (c : Char) : Bool := (Text.Hex.value? c).isSome

/-- The value of digits in a base up to sixteen. -/
def ofBaseDigits (base : Nat) (digits : List Char) : Nat :=
  digits.foldl (fun n d => n * base + (Text.Hex.value? d).getD 0) 0

/-- An integer in a base, given what follows the mark of the base. -/
def baseInteger? (base : Nat) (isDigit : Char → Bool) (text : List Char) : Option Value :=
  if text.all fun c => isDigit c || c == '_' then
    (ungrouped? isHexDigit text).map fun ds =>
      if ds.isEmpty then .misspelt else .integer (ofBaseDigits base ds)
  else none

/-- The sign of a number, negative or not, and what follows it. -/
def splitSign : List Char → Bool × List Char
  | '+' :: rest => (false, rest)
  | '-' :: rest => (true, rest)
  | text => (false, text)

def areDigits (text : List Char) : Bool := !text.isEmpty && text.all Char.isDigit

/-- The number that a sign and digits spell. -/
def signed? (text : List Char) : Option Int :=
  let (negative, unsigned) := splitSign text
  if areDigits unsigned then
    some (if negative then -(ofDigits unsigned : Int) else (ofDigits unsigned : Int))
  else none

/-- A decimal integer. No zero comes first, unless it is the only digit. Behind an underscore other
characters than digits can stand, which make it misspelt. -/
def integer? (text : List Char) : Option Value :=
  let unsigned := (splitSign text).2
  if unsigned.head? = some '0' ∧ unsigned.length ≠ 1 then none
  else (ungrouped? isHexDigit text).map fun spelled =>
    (signed? spelled).elim .misspelt .integer

def isExponentMark (c : Char) : Bool := c == 'e' || c == 'E'

/-- The magnitude of a float without underscores: digits, then a fraction, an exponent or both. -/
def magnitude? (text : List Char) : Option Decimal := do
  let mantissa := text.takeWhile fun c => !isExponentMark c
  let mark := text.dropWhile fun c => !isExponentMark c
  let whole := mantissa.takeWhile (· != '.')
  let point := mantissa.dropWhile (· != '.')
  let fraction := point.drop 1
  if areDigits whole && (point.isEmpty || areDigits fraction) then
    let power ← if mark.isEmpty then some 0 else signed? (mark.drop 1)
    some ⟨ofDigits (whole ++ fraction), power - fraction.length⟩
  else none

/-- Whether a number starts with a zero that is not its only digit in front of the point. -/
def isPadded (unsigned : List Char) : Bool :=
  let whole := unsigned.takeWhile fun c => c.isDigit || c == '_'
  unsigned.head? == some '0' && (whole.filter Char.isDigit).length != 1

def float? (text : List Char) : Option Value :=
  if isPadded (splitSign text).2 then none
  else (ungrouped? Char.isDigit text).bind fun spelled =>
    (magnitude? (splitSign spelled).2).map .float

/-- A number of exactly `count` digits, and what follows it. -/
def fixedDigits? (count : Nat) (text : List Char) : Option (Nat × List Char) :=
  let ds := text.take count
  if ds.length = count ∧ ds.all Char.isDigit then some (ofDigits ds, text.drop count) else none

def isLeapYear (year : Nat) : Bool := year % 4 == 0 && (year % 100 != 0 || year % 400 == 0)

def daysInMonth (year month : Nat) : Nat :=
  if month = 2 then if isLeapYear year then 29 else 28
  else if month = 4 ∨ month = 6 ∨ month = 9 ∨ month = 11 then 30
  else 31

/-- Skips a date; the result is what follows it. -/
def skipDate? (text : List Char) : Option (List Char) := do
  let (year, text) ← fixedDigits? 4 text
  let text ← if text.head? = some '-' then some (text.drop 1) else none
  let (month, text) ← fixedDigits? 2 text
  let text ← if text.head? = some '-' then some (text.drop 1) else none
  let (day, text) ← fixedDigits? 2 text
  if 1 ≤ month ∧ month ≤ 12 ∧ 1 ≤ day ∧ day ≤ daysInMonth year month then some text else none

/-- Skips hours and minutes with the colon between them. -/
def skipClock? (text : List Char) : Option (List Char) := do
  let (hour, text) ← fixedDigits? 2 text
  let text ← if text.head? = some ':' then some (text.drop 1) else none
  let (minute, text) ← fixedDigits? 2 text
  if hour ≤ 23 ∧ minute ≤ 59 then some text else none

/-- Skips a fraction of a second, if there is one. -/
def skipSecondFraction? (text : List Char) : Option (List Char) :=
  match text with
  | '.' :: rest =>
    match rest with
    | c :: _ => if c.isDigit then some (rest.dropWhile Char.isDigit) else none
    | [] => none
  | _ => some text

/-- Skips a time of day. Seconds may be left out, and a leap second is allowed. -/
def skipTime? (text : List Char) : Option (List Char) := do
  let text ← skipClock? text
  match text with
  | ':' :: rest =>
    let (second, rest) ← fixedDigits? 2 rest
    if second ≤ 60 then skipSecondFraction? rest else none
  | _ => some text

/-- Skips an offset from universal time, if there is one. -/
def skipOffset? (text : List Char) : Option (List Char) :=
  match text with
  | 'Z' :: rest | 'z' :: rest => some rest
  | '+' :: rest | '-' :: rest => skipClock? rest
  | _ => some text

def isMoment (text : List Char) : Bool :=
  match skipDate? text with
  | some [] => true
  | some (c :: rest) =>
    (c == 'T' || c == 't' || c == ' ') && ((skipTime? rest).bind skipOffset?) == some []
  | none => skipTime? text == some []

/-- A date or a number in base ten. What follows the first digits tells which it is. -/
def dateOrNumber? (text : List Char) : Option Value :=
  let unsigned := (splitSign text).2
  let rest := unsigned.dropWhile Char.isDigit
  if !unsigned.head?.any Char.isDigit then none
  else if rest.head? = some '-' ∨ rest.head? = some ':' ∨ rest.contains ' ' then
    if isMoment text then some .moment else none
  else if rest.any fun c => c == '.' || isExponentMark c then float? text
  else if rest.isEmpty ∨ rest.head? = some '_' then integer? text
  else none

def isNonFinite (unsigned : List Char) : Bool :=
  unsigned == ['i', 'n', 'f'] || unsigned == ['n', 'a', 'n']

def scalar? (text : List Char) : Option Value :=
  match text with
  | ['t', 'r', 'u', 'e'] => some (.boolean true)
  | ['f', 'a', 'l', 's', 'e'] => some (.boolean false)
  | '0' :: 'x' :: digits => baseInteger? 16 isHexDigit digits
  | '0' :: 'o' :: digits => baseInteger? 8 isOctalDigit digits
  | '0' :: 'b' :: digits => baseInteger? 2 isBinaryDigit digits
  | _ => if isNonFinite (splitSign text).2 then some .nonFinite else dateOrNumber? text

end BillOfMaterials.Toml
