import BillOfMaterials.Json.Text

/-!
# Skipping JSON values

Passes over a value without building it, however deep it nests: a machine with a stack of the
brackets still open. It checks the grammar, except that it lets surrogates stand alone and numbers
be of any size.
-/
namespace BillOfMaterials.Json

inductive Bracket where
  | array
  | object
  deriving DecidableEq

/-- How far a number has come. -/
inductive NumberPart where
  | sign
  | zero
  | digits
  | point
  | fraction
  | exponent
  | exponentSign
  | exponentDigits
  deriving DecidableEq

/-- A number may end here. -/
def NumberPart.complete : NumberPart → Bool
  | .zero | .digits | .fraction | .exponentDigits => true
  | _ => false

/-- What a further character makes of a number, if it belongs to it. -/
def NumberPart.next? (part : NumberPart) (c : Char) : Option NumberPart :=
  match part with
  | .sign => if c = '0' then some .zero else if c.isDigit then some .digits else none
  | .zero => afterDigits c
  | .digits => if c.isDigit then some .digits else afterDigits c
  | .point => if c.isDigit then some .fraction else none
  | .fraction => if c.isDigit then some .fraction else afterFraction c
  | .exponent =>
    if c = '+' ∨ c = '-' then some .exponentSign
    else if c.isDigit then some .exponentDigits else none
  | .exponentSign | .exponentDigits => if c.isDigit then some .exponentDigits else none
where
  /-- Behind the digits of a fraction an exponent may follow. -/
  afterFraction (c : Char) : Option NumberPart :=
    if c = 'e' ∨ c = 'E' then some .exponent else none
  /-- Behind the digits in front a fraction or an exponent may follow. -/
  afterDigits (c : Char) : Option NumberPart :=
    if c = '.' then some .point else afterFraction c

/-- Where the machine stands. `inKey` tells the key of an object from a string value. -/
inductive SkipState where
  | value
  | firstItem
  | firstKey
  | nextKey
  | colon
  | after
  | string (inKey : Bool)
  | escape (inKey : Bool)
  /-- Inside the digits of a `\u` escape, with the bytes still to come and whether all were
  digits. -/
  | unit (inKey : Bool) (bytes : Nat) (digits : Bool)
  | word (rest : List Char)
  | number (part : NumberPart)

/-- What a character leads to: a further state with its stack, or the end of the value, before or
behind the character. -/
inductive SkipStep where
  | to (state : SkipState) (stack : List Bracket)
  | endBefore
  | endBehind
  | fault

/-- The state behind a complete value whose last character has just been read. -/
def SkipStep.closed : List Bracket → SkipStep
  | [] => .endBehind
  | stack => .to .after stack

/-- Reads the first character of a value. -/
def startValue (stack : List Bracket) (c : Char) : SkipStep :=
  if isBlank c then .to .value stack
  else match c with
    | '[' => .to .firstItem (.array :: stack)
    | '{' => .to .firstKey (.object :: stack)
    | '"' => .to (.string false) stack
    | 'n' => .to (.word ['u', 'l', 'l']) stack
    | 't' => .to (.word ['r', 'u', 'e']) stack
    | 'f' => .to (.word ['a', 'l', 's', 'e']) stack
    | '-' => .to (.number .sign) stack
    | '0' => .to (.number .zero) stack
    | c => if c.isDigit then .to (.number .digits) stack else .fault

/-- Reads a character behind a value. -/
def afterValue (stack : List Bracket) (c : Char) : SkipStep :=
  match stack with
  | [] => .endBefore
  | bracket :: outer =>
    if isBlank c then .to .after stack
    else match bracket, c with
      | .array, ',' => .to .value stack
      | .array, ']' => .closed outer
      | .object, ',' => .to .nextKey stack
      | .object, '}' => .closed outer
      | _, _ => .fault

/-- Behind the closing quote of a string. -/
def afterString (inKey : Bool) (stack : List Bracket) : SkipStep :=
  if inKey then .to .colon stack else .closed stack

def SkipState.step (state : SkipState) (stack : List Bracket) (c : Char) : SkipStep :=
  match state with
  | .value => startValue stack c
  | .after => afterValue stack c
  | .firstItem =>
    if isBlank c then .to .firstItem stack
    else if c = ']' then .closed stack.tail
    else startValue stack c
  | .firstKey =>
    if isBlank c then .to .firstKey stack
    else if c = '}' then .closed stack.tail
    else if c = '"' then .to (.string true) stack
    else .fault
  | .nextKey =>
    if isBlank c then .to .nextKey stack
    else if c = '"' then .to (.string true) stack
    else .fault
  | .colon =>
    if isBlank c then .to .colon stack
    else if c = ':' then .to .value stack
    else .fault
  | .string inKey =>
    if c = '"' then afterString inKey stack
    else if c = '\\' then .to (.escape inKey) stack
    else if c < ' ' then .fault
    else .to (.string inKey) stack
  | .escape inKey =>
    if c = 'u' then .to (.unit inKey 4 true) stack
    else if (letterEscape? c).isSome then .to (.string inKey) stack
    else .fault
  | .unit inKey bytes digits =>
    let digits := digits && (Text.Hex.value? c).isSome
    if c.utf8Size < bytes then .to (.unit inKey (bytes - c.utf8Size) digits) stack
    else if digits then .to (.string inKey) stack
    else .fault
  | .word [] => afterValue stack c
  | .word (d :: rest) =>
    if c ≠ d then .fault
    else if rest.isEmpty then .closed stack
    else .to (.word rest) stack
  | .number part =>
    match part.next? c with
    | some part => .to (.number part) stack
    | none =>
      if part.complete && !(part == .zero && c.isDigit) then afterValue stack c else .fault

/-- What the end of the text means: a number on its own may end there, and an unfinished number is
ill-formed rather than truncated. -/
def SkipState.atEnd (state : SkipState) (stack : List Bracket) : Except ReadError (List Char) :=
  match state with
  | .number part =>
    if !part.complete then .error .illFormed
    else if stack.isEmpty then .ok []
    else .error .truncated
  | _ => .error .truncated

/-- Runs the machine; the result is what stands behind the value. -/
def SkipState.run (state : SkipState) (stack : List Bracket) :
    List Char → Except ReadError (List Char)
  | [] => state.atEnd stack
  | c :: rest =>
    match state.step stack c with
    | .to state stack => state.run stack rest
    | .endBefore => .ok (c :: rest)
    | .endBehind => .ok rest
    | .fault => .error .illFormed

/-- What stands behind the first value of a text. -/
def skipValue (text : List Char) : Except ReadError (List Char) := SkipState.value.run [] text

end BillOfMaterials.Json
