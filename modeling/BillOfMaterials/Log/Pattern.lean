import BillOfMaterials.Text.CharacterClass
import BillOfMaterials.Text.Hex

/-!
# Patterns for field values

Tells which texts are regular expressions. Only their form counts, and only that of texts without a
closing brace: no counted repetition and no name in braces is ever complete. Cases of letters, word
boundaries and the classes `\d`, `\s` and `\w` are known for ASCII only and are refused while
Unicode is on. While it is off, what could match a part of a character is refused. Patterns nest to
a fixed height: that of their tree, in which only nodes with parts below them count.
-/
namespace BillOfMaterials.Log.Pattern

/-- The flags in force that decide what is well formed. -/
structure Mode where
  caseless : Bool := false
  unicode : Bool := true
  /-- Blanks and comments between the parts of a pattern are skipped. -/
  spaced : Bool := false

namespace Mode

def set (m : Mode) (flag : Char) (value : Bool) : Mode :=
  if flag = 'i' then { m with caseless := value }
  else if flag = 'u' then { m with unicode := value }
  else if flag = 'x' then { m with spaced := value }
  else m

/-- A character cannot be compared regardless of case while Unicode is on. -/
def allowsCharacters (m : Mode) : Bool := !(m.caseless && m.unicode)

end Mode

/-- Skips blanks, and comments to the end of their lines; `inComment` tells that one has begun. -/
def skipBlanks (inComment : Bool) : List Char → List Char
  | [] => []
  | c :: rest =>
    if inComment then skipBlanks (c != '\n') rest
    else if Text.isBlank c then skipBlanks false rest
    else if c = '#' then skipBlanks true rest
    else c :: rest

def Mode.skip (m : Mode) (text : List Char) : List Char :=
  if m.spaced then skipBlanks false text else text

/-- The character that tells whether a hyphen in front of it makes a range. The mark of a comment is
passed over, but not the comment. -/
def Mode.ahead? (m : Mode) (text : List Char) : Option Char :=
  if m.spaced then
    match text.dropWhile Text.isBlank with
    | '#' :: rest => (rest.dropWhile Text.isBlank).head?
    | rest => rest.head?
  else text.head?

/-- The height of a sequence, a choice or a union of parts with the given heights. A single part
needs no node of its own. -/
def joinHeights : List Nat → Nat
  | [] => 0
  | [height] => height
  | heights => heights.foldl max 0 + 1

def maxHeight : Nat := 250

def isAscii (c : Char) : Bool := c.toNat < 128

/-! ## Escapes -/

/-- What a backslash and the characters behind it stand for. -/
inductive Escape where
  | character (c : Char)
  /-- Without Unicode, two digits that tell no ASCII character name a byte. -/
  | octet
  | category (negated : Bool)
  | textEnd
  | wordBoundary

def control? : Char → Option Char
  | 'a' => some '\x07'
  | 'f' => some '\x0c'
  | 't' => some '\t'
  | 'n' => some '\n'
  | 'r' => some '\r'
  | 'v' => some '\x0b'
  | _ => none

/-- Reads a number of `count` hexadecimal digits; `high` is the value of those in front. -/
def readHex (m : Mode) (high : Nat) : (count : Nat) → List Char → Option (Nat × List Char)
  | 0, text => some (high, text)
  | count + 1, text =>
    match m.skip text with
    | [] => none
    | c :: rest => (Text.Hex.value? c).bind fun v => readHex m (high * 16 + v) count rest

def readCodePoint (m : Mode) (count : Nat) (text : List Char) : Option (Escape × List Char) := do
  let (point, rest) ← readHex m 0 count text
  if !m.unicode && count == 2 && 128 ≤ point then some (.octet, rest)
  else if point.isValidChar then some (.character (Char.ofNat point), rest)
  else none

/-- Reads an escape behind its backslash. No group is referred to, and no property known. -/
def readEscape (m : Mode) : List Char → Option (Escape × List Char)
  | [] => none
  | 'x' :: rest => readCodePoint m 2 rest
  | 'u' :: rest => readCodePoint m 4 rest
  | 'U' :: rest => readCodePoint m 8 rest
  | 'd' :: rest | 's' :: rest | 'w' :: rest => some (.category false, rest)
  | 'D' :: rest | 'S' :: rest | 'W' :: rest => some (.category true, rest)
  | 'A' :: rest | 'z' :: rest => some (.textEnd, rest)
  | 'b' :: rest | 'B' :: rest | '<' :: rest | '>' :: rest => some (.wordBoundary, rest)
  | c :: rest =>
    match control? c with
    | some control => some (.character control, rest)
    | none => if isAscii c && !c.isAlphanum then some (.character c, rest) else none

/-- Whether an escape can stand outside of brackets. -/
def Mode.allows (m : Mode) : Escape → Bool
  | .character _ => m.allowsCharacters
  | .octet => false
  | .category negated => !m.unicode && !negated
  | .textEnd => true
  | .wordBoundary => !m.unicode

/-! ## Bracketed classes -/

/-- The names that classes have between colons. -/
def classNames : List String :=
  ["alnum", "alpha", "ascii", "blank", "cntrl", "digit", "graph", "lower", "print", "punct",
    "space", "upper", "word", "xdigit"]

/-- Reads a named class behind its bracket: whether it is negated, and what follows it. -/
def readNamedClass (text : List Char) : Option (Bool × List Char) :=
  match text with
  | ':' :: rest =>
    let negated := rest.head? == some '^'
    let body := if negated then rest.drop 1 else rest
    match body.dropWhile (· != ':') with
    | ':' :: ']' :: after =>
      if classNames.contains (String.ofList (body.takeWhile (· != ':'))) then
        some (negated, after)
      else none
    | _ => none
  | _ => none

/-- Reads a character or an escape. -/
def readUnit (m : Mode) : List Char → Option (Escape × List Char)
  | [] => none
  | '\\' :: rest => readEscape m rest
  | c :: rest => some (.character c, rest)

/-- Whether an escape can be an item of a class. -/
def Mode.allowsInClass (m : Mode) : Escape → Bool
  | .character c => m.allowsCharacters && (m.unicode || isAscii c)
  | .category negated => !m.unicode && !negated
  | _ => false

/-- Whether a class with a name can be an item of a class. -/
def Mode.allowsNamed (m : Mode) (negated : Bool) : Bool :=
  m.allowsCharacters && (m.unicode || !negated)

/-- Reads an item of a class: a single one, or a range whose ends are characters in order. -/
def readClassItem (m : Mode) (text : List Char) : Option (List Char) := do
  let (first, rest) ← readUnit m text
  if !m.allowsInClass first then none
  else match m.skip rest with
    | '-' :: more =>
      if m.ahead? more = some ']' ∨ m.ahead? more = some '-' then some ('-' :: more)
      else
        let (last, rest) ← readUnit m (m.skip more)
        match first, last with
        | .character a, .character b => if a ≤ b && m.allowsInClass last then some rest else none
        | _, _ => none
    | rest => some rest

/-- What has been read of a class that is open. -/
structure ClassReading where
  /-- Nothing but hyphens has been read, which stand for themselves. -/
  opening : Bool := true
  /-- The height of what a doubled sign joins to the items behind it. -/
  joined : Option Nat := none
  /-- The heights of the items, the last first. -/
  items : List Nat := []

namespace ClassReading

def height (r : ClassReading) : Nat :=
  let union := joinHeights r.items
  r.joined.elim union fun left => max left union + 1

def push (r : ClassReading) (height : Nat) : ClassReading :=
  { r with opening := false, items := height :: r.items }

/-- Reads a doubled sign, which joins all that is in front to what follows. -/
def join (r : ClassReading) : ClassReading := ⟨false, some r.height, []⟩

end ClassReading

/-- Reads the start of a class behind its bracket. -/
def openClass (m : Mode) (text : List Char) : Option (List Char) :=
  match m.skip text with
  | '^' :: rest => if m.unicode then some rest else none
  | rest => some rest

/-- Reads the innermost class that is open to the bracket that closes the outermost, and tells the
height of that. A bracket that comes first closes nothing. -/
def readClass (m : Mode) (r : ClassReading) (outer : List ClassReading) :
    (fuel : Nat) → List Char → Option (Nat × List Char)
  | 0, _ => none
  | fuel + 1, text =>
    let character (c : Char) (rest : List Char) (opening : Bool) :=
      if m.allowsInClass (.character c) then
        readClass m { r.push 0 with opening } outer fuel rest
      else none
    match r.opening, m.skip text with
    | true, '-' :: rest => character '-' rest true
    | opening, ']' :: rest =>
      if opening && r.items.isEmpty then character ']' rest false
      else match outer with
        | [] => some (r.height + 1, rest)
        | next :: outer => readClass m (next.push (r.height + 1)) outer fuel rest
    | _, '&' :: '&' :: rest | _, '-' :: '-' :: rest | _, '~' :: '~' :: rest =>
      readClass m r.join outer fuel rest
    | _, '[' :: rest =>
      match readNamedClass rest with
      | some (negated, rest) =>
        if m.allowsNamed negated then readClass m (r.push 0) outer fuel rest else none
      | none => do
        let body ← openClass m rest
        readClass m {} (r :: outer) fuel body
    | _, text => do
      let rest ← readClassItem m text
      readClass m (r.push 0) outer fuel rest

/-! ## Groups -/

/-- What has been read of a group that is open, or of the pattern itself. -/
structure GroupReading where
  /-- The heights of the alternatives in front of the last bar. -/
  alternatives : List Nat := []
  /-- The heights of the parts behind it, the last first. -/
  parts : List Nat := []

namespace GroupReading

def height (r : GroupReading) : Nat := joinHeights (joinHeights r.parts :: r.alternatives)

/-- Reads a bar. -/
def next (r : GroupReading) : GroupReading := ⟨joinHeights r.parts :: r.alternatives, []⟩

def push (r : GroupReading) (height : Nat) : GroupReading :=
  { r with parts := height :: r.parts }

/-- Reads a sign of repetition, which puts a node above the last part. -/
def repeatLast (r : GroupReading) : GroupReading where
  alternatives := r.alternatives
  parts := (r.parts.take 1).map (· + 1) ++ r.parts.drop 1

end GroupReading

/-- What has been read of a pattern. -/
structure Reading where
  mode : Mode := {}
  group : GroupReading := {}
  /-- The groups around the innermost, each with the mode to return to, from the inside out. -/
  enclosing : List (Mode × GroupReading) := []
  names : List String := []
  /-- Something that can be repeated has been read last. -/
  repeatable : Bool := false

namespace Reading

/-- Reads a part of the given height. -/
def push (r : Reading) (height : Nat) : Reading :=
  { r with group := r.group.push height, repeatable := true }

/-- Sets the flags for what follows. They are a part of the sequence that cannot be repeated. -/
def setMode (r : Reading) (mode : Mode) : Reading :=
  { r with mode, group := r.group.push 0, repeatable := false }

/-- Opens a group. -/
def enter (r : Reading) (mode : Mode) : Reading where
  mode
  enclosing := (r.mode, r.group) :: r.enclosing
  names := r.names

/-- Closes the innermost group, if one is open. -/
def leave? (r : Reading) : Option Reading :=
  match r.enclosing with
  | [] => none
  | (mode, group) :: enclosing =>
    some { r with mode, group := group.push (r.group.height + 1), enclosing, repeatable := true }

end Reading

def isNamePart (c : Char) : Bool :=
  Text.isAlphanumeric c || c == '_' || c == '.' || c == '[' || c == ']'

/-- Reads the name of a group behind the angle bracket; no two groups have the same. -/
def readName (r : Reading) (text : List Char) : Option (Reading × List Char) :=
  let spelled := text.takeWhile (· != '>')
  let name := String.ofList spelled
  let begins := spelled.head?.any fun c => Text.isAlphabetic c || c == '_'
  if begins && spelled.all isNamePart && !r.names.contains name then
    match text.dropWhile (· != '>') with
    | [] => none
    | _ :: rest => some ({ r with names := name :: r.names }.enter r.mode, rest)
  else none

/-- The mode that flags lead to; `read` holds those in front. Each occurs once, as does the hyphen
that turns off the flags behind it. -/
def applyFlags (m : Mode) (read : List Char) : List Char → Option Mode
  | [] => if read.head? = some '-' then none else some m
  | c :: rest =>
    if "imsUuRx-".contains c && !read.contains c then
      applyFlags (m.set c !(read.contains '-')) (c :: read) rest
    else none

def endsFlags (c : Char) : Bool := c == ':' || c == ')'

/-- Reads flags behind the question mark: those of a group, or of all that follows. -/
def readFlags (r : Reading) (text : List Char) : Option (Reading × List Char) := do
  let flags := text.takeWhile fun c => !endsFlags c
  let mode ← applyFlags r.mode [] flags
  match text.dropWhile fun c => !endsFlags c with
  | ':' :: rest => some (r.enter mode, rest)
  | ')' :: rest => if flags.isEmpty then none else some (r.setMode mode, rest)
  | _ => none

/-- Reads the start of a group behind its parenthesis. -/
def openGroup (r : Reading) (text : List Char) : Option (Reading × List Char) :=
  match r.mode.skip text with
  | '?' :: 'P' :: '<' :: rest => readName r rest
  | '?' :: '<' :: rest => readName r rest
  | '?' :: rest => readFlags r rest
  | rest => some (r.enter r.mode, rest)

/-! ## Patterns -/

/-- A question mark makes a repetition lazy. -/
def dropLazy : List Char → List Char
  | '?' :: rest => rest
  | text => text

/-- Reads the part of a pattern that begins with `c`. -/
def readPart (r : Reading) (c : Char) (rest : List Char) : Option (Reading × List Char) :=
  match c with
  | '(' => openGroup r rest
  | ')' => r.leave?.map (·, rest)
  | '|' => some ({ r with group := r.group.next, repeatable := false }, rest)
  | '[' => do
    let body ← openClass r.mode rest
    let (height, rest) ← readClass r.mode {} [] (body.length + 1) body
    some (r.push height, rest)
  | '?' | '*' | '+' =>
    if r.repeatable then some ({ r with group := r.group.repeatLast }, dropLazy rest) else none
  | '{' => none
  | '.' => if r.mode.unicode then some (r.push 0, rest) else none
  | '^' | '$' => some (r.push 0, rest)
  | _ => do
    let (escape, rest) ← readUnit r.mode (c :: rest)
    if r.mode.allows escape then some (r.push 0, rest) else none

def readParts (r : Reading) : (fuel : Nat) → List Char → Bool
  | 0, _ => false
  | fuel + 1, text =>
    match r.mode.skip text with
    | [] => r.enclosing.isEmpty && r.group.height ≤ maxHeight
    | c :: rest =>
      match readPart r c rest with
      | none => false
      | some (r, rest) => readParts r fuel rest

end Pattern

/-- Whether a text is a regular expression. -/
def isPattern (text : String) : Bool :=
  Pattern.readParts {} (text.length + 1) text.toList

end BillOfMaterials.Log
