import ChipEight.Pattern.Cursor

/-!
# Escapes

A backslash takes away the special meaning of a sign, or gives one to a letter. `Atom.readEscape`
reads an escape and tells what it stands for.
-/

namespace ChipEight.Pattern

/-- The value of a hexadecimal digit. -/
def hexValue? (c : Char) : Option Nat :=
  if c.isDigit then some (c.toNat - '0'.toNat)
  else if 'a' ≤ c ∧ c ≤ 'f' then some (c.toNat - 'a'.toNat + 10)
  else if 'A' ≤ c ∧ c ≤ 'F' then some (c.toNat - 'A'.toNat + 10)
  else none

/-- The character whose number is written in hexadecimal digits. -/
def charOfHex? (digits : List Char) : Option Char :=
  let n := digits.foldl (fun n d => 16 * n + (hexValue? d).getD 0) 0
  if n.isValidChar then some (Char.ofNat n) else none

/-- Whether a character is a hexadecimal digit. -/
def isHex (c : Char) : Bool := (hexValue? c).isSome

/-- Reads the number of a character, written in exactly `count` digits. -/
def readHexDigits (start : Place) (count : Nat) (c : Cursor) : Except Finding (Letter × Cursor) :=
  let (digits, d) := c.gather isHex count
  if digits.length = count then
    match charOfHex? digits with
    | some ch => .ok ({ char := ch, byte := count == 2, span := ⟨start, d.place⟩ }, d)
    | none => refuse .hexValue c.place d.place
  else if d.atEnd then refuse .escapeUnclosed d.place d.place
  else refuse .hexDigit d.place d.pastHere

/-- Reads the number of a character, written in braces; the cursor stands at the first. -/
def readHexBraced (start : Place) (c : Cursor) : Except Finding (Letter × Cursor) :=
  let (digits, d) := c.next.gatherAll isHex
  match d.here with
  | none => refuse .escapeUnclosed c.place d.place
  | some '\x7d' =>
    let e := d.next
    if digits.isEmpty then refuse .hexEmpty c.place e.place
    else
      match charOfHex? digits with
      | some ch => .ok ({ char := ch, span := ⟨start, e.place⟩ }, e)
      | none => refuse .hexValue c.pastHere d.place
  | some _ => refuse .hexDigit d.place d.pastHere

/-- Reads the number of a character; the cursor stands at the letter in front of it. -/
def readHex (start : Place) (count : Nat) (c : Cursor) : Except Finding (Letter × Cursor) :=
  let d := c.next
  match d.here with
  | none => refuse .escapeUnclosed d.place d.place
  | some '\x7b' => readHexBraced start d
  | some _ => readHexDigits start count d

/-- Reads the name of a property, a single letter or a text in braces; the cursor stands at the
letter in front of it. -/
def readProperty (start : Place) (c : Cursor) : Except Finding (Atom × Cursor) :=
  let d := c.next
  match d.here with
  | none => refuse .escapeUnclosed d.place d.place
  | some '\x7b' =>
    let (name, e) := d.next.gatherAll (· != '\x7d')
    if e.atEnd then refuse .escapeUnclosed e.place e.place
    else .ok (.property ⟨start, e.pastHere⟩ (String.ofList name), e.bump)
  | some '\\' => refuse .propertyInvalid d.place d.pastHere
  | some ch => .ok (.property ⟨start, d.next.place⟩ (String.singleton ch), d.next)

/-- The edge of a word that has a name. -/
def WordEdge.ofName? : String → Option WordEdge
  | "start" => some .start
  | "end" => some .stop
  | "start-half" => some .startHalf
  | "end-half" => some .stopHalf
  | _ => none

/-- Reads which edge of a word is meant; the cursor stands behind the escape. What follows in braces
is a name if it begins like one, and else it is left to be read as counts. -/
def readEdge (start : Place) (c : Cursor) : Except Finding (WordEdge × Cursor) :=
  let inName (ch : Char) : Bool := ch.isAlpha || ch == '-'
  if c.here = some '\x7b' then
    let d := c.next
    match d.here with
    | none => refuse .boundaryOrCountUnclosed start d.place
    | some ch =>
      if inName ch then
        let (name, e) := d.gatherAll inName
        if e.here = some '\x7d' then
          match WordEdge.ofName? (String.ofList name) with
          | some k => .ok (k, e.bump)
          | none => refuse .boundaryUnknown d.place e.place
        else refuse .boundaryUnclosed c.place e.place
      else .ok (.boundary, c)
  else .ok (.boundary, c)

/-- The control character of a letter. -/
def controlOf? : Char → Option Char
  | 'a' => some '\x07'
  | 'f' => some '\x0c'
  | 't' => some '\t'
  | 'n' => some '\n'
  | 'r' => some '\r'
  | 'v' => some '\x0b'
  | _ => none

/-- The anchor of a letter or sign. -/
def anchorOf? : Char → Option Anchor
  | 'A' => some .textStart
  | 'z' => some .textEnd
  | 'B' => some (.word .noBoundary)
  | '<' => some (.word .start)
  | '>' => some (.word .stop)
  | _ => none

/-- The class of a letter. -/
def shorthandOf? : Char → Option AsciiClass
  | 'd' => some .digit
  | 's' => some .space
  | 'w' => some .word
  | _ => none

/-- Whether a character stands for itself after a backslash. -/
def isSign (c : Char) : Bool := decide (c.toNat < 128) && !c.isAlphanum && c != '<' && c != '>'

/-- Reads an escape; the cursor stands at the backslash. -/
def Atom.readEscape (c : Cursor) : Except Finding (Atom × Cursor) :=
  let start := c.place
  let e := c.bump
  let span : Span := ⟨start, e.pastHere⟩
  let letter (r : Except Finding (Letter × Cursor)) : Except Finding (Atom × Cursor) :=
    r.map fun (l, d) => (.letter l, d)
  match e.here with
  | none => refuse .escapeUnclosed start e.place
  | some 'x' => letter (readHex start 2 e)
  | some 'u' => letter (readHex start 4 e)
  | some 'U' => letter (readHex start 8 e)
  | some 'p' | some 'P' => readProperty start e
  | some 'b' =>
    (readEdge start e.bump).map fun (k, d) => (.anchor ⟨start, d.place⟩ (.word k), d)
  | some ch =>
    if ch.isDigit then refuse .backreference start span.stop
    else if isSign ch then .ok (.letter { char := ch, span }, e.bump)
    else
      match controlOf? ch, anchorOf? ch, shorthandOf? ch.toLower with
      | some control, _, _ => .ok (.letter { char := control, span }, e.bump)
      | _, some a, _ => .ok (.anchor span a, e.bump)
      | _, _, some kind => .ok (.shorthand span kind ch.isUpper, e.bump)
      | _, _, _ => refuse .escapeUnknown start span.stop

end ChipEight.Pattern
