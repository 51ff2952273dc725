import ChipEight.Pattern.Tree
import ChipEight.Text.Blank

/-!
# Going through a pattern

A `Cursor` stands at a character of a pattern, or at its end. If the pattern may be `spaced`, blanks
and comments can be passed over; a comment goes from `#` to the end of the line.
-/

namespace ChipEight.Pattern

/-- What is left of a pattern, and where. -/
structure Cursor where
  rest : List Char
  place : Place := {}
  /-- Whether blanks and comments are passed over. -/
  spaced : Bool := false
  deriving DecidableEq

/-- The refusal of a stretch of a pattern. -/
def refuse {α : Type} (m : Mistake) (start stop : Place) : Except Finding α :=
  .error ⟨m, ⟨start, stop⟩, none⟩

namespace Cursor

/-- Whether the end of the pattern is reached. -/
def atEnd (c : Cursor) : Bool := c.rest.isEmpty

/-- The character at the cursor. -/
def here (c : Cursor) : Option Char := c.rest.head?

/-- The character after the one at the cursor. -/
def ahead (c : Cursor) : Option Char := c.rest.tail.head?

/-- The stretch of the character at the cursor. -/
def charSpan (c : Cursor) : Span :=
  ⟨c.place, match c.here with
    | some ch => c.place.past ch
    | none => c.place⟩

/-- The place after the character at the cursor. -/
def pastHere (c : Cursor) : Place := c.charSpan.stop

/-- The cursor after one more character. -/
def bump (c : Cursor) : Cursor := { c with rest := c.rest.tail, place := c.pastHere }

/-- The cursor after `n` more characters. -/
def bumps (c : Cursor) (n : Nat) : Cursor := Nat.repeat bump n c

/-- The cursor after a text, if the text stands there. -/
def after? (c : Cursor) (text : String) : Option Cursor :=
  if text.toList.isPrefixOf c.rest then some (c.bumps text.length) else none

/-- The rest of a pattern after blanks and comments, and its place. -/
def skip (comment : Bool) : List Char → Place → List Char × Place
  | [], p => ([], p)
  | ch :: cs, p =>
    if comment then skip (ch != '\n') cs (p.past ch)
    else if Text.isBlank ch then skip false cs (p.past ch)
    else if ch = '#' then skip true cs (p.past ch)
    else (ch :: cs, p)

/-- The cursor after blanks and comments, if these are passed over. -/
def pass (c : Cursor) : Cursor :=
  if c.spaced then
    let (rest, place) := skip false c.rest c.place
    { c with rest, place }
  else c

/-- The cursor after one more character and what is passed over then. -/
def next (c : Cursor) : Cursor := c.bump.pass

/-- The cursor after blanks, whether the pattern is spaced or not. -/
def passBlanks (c : Cursor) : Cursor :=
  c.bumps (c.rest.takeWhile Text.isBlank).length

/-- The character that follows once blanks are passed over. Of a comment only the sign is passed
over; if nothing follows, it is the character ahead. -/
def aheadPast (c : Cursor) : Option Char :=
  if c.spaced then
    let follows := match c.rest.tail.dropWhile Text.isBlank with
      | '#' :: more => (more.dropWhile Text.isBlank).head?
      | more => more.head?
    follows <|> c.ahead
  else c.ahead

/-- Up to `n` characters with a property, and the cursor after them and what is passed over. -/
def gather (keep : Char → Bool) : Nat → Cursor → List Char × Cursor
  | 0, c => ([], c)
  | n + 1, c =>
    match c.here with
    | some ch =>
      if keep ch then
        let (chs, c) := gather keep n c.next
        (ch :: chs, c)
      else ([], c)
    | none => ([], c)

/-- All the characters with a property that follow; there are at most as many as are left. -/
def gatherAll (keep : Char → Bool) (c : Cursor) : List Char × Cursor :=
  gather keep c.rest.length c

end Cursor

end ChipEight.Pattern
