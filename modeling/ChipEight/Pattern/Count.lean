import ChipEight.Pattern.Cursor

/-!
# Counts

How often a part of a pattern is repeated may be given in braces: `{3}`, `{3,}` or `{3,5}`.
`Counts.read` reads that, with the question mark that may follow.
-/

namespace ChipEight.Pattern

/-- How often something is repeated. -/
structure Counts where
  least : Nat
  /-- `none` is any number. -/
  most : Option Nat
  /-- Whether a question mark follows. -/
  lazy : Bool := false
  deriving DecidableEq

namespace Counts

/-- Reads a decimal number with blanks around it. What follows it is known even if it is none. -/
def readDecimal (c : Cursor) : Except Finding Nat × Cursor :=
  let d := c.passBlanks
  let (digits, e) := d.gatherAll Char.isDigit
  let n := digits.foldl (fun n ch => 10 * n + (ch.toNat - '0'.toNat)) 0
  (if digits.isEmpty then refuse .countMissing d.place e.place
    else if n < UInt32.size then .ok n
    else refuse .countTooLarge d.place e.place,
    e.passBlanks)

/-- Whether counts are in order. -/
def ordered (k : Counts) : Bool := k.most.all fun most => decide (k.least ≤ most)

/-- Reads the counts between braces; the cursor stands at the first brace, which is at `start`, and
goes to the second. -/
def readNumbers (start : Place) (c : Cursor) : Except Finding (Counts × Cursor) := do
  let (least, d) := readDecimal c
  if d.atEnd then refuse .countUnclosed start d.place
  else if d.here = some ',' then
    let e := d.next
    if e.atEnd then refuse .countUnclosed start e.place
    else if e.here = some '\x7d' then return ({ least := ← least, most := none }, e)
    else
      let least ← least
      let (most, f) := readDecimal e
      return ({ least, most := some (← most) }, f)
  else
    let least ← least
    return ({ least, most := some least }, d)

/-- Takes notice of a question mark at the cursor. -/
def readLazy (k : Counts) (c : Cursor) : Counts × Cursor :=
  if c.here = some '?' then ({ k with lazy := true }, c.bump) else (k, c)

/-- Reads counts; the cursor stands at the opening brace. -/
def read (c : Cursor) : Except Finding (Counts × Cursor) := do
  let d := c.next
  if d.atEnd then refuse .countUnclosed c.place d.place
  else
    let (counts, e) ← readNumbers c.place d
    if e.here ≠ some '\x7d' then refuse .countUnclosed c.place e.place
    else
      let (counts, g) := counts.readLazy e.next
      if counts.ordered then return (counts, g)
      else refuse .countsReversed c.place g.place

end Counts

end ChipEight.Pattern
