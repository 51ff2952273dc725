import ChipEight.Pattern.Look
import ChipEight.Pattern.Mistake

/-!
# Patterns as they are written

A `Tree` keeps what a pattern says in the order in which it says it: the switches that change how
the rest is taken are still in it, and so are the places that a finding has to show. `Tree.tooDeep`
looks for parts that are nested too deep.
-/

namespace ChipEight.Pattern

/-- A switch that changes how the rest of a pattern is taken. -/
inductive Flag where
  /-- The case of letters does not matter. -/
  | caseless
  /-- `^` and `$` ask for lines. -/
  | lines
  /-- `.` takes the end of a line, too. -/
  | dotAll
  /-- Repetitions are greedy if a question mark follows them. -/
  | lazy
  /-- Characters of any kind are meant, and not bytes. -/
  | wide
  /-- A carriage return may end a line. -/
  | crlf
  /-- Blanks and comments are left out. -/
  | spaced
  deriving DecidableEq

namespace Flag

/-- The letter of a flag. -/
def ofLetter? : Char → Option Flag
  | 'i' => some caseless
  | 'm' => some lines
  | 's' => some dotAll
  | 'U' => some lazy
  | 'u' => some wide
  | 'R' => some crlf
  | 'x' => some spaced
  | _ => none

end Flag

/-- Flags that are set or taken back. -/
abbrev Changes := List (Flag × Bool)

/-- What becomes of a flag. -/
def Changes.apply (cs : Changes) (f : Flag) (old : Bool) : Bool := (cs.lookup f).getD old

/-- A character of a pattern that stands for itself. -/
structure Letter where
  char : Char
  /-- Whether it was written as a byte, with two hexadecimal digits. -/
  byte : Bool := false
  span : Span
  deriving DecidableEq

/-- What an anchor or an escape may ask of a place. -/
inductive Anchor where
  | lineStart
  | lineEnd
  | textStart
  | textEnd
  | word (edge : WordEdge)
  deriving DecidableEq

/-- What is not made of other parts. -/
inductive Atom where
  | letter (l : Letter)
  | dot (span : Span)
  | anchor (span : Span) (a : Anchor)
  /-- An escape that stands for a class, such as that of the digits, or for all other characters. -/
  | shorthand (span : Span) (kind : AsciiClass) (negated : Bool)
  /-- The characters with a property. -/
  | property (span : Span) (name : String)
  deriving DecidableEq

/-- The stretch of a pattern that an atom takes. -/
def Atom.span : Atom → Span
  | letter l => l.span
  | dot s | anchor s _ | shorthand s .. | property s _ => s

/-- An operation on two sets. -/
inductive SetOp where
  | inter
  | diff
  | symmDiff
  deriving DecidableEq

/-- The set that an operation makes of two. -/
def SetOp.apply : SetOp → CharSet → CharSet → CharSet
  | inter => .inter
  | diff => .diff
  | symmDiff => .symmDiff

/-- A set as it is written between brackets. -/
inductive SetTree where
  | nothing
  | letter (l : Letter)
  | range (first last : Letter)
  | named (span : Span) (kind : AsciiClass) (negated : Bool)
  | shorthand (span : Span) (kind : AsciiClass) (negated : Bool)
  | property (span : Span) (name : String)
  | bracketed (span : Span) (negated : Bool) (s : SetTree)
  | union (s t : SetTree)
  | combined (op : SetOp) (s t : SetTree) (sSpan tSpan : Span)
  /-- A part that counts as one level of nesting. -/
  | nested (span : Span) (s : SetTree)
  deriving DecidableEq

/-- A pattern as it is written. -/
inductive Tree where
  | empty
  | flags (changes : Changes)
  | atom (a : Atom)
  | set (span : Span) (negated : Bool) (s : SetTree)
  /-- A part with the counts of its repetitions; `lazy` tells whether a question mark follows. -/
  | times (t : Tree) (least : Nat) (most : Option Nat) (lazy : Bool)
  /-- A part in parentheses; `capture` tells whether it makes a group. -/
  | group (capture : Bool) (changes : Changes) (t : Tree)
  | seq (a b : Tree)
  | alt (a b : Tree)
  /-- A part that counts as one level of nesting. -/
  | nested (span : Span) (t : Tree)
  deriving DecidableEq

/-- Whether a set lists nothing at all. -/
def SetTree.listsNothing : SetTree → Bool
  | nothing => true
  | union s t | combined _ s t _ _ => s.listsNothing && t.listsNothing
  | bracketed _ _ s | nested _ s => s.listsNothing
  | _ => false

/-- The first part of a set that is nested too deep; `room` levels are left. -/
def SetTree.tooDeep : SetTree → Nat → Option Span
  | nested span _, 0 => some span
  | nested _ s, room + 1 => s.tooDeep room
  | bracketed _ _ s, room => s.tooDeep room
  | union s t, room | combined _ s t _ _, room => s.tooDeep room <|> t.tooDeep room
  | _, _ => none

/-- The first part of a pattern that is nested too deep; `room` levels are left. -/
def Tree.tooDeep : Tree → Nat → Option Span
  | nested span _, 0 => some span
  | nested _ t, room + 1 => t.tooDeep room
  | set _ _ s, room => s.tooDeep room
  | times t _ _ _, room | group _ _ t, room => t.tooDeep room
  | seq a b, room | alt a b, room => a.tooDeep room <|> b.tooDeep room
  | _, _ => none

end ChipEight.Pattern
