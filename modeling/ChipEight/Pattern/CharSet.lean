/-!
# Sets of characters

A `CharSet` is a list of ranges of character numbers, in ascending order and with gaps between them,
so that a set has one form only. `CharSet.contains` says what is in it. `AsciiClass` names the sets
that have a name.
-/

namespace ChipEight

/-- A set of characters, as the ranges of their numbers. -/
structure CharSet where
  ranges : List (Nat × Nat)
  deriving DecidableEq

namespace CharSet

/-- Whether a character is in a set. -/
def contains (s : CharSet) (c : Char) : Bool :=
  s.ranges.any fun (first, last) => first ≤ c.toNat && c.toNat ≤ last

/-- Adds a range to ranges that begin no earlier, and joins those that leave no gap. -/
def join (r : Nat × Nat) : List (Nat × Nat) → List (Nat × Nat)
  | [] => [r]
  | t :: ts => if t.1 ≤ r.2 + 1 then join (r.1, max r.2 t.2) ts else r :: t :: ts

/-- The set of the characters in some ranges. -/
def ofRanges (rs : List (Nat × Nat)) : CharSet :=
  ⟨(rs.mergeSort fun r t => r.1 ≤ t.1).foldr join []⟩

/-- The empty set. -/
def nothing : CharSet := ⟨[]⟩

/-- The characters from one to another. -/
def range (first last : Char) : CharSet := ⟨[(first.toNat, last.toNat)]⟩

/-- The set of a single character. -/
def single (c : Char) : CharSet := range c c

/-- What is in one of two sets. -/
def union (s t : CharSet) : CharSet := ofRanges (s.ranges ++ t.ranges)

/-- What is in both of two sets. -/
def inter (s t : CharSet) : CharSet :=
  ⟨s.ranges.flatMap fun r => t.ranges.filterMap fun q =>
    let first := max r.1 q.1
    let last := min r.2 q.2
    if first ≤ last then some (first, last) else none⟩

/-- The number of the next character; the numbers from `0xD800` to `0xDFFF` stand for none. -/
def after (n : Nat) : Nat := if n = 0xD7FF then 0xE000 else n + 1

/-- The number of the character before. -/
def before (n : Nat) : Nat := if n = 0xE000 then 0xD7FF else n - 1

/-- The gaps between ranges, from a number on. -/
def gaps (start : Nat) : List (Nat × Nat) → List (Nat × Nat)
  | [] => if start ≤ 0x10FFFF then [(start, 0x10FFFF)] else []
  | r :: rs => if start < r.1 then (start, before r.1) :: gaps (after r.2) rs else gaps (after r.2) rs

/-- What is not in a set. -/
def compl (s : CharSet) : CharSet := ⟨gaps 0 s.ranges⟩

/-- What is in one set but not in another. -/
def diff (s t : CharSet) : CharSet := s.inter t.compl

/-- What is in exactly one of two sets. -/
def symmDiff (s t : CharSet) : CharSet := (s.union t).diff (s.inter t)

/-- The ASCII letters in a set, moved to the other case. -/
def otherCase (s : CharSet) : CharSet :=
  let lower := (s.inter (range 'a' 'z')).ranges.map fun r => (r.1 - 32, r.2 - 32)
  let upper := (s.inter (range 'A' 'Z')).ranges.map fun r => (r.1 + 32, r.2 + 32)
  ofRanges (lower ++ upper)

/-- A set with the other case of each of its ASCII letters. -/
def caseless (s : CharSet) : CharSet := s.union s.otherCase

/-- Whether a set has ASCII characters only. -/
def isAscii (s : CharSet) : Bool := s.ranges.all fun r => decide (r.2 < 128)

/-- The character of a set that has a single one. -/
def char? (s : CharSet) : Option Char :=
  match s.ranges with
  | [(first, last)] => if first = last then some (Char.ofNat first) else none
  | _ => none

end CharSet

/-- The sets of ASCII characters that have a name. -/
inductive AsciiClass where
  | alnum
  | alpha
  | ascii
  | blank
  | cntrl
  | digit
  | graph
  | lower
  | print
  | punct
  | space
  | upper
  | word
  | xdigit
  deriving DecidableEq

namespace AsciiClass

/-- The name of a class. -/
def name : AsciiClass → String
  | alnum => "alnum"
  | alpha => "alpha"
  | ascii => "ascii"
  | blank => "blank"
  | cntrl => "cntrl"
  | digit => "digit"
  | graph => "graph"
  | lower => "lower"
  | print => "print"
  | punct => "punct"
  | space => "space"
  | upper => "upper"
  | word => "word"
  | xdigit => "xdigit"

/-- All classes. -/
def all : List AsciiClass :=
  [alnum, alpha, ascii, blank, cntrl, digit, graph, lower, print, punct, space, upper, word, xdigit]

/-- The class of a name. -/
def ofName? (name : String) : Option AsciiClass := all.find? fun k => k.name == name

/-- The ranges of characters in a class. -/
def ranges : AsciiClass → List (Char × Char)
  | alnum => [('0', '9'), ('A', 'Z'), ('a', 'z')]
  | alpha => [('A', 'Z'), ('a', 'z')]
  | ascii => [('\x00', '\x7f')]
  | blank => [('\t', '\t'), (' ', ' ')]
  | cntrl => [('\x00', '\x1f'), ('\x7f', '\x7f')]
  | digit => [('0', '9')]
  | graph => [('!', '~')]
  | lower => [('a', 'z')]
  | print => [(' ', '~')]
  | punct => [('!', '/'), (':', '@'), ('[', '\x60'), ('\x7b', '~')]
  | space => [('\t', '\r'), (' ', ' ')]
  | upper => [('A', 'Z')]
  | word => [('0', '9'), ('A', 'Z'), ('_', '_'), ('a', 'z')]
  | xdigit => [('0', '9'), ('A', 'F'), ('a', 'f')]

/-- The characters in a class. -/
def toSet (k : AsciiClass) : CharSet := ⟨k.ranges.map fun r => (r.1.toNat, r.2.toNat)⟩

end AsciiClass

end ChipEight
