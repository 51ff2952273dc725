import ChipEight.Pattern.CharSet

/-!
# Sets of characters as sequences of bytes

In UTF-8 a character is a sequence of up to four bytes. `CharSet.byteRanges` writes a set as
sequences of ranges of bytes, such that a character is in the set if its bytes are in the ranges of
one of them, place by place.
-/

namespace ChipEight.CharSet

/-- A sequence of ranges of bytes. -/
abbrev ByteRanges := List (UInt8 × UInt8)

/-- The last number before a place between `first` and `last` where a range of characters has to be
cut in two: where the number of bytes changes, and where the bytes after the first do not run
through all their values. -/
def cut? (first last : Nat) : Option Nat :=
  let lengths := [0x7F, 0x7FF, 0xFFFF].find? fun p => first ≤ p && p < last
  if lengths.isSome ∨ last < 128 then lengths
  else
    [64, 64 * 64, 64 * 64 * 64].findSome? fun m =>
      if first / m = last / m then none
      else if first % m ≠ 0 then some (first / m * m + (m - 1))
      else if last % m ≠ m - 1 then some (last / m * m - 1)
      else none

/-- The sequences of a range of numbers that all stand for characters, cut at most `n` times deep. -/
def sequences : Nat → Nat → Nat → List ByteRanges
  | 0, _, _ => []
  | n + 1, first, last =>
    match cut? first last with
    | some p => sequences n first p ++ sequences n (p + 1) last
    | none =>
      [(String.utf8EncodeChar (Char.ofNat first)).zip (String.utf8EncodeChar (Char.ofNat last))]

/-- The part of a range that lies between two numbers. -/
def clip (first last : Nat) (r : Nat × Nat) : Option (Nat × Nat) :=
  let r := (max first r.1, min last r.2)
  if r.1 ≤ r.2 then some r else none

/-- The sequences of a set, in ascending order. No range is cut more than twelve times deep: three
times for the number of bytes, and at either end for each of the other bytes. -/
def byteRanges (s : CharSet) : List ByteRanges :=
  let valid := s.ranges.flatMap fun r =>
    (clip 0 0xD7FF r).toList ++ (clip 0xE000 0x10FFFF r).toList
  valid.flatMap fun r => sequences 16 r.1 r.2

end ChipEight.CharSet
