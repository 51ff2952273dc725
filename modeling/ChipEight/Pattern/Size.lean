import ChipEight.Pattern.Bytes
import ChipEight.Pattern.Expr

/-!
# The size of a pattern

Patterns are limited in size. The size of an expression is that of a machine that reads the bytes of
a text one by one and has no counters, so that repetitions are written out: so many bytes for each
state, and for each of its further ways on. Two machines are measured: one reads forward and notes
where groups begin and end, the other reads backward. `Expr.size` gives the size of either.
-/

namespace ChipEight

/-- Which way a machine reads. -/
inductive Direction where
  | forward
  | backward
  deriving DecidableEq

namespace Expr

/-- The size of a state. -/
def stateSize : Nat := 32

/-- The size of a way on of a state that goes on by bytes. -/
def rangeSize : Nat := 8

/-- The size of a way on of a state that goes on without reading. -/
def forkSize : Nat := 4

/-- The size of a state that goes on by several ranges of bytes. -/
def branchSize (ranges : Nat) : Nat := stateSize + rangeSize * ranges

/-- The rests of the sequences that begin with each first element, in the order of these. -/
def tails {α : Type} [DecidableEq α] (seqs : List (List α)) : List (α × List (List α)) :=
  (seqs.filterMap List.head?).eraseDups.map fun a =>
    (a, seqs.filterMap fun s => if s.head? = some a then some s.tail else none)

/-- The states of a machine that reads one of some sequences, each given by what is left to read;
`n` bounds the lengths. -/
def states : Nat → List CharSet.ByteRanges → List (List CharSet.ByteRanges)
  | 0, _ => []
  | n + 1, seqs =>
    if seqs.all List.isEmpty then []
    else seqs :: (tails seqs).flatMap fun t => states n t.2

/-- The size of a set. The machine that reads forward shares states from which the same is left to
read; the one that reads backward shares the states of common starts. -/
def setSize (s : CharSet) : Direction → Nat
  | .forward =>
    if s.isAscii then stateSize + branchSize s.ranges.length
    else
      let all := (states 4 s.byteRanges).eraseDups
      stateSize + (all.map fun seqs => branchSize (tails seqs).length).foldl (· + ·) 0
  | .backward =>
    if s.isAscii then stateSize + branchSize s.ranges.length
    else
      let seqs := s.byteRanges
      let starts := (seqs.flatMap fun q => (List.range q.length).map fun k => q.take (k + 1)).eraseDups
      2 * stateSize + stateSize * starts.length + forkSize * seqs.length

/-- Texts without those that are empty, in runs between which there was an empty one. -/
def runs : List (List UInt8) → List (List (List UInt8))
  | [] => [[]]
  | [] :: ts => [] :: runs ts
  | t :: ts =>
    match runs ts with
    | r :: rs => (t :: r) :: rs
    | [] => [[t]]

/-- Texts of which at most one is empty before one that is not. -/
def trimmed (ts : List (List UInt8)) : List (List UInt8) :=
  if (ts.head?.any List.isEmpty) then [] :: ts.dropWhile List.isEmpty else ts

/-- The size of a choice between texts that shares what they begin with, unless one of them ends
there in between; `n` bounds their lengths. -/
def textsSize : Nat → List (List UInt8) → Nat
  | 0, _ => 0
  | n + 1, ts =>
    if ts.all List.isEmpty then 0
    else
      let runs := (runs (trimmed ts)).map tails
      let ends := runs.length - 1
      let states := (runs.filter fun run => !run.isEmpty).map fun run =>
        if run.length = 1 then stateSize else branchSize run.length
      stateSize + forkSize * (states.length + ends) + states.sum
        + (runs.flatten.map fun t => textsSize n t.2).sum

/-- The bytes of a text, in the order in which they are read. -/
def bytesOf (text : List Char) : Direction → List UInt8
  | .forward => text.flatMap String.utf8EncodeChar
  | .backward => (text.flatMap String.utf8EncodeChar).reverse

/-- The size of a repetition of something of size `m`, which matches the empty stretch if it is
`nullable`. -/
def timesSize (m : Nat) (nullable : Bool) (least : Nat) (most : Option Nat) : Nat :=
  let loop := stateSize + 2 * forkSize
  match most with
  | some most =>
    if least = most then most * m
    else if least = 0 ∧ most = 1 then loop + m + stateSize
    else (if least = 0 then stateSize else least * m) + stateSize + (most - least) * (loop + m)
  | none =>
    if least = 0 then if nullable then 2 * loop + stateSize + m else loop + m
    else least * m + loop

/-- What is needed to measure a choice between alternatives; an expression that is no choice is one
alternative. -/
structure Measure where
  /-- The number of alternatives. -/
  count : Nat := 1
  /-- The sizes of the alternatives together. -/
  sum : Nat
  /-- The alternatives, if all of them are texts. -/
  texts : Option (List (List UInt8)) := none

/-- The size of a choice. -/
def Measure.size (m : Measure) : Nat :=
  if m.count = 1 then m.sum
  else
    match m.texts with
    | some ts => stateSize + textsSize ((ts.map List.length).foldl max 0 + 1) ts
    | none => m.sum + 2 * stateSize + forkSize * m.count

/-- Measures an expression. -/
def measure (d : Direction) : Expr → Measure
  | empty | look _ => { sum := stateSize }
  | literal text =>
    let bytes := bytesOf text d
    { sum := stateSize * bytes.length, texts := some [bytes] }
  | set s _ => { sum := setSize s d }
  | times e least most _ =>
    { sum := timesSize (e.measure d).size (e.minLength.all (· == 0)) least most }
  | capture e =>
    let m := (e.measure d).size
    { sum := match d with
        | .forward => m + 2 * stateSize
        | .backward => m }
  | seq a b => { sum := (a.measure d).size + (b.measure d).size }
  | alt a b =>
    let x := a.measure d
    let y := b.measure d
    { count := y.count + 1
      sum := x.size + y.sum
      texts := do return (← x.texts) ++ (← y.texts) }

/-- Whether every match begins at the start of the text. -/
def atStart : Expr → Bool
  | look l => l == .textStart
  | times e least _ _ => decide (0 < least) && e.atStart
  | capture e => e.atStart
  | seq a b => a.atStart || (a.maxLength == some 0 && b.atStart)
  | alt a b => a.atStart && b.atStart
  | _ => false

/-- Whether every match ends at the end of the text. -/
def atEnd : Expr → Bool
  | look l => l == .textEnd
  | times e least _ _ => decide (0 < least) && e.atEnd
  | capture e => e.atEnd
  | seq a b => b.atEnd || (b.maxLength == some 0 && a.atEnd)
  | alt a b => a.atEnd && b.atEnd
  | _ => false

/-- The size of what goes before an expression: nothing if matches begin at a fixed place, and else
a loop over all bytes. -/
def leadSize (fixed : Bool) : Nat :=
  if fixed then stateSize else timesSize (stateSize + branchSize 1) false 0 none

/-- The size of the machine for a pattern. -/
def size (e : Expr) (d : Direction) : Nat :=
  let whole := (e.measure d).size + stateSize
  match d with
  | .forward => leadSize e.atStart + whole + 2 * stateSize
  | .backward => leadSize e.atEnd + whole

end Expr

end ChipEight
