import ChipEight.Pattern.Look

/-!
# Regular expressions

An `Expr` says which stretches of a text match it. Expressions are built with `Expr.append`,
`Expr.alternate`, `Expr.repeated` and `Expr.ofSet`, which keep them simple: texts side by side are one
text, a choice between characters is a set, and what alternatives begin with in common is written
once.
-/

namespace ChipEight

/-- A regular expression. -/
inductive Expr where
  /-- The empty stretch. -/
  | empty
  /-- A text, which is not empty. -/
  | literal (text : List Char)
  /-- A character of a set; `ascii` tells that the set was written as one of bytes. -/
  | set (s : CharSet) (ascii : Bool)
  /-- The empty stretch, at a place that is as asked. -/
  | look (l : Look)
  /-- At least `least` and at most `most` stretches that match `e`. -/
  | times (e : Expr) (least : Nat) (most : Option Nat) (greedy : Bool)
  /-- A group, which matches what `e` does. -/
  | capture (e : Expr)
  | seq (a b : Expr)
  | alt (a b : Expr)
  deriving DecidableEq

namespace Expr

/-- The expression that matches nothing. -/
def fail : Expr := set .nothing true

/-- The characters of a set. -/
def ofSet (s : CharSet) (ascii : Bool) : Expr :=
  if s.ranges.isEmpty then fail
  else
    match s.char? with
    | some c => literal [c]
    | none => set s ascii

/-- The least number of bytes in a stretch that matches; `none` if it is not known. -/
def minLength : Expr → Option Nat
  | empty | look _ => some 0
  | literal text => some (text.map Char.utf8Size).sum
  | set s _ => s.ranges.head?.map fun r => (Char.ofNat r.1).utf8Size
  | times e least _ _ => e.minLength.map fun n => least * n
  | capture e => e.minLength
  | seq a b => do return (← a.minLength) + (← b.minLength)
  | alt a b => do return min (← a.minLength) (← b.minLength)

/-- The greatest number of bytes in a stretch that matches; `none` if there is no greatest or it is
not known. -/
def maxLength : Expr → Option Nat
  | empty | look _ => some 0
  | literal text => some (text.map Char.utf8Size).sum
  | set s _ => s.ranges.getLast?.map fun r => (Char.ofNat r.2).utf8Size
  | times e _ most _ => do return (← most) * (← e.maxLength)
  | capture e => e.maxLength
  | seq a b => do return (← a.maxLength) + (← b.maxLength)
  | alt a b => do return max (← a.maxLength) (← b.maxLength)

/-- An expression followed by another one that is already simple. -/
def append : Expr → Expr → Expr
  | empty, y => y
  | seq a b, y => a.append (b.append y)
  | x, empty => x
  | literal s, literal t => literal (s ++ t)
  | literal s, seq (literal t) y => seq (literal (s ++ t)) y
  | x, y => seq x y

/-- Expressions one after the other. -/
def concat (es : List Expr) : Expr := es.foldr append empty

/-- An expression repeated. What matches only the empty stretch need not be repeated more than
once. -/
def repeated (e : Expr) (least : Nat) (most : Option Nat) (greedy : Bool) : Expr :=
  let once := e.maxLength = some 0
  let least := if once then min least 1 else least
  let most := if once then some (min (most.getD 1) 1) else most
  if most = some 0 then empty
  else if least = 1 ∧ most = some 1 then e
  else times e least most greedy

/-- The parts of an expression that follow each other. -/
def factors : Expr → List Expr
  | seq a b => a :: b.factors
  | e => [e]

/-- The alternatives of an expression. -/
def branches : Expr → List Expr
  | alt a b => a :: b.branches
  | e => [e]

/-- Whether an expression has a group in it. -/
def hasCapture : Expr → Bool
  | capture _ => true
  | times e _ _ _ => e.hasCapture
  | seq a b | alt a b => a.hasCapture || b.hasCapture
  | _ => false

/-- The set of an expression that is a single character. -/
def charSet? : Expr → Option CharSet
  | literal [c] => some (.single c)
  | _ => none

/-- The set of an expression that is a set. -/
def set? : Expr → Option CharSet
  | set s _ => some s
  | _ => none

/-- The set of the alternatives, if all of them are single characters or all are sets. -/
def unionOf (es : List Expr) : Option CharSet :=
  (es.mapM charSet? <|> es.mapM set?).map fun sets => .ofRanges (sets.flatMap CharSet.ranges)

/-- The parts that two sequences begin with in common. Two groups are never the same. -/
def commonStart : List Expr → List Expr → List Expr
  | x :: xs, y :: ys => if x = y ∧ !x.hasCapture then x :: commonStart xs ys else []
  | _, _ => []

/-- The parts that all alternatives begin with in common. -/
def sharedStart : List Expr → List Expr
  | [] => []
  | e :: es => es.foldl (fun start x => commonStart start x.factors) e.factors

/-- Whether an expression is a sequence. -/
def isSeq : Expr → Bool
  | seq .. => true
  | _ => false

/-- Several alternatives as one expression. -/
def choice : List Expr → Expr
  | [] => fail
  | [e] => e
  | e :: es => alt e (choice es)

/-- The number of parts of an expression. -/
def parts : Expr → Nat
  | times e _ _ _ | capture e => e.parts + 1
  | seq a b | alt a b => a.parts + b.parts + 1
  | _ => 1

/-- Alternatives in a simple form. Whenever a common start is taken out, fewer parts are left, so
their number `n` bounds how often that is done. -/
def simplify : Nat → List Expr → Expr
  | 0, es => choice es
  | n + 1, es =>
    match es.flatMap branches with
    | [] => fail
    | [e] => e
    | es =>
      match unionOf es with
      | some s => ofSet s false
      | none =>
        let start := if es.all isSeq then sharedStart es else []
        if start.isEmpty then choice es
        else
          let rest := es.map fun e => concat (e.factors.drop start.length)
          concat (start ++ [simplify n rest])

/-- A choice between expressions. -/
def alternate (es : List Expr) : Expr := simplify ((es.map parts).foldl (· + ·) 0 + 1) es

/-- Whether an expression asks for boundaries of words that are not ASCII. -/
def asksWide : Expr → Bool
  | look (.word _ wide) => wide
  | times e _ _ _ | capture e => e.asksWide
  | seq a b | alt a b => a.asksWide || b.asksWide
  | _ => false

end Expr

end ChipEight
