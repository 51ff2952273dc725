import ChipEight.Pattern.Expr

/-!
# Looking for a match

A matcher need not say where a match begins or how it was found, so `Expr.reach` works on sets of
places: from the places where a match may begin it goes to the places where one may end.
`Expr.occursIn` says whether some stretch of a text matches.
-/

namespace ChipEight.Expr

/-- The places in a text, as the bits of a number, at which something holds of the characters before
and after; the lowest bit stands for the place at the start. -/
def marks (holds : Option Char → Option Char → Bool) : Option Char → List Char → Nat
  | before, [] => (holds before none).toNat
  | before, c :: cs => 2 * marks holds (some c) cs + (holds before (some c)).toNat

/-- The places after a character with some property, when it follows one of `places`. -/
def past (text : List Char) (holds : Char → Bool) (places : Nat) : Nat :=
  (places &&& marks (fun _ after => after.any holds) none text) <<< 1

/-- What `n` steps make of a set of places. Once a step changes nothing no further step does, and the
rest are left out. -/
def settle (step : Nat → Nat) : Nat → Nat → Nat
  | 0, places => places
  | n + 1, places =>
    let after := step places
    if after = places then places else settle step n after

/-- The places where a match may end that begins at one of `places`. A text of `n` characters has no
room for more than `n` stretches that are not empty, so repeating further reaches no other place. -/
def reach (text : List Char) : Expr → Nat → Nat
  | empty, places => places
  | literal cs, places => cs.foldl (fun ps c => past text (· == c) ps) places
  | set s _, places => past text s.contains places
  | look l, places => places &&& marks l.holds none text
  | times e least most _, places =>
    let n := text.length
    let further := match most with
      | none => n
      | some most => min (most - least) n
    settle (fun ps => ps ||| e.reach text ps) further
      (settle (fun ps => e.reach text ps) (min least (n + 1)) places)
  | capture e, places => e.reach text places
  | seq a b, places => b.reach text (a.reach text places)
  | alt a b, places => a.reach text places ||| b.reach text places

/-- Whether some stretch of a text matches. -/
def occursIn (e : Expr) (text : List Char) : Bool :=
  e.reach text ((1 <<< (text.length + 1)) - 1) != 0

end ChipEight.Expr
