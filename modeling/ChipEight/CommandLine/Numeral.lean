/-!
# Numbers on the command line

A number is a non-empty run of decimal digits, leading zeros allowed, with an optional sign in
front. `unsigned` takes a plus sign only; `signed` takes either.
-/

namespace ChipEight.Numeral

/-- The value of `digit` after the digits that made `value`. -/
def extend (value : Nat) (digit : Char) : Option Nat :=
  if digit.isDigit then some (10 * value + (digit.toNat - '0'.toNat)) else none

/-- The value of a non-empty run of digits. -/
def digits : List Char → Option Nat
  | [] => none
  | cs => cs.foldlM extend 0

/-- The value of digits that may follow a plus sign. -/
def unsigned : List Char → Option Nat
  | '+' :: cs => digits cs
  | cs => digits cs

/-- The value of digits that may follow a sign. -/
def signed : List Char → Option Int
  | '-' :: cs => (digits cs).map fun n => -(n : Int)
  | cs => (unsigned cs).map fun n => (n : Int)

/-- A number of 32 bits; minus zero is zero. -/
def word32 (cs : List Char) : Option UInt32 :=
  match signed cs with
  | some n => if 0 ≤ n ∧ n < UInt32.size then some (UInt32.ofNat n.toNat) else none
  | none => none

/-- A number of 64 bits, which takes no minus sign. -/
def word64 (cs : List Char) : Option UInt64 :=
  match unsigned cs with
  | some n => if n < UInt64.size then some (UInt64.ofNat n) else none
  | none => none

end ChipEight.Numeral
