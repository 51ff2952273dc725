/-!
# Hexadecimal text

Numbers in messages and in the log are written in upper-case hexadecimal, padded with zeros to a
least number of digits. `Hex.digits` and `Hex.padded` are those texts.
-/

namespace ChipEight.Hex

/-- The upper-case digits of `n` in base sixteen, at least one. -/
def digits (n : Nat) : List Char := (Nat.toDigits 16 n).map Char.toUpper

/-- The digits of `n` with zeros in front up to `width` digits. -/
def pad (width n : Nat) : List Char :=
  List.replicate (width - (digits n).length) '0' ++ digits n

/-- The text of `n` with at least `width` digits. -/
def padded (width n : Nat) : String := String.ofList (pad width n)

/-- The text of `n` with the mark `0x` and at least `width` digits. -/
def marked (width n : Nat) : String := "0x" ++ padded width n

end ChipEight.Hex
