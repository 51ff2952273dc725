import ChipEight.Picture

/-!
# Pictures as half-block text

A character cell is about twice as high as wide, so one character shows two pixels, one above the
other, and a picture takes sixteen lines of 64 characters. `lines` writes that text and `ofLines`
reads it back, where a line that was cut short is dark beyond its end.
-/

namespace ChipEight.Picture

/-- The number of lines a picture takes. -/
abbrev lineCount : Nat := height / 2

/-- The character for an upper and a lower pixel. -/
def halfBlock : Bool → Bool → Char
  | false, false => ' '
  | true, false => '▀'
  | false, true => '▄'
  | true, true => '█'

/-- The upper and the lower pixel that a character shows; any other character shows none. -/
def halves (c : Char) : Bool × Bool :=
  (c == '▀' || c == '█', c == '▄' || c == '█')

theorem halves_halfBlock (upper lower : Bool) : halves (halfBlock upper lower) = (upper, lower) := by
  cases upper <;> cases lower <;> rfl

/-- Line `k` of the text: rows `2 * k` and `2 * k + 1`. -/
def line (p : Picture) (k : Nat) : List Char :=
  (List.range width).map fun x => halfBlock (p.pixel x (2 * k)) (p.pixel x (2 * k + 1))

/-- The text of a picture. -/
def lines (p : Picture) : List (List Char) := (List.range lineCount).map p.line

/-- The row whose pixel in column `x` is `f x`. -/
def rowOf (f : Nat → Bool) : BitVec width :=
  BitVec.ofBoolListBE ((List.range width).map f) |>.setWidth width

/-- The picture that a text shows. -/
def ofLines (text : List (List Char)) : Picture :=
  ofRows fun y => rowOf fun x =>
    let shown := halves ((text.getD (y / 2) []).getD x ' ')
    if y % 2 = 0 then shown.1 else shown.2

/-- A line without the blanks at its end. -/
def trimmed (l : List Char) : List Char := (l.reverse.dropWhile (· == ' ')).reverse

end ChipEight.Picture
