/-!
# Pictures

A picture is 64 pixels wide and 32 high, each pixel lit or dark. It is kept as 32 rows of 64 bits,
the most significant bit of a row at the left. `pixel` is the view of a picture; `xor` and `inter`
act pixel by pixel (`pixel_xor`, `pixel_inter`), and two pictures with the same pixels are equal
(`ext_pixel`).
-/

namespace ChipEight

/-- The number of pixels in a row. -/
abbrev Picture.width : Nat := 64

/-- The number of rows. -/
abbrev Picture.height : Nat := 32

/-- The pixels of the screen. -/
structure Picture where
  rows : Vector (BitVec Picture.width) Picture.height
  deriving DecidableEq

namespace Picture

/-- The picture with every pixel dark. -/
def blank : Picture := ⟨Vector.replicate height 0⟩

/-- Row `y`, or a dark row below the picture. -/
def row (p : Picture) (y : Nat) : BitVec width := if h : y < height then p.rows[y] else 0

/-- Whether the pixel in column `x` of row `y` is lit. -/
def pixel (p : Picture) (x y : Nat) : Bool := (p.row y).getMsbD x

/-- The picture whose row `y` is `f y`. -/
def ofRows (f : Nat → BitVec width) : Picture := ⟨Vector.ofFn fun y => f y⟩

/-- The picture with row `y` replaced. -/
def setRow (p : Picture) (y : Nat) (r : BitVec width) : Picture :=
  if h : y < height then ⟨p.rows.set y r⟩ else p

/-- Lit where exactly one of the two pictures is. -/
def xor (p q : Picture) : Picture := ⟨Vector.zipWith (· ^^^ ·) p.rows q.rows⟩

/-- Lit where both pictures are. -/
def inter (p q : Picture) : Picture := ⟨Vector.zipWith (· &&& ·) p.rows q.rows⟩

/-- Whether no pixel is lit. -/
def isBlank (p : Picture) : Bool := p.rows.all (· == 0)

theorem row_ofRows (f : Nat → BitVec width) {y : Nat} (h : y < height) : (ofRows f).row y = f y := by
  simp [row, ofRows, h]

theorem row_blank (y : Nat) : blank.row y = 0 := by
  unfold row blank
  split <;> simp

theorem row_xor (p q : Picture) (y : Nat) : (p.xor q).row y = p.row y ^^^ q.row y := by
  unfold row xor
  split <;> simp

theorem row_inter (p q : Picture) (y : Nat) : (p.inter q).row y = p.row y &&& q.row y := by
  unfold row inter
  split <;> simp

theorem pixel_xor (p q : Picture) (x y : Nat) :
    (p.xor q).pixel x y = Bool.xor (p.pixel x y) (q.pixel x y) := by
  simp [pixel, row_xor]

theorem pixel_inter (p q : Picture) (x y : Nat) :
    (p.inter q).pixel x y = (p.pixel x y && q.pixel x y) := by
  simp [pixel, row_inter]

theorem pixel_blank (x y : Nat) : blank.pixel x y = false := by
  simp [pixel, row_blank]

theorem ext_row {p q : Picture} (h : ∀ y, y < height → p.row y = q.row y) : p = q := by
  obtain ⟨p⟩ := p
  obtain ⟨q⟩ := q
  congr 1
  ext y hy : 1
  simpa [row, hy] using h y hy

theorem ext_pixel {p q : Picture}
    (h : ∀ x y, x < width → y < height → p.pixel x y = q.pixel x y) : p = q :=
  ext_row fun y hy => BitVec.eq_of_getMsbD_eq fun x hx => h x y hx hy

theorem isBlank_iff {p : Picture} : p.isBlank = true ↔ p = blank := by
  obtain ⟨p⟩ := p
  simp only [isBlank, blank, mk.injEq, Vector.all_eq_true, beq_iff_eq]
  constructor
  · intro h
    ext y hy : 1
    simpa using h y hy
  · rintro rfl
    simp

end Picture

end ChipEight
