import ChipEight.Picture

/-!
# Sprites

A sprite is a column of at most fifteen bytes, each a row of eight pixels. Its `stencil` is the
picture that is lit exactly where the sprite covers the screen; drawing a sprite is `Picture.xor`
with its stencil, and it collides where the two pictures meet.
-/

namespace ChipEight.Sprite

/-- One byte of a sprite as a row of the screen that starts at column `x`: what runs off the right
edge is dropped if the sprite is clipped and comes in again at the left if not. -/
def stencilRow (clipped : Bool) (x : Nat) (b : UInt8) : BitVec Picture.width :=
  let left := b.toBitVec.setWidth Picture.width <<< 56
  if clipped then left >>> x else left.rotateRight x

/-- The sprite's part of row `py` when its first byte lies in row `y`. -/
def stencilAt (clipped : Bool) (x y : Nat) (bytes : List UInt8) (py : Nat) :
    BitVec Picture.width :=
  let r := (py + Picture.height - y) % Picture.height
  if clipped && decide (Picture.height ≤ y + r) then 0
  else
    match bytes[r]? with
    | some b => stencilRow clipped x b
    | none => 0

/-- The pixels that a sprite with its upper left corner at `x`, `y` covers. -/
def stencil (clipped : Bool) (x y : Nat) (bytes : List UInt8) : Picture :=
  Picture.ofRows (stencilAt clipped x y bytes)

end ChipEight.Sprite
