import ChipEight.Memory

/-!
# Font

The pictures of the sixteen hexadecimal digits, five bytes each, one byte a row. A digit is drawn
from the high four bits of its rows. Programs find the font at address zero.
-/

namespace ChipEight.Font

/-- Bytes of one digit. -/
def glyphSize : Nat := 5

/-- The rows of the digits `0` to `F`, one digit a line. -/
def rows : List UInt8 :=
  [0xF0, 0x90, 0x90, 0x90, 0xF0,
   0x20, 0x60, 0x20, 0x20, 0x70,
   0xF0, 0x10, 0xF0, 0x80, 0xF0,
   0xF0, 0x10, 0xF0, 0x10, 0xF0,
   0x90, 0x90, 0xF0, 0x10, 0x10,
   0xF0, 0x80, 0xF0, 0x10, 0xF0,
   0xF0, 0x80, 0xF0, 0x90, 0xF0,
   0xF0, 0x10, 0x20, 0x40, 0x40,
   0xF0, 0x90, 0xF0, 0x90, 0xF0,
   0xF0, 0x90, 0xF0, 0x10, 0xF0,
   0xF0, 0x90, 0xF0, 0x90, 0x90,
   0xE0, 0x90, 0xE0, 0x90, 0xE0,
   0xF0, 0x80, 0x80, 0x80, 0xF0,
   0xE0, 0x90, 0x90, 0x90, 0xE0,
   0xF0, 0x80, 0xF0, 0x80, 0xF0,
   0xF0, 0x80, 0xF0, 0x80, 0x80]

/-- Where the digit in the low nibble of `b` is found. -/
def address (b : UInt8) : UInt16 := (b % 16).toUInt16 * 5

/-- Memory before a program is loaded: the font and zeros. -/
def memory : Memory := Memory.zero.pokes 0 rows

end ChipEight.Font
