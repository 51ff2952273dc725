/-!
# Instructions

An instruction is written as a word of sixteen bits. Its four nibbles, the highest first, say what
it does and carry its operands: a register in the second nibble, another in the third, a small
number in the fourth, a byte in the low two, an address in the low three. `Instruction.decode`
reads a word; `none` means that the word is no instruction.
-/

namespace ChipEight

/-- One of the registers V0 to VF. -/
abbrev Register := Fin 16

/-- A word as it is fetched. -/
abbrev Word := UInt16

namespace Word

/-- The nibble that starts `k` nibbles above the lowest. -/
def nibble (w : Word) (k : Nat) : Fin 16 := ⟨w.toNat >>> (4 * k) % 16, Nat.mod_lt _ (by decide)⟩

/-- The first nibble, which tells the family of an instruction. -/
def family (w : Word) : Fin 16 := w.nibble 3

/-- The register in the second nibble. -/
def x (w : Word) : Register := w.nibble 2

/-- The register in the third nibble. -/
def y (w : Word) : Register := w.nibble 1

/-- The number in the fourth nibble. -/
def n (w : Word) : Fin 16 := w.nibble 0

/-- The byte in the third and fourth nibble. -/
def byte (w : Word) : UInt8 := w.toUInt8

/-- The address in the last three nibbles. -/
def address (w : Word) : UInt16 := w % 0x1000

end Word

/-- What a word can ask for. The letters in the comments stand for the nibbles that carry operands:
`x` and `y` name registers, `n` is a number, `kk` a byte and `nnn` an address. -/
inductive Instruction where
  /-- Word `0nnn`: a call of machine code, which does nothing here. -/
  | system (nnn : UInt16)
  /-- Word `00E0`: the whole picture goes dark. -/
  | clear
  /-- Word `00EE`: return from a subroutine. -/
  | ret
  /-- Word `1nnn`: go on at `nnn`. -/
  | jump (nnn : UInt16)
  /-- Word `2nnn`: call the subroutine at `nnn`. -/
  | call (nnn : UInt16)
  /-- Word `3xkk`: skip the next instruction if Vx is `kk`. -/
  | skipEqualByte (x : Register) (kk : UInt8)
  /-- Word `4xkk`: skip the next instruction if Vx is not `kk`. -/
  | skipUnequalByte (x : Register) (kk : UInt8)
  /-- Word `5xy0`: skip the next instruction if Vx is Vy. -/
  | skipEqual (x y : Register)
  /-- Word `6xkk`: Vx becomes `kk`. -/
  | setByte (x : Register) (kk : UInt8)
  /-- Word `7xkk`: `kk` is added to Vx, and no carry is kept. -/
  | addByte (x : Register) (kk : UInt8)
  /-- Word `8xy0`: Vx becomes Vy. -/
  | copy (x y : Register)
  /-- Word `8xy1`: Vx becomes the bitwise or of Vx and Vy. -/
  | bitOr (x y : Register)
  /-- Word `8xy2`: Vx becomes the bitwise and of Vx and Vy. -/
  | bitAnd (x y : Register)
  /-- Word `8xy3`: Vx becomes the bitwise exclusive or of Vx and Vy. -/
  | bitXor (x y : Register)
  /-- Word `8xy4`: Vy is added to Vx, and VF is the carry. -/
  | add (x y : Register)
  /-- Word `8xy5`: Vy is taken from Vx, and VF says that nothing was borrowed. -/
  | sub (x y : Register)
  /-- Word `8xy6`: Vx becomes half of the shifted register, and VF the bit that fell off. -/
  | shiftRight (x y : Register)
  /-- Word `8xy7`: Vx becomes Vy less Vx, and VF says that nothing was borrowed. -/
  | subFrom (x y : Register)
  /-- Word `8xyE`: Vx becomes twice the shifted register, and VF the bit that fell off. -/
  | shiftLeft (x y : Register)
  /-- Word `9xy0`: skip the next instruction if Vx is not Vy. -/
  | skipUnequal (x y : Register)
  /-- Word `Annn`: I becomes `nnn`. -/
  | setIndex (nnn : UInt16)
  /-- Word `Bnnn`: go on at `nnn` plus V0, or plus Vx in some dialects. -/
  | jumpBy (x : Register) (nnn : UInt16)
  /-- Word `Cxkk`: Vx becomes a random byte masked with `kk`. -/
  | random (x : Register) (kk : UInt8)
  /-- Word `Dxyn`: draw the `n` bytes at I as a sprite at column Vx, row Vy. -/
  | draw (x y : Register) (n : Fin 16)
  /-- Word `Ex9E`: skip the next instruction if the key Vx is down. -/
  | skipDown (x : Register)
  /-- Word `ExA1`: skip the next instruction if the key Vx is up. -/
  | skipUp (x : Register)
  /-- Word `Fx07`: Vx becomes the delay timer. -/
  | readDelay (x : Register)
  /-- Word `Fx0A`: wait for a key to go down and put it into Vx. -/
  | awaitKey (x : Register)
  /-- Word `Fx15`: the delay timer becomes Vx. -/
  | setDelay (x : Register)
  /-- Word `Fx18`: the sound timer becomes Vx. -/
  | setSound (x : Register)
  /-- Word `Fx1E`: Vx is added to I. -/
  | addIndex (x : Register)
  /-- Word `Fx29`: I becomes the address of the picture of the digit Vx. -/
  | glyph (x : Register)
  /-- Word `Fx33`: the three decimal digits of Vx are written at I. -/
  | decimal (x : Register)
  /-- Word `Fx55`: the registers V0 to Vx are written at I. -/
  | store (x : Register)
  /-- Word `Fx65`: the registers V0 to Vx are read from I. -/
  | load (x : Register)
  deriving DecidableEq

namespace Instruction

/-- The instructions of family 0. -/
def decodeSystem (w : Word) : Instruction :=
  if w = 0x00E0 then .clear else if w = 0x00EE then .ret else .system w.address

/-- The instructions of family 8, told apart by the last nibble. -/
def decodeArithmetic (w : Word) : Option Instruction :=
  match w.n with
  | 0x0 => some (.copy w.x w.y)
  | 0x1 => some (.bitOr w.x w.y)
  | 0x2 => some (.bitAnd w.x w.y)
  | 0x3 => some (.bitXor w.x w.y)
  | 0x4 => some (.add w.x w.y)
  | 0x5 => some (.sub w.x w.y)
  | 0x6 => some (.shiftRight w.x w.y)
  | 0x7 => some (.subFrom w.x w.y)
  | 0xE => some (.shiftLeft w.x w.y)
  | _ => none

/-- The instructions of family E, told apart by the low byte. -/
def decodeKey (w : Word) : Option Instruction :=
  if w.byte = 0x9E then some (.skipDown w.x)
  else if w.byte = 0xA1 then some (.skipUp w.x)
  else none

/-- The instructions of family F, told apart by the low byte. -/
def decodeTransfer (w : Word) : Option Instruction :=
  match w.y, w.n with
  | 0x0, 0x7 => some (.readDelay w.x)
  | 0x0, 0xA => some (.awaitKey w.x)
  | 0x1, 0x5 => some (.setDelay w.x)
  | 0x1, 0x8 => some (.setSound w.x)
  | 0x1, 0xE => some (.addIndex w.x)
  | 0x2, 0x9 => some (.glyph w.x)
  | 0x3, 0x3 => some (.decimal w.x)
  | 0x5, 0x5 => some (.store w.x)
  | 0x6, 0x5 => some (.load w.x)
  | _, _ => none

/-- The instruction that a word stands for. -/
def decode (w : Word) : Option Instruction :=
  match w.family with
  | 0x0 => some (decodeSystem w)
  | 0x1 => some (.jump w.address)
  | 0x2 => some (.call w.address)
  | 0x3 => some (.skipEqualByte w.x w.byte)
  | 0x4 => some (.skipUnequalByte w.x w.byte)
  | 0x5 => if w.n = 0 then some (.skipEqual w.x w.y) else none
  | 0x6 => some (.setByte w.x w.byte)
  | 0x7 => some (.addByte w.x w.byte)
  | 0x8 => decodeArithmetic w
  | 0x9 => if w.n = 0 then some (.skipUnequal w.x w.y) else none
  | 0xA => some (.setIndex w.address)
  | 0xB => some (.jumpBy w.x w.address)
  | 0xC => some (.random w.x w.byte)
  | 0xD => some (.draw w.x w.y w.n)
  | 0xE => decodeKey w
  | _ => decodeTransfer w

end Instruction

end ChipEight
