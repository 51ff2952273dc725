import ChipEight.Instruction
import ChipEight.Keypad
import ChipEight.Machine
import ChipEight.Picture.Sprite

/-!
# Executing one instruction

`Machine.step` fetches the word at the program counter, decodes it and executes it. Whatever can go
wrong is found before anything is changed: `fetch` refuses a program counter or a word, `refusal`
an instruction that the machine cannot carry out, and only then does `perform` act. So a step that
fails leaves the machine as it was.
-/

namespace ChipEight

/-- What an instruction did that someone outside of the machine has to know. -/
inductive Outcome where
  /-- Nothing of that kind. -/
  | plain
  /-- The picture was drawn on or cleared. -/
  | drawn
  /-- The machine waits for a key and will execute the same instruction again. -/
  | waiting
  deriving DecidableEq

namespace Machine

/-- The word at the program counter with the instruction it stands for. -/
def fetch (m : Machine) : Except Fault (Word × Instruction) :=
  if maxPc < m.pc then .error (.pcOutOfRange m.pc)
  else
    let w := m.memory.wordAt m.pc.toNat
    match Instruction.decode w with
    | some i => .ok (w, i)
    | none => .error (.unknownOpcode w)

/-- Why the machine cannot carry an instruction out. -/
def refusal (m : Machine) : Instruction → Option Fault
  | .ret => if m.stack.depth = 0 then some .stackUnderflow else none
  | .call _ => if m.stack.depth = 16 then some .stackOverflow else none
  | .draw _ _ n => Memory.rangeFault m.index n
  | .decimal _ => Memory.rangeFault m.index 3
  | .store x => Memory.rangeFault m.index (x.val + 1)
  | .load x => Memory.rangeFault m.index (x.val + 1)
  | _ => none

/-! ## The instructions -/

/-- The machine past the instruction at the program counter. -/
def advance (m : Machine) : Machine := { m with pc := addWrapped m.pc 2 }

/-- Passes over one more instruction if `c` holds. -/
def skipIf (m : Machine) (c : Bool) : Machine := if c then m.advance else m

/-- Puts the result of a logical operation into Vx. -/
def logic (m : Machine) (x : Register) (b : UInt8) : Machine :=
  let m := m.putV x b
  if m.dialect.logicClearsFlag then m.putFlag false else m

/-- Puts a result into Vx and then its flag into VF, so the flag stays if the two are one. -/
def arithmetic (m : Machine) (x : Register) (b : UInt8) (flag : Bool) : Machine :=
  (m.putV x b).putFlag flag

/-- The value that a shift acts on. -/
def shifted (m : Machine) (x y : Register) : UInt8 :=
  if m.dialect.shiftReadsVy then m.v[y] else m.v[x]

/-- Moves I past the `count` bytes of a transfer, in dialects that do so. -/
def moveIndex (m : Machine) (count : UInt16) : Machine :=
  if m.dialect.transferMovesI then { m with index := addWrapped m.index count } else m

/-- The pixels that a sprite of `n` bytes at I covers. -/
def stencil (m : Machine) (x y : Register) (n : Nat) : Picture :=
  Sprite.stencil m.dialect.clipsSprites (m.v[x].toNat % Picture.width)
    (m.v[y].toNat % Picture.height) (m.memory.peeks m.index.toNat n)

/-- Turns over the pixels that a sprite covers; VF says whether one of them was lit. -/
def draw (m : Machine) (x y : Register) (n : Nat) : Machine × Outcome :=
  let s := m.stencil x y n
  let hit := !(m.picture.inter s).isBlank
  let m := { m with picture := m.picture.xor s }.putFlag hit
  if s.isBlank then (m, .plain) else ({ m with dirty := true }, .drawn)

/-- Puts the key that last went down since the wait began into Vx. If there is none, the wait goes
on at the same instruction. -/
def awaitKey (m : Machine) (pad : Keypad) (x : Register) : Machine × Outcome :=
  let mark := m.keyWait.getD pad.edges
  match pad.downSince mark with
  | some k => ({ m.putV x (UInt8.ofNat k) with keyWait := none }, .plain)
  | none => ({ m with keyWait := some mark, pc := (m.pc - 2) % 0x1000 }, .waiting)

/-- The decimal digits of a byte, hundreds first. -/
def decimalDigits (b : UInt8) : List UInt8 := [b / 100, b / 10 % 10, b % 10]

/-- The registers V0 to Vx taken from memory at I, the others as they are. -/
def loaded (m : Machine) (x : Register) : RegisterFile :=
  Vector.ofFn fun (k : Register) =>
    if k ≤ x then m.memory.peek (m.index.toNat + k) else m.v[k]

/-- Carries an instruction out, with the program counter already past it. -/
def perform (m : Machine) (pad : Keypad) : Instruction → Machine × Outcome
  | .system _ => (m, .plain)
  | .clear => (m.clear, .drawn)
  | .ret => ({ m with pc := m.stack.top, stack := m.stack.popped }, .plain)
  | .jump nnn => ({ m with pc := nnn }, .plain)
  | .call nnn => ({ m with stack := m.stack.pushed m.pc, pc := nnn }, .plain)
  | .skipEqualByte x kk => (m.skipIf (m.v[x] == kk), .plain)
  | .skipUnequalByte x kk => (m.skipIf (m.v[x] != kk), .plain)
  | .skipEqual x y => (m.skipIf (m.v[x] == m.v[y]), .plain)
  | .setByte x kk => (m.putV x kk, .plain)
  | .addByte x kk => (m.putV x (m.v[x] + kk), .plain)
  | .copy x y => (m.putV x m.v[y], .plain)
  | .bitOr x y => (m.logic x (m.v[x] ||| m.v[y]), .plain)
  | .bitAnd x y => (m.logic x (m.v[x] &&& m.v[y]), .plain)
  | .bitXor x y => (m.logic x (m.v[x] ^^^ m.v[y]), .plain)
  | .add x y =>
    (m.arithmetic x (m.v[x] + m.v[y]) (decide (256 ≤ m.v[x].toNat + m.v[y].toNat)), .plain)
  | .sub x y => (m.arithmetic x (m.v[x] - m.v[y]) (decide (m.v[y] ≤ m.v[x])), .plain)
  | .shiftRight x y =>
    let o := m.shifted x y
    (m.arithmetic x (o / 2) (o % 2 == 1), .plain)
  | .subFrom x y => (m.arithmetic x (m.v[y] - m.v[x]) (decide (m.v[x] ≤ m.v[y])), .plain)
  | .shiftLeft x y =>
    let o := m.shifted x y
    (m.arithmetic x (o * 2) (decide (128 ≤ o)), .plain)
  | .skipUnequal x y => (m.skipIf (m.v[x] != m.v[y]), .plain)
  | .setIndex nnn => ({ m with index := nnn }, .plain)
  | .jumpBy x nnn =>
    let offset := if m.dialect.jumpReadsVx then m.v[x] else m.v[0]
    ({ m with pc := addWrapped nnn offset.toUInt16 }, .plain)
  | .random x kk =>
    let (b, m) := m.nextRandom
    (m.putV x (b &&& kk), .plain)
  | .draw x y n => m.draw x y n
  | .skipDown x => (m.skipIf (pad.isDown (m.v[x] % 16)), .plain)
  | .skipUp x => (m.skipIf (!pad.isDown (m.v[x] % 16)), .plain)
  | .readDelay x => (m.putV x m.delay, .plain)
  | .awaitKey x => m.awaitKey pad x
  | .setDelay x => ({ m with delay := m.v[x] }, .plain)
  | .setSound x => ({ m with sound := m.v[x] }, .plain)
  | .addIndex x => ({ m with index := addWrapped m.index m.v[x].toUInt16 }, .plain)
  | .glyph x => ({ m with index := Font.address m.v[x] }, .plain)
  | .decimal x =>
    ({ m with memory := m.memory.pokes m.index.toNat (decimalDigits m.v[x]) }, .plain)
  | .store x =>
    ({ m with memory := m.memory.pokes m.index.toNat (m.v.toList.take (x.val + 1)) }
      |>.moveIndex (UInt16.ofNat (x.val + 1)), .plain)
  | .load x => ({ m with v := m.loaded x }.moveIndex (UInt16.ofNat (x.val + 1)), .plain)

/-- Executes the instruction at the program counter. -/
def step (m : Machine) (pad : Keypad) : Machine × Except Fault Outcome :=
  match m.fetch with
  | .error f => (m, .error f)
  | .ok (_, i) =>
    match m.refusal i with
    | some f => (m, .error f)
    | none =>
      let (m, e) := m.advance.perform pad i
      (m, .ok e)

end Machine

end ChipEight
