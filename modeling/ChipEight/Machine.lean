import ChipEight.CallStack
import ChipEight.Font
import ChipEight.Picture
import ChipEight.Random
import ChipEight.Settings

/-!
# The machine

Everything a program can see or change: registers, timers, memory, call stack, picture and random
bytes. `Machine.fresh` is the machine before a program is loaded and `Machine.load` puts a program
into it.
-/

namespace ChipEight

/-- One of the registers V0 to VF, by its number. -/
abbrev RegisterFile := Vector UInt8 16

/-- The state of the machine between two instructions. -/
structure Machine where
  /-- The registers V0 to VF; VF also takes carries, borrows and collisions. -/
  v : RegisterFile := Vector.replicate 16 0
  /-- The address register I. -/
  index : UInt16 := 0
  /-- Where the next instruction is fetched. -/
  pc : UInt16 := 0x200
  stack : CallStack := {}
  delay : UInt8 := 0
  sound : UInt8 := 0
  memory : Memory := Font.memory
  picture : Picture := Picture.blank
  /-- The picture has changed since it was last shown. -/
  dirty : Bool := false
  /-- The edge of the keypad at which a wait for a key began, while one is going on. -/
  keyWait : Option Nat := none
  dialect : Dialect := {}
  random : Random
  deriving DecidableEq

namespace Machine

/-- The address at which programs are loaded and start. -/
def programStart : UInt16 := 0x200

/-- The number of bytes from there to the end of memory. -/
def maxProgram : Nat := Memory.size - programStart.toNat

/-- The highest address at which a word can be fetched. -/
def maxPc : UInt16 := 0xFFE

/-- The machine before a program is loaded, with a key that was drawn for it; settings with a seed
have no use for the key. -/
def fresh (settings : Settings) (drawn : ChaCha.Key) : Machine :=
  { dialect := settings.dialect, random := Random.forRun settings.seed drawn }

/-- The fresh machine with a program in memory; a program that does not fit is refused. -/
def load (program : List UInt8) (settings : Settings) (drawn : ChaCha.Key) :
    Except Fault Machine :=
  if program.length ≤ maxProgram then
    let m := fresh settings drawn
    .ok { m with memory := m.memory.pokes programStart.toNat program }
  else .error (.programTooLarge program.length maxProgram)

/-! ## Registers and flags -/

/-- The machine with Vx replaced. -/
def putV (m : Machine) (x : Fin 16) (b : UInt8) : Machine := { m with v := m.v.set x b }

/-- The machine with VF saying whether something holds. -/
def putFlag (m : Machine) (holds : Bool) : Machine := m.putV (Fin.last 15) (if holds then 1 else 0)

/-- The address `k` further on, counted round the end of memory. -/
def addWrapped (a k : UInt16) : UInt16 := (a + k) % 0x1000

/-! ## Timers and picture -/

/-- One less, but not below zero. -/
def countDown (b : UInt8) : UInt8 := if b = 0 then 0 else b - 1

/-- One tick of the timers. -/
def tick (m : Machine) : Machine :=
  { m with delay := countDown m.delay, sound := countDown m.sound }

/-- The machine with a dark picture that is still to be shown. -/
def clear (m : Machine) : Machine := { m with picture := Picture.blank, dirty := true }

/-! ## Call stack and memory -/

/-- Puts a return address on the call stack. -/
def push (m : Machine) (a : UInt16) : Except Fault Machine :=
  (fun stack => { m with stack }) <$> m.stack.push a

/-- Takes the latest return address off the call stack. -/
def pop (m : Machine) : Except Fault (UInt16 × Machine) :=
  (fun (a, stack) => (a, { m with stack })) <$> m.stack.pop

/-- Writes bytes to memory, all of them or none. -/
def writeBytes (m : Machine) (a : UInt16) (data : List UInt8) : Except Fault Machine :=
  (fun memory => { m with memory }) <$> m.memory.writeBytes a data

/-- Takes the next random byte. -/
def nextRandom (m : Machine) : UInt8 × Machine :=
  let (b, random) := m.random.next
  (b, { m with random })

end Machine

end ChipEight
