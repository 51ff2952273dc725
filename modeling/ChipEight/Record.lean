import ChipEight.Machine

/-!
# Records

What happens in a session is put on record. A `Record` is an event, not a text: `Record.level` says
how important it is, `Record.part` which part of the program it comes from, and `Record.line` is the
line that a reader gets to see.
-/

namespace ChipEight

/-- How important a record is, from the highest to the lowest. -/
inductive Level where
  | error
  | warn
  | info
  | debug
  | trace
  deriving DecidableEq

namespace Level

/-- The place of a level in the order, zero for the highest. -/
def rank : Level → Nat
  | error => 0
  | warn => 1
  | info => 2
  | debug => 3
  | trace => 4

/-- The name of a level in a line of the log. -/
def name : Level → String
  | error => "ERROR"
  | warn => "WARN"
  | info => "INFO"
  | debug => "DEBUG"
  | trace => "TRACE"

/-- All levels, the highest first. -/
def all : List Level := [error, warn, info, debug, trace]

end Level

/-- An event worth keeping. -/
inductive Record where
  /-- A program of `size` bytes was put into memory. -/
  | loaded (size : Nat)
  /-- A program of `size` bytes was started at `cpuHz` instructions a second. -/
  | started (size : Nat) (cpuHz : UInt32)
  /-- A program was not started. -/
  | startRefused (fault : Fault)
  /-- A running program was stopped at `pc`. -/
  | stopped (pc : UInt16)
  /-- The instruction at `pc` could not be executed. -/
  | halted (pc : UInt16) (fault : Fault)
  /-- A key was reported down. -/
  | keyDown (code : UInt8)
  /-- A key was reported up. -/
  | keyUp (code : UInt8)
  /-- A report of a key going down was refused. -/
  | pressIgnored (fault : Fault)
  /-- A report of a key going up was refused. -/
  | releaseIgnored (fault : Fault)
  /-- An instruction is about to be executed. -/
  | executing (word : UInt16) (v : RegisterFile) (index pc : UInt16)
  /-- A picture could not be shown. -/
  | pictureLost (cause : String)
  /-- The bell could not be rung. -/
  | bellLost (cause : String)
  /-- A program of `size` bytes was read from a file. -/
  | programRead (size : Nat) (path : String)
  /-- A run of `frames` sixtieths of a second is over. -/
  | framesRun (frames : UInt64) (pictures beeps : Nat)
  deriving DecidableEq

namespace Record

/-- How important an event is. -/
def level : Record → Level
  | startRefused _ | halted .. | pressIgnored _ | releaseIgnored _ => .warn
  | pictureLost _ | bellLost _ => .warn
  | started .. | stopped _ | programRead .. | framesRun .. => .info
  | loaded _ | keyDown _ | keyUp _ => .debug
  | executing .. => .trace

/-- The name of the part of the program that an event comes from. A part of a part is named after
two colons. -/
def part : Record → String
  | loaded _ => "emu8_core::loader"
  | started .. | startRefused _ | stopped _ | halted .. => "emu8_core::chip8"
  | keyDown _ | keyUp _ | pressIgnored _ | releaseIgnored _ => "emu8_core::chip8"
  | executing .. => "emu8_core::instruction"
  | pictureLost _ | bellLost _ => "display"
  | programRead .. => "chip8"
  | framesRun .. => "chip8::run"

/-- The text of an event. -/
def text : Record → String
  | loaded size =>
    "loaded " ++ toString size ++ " byte program at " ++ Hex.marked 3 Machine.programStart.toNat
  | started size cpuHz =>
    "started " ++ toString size ++ " byte program at " ++ toString cpuHz.toNat ++ " Hz"
  | startRefused fault => "unable to start program: " ++ fault.message
  | stopped pc => "stopped at pc " ++ Hex.marked 3 pc.toNat
  | halted pc fault => "halting at pc " ++ Hex.marked 3 pc.toNat ++ ": " ++ fault.message
  | keyDown code => "key down " ++ Hex.padded 1 code.toNat
  | keyUp code => "key up " ++ Hex.padded 1 code.toNat
  | pressIgnored fault => "ignoring key press: " ++ fault.message
  | releaseIgnored fault => "ignoring key release: " ++ fault.message
  | executing word v index pc =>
    Hex.padded 4 word.toNat
      ++ " v[" ++ ", ".intercalate (v.toList.map fun b => Hex.padded 2 b.toNat) ++ "]"
      ++ " i" ++ Hex.padded 4 index.toNat ++ " pc" ++ Hex.padded 4 pc.toNat
  | pictureLost cause => "unable to draw frame: " ++ cause
  | bellLost cause => "unable to ring bell: " ++ cause
  | programRead size path => "read " ++ toString size ++ " bytes from " ++ path
  | framesRun frames pictures beeps =>
    "ran " ++ toString frames.toNat ++ " frames: " ++ toString pictures ++ " renders, "
      ++ toString beeps ++ " beeps"

/-- The line of an event. -/
def line (r : Record) : String := r.level.name ++ ": " ++ r.text

end Record

end ChipEight
