import ChipEight.Hex

/-!
# Faults

Everything that can end a program, refuse a key or keep a program from being loaded. A fault is
a cause; its wording is `Fault.message`, and `Fault.causes` lists the texts of what lies behind it.
-/

namespace ChipEight

/-- The kind of a failed read, as far as reading a program tells kinds apart. -/
inductive ReadError.Kind where
  /-- The read was cut short by a signal and may be tried again. -/
  | interrupted
  /-- Any other kind, under the name the system gives it. -/
  | other (name : String)
  deriving DecidableEq

/-- A failed read: its kind and the text that came with it. -/
structure ReadError where
  kind : ReadError.Kind
  text : String
  deriving DecidableEq

/-- The causes for which loading, executing or a key event is refused. -/
inductive Fault where
  /-- A program of `size` bytes does not fit into `max` bytes. -/
  | programTooLarge (size max : Nat)
  /-- No word can be fetched at this program counter. -/
  | pcOutOfRange (pc : UInt16)
  /-- The first address outside of memory that an access asked for. -/
  | addressOutOfRange (address : UInt16)
  /-- The word fetched is no instruction. -/
  | unknownOpcode (word : UInt16)
  /-- A call found every slot of the call stack in use. -/
  | stackOverflow
  /-- A return found no call to return from. -/
  | stackUnderflow
  /-- A key event named a key that the keypad does not have. -/
  | invalidKey (code : UInt8)
  /-- The program could not be read. -/
  | unreadable (cause : ReadError)
  deriving DecidableEq

namespace Fault

/-- The wording of a fault. -/
def message : Fault → String
  | programTooLarge size max =>
    "ROM is too large (" ++ toString size ++ " bytes), max size is " ++ toString max ++ " bytes"
  | pcOutOfRange pc =>
    "program counter " ++ Hex.marked 4 pc.toNat ++ " is outside of fetchable memory"
  | addressOutOfRange address =>
    "memory access out of bounds at address " ++ Hex.marked 4 address.toNat
  | unknownOpcode word => "unknown opcode " ++ Hex.marked 4 word.toNat
  | stackOverflow => "stack overflow: subroutine calls nested deeper than the stack allows"
  | stackUnderflow => "stack underflow: attempted to return with an empty call stack"
  | invalidKey code =>
    "invalid key code " ++ Hex.marked 2 code.toNat ++ ", keys range from 0x0 to 0xF"
  | unreadable _ => "unable to read ROM"

/-- The texts of what lies behind a fault, nearest first. -/
def causes : Fault → List String
  | unreadable cause => [cause.text]
  | _ => []

end Fault

end ChipEight
