import ChipEight.Machine

/-!
# Reading a program

A program is read from a source that hands its bytes out in pieces of any size and may fail between
two pieces. Reading stops at the end, at the first failure that is not a mere interruption, or one
byte past the largest program, so that a source of any length is told apart from one that fits
without being read to its end.
-/

namespace ChipEight

/-- What a source does when it is asked for bytes. -/
inductive Delivery where
  /-- It hands out bytes; handing out none means that it has come to its end. -/
  | bytes (data : List UInt8)
  /-- It fails. -/
  | failure (cause : ReadError)
  deriving DecidableEq

/-- A source of bytes: its deliveries in order, after which it has come to its end. -/
abbrev Source := List Delivery

namespace Source

/-- The bytes that a source has still to hand out. -/
def content : Source → List UInt8
  | [] => []
  | .bytes data :: rest => data ++ content rest
  | .failure _ :: rest => content rest

/-- Puts bytes that were read before in front of what is read next. -/
def after (data : List UInt8) (r : Except ReadError (List UInt8) × Source) :
    Except ReadError (List UInt8) × Source :=
  (r.1.map (data ++ ·), r.2)

/-- Reads up to `limit` bytes, with what is left of the source. An interrupted read is tried
again. -/
def read (limit : Nat) : Source → Except ReadError (List UInt8) × Source
  | [] => (.ok [], [])
  | d :: rest =>
    if limit = 0 then (.ok [], d :: rest)
    else
      match d with
      | .bytes [] => (.ok [], d :: rest)
      | .bytes data =>
        if data.length ≤ limit then after data (read (limit - data.length) rest)
        else (.ok (data.take limit), .bytes (data.drop limit) :: rest)
      | .failure cause =>
        if cause.kind = .interrupted then read limit rest else (.error cause, rest)

end Source

namespace Machine

/-- Reads a program that fits into memory. -/
def readProgram (source : Source) : Except Fault (List UInt8) × Source :=
  match source.read (maxProgram + 1) with
  | (.error cause, rest) => (.error (.unreadable cause), rest)
  | (.ok program, rest) =>
    if program.length ≤ maxProgram then (.ok program, rest)
    else (.error (.programTooLarge program.length maxProgram), rest)

/-- Reads a program and loads it. -/
def loadFrom (source : Source) (settings : Settings) (drawn : ChaCha.Key) :
    Except Fault Machine × Source :=
  match readProgram source with
  | (.error f, rest) => (.error f, rest)
  | (.ok program, rest) => (load program settings drawn, rest)

end Machine

end ChipEight
