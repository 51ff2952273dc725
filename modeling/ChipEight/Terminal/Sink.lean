/-!
# Sinks

Where a terminal's bytes go. A sink may have room for a limited number of bytes: a write that does
not fit leaves as much as fits and fails. A sink may also refuse to be flushed.
-/

namespace ChipEight

/-- Why a sink did not take what was written. -/
inductive SinkError where
  | full
  | flushRefused
  deriving DecidableEq

namespace SinkError

/-- The wording of a sink's error. -/
def message : SinkError → String
  | full => "sink full"
  | flushRefused => "flush failed"

end SinkError

/-- The bytes written so far and what the sink can still do. -/
structure Sink where
  written : Array UInt8 := #[]
  /-- The number of bytes there is still room for; `none` is room for any number. -/
  room : Option Nat := none
  refusesFlush : Bool := false
  deriving DecidableEq

namespace Sink

/-- Writes bytes, as many as there is room for. -/
def write (s : Sink) (data : List UInt8) : Sink × Except SinkError Unit :=
  match s.room with
  | none => ({ s with written := s.written ++ data }, .ok ())
  | some room =>
    ({ s with written := s.written ++ data.take room, room := some (room - data.length) },
      if data.length ≤ room then .ok () else .error .full)

/-- Asks for everything written to be passed on. -/
def flush (s : Sink) : Except SinkError Unit :=
  if s.refusesFlush then .error .flushRefused else .ok ()

/-- Writes bytes and, if all of them were taken, flushes. -/
def send (s : Sink) (data : List UInt8) : Sink × Except SinkError Unit :=
  let (s, r) := s.write data
  (s, match r with
    | .ok () => s.flush
    | .error e => .error e)

end Sink

end ChipEight
