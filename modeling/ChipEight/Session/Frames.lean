import ChipEight.Session

/-!
# Running for a number of frames

A frame is a sixtieth of a second. A program can be run for a number of frames with nobody
attached: each frame lets the nanoseconds from its start to the next frame's start pass, so that
the starts stay where they belong though a sixtieth is no whole number of nanoseconds.

The starts are computed in words of 64 bits, and the count of frames is such a word too. A result
that does not fit into a word ends the program on the spot, so the computation is partial:
`frameBegin` and `frameLength` have no value where they overflow, and a run that comes to such a
frame crashes.
-/

namespace ChipEight

/-- A number as a word of 64 bits, if it fits into one. -/
def fitted (n : Nat) : Option UInt64 := if n < UInt64.size then some (UInt64.ofNat n) else none

/-- The nanosecond at which a frame begins. -/
def frameBegin (frame : UInt64) : Option UInt64 := do
  let product ← fitted (frame.toNat * 1000000000)
  return product / 60

/-- The nanoseconds from the start of a frame to the start of the next. -/
def frameLength (frame : UInt64) : Option UInt64 := do
  let next ← fitted (frame.toNat + 1)
  let stop ← frameBegin next
  let start ← frameBegin frame
  if start ≤ stop then return stop - start else none

/-- Why a run did not last for all its frames. -/
inductive RunFailure where
  /-- The program was not started. -/
  | refused (fault : Fault)
  /-- The program came to an end in a frame. -/
  | ended (frame : UInt64) (fault : Fault)
  /-- The length of a frame overflowed, which nothing recovers from. -/
  | crashed (frame : UInt64)
  deriving DecidableEq

namespace RunFailure

/-- The texts that tell a failure, from the outermost to the cause of all. -/
def chain : RunFailure → List String
  | refused f => f.message :: f.causes
  | ended frame f =>
    ("the program stopped during frame " ++ toString frame.toNat) :: f.message :: f.causes
  | crashed _ => ["attempt to multiply with overflow"]

end RunFailure

namespace Session

/-- Lets `count` frames pass, the first of them with the number `frame`. -/
def passFrames {σ : Type} [Host σ] (s : Session σ) (frame : UInt64) :
    Nat → Session σ × Except RunFailure Unit
  | 0 => (s, .ok ())
  | count + 1 =>
    match frameLength frame with
    | none => (s, .error (.crashed frame))
    | some length =>
      match s.advance length.toNat with
      | (s, .ok ()) => s.passFrames (frame + 1) count
      | (s, .error f) => (s, .error (.ended frame f))

/-- Starts a program and lets frames pass before a spectator, who goes on with a journal. One key is
drawn for the session and a second for the start. -/
def runFrames (program : List UInt8) (settings : Settings) (frames : UInt64)
    (journal : Journal) (first second : ChaCha.Key) : Session Spectator × Except RunFailure Unit :=
  let s := create settings { journal } first
  match s.start program second with
  | (s, .error f) => (s, .error (.refused f))
  | (s, .ok ()) =>
    match s.passFrames 0 frames.toNat with
    | (s, .error e) => (s, .error e)
    | (s, .ok ()) => (s.note (.framesRun frames s.host.pictures s.host.beeps), .ok ())

end Session

end ChipEight
