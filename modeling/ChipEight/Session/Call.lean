import ChipEight.Session

/-!
# Calls

What a host can ask of a session, as data. `Session.call` carries a call out, and `Session.calls`
a list of them in order.
-/

namespace ChipEight

/-- A request to a session. -/
inductive Call where
  /-- Start a program; the key is what the system draws then. -/
  | start (program : List UInt8) (drawn : ChaCha.Key)
  | stop
  /-- Execute one instruction, whatever the time. -/
  | step
  /-- Let the time from one instruction to the next pass. -/
  | cycle
  | advance (nanoseconds : Nat)
  | keyDown (code : UInt8)
  | keyUp (code : UInt8)
  | releaseKeys
  deriving DecidableEq

namespace Session

variable {σ : Type} [Host σ]

/-- The answer to a call that has nothing to tell but its fault. -/
def quietly (r : Session σ × Except Fault Unit) : Session σ × Except Fault Outcome :=
  (r.1, r.2.map fun _ => .plain)

/-- Carries a call out. -/
def call (s : Session σ) : Call → Session σ × Except Fault Outcome
  | .start program drawn => quietly (s.start program drawn)
  | .stop => (s.stop, .ok .plain)
  | .step => s.step
  | .cycle => quietly s.cycle
  | .advance nanoseconds => quietly (s.advance nanoseconds)
  | .keyDown code => quietly (s.keyDown code)
  | .keyUp code => quietly (s.keyUp code)
  | .releaseKeys => (s.releaseKeys, .ok .plain)

/-- Carries calls out in order, with their answers. -/
def calls (s : Session σ) : List Call → Session σ × List (Except Fault Outcome)
  | [] => (s, [])
  | c :: cs =>
    let (s, a) := s.call c
    let (s, as) := s.calls cs
    (s, a :: as)

end Session

end ChipEight
