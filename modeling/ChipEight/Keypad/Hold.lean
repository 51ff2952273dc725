import ChipEight.Keypad

/-!
# Holding keys down

A terminal tells when a key is pressed but not when it is let go. So a press holds its key for a
while, and `expired` lets go of the keys whose time has run out. A press while the key is held
starts the time anew. Times are nanoseconds from any fixed moment and need not be in order; the
clock that tells them has no end.
-/

namespace ChipEight

/-- How long a press holds its key, in nanoseconds. -/
def KeyHold.length : Nat := 150000000

/-- The moments at which the held keys are due to be let go. -/
structure KeyHold where
  due : Vector (Option Nat) 16 := Vector.replicate 16 none
  deriving DecidableEq

namespace KeyHold

/-- Sets the moment at which a key is due; a code without a key changes nothing. -/
def setDue (h : KeyHold) (code : Nat) (t : Option Nat) : KeyHold :=
  if _ : code < 16 then { due := h.due.set code t } else h

/-- A key is pressed at `now`. -/
def press (h : KeyHold) (code now : Nat) : KeyHold := h.setDue code (some (now + length))

/-- A key is let go. -/
def release (h : KeyHold) (code : Nat) : KeyHold := h.setDue code none

/-- Whether a key is held and its time has run out by `now`. -/
def isExpired (h : KeyHold) (now : Nat) (k : Key) : Bool :=
  match h.due.get k with
  | some t => decide (t ≤ now)
  | none => false

/-- The keys whose time has run out by `now`, in ascending order; they are no longer held. -/
def expired (h : KeyHold) (now : Nat) : List Key × KeyHold :=
  ((List.finRange 16).filter (h.isExpired now),
    { due := Vector.ofFn fun k => if h.isExpired now k then none else h.due.get k })

end KeyHold

end ChipEight
