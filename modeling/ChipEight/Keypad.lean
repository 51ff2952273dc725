import ChipEight.Fault

/-!
# The keypad

Sixteen keys, each up or down. Every time a key that is up goes down, an edge is counted and its
number kept as the key's stamp. A marker taken with `edges` can later be asked which key has gone
down since, also if it was let go again.
-/

namespace ChipEight

/-- A key, by the hexadecimal digit printed on it. -/
abbrev Key := Fin 16

/-- The key of a code, if the keypad has it. -/
def Key.ofCode (code : UInt8) : Except Fault Key :=
  if h : code.toNat < 16 then .ok ⟨code.toNat, h⟩ else .error (.invalidKey code)

/-- Which keys are down and when each last went down. -/
structure Keypad where
  held : Vector Bool 16 := Vector.replicate 16 false
  /-- The number of the edge at which a key last went down; zero before its first. -/
  stamps : Vector Nat 16 := Vector.replicate 16 0
  /-- How often a key has gone down. -/
  edges : Nat := 0
  deriving DecidableEq

namespace Keypad

def isHeld (p : Keypad) (k : Key) : Bool := p.held[k]

/-- The number of the edge at which a key last went down. -/
def stamp (p : Keypad) (k : Key) : Nat := p.stamps[k]

/-- A key goes down; one that is down already makes no new edge. -/
def press (p : Keypad) (k : Key) : Keypad :=
  if p.isHeld k then p
  else
    { held := p.held.set k true
      stamps := p.stamps.set k (p.edges + 1)
      edges := p.edges + 1 }

/-- A key goes up. -/
def release (p : Keypad) (k : Key) : Keypad := { p with held := p.held.set k false }

/-- Every key goes up. -/
def releaseAll (p : Keypad) : Keypad := { p with held := Vector.replicate 16 false }

/-- The key with this code goes down. -/
def keyDown (p : Keypad) (code : UInt8) : Except Fault Keypad := p.press <$> Key.ofCode code

/-- The key with this code goes up. -/
def keyUp (p : Keypad) (code : UInt8) : Except Fault Keypad := p.release <$> Key.ofCode code

/-- Whether the key with this code is down; a code without a key reads as up. -/
def isDown (p : Keypad) (code : UInt8) : Bool :=
  if h : code.toNat < 16 then p.held[code.toNat] else false

/-- The later of a candidate and key `k`, by their stamps. -/
def later (p : Keypad) (best : Option Key) (k : Key) : Option Key :=
  match best with
  | none => some k
  | some b => if p.stamp b ≤ p.stamp k then some k else some b

/-- The key that went down last, if one has gone down after edge `mark`. -/
def downSince (p : Keypad) (mark : Nat) : Option Key :=
  ((List.finRange 16).filter fun k => mark < p.stamp k).foldl p.later none

end Keypad

end ChipEight
