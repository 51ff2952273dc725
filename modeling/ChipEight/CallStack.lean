import ChipEight.Fault

/-!
# Call stack

Sixteen slots for return addresses, of which the first `depth` are in use. Returning takes a slot
out of use but does not wipe it. `toList` is the view: a call puts an address at its end
(`toList_pushed`) and a return takes the last away (`toList_popped`).
-/

namespace ChipEight

/-- Return addresses, the latest in the slot below `depth`. -/
structure CallStack where
  slots : Vector UInt16 16 := Vector.replicate 16 0
  depth : Nat := 0
  depth_le : depth ≤ 16 := by omega
  deriving DecidableEq

namespace CallStack

/-- The return addresses in use, the oldest first. -/
def toList (c : CallStack) : List UInt16 := c.slots.toList.take c.depth

/-- Puts a return address on top; a full stack stays as it is. -/
def pushed (c : CallStack) (a : UInt16) : CallStack :=
  if h : c.depth < 16 then
    { slots := c.slots.set c.depth a, depth := c.depth + 1, depth_le := h }
  else c

/-- The latest return address, or zero if there is none. -/
def top (c : CallStack) : UInt16 :=
  if h : c.depth = 0 then 0
  else
    have : c.depth - 1 < 16 := by have := c.depth_le; omega
    c.slots[c.depth - 1]

/-- Takes the latest return address out of use; an empty stack stays as it is. -/
def popped (c : CallStack) : CallStack :=
  { c with depth := c.depth - 1, depth_le := Nat.le_trans (Nat.sub_le ..) c.depth_le }

/-- Puts a return address on top. -/
def push (c : CallStack) (a : UInt16) : Except Fault CallStack :=
  if c.depth < 16 then .ok (c.pushed a) else .error .stackOverflow

/-- Takes the latest return address off. -/
def pop (c : CallStack) : Except Fault (UInt16 × CallStack) :=
  if c.depth = 0 then .error .stackUnderflow else .ok (c.top, c.popped)

theorem toList_pushed {c : CallStack} (h : c.depth < 16) (a : UInt16) :
    (c.pushed a).toList = c.toList ++ [a] := by
  simp only [toList, pushed, h, dite_true]
  apply List.ext_getElem
  · simp; omega
  · intro i h₁ h₂
    simp at h₁ h₂
    simp [List.getElem_append, Vector.getElem_set]
    grind

theorem toList_popped (c : CallStack) : c.popped.toList = c.toList.dropLast := by
  have := c.depth_le
  simp only [toList, popped, List.dropLast_eq_take, List.take_take, List.length_take]
  congr 1
  simp
  omega

end CallStack

end ChipEight
