import ChipEight.Proofs.Machine.Frame

/-!
# Which steps use a random byte

A step uses one random byte if the word at the program counter is of the form `Cxkk`
(`step_of_rolls`), and no other step touches the random bytes, whether it succeeds, waits or fails
(`random_step`).
-/

namespace ChipEight.Machine

variable {m : Machine}

/-- The word at the program counter asks for a random byte. -/
def rolls (m : Machine) : Bool := decide (m.pc ≤ 0xFFE) && m.word.fits "Cxkk"

/-- The machine past an instruction that put the next random byte, masked, into a register. -/
def rolled (m : Machine) : Machine :=
  { m.advance.putV m.word.x (Random.byteAt m.random.key m.random.used &&& m.word.byte) with
    random := { m.random with used := m.random.used + 1 } }

theorem step_of_rolls (h : m.rolls = true) (pad : Keypad) :
    m.step pad = (m.rolled, .ok .plain) := by
  unfold rolls at h
  obtain ⟨hpc, hfit⟩ := Bool.and_eq_true_iff.mp h
  exact step_of_fits (i := .random m.word.x m.word.byte) (of_decide_eq_true hpc) hfit ⟨rfl, rfl⟩
    (by simp [Instruction.form]) rfl

/-! ## Other steps -/

/-- A step at any other word leaves the random bytes alone, whatever comes of it. -/
theorem random_step (h : m.rolls = false) (pad : Keypad) : (m.step pad).1.random = m.random := by
  refine same_step (f := .random) (by decide) (fun i hi => ?_) h pad
  cases i with
  | random x kk => rfl
  | _ => simp [Instruction.writes] at hi

end ChipEight.Machine
