import ChipEight.Proofs.Machine.Failure
import ChipEight.Proofs.Picture.Stencil

/-!
# What depends on the dialect

Dialects differ on five points. `Machine.hangsOn` says to which instructions a point matters, and
for which values in registers and memory: each point matters to instructions of its own and to no
other. An instruction is `disputed` between the dialect of the machine and another one if it is
carried out and hangs on a point that the two decide differently. Any other instruction does the
same in both dialects, and the outcome is the same (`step_speak`).
-/

namespace ChipEight

namespace Dialect

/-- A point on which dialects differ. -/
inductive Point where
  /-- Which register a shift reads. -/
  | shift
  /-- Whether a transfer moves I. -/
  | transfer
  /-- Whether sprites are clipped. -/
  | clip
  /-- Whether a logical operation clears VF. -/
  | logic
  /-- Which register a jump adds. -/
  | jump
  deriving DecidableEq

def Point.all : List Point := [.shift, .transfer, .clip, .logic, .jump]

theorem Point.mem_all (p : Point) : p ∈ all := by
  cases p <;> decide

/-- How a dialect decides a point. -/
def choice (d : Dialect) : Point → Bool
  | .shift => d.shiftReadsVy
  | .transfer => d.transferMovesI
  | .clip => d.clipsSprites
  | .logic => d.logicClearsFlag
  | .jump => d.jumpReadsVx

end Dialect

namespace Machine

/-- The same machine with another dialect. -/
def speak (m : Machine) (d : Dialect) : Machine := { m with dialect := d }

/-- Whether it makes a difference to an instruction how a point is decided: to a shift of two
registers that differ, to every transfer, to a sprite that runs off the picture, to a logical
operation that would leave VF other than zero, and to a jump by a register that differs from V0. -/
def hangsOn (m : Machine) : Instruction → Dialect.Point → Bool
  | .shiftRight x y, .shift => m.v.get x != m.v.get y
  | .shiftLeft x y, .shift => m.v.get x != m.v.get y
  | .store _, .transfer => true
  | .load _, .transfer => true
  | .draw x y n, .clip =>
    decide (Sprite.RunsOff ((m.v.get x).toNat % Picture.width) ((m.v.get y).toNat % Picture.height)
      (m.memory.peeks m.index.toNat n))
  | .bitOr x y, .logic => (m.putV x (m.v.get x ||| m.v.get y)).v.get (Fin.last 15) != 0
  | .bitAnd x y, .logic => (m.putV x (m.v.get x &&& m.v.get y)).v.get (Fin.last 15) != 0
  | .bitXor x y, .logic => (m.putV x (m.v.get x ^^^ m.v.get y)).v.get (Fin.last 15) != 0
  | .jumpBy x _, .jump => m.v.get x != m.v.get ⟨0, x.pos⟩
  | _, _ => false

/-- Whether the instruction at the program counter is carried out and hangs on a point that the
dialect of the machine and another one decide differently. -/
def disputed (m : Machine) (d : Dialect) : Bool :=
  match m.fetch with
  | .error _ => false
  | .ok (_, i) =>
    (m.refusal i).isNone &&
      Dialect.Point.all.any fun p => m.dialect.choice p != d.choice p && m.hangsOn i p

section

variable {m : Machine} {pad : Keypad} {i : Instruction} {d : Dialect} {x y : Register}

/-! ## Carrying an instruction out -/

theorem skipIf_speak (c : Bool) : (m.speak d).skipIf c = (m.skipIf c).speak d := by
  unfold skipIf
  split_ifs <;> rfl

theorem putFlag_false_of_eq_zero (h : m.v.get (Fin.last 15) = 0) : m.putFlag false = m := by
  have hset : m.v.set (Fin.last 15) 0 = m.v := by
    rw [← h]
    exact Vector.set_getElem_self _
  show { m with v := m.v.set (Fin.last 15) 0 } = m
  rw [hset]

theorem logic_speak {b : UInt8}
    (h : m.dialect.logicClearsFlag ≠ d.logicClearsFlag → (m.putV x b).v.get (Fin.last 15) = 0) :
    (m.speak d).logic x b = (m.logic x b).speak d := by
  by_cases hsame : m.dialect.logicClearsFlag = d.logicClearsFlag
  · unfold logic
    show (if d.logicClearsFlag then _ else _) =
      (if m.dialect.logicClearsFlag then (m.putV x b).putFlag false else m.putV x b).speak d
    rw [hsame]
    split_ifs <;> rfl
  · -- Where one dialect clears VF it was zero anyway.
    have hzero := h hsame
    have hclear : ((m.speak d).putV x b).putFlag false = (m.speak d).putV x b :=
      putFlag_false_of_eq_zero hzero
    unfold logic
    dsimp only
    rw [hclear, putFlag_false_of_eq_zero hzero, ite_self, ite_self]
    rfl

theorem shifted_speak (h : m.dialect.shiftReadsVy ≠ d.shiftReadsVy → m.v.get x = m.v.get y) :
    (m.speak d).shifted x y = m.shifted x y := by
  show (if d.shiftReadsVy then m.v.get y else m.v.get x) =
    if m.dialect.shiftReadsVy then m.v.get y else m.v.get x
  by_cases hsame : m.dialect.shiftReadsVy = d.shiftReadsVy
  · rw [hsame]
  · rw [h hsame, ite_self, ite_self]

theorem moveIndex_speak (h : m.dialect.transferMovesI = d.transferMovesI) (v : RegisterFile)
    (memory : Memory) (count : UInt16) :
    { m.speak d with v, memory }.moveIndex count =
      ({ m with v, memory }.moveIndex count).speak d := by
  unfold moveIndex
  show (if d.transferMovesI then _ else _ : Machine) =
    (if m.dialect.transferMovesI then _ else _ : Machine).speak d
  rw [h]
  split_ifs <;> rfl

theorem stencil_speak {n : ℕ}
    (h : m.dialect.clipsSprites ≠ d.clipsSprites →
      ¬ Sprite.RunsOff ((m.v.get x).toNat % Picture.width) ((m.v.get y).toNat % Picture.height)
        (m.memory.peeks m.index.toNat n)) :
    (m.speak d).stencil x y n = m.stencil x y n := by
  show Sprite.stencil d.clipsSprites _ _ _ = Sprite.stencil m.dialect.clipsSprites _ _ _
  by_cases hsame : m.dialect.clipsSprites = d.clipsSprites
  · rw [hsame]
    rfl
  · exact Sprite.stencil_eq_of_not_runsOff (Nat.mod_lt _ (by decide)) (h hsame) _ _

theorem draw_speak {n : ℕ} (h : (m.speak d).stencil x y n = m.stencil x y n) :
    (m.speak d).draw x y n = ((m.draw x y n).1.speak d, (m.draw x y n).2) := by
  unfold draw
  rw [h]
  dsimp only
  split_ifs <;> rfl

theorem awaitKey_speak :
    (m.speak d).awaitKey pad x = ((m.awaitKey pad x).1.speak d, (m.awaitKey pad x).2) := by
  have hmark : (m.speak d).keyWait = m.keyWait := rfl
  unfold awaitKey
  rw [hmark]
  dsimp only
  cases pad.downSince (m.keyWait.getD pad.edges) <;> rfl

/-- An instruction that hangs on none of the points that two dialects decide differently does the
same in both. -/
theorem perform_speak (h : ∀ p, m.dialect.choice p ≠ d.choice p → m.hangsOn i p = false) :
    (m.speak d).perform pad i = ((m.perform pad i).1.speak d, (m.perform pad i).2) := by
  cases i with
  | skipEqualByte | skipUnequalByte | skipEqual | skipUnequal | skipDown | skipUp =>
    exact congrArg (·, _) (skipIf_speak _)
  | bitOr | bitAnd | bitXor =>
    exact congrArg (·, _) (logic_speak fun hne => bne_eq_false_iff_eq.mp (h .logic hne))
  | shiftRight x y | shiftLeft x y =>
    have hshifted : (m.speak d).shifted x y = m.shifted x y :=
      shifted_speak fun hne => bne_eq_false_iff_eq.mp (h .shift hne)
    simp only [perform, hshifted]
    rfl
  | jumpBy x nnn =>
    have hoffset : (if d.jumpReadsVx then m.v[x] else m.v[0]) =
        if m.dialect.jumpReadsVx then m.v[x] else m.v[0] := by
      by_cases hsame : m.dialect.jumpReadsVx = d.jumpReadsVx
      · rw [hsame]
      · have hget : m.v.get x = m.v.get ⟨0, x.pos⟩ := bne_eq_false_iff_eq.mp (h .jump hsame)
        have heq : m.v[x] = m.v[0] := hget
        rw [heq, ite_self, ite_self]
    exact congrArg
      (fun o => ({ m.speak d with pc := addWrapped nnn o.toUInt16 }, Outcome.plain)) hoffset
  | draw x y n =>
    have hstencil : (m.speak d).stencil x y n = m.stencil x y n :=
      stencil_speak fun hne => of_decide_eq_false (h .clip hne)
    have hdraw : ∀ m : Machine, m.perform pad (.draw x y n) = m.draw x y n := fun _ => rfl
    rw [hdraw, hdraw]
    exact draw_speak hstencil
  | store x | load x =>
    have hsame : m.dialect.transferMovesI = d.transferMovesI := by
      by_contra hne
      exact Bool.false_ne_true (h .transfer hne).symm
    exact congrArg (·, _) (moveIndex_speak hsame _ _ _)
  | awaitKey x => exact awaitKey_speak
  | _ => rfl

/-! ## One step -/

theorem refusal_speak (m : Machine) (d : Dialect) (i : Instruction) :
    (m.speak d).refusal i = m.refusal i := by
  cases i <;> rfl

theorem disputed_eq_false_iff {w : Word} (hf : m.fetch = .ok (w, i)) (hr : m.refusal i = none) :
    m.disputed d = false ↔ ∀ p, m.dialect.choice p ≠ d.choice p → m.hangsOn i p = false := by
  unfold disputed
  rw [hf]
  simp [hr, Dialect.Point.mem_all]

/-- A step that executes no disputed instruction does the same in both dialects, and has the same
outcome. -/
theorem step_speak (h : m.disputed d = false) (pad : Keypad) :
    (m.speak d).step pad = ((m.step pad).1.speak d, (m.step pad).2) := by
  rcases hf : m.fetch with f | ⟨w, i⟩
  · have hf' : (m.speak d).fetch = .error f := hf
    rw [step_of_fetch hf, step_of_fetch hf']
  · have hf' : (m.speak d).fetch = .ok (w, i) := hf
    rcases hr : m.refusal i with _ | f
    · have hr' : (m.speak d).refusal i = none := (refusal_speak m d i).trans hr
      have hblind := (disputed_eq_false_iff hf hr).mp h
      have hperform : (m.advance.speak d).perform pad i = _ := perform_speak hblind
      unfold step
      simp only [hf, hf', hr, hr']
      exact congrArg (fun r => (r.1, Except.ok r.2)) hperform
    · have hr' : (m.speak d).refusal i = some f := (refusal_speak m d i).trans hr
      rw [step_of_refusal hf hr, step_of_refusal hf' hr']

end

end Machine

end ChipEight
