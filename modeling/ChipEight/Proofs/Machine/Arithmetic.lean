import ChipEight.Proofs.Machine.Failure
import ChipEight.Proofs.Machine.Frame

/-!
# Arithmetic on registers that may be one

The words `8xy1` to `8xy7` and `8xyE` compute with Vx and Vy. The result goes into Vx and the flag,
if there is one, into VF, and nothing keeps a program from naming one register twice or from naming
VF. `Machine.Computed` says what is then found in the registers: a flag is never lost, and a result
only where a flag takes its place. `step_computes` gives the results and the flags as numbers, from
the values that Vx and Vy had before the step.
-/

namespace ChipEight.Machine

/-- What a computation leaves in the registers: its result in Vx and its flag, if it has one, in VF.
If Vx is VF it is the flag that stays. Every other register is as before. -/
structure Computed (m m' : Machine) (x : Register) (result : ℤ) (flag : Option Bool) : Prop where
  result_eq : x ≠ 0xF ∨ flag = none → ((m'.v.get x).toNat : ℤ) = result
  flag_eq : ∀ c, flag = some c → (m'.v.get 0xF).toNat = c.toNat
  rest_eq : ∀ k, k ≠ x → k ≠ 0xF ∨ flag = none → m'.v.get k = m.v.get k

/-- If the word at the program counter is of a form, the step succeeds and computes a result and a
flag. -/
def Gives (m : Machine) (pad : Keypad) (form : String) (result : ℤ) (flag : Option Bool) : Prop :=
  m.word.fits form = true →
    ∃ m', m.step pad = (m', .ok .plain) ∧ m.Computed m' m.word.x result flag

variable {m m' : Machine} {pad : Keypad} {i : Instruction} {x : Register} {b : UInt8} {result : ℤ}
  {flag : Bool}

/-! ## Results and flags -/

theorem v_putFlag (m : Machine) (flag : Bool) (k : Register) :
    (m.putFlag flag).v.get k = if k = 0xF then (if flag then 1 else 0) else m.v.get k :=
  v_putV m (Fin.last 15) k _

theorem v_arithmetic (m : Machine) (x k : Register) (b : UInt8) (flag : Bool) :
    (m.arithmetic x b flag).v.get k =
      if k = 0xF then (if flag then 1 else 0) else if k = x then b else m.v.get k := by
  rw [arithmetic, v_putFlag, v_putV]

theorem computed_arithmetic (h : (b.toNat : ℤ) = result) :
    m.Computed (m.arithmetic x b flag) x result (some flag) := by
  constructor
  · rintro (hx | hnone)
    · rw [v_arithmetic, if_neg hx, if_pos rfl, h]
    · cases hnone
  · intro c hc
    obtain rfl := Option.some.inj hc
    rw [v_arithmetic, if_pos rfl]
    cases flag <;> rfl
  · rintro k hk (hF | hnone)
    · rw [v_arithmetic, if_neg hF, if_neg hk]
    · cases hnone

theorem computed_putV (h : (b.toNat : ℤ) = result) : m.Computed (m.putV x b) x result none := by
  constructor
  · intro _
    rw [v_putV, if_pos rfl, h]
  · intro c hc
    cases hc
  · intro k hk _
    rw [v_putV, if_neg hk]

/-- A logical operation has the flag zero in dialects that clear VF, and none in the others. -/
theorem computed_logic (h : (b.toNat : ℤ) = result) :
    m.Computed (m.logic x b) x result
      (if m.dialect.logicClearsFlag then some false else none) := by
  have hlogic : m.logic x b =
      if m.dialect.logicClearsFlag then m.arithmetic x b false else m.putV x b := rfl
  rw [hlogic]
  split_ifs
  · exact computed_arithmetic h
  · exact computed_putV h

theorem gives_of_perform {flag : Option Bool} (hpc : m.pc ≤ 0xFFE) (hcarry : i.CarriedBy m.word)
    (hform : i.form ≠ "0nnn") (hr : m.refusal i = none)
    (hperform : m.advance.perform pad i = (m', .plain))
    (hcomputed : m.advance.Computed m' m.word.x result flag) : m.Gives pad i.form result flag := by
  intro hfit
  refine ⟨m', ?_, hcomputed.result_eq, hcomputed.flag_eq, hcomputed.rest_eq⟩
  rw [step_of_fits hpc hfit hcarry hform hr, hperform]

theorem gives_logic (hpc : m.pc ≤ 0xFFE) (hcarry : i.CarriedBy m.word) (hform : i.form ≠ "0nnn")
    (hr : m.refusal i = none)
    (hperform : m.advance.perform pad i = (m.advance.logic m.word.x b, .plain))
    (hresult : (b.toNat : ℤ) = result) :
    m.Gives pad i.form result (if m.dialect.logicClearsFlag then some false else none) :=
  gives_of_perform hpc hcarry hform hr hperform (computed_logic hresult)

theorem gives_arithmetic {c : Bool} (hpc : m.pc ≤ 0xFFE) (hcarry : i.CarriedBy m.word)
    (hform : i.form ≠ "0nnn") (hr : m.refusal i = none)
    (hperform : m.advance.perform pad i = (m.advance.arithmetic m.word.x b c, .plain))
    (hresult : (b.toNat : ℤ) = result) (hflag : c = flag) :
    m.Gives pad i.form result (some flag) :=
  gives_of_perform hpc hcarry hform hr hperform (hflag ▸ computed_arithmetic hresult)

/-! ## The numbers -/

section Numbers

variable (a b : UInt8)

theorem toNat_add_eq : ((a + b).toNat : ℤ) = (a.toNat + b.toNat) % 256 := by
  rw [UInt8.toNat_add]
  omega

theorem toNat_sub_eq : ((a - b).toNat : ℤ) = (a.toNat - b.toNat) % 256 := by
  have ha := a.toNat_lt
  have hb := b.toNat_lt
  rw [UInt8.toNat_sub]
  omega

theorem toNat_half_eq : ((a / 2).toNat : ℤ) = a.toNat / 2 := by
  rw [UInt8.toNat_div]
  rfl

theorem toNat_double_eq : ((a * 2).toNat : ℤ) = 2 * a.toNat % 256 := by
  have htwo : (2 : UInt8).toNat = 2 := rfl
  rw [UInt8.toNat_mul, htwo]
  omega

theorem odd_eq : (a % 2 == 1) = decide (a.toNat % 2 = 1) := by
  rw [Bool.eq_iff_iff, beq_iff_eq, decide_eq_true_eq, ← UInt8.toNat_inj, UInt8.toNat_mod]
  rfl

theorem toNat_shifted (m : Machine) (x y : Register) :
    (m.shifted x y).toNat =
      if m.dialect.shiftReadsVy then (m.v.get y).toNat else (m.v.get x).toNat :=
  apply_ite UInt8.toNat _ _ _

end Numbers

/-- **Results and flags are right, whichever registers are named.** Let `a` and `b` be the values of
Vx and Vy before the step, and `o` the one of them that a shift reads. A flag goes into VF and wins
over a result there; the result goes into Vx; and no other register changes. -/
theorem step_computes (hpc : m.pc ≤ 0xFFE) (pad : Keypad) :
    let a : ℕ := (m.v.get m.word.x).toNat
    let b : ℕ := (m.v.get m.word.y).toNat
    let o : ℕ := if m.dialect.shiftReadsVy then b else a
    let reset : Option Bool := if m.dialect.logicClearsFlag then some false else none
    m.Gives pad "8xy1" (a ||| b : ℕ) reset ∧
      m.Gives pad "8xy2" (a &&& b : ℕ) reset ∧
      m.Gives pad "8xy3" (a ^^^ b : ℕ) reset ∧
      m.Gives pad "8xy4" ((a + b) % 256) (some (decide (a + b ≥ 256))) ∧
      m.Gives pad "8xy5" ((a - b) % 256) (some (decide (a ≥ b))) ∧
      m.Gives pad "8xy6" (o / 2) (some (decide (o % 2 = 1))) ∧
      m.Gives pad "8xy7" ((b - a) % 256) (some (decide (b ≥ a))) ∧
      m.Gives pad "8xyE" (2 * o % 256) (some (decide (o ≥ 128))) := by
  intro a b o reset
  have hshifted : (m.advance.shifted m.word.x m.word.y).toNat = o := toNat_shifted m _ _
  refine ⟨?_, ?_, ?_, ?_, ?_, ?_, ?_, ?_⟩
  · exact gives_logic (i := .bitOr _ _) hpc ⟨rfl, rfl⟩ (by simp [Instruction.form]) rfl rfl
      (congrArg Nat.cast (UInt8.toNat_or _ _))
  · exact gives_logic (i := .bitAnd _ _) hpc ⟨rfl, rfl⟩ (by simp [Instruction.form]) rfl rfl
      (congrArg Nat.cast (UInt8.toNat_and _ _))
  · exact gives_logic (i := .bitXor _ _) hpc ⟨rfl, rfl⟩ (by simp [Instruction.form]) rfl rfl
      (congrArg Nat.cast (UInt8.toNat_xor _ _))
  · exact gives_arithmetic (i := .add _ _) hpc ⟨rfl, rfl⟩ (by simp [Instruction.form]) rfl rfl
      (toNat_add_eq _ _) rfl
  · exact gives_arithmetic (i := .sub _ _) hpc ⟨rfl, rfl⟩ (by simp [Instruction.form]) rfl rfl
      (toNat_sub_eq _ _) (decide_eq_decide.mpr UInt8.le_iff_toNat_le)
  · refine gives_arithmetic (i := .shiftRight _ _) hpc ⟨rfl, rfl⟩ (by simp [Instruction.form])
      rfl rfl ?_ ?_
    · rw [toNat_half_eq, hshifted]
    · rw [odd_eq, hshifted]
  · exact gives_arithmetic (i := .subFrom _ _) hpc ⟨rfl, rfl⟩ (by simp [Instruction.form])
      rfl rfl (toNat_sub_eq _ _) (decide_eq_decide.mpr UInt8.le_iff_toNat_le)
  · refine gives_arithmetic (i := .shiftLeft _ _) hpc ⟨rfl, rfl⟩ (by simp [Instruction.form])
      rfl rfl ?_ ?_
    · rw [toNat_double_eq, hshifted]
    · rw [← hshifted]
      exact decide_eq_decide.mpr UInt8.le_iff_toNat_le

/-- A sum whose result is lost to its carry, a difference in which VF is an operand and then the
flag, a shift of another register into VF, and a logical operation that clears the register it
computes. -/
theorem step_computes_flag_register :
    let dialect : Dialect := { shiftReadsVy := true, logicClearsFlag := true }
    let program : List UInt8 := [0x8F, 0x34, 0x83, 0xF5, 0x8F, 0x36, 0x8F, 0x31]
    let m (pc : UInt16) : Machine :=
      { (((fresh { dialect, seed := some 7 } default).putV 0xF 200).putV 3 101) with
        pc, memory := Memory.zero.pokes 0x200 program }
    (∀ pc ∈ [0x200, 0x202, 0x204, 0x206], (m pc).pc ≤ 0xFFE) ∧
      (((m 0x200).step {}).1.v.get 0xF).toNat = 1 ∧
      (((m 0x202).step {}).1.v.get 3).toNat = 157 ∧
      (((m 0x202).step {}).1.v.get 0xF).toNat = 0 ∧
      (((m 0x204).step {}).1.v.get 0xF).toNat = 1 ∧
      (((m 0x206).step {}).1.v.get 0xF).toNat = 0 := by
  intro dialect program m
  have hpc : ∀ pc ∈ [0x200, 0x202, 0x204, 0x206], (m pc).pc ≤ 0xFFE := by
    simp only [List.forall_mem_cons, List.not_mem_nil, IsEmpty.forall_iff, implies_true, and_true]
    decide
  obtain ⟨-, -, -, hadd, -⟩ := step_computes (hpc 0x200 (by decide)) {}
  obtain ⟨-, -, -, -, hsub, -⟩ := step_computes (hpc 0x202 (by decide)) {}
  obtain ⟨-, -, -, -, -, hhalf, -⟩ := step_computes (hpc 0x204 (by decide)) {}
  obtain ⟨hor, -⟩ := step_computes (hpc 0x206 (by decide)) {}
  obtain ⟨m₁, h₁, hsum⟩ := hadd (by decide +kernel)
  obtain ⟨m₂, h₂, hdifference⟩ := hsub (by decide +kernel)
  obtain ⟨m₃, h₃, hshift⟩ := hhalf (by decide +kernel)
  obtain ⟨m₄, h₄, hclear⟩ := hor (by decide +kernel)
  rw [h₁, h₂, h₃, h₄]
  have hx : (m 0x202).word.x = 3 := by decide +kernel
  have hresult := hdifference.result_eq (Or.inl (by decide +kernel))
  rw [hx] at hresult
  refine ⟨hpc, hsum.flag_eq true (by decide +kernel), ?_,
    hdifference.flag_eq false (by decide +kernel), hshift.flag_eq true (by decide +kernel),
    hclear.flag_eq false rfl⟩
  exact Int.ofNat.inj (hresult.trans (by decide +kernel))

end ChipEight.Machine
