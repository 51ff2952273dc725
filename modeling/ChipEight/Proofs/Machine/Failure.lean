import ChipEight.Machine.Step
import ChipEight.Proofs.Machine.Forms

/-!
# When an instruction fails

`Machine.Fails` lists the ways in which the machine cannot execute the word at its program counter,
in terms of that word, the call stack and the address register alone. A step fails in these ways
(`step_of_fails`) and no others (`fails_of_step`).
-/

namespace ChipEight.Machine

/-- The word at the program counter. -/
def word (m : Machine) : Word := m.memory.wordAt m.pc.toNat

/-- The machine cannot execute the word at its program counter, for some cause. -/
inductive Fails (m : Machine) : Fault → Prop
  /-- There is no word. -/
  | fetch (hpc : 0xFFE < m.pc) : Fails m (.pcOutOfRange m.pc)
  /-- The word has no standard form. -/
  | decode (hpc : m.pc ≤ 0xFFE) (hw : ¬ m.word.IsStandard) : Fails m (.unknownOpcode m.word)
  /-- A return, and no call to return from. -/
  | ret (hpc : m.pc ≤ 0xFFE) (hw : m.word = 0x00EE) (hd : m.stack.depth = 0) :
    Fails m .stackUnderflow
  /-- A call, and no slot for the return address. -/
  | call (hpc : m.pc ≤ 0xFFE) (hw : m.word.fits "2nnn" = true) (hd : m.stack.depth = 16) :
    Fails m .stackOverflow
  /-- A sprite that lies partly past the end of memory. -/
  | draw (hpc : m.pc ≤ 0xFFE) (hw : m.word.fits "Dxyn" = true)
    (hI : 4096 < m.index.toNat + m.word.n.val) : Fails m (.addressOutOfRange (max m.index 0x1000))
  /-- Decimal digits that would lie partly past the end of memory. -/
  | decimal (hpc : m.pc ≤ 0xFFE) (hw : m.word.fits "Fx33" = true)
    (hI : 4096 < m.index.toNat + 3) : Fails m (.addressOutOfRange (max m.index 0x1000))
  /-- Registers that lie or would lie partly past the end of memory. -/
  | transfer (hpc : m.pc ≤ 0xFFE) (hw : m.word.fits "Fx55" = true ∨ m.word.fits "Fx65" = true)
    (hI : 4096 < m.index.toNat + (m.word.x.val + 1)) :
    Fails m (.addressOutOfRange (max m.index 0x1000))

section

variable {m : Machine} {pad : Keypad} {w : Word} {i : Instruction} {f : Fault}

/-! ## Fetching -/

theorem fetch_eq (m : Machine) :
    m.fetch =
      if 0xFFE < m.pc then .error (.pcOutOfRange m.pc)
      else
        match Instruction.decode m.word with
        | some i => .ok (m.word, i)
        | none => .error (.unknownOpcode m.word) := rfl

theorem fetch_of_lt (hpc : 0xFFE < m.pc) : m.fetch = .error (.pcOutOfRange m.pc) := if_pos hpc

theorem fetch_of_decode (hpc : m.pc ≤ 0xFFE) (hi : Instruction.decode m.word = some i) :
    m.fetch = .ok (m.word, i) := by
  rw [fetch_eq, if_neg (UInt16.not_lt.mpr hpc), hi]

theorem fetch_of_decode_none (hpc : m.pc ≤ 0xFFE) (hi : Instruction.decode m.word = none) :
    m.fetch = .error (.unknownOpcode m.word) := by
  rw [fetch_eq, if_neg (UInt16.not_lt.mpr hpc), hi]

theorem fetch_eq_ok_iff :
    m.fetch = .ok (w, i) ↔ m.pc ≤ 0xFFE ∧ w = m.word ∧ Instruction.decode m.word = some i := by
  constructor
  · intro h
    by_cases hpc : 0xFFE < m.pc
    · rw [fetch_of_lt hpc] at h
      cases h
    · have hpc' := UInt16.not_lt.mp hpc
      rcases hd : Instruction.decode m.word with _ | j
      · rw [fetch_of_decode_none hpc' hd] at h
        cases h
      · rw [fetch_of_decode hpc' hd] at h
        cases h
        exact ⟨hpc', rfl, rfl⟩
  · rintro ⟨hpc, rfl, hi⟩
    exact fetch_of_decode hpc hi

theorem fails_of_fetch (h : m.fetch = .error f) : m.Fails f := by
  by_cases hpc : 0xFFE < m.pc
  · rw [fetch_of_lt hpc] at h
    cases h
    exact .fetch hpc
  · have hpc' := UInt16.not_lt.mp hpc
    rcases hd : Instruction.decode m.word with _ | j
    · rw [fetch_of_decode_none hpc' hd] at h
      cases h
      exact .decode hpc' (decode_eq_none_iff.mp hd)
    · rw [fetch_of_decode hpc' hd] at h
      cases h

/-! ## One step -/

/-- A step fails to fetch, refuses what it fetched, or carries it out. -/
theorem step_cases (m : Machine) (pad : Keypad) :
    (∃ f, m.fetch = .error f ∧ m.step pad = (m, .error f)) ∨
      (∃ w i f, m.fetch = .ok (w, i) ∧ m.refusal i = some f ∧ m.step pad = (m, .error f)) ∨
      ∃ w i, m.fetch = .ok (w, i) ∧ m.refusal i = none ∧
        m.step pad = ((m.advance.perform pad i).1, .ok (m.advance.perform pad i).2) := by
  unfold step
  rcases hf : m.fetch with f | ⟨w, i⟩
  · exact Or.inl ⟨f, rfl, rfl⟩
  · rcases hr : m.refusal i with _ | f
    · exact Or.inr (Or.inr ⟨w, i, rfl, hr, by simp only [hr]⟩)
    · exact Or.inr (Or.inl ⟨w, i, f, rfl, hr, by simp only [hr]⟩)

/-- A step that succeeds carries out the instruction at the program counter. -/
theorem perform_of_step {m' : Machine} {e : Outcome} (h : m.step pad = (m', .ok e)) :
    ∃ i, m.pc ≤ 0xFFE ∧ Instruction.decode m.word = some i ∧ m.refusal i = none ∧
      m.advance.perform pad i = (m', e) := by
  rcases step_cases m pad with ⟨f, -, hs⟩ | ⟨w, i, f, -, -, hs⟩ | ⟨w, i, hf, hr, hs⟩
  · rw [hs] at h
    cases h
  · rw [hs] at h
    cases h
  · rw [hs] at h
    cases h
    obtain ⟨hpc, rfl, hi⟩ := fetch_eq_ok_iff.mp hf
    exact ⟨i, hpc, hi, hr, rfl⟩

theorem step_of_fetch (h : m.fetch = .error f) : m.step pad = (m, .error f) := by
  unfold step
  rw [h]

theorem step_of_refusal (hf : m.fetch = .ok (w, i)) (hr : m.refusal i = some f) :
    m.step pad = (m, .error f) := by
  unfold step
  simp only [hf, hr]

/-! ## Refusing -/

/-- A range that reaches past the end of memory is refused with the first address outside. -/
theorem rangeFault_eq_some_iff {a : UInt16} {len : ℕ} :
    Memory.rangeFault a len = some f ↔
      4096 < a.toNat + len ∧ f = .addressOutOfRange (max a 0x1000) := by
  unfold Memory.rangeFault
  split_ifs with h
  · have hle : a.toNat + len ≤ 4096 := h
    constructor
    · intro hf
      cases hf
    · rintro ⟨hlt, -⟩
      omega
  · rw [Option.some.injEq]
    constructor
    · rintro rfl
      exact ⟨Nat.lt_of_not_le h, rfl⟩
    · rintro ⟨-, rfl⟩
      rfl

theorem fails_of_refusal (hf : m.fetch = .ok (w, i)) (hr : m.refusal i = some f) : m.Fails f := by
  obtain ⟨hpc, rfl, hi⟩ := fetch_eq_ok_iff.mp hf
  obtain ⟨hfit, hcarry⟩ := Instruction.describes_decode hi
  cases i with
  | ret =>
    have hw : m.word = 0x00EE := eq_of_fits_ret hfit
    simp only [refusal] at hr
    split_ifs at hr with hd
    cases hr
    exact .ret hpc hw hd
  | call nnn =>
    simp only [refusal] at hr
    split_ifs at hr with hd
    cases hr
    exact .call hpc hfit hd
  | draw x y n =>
    obtain ⟨-, -, rfl⟩ := hcarry
    obtain ⟨hI, rfl⟩ := rangeFault_eq_some_iff.mp hr
    exact .draw hpc hfit hI
  | decimal x =>
    obtain ⟨hI, rfl⟩ := rangeFault_eq_some_iff.mp hr
    exact .decimal hpc hfit hI
  | store x =>
    obtain rfl := hcarry
    obtain ⟨hI, rfl⟩ := rangeFault_eq_some_iff.mp hr
    exact .transfer hpc (Or.inl hfit) hI
  | load x =>
    obtain rfl := hcarry
    obtain ⟨hI, rfl⟩ := rangeFault_eq_some_iff.mp hr
    exact .transfer hpc (Or.inr hfit) hI
  | _ => cases hr

/-- The instruction of a form other than `0nnn` is fetched where a word of that form is. -/
theorem fetch_of_fits (hpc : m.pc ≤ 0xFFE) (hfit : m.word.fits i.form = true)
    (hcarry : i.CarriedBy m.word) (hform : i.form ≠ "0nnn") : m.fetch = .ok (m.word, i) :=
  fetch_of_decode hpc
    (Instruction.decode_of_describes ⟨hfit, hcarry⟩ fun h => absurd h hform)

/-- The instruction of such a word is carried out unless it is refused. -/
theorem step_of_fits (hpc : m.pc ≤ 0xFFE) (hfit : m.word.fits i.form = true)
    (hcarry : i.CarriedBy m.word) (hform : i.form ≠ "0nnn") (hr : m.refusal i = none) :
    m.step pad = ((m.advance.perform pad i).1, .ok (m.advance.perform pad i).2) := by
  unfold step
  rw [fetch_of_fits hpc hfit hcarry hform]
  simp only [hr]

theorem step_of_fits_refused (hpc : m.pc ≤ 0xFFE) (hfit : m.word.fits i.form = true)
    (hcarry : i.CarriedBy m.word) (hform : i.form ≠ "0nnn") (hr : m.refusal i = some f)
    (pad : Keypad) : m.step pad = (m, .error f) :=
  step_of_refusal (fetch_of_fits hpc hfit hcarry hform) hr

theorem step_of_fails (h : m.Fails f) (pad : Keypad) : m.step pad = (m, .error f) := by
  cases h with
  | fetch hpc => exact step_of_fetch (fetch_of_lt hpc)
  | decode hpc hw => exact step_of_fetch (fetch_of_decode_none hpc (decode_eq_none_iff.mpr hw))
  | ret hpc hw hd =>
    have hi : Instruction.decode m.word = some .ret := by rw [hw]; rfl
    exact step_of_refusal (fetch_of_decode hpc hi) (if_pos hd)
  | call hpc hw hd =>
    exact step_of_fits_refused (i := .call m.word.address) hpc hw rfl (by simp [Instruction.form])
      (if_pos hd) pad
  | draw hpc hw hI =>
    exact step_of_fits_refused (i := .draw m.word.x m.word.y m.word.n) hpc hw ⟨rfl, rfl, rfl⟩
      (by simp [Instruction.form]) (rangeFault_eq_some_iff.mpr ⟨hI, rfl⟩) pad
  | decimal hpc hw hI =>
    exact step_of_fits_refused (i := .decimal m.word.x) hpc hw rfl (by simp [Instruction.form])
      (rangeFault_eq_some_iff.mpr ⟨hI, rfl⟩) pad
  | transfer hpc hw hI =>
    have hr := rangeFault_eq_some_iff.mpr ⟨hI, rfl⟩
    rcases hw with hw | hw
    · exact step_of_fits_refused (i := .store m.word.x) hpc hw rfl (by simp [Instruction.form])
        hr pad
    · exact step_of_fits_refused (i := .load m.word.x) hpc hw rfl (by simp [Instruction.form])
        hr pad

theorem fails_of_step (h : (m.step pad).2 = .error f) : m.Fails f := by
  rcases step_cases m pad with ⟨f', hf, hs⟩ | ⟨w, i, f', hf, hr, hs⟩ | ⟨w, i, -, -, hs⟩
  · rw [hs] at h
    cases h
    exact fails_of_fetch hf
  · rw [hs] at h
    cases h
    exact fails_of_refusal hf hr
  · rw [hs] at h
    cases h

theorem eq_of_step_error {m' : Machine} (h : m.step pad = (m', .error f)) : m' = m := by
  rw [step_of_fails (fails_of_step (congrArg Prod.snd h))] at h
  exact (congrArg Prod.fst h).symm

end

end ChipEight.Machine
