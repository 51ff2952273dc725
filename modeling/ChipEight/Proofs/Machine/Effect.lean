import ChipEight.Proofs.Machine.Failure

/-!
# What an instruction does to addresses

A machine holds addresses in its program counter, its address register and its call stack, and while
it waits for a key it holds a number that the keypad gave out. `Machine.Effect` lists what carrying
out an instruction can do to these four, and `effect_perform` says that the list is complete. Every
step that succeeds has such an effect (`effect_of_step`), so it keeps addresses within memory
(`inMemory_of_step`), a wait at its instruction (`waits_of_step`) and the dialect
(`dialect_of_step`). A machine whose addresses are within memory has only five ways to fail
(`Fails.cases_of_inMemory`).
-/

namespace ChipEight

/-- The instruction that waits for a key. -/
def Instruction.IsWait : Instruction → Prop
  | .awaitKey _ => True
  | _ => False

namespace Machine

/-- What an instruction can do to the addresses of a machine and to its wait for a key, once the
program counter is past it. -/
inductive Effect (m : Machine) (pad : Keypad) (i : Instruction) : Machine → Prop
  /-- Nothing. -/
  | plain (hi : ¬ i.IsWait) (v : RegisterFile) (delay sound : UInt8) (memory : Memory)
    (picture : Picture) (dirty : Bool) (random : Random) :
    Effect m pad i { m with v, delay, sound, memory, picture, dirty, random }
  | skip (hi : ¬ i.IsWait) : Effect m pad i m.advance
  | jump (hi : ¬ i.IsWait) (a : UInt16) (ha : a ≤ 0xFFF) : Effect m pad i { m with pc := a }
  | call (hi : ¬ i.IsWait) (a : UInt16) (ha : a ≤ 0xFFF) :
    Effect m pad i { m with stack := m.stack.pushed m.pc, pc := a }
  | ret (hi : ¬ i.IsWait) :
    Effect m pad i { m with pc := m.stack.top, stack := m.stack.popped }
  | index (hi : ¬ i.IsWait) (a : UInt16) (ha : a ≤ 0xFFF) (v : RegisterFile) (memory : Memory) :
    Effect m pad i { m with v, memory, index := a }
  /-- A key went down, and the wait is over. -/
  | caught (hi : i.IsWait) (v : RegisterFile) : Effect m pad i { m with v, keyWait := none }
  /-- No key went down since the wait began, and the instruction comes again. -/
  | waiting (hi : i.IsWait) :
    Effect m pad i
      { m with keyWait := some (m.keyWait.getD pad.edges), pc := (m.pc - 2) % 0x1000 }

/-! ## Addresses -/

theorem mod_size_le (a : UInt16) : a % 0x1000 ≤ 0xFFF := by
  rw [UInt16.le_iff_toNat_le, UInt16.toNat_mod]
  exact Nat.le_of_lt_succ (Nat.mod_lt _ (by decide))

theorem addWrapped_le (a k : UInt16) : addWrapped a k ≤ 0xFFF := mod_size_le _

theorem address_le (w : Word) : w.address ≤ 0xFFF := mod_size_le _

theorem glyph_le (b : UInt8) : Font.address b ≤ 0xFFF := by
  rw [UInt16.le_iff_toNat_le, Font.address, UInt16.toNat_mul, UInt8.toNat_toUInt16, UInt8.toNat_mod]
  have : b.toNat % 16 < 16 := Nat.mod_lt _ (by decide)
  show b.toNat % 16 * 5 % 65536 ≤ 4095
  rw [Nat.mod_eq_of_lt (by omega)]
  omega

/-- The program counter goes back to the instruction that it was moved past. -/
theorem pc_advance_sub {m : Machine} (hpc : m.pc ≤ 0xFFE) :
    (m.advance.pc - 2) % 0x1000 = m.pc := by
  have hpc' : m.pc.toNat ≤ 4094 := UInt16.le_iff_toNat_le.mp hpc
  apply UInt16.toNat_inj.mp
  show ((m.pc + 2) % 0x1000 - 2).toNat % 4096 = m.pc.toNat
  rw [UInt16.toNat_sub, UInt16.toNat_mod, UInt16.toNat_add]
  show (65536 - 2 + (m.pc.toNat + 2) % 65536 % 4096) % 65536 % 4096 = m.pc.toNat
  omega

section

variable {m m' : Machine} {pad : Keypad} {i : Instruction} {w : Word} {e : Outcome} {f : Fault}

/-! ## The list is complete -/

theorem effect_skipIf (hi : ¬ i.IsWait) (c : Bool) : m.Effect pad i (m.skipIf c) := by
  unfold skipIf
  split_ifs
  · exact .skip hi
  · exact .plain hi _ _ _ _ _ _ _

theorem effect_logic (hi : ¬ i.IsWait) (x : Register) (b : UInt8) :
    m.Effect pad i (m.logic x b) := by
  unfold logic
  dsimp only
  split_ifs
  · exact .plain hi _ _ _ _ _ _ _
  · exact .plain hi _ _ _ _ _ _ _

theorem effect_moveIndex (hi : ¬ i.IsWait) (v : RegisterFile) (memory : Memory) (k : UInt16) :
    m.Effect pad i ({ m with v, memory }.moveIndex k) := by
  unfold moveIndex
  split_ifs
  · exact .index hi _ (addWrapped_le _ _) _ _
  · exact .plain hi _ _ _ _ _ _ _

theorem effect_draw (hi : ¬ i.IsWait) (x y : Register) (n : ℕ) :
    m.Effect pad i (m.draw x y n).1 := by
  unfold draw
  dsimp only
  split_ifs
  · exact .plain hi _ _ _ _ _ _ _
  · exact .plain hi _ _ _ _ _ _ _

theorem effect_awaitKey (hi : i.IsWait) (x : Register) : m.Effect pad i (m.awaitKey pad x).1 := by
  unfold awaitKey
  dsimp only
  split
  · exact .caught hi _
  · exact .waiting hi

/-- Carrying an instruction out has one of the effects listed. -/
theorem effect_perform (hc : i.CarriedBy w) : m.Effect pad i (m.perform pad i).1 := by
  by_cases hi : i.IsWait
  · cases i with
    | awaitKey x => exact effect_awaitKey hi x
    | _ => cases hi
  · cases i with
    | ret => exact .ret hi
    | jump nnn => exact .jump hi _ (hc ▸ address_le w)
    | call nnn => exact .call hi _ (hc ▸ address_le w)
    | jumpBy x nnn => exact .jump hi _ (addWrapped_le _ _)
    | skipEqualByte | skipUnequalByte | skipEqual | skipUnequal | skipDown | skipUp =>
      exact effect_skipIf hi _
    | bitOr | bitAnd | bitXor => exact effect_logic hi _ _
    | setIndex nnn => exact .index hi _ (hc ▸ address_le w) _ _
    | addIndex x => exact .index hi _ (addWrapped_le _ _) _ _
    | glyph x => exact .index hi _ (glyph_le _) _ _
    | draw x y n => exact effect_draw hi x y n
    | store | load => exact effect_moveIndex hi _ _ _
    | awaitKey x => exact absurd trivial hi
    | _ => exact .plain hi _ _ _ _ _ _ _

/-- A step that succeeds has the effect of the instruction at the program counter. -/
theorem effect_of_step (h : m.step pad = (m', .ok e)) :
    ∃ i, m.pc ≤ 0xFFE ∧ Instruction.decode m.word = some i ∧ m.advance.Effect pad i m' := by
  obtain ⟨i, hpc, hi, -, hperform⟩ := perform_of_step h
  obtain rfl : (m.advance.perform pad i).1 = m' := congrArg Prod.fst hperform
  exact ⟨i, hpc, hi, effect_perform (Instruction.describes_decode hi).2⟩

/-! ## Addresses stay within memory -/

/-- Every address that the machine holds is one of memory. -/
structure InMemory (m : Machine) : Prop where
  pc_le : m.pc ≤ 0xFFF
  index_le : m.index ≤ 0xFFF
  stack_le : ∀ a ∈ m.stack.toList, a ≤ 0xFFF

theorem mem_toList_pushed {c : CallStack} {a b : UInt16} (h : b ∈ (c.pushed a).toList) :
    b ∈ c.toList ∨ b = a := by
  by_cases hd : c.depth < 16
  · rw [CallStack.toList_pushed hd, List.mem_append, List.mem_singleton] at h
    exact h
  · rw [CallStack.pushed, dif_neg hd] at h
    exact Or.inl h

theorem mem_toList_popped {c : CallStack} {b : UInt16} (h : b ∈ c.popped.toList) :
    b ∈ c.toList := by
  rw [CallStack.toList_popped] at h
  exact List.mem_of_mem_dropLast h

theorem top_le {c : CallStack} {b : UInt16} (h : ∀ a ∈ c.toList, a ≤ b) : c.top ≤ b := by
  unfold CallStack.top
  split_ifs with hd
  · exact UInt16.le_iff_toNat_le.mpr (Nat.zero_le _)
  · have hlt : c.depth - 1 < 16 := by have := c.depth_le; omega
    refine h _ (List.mem_iff_getElem.mpr ⟨c.depth - 1, ?_, ?_⟩)
    · rw [CallStack.toList, List.length_take, Vector.length_toList]
      omega
    · simp only [CallStack.toList, List.getElem_take, Vector.getElem_toList]

theorem inMemory_fresh (settings : Settings) (drawn : ChaCha.Key) :
    (fresh settings drawn).InMemory :=
  ⟨(by decide : (0x200 : UInt16) ≤ 0xFFF), (by decide : (0 : UInt16) ≤ 0xFFF),
    fun a ha => nomatch ha⟩

theorem inMemory_load {program : List UInt8} {settings : Settings} {drawn : ChaCha.Key}
    (h : load program settings drawn = .ok m) :
    m.InMemory ∧ m.dialect = settings.dialect ∧ m.dirty = false ∧ m.keyWait = none := by
  unfold load at h
  split_ifs at h
  cases h
  have hm := inMemory_fresh settings drawn
  exact ⟨⟨hm.pc_le, hm.index_le, hm.stack_le⟩, rfl, rfl, rfl⟩

theorem inMemory_advance (hm : m.InMemory) : m.advance.InMemory :=
  ⟨addWrapped_le _ _, hm.index_le, hm.stack_le⟩

theorem Effect.inMemory (h : m.Effect pad i m') (hm : m.InMemory) : m'.InMemory := by
  cases h with
  | plain => exact ⟨hm.pc_le, hm.index_le, hm.stack_le⟩
  | skip => exact inMemory_advance hm
  | jump _ a ha => exact ⟨ha, hm.index_le, hm.stack_le⟩
  | call _ a ha =>
    refine ⟨ha, hm.index_le, fun b hb => ?_⟩
    rcases mem_toList_pushed hb with hb | rfl
    · exact hm.stack_le b hb
    · exact hm.pc_le
  | ret => exact ⟨top_le hm.stack_le, hm.index_le, fun b hb => hm.stack_le b (mem_toList_popped hb)⟩
  | index _ a ha => exact ⟨hm.pc_le, ha, hm.stack_le⟩
  | caught => exact ⟨hm.pc_le, hm.index_le, hm.stack_le⟩
  | waiting => exact ⟨mod_size_le _, hm.index_le, hm.stack_le⟩

theorem inMemory_of_step (hm : m.InMemory) (h : m.step pad = (m', .ok e)) : m'.InMemory := by
  obtain ⟨i, -, -, heff⟩ := effect_of_step h
  exact heff.inMemory (inMemory_advance hm)

theorem Effect.dialect_eq (h : m.Effect pad i m') : m'.dialect = m.dialect := by
  cases h <;> rfl

theorem dialect_of_step (h : m.step pad = (m', .ok e)) : m'.dialect = m.dialect := by
  obtain ⟨i, -, -, heff⟩ := effect_of_step h
  exact heff.dialect_eq

/-! ## Faults of a machine that stays in memory -/

/-- Counting the timers down has no part in a failure. -/
theorem Fails.tick (h : m.Fails f) : m.tick.Fails f := by
  cases h with
  | fetch hpc => exact .fetch hpc
  | decode hpc hw => exact .decode hpc hw
  | ret hpc hw hd => exact .ret hpc hw hd
  | call hpc hw hd => exact .call hpc hw hd
  | draw hpc hw hI => exact .draw hpc hw hI
  | decimal hpc hw hI => exact .decimal hpc hw hI
  | transfer hpc hw hI => exact .transfer hpc hw hI

/-- The faults of a machine whose addresses are those of memory. -/
theorem Fails.cases_of_inMemory (h : m.Fails f) (hm : m.InMemory) :
    f = .pcOutOfRange 0xFFF ∨ f = .addressOutOfRange 0x1000 ∨ f = .unknownOpcode m.word ∨
      f = .stackOverflow ∨ f = .stackUnderflow := by
  have hmax : max m.index 0x1000 = 0x1000 :=
    if_pos (UInt16.le_trans hm.index_le (by decide))
  cases h with
  | fetch hpc =>
    have hpc' : m.pc = 0xFFF := by
      have hle := UInt16.le_iff_toNat_le.mp hm.pc_le
      have hlt := UInt16.lt_iff_toNat_lt.mp hpc
      exact UInt16.toNat_inj.mp (Nat.le_antisymm hle hlt)
    exact Or.inl (by rw [hpc'])
  | decode => exact Or.inr (Or.inr (Or.inl rfl))
  | ret => exact Or.inr (Or.inr (Or.inr (Or.inr rfl)))
  | call => exact Or.inr (Or.inr (Or.inr (Or.inl rfl)))
  | draw | decimal | transfer => exact Or.inr (Or.inl (by rw [hmax]))

/-! ## A wait stays at its instruction -/

/-- A wait that is going on began at one of the first `edges` edges, and the program counter is at
the instruction that waits. -/
def Waits (m : Machine) (edges : ℕ) : Prop :=
  ∀ p, m.keyWait = some p → p ≤ edges ∧ m.pc ≤ 0xFFE ∧ m.word.fits "Fx0A" = true

theorem Waits.mono {k l : ℕ} (h : m.Waits k) (hkl : k ≤ l) : m.Waits l :=
  fun p hp => ⟨(h p hp).1.trans hkl, (h p hp).2⟩

theorem isWait_of_fits (hi : Instruction.decode w = some i) (hw : w.fits "Fx0A" = true) :
    i.IsWait := by
  have hw' : Instruction.decode w = some (.awaitKey w.x) :=
    Instruction.decode_of_describes ⟨hw, rfl⟩ (by simp [Instruction.form])
  rw [hi] at hw'
  cases hw'
  trivial

theorem fits_of_isWait (hi : Instruction.decode w = some i) (hw : i.IsWait) :
    w.fits "Fx0A" = true := by
  have hfit := (Instruction.describes_decode hi).1
  cases i with
  | awaitKey x => exact hfit
  | _ => cases hw

/-- Only the instruction that waits begins or ends a wait. -/
theorem Effect.keyWait_eq (h : m.Effect pad i m') (hi : ¬ i.IsWait) : m'.keyWait = m.keyWait := by
  cases h with
  | caught hi' | waiting hi' => exact absurd hi' hi
  | _ => rfl

theorem waits_of_step (hm : m.Waits pad.edges) (h : m.step pad = (m', .ok e)) :
    m'.Waits pad.edges := by
  obtain ⟨i, hpc, hi, heff⟩ := effect_of_step h
  intro p hp
  -- A wait that is going on is at its instruction, so it is this one that was executed again; the
  -- number kept is the one of the first time.
  by_cases hw : i.IsWait
  · cases heff with
    | caught => cases hp
    | waiting =>
      obtain rfl : m.keyWait.getD pad.edges = p := Option.some.inj hp
      have hback := pc_advance_sub hpc
      refine ⟨?_, ?_, ?_⟩
      · rcases hk : m.keyWait with _ | q
        · exact le_rfl
        · exact (hm q hk).1
      · show (m.advance.pc - 2) % 0x1000 ≤ 0xFFE
        rw [hback]
        exact hpc
      · show Word.fits (m.memory.wordAt ((m.advance.pc - 2) % 0x1000).toNat) "Fx0A" = true
        rw [hback]
        exact fits_of_isWait hi hw
    | _ hi' => exact absurd hw hi'
  · rw [heff.keyWait_eq hw] at hp
    exact absurd (isWait_of_fits hi (hm p hp).2.2) hw

end

end Machine

end ChipEight
