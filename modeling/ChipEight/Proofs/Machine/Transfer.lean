import ChipEight.Proofs.Machine.Drawing
import ChipEight.Proofs.Machine.Frame

/-!
# Storing and loading registers

The word `Fx55` puts the registers V0 to Vx into memory at I and `Fx65` takes them from there. What
that leaves is `Machine.Stored` and `Machine.Loaded`, down to the single byte and the single
register. A transfer undoes the other one at the same I, and two stores in a row, in a dialect that
moves I, lie side by side. The word `Fx33` puts the digits of a byte into memory, where `F265` finds
them. `transfers_round_trip` says all of this.
-/

namespace ChipEight.Machine

/-- The machine carries a word out, wherever the word comes from, and becomes another one. -/
def Becomes (m : Machine) (w : Word) (m' : Machine) : Prop :=
  ∀ pad, m.execute pad w = (m', .ok .plain)

/-- Where I is after a transfer of V0 to Vx. -/
def indexPast (m : Machine) (x : Register) : ℕ :=
  if m.dialect.transferMovesI then (m.index.toNat + x.val + 1) % 4096 else m.index.toNat

/-- The registers V0 to Vx are found in memory, one byte each from I on, and nothing else has
changed but I. -/
structure Stored (m : Machine) (x : Register) (m' : Machine) : Prop where
  byte_eq : ∀ k ≤ x, m'.memory.peek (m.index.toNat + k.val) = m.v.get k
  rest_eq : ∀ a, (∀ k ≤ x, a ≠ m.index.toNat + k.val) → m'.memory.peek a = m.memory.peek a
  index_eq : m'.index.toNat = m.indexPast x
  frame : m' = { m with memory := m'.memory, index := m'.index }

/-- The bytes of memory from I on are found in the registers V0 to Vx, and nothing else has changed
but I. -/
structure Loaded (m : Machine) (x : Register) (m' : Machine) : Prop where
  register_eq : ∀ k ≤ x, m'.v.get k = m.memory.peek (m.index.toNat + k.val)
  rest_eq : ∀ k, ¬ k ≤ x → m'.v.get k = m.v.get k
  index_eq : m'.index.toNat = m.indexPast x
  frame : m' = { m with v := m'.v, index := m'.index }

section

variable {m m' m₁ m₂ : Machine} {w : Word} {i : Instruction} {x y k : Register}

/-! ## What the words do -/

theorem becomes_of_fits (hfit : w.fits i.form = true) (hcarry : i.CarriedBy w)
    (hform : i.form ≠ "0nnn") (hr : m.refusal i = none)
    (hperform : ∀ pad, m.perform pad i = (m', .plain)) : m.Becomes w m' := by
  intro pad
  have hdecode : Instruction.decode w = some i :=
    Instruction.decode_of_describes ⟨hfit, hcarry⟩ fun h => absurd h hform
  unfold execute
  rw [hdecode]
  dsimp only
  rw [tried_of_none hr, hperform]
  rfl

theorem step_of_becomes (hpc : m.pc ≤ 0xFFE) (h : m.advance.Becomes m.word m') (pad : Keypad) :
    m.step pad = (m', .ok .plain) :=
  step_of_execute hpc (h pad)

/-- The registers and the memory have no part in it. -/
theorem toNat_index_moveIndex {n : Machine} (hindex : n.index = m.index)
    (hdialect : n.dialect = m.dialect) (x : Register) :
    (n.moveIndex (UInt16.ofNat (x.val + 1))).index.toNat = m.indexPast x := by
  have hsum : (addWrapped m.index (UInt16.ofNat (x.val + 1))).toNat =
      (m.index.toNat + x.val + 1) % 4096 := by
    show ((m.index + UInt16.ofNat (x.val + 1)) % 0x1000).toNat = _
    rw [UInt16.toNat_mod, UInt16.toNat_add, UInt16.toNat_ofNat']
    show (m.index.toNat + (x.val + 1) % 65536) % 65536 % 4096 = _
    omega
  unfold moveIndex indexPast
  rw [hdialect, hindex]
  split_ifs
  · exact hsum
  · rw [hindex]

/-- The registers V0 to Vx, each at its own place in a list. -/
theorem getD_take_toList (v : RegisterFile) (h : k ≤ x) :
    (v.toList.take (x.val + 1)).getD k.val 0 = v.get k := by
  have hk : k.val < x.val + 1 := Nat.lt_succ_of_le h
  have hlength : k.val < v.toList.length := by
    rw [Vector.length_toList]
    exact k.isLt
  rw [List.getD_eq_getElem?_getD, List.getElem?_take_of_lt hk, List.getElem?_eq_getElem hlength,
    Option.getD_some, Vector.getElem_toList]
  rfl

theorem stored_of_fits (hw : w.fits "Fx55" = true) (hI : m.index.toNat + w.x.val + 1 ≤ 4096) :
    ∃ m', m.Becomes w m' ∧ m.Stored w.x m' := by
  have hlength : (m.v.toList.take (w.x.val + 1)).length = w.x.val + 1 := by
    rw [List.length_take, Vector.length_toList]
    exact Nat.min_eq_left w.x.isLt
  refine ⟨_, becomes_of_fits (i := .store w.x) hw rfl (by simp [Instruction.form])
    (Memory.rangeFault_eq_none_iff.mpr hI) fun _ => rfl, ?_⟩
  rw [moveIndex_frame]
  constructor
  · intro k hk
    have hk' : k.val ≤ w.x.val := hk
    have hlt : m.index.toNat + k.val < 4096 := by omega
    have hbyte : k.val < (m.v.toList.take (w.x.val + 1)).length := by omega
    exact (Memory.peek_pokes_add m.memory hbyte hlt).trans (getD_take_toList m.v hk)
  · intro a ha
    refine Memory.peek_pokes_of_outside m.memory fun hinside => ?_
    obtain ⟨hle, hlt⟩ := hinside
    rw [hlength] at hlt
    exact ha ⟨a - m.index.toNat, by omega⟩ (Fin.mk_le_of_le_val (by omega)) (by simp; omega)
  · exact toNat_index_moveIndex rfl rfl w.x
  · rfl

theorem get_loaded (m : Machine) (x k : Register) :
    (m.loaded x).get k = if k ≤ x then m.memory.peek (m.index.toNat + k.val) else m.v.get k :=
  Vector.getElem_ofFn k.isLt

theorem loaded_of_fits (hw : w.fits "Fx65" = true) (hI : m.index.toNat + w.x.val + 1 ≤ 4096) :
    ∃ m', m.Becomes w m' ∧ m.Loaded w.x m' := by
  refine ⟨_, becomes_of_fits (i := .load w.x) hw rfl (by simp [Instruction.form])
    (Memory.rangeFault_eq_none_iff.mpr hI) fun _ => rfl, ?_⟩
  rw [moveIndex_frame]
  constructor
  · intro k hk
    exact (get_loaded m w.x k).trans (if_pos hk)
  · intro k hk
    exact (get_loaded m w.x k).trans (if_neg hk)
  · exact toNat_index_moveIndex (m := m) (n := { m with v := m.loaded w.x }) rfl rfl w.x
  · rfl

/-- The decimal digits of a byte are found in memory from I on, and nothing else has changed. -/
theorem becomes_decimal (hw : w.fits "Fx33" = true) (hI : m.index.toNat + 3 ≤ 4096) :
    m.Becomes w { m with
      memory := m.memory.pokes m.index.toNat (decimalDigits (m.v.get w.x)) } :=
  becomes_of_fits (i := .decimal w.x) hw rfl (by simp [Instruction.form])
    (Memory.rangeFault_eq_none_iff.mpr hI) fun _ => rfl

/-! ## One after the other -/

/-- What was stored is found again where it was stored, whatever the registers are by then. -/
theorem Loaded.get_of_stored (hs : m.Stored x m₁) {v : RegisterFile}
    (hl : { m₁ with v, index := m.index }.Loaded x m₂) (hk : k ≤ x) : m₂.v.get k = m.v.get k :=
  (hl.register_eq k hk).trans (hs.byte_eq k hk)

/-- To store what was loaded from the same place changes nothing in memory. -/
theorem Stored.memory_of_loaded (hl : m.Loaded x m₁)
    (hs : { m₁ with index := m.index }.Stored x m₂) : m₂.memory = m.memory := by
  have hmemory : m₁.memory = m.memory := by rw [hl.frame]
  refine Memory.ext_peek fun a => ?_
  by_cases ha : ∃ k ≤ x, a = m.index.toNat + k.val
  · obtain ⟨k, hk, rfl⟩ := ha
    exact (hs.byte_eq k hk).trans (hl.register_eq k hk)
  · have hrest := hs.rest_eq a fun k hk heq => ha ⟨k, hk, heq⟩
    rw [hrest]
    exact congrArg (Memory.peek · a) hmemory

/-- Two blocks of registers in memory, the second one right behind the first or, if the first ends
with memory, at its start. -/
structure SideBySide (m : Machine) (x : Register) (v : RegisterFile) (y : Register)
    (start : ℕ) (m' : Machine) : Prop where
  start_eq : start = (m.index.toNat + x.val + 1) % 4096
  apart : ∀ j ≤ x, ∀ k ≤ y, m.index.toNat + j.val ≠ start + k.val
  first_eq : ∀ k ≤ x, m'.memory.peek (m.index.toNat + k.val) = m.v.get k
  second_eq : ∀ k ≤ y, m'.memory.peek (start + k.val) = v.get k
  rest_eq : ∀ a, (∀ k ≤ x, a ≠ m.index.toNat + k.val) → (∀ k ≤ y, a ≠ start + k.val) →
    m'.memory.peek a = m.memory.peek a

theorem Stored.sideBySide (hmoves : m.dialect.transferMovesI = true) (hs : m.Stored x m₁)
    {v : RegisterFile} (ht : { m₁ with v }.Stored y m₂) :
    m.SideBySide x v y m₁.index.toNat m₂ := by
  have hstart : m₁.index.toNat = (m.index.toNat + x.val + 1) % 4096 :=
    hs.index_eq.trans (if_pos hmoves)
  have hx := x.isLt
  have hy := y.isLt
  have hapart : ∀ j ≤ x, ∀ k ≤ y, m.index.toNat + j.val ≠ m₁.index.toNat + k.val := by
    intro j hj k hk
    have hj' : j.val ≤ x.val := hj
    have hk' : k.val ≤ y.val := hk
    omega
  refine ⟨hstart, hapart, fun k hk => ?_, ht.byte_eq, fun a hfirst hsecond => ?_⟩
  · rw [ht.rest_eq _ (hapart k hk)]
    exact hs.byte_eq k hk
  · rw [ht.rest_eq a hsecond]
    exact hs.rest_eq a hfirst

/-- The digits of a byte are those of the number that it is. -/
theorem digits_eq (b : UInt8) :
    (b / 100).toNat ≤ 9 ∧ (b / 10 % 10).toNat ≤ 9 ∧ (b % 10).toNat ≤ 9 ∧
      100 * (b / 100).toNat + 10 * (b / 10 % 10).toNat + (b % 10).toNat = b.toNat := by
  have hb := b.toNat_lt
  have h100 : (100 : UInt8).toNat = 100 := rfl
  have h10 : (10 : UInt8).toNat = 10 := rfl
  rw [UInt8.toNat_mod, UInt8.toNat_mod, UInt8.toNat_div, UInt8.toNat_div, h100, h10]
  omega

/-- The digits of a byte are found where they were written. -/
theorem Loaded.get_of_decimal {b : UInt8} (hI : m.index.toNat + 3 ≤ 4096)
    (hl : { m with memory := m.memory.pokes m.index.toNat (decimalDigits b) }.Loaded 2 m₂) :
    m₂.v.get 0 = b / 100 ∧ m₂.v.get 1 = b / 10 % 10 ∧ m₂.v.get 2 = b % 10 := by
  have hdigit : ∀ k : Register, k ≤ 2 → m₂.v.get k = (decimalDigits b).getD k.val 0 := by
    intro k hk
    have hk' : k.val ≤ 2 := hk
    have hlt : m.index.toNat + k.val < 4096 := by omega
    have hbyte : k.val < (decimalDigits b).length := Nat.lt_succ_of_le hk'
    exact (hl.register_eq k hk).trans (Memory.peek_pokes_add m.memory hbyte hlt)
  exact ⟨hdigit 0 (by decide), hdigit 1 (by decide), hdigit 2 (by decide)⟩

/-- **Transfers undo each other.** Storing and loading V0 to Vx are what they should be, to the byte
and to the register, wherever the block lies in memory. So registers that are stored come back when
they are loaded from the same place, whatever they held in between, and to load registers and store
them at the same place leaves memory as it was. Where I moves on, two stores in a row make two
blocks side by side, and I comes to zero only if the first block ends with memory. The digits that
`Fx33` writes and `F265` reads are those of the number in Vx. And a step at any of these words does
the same once the program counter is past it. -/
theorem transfers_round_trip (m : Machine) :
    (∀ w : Word, w.fits "Fx55" = true → m.index.toNat + w.x.val + 1 ≤ 4096 →
      ∃ m', m.Becomes w m' ∧ m.Stored w.x m') ∧
    (∀ w : Word, w.fits "Fx65" = true → m.index.toNat + w.x.val + 1 ≤ 4096 →
      ∃ m', m.Becomes w m' ∧ m.Loaded w.x m') ∧
    (∀ s l : Word, s.fits "Fx55" = true → l.fits "Fx65" = true → l.x = s.x →
      m.index.toNat + s.x.val + 1 ≤ 4096 →
      (∃ m₁, m.Becomes s m₁ ∧ ∀ v, ∃ m₂, { m₁ with v, index := m.index }.Becomes l m₂ ∧
        ∀ k ≤ s.x, m₂.v.get k = m.v.get k) ∧
      ∃ m₁, m.Becomes l m₁ ∧ ∃ m₂, { m₁ with index := m.index }.Becomes s m₂ ∧
        m₂.memory = m.memory) ∧
    (∀ s t : Word, s.fits "Fx55" = true → t.fits "Fx55" = true →
      m.dialect.transferMovesI = true → m.index.toNat + s.x.val + 1 ≤ 4096 →
      ∃ m₁, m.Becomes s m₁ ∧ m.Stored s.x m₁ ∧
        (m₁.index = 0 ↔ m.index.toNat + s.x.val = 0xFFF) ∧
        (m₁.index.toNat + t.x.val + 1 ≤ 4096 → ∀ v, ∃ m₂, { m₁ with v }.Becomes t m₂ ∧
          m.SideBySide s.x v t.x m₁.index.toNat m₂)) ∧
    (∀ d : Word, d.fits "Fx33" = true → m.index.toNat + 3 ≤ 4096 →
      ∃ m₁, m.Becomes d m₁ ∧ ∃ m₂, m₁.Becomes 0xF265 m₂ ∧
        (m₂.v.get 0).toNat ≤ 9 ∧ (m₂.v.get 1).toNat ≤ 9 ∧ (m₂.v.get 2).toNat ≤ 9 ∧
        100 * (m₂.v.get 0).toNat + 10 * (m₂.v.get 1).toNat + (m₂.v.get 2).toNat =
          (m.v.get d.x).toNat) ∧
    ∀ (n m' : Machine) (pad : Keypad), n.advance = m → n.pc ≤ 0xFFE → m.Becomes n.word m' →
      n.step pad = (m', .ok .plain) := by
  refine ⟨fun w hw hI => stored_of_fits hw hI, fun w hw hI => loaded_of_fits hw hI,
    fun s l hs hl hx hI => ⟨?_, ?_⟩, fun s t hs ht hmoves hI => ?_, fun d hd hI => ?_, ?_⟩
  · obtain ⟨m₁, hm₁, hstored⟩ := stored_of_fits hs hI
    refine ⟨m₁, hm₁, fun v => ?_⟩
    obtain ⟨m₂, hm₂, hloaded⟩ :=
      loaded_of_fits (m := { m₁ with v, index := m.index }) hl (by rw [hx]; exact hI)
    rw [hx] at hloaded
    exact ⟨m₂, hm₂, fun k hk => hloaded.get_of_stored hstored hk⟩
  · obtain ⟨m₁, hm₁, hloaded⟩ := loaded_of_fits hl (by rw [hx]; exact hI)
    obtain ⟨m₂, hm₂, hstored⟩ := stored_of_fits (m := { m₁ with index := m.index }) hs hI
    rw [hx] at hloaded
    exact ⟨m₁, hm₁, m₂, hm₂, hstored.memory_of_loaded hloaded⟩
  · obtain ⟨m₁, hm₁, hfirst⟩ := stored_of_fits hs hI
    have hindex : m₁.index.toNat = (m.index.toNat + s.x.val + 1) % 4096 :=
      hfirst.index_eq.trans (if_pos hmoves)
    refine ⟨m₁, hm₁, hfirst, ?_, fun hI₁ v => ?_⟩
    · rw [← UInt16.toNat_inj, hindex]
      show (m.index.toNat + s.x.val + 1) % 4096 = 0 ↔ m.index.toNat + s.x.val = 4095
      omega
    · obtain ⟨m₂, hm₂, hsecond⟩ := stored_of_fits (m := { m₁ with v }) ht hI₁
      exact ⟨m₂, hm₂, hfirst.sideBySide hmoves hsecond⟩
  · refine ⟨_, becomes_decimal hd hI, ?_⟩
    obtain ⟨m₂, hm₂, hloaded⟩ := loaded_of_fits (w := 0xF265)
      (m := { m with memory := m.memory.pokes m.index.toNat (decimalDigits (m.v.get d.x)) })
      (by decide) hI
    obtain ⟨h0, h1, h2⟩ := hloaded.get_of_decimal hI
    refine ⟨m₂, hm₂, ?_⟩
    rw [h0, h1, h2]
    exact digits_eq _
  · rintro n m' pad rfl hpc h
    exact step_of_becomes hpc h pad

/-- Three registers are stored in the last three bytes of memory, so that two more go to its start;
they come back into a register file that was cleared; and the digits of the largest of them are
read back. -/
theorem transfers_round_trip_end_of_memory :
    let settings : Settings := { dialect := { transferMovesI := true }, seed := some 7 }
    let m : Machine :=
      { (((fresh settings default).putV 0 17).putV 1 34).putV 2 233 with index := 0xFFD }
    let s : Word := 0xF255
    let l : Word := 0xF265
    let t : Word := 0xF155
    let d : Word := 0xF233
    (s.fits "Fx55" = true ∧ l.fits "Fx65" = true ∧ t.fits "Fx55" = true ∧ d.fits "Fx33" = true ∧
      l.x = s.x ∧ m.dialect.transferMovesI = true ∧ m.index.toNat + s.x.val + 1 ≤ 4096 ∧
      m.index.toNat + 3 ≤ 4096) ∧
    (∃ m₁ m₂, m.Becomes s m₁ ∧
      { m₁ with v := Vector.replicate 16 0, index := m.index }.Becomes l m₂ ∧
      m₂.v.get 2 = 233) ∧
    (∃ m₁ m₂, m.Becomes s m₁ ∧ m₁.index = 0 ∧ m₁.Becomes t m₂ ∧ m₂.memory.peek 0xFFF = 233 ∧
      m₂.memory.peek 0 = 17 ∧ m₂.memory.peek 1 = 34 ∧ m₂.memory.peek 2 = 0x90) ∧
    ∃ m₁ m₂, m.Becomes d m₁ ∧ m₁.Becomes l m₂ ∧
      100 * (m₂.v.get 0).toNat + 10 * (m₂.v.get 1).toNat + (m₂.v.get 2).toNat = 233 := by
  intro settings m s l t d
  have hs : s.fits "Fx55" = true := by decide
  have hl : l.fits "Fx65" = true := by decide
  have ht : t.fits "Fx55" = true := by decide
  have hd : d.fits "Fx33" = true := by decide
  have hI : m.index.toNat + s.x.val + 1 ≤ 4096 := by decide
  obtain ⟨-, -, htransfers, hblocks, hdigits, -⟩ := transfers_round_trip m
  have hx : l.x = s.x := by decide
  refine ⟨⟨hs, hl, ht, hd, hx, rfl, hI, by decide⟩, ?_, ?_, ?_⟩
  · obtain ⟨⟨m₁, hm₁, hback⟩, -⟩ := htransfers s l hs hl hx hI
    obtain ⟨m₂, hm₂, hsame⟩ := hback (Vector.replicate 16 0)
    exact ⟨m₁, m₂, hm₁, hm₂, hsame 2 (by decide)⟩
  · obtain ⟨m₁, hm₁, hstored, hzero, hsecond⟩ := hblocks s t hs ht rfl hI
    have hindex : m₁.index = 0 := hzero.mpr (by decide)
    obtain ⟨m₂, hm₂, hside⟩ := hsecond (by rw [hindex]; decide) m₁.v
    have hv : m₁.v = m.v := by rw [hstored.frame]
    rw [hindex] at hside
    refine ⟨m₁, m₂, hm₁, hindex, hm₂, hside.first_eq 2 (by decide), ?_, ?_, ?_⟩
    · exact (hside.second_eq 0 (by decide)).trans (by rw [hv]; rfl)
    · exact (hside.second_eq 1 (by decide)).trans (by rw [hv]; rfl)
    · refine (hside.rest_eq 2 (by decide) (by decide)).trans ?_
      decide +kernel
  · obtain ⟨m₁, hm₁, m₂, hm₂, -, -, -, hsum⟩ := hdigits d hd (by decide)
    exact ⟨m₁, m₂, hm₁, hm₂, hsum.trans (by decide)⟩

end

end ChipEight.Machine
