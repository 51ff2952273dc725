import ChipEight.Proofs.Machine.Effect

/-!
# A step that could crash

`Machine.guardedStep` is a step on a machine whose arrays have ends and whose numbers have sizes. It
looks every byte of memory and every slot of the call stack up by its index, it forms every sum that
is not counted round, and it crashes (`none`) where an index lies outside of its array or a sum does
not fit. It also works in place: the program counter is moved before the instruction is carried out
and put back if it is refused. Registers, keys and pixels need no guard, for a register and a key
are named by a number below sixteen and pixels are counted round the edges.

`guardedStep_eq` says that no step crashes, and that working in place makes no difference. So a step
that fails leaves the whole machine as it was, the program counter included, and it fails in the
ways of `Machine.Fails` (`step_eq_error_iff`).
-/

namespace ChipEight

/-- A number, if it is below a bound. -/
def bounded (bound n : ℕ) : Option ℕ := if n < bound then some n else none

theorem bounded_of_lt {bound n : ℕ} (h : n < bound) : bounded bound n = some n := if_pos h

namespace Memory

/-- The `len` bytes from `a` on, each looked up by its index. -/
def slice (m : Memory) (a : ℕ) : ℕ → Option (List UInt8)
  | 0 => some []
  | len + 1 => do
    let b ← m.bytes[a]?
    let bs ← m.slice (a + 1) len
    some (b :: bs)

/-- Memory with a run of bytes put at `a`, each by its index. -/
def splice (m : Memory) (a : ℕ) : List UInt8 → Option Memory
  | [] => some m
  | b :: bs => if h : a < size then splice ⟨m.bytes.set a b⟩ (a + 1) bs else none

/-- What an access to a range answers, if its end can be counted. -/
def guardedFault (a : UInt16) (len : ℕ) : Option (Option Fault) := do
  let stop ← bounded (2 ^ 64) (a.toNat + len)
  some (if stop ≤ size then none else some (.addressOutOfRange (max a 0x1000)))

variable {m : Memory} {a : ℕ}

theorem peeks_succ (m : Memory) (a len : ℕ) :
    m.peeks a (len + 1) = m.peek a :: m.peeks (a + 1) len := by
  simp only [peeks, List.range_succ_eq_map, List.map_cons, List.map_map, Nat.add_zero]
  refine congrArg _ (List.map_congr_left fun k _ => ?_)
  rw [Function.comp_apply, Nat.succ_eq_add_one, Nat.add_right_comm a 1 k, Nat.add_assoc]

theorem slice_eq {len : ℕ} (h : a + len ≤ size) : m.slice a len = some (m.peeks a len) := by
  induction len generalizing a with
  | zero => rfl
  | succ len ih =>
    have ha : a < size := by omega
    have hb : m.bytes[a]? = some (m.peek a) := by
      rw [Vector.getElem?_eq_getElem ha, peek, dif_pos ha]
    rw [peeks_succ, slice, hb, ih (by omega)]
    rfl

theorem splice_eq {bs : List UInt8} (h : a + bs.length ≤ size) :
    m.splice a bs = some (m.pokes a bs) := by
  induction bs generalizing m a with
  | nil => rfl
  | cons b bs ih =>
    rw [List.length_cons] at h
    have ha : a < size := by omega
    rw [splice, dif_pos ha, ih (by omega), pokes, poke, dif_pos ha]

theorem guardedFault_eq {a : UInt16} {len : ℕ} (h : a.toNat + len < 2 ^ 64) :
    guardedFault a len = some (rangeFault a len) := by
  rw [guardedFault, bounded_of_lt h]
  rfl

end Memory

namespace Machine

/-- Turns over the pixels of a stencil; VF says whether one of them was lit. -/
def drawStencil (m : Machine) (s : Picture) : Machine × Outcome :=
  let hit := !(m.picture.inter s).isBlank
  let m := { m with picture := m.picture.xor s }.putFlag hit
  if s.isBlank then (m, .plain) else ({ m with dirty := true }, .drawn)

/-- What came of an instruction that was carried out. -/
def done (r : Machine × Outcome) : Machine × Except Fault Outcome := (r.1, .ok r.2)

/-- Does something with the `len` bytes at I, if they are all there. -/
def guardedAccess (m : Machine) (len : ℕ) (act : Option (Machine × Outcome)) :
    Option (Machine × Except Fault Outcome) := do
  let fault ← Memory.guardedFault m.index len
  match fault with
  | some f => some (m, .error f)
  | none => done <$> act

/-- Carries an instruction out, with the program counter already past it, or refuses it. -/
def guardedPerform (m : Machine) (pad : Keypad) (i : Instruction) :
    Option (Machine × Except Fault Outcome) :=
  match i with
  | .ret =>
    if m.stack.depth = 0 then some (m, .error .stackUnderflow)
    else do
      let a ← m.stack.slots[m.stack.depth - 1]?
      some (done ({ m with pc := a, stack := m.stack.popped }, .plain))
  | .call nnn =>
    if 16 ≤ m.stack.depth then some (m, .error .stackOverflow)
    else do
      let _slot ← bounded 16 m.stack.depth
      let _depth ← bounded (2 ^ 8) (m.stack.depth + 1)
      some (done ({ m with stack := m.stack.pushed m.pc, pc := nnn }, .plain))
  | .jumpBy x nnn => do
    let offset := if m.dialect.jumpReadsVx then m.v.get x else m.v.get ⟨0, Nat.succ_pos 15⟩
    let a ← bounded (2 ^ 16) (nnn.toNat + offset.toNat)
    some (done ({ m with pc := UInt16.ofNat a % 0x1000 }, .plain))
  | .glyph x => do
    let a ← bounded (2 ^ 16) ((m.v.get x).toNat % 16 * Font.glyphSize)
    some (done ({ m with index := UInt16.ofNat a }, .plain))
  | .draw x y n => do
    let height ← bounded 16 n
    m.guardedAccess height do
      let bytes ← m.memory.slice m.index.toNat height
      some (m.drawStencil (Sprite.stencil m.dialect.clipsSprites
        ((m.v.get x).toNat % Picture.width) ((m.v.get y).toNat % Picture.height) bytes))
  | .decimal x =>
    m.guardedAccess 3 do
      let memory ← m.memory.splice m.index.toNat (decimalDigits (m.v.get x))
      some ({ m with memory }, .plain)
  | .store x => do
    let count ← bounded 17 (x.val + 1)
    m.guardedAccess count do
      let memory ← m.memory.splice m.index.toNat (m.v.toList.take count)
      some ({ m with memory }.moveIndex (UInt16.ofNat count), .plain)
  | .load x => do
    let count ← bounded 17 (x.val + 1)
    m.guardedAccess count do
      let bytes ← m.memory.slice m.index.toNat count
      let v := Vector.ofFn fun k => bytes[k.val]?.getD (m.v.get k)
      some ({ m with v }.moveIndex (UInt16.ofNat count), .plain)
  | i => some (done (m.perform pad i))

/-- Decodes a word and carries it out in place. -/
def guardedExecute (m : Machine) (pad : Keypad) (w : Word) :
    Option (Machine × Except Fault Outcome) :=
  match Instruction.decode w with
  | none => some (m, .error (.unknownOpcode w))
  | some i => do
    let pc ← bounded (2 ^ 16) (m.pc.toNat + 2)
    let (m', r) ← { m with pc := UInt16.ofNat pc % 0x1000 }.guardedPerform pad i
    match r with
    | .ok e => some (m', .ok e)
    | .error f => some ({ m' with pc := m.pc }, .error f)

/-- Executes the instruction at the program counter, or crashes. -/
def guardedStep (m : Machine) (pad : Keypad) : Option (Machine × Except Fault Outcome) :=
  if 0xFFE < m.pc then some (m, .error (.pcOutOfRange m.pc))
  else do
    let bytes ← m.memory.slice m.pc.toNat 2
    let high ← bytes[0]?
    let low ← bytes[1]?
    m.guardedExecute pad (high.toUInt16 * 256 + low.toUInt16)

section

variable {m : Machine} {pad : Keypad} {i : Instruction} {w : Word}

/-- An instruction that is refused changes nothing; any other is carried out. -/
def tried (m : Machine) (pad : Keypad) (i : Instruction) : Machine × Except Fault Outcome :=
  match m.refusal i with
  | some f => (m, .error f)
  | none => done (m.perform pad i)

theorem tried_of_refusal {f : Fault} (h : m.refusal i = some f) :
    m.tried pad i = (m, .error f) := by
  unfold tried
  rw [h]

theorem tried_of_none (h : m.refusal i = none) : m.tried pad i = done (m.perform pad i) := by
  unfold tried
  rw [h]

theorem loaded_eq (x : Register) :
    m.loaded x = Vector.ofFn fun k =>
      (m.memory.peeks m.index.toNat (x.val + 1))[k.val]?.getD (m.v.get k) := by
  unfold loaded
  congr 1
  funext k
  rw [Memory.peeks, List.getElem?_map]
  by_cases hk : k ≤ x
  · have hlt : k.val < x.val + 1 := Nat.lt_succ_of_le hk
    rw [if_pos hk, List.getElem?_range hlt]
    rfl
  · have hle : x.val + 1 ≤ k.val := Nat.lt_of_not_le hk
    rw [if_neg hk, List.getElem?_eq_none (by rwa [List.length_range])]
    rfl

theorem guardedPerform_ret : m.guardedPerform pad .ret = some (m.tried pad .ret) := by
  simp only [guardedPerform]
  by_cases hd : m.stack.depth = 0
  · have hr : m.refusal .ret = some .stackUnderflow := if_pos hd
    rw [if_pos hd, tried_of_refusal hr]
  · have hr : m.refusal .ret = none := if_neg hd
    have hlt : m.stack.depth - 1 < 16 := by have := m.stack.depth_le; omega
    have htop : m.stack.top = m.stack.slots[m.stack.depth - 1] := dif_neg hd
    rw [if_neg hd, tried_of_none hr, Vector.getElem?_eq_getElem hlt, ← htop]
    rfl

theorem guardedPerform_call (nnn : UInt16) :
    m.guardedPerform pad (.call nnn) = some (m.tried pad (.call nnn)) := by
  have hle := m.stack.depth_le
  simp only [guardedPerform]
  by_cases hd : m.stack.depth = 16
  · have hr : m.refusal (.call nnn) = some .stackOverflow := if_pos hd
    rw [if_pos hd.ge, tried_of_refusal hr]
  · have hr : m.refusal (.call nnn) = none := if_neg hd
    rw [if_neg (by omega), tried_of_none hr, bounded_of_lt (by omega), bounded_of_lt (by omega)]
    rfl

theorem guardedPerform_jumpBy (x : Register) {nnn : UInt16} (h : nnn ≤ 0xFFF) :
    m.guardedPerform pad (.jumpBy x nnn) = some (m.tried pad (.jumpBy x nnn)) := by
  have h' : nnn.toNat ≤ 4095 := UInt16.le_iff_toNat_le.mp h
  rw [tried_of_none rfl]
  have hget : (if m.dialect.jumpReadsVx = true then m.v.get x else m.v.get ⟨0, Nat.succ_pos 15⟩) =
      if m.dialect.jumpReadsVx = true then m.v[x] else m.v[0] := rfl
  simp only [guardedPerform, perform, addWrapped, hget]
  generalize (if m.dialect.jumpReadsVx = true then m.v[x] else m.v[0]) = offset
  have ho := offset.toNat_lt
  rw [bounded_of_lt (by omega), Option.bind_eq_bind, Option.bind_some, UInt16.ofNat_add,
    UInt16.ofNat_toNat, UInt16.ofNat_uInt8ToNat]

theorem guardedPerform_glyph (x : Register) :
    m.guardedPerform pad (.glyph x) = some (m.tried pad (.glyph x)) := by
  rw [tried_of_none rfl]
  simp only [guardedPerform, perform, Font.address, Font.glyphSize]
  have hlt : m.v[x].toNat % 16 < 16 := Nat.mod_lt _ (by decide)
  rw [bounded_of_lt (by omega), Option.bind_eq_bind, Option.bind_some, UInt16.ofNat_mul,
    ← UInt16.ofNat_uInt8ToNat, UInt8.toNat_mod]
  rfl

/-- An instruction that is refused for its range alone, and otherwise finds every byte of it. -/
theorem guardedAccess_eq {len : ℕ} {act : Option (Machine × Outcome)} (hlen : len ≤ 16)
    (hr : m.refusal i = Memory.rangeFault m.index len)
    (hact : m.index.toNat + len ≤ Memory.size → act = some (m.perform pad i)) :
    m.guardedAccess len act = some (m.tried pad i) := by
  have hindex := m.index.toNat_lt
  unfold guardedAccess
  rw [Memory.guardedFault_eq (by omega), Option.bind_eq_bind, Option.bind_some]
  rcases hf : Memory.rangeFault m.index len with _ | f
  · rw [tried_of_none (hr.trans hf), hact (Memory.rangeFault_eq_none_iff.mp hf)]
    rfl
  · rw [tried_of_refusal (hr.trans hf)]

theorem guardedPerform_draw (x y : Register) (n : Fin 16) :
    m.guardedPerform pad (.draw x y n) = some (m.tried pad (.draw x y n)) := by
  simp only [guardedPerform]
  rw [bounded_of_lt n.isLt, Option.bind_eq_bind, Option.bind_some]
  refine guardedAccess_eq n.isLt.le rfl fun hle => ?_
  rw [Memory.slice_eq hle]
  rfl

theorem guardedPerform_decimal (x : Register) :
    m.guardedPerform pad (.decimal x) = some (m.tried pad (.decimal x)) := by
  simp only [guardedPerform]
  refine guardedAccess_eq (by decide) rfl fun hle => ?_
  have hle' : m.index.toNat + (decimalDigits (m.v.get x)).length ≤ Memory.size := hle
  rw [Memory.splice_eq hle']
  rfl

theorem guardedPerform_store (x : Register) :
    m.guardedPerform pad (.store x) = some (m.tried pad (.store x)) := by
  simp only [guardedPerform]
  rw [bounded_of_lt (by omega), Option.bind_eq_bind, Option.bind_some]
  refine guardedAccess_eq (by omega) rfl fun hle => ?_
  have hle' : m.index.toNat + (m.v.toList.take (x.val + 1)).length ≤ Memory.size := by
    rw [List.length_take, Vector.length_toList]
    omega
  rw [Memory.splice_eq hle']
  rfl

theorem guardedPerform_load (x : Register) :
    m.guardedPerform pad (.load x) = some (m.tried pad (.load x)) := by
  simp only [guardedPerform]
  rw [bounded_of_lt (by omega), Option.bind_eq_bind, Option.bind_some]
  refine guardedAccess_eq (by omega) rfl fun hle => ?_
  rw [Memory.slice_eq hle, Option.bind_eq_bind, Option.bind_some, ← loaded_eq]
  rfl

theorem guardedPerform_eq (hc : i.CarriedBy w) :
    m.guardedPerform pad i = some (m.tried pad i) := by
  cases i with
  | ret => exact guardedPerform_ret
  | call nnn => exact guardedPerform_call nnn
  | jumpBy x nnn => exact guardedPerform_jumpBy x (hc.2 ▸ address_le w)
  | glyph x => exact guardedPerform_glyph x
  | draw x y n => exact guardedPerform_draw x y n
  | decimal x => exact guardedPerform_decimal x
  | store x => exact guardedPerform_store x
  | load x => exact guardedPerform_load x
  | _ => rfl

/-! ## The whole step -/

theorem step_of_decode (hpc : m.pc ≤ 0xFFE) (hi : Instruction.decode m.word = some i) :
    m.step pad =
      match m.advance.tried pad i with
      | (m', .ok e) => (m', .ok e)
      | (m', .error f) => ({ m' with pc := m.pc }, .error f) := by
  have hsame : m.advance.refusal i = m.refusal i := by cases i <;> rfl
  unfold step
  rw [fetch_of_decode hpc hi]
  rcases hr : m.refusal i with _ | f
  · rw [tried_of_none (hsame.trans hr)]
    simp only [hr]
    rfl
  · rw [tried_of_refusal (hsame.trans hr)]
    simp only [hr]
    rfl

theorem guardedExecute_eq (hpc : m.pc ≤ 0xFFE) :
    m.guardedExecute pad m.word = some (m.step pad) := by
  have hle : m.pc.toNat ≤ 4094 := UInt16.le_iff_toNat_le.mp hpc
  unfold guardedExecute
  rcases hi : Instruction.decode m.word with _ | i
  · rw [step_of_fetch (fetch_of_decode_none hpc hi)]
  · have hadv : { m with pc := UInt16.ofNat (m.pc.toNat + 2) % 0x1000 } = m.advance := by
      rw [UInt16.ofNat_add, UInt16.ofNat_toNat]
      rfl
    simp only [bounded_of_lt (show m.pc.toNat + 2 < 2 ^ 16 by omega), Option.bind_eq_bind,
      Option.bind_some, hadv, guardedPerform_eq (Instruction.describes_decode hi).2,
      step_of_decode hpc hi]
    rcases m.advance.tried pad i with ⟨m', f | e⟩
    · rfl
    · rfl

/-- **No step crashes.** Whatever the state of the machine, every index that a step looks up lies
inside of its array and every sum fits; and a step that works in place, and puts the program counter
back if the instruction is refused, is the step of the machine. -/
theorem guardedStep_eq (m : Machine) (pad : Keypad) : m.guardedStep pad = some (m.step pad) := by
  unfold guardedStep
  by_cases hpc : 0xFFE < m.pc
  · rw [if_pos hpc, step_of_fetch (fetch_of_lt hpc)]
  · have hpc' := UInt16.not_lt.mp hpc
    have hle : m.pc.toNat ≤ 4094 := UInt16.le_iff_toNat_le.mp hpc'
    have hsize : m.pc.toNat + 2 ≤ Memory.size := Nat.add_le_add_right hle 2
    rw [if_neg hpc, Memory.slice_eq hsize]
    exact guardedExecute_eq hpc'

/-- **A step fails exactly when it must, and then changes nothing.** It fails with `f` exactly in
the ways listed, and it fails with `f` exactly by giving back the machine it was given. A step that
works in place fails with `f` in the same ways and leaves that machine, too. -/
theorem step_eq_error_iff (m : Machine) (pad : Keypad) (f : Fault) :
    ((m.step pad).2 = .error f ↔ m.Fails f) ∧ (m.step pad = (m, .error f) ↔ m.Fails f) ∧
      ∀ m', m.guardedStep pad = some (m', .error f) ↔ m' = m ∧ m.Fails f := by
  refine ⟨⟨fails_of_step, fun h => by rw [step_of_fails h pad]⟩,
    ⟨fun h => fails_of_step (congrArg Prod.snd h), fun h => step_of_fails h pad⟩, fun m' => ?_⟩
  rw [guardedStep_eq, Option.some_inj]
  constructor
  · intro h
    exact ⟨eq_of_step_error h, fails_of_step (congrArg Prod.snd h)⟩
  · rintro ⟨rfl, hfails⟩
    exact step_of_fails hfails pad

end

end Machine

end ChipEight
