import ChipEight.Proofs.Machine.Effect
import ChipEight.Proofs.Machine.Nesting

/-!
# What a step touches

`Machine.Part` takes the machine apart into the smallest parts that an instruction can write: single
registers, single bytes of memory, single slots of the call stack. With the program counter they are
the whole machine (`eq_of_same`). `Machine.Touches` says by the form of the word at the program
counter which parts a step may write, and `Machine.GoesOn` where the program counter goes. Every
step that succeeds keeps to both (`step_keeps_to_footprint`), also one that writes to the code it is
part of.
-/

namespace ChipEight

/-- A word is of one of several forms. -/
def Word.fitsAny (w : Word) (forms : List String) : Bool := forms.any w.fits

theorem fitsAny_of_mem {w : Word} {f : String} {forms : List String} (hw : w.fits f = true)
    (hf : f ∈ forms) : w.fitsAny forms = true :=
  List.any_eq_true.mpr ⟨f, hf, hw⟩

theorem fitsAny_iff_form_mem {w : Word} {i : Instruction} (hi : Instruction.decode w = some i)
    {forms : List String} (hforms : ∀ f ∈ forms, f ∈ standardForms ∧ f ≠ "0nnn") :
    w.fitsAny forms = true ↔ i.form ∈ forms := by
  rw [Word.fitsAny, List.any_eq_true]
  constructor
  · rintro ⟨f, hf, hfit⟩
    rw [(fits_iff_form_eq hi (hforms f hf).1 (hforms f hf).2).mp hfit]
    exact hf
  · intro hmem
    exact ⟨i.form, hmem, (Instruction.describes_decode hi).1⟩

namespace Machine

/-- A part of the machine other than the program counter. -/
inductive Part where
  | register (k : Register)
  | index
  | byte (a : ℕ)
  | slot (k : Fin 16)
  | depth
  | picture
  | dirty
  | delay
  | sound
  | keyWait
  | random
  | dialect
  deriving DecidableEq

/-- The part is the same in both machines. -/
def Part.Same (m m' : Machine) : Part → Prop
  | .register k => m'.v.get k = m.v.get k
  | .index => m'.index = m.index
  | .byte a => m'.memory.peek a = m.memory.peek a
  | .slot k => m'.stack.slots.get k = m.stack.slots.get k
  | .depth => m'.stack.depth = m.stack.depth
  | .picture => m'.picture = m.picture
  | .dirty => m'.dirty = m.dirty
  | .delay => m'.delay = m.delay
  | .sound => m'.sound = m.sound
  | .keyWait => m'.keyWait = m.keyWait
  | .random => m'.random = m.random
  | .dialect => m'.dialect = m.dialect

/-- The parts and the program counter are the whole machine. -/
theorem eq_of_same {m m' : Machine} (h : ∀ p : Part, p.Same m m') (hpc : m'.pc = m.pc) :
    m' = m := by
  have hv : m'.v = m.v := Vector.ext fun k hk => h (.register ⟨k, hk⟩)
  have hmemory : m'.memory = m.memory := Memory.ext_peek fun a => h (.byte a)
  have hslots : m'.stack.slots = m.stack.slots := Vector.ext fun k hk => h (.slot ⟨k, hk⟩)
  have hdepth : m'.stack.depth = m.stack.depth := h .depth
  have hstack : m'.stack = m.stack := by
    cases hs' : m'.stack
    cases hs : m.stack
    rw [hs', hs] at hslots hdepth
    cases hslots
    cases hdepth
    rfl
  cases m
  cases m'
  simp only [mk.injEq]
  exact ⟨hv, h .index, hpc, hstack, h .delay, h .sound, hmemory, h .picture,
    h .dirty, h .keyWait, h .dialect, h .random⟩

/-- The words that put something into Vx. -/
def resultForms : List String :=
  ["6xkk", "7xkk", "8xy0", "8xy1", "8xy2", "8xy3", "8xy4", "8xy5", "8xy6", "8xy7", "8xyE", "Cxkk",
   "Fx07"]

/-- The words that put a flag into VF. -/
def flagForms : List String := ["8xy4", "8xy5", "8xy6", "8xy7", "8xyE", "Dxyn"]

/-- The words that put a flag into VF in dialects in which a logical operation clears it. -/
def logicForms : List String := ["8xy1", "8xy2", "8xy3"]

/-- A step with an outcome may write a part of the machine. -/
def Touches (m : Machine) (e : Outcome) : Part → Prop
  | .register k =>
    (k = m.word.x ∧
        (m.word.fitsAny resultForms = true ∨ m.word.fits "Fx0A" = true ∧ e ≠ .waiting)) ∨
      (k = Fin.last 15 ∧
        (m.word.fitsAny flagForms = true ∨
          m.dialect.logicClearsFlag = true ∧ m.word.fitsAny logicForms = true)) ∨
      (k ≤ m.word.x ∧ m.word.fits "Fx65" = true)
  | .index =>
    m.word.fitsAny ["Annn", "Fx1E", "Fx29"] = true ∨
      m.dialect.transferMovesI = true ∧ m.word.fitsAny ["Fx55", "Fx65"] = true
  | .byte a =>
    m.index.toNat ≤ a ∧
      (m.word.fits "Fx33" = true ∧ a < m.index.toNat + 3 ∨
        m.word.fits "Fx55" = true ∧ a < m.index.toNat + m.word.x.val + 1)
  | .slot k => m.word.fits "2nnn" = true ∧ k.val = m.stack.depth
  | .depth => m.word.fitsAny ["2nnn", "00EE"] = true
  | .picture | .dirty => m.word.fitsAny ["00E0", "Dxyn"] = true
  | .delay => m.word.fits "Fx15" = true
  | .sound => m.word.fits "Fx18" = true
  | .keyWait => m.word.fits "Fx0A" = true
  | .random => m.word.fits "Cxkk" = true
  | .dialect => False

/-- The word at the program counter passes over the next one. -/
def Skips (m : Machine) (pad : Keypad) : Prop :=
  let vx := m.v.get m.word.x
  let vy := m.v.get m.word.y
  (m.word.fits "3xkk" = true ∧ vx = m.word.byte) ∨
    (m.word.fits "4xkk" = true ∧ vx ≠ m.word.byte) ∨
    (m.word.fits "5xy0" = true ∧ vx = vy) ∨
    (m.word.fits "9xy0" = true ∧ vx ≠ vy) ∨
    (m.word.fits "Ex9E" = true ∧ pad.isDown (vx % 16) = true) ∨
    (m.word.fits "ExA1" = true ∧ pad.isDown (vx % 16) = false)

/-- After a step with an outcome, the program counter is `pc`. -/
structure GoesOn (m : Machine) (pad : Keypad) (e : Outcome) (pc : UInt16) : Prop where
  jump : m.word.fitsAny ["1nnn", "2nnn"] = true → pc = m.word.address
  ret : m.word.fits "00EE" = true → m.stack.toList.getLast? = some pc
  jumpBy : m.word.fits "Bnnn" = true →
    pc.toNat = (m.word.address.toNat +
      (m.v.get (if m.dialect.jumpReadsVx then m.word.x else 0)).toNat) % 4096
  blocked : e = .waiting → pc = m.pc
  skip : m.Skips pad → pc.toNat = (m.pc.toNat + 4) % 4096
  next : m.word.fitsAny ["1nnn", "2nnn", "00EE", "Bnnn"] = false → e ≠ .waiting →
    ¬ m.Skips pad → pc.toNat = (m.pc.toNat + 2) % 4096

section

variable {m m' : Machine} {pad : Keypad} {i : Instruction} {e : Outcome} {x k : Register}
  {b : UInt8} {flag : Bool} {f : Field} {a : ℕ} {P : Prop}

/-! ## Registers -/

theorem same_putV : k = x ∨ (m.putV x b).v.get k = m.v.get k := by
  rw [v_putV]
  split_ifs with hk
  · exact Or.inl hk
  · exact Or.inr rfl

theorem same_putFlag : k = Fin.last 15 ∨ (m.putFlag flag).v.get k = m.v.get k := same_putV

theorem same_arithmetic :
    (k = x ∨ k = Fin.last 15) ∨ (m.arithmetic x b flag).v.get k = m.v.get k := by
  unfold arithmetic
  have hflag : k = Fin.last 15 ∨ ((m.putV x b).putFlag flag).v.get k = (m.putV x b).v.get k :=
    same_putFlag
  rcases hflag with hk | hsame
  · exact Or.inl (Or.inr hk)
  · rw [hsame]
    exact same_putV.imp_left Or.inl

theorem same_logic :
    (k = x ∨ k = Fin.last 15 ∧ m.dialect.logicClearsFlag = true) ∨
      (m.logic x b).v.get k = m.v.get k := by
  have hdialect : (m.putV x b).dialect = m.dialect := rfl
  unfold logic
  dsimp only
  rw [hdialect]
  split_ifs with hclear
  · exact same_arithmetic.imp_left fun h => h.imp_right fun hk => ⟨hk, hclear⟩
  · exact same_putV.imp_left Or.inl

theorem same_draw (y : Register) (n : ℕ) :
    k = Fin.last 15 ∨ (m.draw x y n).1.v.get k = m.v.get k := by
  unfold draw
  dsimp only
  split_ifs
  · exact same_putFlag
  · exact same_putFlag

theorem same_awaitKey :
    (k = x ∧ (m.awaitKey pad x).2 ≠ .waiting) ∨ (m.awaitKey pad x).1.v.get k = m.v.get k := by
  unfold awaitKey
  dsimp only
  split
  · exact same_putV.imp_left fun hk => ⟨hk, fun h => nomatch h⟩
  · exact Or.inr rfl

theorem same_loaded : k ≤ x ∨ (m.loaded x).get k = m.v.get k := by
  by_cases hk : k ≤ x
  · exact Or.inl hk
  · have hget : (m.loaded x).get k = if k ≤ x then m.memory.peek (m.index.toNat + k) else m.v[k] :=
      Vector.getElem_ofFn k.isLt
    rw [hget, if_neg hk]
    exact Or.inr rfl

theorem v_moveIndex (count : UInt16) : (m.moveIndex count).v = m.v := by
  rw [moveIndex_frame]

theorem touches_result (hfit : m.word.fits i.form = true) (hform : i.form ∈ resultForms)
    (hk : k = m.word.x) : m.Touches e (.register k) :=
  Or.inl ⟨hk, Or.inl (fitsAny_of_mem hfit hform)⟩

theorem touches_flag (hfit : m.word.fits i.form = true) (hform : i.form ∈ flagForms)
    (hk : k = Fin.last 15) : m.Touches e (.register k) :=
  Or.inr (Or.inl ⟨hk, Or.inl (fitsAny_of_mem hfit hform)⟩)

/-- A register that is not the same was named by the instruction, or is VF and took a flag. -/
theorem touches_or_same_register (hi : Instruction.decode m.word = some i) (pad : Keypad)
    (k : Register) :
    m.Touches (m.advance.perform pad i).2 (.register k) ∨
      (m.advance.perform pad i).1.v.get k = m.v.get k := by
  obtain ⟨hfit, hcarry⟩ := Instruction.describes_decode hi
  cases i with
  | setByte | addByte | random | copy =>
    obtain ⟨rfl, rfl⟩ := hcarry
    refine same_putV.imp_left (touches_result hfit ?_)
    simp [resultForms, Instruction.form]
  | readDelay =>
    obtain rfl := hcarry
    refine same_putV.imp_left (touches_result hfit ?_)
    simp [resultForms, Instruction.form]
  | bitOr | bitAnd | bitXor =>
    obtain ⟨rfl, rfl⟩ := hcarry
    refine same_logic.imp_left fun hk => hk.elim (touches_result hfit ?_) fun hF => ?_
    · simp [resultForms, Instruction.form]
    · refine Or.inr (Or.inl ⟨hF.1, Or.inr ⟨hF.2, fitsAny_of_mem hfit ?_⟩⟩)
      simp [logicForms, Instruction.form]
  | add | sub | shiftRight | subFrom | shiftLeft =>
    obtain ⟨rfl, rfl⟩ := hcarry
    refine same_arithmetic.imp_left fun hk =>
      hk.elim (touches_result hfit ?_) (touches_flag hfit ?_)
    · simp [resultForms, Instruction.form]
    · simp [flagForms, Instruction.form]
  | draw x y n =>
    rw [perform_draw]
    refine (same_draw y n).imp_left (touches_flag hfit ?_)
    simp [flagForms, Instruction.form]
  | awaitKey x =>
    obtain rfl := hcarry
    rw [perform_awaitKey]
    exact same_awaitKey.imp_left fun hk => Or.inl ⟨hk.1, Or.inr ⟨hfit, hk.2⟩⟩
  | load x =>
    obtain rfl := hcarry
    -- I may move on afterwards, which is no matter of the registers.
    have hv : (m.advance.perform pad (.load m.word.x)).1.v = m.advance.loaded m.word.x :=
      v_moveIndex _
    rw [hv]
    exact same_loaded.imp_left fun hk => Or.inr (Or.inr ⟨hk, hfit⟩)
  | _ =>
    refine Or.inr (congrArg (fun v : RegisterFile => v.get k) (same_perform (f := .v) ?_))
    simp [Instruction.writes]

/-! ## Memory and the call stack -/

theorem same_pokes {memory : Memory} {base : ℕ} {bs : List UInt8} :
    (base ≤ a ∧ a < base + bs.length) ∨ (memory.pokes base bs).peek a = memory.peek a := by
  by_cases h : base ≤ a ∧ a < base + bs.length
  · exact Or.inl h
  · rw [Memory.peek_pokes_of_outside _ h]
    exact Or.inr rfl

theorem touches_or_same_byte (hi : Instruction.decode m.word = some i) (pad : Keypad) (a : ℕ) :
    m.Touches (m.advance.perform pad i).2 (.byte a) ∨
      (m.advance.perform pad i).1.memory.peek a = m.memory.peek a := by
  obtain ⟨hfit, hcarry⟩ := Instruction.describes_decode hi
  cases i with
  | decimal x => exact same_pokes.imp_left fun ha => ⟨ha.1, Or.inl ⟨hfit, ha.2⟩⟩
  | store x =>
    obtain rfl := hcarry
    have hmemory : (m.advance.perform pad (.store m.word.x)).1.memory =
        m.memory.pokes m.index.toNat (m.v.toList.take (m.word.x.val + 1)) :=
      congrArg memory (moveIndex_frame _ _)
    have hlength : (m.v.toList.take (m.word.x.val + 1)).length = m.word.x.val + 1 := by
      rw [List.length_take, Vector.length_toList]
      exact Nat.min_eq_left m.word.x.isLt
    rw [hmemory]
    refine same_pokes.imp_left fun ha => ⟨ha.1, Or.inr ⟨hfit, ?_⟩⟩
    rw [hlength] at ha
    exact ha.2
  | _ =>
    refine Or.inr (congrArg (fun memory : Memory => memory.peek a) (same_perform (f := .memory) ?_))
    simp [Instruction.writes]

theorem touches_or_same_slot (hi : Instruction.decode m.word = some i) (pad : Keypad)
    (k : Fin 16) :
    m.Touches (m.advance.perform pad i).2 (.slot k) ∨
      (m.advance.perform pad i).1.stack.slots.get k = m.stack.slots.get k := by
  obtain ⟨hfit, -⟩ := Instruction.describes_decode hi
  cases i with
  | call nnn =>
    have hstack : (m.advance.perform pad (.call nnn)).1.stack = m.stack.pushed m.advance.pc := rfl
    rw [hstack, CallStack.pushed]
    split_ifs with hroom
    · have hget : (m.stack.slots.set m.stack.depth m.advance.pc).get k =
          if m.stack.depth = k.val then m.advance.pc else m.stack.slots.get k :=
        Vector.getElem_set hroom k.isLt
      by_cases hk : k.val = m.stack.depth
      · exact Or.inl ⟨hfit, hk⟩
      · exact Or.inr (hget.trans (if_neg (Ne.symm hk)))
    · exact Or.inr rfl
  | ret => exact Or.inr rfl
  | _ =>
    refine Or.inr (congrArg (fun c : CallStack => c.slots.get k) (same_perform (f := .stack) ?_))
    simp [Instruction.writes]

/-! ## The other parts -/

/-- A field is the same if the instruction does not write it. -/
theorem or_same (hP : f ∈ i.writes → P) : P ∨ f.Same m (m.perform pad i).1 := by
  by_cases hf : f ∈ i.writes
  · exact Or.inl (hP hf)
  · exact Or.inr (same_perform hf)

theorem index_moveIndex {count : UInt16} (h : ¬ m.dialect.transferMovesI = true) :
    (m.moveIndex count).index = m.index := by
  rw [moveIndex, if_neg h]

theorem touches_or_same_index (hi : Instruction.decode m.word = some i) (pad : Keypad) :
    m.Touches (m.advance.perform pad i).2 .index ∨
      (m.advance.perform pad i).1.index = m.index := by
  obtain ⟨hfit, -⟩ := Instruction.describes_decode hi
  cases i with
  | setIndex | addIndex | glyph =>
    refine Or.inl (Or.inl (fitsAny_of_mem hfit ?_))
    simp [Instruction.form]
  | store | load =>
    by_cases hmoves : m.dialect.transferMovesI = true
    · refine Or.inl (Or.inr ⟨hmoves, fitsAny_of_mem hfit ?_⟩)
      simp [Instruction.form]
    · exact Or.inr (index_moveIndex hmoves)
  | _ =>
    refine Or.inr (same_perform (f := .index) ?_)
    simp [Instruction.writes]

/-- A part that is not the same is one that the word at the program counter may write. -/
theorem touches_or_same (hi : Instruction.decode m.word = some i) (pad : Keypad) (p : Part) :
    m.Touches (m.advance.perform pad i).2 p ∨ p.Same m (m.advance.perform pad i).1 := by
  have hfit := (Instruction.describes_decode hi).1
  cases p with
  | register k => exact touches_or_same_register hi pad k
  | index => exact touches_or_same_index hi pad
  | byte a => exact touches_or_same_byte hi pad a
  | slot k => exact touches_or_same_slot hi pad k
  | depth =>
    refine (or_same (f := .stack) fun hf => ?_).imp_right (congrArg CallStack.depth)
    refine fitsAny_of_mem hfit ?_
    cases i with
    | call | ret => simp [Instruction.form]
    | _ => simp [Instruction.writes] at hf
  | picture =>
    refine or_same (f := .picture) fun hf => fitsAny_of_mem hfit ?_
    cases i with
    | clear | draw => simp [Instruction.form]
    | _ => simp [Instruction.writes] at hf
  | dirty =>
    refine or_same (f := .dirty) fun hf => fitsAny_of_mem hfit ?_
    cases i with
    | clear | draw => simp [Instruction.form]
    | _ => simp [Instruction.writes] at hf
  | delay =>
    refine or_same (f := .delay) fun hf => ?_
    cases i with
    | setDelay x => exact hfit
    | _ => simp [Instruction.writes] at hf
  | sound =>
    refine or_same (f := .sound) fun hf => ?_
    cases i with
    | setSound x => exact hfit
    | _ => simp [Instruction.writes] at hf
  | keyWait =>
    refine or_same (f := .keyWait) fun hf => ?_
    cases i with
    | awaitKey x => exact hfit
    | _ => simp [Instruction.writes] at hf
  | random =>
    refine or_same (f := .random) fun hf => ?_
    cases i with
    | random x kk => exact hfit
    | _ => simp [Instruction.writes] at hf
  | dialect => exact Or.inr (dialect_perform _ _ _)

/-! ## The program counter -/

theorem toNat_addWrapped (a c : UInt16) : (addWrapped a c).toNat = (a.toNat + c.toNat) % 4096 := by
  show ((a + c) % 0x1000).toNat = _
  rw [UInt16.toNat_mod, UInt16.toNat_add]
  show (a.toNat + c.toNat) % 65536 % 4096 = _
  omega

theorem toNat_pc_advance (m : Machine) : m.advance.pc.toNat = (m.pc.toNat + 2) % 4096 :=
  toNat_addWrapped m.pc 2

theorem toNat_pc_skipIf (m : Machine) (c : Bool) :
    (m.advance.skipIf c).pc.toNat = (m.pc.toNat + if c then 4 else 2) % 4096 := by
  cases c with
  | false => exact toNat_pc_advance m
  | true =>
    show m.advance.advance.pc.toNat = _
    rw [toNat_pc_advance, toNat_pc_advance, Nat.mod_add_mod]
    rfl

/-- The condition of an instruction that may pass over the next one. -/
def skipCondition (m : Machine) (pad : Keypad) : Instruction → Bool
  | .skipEqualByte x kk => m.v.get x == kk
  | .skipUnequalByte x kk => m.v.get x != kk
  | .skipEqual x y => m.v.get x == m.v.get y
  | .skipUnequal x y => m.v.get x != m.v.get y
  | .skipDown x => pad.isDown (m.v.get x % 16)
  | .skipUp x => !pad.isDown (m.v.get x % 16)
  | _ => false

theorem skips_iff (hi : Instruction.decode m.word = some i) (pad : Keypad) :
    m.Skips pad ↔ m.skipCondition pad i = true := by
  have hforms : ∀ g ∈ ["3xkk", "4xkk", "5xy0", "9xy0", "Ex9E", "ExA1"],
      (m.word.fits g = true ↔ i.form = g) := by
    intro g hg
    refine fits_iff_form_eq hi ?_ ?_
    · revert g
      simp [standardForms]
    · revert g
      simp
  simp only [List.forall_mem_cons] at hforms
  obtain ⟨h3, h4, h5, h9, hdown, hup, -⟩ := hforms
  have hcarry := (Instruction.describes_decode hi).2
  unfold Skips
  dsimp only
  rw [h3, h4, h5, h9, hdown, hup]
  cases i with
  | skipEqualByte | skipUnequalByte | skipEqual | skipUnequal =>
    obtain ⟨rfl, rfl⟩ := hcarry
    simp [Instruction.form, skipCondition]
  | skipDown | skipUp =>
    obtain rfl := hcarry
    simp [Instruction.form, skipCondition]
  | _ => simp [Instruction.form, skipCondition]

/-- Only the instruction that waits blocks, and only if no key went down since the wait began. -/
theorem perform_eq_waiting_iff (hi : Instruction.decode m.word = some i) (pad : Keypad) :
    (m.advance.perform pad i).2 = .waiting ↔
      m.word.fits "Fx0A" = true ∧ pad.downSince (m.keyWait.getD pad.edges) = none := by
  rw [fits_iff_form_eq hi (by simp [standardForms]) (by decide)]
  cases i with
  | awaitKey x =>
    have hmark : m.advance.keyWait = m.keyWait := rfl
    rw [perform_awaitKey, awaitKey, hmark]
    rcases pad.downSince (m.keyWait.getD pad.edges) with _ | k
    · simp [Instruction.form]
    · simp [Instruction.form]
  | draw x y n =>
    rw [perform_draw, draw]
    split_ifs <;> simp [Instruction.form]
  | _ => simp [Instruction.form, perform]

theorem pc_jump (hi : Instruction.decode m.word = some i) (pad : Keypad)
    (h : m.word.fitsAny ["1nnn", "2nnn"] = true) :
    (m.advance.perform pad i).1.pc = m.word.address := by
  rw [fitsAny_iff_form_mem hi (by simp [standardForms])] at h
  have hcarry := (Instruction.describes_decode hi).2
  cases i with
  | jump nnn | call nnn => exact hcarry
  | _ => simp [Instruction.form] at h

theorem pc_ret (hi : Instruction.decode m.word = some i) (hr : m.refusal i = none) (pad : Keypad)
    (h : m.word.fits "00EE" = true) :
    m.stack.toList.getLast? = some (m.advance.perform pad i).1.pc := by
  rw [fits_iff_form_eq hi (by simp [standardForms]) (by decide)] at h
  cases i with
  | ret =>
    refine CallStack.getLast?_toList fun hd => ?_
    rw [refusal, if_pos hd] at hr
    cases hr
  | _ => simp [Instruction.form] at h

theorem pc_jumpBy (hi : Instruction.decode m.word = some i) (pad : Keypad)
    (h : m.word.fits "Bnnn" = true) :
    (m.advance.perform pad i).1.pc.toNat = (m.word.address.toNat +
      (m.v.get (if m.dialect.jumpReadsVx then m.word.x else 0)).toNat) % 4096 := by
  rw [fits_iff_form_eq hi (by simp [standardForms]) (by decide)] at h
  have hcarry := (Instruction.describes_decode hi).2
  cases i with
  | jumpBy x nnn =>
    obtain ⟨rfl, rfl⟩ := hcarry
    refine (toNat_addWrapped _ _).trans ?_
    rw [UInt8.toNat_toUInt16, apply_ite (fun x : Register => m.v.get x)]
    rfl
  | _ => simp [Instruction.form] at h

theorem pc_blocked (hi : Instruction.decode m.word = some i) (hpc : m.pc ≤ 0xFFE) (pad : Keypad)
    (h : (m.advance.perform pad i).2 = .waiting) : (m.advance.perform pad i).1.pc = m.pc := by
  obtain ⟨hfit, hnone⟩ := (perform_eq_waiting_iff hi pad).mp h
  rw [fits_iff_form_eq hi (by simp [standardForms]) (by decide)] at hfit
  cases i with
  | awaitKey x =>
    have hmark : m.advance.keyWait = m.keyWait := rfl
    rw [perform_awaitKey, awaitKey, hmark]
    dsimp only
    rw [hnone]
    exact pc_advance_sub hpc
  | _ => simp [Instruction.form] at hfit

theorem pc_skip (h : m.skipCondition pad i = true) :
    (m.advance.perform pad i).1.pc.toNat = (m.pc.toNat + 4) % 4096 := by
  cases i with
  | skipEqualByte | skipUnequalByte | skipEqual | skipUnequal | skipDown | skipUp =>
    exact (toNat_pc_skipIf m _).trans (congrArg (fun k => (m.pc.toNat + k) % 4096) (if_pos h))
  | _ => cases h

/-- Apart from jumps and a wait that goes on, the next instruction is one or two words on. -/
theorem toNat_pc_perform (hi : Instruction.decode m.word = some i) (pad : Keypad)
    (hjump : m.word.fitsAny ["1nnn", "2nnn", "00EE", "Bnnn"] = false)
    (hwait : (m.advance.perform pad i).2 ≠ .waiting) :
    (m.advance.perform pad i).1.pc.toNat =
      (m.pc.toNat + if m.skipCondition pad i then 4 else 2) % 4096 := by
  rw [← Bool.not_eq_true, fitsAny_iff_form_mem hi (by simp [standardForms])] at hjump
  cases i with
  | jump | call | ret | jumpBy => simp [Instruction.form] at hjump
  | skipEqualByte | skipUnequalByte | skipEqual | skipUnequal | skipDown | skipUp =>
    exact toNat_pc_skipIf m _
  | awaitKey x =>
    rw [perform_awaitKey, awaitKey] at hwait ⊢
    dsimp only at hwait ⊢
    split at hwait
    · exact toNat_pc_advance m
    · exact absurd rfl hwait
  | _ =>
    refine Eq.trans (congrArg UInt16.toNat (same_perform (f := .pc) ?_)) (toNat_pc_advance m)
    simp [Instruction.writes]

theorem goesOn_perform (hpc : m.pc ≤ 0xFFE) (hi : Instruction.decode m.word = some i)
    (hr : m.refusal i = none) (pad : Keypad) :
    m.GoesOn pad (m.advance.perform pad i).2 (m.advance.perform pad i).1.pc where
  jump := pc_jump hi pad
  ret := pc_ret hi hr pad
  jumpBy := pc_jumpBy hi pad
  blocked := pc_blocked hi hpc pad
  skip hskip := pc_skip ((skips_iff hi pad).mp hskip)
  next hjump hwait hskip := by
    rw [toNat_pc_perform hi pad hjump hwait, if_neg (mt (skips_iff hi pad).mpr hskip)]

/-- **An instruction touches only its own footprint.** Of a step that succeeds this says: each part
of the machine is touched or the same; `Cxkk` takes one random byte; a wait goes on if no key went
down since it began; and the program counter goes on as it must. -/
theorem step_keeps_to_footprint (h : m.step pad = (m', .ok e)) :
    (∀ p : Part, m.Touches e p ∨ p.Same m m') ∧
      (m.word.fits "Cxkk" = true →
        m'.random = { m.random with used := m.random.used + 1 }) ∧
      (e = .waiting ↔
        m.word.fits "Fx0A" = true ∧ pad.downSince (m.keyWait.getD pad.edges) = none) ∧
      m.GoesOn pad e m'.pc := by
  obtain ⟨i, hpc, hi, hr, hperform⟩ := perform_of_step h
  obtain rfl : (m.advance.perform pad i).1 = m' := congrArg Prod.fst hperform
  obtain rfl : (m.advance.perform pad i).2 = e := congrArg Prod.snd hperform
  refine ⟨touches_or_same hi pad, fun hfit => ?_, perform_eq_waiting_iff hi pad,
    goesOn_perform hpc hi hr pad⟩
  rw [fits_iff_form_eq hi (by simp [standardForms]) (by decide)] at hfit
  cases i with
  | random x kk => rfl
  | _ => simp [Instruction.form] at hfit

/-- The last word of memory puts two registers where it stands itself. What lies below stays, all
the registers stay, and the program counter and I come round to the start of memory. -/
theorem step_keeps_to_footprint_end_of_memory :
    let settings : Settings := { dialect := { transferMovesI := true }, seed := some 7 }
    let m : Machine :=
      { ((fresh settings default).putV 0 0x12).putV 1 0x34 with
        pc := 0xFFE, index := 0xFFE, memory := Memory.zero.pokes 0xFFE [0xF1, 0x55] }
    let m' := (m.step {}).1
    m.step {} = (m', .ok .plain) ∧ m'.pc = 0 ∧ m'.index = 0 ∧
      m'.memory.wordAt 0xFFE = 0x1234 ∧ (∀ a < 0xFFE, m'.memory.peek a = m.memory.peek a) ∧
      ∀ k, m'.v.get k = m.v.get k := by
  intro settings m m'
  have hword : m.word = 0xF155 := by
    show Memory.wordAt (Memory.zero.pokes 0xFFE [0xF1, 0x55]) 0xFFE = 0xF155
    simp only [Memory.wordAt, Memory.peek_pokes]
    rfl
  have hok : m.step {} = ((m.advance.perform {} (.store 1)).1, .ok .plain) := by
    refine step_of_fits (i := .store 1) (by decide) ?_ ?_ (by decide) (by decide)
    · rw [hword]
      decide
    · rw [hword]
      rfl
  have hm' : m' = (m.advance.perform {} (.store 1)).1 := congrArg Prod.fst hok
  have hmemory : m'.memory = m.memory.pokes 0xFFE [0x12, 0x34] := by
    rw [hm']
    rfl
  have h : m.step {} = (m', .ok .plain) := by
    rw [hm', hok]
  obtain ⟨hparts, -, -, hpc⟩ := step_keeps_to_footprint h
  refine ⟨h, ?_, ?_, ?_, fun a ha => ?_, fun k => ?_⟩
  · have hskips : ¬ m.Skips {} := by
      simp only [Skips, hword]
      decide
    have hnext := hpc.next (by rw [hword]; decide) (by decide) hskips
    exact UInt16.toNat_inj.mp (hnext.trans (by decide))
  · rw [hm']
    show addWrapped 0xFFE 2 = 0
    decide
  · rw [hmemory, Memory.wordAt, Memory.peek_pokes, if_pos (by decide), Memory.peek_pokes,
      if_pos (by decide)]
    rfl
  · refine (hparts (.byte a)).resolve_left fun hbyte => ?_
    have hle : 0xFFE ≤ a := hbyte.1
    exact absurd ha (Nat.not_lt.mpr hle)
  · refine (hparts (.register k)).resolve_left ?_
    simp only [Touches, hword]
    revert k
    decide

end

end Machine

end ChipEight
