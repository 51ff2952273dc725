import ChipEight.Proofs.Machine.Failure

/-!
# What an instruction leaves alone

Each of the operations that several instructions are made of, or that take two ways, writes to a few
fields of the machine whichever way it takes. The first equations below name these fields, and so
say that all the others stay as they are. `Instruction.writes` does the same for whole instructions
(`perform_frame`), so a field that is not in its list is the same afterwards (`same_perform`). A
field that only the instructions of one form write is the same after every step at any other word,
whatever comes of it (`same_step`).
-/

namespace ChipEight

/-- A field of the machine that some instruction writes. -/
inductive Field where
  | v | index | pc | stack | delay | sound | memory | picture | dirty | keyWait | random
  deriving DecidableEq

/-- The field is the same in both machines. -/
def Field.Same (m m' : Machine) : Field → Prop
  | .v => m'.v = m.v
  | .index => m'.index = m.index
  | .pc => m'.pc = m.pc
  | .stack => m'.stack = m.stack
  | .delay => m'.delay = m.delay
  | .sound => m'.sound = m.sound
  | .memory => m'.memory = m.memory
  | .picture => m'.picture = m.picture
  | .dirty => m'.dirty = m.dirty
  | .keyWait => m'.keyWait = m.keyWait
  | .random => m'.random = m.random

/-- The fields that an instruction writes, at least in some state of the machine. -/
def Instruction.writes : Instruction → List Field
  | .system _ => []
  | .clear => [.picture, .dirty]
  | .ret | .call _ => [.pc, .stack]
  | .jump _ | .jumpBy .. => [.pc]
  | .skipEqualByte .. | .skipUnequalByte .. | .skipEqual .. | .skipUnequal .. => [.pc]
  | .skipDown _ | .skipUp _ => [.pc]
  | .setByte .. | .addByte .. | .copy .. | .readDelay _ => [.v]
  | .bitOr .. | .bitAnd .. | .bitXor .. => [.v]
  | .add .. | .sub .. | .shiftRight .. | .subFrom .. | .shiftLeft .. => [.v]
  | .setIndex _ | .addIndex _ | .glyph _ => [.index]
  | .random .. => [.v, .random]
  | .draw .. => [.v, .picture, .dirty]
  | .awaitKey _ => [.v, .pc, .keyWait]
  | .setDelay _ => [.delay]
  | .setSound _ => [.sound]
  | .decimal _ => [.memory]
  | .store _ => [.index, .memory]
  | .load _ => [.v, .index]

namespace Machine

/-! ## Operations -/

theorem v_putV (m : Machine) (x k : Register) (b : UInt8) :
    (m.putV x b).v.get k = if k = x then b else m.v.get k := by
  have hset : (m.putV x b).v.get k = if x.val = k.val then b else m.v.get k :=
    Vector.getElem_set x.isLt k.isLt
  rw [hset]
  exact if_congr ⟨fun h => Fin.ext h.symm, fun h => congrArg Fin.val h.symm⟩ rfl rfl

theorem skipIf_frame (m : Machine) (c : Bool) : m.skipIf c = { m with pc := (m.skipIf c).pc } := by
  unfold skipIf
  split_ifs <;> rfl

theorem logic_frame (m : Machine) (x : Register) (b : UInt8) :
    m.logic x b = { m with v := (m.logic x b).v } := by
  unfold logic
  dsimp only
  split_ifs <;> rfl

theorem moveIndex_frame (m : Machine) (count : UInt16) :
    m.moveIndex count = { m with index := (m.moveIndex count).index } := by
  unfold moveIndex
  split_ifs <;> rfl

theorem draw_frame (m : Machine) (x y : Register) (n : ℕ) :
    (m.draw x y n).1 =
      { m with
        v := (m.draw x y n).1.v
        picture := (m.draw x y n).1.picture
        dirty := (m.draw x y n).1.dirty } := by
  unfold draw
  dsimp only
  split_ifs <;> rfl

theorem awaitKey_frame (m : Machine) (pad : Keypad) (x : Register) :
    (m.awaitKey pad x).1 =
      { m with
        v := (m.awaitKey pad x).1.v
        pc := (m.awaitKey pad x).1.pc
        keyWait := (m.awaitKey pad x).1.keyWait } := by
  unfold awaitKey
  dsimp only
  split <;> rfl

/-! ## Instructions -/

theorem perform_draw (m : Machine) (pad : Keypad) (x y : Register) (n : Fin 16) :
    m.perform pad (.draw x y n) = m.draw x y n := rfl

theorem perform_awaitKey (m : Machine) (pad : Keypad) (x : Register) :
    m.perform pad (.awaitKey x) = m.awaitKey pad x := rfl

/-- The machine with some of its fields taken from another one. -/
def overwrite (m : Machine) (fs : List Field) (m' : Machine) : Machine :=
  { m with
    v := if .v ∈ fs then m'.v else m.v
    index := if .index ∈ fs then m'.index else m.index
    pc := if .pc ∈ fs then m'.pc else m.pc
    stack := if .stack ∈ fs then m'.stack else m.stack
    delay := if .delay ∈ fs then m'.delay else m.delay
    sound := if .sound ∈ fs then m'.sound else m.sound
    memory := if .memory ∈ fs then m'.memory else m.memory
    picture := if .picture ∈ fs then m'.picture else m.picture
    dirty := if .dirty ∈ fs then m'.dirty else m.dirty
    keyWait := if .keyWait ∈ fs then m'.keyWait else m.keyWait
    random := if .random ∈ fs then m'.random else m.random }

/-- An instruction writes no fields but its own. -/
theorem perform_frame (m : Machine) (pad : Keypad) (i : Instruction) :
    (m.perform pad i).1 = m.overwrite i.writes (m.perform pad i).1 := by
  cases i with
  | skipEqualByte | skipUnequalByte | skipEqual | skipUnequal | skipDown | skipUp =>
    exact skipIf_frame m _
  | bitOr | bitAnd | bitXor => exact logic_frame m _ _
  | draw x y n =>
    rw [perform_draw]
    exact draw_frame m x y n
  | awaitKey x =>
    rw [perform_awaitKey]
    exact awaitKey_frame m pad x
  | store | load =>
    simp only [perform, moveIndex]
    split_ifs <;> rfl
  | _ => rfl

theorem same_perform {m : Machine} {pad : Keypad} {i : Instruction} {f : Field}
    (h : f ∉ i.writes) : f.Same m (m.perform pad i).1 := by
  rw [perform_frame]
  cases f <;> exact if_neg h

/-- The word at the program counter is of this form, and is executed next. -/
def executes (m : Machine) (form : String) : Bool := decide (m.pc ≤ 0xFFE) && m.word.fits form

theorem same_step {m : Machine} {f : Field} {form : String} (hpc : f ≠ .pc)
    (hform : ∀ i : Instruction, f ∈ i.writes → i.form = form) (h : m.executes form = false)
    (pad : Keypad) : f.Same m (m.step pad).1 := by
  rcases hstep : m.step pad with ⟨m', fault | e⟩
  · rw [eq_of_step_error hstep]
    cases f <;> rfl
  · obtain ⟨i, hle, hi, -, hperform⟩ := perform_of_step hstep
    have hf : f ∉ i.writes := fun hf => by
      have hfit := (Instruction.describes_decode hi).1
      rw [hform i hf] at hfit
      rw [executes, hfit, decide_eq_true hle] at h
      cases h
    obtain rfl : (m.advance.perform pad i).1 = m' := congrArg Prod.fst hperform
    have hsame : f.Same m.advance (m.advance.perform pad i).1 := same_perform hf
    cases f with
    | pc => exact absurd rfl hpc
    | _ => exact hsame

theorem dialect_perform (m : Machine) (pad : Keypad) (i : Instruction) :
    (m.perform pad i).1.dialect = m.dialect := by
  rw [perform_frame]
  rfl

end Machine

end ChipEight
