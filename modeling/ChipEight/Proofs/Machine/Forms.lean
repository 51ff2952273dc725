import ChipEight.Instruction
import Mathlib.Tactic

/-!
# The forms of instructions

A form such as `8xyE` says how the words of an instruction are written in hexadecimal: digits and
capitals stand for themselves, and small letters for operands (`Word.fits`). `standardForms` lists
the thirty-five forms there are. Decoding is described by them alone:

* `describes_decode`: a word fits the form of the instruction it is decoded to and carries its
  operands;
* `decode_of_describes`: and it is decoded to no other, where `00E0` and `00EE` come before `0nnn`;
* `decode_eq_none_iff`: the words that are not decoded are those that fit no standard form;
* `fits_iff_form_eq`: apart from `0nnn`, a word that is decoded fits no form but the one of its
  instruction.
-/

namespace ChipEight

/-- A nibble is the one that a character of a form stands for; a small letter stands for any. -/
def fitsNibble (c : Char) (d : Fin 16) : Bool :=
  match c with
  | '0' => d.val == 0x0 | '1' => d.val == 0x1 | '2' => d.val == 0x2 | '3' => d.val == 0x3
  | '4' => d.val == 0x4 | '5' => d.val == 0x5 | '6' => d.val == 0x6 | '7' => d.val == 0x7
  | '8' => d.val == 0x8 | '9' => d.val == 0x9 | 'A' => d.val == 0xA | 'B' => d.val == 0xB
  | 'C' => d.val == 0xC | 'D' => d.val == 0xD | 'E' => d.val == 0xE | 'F' => d.val == 0xF
  | _ => true

@[simp] theorem fitsNibble_digit (d : Fin 16) :
    fitsNibble '0' d = (d == 0x0) ∧ fitsNibble '1' d = (d == 0x1) ∧ fitsNibble '2' d = (d == 0x2) ∧
    fitsNibble '3' d = (d == 0x3) ∧ fitsNibble '4' d = (d == 0x4) ∧ fitsNibble '5' d = (d == 0x5) ∧
    fitsNibble '6' d = (d == 0x6) ∧ fitsNibble '7' d = (d == 0x7) ∧ fitsNibble '8' d = (d == 0x8) ∧
    fitsNibble '9' d = (d == 0x9) ∧ fitsNibble 'A' d = (d == 0xA) ∧ fitsNibble 'B' d = (d == 0xB) ∧
    fitsNibble 'C' d = (d == 0xC) ∧ fitsNibble 'D' d = (d == 0xD) ∧ fitsNibble 'E' d = (d == 0xE) ∧
    fitsNibble 'F' d = (d == 0xF) := by
  have val_beq (k : Fin 16) : (d.val == k.val) = (d == k) := by
    rw [Bool.eq_iff_iff, beq_iff_eq, beq_iff_eq, Fin.ext_iff]
  and_intros <;> (rw [← val_beq]; rfl)

@[simp] theorem fitsNibble_letter (d : Fin 16) :
    fitsNibble 'n' d = true ∧ fitsNibble 'x' d = true ∧ fitsNibble 'y' d = true ∧
    fitsNibble 'k' d = true := by
  and_intros <;> rfl

/-- The nibbles of a word, the highest first, are those of a form. -/
def Word.fits (w : Word) (form : String) : Bool :=
  match form.toList with
  | [a, b, c, d] =>
    fitsNibble a w.family && fitsNibble b w.x && fitsNibble c w.y && fitsNibble d w.n
  | _ => false

/-- The forms of all instructions. -/
def standardForms : List String :=
  ["0nnn", "00E0", "00EE", "1nnn", "2nnn", "3xkk", "4xkk", "5xy0", "6xkk", "7xkk",
   "8xy0", "8xy1", "8xy2", "8xy3", "8xy4", "8xy5", "8xy6", "8xy7", "8xyE", "9xy0",
   "Annn", "Bnnn", "Cxkk", "Dxyn", "Ex9E", "ExA1",
   "Fx07", "Fx0A", "Fx15", "Fx18", "Fx1E", "Fx29", "Fx33", "Fx55", "Fx65"]

namespace Instruction

/-- The form of an instruction. -/
def form : Instruction → String
  | .system _ => "0nnn"
  | .clear => "00E0"
  | .ret => "00EE"
  | .jump _ => "1nnn"
  | .call _ => "2nnn"
  | .skipEqualByte .. => "3xkk"
  | .skipUnequalByte .. => "4xkk"
  | .skipEqual .. => "5xy0"
  | .setByte .. => "6xkk"
  | .addByte .. => "7xkk"
  | .copy .. => "8xy0"
  | .bitOr .. => "8xy1"
  | .bitAnd .. => "8xy2"
  | .bitXor .. => "8xy3"
  | .add .. => "8xy4"
  | .sub .. => "8xy5"
  | .shiftRight .. => "8xy6"
  | .subFrom .. => "8xy7"
  | .shiftLeft .. => "8xyE"
  | .skipUnequal .. => "9xy0"
  | .setIndex _ => "Annn"
  | .jumpBy .. => "Bnnn"
  | .random .. => "Cxkk"
  | .draw .. => "Dxyn"
  | .skipDown _ => "Ex9E"
  | .skipUp _ => "ExA1"
  | .readDelay _ => "Fx07"
  | .awaitKey _ => "Fx0A"
  | .setDelay _ => "Fx15"
  | .setSound _ => "Fx18"
  | .addIndex _ => "Fx1E"
  | .glyph _ => "Fx29"
  | .decimal _ => "Fx33"
  | .store _ => "Fx55"
  | .load _ => "Fx65"

/-- The operands of an instruction are those in a word. -/
def CarriedBy (w : Word) : Instruction → Prop
  | .clear | .ret => True
  | .system nnn | .jump nnn | .call nnn | .setIndex nnn => nnn = w.address
  | .jumpBy x nnn => x = w.x ∧ nnn = w.address
  | .skipEqualByte x kk | .skipUnequalByte x kk | .setByte x kk | .addByte x kk
  | .random x kk => x = w.x ∧ kk = w.byte
  | .skipEqual x y | .skipUnequal x y | .copy x y | .bitOr x y | .bitAnd x y | .bitXor x y
  | .add x y | .sub x y | .shiftRight x y | .subFrom x y | .shiftLeft x y => x = w.x ∧ y = w.y
  | .draw x y n => x = w.x ∧ y = w.y ∧ n = w.n
  | .skipDown x | .skipUp x | .readDelay x | .awaitKey x | .setDelay x | .setSound x
  | .addIndex x | .glyph x | .decimal x | .store x | .load x => x = w.x

theorem form_mem_standardForms (i : Instruction) : i.form ∈ standardForms := by
  cases i <;> simp [form, standardForms]

end Instruction

/-! ## Nibbles -/

section Nibbles

variable {w v : Word}

theorem toNat_eq_nibbles (w : Word) :
    w.toNat = 4096 * w.family.val + 256 * w.x.val + 16 * w.y.val + w.n.val := by
  have := w.toNat_lt
  simp only [Word.family, Word.x, Word.y, Word.n, Word.nibble]
  omega

theorem eq_iff_nibbles :
    w = v ↔ w.family = v.family ∧ w.x = v.x ∧ w.y = v.y ∧ w.n = v.n := by
  constructor
  · rintro rfl
    exact ⟨rfl, rfl, rfl, rfl⟩
  · rintro ⟨h3, h2, h1, h0⟩
    apply UInt16.toNat_inj.mp
    rw [toNat_eq_nibbles w, toNat_eq_nibbles v, h3, h2, h1, h0]

theorem toNat_byte (w : Word) : w.byte.toNat = 16 * w.y.val + w.n.val := by
  simp only [Word.byte, Word.y, Word.n, Word.nibble, UInt16.toNat_toUInt8]
  omega

theorem byte_eq_iff {b : UInt8} :
    w.byte = b ↔ w.y = Fin.ofNat 16 (b.toNat / 16) ∧ w.n = Fin.ofNat 16 b.toNat := by
  have hy := w.y.isLt
  have hn := w.n.isLt
  have hb := b.toNat_lt
  rw [← UInt8.toNat_inj, toNat_byte, Fin.ext_iff, Fin.ext_iff, Fin.val_ofNat, Fin.val_ofNat]
  omega

theorem eq_of_fits_clear (h : w.fits "00E0" = true) : w = 0x00E0 := by
  simp [Word.fits, and_assoc] at h
  exact eq_iff_nibbles.mpr h

theorem eq_of_fits_ret (h : w.fits "00EE" = true) : w = 0x00EE := by
  simp [Word.fits, and_assoc] at h
  exact eq_iff_nibbles.mpr h

end Nibbles

/-! ## Decoding -/

namespace Instruction

variable {w : Word} {i : Instruction}

/-- What decoding gives is right: the word fits the form and carries the operands. -/
def Describes (w : Word) (i : Instruction) : Prop := w.fits i.form = true ∧ i.CarriedBy w

theorem describes_decodeSystem (hf : w.family = 0) : Describes w (decodeSystem w) := by
  unfold decodeSystem Describes
  split_ifs with h0 h1
  · rw [h0]
    exact ⟨rfl, trivial⟩
  · rw [h1]
    exact ⟨rfl, trivial⟩
  · exact ⟨by simp [form, Word.fits, hf], rfl⟩

theorem describes_decodeArithmetic (hf : w.family = 8) (h : decodeArithmetic w = some i) :
    Describes w i := by
  unfold decodeArithmetic at h
  split at h <;> cases h <;> rename_i hn <;>
    exact ⟨by simp [form, Word.fits, hf, hn], rfl, rfl⟩

theorem describes_decodeKey (hf : w.family = 14) (h : decodeKey w = some i) : Describes w i := by
  unfold decodeKey at h
  split_ifs at h with h0 h1 <;> cases h
  · obtain ⟨hy, hn⟩ := byte_eq_iff.mp h0
    exact ⟨by simp [form, Word.fits, hf, hy, hn], rfl⟩
  · obtain ⟨hy, hn⟩ := byte_eq_iff.mp h1
    exact ⟨by simp [form, Word.fits, hf, hy, hn], rfl⟩

theorem describes_decodeTransfer (hf : w.family = 15) (h : decodeTransfer w = some i) :
    Describes w i := by
  unfold decodeTransfer at h
  split at h <;> cases h <;> rename_i hy hn <;>
    exact ⟨by simp [form, Word.fits, hf, hy, hn], rfl⟩

theorem describes_decode (h : decode w = some i) : Describes w i := by
  unfold decode at h
  split at h
  case h_1 hf => cases h; exact describes_decodeSystem hf
  case h_6 hf | h_10 hf =>
    split_ifs at h with hn
    cases h
    exact ⟨by simp [form, Word.fits, hf, hn], rfl, rfl⟩
  case h_9 hf => exact describes_decodeArithmetic hf h
  case h_15 hf => exact describes_decodeKey hf h
  case h_16 =>
    have hf : w.family = 15 := by
      generalize w.family = f at *
      decide +revert
    exact describes_decodeTransfer hf h
  all_goals
    rename_i hf
    cases h
    exact ⟨by simp [form, Word.fits, hf], by simp only [CarriedBy, and_self]⟩

/-- The only instruction that a word describes is the one it is decoded to; a word that fits `00E0`
or `00EE` also fits `0nnn`, which is then not meant. -/
theorem decode_of_describes (h : Describes w i) (h0 : i.form = "0nnn" → w ≠ 0x00E0 ∧ w ≠ 0x00EE) :
    decode w = some i := by
  obtain ⟨hfit, hcarry⟩ := h
  cases i with
  | clear =>
    rw [eq_of_fits_clear hfit]
    rfl
  | ret =>
    rw [eq_of_fits_ret hfit]
    rfl
  | system nnn =>
    obtain ⟨hE0, hEE⟩ := h0 rfl
    simp [form, Word.fits] at hfit
    simp [decode, decodeSystem, hfit, hE0, hEE, show nnn = w.address from hcarry]
  | _ =>
    simp [form, Word.fits] at hfit
    simp only [CarriedBy] at hcarry
    simp [decode, decodeArithmetic, decodeKey, decodeTransfer, byte_eq_iff, hfit, hcarry]

/-- The instructions with the operands of a word, one of each form. -/
def candidates (w : Word) : List Instruction :=
  [.system w.address, .clear, .ret, .jump w.address, .call w.address,
   .skipEqualByte w.x w.byte, .skipUnequalByte w.x w.byte, .skipEqual w.x w.y,
   .setByte w.x w.byte, .addByte w.x w.byte, .copy w.x w.y, .bitOr w.x w.y, .bitAnd w.x w.y,
   .bitXor w.x w.y, .add w.x w.y, .sub w.x w.y, .shiftRight w.x w.y, .subFrom w.x w.y,
   .shiftLeft w.x w.y, .skipUnequal w.x w.y, .setIndex w.address, .jumpBy w.x w.address,
   .random w.x w.byte, .draw w.x w.y w.n, .skipDown w.x, .skipUp w.x, .readDelay w.x,
   .awaitKey w.x, .setDelay w.x, .setSound w.x, .addIndex w.x, .glyph w.x, .decimal w.x,
   .store w.x, .load w.x]

theorem map_form_candidates (w : Word) : (candidates w).map form = standardForms := rfl

theorem carriedBy_candidates : ∀ i ∈ candidates w, i.CarriedBy w := by
  simp only [candidates, CarriedBy, List.forall_mem_cons, List.not_mem_nil, and_self,
    IsEmpty.forall_iff, implies_true]

end Instruction

/-- A word of one of the thirty-five forms. -/
def Word.IsStandard (w : Word) : Prop := ∃ f ∈ standardForms, w.fits f = true

/-- The words that are not decoded are those of no standard form. -/
theorem decode_eq_none_iff {w : Word} : Instruction.decode w = none ↔ ¬ w.IsStandard := by
  constructor
  · rintro h ⟨f, hf, hfit⟩
    rw [← Instruction.map_form_candidates w] at hf
    obtain ⟨i, hi, rfl⟩ := List.mem_map.mp hf
    have hE0 : w ≠ 0x00E0 := by rintro rfl; cases h
    have hEE : w ≠ 0x00EE := by rintro rfl; cases h
    have hi' := Instruction.decode_of_describes ⟨hfit, Instruction.carriedBy_candidates i hi⟩
      fun _ => ⟨hE0, hEE⟩
    rw [h] at hi'
    cases hi'
  · intro h
    by_contra hne
    obtain ⟨i, hi⟩ := Option.ne_none_iff_exists'.mp hne
    exact h ⟨i.form, i.form_mem_standardForms, (Instruction.describes_decode hi).1⟩

/-- Of the forms other than `0nnn`, a word fits that of the instruction it is decoded to alone. -/
theorem fits_iff_form_eq {w : Word} {i : Instruction} (hi : Instruction.decode w = some i)
    {f : String} (hf : f ∈ standardForms) (h0 : f ≠ "0nnn") : w.fits f = true ↔ i.form = f := by
  constructor
  · intro hfit
    rw [← Instruction.map_form_candidates w] at hf
    obtain ⟨j, hj, rfl⟩ := List.mem_map.mp hf
    have hj' := Instruction.decode_of_describes ⟨hfit, Instruction.carriedBy_candidates j hj⟩
      fun h => absurd h h0
    rw [hi] at hj'
    cases hj'
    rfl
  · rintro rfl
    exact (Instruction.describes_decode hi).1

end ChipEight
