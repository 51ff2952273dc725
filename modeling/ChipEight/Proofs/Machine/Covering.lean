import ChipEight.Proofs.Machine.Drawing
import ChipEight.Proofs.Picture.Strokes

/-!
# What a sprite covers

`Machine.Covers` says which pixels the sprite of a word `Dxyn` covers, by the two registers, the
bytes at I and whether sprites are clipped. A step at such a word turns over these pixels and
nothing else, and says in VF, in its outcome and in the mark of the picture what became of them
(`step_draws`). It does the same as turning over the bits of the sprite one after the other, in
which no pixel is met twice.
-/

namespace ChipEight.Machine

open Picture (width height)

/-- The sprite of a word covers a pixel: the bit that lies on it is set, and does not lie beyond an
edge if sprites are clipped. -/
def Covers (m : Machine) (w : Word) (px py : ℕ) : Prop :=
  let X := (m.v.get w.x).toNat % width
  let Y := (m.v.get w.y).toNat % height
  let c := (((px : ℤ) - X) % width).toNat
  let r := (((py : ℤ) - Y) % height).toNat
  c < 8 ∧ r < w.n.val ∧ (m.memory.peek (m.index.toNat + r)).toNat.testBit (7 - c) = true ∧
    (m.dialect.clipsSprites = true → X + c < width ∧ Y + r < height)

instance (m : Machine) (w : Word) (px py : ℕ) : Decidable (m.Covers w px py) :=
  inferInstanceAs (Decidable (_ ∧ _ ∧ _ ∧ (_ → _)))

/-- The pixels that the bits of a sprite lie on, in the order in which they are drawn. -/
def strokesOf (m : Machine) (w : Word) : List (ℕ × ℕ) :=
  Sprite.strokes m.dialect.clipsSprites ((m.v.get w.x).toNat % width)
    ((m.v.get w.y).toNat % height) (m.memory.peeks m.index.toNat w.n)

section

variable {m : Machine} {w : Word} {px py : ℕ}

theorem lit_peeks_iff {memory : Memory} {a n r c : ℕ} :
    Sprite.lit (memory.peeks a n) r c = true ↔
      c < 8 ∧ r < n ∧ (memory.peek (a + r)).toNat.testBit (7 - c) = true := by
  have hbit (b : UInt8) : b.toBitVec.getMsbD c = true ↔ c < 8 ∧ b.toNat.testBit (7 - c) = true := by
    rw [BitVec.getMsbD_eq_getLsbD, Bool.and_eq_true, decide_eq_true_iff]
    rfl
  rcases Nat.lt_or_ge r n with hr | hr
  · have hget : (memory.peeks a n)[r]? = some (memory.peek (a + r)) := by
      simp [Memory.peeks, hr]
    rw [Sprite.lit_of_getElem? hget, hbit]
    simp [hr]
  · have hget : (memory.peeks a n)[r]? = none :=
      List.getElem?_eq_none ((Memory.length_peeks ..).trans_le hr)
    rw [Sprite.lit_of_getElem?_none hget]
    simp [Nat.not_lt.mpr hr]

/-- The sprite covers the pixels in which its stencil is lit. -/
theorem pixel_stencilOf (hpx : px < width) (hpy : py < height) :
    (m.stencilOf w).pixel px py = decide (m.Covers w px py) := by
  have hstencil : m.stencilOf w = Sprite.stencil m.dialect.clipsSprites
    ((m.v.get w.x).toNat % width) ((m.v.get w.y).toNat % height)
    (m.memory.peeks m.index.toNat w.n) := rfl
  have hX : (m.v.get w.x).toNat % width < 64 := Nat.mod_lt _ (by decide)
  have hY : (m.v.get w.y).toNat % height < 32 := Nat.mod_lt _ (by decide)
  rw [hstencil, Bool.eq_iff_iff, decide_eq_true_iff, Covers]
  generalize (m.v.get w.x).toNat % width = X at hX ⊢
  generalize (m.v.get w.y).toNat % height = Y at hY ⊢
  have hc : (((px : ℤ) - X) % (64 : ℕ)).toNat = (px + 64 - X) % 64 := by omega
  have hr : (((py : ℤ) - Y) % (32 : ℕ)).toNat = (py + 32 - Y) % 32 := by omega
  rw [hc, hr, Sprite.pixel_stencil _ _ hX hpx hpy, Bool.and_eq_true, lit_peeks_iff,
    and_assoc, and_assoc]
  generalize (px + 64 - X) % 64 = c
  generalize (py + 32 - Y) % 32 = r
  refine and_congr_right fun _ => and_congr_right fun _ => and_congr_right fun _ => ?_
  cases m.dialect.clipsSprites <;> simp

theorem isBlank_stencilOf_eq_false_iff :
    (m.stencilOf w).isBlank = false ↔ ∃ px < width, ∃ py < height, m.Covers w px py := by
  rw [Picture.isBlank_eq_false_iff]
  refine exists_congr fun px => and_congr_right fun hpx => exists_congr fun py =>
    and_congr_right fun hpy => ?_
  rw [pixel_stencilOf hpx hpy, decide_eq_true_iff]

theorem isBlank_inter_stencilOf_eq_false_iff :
    (m.picture.inter (m.stencilOf w)).isBlank = false ↔
      ∃ px < width, ∃ py < height, m.Covers w px py ∧ m.picture.pixel px py = true := by
  rw [Picture.isBlank_eq_false_iff]
  refine exists_congr fun px => and_congr_right fun hpx => exists_congr fun py =>
    and_congr_right fun hpy => ?_
  rw [Picture.pixel_inter, pixel_stencilOf hpx hpy, Bool.and_eq_true, decide_eq_true_iff, and_comm]

theorem outcome_draw (m : Machine) (w : Word) :
    (m.draw w.x w.y w.n).2 = if (m.stencilOf w).isBlank then .plain else .drawn := by
  have hstencil : m.stencil w.x w.y w.n = m.stencilOf w := rfl
  unfold draw
  dsimp only
  rw [hstencil]
  split_ifs
  · rfl
  · rfl

/-- Turning over the bits of a sprite one after the other is turning over its stencil. -/
theorem draw_strokesOf (m : Machine) (w : Word) :
    Canvas.draw { picture := m.picture } (m.strokesOf w) =
      { picture := m.picture.xor (m.stencilOf w)
        hit := !(m.picture.inter (m.stencilOf w)).isBlank
        changed := !(m.stencilOf w).isBlank } := by
  have hlength : (m.memory.peeks m.index.toNat w.n).length ≤ height := by
    rw [Memory.length_peeks]
    exact w.n.isLt.le.trans (by decide)
  exact Sprite.draw_strokes (Nat.mod_lt _ (by decide)) (Nat.mod_lt _ (by decide)) hlength m.picture

/-- A step at a word that draws turns over the stencil of its sprite. -/
theorem step_turns_stencil (hpc : m.pc ≤ 0xFFE) (hfit : m.word.fits "Dxyn" = true)
    (hI : m.index.toNat + m.word.n.val ≤ 4096) (pad : Keypad) :
    let q := m.stencilOf m.word
    ∃ m', m.step pad = (m', .ok (if q.isBlank then .plain else .drawn)) ∧
      m' = { m with
        pc := addWrapped m.pc 2, v := m'.v, picture := m'.picture, dirty := m'.dirty } ∧
      (∀ k : Register, k ≠ 0xF → m'.v.get k = m.v.get k) ∧
      m'.v.get 0xF = (if (m.picture.inter q).isBlank then 0 else 1) ∧
      m'.picture = m.picture.xor q ∧ m'.dirty = (m.dirty || !q.isBlank) := by
  intro q
  have hstep : m.step pad =
      ((m.advance.draw m.word.x m.word.y m.word.n).1,
        .ok (m.advance.draw m.word.x m.word.y m.word.n).2) :=
    step_of_fits (i := .draw m.word.x m.word.y m.word.n) hpc hfit ⟨rfl, rfl, rfl⟩
      (by simp [Instruction.form]) (Memory.rangeFault_eq_none_iff.mpr hI)
  have hq : m.advance.stencilOf m.word = q := rfl
  rw [outcome_draw, draw_eq, hq] at hstep
  exact ⟨_, hstep, rfl, fun k hk => v_repaint_of_ne hk, v_repaint_last, rfl, rfl⟩

/-- **A sprite is drawn pixel by pixel.** A step at a word `Dxyn` whose sprite lies within memory
turns over the pixels that the sprite covers, and no others. VF says whether one of them was lit,
whichever registers place the sprite; the outcome is that the picture was drawn on if any pixel is
covered, which is if the picture is another one than before, and then the mark of the picture is
raised; and but for the program counter nothing else changes. Turning over the bits of the sprite
one after the other comes to the same. -/
theorem step_draws (hpc : m.pc ≤ 0xFFE) (hfit : m.word.fits "Dxyn" = true)
    (hI : m.index.toNat + m.word.n.val ≤ 4096) (pad : Keypad) :
    ∃ m' e, m.step pad = (m', .ok e) ∧
      (∀ px < width, ∀ py < height, m'.picture.pixel px py =
        Bool.xor (m.picture.pixel px py) (decide (m.Covers m.word px py))) ∧
      m'.v.get 0xF =
        (if ∃ px < width, ∃ py < height, m.Covers m.word px py ∧ m.picture.pixel px py = true
          then 1 else 0) ∧
      e = (if ∃ px < width, ∃ py < height, m.Covers m.word px py then .drawn else .plain) ∧
      ((∃ px < width, ∃ py < height, m.Covers m.word px py) ↔ m'.picture ≠ m.picture) ∧
      (m'.dirty = true ↔ m.dirty = true ∨ m'.picture ≠ m.picture) ∧
      (∀ k : Register, k ≠ 0xF → m'.v.get k = m.v.get k) ∧
      m' = { m with
        pc := addWrapped m.pc 2, v := m'.v, picture := m'.picture, dirty := m'.dirty } ∧
      Canvas.draw { picture := m.picture } (m.strokesOf m.word) =
        { picture := m'.picture, hit := decide (m'.v.get 0xF = 1),
          changed := decide (e = .drawn) } := by
  obtain ⟨m', hstep, hframe, hkept, hflag, hpicture, hdirty⟩ := step_turns_stencil hpc hfit hI pad
  have hcovered := isBlank_stencilOf_eq_false_iff (m := m) (w := m.word)
  have hhit := isBlank_inter_stencilOf_eq_false_iff (m := m) (w := m.word)
  have hother : m'.picture ≠ m.picture ↔ (m.stencilOf m.word).isBlank = false := by
    rw [hpicture]
    exact Picture.xor_ne_self_iff
  have houtcome := Picture.ite_isBlank hcovered Outcome.plain Outcome.drawn
  refine ⟨m', _, hstep, fun px hpx py hpy => ?_, hflag.trans (Picture.ite_isBlank hhit 0 1),
    houtcome, hcovered.symm.trans hother.symm, ?_, hkept, hframe, ?_⟩
  · rw [hpicture, Picture.pixel_xor, pixel_stencilOf hpx hpy]
  · rw [hdirty, hother, Bool.or_eq_true, Bool.not_eq_true']
  · rw [draw_strokesOf, ← hpicture, hflag]
    cases (m.picture.inter (m.stencilOf m.word)).isBlank <;>
      cases (m.stencilOf m.word).isBlank <;> rfl

/-- The first two rows of a zero, placed in the lower right corner by a register and VF, over a lit
pixel: what runs off comes in again at the left and at the top, or is dropped. -/
theorem step_draws_corner :
    let m (clips : Bool) : Machine :=
      { ((fresh { dialect := { clipsSprites := clips }, seed := some 7 } default).putV 0 62).putV
          0xF 31 with
        memory := Font.memory.pokes 0x200 [0xD0, 0xF2]
        picture := Picture.dot 63 31 }
    let corner (p : Picture) : List Bool :=
      [p.pixel 62 31, p.pixel 63 31, p.pixel 0 31, p.pixel 62 0]
    (∀ clips, (m clips).pc ≤ 0xFFE ∧ (m clips).word.fits "Dxyn" = true ∧
      (m clips).index.toNat + (m clips).word.n.val ≤ 4096) ∧
      ∃ m₁ m₂, (m false).step {} = (m₁, .ok .drawn) ∧ (m true).step {} = (m₂, .ok .drawn) ∧
        m₁.v.get 0xF = 1 ∧ corner m₁.picture = [true, false, true, true] ∧
        m₂.v.get 0xF = 1 ∧ corner m₂.picture = [true, false, false, false] := by
  intro m corner
  have hm : ∀ clips, (m clips).pc ≤ 0xFFE ∧ (m clips).word.fits "Dxyn" = true ∧
      (m clips).index.toNat + (m clips).word.n.val ≤ 4096 := by
    decide +kernel
  obtain ⟨m₁, e₁, hstep₁, hpixel₁, hflag₁, he₁, -⟩ :=
    step_draws (hm false).1 (hm false).2.1 (hm false).2.2 {}
  obtain ⟨m₂, e₂, hstep₂, hpixel₂, hflag₂, he₂, -⟩ :=
    step_draws (hm true).1 (hm true).2.1 (hm true).2.2 {}
  have hcovers : (m false).Covers (m false).word 63 31 ∧ (m true).Covers (m true).word 63 31 := by
    decide +kernel
  have hlit (clips : Bool) : (m clips).picture.pixel 63 31 = true := by
    show (Picture.dot 63 31).pixel 63 31 = true
    decide +kernel
  rw [if_pos ⟨63, by decide, 31, by decide, hcovers.1⟩] at he₁
  rw [if_pos ⟨63, by decide, 31, by decide, hcovers.2⟩] at he₂
  rw [if_pos ⟨63, by decide, 31, by decide, hcovers.1, hlit _⟩] at hflag₁
  rw [if_pos ⟨63, by decide, 31, by decide, hcovers.2, hlit _⟩] at hflag₂
  rw [he₁] at hstep₁
  rw [he₂] at hstep₂
  refine ⟨hm, m₁, m₂, hstep₁, hstep₂, hflag₁, ?_, hflag₂, ?_⟩
  · simp only [corner]
    rw [hpixel₁ 62 (by decide) 31 (by decide), hpixel₁ 63 (by decide) 31 (by decide),
      hpixel₁ 0 (by decide) 31 (by decide), hpixel₁ 62 (by decide) 0 (by decide)]
    decide +kernel
  · simp only [corner]
    rw [hpixel₂ 62 (by decide) 31 (by decide), hpixel₂ 63 (by decide) 31 (by decide),
      hpixel₂ 0 (by decide) 31 (by decide), hpixel₂ 62 (by decide) 0 (by decide)]
    decide +kernel

end

end ChipEight.Machine
