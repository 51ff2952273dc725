import ChipEight.Picture.Sprite
import Mathlib.Tactic

/-!
# The pixels of a sprite

Bit `c` of byte `r` of a sprite at `x`, `y` belongs to column `x + c` and row `y + r`, counted round
the edges of the picture. A stencil is lit where that bit is, except that a clipped sprite leaves
out what lies beyond the right or the lower edge (`pixel_stencil`). So it makes no difference
whether a sprite is clipped if it does not run off the picture (`stencil_eq_of_not_runsOff`).
-/

namespace ChipEight.Sprite

open Picture

/-- Bit `c` of byte `r` of a sprite, the bits counted from the left. -/
def lit (bytes : List UInt8) (r c : ℕ) : Bool := (bytes.getD r 0).toBitVec.getMsbD c

theorem lit_of_getElem? {bytes : List UInt8} {r : ℕ} {b : UInt8} (h : bytes[r]? = some b) (c : ℕ) :
    lit bytes r c = b.toBitVec.getMsbD c := by
  rw [lit, List.getD_eq_getElem?_getD, h, Option.getD_some]

theorem lit_of_getElem?_none {bytes : List UInt8} {r : ℕ} (h : bytes[r]? = none) (c : ℕ) :
    lit bytes r c = false := by
  rw [lit, List.getD_eq_getElem?_getD, h, Option.getD_none]
  exact BitVec.getMsbD_zero

/-- Only the eight bits of the bytes that there are can be lit. -/
theorem lt_of_lit {bytes : List UInt8} {r c : ℕ} (h : lit bytes r c = true) :
    r < bytes.length ∧ c < 8 := by
  constructor
  · by_contra hr
    rw [lit_of_getElem?_none (List.getElem?_eq_none (Nat.not_lt.mp hr))] at h
    exact Bool.false_ne_true h
  · exact BitVec.lt_of_getMsbD h

/-- Some lit bit of the sprite lies beyond the right or the lower edge. -/
def RunsOff (x y : ℕ) (bytes : List UInt8) : Prop :=
  ∃ r < bytes.length, ∃ c < 8, lit bytes r c = true ∧ (width ≤ x + c ∨ height ≤ y + r)

instance (x y : ℕ) (bytes : List UInt8) : Decidable (RunsOff x y bytes) :=
  inferInstanceAs (Decidable (∃ r < bytes.length, ∃ c < 8, _))

/-! ## Rows -/

theorem getMsbD_leftmost (b : UInt8) (k : ℕ) :
    (b.toBitVec.setWidth width <<< 56).getMsbD k = b.toBitVec.getMsbD k := by
  have hle : width - 8 ≤ k + 56 := Nat.le_add_left 56 k
  have hsub : k + 56 + 8 - width = k := Nat.add_sub_cancel k 64
  rw [BitVec.getMsbD_shiftLeft, BitVec.getMsbD_setWidth, hsub, decide_eq_true hle, Bool.true_and]

/-- Pixel `k` of a row shows the bit that lies on it, or none if that bit was dropped. -/
theorem getMsbD_stencilRow (clipped : Bool) (b : UInt8) {x k : ℕ} (hx : x < width)
    (hk : k < width) :
    (stencilRow clipped x b).getMsbD k =
      (b.toBitVec.getMsbD ((k + width - x) % width) &&
        !(clipped && decide (width ≤ x + (k + width - x) % width))) := by
  have hleft := getMsbD_leftmost b
  unfold stencilRow
  dsimp only
  generalize b.toBitVec.setWidth width <<< 56 = left at hleft
  by_cases hlt : k < x
  · -- The bit comes in again from the right edge.
    have hbit : (k + width - x) % width = k + width - x := Nat.mod_eq_of_lt (by omega)
    have hbeyond : width ≤ x + (k + width - x) := by omega
    cases clipped with
    | true => simp [BitVec.getMsbD_ushiftRight, hlt, hbit, hbeyond]
    | false =>
      simp [BitVec.getMsbD_rotateRight, hk, Nat.mod_eq_of_lt hx, hlt, hleft, hbit,
        Nat.add_comm width k]
  · have hbit : (k + width - x) % width = k - x := by
      rw [Nat.sub_add_comm (Nat.not_lt.mp hlt), Nat.add_mod_right, Nat.mod_eq_of_lt (by omega)]
    have hinside : ¬ width ≤ x + (k - x) := by omega
    cases clipped with
    | true => simp [BitVec.getMsbD_ushiftRight, hk, hlt, hleft, hbit, hinside]
    | false =>
      simp [BitVec.getMsbD_rotateRight, hk, Nat.mod_eq_of_lt hx, hlt, hleft, hbit]

/-! ## Pixels -/

/-- **Where a stencil is lit.** Column `px` and row `py` show bit `c` of byte `r` of the sprite,
unless the sprite is clipped and that bit lies beyond an edge. -/
theorem pixel_stencil (clipped : Bool) (bytes : List UInt8) {x y px py : ℕ} (hx : x < width)
    (hpx : px < width) (hpy : py < height) :
    let r := (py + height - y) % height
    let c := (px + width - x) % width
    (stencil clipped x y bytes).pixel px py =
      (lit bytes r c && !(clipped && (decide (width ≤ x + c) || decide (height ≤ y + r)))) := by
  intro r c
  have hr : (py + height - y) % height = r := rfl
  rw [pixel, stencil, row_ofRows _ hpy]
  unfold stencilAt
  dsimp only
  rw [hr]
  split_ifs with hrow
  · rw [Bool.and_eq_true] at hrow
    simp [hrow.1, hrow.2]
  · rcases hb : bytes[r]? with _ | b
    · rw [lit_of_getElem?_none hb, Bool.false_and]
      exact BitVec.getMsbD_zero
    · have hrow' : (clipped && decide (height ≤ y + r)) = false := Bool.eq_false_iff.mpr hrow
      rw [lit_of_getElem? hb, Bool.and_or_distrib_left, hrow', Bool.or_false]
      exact getMsbD_stencilRow clipped b hx hpx

/-- To clip a sprite makes no difference if it does not run off the picture. -/
theorem stencil_eq_of_not_runsOff {x y : ℕ} {bytes : List UInt8} (hx : x < width)
    (h : ¬ RunsOff x y bytes) (clipped clipped' : Bool) :
    stencil clipped x y bytes = stencil clipped' x y bytes := by
  refine ext_pixel fun px py hpx hpy => ?_
  rw [pixel_stencil clipped bytes hx hpx hpy, pixel_stencil clipped' bytes hx hpx hpy]
  rcases hlit : lit bytes ((py + height - y) % height) ((px + width - x) % width) with _ | _
  · rfl
  · obtain ⟨hr, hc⟩ := lt_of_lit hlit
    have hcolumn : ¬ width ≤ x + (px + width - x) % width := fun hle =>
      h ⟨_, hr, _, hc, hlit, Or.inl hle⟩
    have hrow : ¬ height ≤ y + (py + height - y) % height := fun hle =>
      h ⟨_, hr, _, hc, hlit, Or.inr hle⟩
    simp [hcolumn, hrow]

end ChipEight.Sprite
