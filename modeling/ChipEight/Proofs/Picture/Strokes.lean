import ChipEight.Proofs.Picture.Overlay
import ChipEight.Proofs.Picture.Stencil

/-!
# Drawing bit by bit

A sprite can be drawn one bit at a time, row by row and from left to right: each bit that is set
turns over the pixel it lies on, and a clipped sprite is left at the edges. `Sprite.strokes` lists
the pixels in the order in which they are turned over, and no pixel comes twice (`nodup_strokes`),
not even in a sprite that comes in again at the other side. So what is on the canvas in the end,
and what was noticed on the way, is what the stencil of the sprite says at once
(`draw_strokes`).
-/

namespace ChipEight

namespace Picture

/-- The picture in which one pixel is lit. -/
def dot (x y : ℕ) : Picture :=
  ofRows fun row => if row = y then BitVec.twoPow width (width - 1 - x) else 0

theorem pixel_dot {x y px py : ℕ} (hx : x < width) (hpy : py < height) :
    (dot x y).pixel px py = decide ((px, py) = (x, y)) := by
  have hsub : width - (width - 1 - x) - 1 = x := by omega
  have hlt : width - 1 - x < width := by omega
  rw [pixel, dot, row_ofRows _ hpy]
  split_ifs with hy
  · rw [BitVec.getMsbD_twoPow, hsub, decide_eq_true hlt, Bool.true_and]
    simp [hy]
  · rw [decide_eq_false fun h => hy (congrArg Prod.snd h)]
    exact BitVec.getMsbD_zero

end Picture

open Picture

/-! ## A canvas -/

/-- A picture while a sprite is drawn, with what was noticed so far. -/
structure Canvas where
  picture : Picture
  /-- A pixel was lit when it was turned over. -/
  hit : Bool := false
  /-- A pixel was turned over. -/
  changed : Bool := false

namespace Canvas

/-- Turns a pixel over. -/
def turn (s : Canvas) (cell : ℕ × ℕ) : Canvas where
  picture := s.picture.xor (dot cell.1 cell.2)
  hit := s.hit || s.picture.pixel cell.1 cell.2
  changed := true

/-- Turns pixels over, one after the other. -/
def draw (s : Canvas) (cells : List (ℕ × ℕ)) : Canvas := cells.foldl turn s

/-- Pixels that are all different are each turned over once, and found as they were at first. -/
theorem draw_eq {cells : List (ℕ × ℕ)} (hnodup : cells.Nodup)
    (hcells : ∀ cell ∈ cells, cell.1 < width ∧ cell.2 < height) (s : Canvas) :
    (∀ px py, py < height → (s.draw cells).picture.pixel px py =
        Bool.xor (s.picture.pixel px py) (decide ((px, py) ∈ cells))) ∧
      (s.draw cells).hit = (s.hit || cells.any fun cell => s.picture.pixel cell.1 cell.2) ∧
      (s.draw cells).changed = (s.changed || !cells.isEmpty) := by
  induction cells generalizing s with
  | nil => simp [draw]
  | cons cell cells ih =>
    obtain ⟨hnew, hnodup'⟩ := List.nodup_cons.mp hnodup
    obtain ⟨⟨hx, hy⟩, hcells'⟩ := List.forall_mem_cons.mp hcells
    have hturn : ∀ px py, py < height → (s.turn cell).picture.pixel px py =
        Bool.xor (s.picture.pixel px py) (decide ((px, py) = cell)) := fun px py hpy => by
      rw [turn, pixel_xor, pixel_dot hx hpy]
    obtain ⟨hpicture, hhit, hchanged⟩ := ih hnodup' hcells' (s.turn cell)
    refine ⟨fun px py hpy => ?_, ?_, ?_⟩
    · refine (hpicture px py hpy).trans ?_
      rw [hturn px py hpy, Bool.xor_assoc]
      by_cases heq : (px, py) = cell
      · obtain rfl := heq
        simp [hnew]
      · simp [heq]
    · -- The pixels still to come are as they were.
      have hsame : (cells.any fun cell' => (s.turn cell).picture.pixel cell'.1 cell'.2) =
          cells.any fun cell' => s.picture.pixel cell'.1 cell'.2 := by
        rw [Bool.eq_iff_iff, List.any_eq_true, List.any_eq_true]
        refine exists_congr fun cell' => and_congr_right fun hmem => ?_
        have hne : (cell'.1, cell'.2) ≠ cell := fun h => hnew (h ▸ hmem)
        rw [hturn _ _ (hcells' cell' hmem).2, decide_eq_false hne, Bool.xor_false]
      refine hhit.trans ?_
      rw [hsame, turn, List.any_cons, Bool.or_assoc]
    · refine hchanged.trans ?_
      simp [turn]

end Canvas

/-! ## The strokes of a sprite -/

namespace Sprite

/-- The first `n` numbers, up to the one that leads from `start` to an edge if that is an end. -/
def upTo (clipped : Bool) (edge start n : ℕ) : List ℕ :=
  (List.range n).takeWhile fun k => !(clipped && decide (edge ≤ start + k))

theorem mem_takeWhile_iff {l : List ℕ} {p : ℕ → Bool} {k : ℕ} (hl : l.Pairwise (· < ·))
    (hp : ∀ a b, a < b → p b = true → p a = true) :
    k ∈ l.takeWhile p ↔ k ∈ l ∧ p k = true := by
  induction l with
  | nil => simp
  | cons a l ih =>
    obtain ⟨ha, hl'⟩ := List.pairwise_cons.mp hl
    by_cases hpa : p a = true
    · rw [List.takeWhile_cons_of_pos hpa, List.mem_cons, List.mem_cons, ih hl', or_and_right]
      exact or_congr_left ⟨fun h => ⟨h, h ▸ hpa⟩, And.left⟩
    · -- Whatever comes after `a` fails as `a` does.
      rw [List.takeWhile_cons_of_neg hpa]
      refine iff_of_false List.not_mem_nil fun ⟨hmem, hk⟩ => hpa ?_
      rcases List.mem_cons.mp hmem with rfl | hmem
      · exact hk
      · exact hp a k (ha k hmem) hk

theorem mem_upTo {clipped : Bool} {edge start n k : ℕ} :
    k ∈ upTo clipped edge start n ↔ k < n ∧ (clipped = true → start + k < edge) := by
  have hp : ∀ k, (!(clipped && decide (edge ≤ start + k))) = true ↔
      (clipped = true → start + k < edge) := fun k => by
    cases clipped <;> simp
  rw [upTo, mem_takeWhile_iff List.pairwise_lt_range, List.mem_range, hp]
  intro a b hab hb
  rw [hp] at hb ⊢
  exact fun h => (Nat.add_lt_add_left hab start).trans (hb h)

theorem nodup_upTo (clipped : Bool) (edge start n : ℕ) : (upTo clipped edge start n).Nodup :=
  List.nodup_range.sublist (List.takeWhile_sublist _)

/-- The pixels that the bits of a sprite lie on, row by row and from left to right. -/
def strokes (clipped : Bool) (x y : ℕ) (bytes : List UInt8) : List (ℕ × ℕ) :=
  (upTo clipped height y bytes.length ×ˢ upTo clipped width x 8).filter
      (fun (r, c) => lit bytes r c)
    |>.map fun (r, c) => ((x + c) % width, (y + r) % height)

section

variable {clipped : Bool} {x y px py : ℕ} {bytes : List UInt8}

theorem mem_strokes :
    (px, py) ∈ strokes clipped x y bytes ↔
      ∃ r c, lit bytes r c = true ∧ (clipped = true → x + c < width ∧ y + r < height) ∧
        px = (x + c) % width ∧ py = (y + r) % height := by
  rw [strokes, List.mem_map]
  constructor
  · rintro ⟨⟨r, c⟩, hmem, heq⟩
    obtain ⟨hrc, hlit⟩ := List.mem_filter.mp hmem
    obtain ⟨hr, hc⟩ := List.mem_product.mp hrc
    obtain ⟨hpx, hpy⟩ := Prod.mk.inj heq
    exact ⟨r, c, hlit, fun h => ⟨(mem_upTo.mp hc).2 h, (mem_upTo.mp hr).2 h⟩, hpx.symm, hpy.symm⟩
  · rintro ⟨r, c, hlit, hinside, rfl, rfl⟩
    obtain ⟨hr, hc⟩ := lt_of_lit hlit
    refine ⟨(r, c), List.mem_filter.mpr ⟨List.mem_product.mpr ⟨?_, ?_⟩, hlit⟩, rfl⟩
    · exact mem_upTo.mpr ⟨hr, fun h => (hinside h).2⟩
    · exact mem_upTo.mpr ⟨hc, fun h => (hinside h).1⟩

/-- No two bits of a sprite lie on one pixel. -/
theorem nodup_strokes (hlength : bytes.length ≤ height) : (strokes clipped x y bytes).Nodup := by
  refine List.Nodup.map_on ?_ (((nodup_upTo ..).product (nodup_upTo ..)).filter _)
  rintro ⟨r, c⟩ h ⟨r', c'⟩ h' heq
  obtain ⟨hx, hy⟩ := Prod.mk.inj heq
  obtain ⟨hr, hc⟩ := lt_of_lit (List.mem_filter.mp h).2
  obtain ⟨hr', hc'⟩ := lt_of_lit (List.mem_filter.mp h').2
  have hrow : r = r' := Nat.ModEq.eq_of_lt_of_lt (Nat.ModEq.add_left_cancel' y hy)
    (hr.trans_le hlength) (hr'.trans_le hlength)
  have hcolumn : c = c' := Nat.ModEq.eq_of_lt_of_lt (Nat.ModEq.add_left_cancel' x hx)
    (hc.trans (by decide)) (hc'.trans (by decide))
  rw [hrow, hcolumn]

theorem offset_of_cell {edge start k : ℕ} (hstart : start < edge) (hk : k < edge) :
    ((start + k) % edge + edge - start) % edge = k := by
  rcases Nat.lt_or_ge (start + k) edge with hlt | hge
  · rw [Nat.mod_eq_of_lt hlt, Nat.add_assoc, Nat.add_sub_cancel_left, Nat.add_mod_right,
      Nat.mod_eq_of_lt hk]
  · have hcell : (start + k) % edge = start + k - edge := by
      rw [Nat.mod_eq_sub_mod hge, Nat.mod_eq_of_lt (by omega)]
    have hoffset : start + k - edge + edge - start = k := by omega
    rw [hcell, hoffset, Nat.mod_eq_of_lt hk]

theorem cell_of_offset {edge start p : ℕ} (hstart : start < edge) (hp : p < edge) :
    (start + (p + edge - start) % edge) % edge = p := by
  have hsum : start + (p + edge - start) = p + edge := by omega
  rw [Nat.add_mod_mod, hsum, Nat.add_mod_right, Nat.mod_eq_of_lt hp]

/-- The strokes are the pixels in which the stencil is lit. -/
theorem mem_strokes_iff (hlength : bytes.length ≤ height) (hx : x < width) (hy : y < height)
    (hpx : px < width) (hpy : py < height) :
    (px, py) ∈ strokes clipped x y bytes ↔ (stencil clipped x y bytes).pixel px py = true := by
  rw [pixel_stencil clipped bytes hx hpx hpy, mem_strokes]
  constructor
  · rintro ⟨r, c, hlit, hinside, rfl, rfl⟩
    obtain ⟨hr, hc⟩ := lt_of_lit hlit
    rw [offset_of_cell hx (hc.trans (by decide)), offset_of_cell hy (hr.trans_le hlength), hlit,
      Bool.true_and, Bool.not_eq_true', Bool.and_eq_false_imp]
    intro hclipped
    obtain ⟨hcolumn, hrow⟩ := hinside hclipped
    rw [decide_eq_false (Nat.not_le.mpr hcolumn), decide_eq_false (Nat.not_le.mpr hrow),
      Bool.or_self]
  · intro h
    rw [Bool.and_eq_true, Bool.not_eq_true', Bool.and_eq_false_imp] at h
    refine ⟨_, _, h.1, fun hclipped => ?_, (cell_of_offset hx hpx).symm,
      (cell_of_offset hy hpy).symm⟩
    obtain ⟨hcolumn, hrow⟩ := Bool.or_eq_false_iff.mp (h.2 hclipped)
    exact ⟨Nat.not_le.mp (of_decide_eq_false hcolumn), Nat.not_le.mp (of_decide_eq_false hrow)⟩

/-- **Drawing bit by bit** turns over the pixels of the stencil, notices a hit where the stencil
meets the picture, and a change if the stencil is lit anywhere. -/
theorem draw_strokes (hx : x < width) (hy : y < height) (hlength : bytes.length ≤ height)
    (p : Picture) :
    let q := stencil clipped x y bytes
    Canvas.draw { picture := p } (strokes clipped x y bytes) =
      { picture := p.xor q, hit := !(p.inter q).isBlank, changed := !q.isBlank } := by
  intro q
  have hcells : ∀ cell ∈ strokes clipped x y bytes, cell.1 < width ∧ cell.2 < height := by
    rintro ⟨px, py⟩ hmem
    obtain ⟨r, c, -, -, rfl, rfl⟩ := mem_strokes.mp hmem
    exact ⟨Nat.mod_lt _ (by decide), Nat.mod_lt _ (by decide)⟩
  obtain ⟨hpicture, hhit, hchanged⟩ :=
    Canvas.draw_eq (nodup_strokes hlength) hcells { picture := p }
  have hmem {px py : ℕ} (hpx : px < width) (hpy : py < height) :
      (px, py) ∈ strokes clipped x y bytes ↔ q.pixel px py = true :=
    mem_strokes_iff hlength hx hy hpx hpy
  generalize Canvas.draw _ _ = s at hpicture hhit hchanged ⊢
  obtain ⟨picture, hit, changed⟩ := s
  rw [Canvas.mk.injEq]
  refine ⟨ext_pixel fun px py hpx hpy => ?_, ?_, ?_⟩
  · refine (hpicture px py hpy).trans ?_
    rw [pixel_xor, Bool.eq_iff_iff.mpr (decide_eq_true_iff.trans (hmem hpx hpy))]
  · refine hhit.trans ?_
    rw [Bool.false_or, Bool.eq_iff_iff, List.any_eq_true, Bool.not_eq_true', isBlank_eq_false_iff]
    constructor
    · rintro ⟨⟨px, py⟩, hstroke, hlit⟩
      obtain ⟨hpx, hpy⟩ := hcells _ hstroke
      refine ⟨px, hpx, py, hpy, ?_⟩
      rw [pixel_inter, hlit, (hmem hpx hpy).mp hstroke, Bool.and_self]
    · rintro ⟨px, hpx, py, hpy, hlit⟩
      rw [pixel_inter, Bool.and_eq_true] at hlit
      exact ⟨(px, py), (hmem hpx hpy).mpr hlit.2, hlit.1⟩
  · refine hchanged.trans ?_
    rw [Bool.false_or, Bool.eq_iff_iff, Bool.not_eq_true', Bool.not_eq_true', isBlank_eq_false_iff,
      List.isEmpty_eq_false_iff_exists_mem]
    constructor
    · rintro ⟨⟨px, py⟩, hstroke⟩
      obtain ⟨hpx, hpy⟩ := hcells _ hstroke
      exact ⟨px, hpx, py, hpy, (hmem hpx hpy).mp hstroke⟩
    · rintro ⟨px, hpx, py, hpy, hlit⟩
      exact ⟨(px, py), (hmem hpx hpy).mpr hlit⟩

end

end Sprite

end ChipEight
