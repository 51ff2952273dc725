import ChipEight.CommandLine.Run
import ChipEight.Text.Blank
import Mathlib.Data.List.DropRight
import Mathlib.Data.List.GetD
import Mathlib.Tactic

/-!
# Reading a picture off its text

A picture and its text determine each other. Sixteen lines of 64 block characters (`IsText`) are the
text of exactly one picture: `ofLines` finds the picture again (`ofLines_lines`) and `lines` finds
the text (`IsText.lines_ofLines`). The blanks at the end of a line can be cut off, since a line that
is too short is read as if blanks followed it (`getD_trimmed`).
-/

namespace ChipEight

namespace Picture

/-! ## Characters -/

/-- The characters that a picture is written with. -/
def blocks : List Char := [' ', '▀', '▄', '█']

theorem forall_mem_blocks {P : Char → Prop} :
    (∀ c ∈ blocks, P c) ↔ P ' ' ∧ P '▀' ∧ P '▄' ∧ P '█' := by
  simp [blocks]

theorem halfBlock_mem_blocks (upper lower : Bool) : halfBlock upper lower ∈ blocks := by
  cases upper <;> cases lower <;> decide

theorem halfBlock_halves : ∀ c ∈ blocks, halfBlock (halves c).1 (halves c).2 = c :=
  forall_mem_blocks.mpr ⟨rfl, rfl, rfl, rfl⟩

/-- The space is the only block character that is blank. -/
theorem isBlank_of_mem_blocks : ∀ c ∈ blocks, Text.isBlank c = (c == ' ') :=
  forall_mem_blocks.mpr ⟨rfl, rfl, rfl, rfl⟩

/-! ## Lines -/

/-- The text has the shape of a picture's. -/
structure IsText (text : List (List Char)) : Prop where
  length_eq : text.length = 16
  length_line : ∀ l ∈ text, l.length = 64
  mem_blocks : ∀ l ∈ text, ∀ c ∈ l, c ∈ blocks

variable {p : Picture} {text : List (List Char)}

theorem mem_blocks_of_mem_line {k : ℕ} {c : Char} (hc : c ∈ p.line k) : c ∈ blocks := by
  obtain ⟨x, -, rfl⟩ := List.mem_map.mp hc
  exact halfBlock_mem_blocks _ _

theorem getD_line (p : Picture) (k : ℕ) {x : ℕ} (hx : x < width) :
    (p.line k).getD x ' ' = halfBlock (p.pixel x (2 * k)) (p.pixel x (2 * k + 1)) := by
  simp [line, List.getD_eq_getElem?_getD, List.getElem?_range hx]

theorem getD_lines (p : Picture) {k : ℕ} (hk : k < lineCount) : p.lines.getD k [] = p.line k := by
  simp [lines, List.getD_eq_getElem?_getD, List.getElem?_range hk]

theorem isText_lines (p : Picture) : IsText p.lines where
  length_eq := (List.length_map _).trans List.length_range
  length_line l hl := by
    obtain ⟨k, -, rfl⟩ := List.mem_map.mp hl
    rw [line, List.length_map, List.length_range]
  mem_blocks l hl c hc := by
    obtain ⟨k, -, rfl⟩ := List.mem_map.mp hl
    exact mem_blocks_of_mem_line hc

/-! ## Reading -/

theorem getMsbD_rowOf (f : ℕ → Bool) {x : ℕ} (hx : x < width) : (rowOf f).getMsbD x = f x := by
  simp [rowOf, BitVec.getMsbD_setWidth, BitVec.getMsbD_ofBoolListBE, hx]

theorem pixel_ofLines (text : List (List Char)) {x y : ℕ} (hx : x < width) (hy : y < height) :
    (ofLines text).pixel x y =
      let shown := halves ((text.getD (y / 2) []).getD x ' ')
      if y % 2 = 0 then shown.1 else shown.2 := by
  rw [pixel, ofLines, row_ofRows _ hy, getMsbD_rowOf _ hx]

theorem ofLines_lines (p : Picture) : ofLines p.lines = p := by
  refine ext_pixel fun x y hx hy => ?_
  have hline : y / 2 < lineCount := Nat.div_lt_of_lt_mul hy
  rw [pixel_ofLines _ hx hy, getD_lines p hline, getD_line p _ hx, halves_halfBlock]
  rcases Nat.mod_two_eq_zero_or_one y with heven | hodd
  · have hy' : 2 * (y / 2) = y := by omega
    rw [hy', if_pos heven]
  · have hy' : 2 * (y / 2) + 1 = y := by omega
    rw [hy', if_neg (by omega)]

/-- The line is read character by character. -/
theorem line_ofLines (text : List (List Char)) {k : ℕ} (hk : k < lineCount) :
    (ofLines text).line k = (List.range width).map fun x =>
      let c := (text.getD k []).getD x ' '
      halfBlock (halves c).1 (halves c).2 := by
  refine List.map_congr_left fun x hx => ?_
  have hx : x < width := List.mem_range.mp hx
  have hdiv : 2 * k / 2 = k ∧ (2 * k + 1) / 2 = k := by omega
  have hlower : 2 * k + 1 < height := Nat.lt_of_div_lt_div (hdiv.2.trans_lt hk)
  have hmod : 2 * k % 2 = 0 ∧ (2 * k + 1) % 2 ≠ 0 := by omega
  rw [pixel_ofLines _ hx (Nat.lt_of_succ_lt hlower), pixel_ofLines _ hx hlower, hdiv.1, hdiv.2,
    if_pos hmod.1, if_neg hmod.2]

theorem IsText.line_ofLines (h : IsText text) {k : ℕ} (hk : k < text.length) :
    (ofLines text).line k = text[k] := by
  have hlength : text[k].length = width := h.length_line _ (List.getElem_mem hk)
  rw [Picture.line_ofLines text (hk.trans_eq h.length_eq), List.getD_eq_getElem _ _ hk]
  refine List.ext_getElem (by rw [List.length_map, List.length_range, hlength]) fun x _ hx => ?_
  rw [List.getElem_map, List.getElem_range, List.getD_eq_getElem _ _ hx]
  exact halfBlock_halves _ (h.mem_blocks _ (List.getElem_mem hk) _ (List.getElem_mem hx))

theorem IsText.lines_ofLines (h : IsText text) : (ofLines text).lines = text := by
  refine List.ext_getElem ?_ fun k _ hk => ?_
  · rw [(isText_lines _).length_eq, h.length_eq]
  · rw [← h.line_ofLines hk]
    simp [lines]

/-! ## Blanks at the end of a line -/

theorem trimmed_eq_rdropWhile (l : List Char) : trimmed l = l.rdropWhile (· == ' ') := rfl

theorem getD_trimmed (l : List Char) (x : ℕ) : (trimmed l).getD x ' ' = l.getD x ' ' := by
  rw [trimmed_eq_rdropWhile]
  induction l using List.reverseRecOn with
  | nil => rfl
  | append_singleton l c ih =>
    rw [List.rdropWhile_concat]
    split_ifs with hc
    · rw [ih, beq_iff_eq.mp hc]
      rcases lt_trichotomy x l.length with hx | rfl | hx
      · rw [List.getD_append _ _ _ _ hx]
      · simp [List.getD_eq_getElem?_getD]
      · rw [List.getD_eq_default _ _ hx.le, List.getD_eq_default]
        rw [List.length_append, List.length_singleton]
        exact hx
    · rfl

theorem ofLines_map_trimmed (text : List (List Char)) :
    ofLines (text.map trimmed) = ofLines text := by
  refine ext_pixel fun x y hx hy => ?_
  have hline : (text.map trimmed).getD (y / 2) [] = trimmed (text.getD (y / 2) []) :=
    List.getD_map text [] trimmed
  rw [pixel_ofLines _ hx hy, pixel_ofLines _ hx hy, hline, getD_trimmed]

/-- On block characters it makes no difference whether spaces are cut off or all that is blank. -/
theorem trimmed_eq_of_mem_blocks {l : List Char} (h : ∀ c ∈ l, c ∈ blocks) :
    trimmed l = l.rdropWhile Text.isBlank := by
  rw [trimmed_eq_rdropWhile]
  induction l using List.reverseRecOn with
  | nil => rfl
  | append_singleton l c ih =>
    have hc : Text.isBlank c = (c == ' ') := isBlank_of_mem_blocks c (h c (by simp))
    rw [List.rdropWhile_concat, List.rdropWhile_concat, hc,
      ih fun c hc => h c (List.mem_append_left _ hc)]

end Picture

namespace Command

open Picture

theorem map_toList_printed (p : Picture) : (printed p).map String.toList = p.lines.map trimmed := by
  simp [printed, Function.comp_def]

theorem printed_eq (p : Picture) :
    printed p = p.lines.map fun l => String.ofList (l.rdropWhile Text.isBlank) := by
  refine List.map_congr_left fun l hl => ?_
  rw [trimmed_eq_of_mem_blocks ((isText_lines p).mem_blocks l hl)]

end Command

end ChipEight
