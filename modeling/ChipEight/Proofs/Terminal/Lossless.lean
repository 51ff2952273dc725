import ChipEight.Proofs.Picture.Lines
import ChipEight.Proofs.Terminal.Emulator
import ChipEight.Proofs.Terminal.Truncating

/-!
# A picture on a terminal

What `Screen.render` writes paints the lines of the picture, from top to bottom, into the upper left
corner of a terminal (`Terminal.run_script`): each line begins with a move to its own row, so that
nothing depends on where the cursor was, and no line is longer than a row, so that none runs into
the next (`Grid.cell_paint`). The lines are the picture (`Screen.text_lossless`).
-/

namespace ChipEight

open Picture

namespace Grid

variable {width height : ℕ} {g : Grid width height}

/-- Prints the first `n` lines of a picture, each from the start of its row. -/
def paint (g : Grid width height) (p : Picture) (n : ℕ) : Grid width height :=
  (List.range n).foldl (fun g k => (g.moveCursor (k + 1) 1).print (p.line k)) g

theorem paint_succ (g : Grid width height) (p : Picture) (n : ℕ) :
    g.paint p (n + 1) = ((g.paint p n).moveCursor (n + 1) 1).print (p.line n) := by
  simp [paint, List.range_succ]

theorem cell_paint (hwidth : 64 ≤ width) (p : Picture) {n : ℕ} (hn : n ≤ height) (x y : ℕ) :
    (g.paint p n).cell x y = if x < 64 ∧ y < n then (p.line y).getD x ' ' else g.cell x y := by
  induction n with
  | zero => rw [if_neg fun h => Nat.not_lt_zero y h.2, paint, List.range_zero, List.foldl_nil]
  | succ n ih =>
    let start := (g.paint p n).moveCursor (n + 1) 1
    have hrow : start.row = n := Nat.min_eq_left (by omega)
    have hcolumn : start.column = 0 := Nat.zero_min _
    have hfits : start.column + (p.line n).length ≤ width := by
      rw [hcolumn, length_line, Nat.zero_add]
      exact hwidth
    have hcell : start.cell x y = (g.paint p n).cell x y := rfl
    rw [paint_succ, cell_print rfl hfits, hrow, hcolumn, length_line, hcell,
      ih (Nat.le_of_succ_le hn)]
    by_cases hx : x < 64
    · rcases lt_trichotomy y n with hy | rfl | hy
      · rw [if_neg fun h => hy.ne h.1, if_pos ⟨hx, hy⟩, if_pos ⟨hx, by omega⟩]
      · rw [if_pos (by omega), if_pos ⟨hx, Nat.lt_succ_self y⟩, Nat.sub_zero]
      · rw [if_neg fun h => hy.ne' h.1, if_neg (by omega), if_neg (by omega)]
    · rw [if_neg (by omega), if_neg fun h => hx h.1, if_neg fun h => hx h.1]

theorem corner_eq_lines {p : Picture}
    (h : ∀ x y, x < 64 → y < 16 → g.cell x y = (p.line y).getD x ' ') :
    g.corner 64 16 = p.lines := by
  refine List.map_congr_left fun y hy => List.map_congr_left fun x hx => ?_
  have hx : x < 64 := List.mem_range.mp hx
  rw [h x y hx (List.mem_range.mp hy), getD_line p y hx]

end Grid

namespace Terminal

variable {width height : ℕ} {t : Terminal width height}

theorem isControl_of_mem_blocks : ∀ c ∈ blocks, isControl c = false :=
  forall_mem_blocks.mpr ⟨rfl, rfl, rfl, rfl⟩

/-- One line of a picture, with the move before it. -/
theorem run_line (hphase : t.phase = .text) (p : Picture) (k : ℕ) :
    t.run (Screen.moveTo k ++ p.line k) =
      { t with grid := (t.grid.moveCursor (k + 1) 1).print (p.line k) } := by
  rw [run_append, run_moveTo hphase, run_eq_print]
  · exact hphase
  · exact fun c hc => isControl_of_mem_blocks c (mem_blocks_of_mem_line hc)

theorem run_script (hphase : t.phase = .text) (p : Picture) :
    t.run (Screen.script p) = { t with grid := t.grid.paint p lineCount } := by
  unfold Screen.script
  generalize lineCount = n
  induction n with
  | zero => rfl
  | succ n ih =>
    have hphase' : { t with grid := t.grid.paint p n }.phase = .text := hphase
    rw [List.range_succ, List.flatMap_append, List.flatMap_singleton, run_append, ih,
      run_line hphase', Grid.paint_succ]

end Terminal

namespace Screen

/-- **The text of a picture is the picture.** A picture takes sixteen lines of 64 characters out of
space, upper half, lower half and full block, and is read back from them. It is also read back from
the lines that are printed, which end before their trailing white space. Every text of that shape,
trimmed or not, is the text of the picture it shows.

On a terminal of at least 64 by 16 cells, whatever stands on it and wherever the cursor is, the
bytes that one `render` writes leave the lines of the picture in the upper left corner, and all other
cells as they were; the terminal then is ready for more. -/
theorem text_lossless :
    (∀ p : Picture,
      IsText p.lines ∧ ofLines p.lines = p ∧
        Command.printed p = p.lines.map (fun l => String.ofList (l.rdropWhile Text.isBlank)) ∧
        ofLines ((Command.printed p).map String.toList) = p) ∧
      (∀ text : List (List Char), IsText text →
        (ofLines text).lines = text ∧ (ofLines (text.map trimmed)).lines = text) ∧
      ∀ {width height : ℕ} (t : Terminal width height) (d : Screen) (p : Picture),
        64 ≤ width → 16 ≤ height → t.Ready →
        (∀ room ∈ d.sink.room, (encode (script p)).length ≤ room) →
        ∃ bytes, (d.render p).sink.written.toList = d.sink.written.toList ++ bytes ∧
          (t.receive bytes).grid.corner 64 16 = p.lines ∧
          (∀ x y, ¬ (x < 64 ∧ y < 16) → (t.receive bytes).grid.cell x y = t.grid.cell x y) ∧
          (t.receive bytes).Ready := by
  refine ⟨fun p => ⟨isText_lines p, ofLines_lines p, Command.printed_eq p, ?_⟩,
    fun text htext => ⟨htext.lines_ofLines, ?_⟩, ?_⟩
  · rw [Command.map_toList_printed, ofLines_map_trimmed, ofLines_lines]
  · rw [ofLines_map_trimmed, htext.lines_ofLines]
  · intro width height t d p hwidth hheight hready hroom
    have hreceive : t.receive (encode (script p)) = { t with grid := t.grid.paint p 16 } := by
      rw [Terminal.receive_encode hready.unread_eq]
      exact Terminal.run_script hready.phase_eq p
    have hcell : ∀ x y, (t.grid.paint p 16).cell x y =
        if x < 64 ∧ y < 16 then (p.line y).getD x ' ' else t.grid.cell x y :=
      Grid.cell_paint hwidth p hheight
    refine ⟨encode (script p), ?_, ?_⟩
    · rw [render, send_eq, Sink.write_fst, Sink.kept_of_fits hroom]
      exact Array.toList_appendList
    · rw [hreceive]
      refine ⟨Grid.corner_eq_lines fun x y hx hy => ?_, fun x y hxy => ?_, hready.phase_eq,
        hready.unread_eq⟩
      · rw [hcell, if_pos ⟨hx, hy⟩]
      · rw [hcell, if_neg hxy]

/-- Sixteen lines that begin with a full block, and of which only that is left. Then a terminal that
is just large enough, with a letter in every cell and the cursor behind the last: of the picture
that it is sent only the first line has pixels. -/
theorem text_lossless_just_large_enough :
    let text := List.replicate 16 ('█' :: List.replicate 63 ' ')
    let p : Picture := ofLines [[' ', '▀', '▄', '█']]
    let d : Screen := { sink := { written := #[0x07], room := some 4000 } }
    let t : Terminal 64 16 :=
      { grid := { cell := fun _ _ => 'x', column := 63, row := 15, wrapDue := true } }
    (IsText text ∧ text.map trimmed = List.replicate 16 ['█'] ∧
        (ofLines (text.map trimmed)).lines = text) ∧
      t.Ready ∧ (∀ room ∈ d.sink.room, (encode (script p)).length ≤ room) ∧
      ∃ bytes, (d.render p).sink.written.toList = 0x07 :: bytes ∧
        ((t.receive bytes).grid.corner 64 16).map trimmed =
          [' ', '▀', '▄', '█'] :: List.replicate 15 [] := by
  intro text p d t
  obtain ⟨-, htexts, hterminals⟩ := text_lossless
  have htext : IsText text := by
    refine ⟨List.length_replicate, fun l hl => ?_, fun l hl c hc => ?_⟩
    · rw [List.eq_of_mem_replicate hl, List.length_cons, List.length_replicate]
    · rw [List.eq_of_mem_replicate hl] at hc
      rcases List.mem_cons.mp hc with rfl | hblank
      · simp [blocks]
      · simp [blocks, List.eq_of_mem_replicate hblank]
  have hready : t.Ready := ⟨rfl, rfl⟩
  have hroom : ∀ room ∈ d.sink.room, (encode (script p)).length ≤ room := by decide +kernel
  obtain ⟨bytes, hwritten, hcorner, -⟩ := hterminals t d p (by decide) (by decide) hready hroom
  refine ⟨⟨htext, by decide, (htexts text htext).2⟩, hready, hroom, bytes, hwritten, ?_⟩
  rw [hcorner]
  decide +kernel

end Screen

end ChipEight
