import ChipEight.Terminal.Screen
import Mathlib.Tactic

/-!
# What a terminal makes of bytes

A terminal has a grid of cells and a cursor (`Grid`). It takes in bytes one at a time, puts them
together to characters, and prints each character or does what it asks for (`Terminal.receive`); the
control sequence it knows is the one that moves the cursor. A character that does not fit on a row
goes to the start of the next one, but not before it is printed: a row can be filled to its end, and
the cursor waits there.

Three lemmas say what is needed of it: encoded characters are taken in one by one
(`Terminal.receive_encode`), `Screen.moveTo` moves the cursor to the start of a row
(`Terminal.run_moveTo`), and characters that fit on the row stand there one after the other, with
every other cell as it was (`Grid.cell_print`).
-/

namespace ChipEight

/-! ## Cells -/

/-- The cells of a terminal, and its cursor. -/
structure Grid (width height : ℕ) where
  /-- The character in a column of a row. -/
  cell : ℕ → ℕ → Char
  column : ℕ := 0
  row : ℕ := 0
  /-- The last column was written, and the next character belongs on the next row. -/
  wrapDue : Bool := false
  /-- What does not fit on a row goes to the next one, and not over the last column. -/
  wraps : Bool := true

namespace Grid

variable {width height : ℕ} {g : Grid width height}

/-- Goes to the next row; from the last one, everything moves up by a row instead. -/
def lineFeed (g : Grid width height) : Grid width height :=
  if g.row + 1 < height then { g with row := g.row + 1, wrapDue := false }
  else
    { g with
      cell := fun x y => if y + 1 < height then g.cell x (y + 1) else ' '
      wrapDue := false }

/-- Goes to the start of the next row if the row is full. -/
def wrap (g : Grid width height) : Grid width height :=
  if g.wrapDue && g.wraps then { g.lineFeed with column := 0 } else g

/-- Writes a character into the cell at the cursor, and goes on by one cell if there is one. -/
def write (g : Grid width height) (c : Char) : Grid width height :=
  { g with
    cell := fun x y => if x = g.column ∧ y = g.row then c else g.cell x y
    column := if g.column + 1 < width then g.column + 1 else g.column
    wrapDue := decide (width ≤ g.column + 1) }

/-- Prints a character. -/
def put (g : Grid width height) (c : Char) : Grid width height := g.wrap.write c

/-- Prints characters one after the other. -/
def print (g : Grid width height) (text : List Char) : Grid width height := text.foldl put g

/-- Moves the cursor to a row and a column counted from one, or as near as there is a cell. -/
def moveCursor (g : Grid width height) (row column : ℕ) : Grid width height :=
  { g with
    row := min (row - 1) (height - 1)
    column := min (column - 1) (width - 1)
    wrapDue := false }

/-- Does what a control character asks for: backspace, line feed and carriage return. The others
change nothing that can be seen. -/
def control (g : Grid width height) (c : Char) : Grid width height :=
  if c = '\x08' then { g with column := g.column - 1, wrapDue := false }
  else if c = '\n' then g.lineFeed
  else if c = '\r' then { g with column := 0, wrapDue := false }
  else g

/-- What stands in the upper left corner, row by row. -/
def corner (g : Grid width height) (columns rows : ℕ) : List (List Char) :=
  (List.range rows).map fun y => (List.range columns).map fun x => g.cell x y

theorem put_of_not_due (h : g.wrapDue = false) (c : Char) : g.put c = g.write c := by
  simp [put, wrap, h]

/-- Characters that fit on what is left of the row stand there one after the other, and every other
cell is as it was. -/
theorem cell_print {text : List Char} (hdue : g.wrapDue = false)
    (hfits : g.column + text.length ≤ width) (x y : ℕ) :
    (g.print text).cell x y =
      if y = g.row ∧ g.column ≤ x ∧ x < g.column + text.length then text.getD (x - g.column) ' '
      else g.cell x y := by
  induction text generalizing g with
  | nil =>
    rw [if_neg fun h => Nat.not_lt.mpr h.2.1 h.2.2]
    rfl
  | cons c text ih =>
    rw [List.length_cons] at hfits ⊢
    have hput : g.print (c :: text) = (g.write c).print text := by
      rw [← put_of_not_due hdue c]
      rfl
    have hrest : ((g.write c).print text).cell x y =
        if y = g.row ∧ g.column + 1 ≤ x ∧ x < g.column + 1 + text.length
        then text.getD (x - (g.column + 1)) ' ' else (g.write c).cell x y := by
      rcases Nat.lt_or_ge (g.column + 1) width with hroom | hlast
      · have hcolumn : (g.write c).column = g.column + 1 := if_pos hroom
        have hdue' : (g.write c).wrapDue = false := decide_eq_false (Nat.not_le.mpr hroom)
        rw [ih hdue' (by rw [hcolumn]; omega), hcolumn]
        rfl
      · -- After the last column there is nothing left to print.
        obtain rfl : text = [] := List.length_eq_zero_iff.mp (by omega)
        rw [if_neg fun h => Nat.not_lt.mpr h.2.1 h.2.2]
        rfl
    have hwrite : (g.write c).cell x y = if x = g.column ∧ y = g.row then c else g.cell x y := rfl
    rw [hput, hrest, hwrite]
    by_cases hrow : y = g.row
    · rcases lt_trichotomy x g.column with hx | rfl | hx
      · rw [if_neg (by omega), if_neg (by omega), if_neg (by omega)]
      · rw [if_neg (by omega), if_pos ⟨rfl, hrow⟩, if_pos (by omega), Nat.sub_self,
          List.getD_cons_zero]
      · have hsub : x - g.column = x - (g.column + 1) + 1 := by omega
        have hother : ¬ (x = g.column ∧ y = g.row) := fun h => hx.ne' h.1
        rw [if_neg hother, hsub, List.getD_cons_succ]
        exact if_congr (by omega) rfl rfl
    · rw [if_neg fun h => hrow h.1, if_neg fun h => hrow h.2, if_neg fun h => hrow h.1]

end Grid

/-! ## Characters -/

/-- How far into a control sequence a terminal is. -/
inductive Phase where
  | text
  /-- After the escape character. -/
  | escape
  /-- Among the parameters: those that are complete, and what there is of the next. -/
  | parameters (complete : List ℕ) (n : ℕ)
  deriving DecidableEq

/-- A terminal that takes in bytes. -/
structure Terminal (width height : ℕ) where
  grid : Grid width height
  phase : Phase := .text
  /-- The bytes of a character that is not complete. -/
  unread : List UInt8 := []

namespace Terminal

variable {width height : ℕ} {t : Terminal width height}

/-- Whether a character is not printed. -/
def isControl (c : Char) : Bool :=
  decide (c.toNat < 0x20) || decide (0x7F ≤ c.toNat) && decide (c.toNat < 0xA0)

/-- Carries out a control sequence, given its last character and its parameters. A parameter that
was left out is zero. -/
def perform (t : Terminal width height) (final : Char) (ps : List ℕ) : Terminal width height :=
  { t with
    grid := if final = 'H' then t.grid.moveCursor (ps.getD 0 0) (ps.getD 1 0) else t.grid
    phase := .text }

/-- Takes in a character. -/
def interpret (t : Terminal width height) (c : Char) : Terminal width height :=
  match t.phase with
  | .text =>
    if c = '\x1b' then { t with phase := .escape }
    else if isControl c then { t with grid := t.grid.control c }
    else { t with grid := t.grid.put c }
  | .escape => { t with phase := if c = '[' then .parameters [] 0 else .text }
  | .parameters complete n =>
    if c.isDigit then { t with phase := .parameters complete (10 * n + (c.toNat - '0'.toNat)) }
    else if c = ';' then { t with phase := .parameters (complete ++ [n]) 0 }
    else t.perform c (complete ++ [n])

/-- Takes in characters one after the other. -/
def run (t : Terminal width height) (text : List Char) : Terminal width height :=
  text.foldl interpret t

/-- Takes in a byte. Four bytes that are no character are dropped. -/
def takeIn (t : Terminal width height) (b : UInt8) : Terminal width height :=
  let bytes := t.unread ++ [b]
  match bytes.toByteArray.utf8DecodeChar? 0 with
  | some c => { t with unread := [] }.interpret c
  | none => { t with unread := if bytes.length < 4 then bytes else [] }

/-- Takes in bytes one after the other. -/
def receive (t : Terminal width height) (bytes : List UInt8) : Terminal width height :=
  bytes.foldl takeIn t

/-- The terminal is in the middle of nothing: what it takes in next is a new character, and no part
of a control sequence. -/
structure Ready (t : Terminal width height) : Prop where
  phase_eq : t.phase = .text
  unread_eq : t.unread = []

theorem run_append (t : Terminal width height) (text text' : List Char) :
    t.run (text ++ text') = (t.run text).run text' := List.foldl_append

theorem run_cons (t : Terminal width height) (c : Char) (text : List Char) :
    t.run (c :: text) = (t.interpret c).run text := rfl

/-- Characters that are no control characters are printed. -/
theorem run_eq_print (hphase : t.phase = .text) {text : List Char}
    (htext : ∀ c ∈ text, isControl c = false) :
    t.run text = { t with grid := t.grid.print text } := by
  induction text generalizing t with
  | nil => rfl
  | cons c text ih =>
    obtain ⟨hc, htext'⟩ := List.forall_mem_cons.mp htext
    have hescape : c ≠ '\x1b' := by
      rintro rfl
      exact absurd hc (by decide)
    have hput : t.interpret c = { t with grid := t.grid.put c } := by
      simp [interpret, hphase, hescape, hc]
    rw [run_cons, hput]
    exact ih hphase htext'

/-! ## Control sequences -/

theorem run_digits {complete : List ℕ} {n : ℕ} (hphase : t.phase = .parameters complete n)
    {digits : List Char} (hdigits : ∀ c ∈ digits, c.isDigit = true) :
    t.run digits = { t with phase := .parameters complete (Nat.ofDigitChars 10 digits n) } := by
  induction digits generalizing t n with
  | nil =>
    rw [Nat.ofDigitChars_nil, ← hphase]
    rfl
  | cons c digits ih =>
    obtain ⟨hc, hdigits'⟩ := List.forall_mem_cons.mp hdigits
    have hstep : t.interpret c =
        { t with phase := .parameters complete (10 * n + (c.toNat - '0'.toNat)) } := by
      simp [interpret, hphase, hc]
    rw [run_cons, hstep, ih rfl hdigits', Nat.ofDigitChars_cons]

/-- Lines are counted from zero, and the terminal counts from one. -/
theorem run_moveTo (hphase : t.phase = .text) (k : ℕ) :
    t.run (Screen.moveTo k) = { t with grid := t.grid.moveCursor (k + 1) 1 } := by
  have hopen : (t.interpret '\x1b').interpret '[' = { t with phase := .parameters [] 0 } := by
    simp [interpret, hphase]
  have hdigits : ∀ c ∈ Nat.toDigits 10 (k + 1), c.isDigit = true := fun c hc =>
    Nat.isDigit_of_mem_toDigits (by decide) (by decide) hc
  rw [Screen.moveTo, run_cons, run_cons, hopen, run_append, run_digits rfl hdigits,
    Nat.ofDigitChars_ten_toDigits]
  simp [run, interpret, perform, hphase]

/-! ## Bytes -/

theorem unread_interpret (t : Terminal width height) (c : Char) :
    (t.interpret c).unread = t.unread := by
  unfold interpret perform
  split <;> split_ifs <;> rfl

theorem decode_utf8EncodeChar (c : Char) :
    (String.utf8EncodeChar c).toByteArray.utf8DecodeChar? 0 = some c := by
  rw [← ByteArray.append_empty (b := (String.utf8EncodeChar c).toByteArray)]
  exact ByteArray.utf8DecodeChar?_utf8EncodeChar_append

/-- The first bytes of a character are no character before the last one is there. -/
theorem decode_eq_none {c : Char} {start rest : List UInt8}
    (h : start ++ rest = String.utf8EncodeChar c) (hrest : rest ≠ []) :
    start.toByteArray.utf8DecodeChar? 0 = none := by
  refine Option.eq_none_iff_forall_ne_some.mpr fun c' hc' => ?_
  have hwhole : (String.utf8EncodeChar c).toByteArray.utf8DecodeChar? 0 = some c' := by
    rw [← h, List.toByteArray_append]
    exact ByteArray.utf8DecodeChar?_append_eq_some hc' _
  have hsame : c = c' := Option.some_inj.mp ((decode_utf8EncodeChar c).symm.trans hwhole)
  obtain ⟨l, hl⟩ := ByteArray.exists_of_utf8DecodeChar?_eq_some hc'
  have hsize : start.length = (String.utf8EncodeChar c').length + l.size := by
    simpa using congrArg ByteArray.size hl
  have hlength : start.length + rest.length = (String.utf8EncodeChar c).length := by
    rw [← h, List.length_append]
  have hpos : 0 < rest.length := List.length_pos_iff.mpr hrest
  rw [← hsame] at hsize
  omega

theorem takeIn_of_decode {b : UInt8} {c : Char}
    (h : t.unread ++ [b] = String.utf8EncodeChar c) :
    t.takeIn b = { t with unread := [] }.interpret c := by
  have hdecode : (t.unread ++ [b]).toByteArray.utf8DecodeChar? 0 = some c := by
    rw [h, decode_utf8EncodeChar]
  simp only [takeIn, hdecode]

theorem takeIn_of_incomplete {b : UInt8} {rest : List UInt8} {c : Char} (hrest : rest ≠ [])
    (h : t.unread ++ [b] ++ rest = String.utf8EncodeChar c) :
    t.takeIn b = { t with unread := t.unread ++ [b] } := by
  have hlength : (t.unread ++ [b]).length + rest.length = c.utf8Size := by
    rw [← List.length_append, h, String.length_utf8EncodeChar]
  have hshort : (t.unread ++ [b]).length < 4 := by
    have hpos : 0 < rest.length := List.length_pos_iff.mpr hrest
    have hmax : c.utf8Size ≤ 4 := c.utf8Size_le_four
    omega
  simp only [takeIn, decode_eq_none h hrest, if_pos hshort]

/-- The rest of a character, where its first bytes are there. -/
theorem receive_rest {c : Char} {rest : List UInt8} (hrest : rest ≠ [])
    (h : t.unread ++ rest = String.utf8EncodeChar c) :
    t.receive rest = { t with unread := [] }.interpret c := by
  induction rest generalizing t with
  | nil => exact absurd rfl hrest
  | cons b rest ih =>
    rw [List.append_cons] at h
    rcases eq_or_ne rest [] with rfl | hmore
    · rw [List.append_nil] at h
      exact takeIn_of_decode h
    · have hfirst : t.receive (b :: rest) = { t with unread := t.unread ++ [b] }.receive rest := by
        rw [← takeIn_of_incomplete hmore h]
        rfl
      rw [hfirst]
      exact ih hmore h

/-- An encoded text is taken in character by character. -/
theorem receive_encode (hunread : t.unread = []) (text : List Char) :
    t.receive (Screen.encode text) = t.run text := by
  induction text generalizing t with
  | nil => rfl
  | cons c text ih =>
    have hchar : t.receive (String.utf8EncodeChar c) = t.interpret c := by
      rw [receive_rest String.utf8EncodeChar_ne_nil (by rw [hunread, List.nil_append]), ← hunread]
    calc t.receive (Screen.encode (c :: text))
        = (t.receive (String.utf8EncodeChar c)).receive (Screen.encode text) := List.foldl_append
      _ = (t.interpret c).receive (Screen.encode text) := by rw [hchar]
      _ = (t.interpret c).run text := ih ((unread_interpret t c).trans hunread)

/-- The last row is filled to its end, and only then everything moves up for one more character. -/
example :
    let t : Terminal 4 2 := { grid := { cell := fun _ _ => '.' } }
    (t.receive (Screen.encode "\x1b[2;3Hab█".toList)).grid.corner 4 2 =
      ["..ab".toList, "█   ".toList] := by
  decide +kernel

end Terminal

end ChipEight
