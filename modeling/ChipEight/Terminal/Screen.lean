import ChipEight.Host
import ChipEight.Picture.HalfBlock
import ChipEight.Terminal.Sink

/-!
# A terminal as host

A display shows pictures as half-block text in the upper left corner of a terminal and rings the
terminal's bell. The bell is rung once for each stretch of beeps; `quiet` ends a stretch. What the
terminal does not take is lost, and the display notes it and goes on.
-/

namespace ChipEight

/-- A terminal and whether a stretch of beeps is going on. -/
structure Screen where
  sink : Sink := {}
  sounding : Bool := false
  journal : Journal := {}
  deriving DecidableEq

namespace Screen

/-- The bytes of a text. -/
def encode (text : List Char) : List UInt8 := text.flatMap String.utf8EncodeChar

/-- The control sequence that moves the cursor to the start of line `k`, counted from zero. -/
def moveTo (k : Nat) : List Char :=
  '\x1b' :: '[' :: (Nat.toDigits 10 (k + 1) ++ [';', '1', 'H'])

/-- The characters that show a picture: each line after a move to its start. -/
def script (p : Picture) : List Char :=
  (List.range Picture.lineCount).flatMap fun k => moveTo k ++ p.line k

/-- The character that rings the bell. -/
def bell : Char := '\x07'

/-- Puts what became of some output on record if it was lost. -/
def noteLoss (d : Screen) (loss : String → Record) : Except SinkError Unit → Screen
  | .ok () => d
  | .error e => { d with journal := d.journal.note (loss e.message) }

/-- Sends characters to the terminal. -/
def send (d : Screen) (text : List Char) (loss : String → Record) : Screen :=
  let (sink, r) := d.sink.send (encode text)
  { d with sink }.noteLoss loss r

/-- Shows a picture. -/
def render (d : Screen) (p : Picture) : Screen := d.send (script p) .pictureLost

/-- Rings the bell unless it was rung in this stretch of beeps. -/
def beep (d : Screen) : Screen :=
  if d.sounding then d else { d with sounding := true }.send [bell] .bellLost

/-- Ends a stretch of beeps. -/
def quiet (d : Screen) : Screen := { d with sounding := false }

instance : Host Screen where
  render p d := d.render p
  beep d := d.beep
  note r d := { d with journal := d.journal.note r }

end Screen

end ChipEight
