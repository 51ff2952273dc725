import ChipEight.Pattern.CharSet

/-!
# Places in a text

An anchor of a pattern matches no character: it asks for something about a place in the text. All
that can be asked depends on the characters before and after the place.
-/

namespace ChipEight

/-- What can be asked of a boundary between words. -/
inductive WordEdge where
  | boundary
  | noBoundary
  | start
  | stop
  | startHalf
  | stopHalf
  deriving DecidableEq

namespace WordEdge

/-- Whether a boundary is as asked, given whether there are word characters before and after. -/
def holds : WordEdge → Bool → Bool → Bool
  | boundary, before, after => before != after
  | noBoundary, before, after => before == after
  | start, before, after => !before && after
  | stop, before, after => before && !after
  | startHalf, before, _ => !before
  | stopHalf, _, after => !after

end WordEdge

/-- What can be asked of a place in a text. -/
inductive Look where
  | textStart
  | textEnd
  | lineStart
  | lineEnd
  /-- The start of a line, where a carriage return may end one too. -/
  | lineStartCrlf
  /-- The end of a line, where a carriage return may end one too. -/
  | lineEndCrlf
  /-- A boundary between words, which are made of ASCII characters or, if `wide`, of letters and
  digits of any kind. -/
  | word (edge : WordEdge) (wide : Bool)
  deriving DecidableEq

namespace Look

/-- Whether a character belongs to a word. -/
def inWord (c : Char) : Bool := AsciiClass.word.toSet.contains c

/-- Whether a place is as asked, given the characters before and after it. All words are taken to be
made of ASCII characters. -/
def holds : Look → Option Char → Option Char → Bool
  | textStart, before, _ => before.isNone
  | textEnd, _, after => after.isNone
  | lineStart, before, _ => before.all (· == '\n')
  | lineEnd, _, after => after.all (· == '\n')
  | lineStartCrlf, before, after =>
    before.all (· == '\n') || (before == some '\r' && after != some '\n')
  | lineEndCrlf, before, after =>
    after.all (· == '\r') || (after == some '\n' && before != some '\r')
  | word edge _, before, after => edge.holds (before.any inWord) (after.any inWord)

end Look

end ChipEight
