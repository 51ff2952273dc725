import ChipEight.Keypad

/-!
# Playing on a keyboard

The four by four keypad lies on the left four columns of a keyboard, digit row to bottom row. Case
does not matter. The escape key ends a session, and so does the letter c with the control key.
-/

namespace ChipEight

/-- What a keyboard reports: a character, the escape key, or some other key. -/
inductive KeyStroke where
  | char (c : Char)
  | escape
  | other
  deriving DecidableEq

namespace KeyStroke

/-- The characters of the keys `0` to `F`. -/
def layout : List Char :=
  ['x', '1', '2', '3', 'q', 'w', 'e', 'a', 's', 'd', 'z', 'c', '4', 'r', 'f', 'v']

/-- The key that a stroke plays. -/
def key : KeyStroke → Option Key
  | char c => (List.finRange 16).find? fun k => layout[k] == c.toLower
  | _ => none

/-- Whether a stroke ends the session; `control` says whether the control key is down. -/
def ends (control : Bool) : KeyStroke → Bool
  | char c => c == 'c' && control
  | escape => true
  | other => false

end KeyStroke

end ChipEight
