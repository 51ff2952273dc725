import ChipEight.Host

/-!
# A host that writes everything down

A `Transcript` is the plainest host: it keeps what it was shown and told, in order, and nothing
else. Two sessions that leave the same transcript played the same to anybody.
-/

namespace ChipEight

/-- What a session does for its host to notice. -/
inductive Performance where
  | picture (p : Picture)
  | beep
  deriving DecidableEq

/-- Everything a host was shown and told, the earliest first. -/
structure Transcript where
  performances : List Performance := []
  deriving DecidableEq

instance : Host Transcript where
  render p h := ⟨h.performances ++ [.picture p]⟩
  beep h := ⟨h.performances ++ [.beep]⟩
  note _ h := h

end ChipEight
