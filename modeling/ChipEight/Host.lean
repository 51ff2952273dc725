import ChipEight.Journal

/-!
# Hosts

A session plays to a host: it shows it every new picture, beeps at it, and hands it every event to
put on record. `Unattended` takes no notice of pictures and beeps, and `Spectator` counts them and
remembers the last picture.
-/

namespace ChipEight

/-- Someone to play to. -/
class Host (σ : Type) where
  /-- The picture has changed. -/
  render : Picture → σ → σ
  /-- The sound timer was running when it was counted down. -/
  beep : σ → σ
  /-- Something happened that may be put on record. -/
  note : Record → σ → σ

/-- A host that only keeps the journal. -/
structure Unattended where
  journal : Journal := {}
  deriving DecidableEq

instance : Host Unattended where
  render _ h := h
  beep h := h
  note r h := { h with journal := h.journal.note r }

/-- A host that counts what it is shown. -/
structure Spectator where
  pictures : Nat := 0
  beeps : Nat := 0
  /-- The picture it was shown last. -/
  last : Option Picture := none
  journal : Journal := {}
  deriving DecidableEq

instance : Host Spectator where
  render p h := { h with pictures := h.pictures + 1, last := some p }
  beep h := { h with beeps := h.beeps + 1 }
  note r h := { h with journal := h.journal.note r }

end ChipEight
