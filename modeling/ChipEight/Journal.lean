import ChipEight.Journal.Filter

/-!
# The journal

A `Journal` keeps the records that its filter lets through, in the order in which they were noted.
-/

namespace ChipEight

/-- The records of a session that a filter lets through. -/
structure Journal where
  filter : Filter := .nothing
  records : Array Record := #[]
  deriving DecidableEq

namespace Journal

/-- Puts an event on record. -/
def note (j : Journal) (r : Record) : Journal :=
  if j.filter.admits r then { j with records := j.records.push r } else j

/-- The lines of the journal, oldest first. -/
def lines (j : Journal) : List String := j.records.toList.map Record.line

end Journal

end ChipEight
