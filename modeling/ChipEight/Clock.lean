/-!
# The clock

The processor executes `hz` instructions a second and the timers count down sixty times a second.
The clock is told how much time passes and hands out the ticks that fall due, the earlier first and
the processor's first if two fall due together (`Clock.pop`).

Time is kept in units of which one second has `10 ^ 9 * hz * 60`, so that a nanosecond and both
periods are whole numbers of units. Each kind of tick has a debt: the time that has passed and was
not yet used up by ticks of that kind. No debt exceeds one second; what would go beyond is dropped.
-/

namespace ChipEight

/-- What has fallen due. -/
inductive Tick where
  /-- One instruction. -/
  | processor
  /-- One count of the timers. -/
  | timer
  deriving DecidableEq

/-- The speed of the processor and the two debts. -/
structure Clock where
  cpuHz : UInt32
  processorDebt : Nat := 0
  timerDebt : Nat := 0
  deriving DecidableEq

namespace Clock

/-- Instructions a second; a speed of zero counts as one. -/
def hz (c : Clock) : Nat := max c.cpuHz.toNat 1

/-- Units in a nanosecond. -/
def nanosecond (c : Clock) : Nat := c.hz * 60

/-- Units in a second, the most that is ever owed. -/
def second (c : Clock) : Nat := 1000000000 * c.hz * 60

/-- Units from one instruction to the next. -/
def processorPeriod (_ : Clock) : Nat := 1000000000 * 60

/-- Units from one count of the timers to the next. -/
def timerPeriod (c : Clock) : Nat := 1000000000 * c.hz

/-- The highest number of units that is counted; sums and products beyond it are cut down to it. -/
def ceiling : Nat := 0xFFFFFFFFFFFFFFFFFFFFFFFFFFFFFFFF

/-- The clock with nothing owed. -/
def reset (c : Clock) : Clock := { c with processorDebt := 0, timerDebt := 0 }

/-- A debt after `units` more, in a clock that owes at most a second. -/
def grown (c : Clock) (debt units : Nat) : Nat := min (min (debt + units) ceiling) c.second

/-- Lets a number of units pass. -/
def owe (c : Clock) (units : Nat) : Clock :=
  { c with
    processorDebt := c.grown c.processorDebt units
    timerDebt := c.grown c.timerDebt units }

/-- Lets a number of nanoseconds pass. -/
def elapse (c : Clock) (nanoseconds : Nat) : Clock :=
  c.owe (min (nanoseconds * c.nanosecond) ceiling)

/-- Lets the time from one instruction to the next pass. -/
def elapsePeriod (c : Clock) : Clock := c.owe c.processorPeriod

/-- The clock after an instruction. -/
def paidProcessor (c : Clock) : Clock :=
  { c with processorDebt := c.processorDebt - c.processorPeriod }

/-- The clock after a count of the timers. -/
def paidTimer (c : Clock) : Clock := { c with timerDebt := c.timerDebt - c.timerPeriod }

/-- The tick that fell due first among those not handed out yet, with the clock after it. Of two
that are due, the one longer overdue fell due first. -/
def pop (c : Clock) : Option (Tick × Clock) :=
  if c.processorPeriod ≤ c.processorDebt then
    if c.timerPeriod ≤ c.timerDebt
        ∧ c.processorDebt - c.processorPeriod < c.timerDebt - c.timerPeriod then
      some (.timer, c.paidTimer)
    else some (.processor, c.paidProcessor)
  else if c.timerPeriod ≤ c.timerDebt then some (.timer, c.paidTimer)
  else none

/-- What is owed in all. -/
def owed (c : Clock) : Nat := c.processorDebt + c.timerDebt

theorem processorPeriod_pos (c : Clock) : 0 < c.processorPeriod :=
  (by decide : 0 < 1000000000 * 60)

theorem timerPeriod_pos (c : Clock) : 0 < c.timerPeriod := by
  unfold timerPeriod hz
  omega

/-- Every tick is paid for. -/
theorem owed_lt_of_pop {c c' : Clock} {t : Tick} (h : c.pop = some (t, c')) : c'.owed < c.owed := by
  have hp := c.processorPeriod_pos
  have ht := c.timerPeriod_pos
  unfold pop at h
  grind [owed, paidProcessor, paidTimer]

end Clock

end ChipEight
