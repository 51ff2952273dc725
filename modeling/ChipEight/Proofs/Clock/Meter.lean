import ChipEight.Proofs.Clock.Draining
import ChipEight.Proofs.Machine.Guarded

/-!
# A clock of 128 bits

A `Meter` is a clock as it is kept in a fixed number of bits: it works its constants out once, and
all of its six numbers have 128 bits. It crashes (`none`) where a product or a number of nanoseconds
has more bits, or where more would be taken from a debt than there is. The two places at which a
clock counts no further than `Clock.ceiling` are its only way out.

`run_eq` says that no history of a meter crashes, and that it hands out the ticks of the clock.
-/

namespace ChipEight

/-- The constants of a clock with its debts. -/
structure Meter where
  nanosecond : ℕ
  second : ℕ
  processorPeriod : ℕ
  timerPeriod : ℕ
  processorDebt : ℕ
  timerDebt : ℕ
  deriving DecidableEq

namespace Meter

def fit (n : ℕ) : Option ℕ := bounded (2 ^ 128) n

/-- The first number less the second, if that is no negative number. -/
def less (a b : ℕ) : Option ℕ := if b ≤ a then some (a - b) else none

def create (cpuHz : UInt32) : Option Meter := do
  let hz := max cpuHz.toNat 1
  let nanosecond ← fit (hz * 60)
  let nanoseconds ← fit (1000000000 * hz)
  let second ← fit (nanoseconds * 60)
  let processorPeriod ← fit (1000000000 * 60)
  let timerPeriod ← fit (1000000000 * hz)
  some
    { nanosecond, second, processorPeriod, timerPeriod, processorDebt := 0, timerDebt := 0 }

def reset (m : Meter) : Meter := { m with processorDebt := 0, timerDebt := 0 }

def owe (m : Meter) (units : ℕ) : Meter :=
  { m with
    processorDebt := min (min (m.processorDebt + units) Clock.ceiling) m.second
    timerDebt := min (min (m.timerDebt + units) Clock.ceiling) m.second }

def elapse (m : Meter) (nanoseconds : ℕ) : Option Meter := do
  let nanoseconds ← fit nanoseconds
  some (m.owe (min (nanoseconds * m.nanosecond) Clock.ceiling))

def elapsePeriod (m : Meter) : Meter := m.owe m.processorPeriod

/-- Which tick is due first, by how long each is overdue. -/
def next (m : Meter) : Option Tick :=
  match less m.processorDebt m.processorPeriod, less m.timerDebt m.timerPeriod with
  | none, none => none
  | some _, none => some .processor
  | none, some _ => some .timer
  | some p, some t => if t ≤ p then some .processor else some .timer

def pop (m : Meter) : Option (Option Tick × Meter) :=
  match m.next with
  | none => some (none, m)
  | some .processor => do
    let processorDebt ← less m.processorDebt m.processorPeriod
    some (some .processor, { m with processorDebt })
  | some .timer => do
    let timerDebt ← less m.timerDebt m.timerPeriod
    some (some .timer, { m with timerDebt })

/-- What an event does to a meter and to the ticks that it has handed out since it was reset. -/
def apply (s : Meter × List Tick) : Clock.Event → Option (Meter × List Tick)
  | .elapse ns => (s.1.elapse ns).map fun m => (m, s.2)
  | .elapsePeriod => some (s.1.elapsePeriod, s.2)
  | .pop => s.1.pop.map fun (tick, m) => (m, s.2 ++ tick.toList)
  | .reset => some (s.1.reset, [])

/-- A new meter after some events. -/
def run (cpuHz : UInt32) (es : List Clock.Event) : Option (Meter × List Tick) := do
  let m ← create cpuHz
  es.foldlM apply (m, [])

/-- The meter of a clock. -/
def ofClock (c : Clock) : Meter :=
  { nanosecond := c.nanosecond
    second := c.second
    processorPeriod := c.processorPeriod
    timerPeriod := c.timerPeriod
    processorDebt := c.processorDebt
    timerDebt := c.timerDebt }

section

variable {c c' : Clock} {tick : Tick} {ns : ℕ}

theorem fit_of_lt {n : ℕ} (h : n < 2 ^ 128) : fit n = some n := bounded_of_lt h

theorem less_of_le {a b : ℕ} (h : b ≤ a) : less a b = some (a - b) := if_pos h

theorem less_of_lt {a b : ℕ} (h : a < b) : less a b = none := if_neg (Nat.not_le.mpr h)

theorem create_eq (cpuHz : UInt32) : create cpuHz = some (ofClock { cpuHz }) := by
  have hle : max cpuHz.toNat 1 ≤ 2 ^ 32 := Clock.hz_le { cpuHz }
  unfold create
  generalize hhz : max cpuHz.toNat 1 = hz at hle
  simp only [fit_of_lt (show hz * 60 < 2 ^ 128 by omega),
    fit_of_lt (show 1000000000 * hz < 2 ^ 128 by omega),
    fit_of_lt (show 1000000000 * hz * 60 < 2 ^ 128 by omega),
    fit_of_lt (show 1000000000 * 60 < 2 ^ 128 by omega), Option.bind_eq_bind, Option.bind_some]
  subst hhz
  rfl

-- As for the debts of a clock: the numbers are variables, so that no period has to be unfolded.
theorem ofClock_with_debts (c : Clock) (d e : ℕ) :
    ofClock { c with processorDebt := d, timerDebt := e } =
      { ofClock c with processorDebt := d, timerDebt := e } := rfl

theorem owe_eq (c : Clock) (u : ℕ) : (ofClock c).owe u = ofClock (c.owe u) :=
  (ofClock_with_debts c _ _).symm

theorem elapse_eq (h : ns < 2 ^ 64 * 10 ^ 9) :
    (ofClock c).elapse ns = some (ofClock (c.elapse ns)) := by
  unfold elapse
  rw [fit_of_lt (h.trans (by norm_num)), Option.bind_eq_bind, Option.bind_some, owe_eq]
  rfl

/-! ## The next tick -/

@[simp] theorem processorDebt_ofClock (c : Clock) :
    (ofClock c).processorDebt = c.processorDebt := rfl

@[simp] theorem timerDebt_ofClock (c : Clock) : (ofClock c).timerDebt = c.timerDebt := rfl

@[simp] theorem processorPeriod_ofClock (c : Clock) :
    (ofClock c).processorPeriod = c.processorPeriod := rfl

@[simp] theorem timerPeriod_ofClock (c : Clock) : (ofClock c).timerPeriod = c.timerPeriod := rfl

theorem elapsePeriod_eq (c : Clock) : (ofClock c).elapsePeriod = ofClock c.elapsePeriod := by
  unfold elapsePeriod Clock.elapsePeriod
  rw [processorPeriod_ofClock, owe_eq]

theorem next_of_none (h : c.pop = none) : (ofClock c).next = none := by
  obtain ⟨hp, ht⟩ := Clock.pop_eq_none_iff.mp h
  simp [next, less_of_lt hp, less_of_lt ht]

theorem next_of_processor (hp : c.processorPeriod ≤ c.processorDebt)
    (hle : c.timerDebt + c.processorPeriod ≤ c.processorDebt + c.timerPeriod) :
    (ofClock c).next = some .processor := by
  by_cases ht : c.timerPeriod ≤ c.timerDebt
  · have hover : c.timerDebt - c.timerPeriod ≤ c.processorDebt - c.processorPeriod := by omega
    simp [next, less_of_le hp, less_of_le ht, hover]
  · simp [next, less_of_le hp, less_of_lt (Nat.lt_of_not_le ht)]

theorem next_of_timer (ht : c.timerPeriod ≤ c.timerDebt)
    (hlt : c.processorDebt + c.timerPeriod < c.timerDebt + c.processorPeriod) :
    (ofClock c).next = some .timer := by
  by_cases hp : c.processorPeriod ≤ c.processorDebt
  · have hover : ¬ c.timerDebt - c.timerPeriod ≤ c.processorDebt - c.processorPeriod := by omega
    simp [next, less_of_le hp, less_of_le ht, hover]
  · simp [next, less_of_le ht, less_of_lt (Nat.lt_of_not_le hp)]

theorem pop_of_none (h : c.pop = none) : (ofClock c).pop = some (none, ofClock c) := by
  unfold pop
  rw [next_of_none h]

theorem ofClock_paidProcessor (c : Clock) :
    ofClock c.paidProcessor =
      { ofClock c with processorDebt := c.processorDebt - c.processorPeriod } :=
  ofClock_with_debts c _ _

theorem ofClock_paidTimer (c : Clock) :
    ofClock c.paidTimer = { ofClock c with timerDebt := c.timerDebt - c.timerPeriod } :=
  ofClock_with_debts c _ _

/-- A tick is only taken out of a debt that covers it. -/
theorem pop_of_some (h : c.pop = some (tick, c')) :
    (ofClock c).pop = some (some tick, ofClock c') := by
  rcases Clock.pop_cases h with ⟨rfl, rfl, hp, hle⟩ | ⟨rfl, rfl, ht, hlt⟩
  · simp [pop, next_of_processor hp hle, less_of_le hp, ofClock_paidProcessor]
  · simp [pop, next_of_timer ht hlt, less_of_le ht, ofClock_paidTimer]

end

variable {r : Clock.History}

theorem apply_eq {e : Clock.Event} (h : ∀ ns, e = .elapse ns → ns < 2 ^ 64 * 10 ^ 9) :
    apply (ofClock r.clock, r.popped) e =
      some (ofClock (r.apply e).clock, (r.apply e).popped) := by
  cases e with
  | elapse ns =>
    show ((ofClock r.clock).elapse ns).map _ = _
    rw [elapse_eq (h ns rfl)]
    rfl
  | elapsePeriod =>
    have hm : apply (ofClock r.clock, r.popped) .elapsePeriod =
        some ((ofClock r.clock).elapsePeriod, r.popped) := rfl
    have hr : r.apply .elapsePeriod =
        { r with clock := r.clock.elapsePeriod, time := r.time + 1 / r.clock.hz } := rfl
    rw [hm, hr, elapsePeriod_eq]
  | reset => rfl
  | pop =>
    show (ofClock r.clock).pop.map _ = _
    rcases hpop : r.clock.pop with _ | ⟨tick, c⟩
    · rw [pop_of_none hpop, Clock.History.apply_pop_of_none hpop]
      simp
    · rw [pop_of_some hpop, Clock.History.apply_pop_of_some hpop]
      rfl

theorem foldlM_apply : ∀ (es : List Clock.Event) {r : Clock.History},
    (∀ ns, .elapse ns ∈ es → ns < 2 ^ 64 * 10 ^ 9) →
      es.foldlM apply (ofClock r.clock, r.popped) =
        some (ofClock (r.follow es).clock, (r.follow es).popped) := by
  intro es
  induction es with
  | nil => intro r _; rfl
  | cons e es ih =>
    intro r h
    rw [List.foldlM_cons, apply_eq fun ns he => h ns (he ▸ List.mem_cons_self)]
    exact ih fun ns hns => h ns (List.mem_cons_of_mem _ hns)

/-- No history of a meter crashes, for no number is too long and no debt is overdrawn, and a meter
does what the clock does. A span of time has fewer than `2 ^ 64` seconds. -/
theorem run_eq (cpuHz : UInt32) {es : List Clock.Event}
    (h : ∀ ns, .elapse ns ∈ es → ns < 2 ^ 64 * 10 ^ 9) :
    let r := (Clock.History.start cpuHz).follow es
    run cpuHz es = some (ofClock r.clock, r.popped) := by
  intro r
  unfold run
  rw [create_eq, Option.bind_eq_bind, Option.bind_some]
  exact foldlM_apply es (r := Clock.History.start cpuHz) h

end Meter

end ChipEight
