import ChipEight.Clock
import Mathlib.Tactic

/-!
# Time that is owed in full

`Clock.Bears c u` says that the clock `c` can be owed `u` more units without cutting anything off.
Then letting them pass is `accrue`, a plain addition to both debts (`elapse_eq_accrue`,
`elapsePeriod_eq_accrue`). Additions of time compose (`accrue_accrue`) and do not change which tick
is handed out first (`pop_accrue`): the clock compares how long two ticks are overdue, and both
grow alike.
-/

namespace ChipEight.Clock

/-- The clock with `units` more owed to both kinds of tick, however much that is. -/
def accrue (c : Clock) (units : ℕ) : Clock :=
  { c with
    processorDebt := c.processorDebt + units
    timerDebt := c.timerDebt + units }

/-- Neither debt goes above one second when `units` more are owed. -/
def Bears (c : Clock) (units : ℕ) : Prop :=
  c.processorDebt + units ≤ c.second ∧ c.timerDebt + units ≤ c.second

instance (c : Clock) (units : ℕ) : Decidable (c.Bears units) := inferInstanceAs (Decidable (_ ∧ _))

section

variable {c c' : Clock} {u v : ℕ} {tick : Tick}

theorem hz_pos (c : Clock) : 0 < c.hz := Nat.lt_of_lt_of_le Nat.one_pos (Nat.le_max_right _ _)

theorem hz_le (c : Clock) : c.hz ≤ 2 ^ 32 := by
  have := c.cpuHz.toNat_lt
  unfold hz
  omega

theorem second_eq_processor (c : Clock) : c.second = c.hz * c.processorPeriod := by
  unfold second processorPeriod; ring

theorem second_eq_timer (c : Clock) : c.second = 60 * c.timerPeriod := by
  unfold second timerPeriod; ring

theorem second_pos (c : Clock) : 0 < c.second := by
  rw [second_eq_timer]
  exact Nat.mul_pos (by norm_num) c.timerPeriod_pos

/-- A second is far below the highest number of units that is counted. -/
theorem second_le_ceiling (c : Clock) : c.second ≤ ceiling := by
  have := c.hz_le
  unfold second ceiling
  omega

/-! ## Adding time -/

@[simp] theorem accrue_zero (c : Clock) : c.accrue 0 = c := rfl

@[simp] theorem processorDebt_accrue (c : Clock) (u : ℕ) :
    (c.accrue u).processorDebt = c.processorDebt + u := rfl

@[simp] theorem timerDebt_accrue (c : Clock) (u : ℕ) :
    (c.accrue u).timerDebt = c.timerDebt + u := rfl

@[simp] theorem processorPeriod_accrue (c : Clock) (u : ℕ) :
    (c.accrue u).processorPeriod = c.processorPeriod := rfl

@[simp] theorem timerPeriod_accrue (c : Clock) (u : ℕ) :
    (c.accrue u).timerPeriod = c.timerPeriod := rfl

@[simp] theorem hz_accrue (c : Clock) (u : ℕ) : (c.accrue u).hz = c.hz := rfl

@[simp] theorem second_accrue (c : Clock) (u : ℕ) : (c.accrue u).second = c.second := rfl

theorem accrue_accrue (c : Clock) (u v : ℕ) : (c.accrue u).accrue v = c.accrue (u + v) := by
  unfold accrue
  simp only [Nat.add_assoc]

-- The debts are variables here because unfolding `paidProcessor` in a subtraction by a period that
-- is a large number goes too deep.
theorem with_debts (c : Clock) (d e : ℕ) :
    let c' : Clock := { c with processorDebt := d, timerDebt := e }
    c'.hz = c.hz ∧ c'.processorDebt = d ∧ c'.timerDebt = e := ⟨rfl, rfl, rfl⟩

@[simp] theorem hz_owe (c : Clock) (u : ℕ) : (c.owe u).hz = c.hz := (with_debts c _ _).1

theorem grown_of_le {debt : ℕ} (h : debt + u ≤ c.second) : c.grown debt u = debt + u := by
  unfold grown
  rw [Nat.min_eq_left (h.trans c.second_le_ceiling), Nat.min_eq_left h]

theorem owe_eq_accrue (h : c.Bears u) : c.owe u = c.accrue u := by
  unfold owe accrue
  rw [grown_of_le h.1, grown_of_le h.2]

theorem elapse_eq_accrue {ns : ℕ} (h : c.Bears (ns * c.nanosecond)) :
    c.elapse ns = c.accrue (ns * c.nanosecond) := by
  have hle : ns * c.nanosecond ≤ ceiling :=
    (Nat.le_add_left _ _).trans (h.1.trans c.second_le_ceiling)
  unfold elapse
  rw [Nat.min_eq_left hle]
  exact owe_eq_accrue h

theorem elapsePeriod_eq_accrue (h : c.Bears c.processorPeriod) :
    c.elapsePeriod = c.accrue c.processorPeriod := owe_eq_accrue h

/-! ## Handing out ticks -/

@[simp] theorem hz_paidProcessor (c : Clock) : c.paidProcessor.hz = c.hz := (with_debts c _ _).1

@[simp] theorem processorDebt_paidProcessor (c : Clock) :
    c.paidProcessor.processorDebt = c.processorDebt - c.processorPeriod := (with_debts c _ _).2.1

@[simp] theorem timerDebt_paidProcessor (c : Clock) : c.paidProcessor.timerDebt = c.timerDebt :=
  (with_debts c _ _).2.2

@[simp] theorem hz_paidTimer (c : Clock) : c.paidTimer.hz = c.hz := (with_debts c _ _).1

@[simp] theorem processorDebt_paidTimer (c : Clock) :
    c.paidTimer.processorDebt = c.processorDebt := (with_debts c _ _).2.1

@[simp] theorem timerDebt_paidTimer (c : Clock) :
    c.paidTimer.timerDebt = c.timerDebt - c.timerPeriod := (with_debts c _ _).2.2

@[simp] theorem second_paidProcessor (c : Clock) : c.paidProcessor.second = c.second := by
  unfold second
  rw [hz_paidProcessor]

@[simp] theorem second_paidTimer (c : Clock) : c.paidTimer.second = c.second := by
  unfold second
  rw [hz_paidTimer]

theorem pop_eq_none_iff :
    c.pop = none ↔ c.processorDebt < c.processorPeriod ∧ c.timerDebt < c.timerPeriod := by
  unfold pop
  split_ifs <;> simp <;> omega

theorem pop_reset (c : Clock) : c.reset.pop = none :=
  pop_eq_none_iff.mpr ⟨processorPeriod_pos _, timerPeriod_pos _⟩

/-- An instruction comes next if it is due and has been due for at least as long as a count of the
timers. -/
theorem pop_of_processor (h : c.processorPeriod ≤ c.processorDebt)
    (hle : c.timerDebt + c.processorPeriod ≤ c.processorDebt + c.timerPeriod) :
    c.pop = some (.processor, c.paidProcessor) := by
  unfold pop
  rw [if_pos h, if_neg]
  omega

/-- A count of the timers comes next if it is due and has been due for longer than an
instruction. -/
theorem pop_of_timer (h : c.timerPeriod ≤ c.timerDebt)
    (hlt : c.processorDebt + c.timerPeriod < c.timerDebt + c.processorPeriod) :
    c.pop = some (.timer, c.paidTimer) := by
  unfold pop
  by_cases hp : c.processorPeriod ≤ c.processorDebt
  · rw [if_pos hp, if_pos]
    exact ⟨h, by omega⟩
  · rw [if_neg hp, if_pos h]

/-- There is no other way to hand out a tick. -/
theorem pop_cases (h : c.pop = some (tick, c')) :
    (tick = .processor ∧ c' = c.paidProcessor ∧ c.processorPeriod ≤ c.processorDebt ∧
        c.timerDebt + c.processorPeriod ≤ c.processorDebt + c.timerPeriod) ∨
      (tick = .timer ∧ c' = c.paidTimer ∧ c.timerPeriod ≤ c.timerDebt ∧
        c.processorDebt + c.timerPeriod < c.timerDebt + c.processorPeriod) := by
  have hnone : ¬ (c.processorDebt < c.processorPeriod ∧ c.timerDebt < c.timerPeriod) := fun hn => by
    rw [pop_eq_none_iff.mpr hn] at h
    exact nomatch h
  by_cases hle : c.timerDebt + c.processorPeriod ≤ c.processorDebt + c.timerPeriod
  · have hp : c.processorPeriod ≤ c.processorDebt := by omega
    rw [pop_of_processor hp hle] at h
    cases h
    exact Or.inl ⟨rfl, rfl, hp, hle⟩
  · have ht : c.timerPeriod ≤ c.timerDebt := by omega
    rw [pop_of_timer ht (by omega)] at h
    cases h
    exact Or.inr ⟨rfl, rfl, ht, by omega⟩

theorem cpuHz_with_debts (c : Clock) (d e : ℕ) :
    ({ c with processorDebt := d, timerDebt := e } : Clock).cpuHz = c.cpuHz := rfl

theorem cpuHz_owe (c : Clock) (units : ℕ) : (c.owe units).cpuHz = c.cpuHz :=
  cpuHz_with_debts c _ _

theorem cpuHz_of_pop (h : c.pop = some (tick, c')) : c'.cpuHz = c.cpuHz := by
  rcases pop_cases h with ⟨-, rfl, -⟩ | ⟨-, rfl, -⟩
  · exact cpuHz_with_debts c _ _
  · exact cpuHz_with_debts c _ _

theorem hz_of_cpuHz_eq (h : c'.cpuHz = c.cpuHz) : c'.hz = c.hz := by
  unfold hz
  rw [h]

theorem hz_of_pop (h : c.pop = some (tick, c')) : c'.hz = c.hz := hz_of_cpuHz_eq (cpuHz_of_pop h)

theorem paidProcessor_accrue (h : c.processorPeriod ≤ c.processorDebt) (u : ℕ) :
    (c.accrue u).paidProcessor = c.paidProcessor.accrue u := by
  unfold paidProcessor
  rw [processorDebt_accrue, processorPeriod_accrue, Nat.sub_add_comm h]
  rfl

theorem paidTimer_accrue (h : c.timerPeriod ≤ c.timerDebt) (u : ℕ) :
    (c.accrue u).paidTimer = c.paidTimer.accrue u := by
  unfold paidTimer
  rw [timerDebt_accrue, timerPeriod_accrue, Nat.sub_add_comm h]
  rfl

/-- Letting more time pass first does not change which tick comes next. -/
theorem pop_accrue (h : c.pop = some (tick, c')) (u : ℕ) :
    (c.accrue u).pop = some (tick, c'.accrue u) := by
  rcases pop_cases h with ⟨rfl, rfl, hp, hle⟩ | ⟨rfl, rfl, ht, hlt⟩
  · rw [← paidProcessor_accrue hp]
    exact pop_of_processor (hp.trans (Nat.le_add_right _ _)) (by
      simp only [processorDebt_accrue, timerDebt_accrue, processorPeriod_accrue, timerPeriod_accrue]
      omega)
  · rw [← paidTimer_accrue ht]
    exact pop_of_timer (ht.trans (Nat.le_add_right _ _)) (by
      simp only [processorDebt_accrue, timerDebt_accrue, processorPeriod_accrue, timerPeriod_accrue]
      omega)

end

end ChipEight.Clock
