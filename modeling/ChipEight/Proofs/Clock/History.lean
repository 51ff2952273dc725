import ChipEight.Proofs.Clock.Accrual
import ChipEight.Proofs.Clock.Timetable

/-!
# A clock keeps to the timetable

A `Clock.History` is a clock with the time that was let pass and the ticks that were handed out
since it was last reset. As long as no time is cut off (`History.Unstalled`), however the time is
chopped up and whenever ticks are asked for:

1. each debt is the time that passed less the ticks handed out (`Tracks`), so a tick is due for the
   clock exactly if it is due by the timetable, and of two the same one comes first;
2. what was handed out and what is `upcoming` are together the timetable (`OnTime`);
3. so what was handed out begins the timetable, and nothing more is handed out exactly if all of it
   was (`popped_isPrefix_timetable`).
-/

namespace ChipEight.Clock

/-! ## Debts in seconds -/

/-- After `T` seconds, `p` instructions and `t` counts of the timers, with nothing cut off, the
debts in seconds are what is left of `T`. -/
structure Tracks (c : Clock) (T : ℚ) (p t : ℕ) : Prop where
  processor : (c.processorDebt : ℚ) / c.second = T - p / c.hz
  timer : (c.timerDebt : ℚ) / c.second = T - t / 60

section Tracks

variable {c : Clock} {T : ℚ} {p t : ℕ}

theorem hz_pos' (c : Clock) : (0 : ℚ) < c.hz := by exact_mod_cast c.hz_pos

theorem second_pos' (c : Clock) : (0 : ℚ) < c.second := by exact_mod_cast c.second_pos

theorem processorPeriod_div_second (c : Clock) : (c.processorPeriod : ℚ) / c.second = 1 / c.hz := by
  have h := c.second_eq_processor
  have hP : (c.processorPeriod : ℚ) ≠ 0 := by exact_mod_cast c.processorPeriod_pos.ne'
  rw [h, Nat.cast_mul, div_mul_eq_div_div_swap, div_self hP]

theorem timerPeriod_div_second (c : Clock) : (c.timerPeriod : ℚ) / c.second = 1 / 60 := by
  have h := c.second_eq_timer
  have hQ : (c.timerPeriod : ℚ) ≠ 0 := by exact_mod_cast c.timerPeriod_pos.ne'
  rw [h, Nat.cast_mul, div_mul_eq_div_div_swap, div_self hQ, Nat.cast_ofNat]

theorem nanosecond_div_second (c : Clock) (ns : ℕ) :
    ((ns * c.nanosecond : ℕ) : ℚ) / c.second = ns / 10 ^ 9 := by
  have h : c.second = 10 ^ 9 * c.nanosecond := by unfold second nanosecond; ring
  have hn : (c.nanosecond : ℚ) ≠ 0 := by
    have := Nat.mul_pos c.hz_pos (by norm_num : 0 < 60)
    exact_mod_cast this.ne'
  rw [h, Nat.cast_mul, Nat.cast_mul, mul_div_mul_right _ _ hn]
  norm_num

/-- An instruction is due for the clock exactly if it is due by the timetable. -/
theorem Tracks.processorPeriod_le_iff (h : Tracks c T p t) :
    c.processorPeriod ≤ c.processorDebt ↔ (↑(p + 1) / c.hz : ℚ) ≤ T := by
  rw [← Nat.cast_le (α := ℚ), ← div_le_div_iff_of_pos_right c.second_pos', h.processor,
    processorPeriod_div_second, Nat.cast_add, Nat.cast_one, add_div]
  constructor <;> intro hle <;> linarith

theorem Tracks.timerPeriod_le_iff (h : Tracks c T p t) :
    c.timerPeriod ≤ c.timerDebt ↔ (↑(t + 1) / 60 : ℚ) ≤ T := by
  rw [← Nat.cast_le (α := ℚ), ← div_le_div_iff_of_pos_right c.second_pos', h.timer,
    timerPeriod_div_second, Nat.cast_add, Nat.cast_one, add_div]
  constructor <;> intro hle <;> linarith

/-- Being overdue for longer is falling due earlier. -/
theorem Tracks.overdue_le_iff (h : Tracks c T p t) :
    c.timerDebt + c.processorPeriod ≤ c.processorDebt + c.timerPeriod ↔
      (↑(p + 1) / c.hz : ℚ) ≤ ↑(t + 1) / 60 := by
  rw [← Nat.cast_le (α := ℚ), ← div_le_div_iff_of_pos_right c.second_pos', Nat.cast_add,
    Nat.cast_add, add_div, add_div, h.processor, h.timer, processorPeriod_div_second,
    timerPeriod_div_second, Nat.cast_add, Nat.cast_add, Nat.cast_one, add_div, add_div]
  constructor <;> intro hle <;> linarith

theorem Tracks.accrue (h : Tracks c T p t) (u : ℕ) :
    Tracks (c.accrue u) (T + u / c.second) p t where
  processor := by
    rw [processorDebt_accrue, second_accrue, hz_accrue, Nat.cast_add, add_div, h.processor]
    ring
  timer := by
    rw [timerDebt_accrue, second_accrue, Nat.cast_add, add_div, h.timer]
    ring

theorem Tracks.paidProcessor (h : Tracks c T p t) (hdue : c.processorPeriod ≤ c.processorDebt) :
    Tracks c.paidProcessor T (p + 1) t where
  processor := by
    rw [processorDebt_paidProcessor, second_paidProcessor, hz_paidProcessor, Nat.cast_sub hdue,
      sub_div, h.processor, processorPeriod_div_second, Nat.cast_add, Nat.cast_one]
    ring
  timer := by rw [timerDebt_paidProcessor, second_paidProcessor, h.timer]

theorem Tracks.paidTimer (h : Tracks c T p t) (hdue : c.timerPeriod ≤ c.timerDebt) :
    Tracks c.paidTimer T p (t + 1) where
  processor := by
    rw [processorDebt_paidTimer, second_paidTimer, hz_paidTimer, h.processor]
  timer := by
    rw [timerDebt_paidTimer, second_paidTimer, Nat.cast_sub hdue, sub_div, h.timer,
      timerPeriod_div_second, Nat.cast_add, Nat.cast_one]
    ring

/-- No more instructions were handed out than have fallen due. -/
theorem Tracks.processor_le (h : Tracks c T p t) : p ≤ ⌊T * c.hz⌋₊ := by
  have h0 : (0 : ℚ) ≤ T - p / c.hz := h.processor ▸ by positivity
  exact Nat.le_floor ((div_le_iff₀ c.hz_pos').mp (sub_nonneg.mp h0))

theorem Tracks.timer_le (h : Tracks c T p t) : t ≤ ⌊T * 60⌋₊ := by
  have h0 : (0 : ℚ) ≤ T - t / 60 := h.timer ▸ by positivity
  exact Nat.le_floor ((div_le_iff₀ (by norm_num)).mp (sub_nonneg.mp h0))

theorem Tracks.upcoming_eq_nil_iff (h : Tracks c T p t) :
    upcoming c.hz p t T = [] ↔ c.pop = none := by
  rw [ChipEight.upcoming_eq_nil_iff c.hz_pos, pop_eq_none_iff, ← not_le, ← not_le, ← not_le,
    ← not_le, h.processorPeriod_le_iff, h.timerPeriod_le_iff]

end Tracks

/-! ## What happens to a clock -/

/-- One thing that is done to a clock. -/
inductive Event where
  | elapse (nanoseconds : ℕ)
  | elapsePeriod
  | pop
  | reset
  deriving DecidableEq

/-- A clock with what happened since it was last reset. -/
structure History where
  clock : Clock
  /-- The time that was let pass, in seconds. -/
  time : ℚ := 0
  /-- The ticks that were handed out, in order. -/
  popped : List Tick := []

namespace History

/-- A new clock. -/
def start (cpuHz : UInt32) : History := { clock := { cpuHz } }

/-- What an event does to the clock, and what is to be remembered of it. -/
def apply (r : History) : Event → History
  | .elapse ns => { r with clock := r.clock.elapse ns, time := r.time + ns / 10 ^ 9 }
  | .elapsePeriod => { r with clock := r.clock.elapsePeriod, time := r.time + 1 / r.clock.hz }
  | .pop =>
    match r.clock.pop with
    | some (tick, clock) => { r with clock, popped := r.popped ++ [tick] }
    | none => r
  | .reset => { clock := r.clock.reset }

/-- The history after some more events. -/
def follow (r : History) (es : List Event) : History := es.foldl apply r

end History

/-- An event of a clock does not bring a debt above one second. -/
def Event.Borne (c : Clock) : Event → Prop
  | .elapse ns => c.Bears (ns * c.nanosecond)
  | .elapsePeriod => c.Bears c.processorPeriod
  | .pop => True
  | .reset => True

instance (c : Clock) : (e : Event) → Decidable (e.Borne c)
  | .elapse _ => inferInstanceAs (Decidable (c.Bears _))
  | .elapsePeriod => inferInstanceAs (Decidable (c.Bears _))
  | .pop => .isTrue trivial
  | .reset => .isTrue trivial

/-- No event in a list brings a debt above one second. -/
def History.Unstalled (r : History) : List Event → Prop
  | [] => True
  | e :: es => e.Borne r.clock ∧ (r.apply e).Unstalled es

instance History.decidableUnstalled : (r : History) → (es : List Event) → Decidable (r.Unstalled es)
  | _, [] => .isTrue trivial
  | r, e :: es =>
    have := decidableUnstalled (r.apply e) es
    inferInstanceAs (Decidable (e.Borne r.clock ∧ (r.apply e).Unstalled es))

/-! ## The invariant -/

/-- The debts are those of the ticks handed out, and these and what is upcoming are together the
timetable. -/
structure History.OnTime (r : History) : Prop where
  tracks : Tracks r.clock r.time (r.popped.count .processor) (r.popped.count .timer)
  timetable_eq : (timetable r.clock.hz r.time).map Appointment.tick =
    r.popped ++ (upcoming r.clock.hz (r.popped.count .processor) (r.popped.count .timer)
      r.time).map Appointment.tick

namespace History

variable {r : History}

theorem onTime_start (cpuHz : UInt32) : (start cpuHz).OnTime where
  tracks := ⟨by simp [start], by simp [start]⟩
  timetable_eq := rfl

theorem OnTime.reset (_ : r.OnTime) : (r.apply .reset).OnTime where
  tracks := ⟨by simp [apply, Clock.reset], by simp [apply, Clock.reset]⟩
  timetable_eq := rfl

/-- Time that is owed in full makes the timetable longer at its end. -/
theorem OnTime.accrue (h : r.OnTime) (u : ℕ) :
    OnTime { r with clock := r.clock.accrue u, time := r.time + u / r.clock.second } where
  tracks := h.tracks.accrue u
  timetable_eq := by
    have hT : r.time ≤ r.time + u / r.clock.second := le_add_of_nonneg_right (by positivity)
    show (timetable r.clock.hz _).map _ = r.popped ++ (upcoming r.clock.hz _ _ _).map _
    rw [upcoming_append r.clock.hz_pos h.tracks.processor_le h.tracks.timer_le hT, List.map_append,
      ← List.append_assoc, ← h.timetable_eq, ← List.map_append]
    congr 1
    exact upcoming_append r.clock.hz_pos (Nat.zero_le _) (Nat.zero_le _) hT

/-- Handing out a tick takes the first one off what is upcoming. -/
theorem OnTime.pop (h : r.OnTime) : (r.apply .pop).OnTime := by
  rcases hpop : r.clock.pop with _ | ⟨tick, c'⟩
  · have hr : r.apply .pop = r := by simp only [apply, hpop]
    rw [hr]
    exact h
  · have hr : r.apply .pop = { r with clock := c', popped := r.popped ++ [tick] } := by
      simp only [apply, hpop]
    rw [hr]
    have htr := h.tracks
    rcases pop_cases hpop with ⟨rfl, rfl, hp, hle⟩ | ⟨rfl, rfl, ht, hlt⟩
    · constructor
      · show Tracks _ r.time (List.count _ (r.popped ++ _)) (List.count _ (r.popped ++ _))
        rw [List.count_append, List.count_append]
        exact htr.paidProcessor hp
      · show (timetable r.clock.paidProcessor.hz _).map _ = _
        rw [hz_paidProcessor, h.timetable_eq,
          upcoming_of_processor r.clock.hz_pos (htr.processorPeriod_le_iff.mp hp)
            (htr.overdue_le_iff.mp hle)]
        simp only [List.count_append, List.append_assoc]
        rfl
    · have hlt' := htr.overdue_le_iff.not.mp (by omega)
      constructor
      · show Tracks _ r.time (List.count _ (r.popped ++ _)) (List.count _ (r.popped ++ _))
        rw [List.count_append, List.count_append]
        exact htr.paidTimer ht
      · show (timetable r.clock.paidTimer.hz _).map _ = _
        rw [hz_paidTimer, h.timetable_eq,
          upcoming_of_timer (htr.timerPeriod_le_iff.mp ht) (not_le.mp hlt')]
        simp only [List.count_append, List.append_assoc]
        rfl

theorem OnTime.apply (h : r.OnTime) {e : Event} (hb : e.Borne r.clock) : (r.apply e).OnTime := by
  cases e with
  | elapse ns =>
    have := h.accrue (ns * r.clock.nanosecond)
    rw [nanosecond_div_second, ← elapse_eq_accrue hb] at this
    exact this
  | elapsePeriod =>
    have := h.accrue r.clock.processorPeriod
    rw [processorPeriod_div_second, ← elapsePeriod_eq_accrue hb] at this
    exact this
  | pop => exact h.pop
  | reset => exact h.reset

theorem OnTime.follow : ∀ (es : List Event) {r : History}, r.OnTime → r.Unstalled es →
    (r.follow es).OnTime := by
  intro es
  induction es with
  | nil => intro r h _; exact h
  | cons e es ih => intro r h hu; exact ih (h.apply hu.1) hu.2

/-! ## The speed stays -/

theorem hz_apply (r : History) (e : Event) : (r.apply e).clock.hz = r.clock.hz := by
  cases e with
  | elapse ns => exact hz_owe _ _
  | elapsePeriod => exact hz_owe _ _
  | reset => rfl
  | pop =>
    unfold apply
    rcases hpop : r.clock.pop with _ | ⟨tick, c'⟩
    · rfl
    · exact hz_of_pop hpop

theorem hz_follow : ∀ (es : List Event) (r : History), (r.follow es).clock.hz = r.clock.hz := by
  intro es
  induction es with
  | nil => intro r; rfl
  | cons e es ih => intro r; exact (ih (r.apply e)).trans (hz_apply r e)

/-- **The clock keeps to the timetable.** If no time is cut off, the ticks handed out begin the
timetable of the time that passed, and the clock has nothing to hand out exactly if the whole
timetable was handed out. -/
theorem popped_isPrefix_timetable (cpuHz : UInt32) (es : List Event)
    (h : (start cpuHz).Unstalled es) :
    let r := (start cpuHz).follow es
    let ticks := (timetable (max cpuHz.toNat 1) r.time).map Appointment.tick
    r.popped <+: ticks ∧ (r.clock.pop = none ↔ r.popped = ticks) := by
  have on := OnTime.follow es (onTime_start cpuHz) h
  have hhz : _ = max cpuHz.toNat 1 := hz_follow es (start cpuHz)
  generalize (start cpuHz).follow es = r at on hhz
  intro r' ticks
  have hticks : ticks = r.popped ++ _ := hhz ▸ on.timetable_eq
  rw [hticks, ← on.tracks.upcoming_eq_nil_iff]
  refine ⟨List.prefix_append _ _, ?_⟩
  rw [List.self_eq_append_right, List.map_eq_nil_iff, hhz]

/-- At ninety instructions a second, after twenty milliseconds and one more period. -/
theorem popped_isPrefix_timetable_ninety :
    let es : List Event := [.elapse 20000000, .pop, .elapsePeriod, .pop, .pop]
    let r := (start 90).follow es
    (start 90).Unstalled es ∧ r.popped = [.processor, .timer, .processor] ∧
      r.popped = (timetable 90 r.time).map Appointment.tick := by
  intro es r
  have h : (start 90).Unstalled es := by decide
  have hnone : r.clock.pop = none := by decide
  exact ⟨h, by decide, (popped_isPrefix_timetable 90 es h).2.mp hnone⟩

end History

end ChipEight.Clock
