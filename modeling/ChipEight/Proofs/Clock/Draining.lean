import ChipEight.Proofs.Clock.History

/-!
# Draining a clock

`Clock.drain` asks for ticks until nothing is due. Each kind of tick is paid for out of its own debt
(`debt_of_pop`), so a drained clock has handed out as many as the debt has periods
(`count_drain`), and no more than fall into a second (`count_drain_le`).

Of a history, `accounted` is the time that the debt and the ticks of one kind stand for. Handing out
ticks does not change it (`accounted_pop`) and letting time pass adds at most that time
(`accounted_owe_le`), so a clock is never ahead, whatever is cut off (`accounted_follow_le`). A
clock that is owed a full second has the timetable of one second to hand out (`drain_of_full`).
-/

namespace ChipEight.Clock

/-! ## The two kinds of tick -/

def debt (c : Clock) : Tick → ℕ
  | .processor => c.processorDebt
  | .timer => c.timerDebt

def period (c : Clock) : Tick → ℕ
  | .processor => c.processorPeriod
  | .timer => c.timerPeriod

/-- How many ticks of a kind fall due in a second. -/
def rate (c : Clock) : Tick → ℕ
  | .processor => c.hz
  | .timer => 60

section

variable {c c' : Clock} {tick t : Tick} {u : ℕ}

theorem period_pos (c : Clock) (t : Tick) : 0 < c.period t := by
  cases t with
  | processor => exact c.processorPeriod_pos
  | timer => exact c.timerPeriod_pos

theorem rate_pos (c : Clock) (t : Tick) : 0 < c.rate t := by
  cases t with
  | processor => exact c.hz_pos
  | timer => exact (by norm_num : 0 < 60)

theorem second_eq (c : Clock) (t : Tick) : c.second = c.rate t * c.period t := by
  cases t with
  | processor => exact c.second_eq_processor
  | timer => exact c.second_eq_timer

theorem rate_of_hz_eq (h : c'.hz = c.hz) (t : Tick) : c'.rate t = c.rate t := by
  cases t with
  | processor => exact h
  | timer => rfl

theorem second_of_hz_eq (h : c'.hz = c.hz) : c'.second = c.second := by
  unfold second
  rw [h]

theorem period_of_hz_eq (h : c'.hz = c.hz) (t : Tick) : c'.period t = c.period t := by
  cases t with
  | processor => rfl
  | timer =>
    show c'.timerPeriod = c.timerPeriod
    unfold timerPeriod
    rw [h]

theorem period_div_second (c : Clock) (t : Tick) : (c.period t : ℚ) / c.second = 1 / c.rate t := by
  cases t with
  | processor => exact c.processorPeriod_div_second
  | timer => exact c.timerPeriod_div_second

theorem pop_eq_none_iff_debt : c.pop = none ↔ ∀ t, c.debt t < c.period t := by
  rw [pop_eq_none_iff]
  constructor
  · rintro ⟨hp, ht⟩ (_ | _)
    · exact hp
    · exact ht
  · exact fun h => ⟨h .processor, h .timer⟩

theorem debt_with_debts (c : Clock) (d e : ℕ) :
    let c' : Clock := { c with processorDebt := d, timerDebt := e }
    c'.debt .processor = d ∧ c'.debt .timer = e := ⟨rfl, rfl⟩

theorem debt_paidProcessor (c : Clock) :
    c.paidProcessor.debt .processor = c.debt .processor - c.period .processor ∧
      c.paidProcessor.debt .timer = c.debt .timer := debt_with_debts c _ _

theorem debt_paidTimer (c : Clock) :
    c.paidTimer.debt .processor = c.debt .processor ∧
      c.paidTimer.debt .timer = c.debt .timer - c.period .timer := debt_with_debts c _ _

/-- A tick is paid for out of the debt of its own kind. -/
theorem debt_of_pop (h : c.pop = some (tick, c')) (t : Tick) :
    c.debt t = c'.debt t + if tick = t then c.period t else 0 := by
  rcases pop_cases h with ⟨rfl, rfl, hp, -⟩ | ⟨rfl, rfl, ht, -⟩
  · obtain ⟨hpaid, hkept⟩ := debt_paidProcessor c
    have hp' : c.period .processor ≤ c.debt .processor := hp
    cases t with
    | processor => rw [hpaid, if_pos rfl, Nat.sub_add_cancel hp']
    | timer => rw [hkept, if_neg (by decide), Nat.add_zero]
  · obtain ⟨hkept, hpaid⟩ := debt_paidTimer c
    have ht' : c.period .timer ≤ c.debt .timer := ht
    cases t with
    | processor => rw [hkept, if_neg (by decide), Nat.add_zero]
    | timer => rw [hpaid, if_pos rfl, Nat.sub_add_cancel ht']

theorem length_eq_count (ticks : List Tick) :
    ticks.length = ticks.count .processor + ticks.count .timer := by
  induction ticks with
  | nil => rfl
  | cons tick ticks ih =>
    cases tick <;> simp [ih] <;> omega

/-! ## Until nothing is due -/

/-- Asks for ticks until nothing is due. -/
def drain (c : Clock) : List Tick × Clock :=
  match _due : c.pop with
  | none => ([], c)
  | some (tick, c') => (tick :: c'.drain.1, c'.drain.2)
termination_by c.owed
decreasing_by all_goals exact owed_lt_of_pop _due

theorem drain_of_none (h : c.pop = none) : c.drain = ([], c) := by
  rw [drain]
  split <;> simp_all

theorem drain_of_some (h : c.pop = some (tick, c')) :
    c.drain = (tick :: c'.drain.1, c'.drain.2) := by
  rw [drain]
  split <;> simp_all

theorem pop_drain (c : Clock) : c.drain.2.pop = none := by
  induction c using drain.induct with
  | case1 c h => rwa [drain_of_none h]
  | case2 c tick c' h ih => rwa [drain_of_some h]

theorem cpuHz_drain (c : Clock) : c.drain.2.cpuHz = c.cpuHz := by
  induction c using drain.induct with
  | case1 c h => rw [drain_of_none h]
  | case2 c tick c' h ih => rw [drain_of_some h, ih, cpuHz_of_pop h]

theorem reset_drain (c : Clock) : c.drain.2.reset = c.reset := by
  unfold reset
  rw [cpuHz_drain]

theorem hz_drain (c : Clock) : c.drain.2.hz = c.hz := hz_of_cpuHz_eq c.cpuHz_drain

/-- What was handed out and what is left make up the debt. -/
theorem debt_drain (c : Clock) (t : Tick) :
    c.drain.1.count t * c.period t + c.drain.2.debt t = c.debt t := by
  induction c using drain.induct with
  | case1 c h => rw [drain_of_none h]; simp
  | case2 c tick c' h ih =>
    rw [period_of_hz_eq (hz_of_pop h)] at ih
    rw [drain_of_some h, debt_of_pop h t, ← ih]
    by_cases ht : tick = t
    · subst ht
      rw [List.count_cons_self, if_pos rfl]
      ring
    · rw [List.count_cons_of_ne ht, if_neg ht, Nat.add_zero]

theorem debt_drain_lt (c : Clock) (t : Tick) : c.drain.2.debt t < c.period t := by
  have h := pop_eq_none_iff_debt.mp c.pop_drain t
  rwa [period_of_hz_eq c.hz_drain] at h

theorem div_mod_drain (c : Clock) (t : Tick) :
    c.debt t / c.period t = c.drain.1.count t ∧ c.debt t % c.period t = c.drain.2.debt t := by
  refine (Nat.div_mod_unique (c.period_pos t)).mpr ⟨?_, c.debt_drain_lt t⟩
  rw [Nat.add_comm, Nat.mul_comm]
  exact c.debt_drain t

/-- As many ticks are handed out as the debt has periods. -/
theorem count_drain (c : Clock) (t : Tick) : c.drain.1.count t = c.debt t / c.period t :=
  (c.div_mod_drain t).1.symm

theorem debt_drain_eq_mod (c : Clock) (t : Tick) : c.drain.2.debt t = c.debt t % c.period t :=
  (c.div_mod_drain t).2.symm

/-- A clock that owes at most a second has no more to hand out than falls due in a second. -/
theorem count_drain_le (h : c.debt t ≤ c.second) : c.drain.1.count t ≤ c.rate t := by
  rw [count_drain]
  rw [c.second_eq t] at h
  calc c.debt t / c.period t ≤ c.rate t * c.period t / c.period t := Nat.div_le_div_right h
    _ = c.rate t := Nat.mul_div_cancel _ (c.period_pos t)

/-! ## At most one second is owed -/

theorem debt_owe (c : Clock) (u : ℕ) (t : Tick) : (c.owe u).debt t = c.grown (c.debt t) u := by
  cases t <;> rfl

theorem debt_owe_le_second (c : Clock) (u : ℕ) (t : Tick) : (c.owe u).debt t ≤ c.second := by
  rw [debt_owe]
  exact Nat.min_le_right _ _

theorem debt_owe_le (c : Clock) (u : ℕ) (t : Tick) : (c.owe u).debt t ≤ c.debt t + u := by
  rw [debt_owe]
  exact (Nat.min_le_left _ _).trans (Nat.min_le_left _ _)

theorem debt_owe_of_le (h : c.debt t + u ≤ c.second) : (c.owe u).debt t = c.debt t + u := by
  rw [debt_owe, grown_of_le h]

theorem debt_owe_of_second_le (h : c.second ≤ c.debt t + u) : (c.owe u).debt t = c.second := by
  rw [debt_owe]
  unfold grown
  exact Nat.min_eq_right (Nat.le_min.mpr ⟨h, c.second_le_ceiling⟩)

theorem hz_elapse (c : Clock) (ns : ℕ) : (c.elapse ns).hz = c.hz := hz_owe _ _

/-- After a second or more the clock owes exactly one second, whatever it owed before. -/
theorem debt_elapse_of_le {ns : ℕ} (h : 10 ^ 9 ≤ ns) (t : Tick) :
    (c.elapse ns).debt t = c.second := by
  have hle : c.second ≤ min (ns * c.nanosecond) ceiling := by
    refine Nat.le_min.mpr ⟨?_, c.second_le_ceiling⟩
    calc c.second = 10 ^ 9 * c.nanosecond := by unfold second nanosecond; ring
      _ ≤ ns * c.nanosecond := Nat.mul_le_mul_right _ h
  exact debt_owe_of_second_le (hle.trans (Nat.le_add_left _ _))

/-- However much time passes at once, at most the ticks of a second are due after it. -/
theorem count_drain_elapse_le (c : Clock) (ns : ℕ) (t : Tick) :
    (c.elapse ns).drain.1.count t ≤ c.rate t := by
  have hhz := hz_elapse c ns
  rw [← rate_of_hz_eq hhz]
  apply count_drain_le
  rw [second_of_hz_eq hhz]
  exact debt_owe_le_second _ _ t

end

namespace History

variable {r : History} {t : Tick}

/-! ## Draining in a history -/

/-- Asks for ticks until nothing is due. -/
def drain (r : History) : History :=
  { r with clock := r.clock.drain.2, popped := r.popped ++ r.clock.drain.1 }

theorem apply_pop_of_none (h : r.clock.pop = none) : r.apply .pop = r := by
  simp only [apply, h]

theorem apply_pop_of_some {tick : Tick} {c : Clock} (h : r.clock.pop = some (tick, c)) :
    r.apply .pop = { r with clock := c, popped := r.popped ++ [tick] } := by
  simp only [apply, h]

theorem drain_apply_pop (r : History) : (r.apply .pop).drain = r.drain := by
  rcases h : r.clock.pop with _ | ⟨tick, c⟩
  · rw [apply_pop_of_none h]
  · rw [apply_pop_of_some h]
    unfold drain
    simp only [Clock.drain_of_some h, List.append_assoc, List.singleton_append]

/-- Draining is asking once for each tick that is due; asking again changes nothing. -/
theorem follow_replicate_pop : ∀ (n : ℕ) (r : History), r.clock.drain.1.length ≤ n →
    r.follow (List.replicate n .pop) = r.drain := by
  intro n
  induction n with
  | zero =>
    intro r h
    rcases hpop : r.clock.pop with _ | ⟨tick, c⟩
    · simp [follow, drain, Clock.drain_of_none hpop]
    · simp [Clock.drain_of_some hpop] at h
  | succ n ih =>
    intro r h
    show (r.apply .pop).follow (List.replicate n .pop) = r.drain
    rw [← drain_apply_pop]
    apply ih
    rcases hpop : r.clock.pop with _ | ⟨tick, c⟩
    · rw [apply_pop_of_none hpop, Clock.drain_of_none hpop]
      exact Nat.zero_le _
    · rw [Clock.drain_of_some hpop, List.length_cons] at h
      rw [apply_pop_of_some hpop]
      exact Nat.le_of_succ_le_succ h

theorem OnTime.drain (h : r.OnTime) : r.drain.OnTime := by
  rw [← follow_replicate_pop _ r le_rfl]
  refine OnTime.follow _ h ?_
  generalize r.clock.drain.1.length = n
  clear h
  induction n generalizing r with
  | zero => exact trivial
  | succ n ih => exact ⟨trivial, ih⟩

/-- A clock on time that is drained has handed out the whole timetable. -/
theorem OnTime.popped_drain (h : r.OnTime) :
    r.drain.popped = (timetable r.clock.hz r.time).map Appointment.tick := by
  have hd := h.drain
  have hnil := hd.tracks.upcoming_eq_nil_iff.mpr r.clock.pop_drain
  have heq := hd.timetable_eq
  rw [hnil, List.map_nil, List.append_nil] at heq
  rw [← heq, ← r.clock.hz_drain]
  rfl

/-! ## The time accounted for -/

/-- The time that the debt and the ticks of one kind stand for, in seconds. -/
def accounted (r : History) (t : Tick) : ℚ :=
  r.clock.debt t / r.clock.second + r.popped.count t / r.clock.rate t

theorem accounted_pop (r : History) (t : Tick) : (r.apply .pop).accounted t = r.accounted t := by
  rcases h : r.clock.pop with _ | ⟨tick, c⟩
  · rw [apply_pop_of_none h]
  · have hhz := hz_of_pop h
    have hdebt := debt_of_pop h t
    rw [apply_pop_of_some h]
    unfold accounted
    dsimp only
    rw [hdebt, second_of_hz_eq hhz, rate_of_hz_eq hhz, List.count_append]
    by_cases ht : tick = t
    · subst ht
      rw [if_pos rfl, List.count_singleton_self, Nat.cast_add (c.debt tick), add_div _ _ (_ : ℚ),
        period_div_second, Nat.cast_add, add_div, Nat.cast_one]
      ring
    · rw [if_neg ht, List.count_singleton, if_neg (by simpa using ht), Nat.add_zero, Nat.add_zero]

theorem accounted_drain (r : History) (t : Tick) : r.drain.accounted t = r.accounted t := by
  rw [← follow_replicate_pop _ r le_rfl]
  generalize r.clock.drain.1.length = n
  induction n generalizing r with
  | zero => rfl
  | succ n ih => exact (ih (r.apply .pop)).trans (r.accounted_pop t)

theorem accounted_owe_le (r : History) (u : ℕ) (time : ℚ) (t : Tick) :
    accounted { r with clock := r.clock.owe u, time } t ≤ r.accounted t + u / r.clock.second := by
  have hle : ((r.clock.owe u).debt t : ℚ) / r.clock.second ≤
      r.clock.debt t / r.clock.second + u / r.clock.second := by
    rw [← add_div, div_le_div_iff_of_pos_right r.clock.second_pos']
    exact_mod_cast r.clock.debt_owe_le u t
  unfold accounted
  dsimp only
  rw [second_of_hz_eq (hz_owe _ _), rate_of_hz_eq (hz_owe _ _)]
  linarith

theorem accounted_owe_of_le {u : ℕ} (h : r.clock.debt t + u ≤ r.clock.second) (time : ℚ) :
    accounted { r with clock := r.clock.owe u, time } t = r.accounted t + u / r.clock.second := by
  unfold accounted
  dsimp only
  rw [second_of_hz_eq (hz_owe _ _), rate_of_hz_eq (hz_owe _ _), debt_owe_of_le h, Nat.cast_add,
    add_div]
  ring

/-- A tick that was handed out is accounted for. -/
theorem count_le_floor_accounted (r : History) (t : Tick) :
    r.popped.count t ≤ ⌊r.accounted t * r.clock.rate t⌋₊ := by
  have hrate : (0 : ℚ) < r.clock.rate t := by exact_mod_cast r.clock.rate_pos t
  apply Nat.le_floor
  rw [← div_le_iff₀ hrate]
  unfold accounted
  have : (0 : ℚ) ≤ r.clock.debt t / r.clock.second := by positivity
  linarith

/-- If nothing is due, what is accounted for was handed out. -/
theorem count_eq_floor_accounted (h : r.clock.pop = none) (t : Tick) :
    r.popped.count t = ⌊r.accounted t * r.clock.rate t⌋₊ := by
  refine le_antisymm (r.count_le_floor_accounted t) (Nat.lt_succ_iff.mp ?_)
  have hrate : (0 : ℚ) < r.clock.rate t := by exact_mod_cast r.clock.rate_pos t
  have hlt : (r.clock.debt t : ℚ) / r.clock.second < 1 / r.clock.rate t := by
    rw [← period_div_second, div_lt_div_iff_of_pos_right r.clock.second_pos']
    exact_mod_cast pop_eq_none_iff_debt.mp h t
  rw [Nat.floor_lt' (Nat.succ_ne_zero _), ← lt_div_iff₀ hrate]
  unfold accounted
  rw [Nat.succ_eq_add_one, Nat.cast_add, add_div, Nat.cast_one]
  linarith

/-! ## Never ahead -/

theorem accounted_start (cpuHz : UInt32) (t : Tick) : (start cpuHz).accounted t = 0 := by
  cases t <;> simp [start, accounted, debt]

/-- No event accounts for more time than it lets pass. -/
theorem accounted_apply_le (h : r.accounted t ≤ r.time) (e : Event) :
    (r.apply e).accounted t ≤ (r.apply e).time := by
  cases e with
  | elapse ns =>
    have hle := r.accounted_owe_le (min (ns * r.clock.nanosecond) ceiling) (r.time + ns / 10 ^ 9) t
    have hmin : ((min (ns * r.clock.nanosecond) ceiling : ℕ) : ℚ) / r.clock.second ≤
        ns / 10 ^ 9 := by
      rw [← nanosecond_div_second r.clock, div_le_div_iff_of_pos_right r.clock.second_pos']
      exact_mod_cast Nat.min_le_left _ _
    exact hle.trans (add_le_add h hmin)
  | elapsePeriod =>
    have hle := r.accounted_owe_le r.clock.processorPeriod (r.time + 1 / r.clock.hz) t
    rw [processorPeriod_div_second] at hle
    exact hle.trans (add_le_add_left h _)
  | pop =>
    rw [accounted_pop]
    rcases hpop : r.clock.pop with _ | ⟨tick, c⟩
    · rw [apply_pop_of_none hpop]
      exact h
    · rw [apply_pop_of_some hpop]
      exact h
  | reset => cases t <;> simp [apply, accounted, debt, Clock.reset]

theorem accounted_follow_le : ∀ (es : List Event) {r : History}, r.accounted t ≤ r.time →
    (r.follow es).accounted t ≤ (r.follow es).time := by
  intro es
  induction es with
  | nil => intro r h; exact h
  | cons e es ih => intro r h; exact ih (accounted_apply_le h e)

/-- However much time is cut off, no more ticks were handed out than have fallen due. -/
theorem count_follow_le (cpuHz : UInt32) (es : List Event) (t : Tick) :
    let r := (start cpuHz).follow es
    r.popped.count t ≤ ⌊r.time * r.clock.rate t⌋₊ := by
  intro r
  have hle : r.accounted t ≤ r.time := accounted_follow_le es (accounted_start cpuHz t).le
  have hrate : (0 : ℚ) ≤ r.clock.rate t := Nat.cast_nonneg _
  exact (r.count_le_floor_accounted t).trans
    (Nat.floor_le_floor (mul_le_mul_of_nonneg_right hle hrate))

theorem debt_apply_le (h : r.clock.debt t ≤ r.clock.second) (e : Event) :
    (r.apply e).clock.debt t ≤ (r.apply e).clock.second := by
  rw [second_of_hz_eq (hz_apply r e)]
  cases e with
  | elapse ns => exact debt_owe_le_second _ _ _
  | elapsePeriod => exact debt_owe_le_second _ _ _
  | reset => cases t <;> exact Nat.zero_le _
  | pop =>
    rcases hpop : r.clock.pop with _ | ⟨tick, c⟩
    · rwa [apply_pop_of_none hpop]
    · rw [apply_pop_of_some hpop]
      have := debt_of_pop hpop t
      dsimp only
      omega

theorem debt_follow_le : ∀ (es : List Event) {r : History}, r.clock.debt t ≤ r.clock.second →
    (r.follow es).clock.debt t ≤ (r.follow es).clock.second := by
  intro es
  induction es with
  | nil => intro r h; exact h
  | cons e es ih => intro r h; exact ih (debt_apply_le h e)

end History

/-! ## A full second -/

section

variable {c d : Clock}

theorem eq_reset (hhz : d.cpuHz = c.cpuHz) (h : ∀ t, d.debt t = 0) : d = c.reset := by
  obtain ⟨cpuHz, p, t⟩ := d
  obtain rfl : p = 0 := h .processor
  obtain rfl : t = 0 := h .timer
  obtain rfl : cpuHz = c.cpuHz := hhz
  rfl

/-- A clock that owes one second of both kinds has the timetable of one second to hand out, and then
owes nothing. -/
theorem drain_of_full (h : ∀ t, c.debt t = c.second) :
    c.drain = ((timetable c.hz 1).map Appointment.tick, c.reset) := by
  have hsecond : (c.second : ℚ) ≠ 0 := c.second_pos'.ne'
  have hp : (c.processorDebt : ℚ) / c.second = 1 := by
    rw [show c.processorDebt = c.second from h .processor, div_self hsecond]
  have ht : (c.timerDebt : ℚ) / c.second = 1 := by
    rw [show c.timerDebt = c.second from h .timer, div_self hsecond]
  -- Such a clock is like one that was never served for a second, which is on time.
  have on : History.OnTime { clock := c, time := 1 } :=
    { tracks := ⟨by simpa using hp, by simpa using ht⟩, timetable_eq := rfl }
  have hdebt : ∀ t, c.drain.2.debt t = 0 := fun t => by
    rw [debt_drain_eq_mod, h t, c.second_eq t, Nat.mul_mod_left]
  exact Prod.ext on.popped_drain (eq_reset c.cpuHz_drain hdebt)

/-- Letting a second or more pass leaves exactly one second to hand out, whatever was owed. -/
theorem drain_elapse_of_le {ns : ℕ} (h : 10 ^ 9 ≤ ns) :
    (c.elapse ns).drain = ((timetable c.hz 1).map Appointment.tick, c.reset) := by
  rw [drain_of_full (fun t => ?_), hz_elapse]
  · rfl
  · rw [debt_elapse_of_le h, second_of_hz_eq (hz_elapse c ns)]

end

end ChipEight.Clock
