import ChipEight.Proofs.Clock.Draining

/-!
# A host that is not stalled

A host that lets at most a sixtieth of a second pass at a time, and drains the clock each time
(`History.serveAll`), never has a full second cut off at once. It loses no timer tick, and no
instruction at two or more instructions a second: what is left after draining is less than half a
second then, and leaves room for a sixtieth (`accounted_serve_of_two_le`). So it is handed exactly
what has fallen due (`count_serveAll`).

At one instruction a second what is left may be nearly a second, and the next sixtieth brings it
above. What goes beyond is cut off, so each instruction may come up to a sixtieth of a second late
(`time_serve_le`), and two seconds can pass with a single one handed out
(`count_serveAll_one_lt_floor`).
-/

namespace ChipEight.Clock.History

/-- Lets time pass and then drains the clock. -/
def serve (r : History) (ns : ℕ) : History := (r.apply (.elapse ns)).drain

/-- Lets one span of time pass after the other, and drains the clock each time. -/
def serveAll (r : History) (ds : List ℕ) : History := ds.foldl serve r

variable {r : History} {t : Tick} {ns : ℕ}

theorem pop_serve (r : History) (ns : ℕ) : (r.serve ns).clock.pop = none := Clock.pop_drain _

theorem time_serve (r : History) (ns : ℕ) : (r.serve ns).time = r.time + ns / 10 ^ 9 := rfl

theorem accounted_serve (r : History) (ns : ℕ) (t : Tick) :
    (r.serve ns).accounted t = (r.apply (.elapse ns)).accounted t := accounted_drain _ t

theorem hz_serve (r : History) (ns : ℕ) : (r.serve ns).clock.hz = r.clock.hz :=
  (Clock.hz_drain _).trans (hz_elapse _ _)

theorem count_serve (r : History) (ns : ℕ) (t : Tick) :
    (r.serve ns).popped.count t =
      r.popped.count t + (r.clock.elapse ns).debt t / (r.clock.elapse ns).period t := by
  rw [← Clock.count_drain, ← List.count_append]
  rfl

/-- What one span preserves that is at most a sixtieth of a second, a list of them preserves. -/
theorem serveAll_preserves {P : History → Prop}
    (hP : ∀ r ns, 60 * ns ≤ 10 ^ 9 → r.clock.pop = none → P r → P (r.serve ns)) :
    ∀ (ds : List ℕ) (r : History), (∀ ns ∈ ds, 60 * ns ≤ 10 ^ 9) → r.clock.pop = none → P r →
      (r.serveAll ds).clock.pop = none ∧ P (r.serveAll ds) := by
  intro ds
  induction ds with
  | nil => exact fun r _ hpop h => ⟨hpop, h⟩
  | cons ns ds ih =>
    intro r hds hpop h
    exact ih (r.serve ns) (fun n hn => hds n (List.mem_cons_of_mem _ hn)) (pop_serve r ns)
      (hP r ns (hds ns List.mem_cons_self) hpop h)

/-! ## One span -/

theorem units_le (c : Clock) (h : 60 * ns ≤ 10 ^ 9) : 60 * (ns * c.nanosecond) ≤ c.second := by
  calc 60 * (ns * c.nanosecond) = 60 * ns * c.nanosecond := (Nat.mul_assoc _ _ _).symm
    _ ≤ 10 ^ 9 * c.nanosecond := Nat.mul_le_mul_right _ h
    _ = c.second := by unfold second nanosecond; ring

theorem elapse_eq_owe (c : Clock) (h : 60 * ns ≤ 10 ^ 9) :
    c.elapse ns = c.owe (ns * c.nanosecond) := by
  have hle := units_le c h
  have hceiling := c.second_le_ceiling
  unfold elapse
  rw [Nat.min_eq_left (by omega)]

theorem apply_elapse (r : History) (h : 60 * ns ≤ 10 ^ 9) :
    r.apply (.elapse ns) =
      { r with clock := r.clock.owe (ns * r.clock.nanosecond), time := r.time + ns / 10 ^ 9 } := by
  show ({ r with clock := r.clock.elapse ns, time := r.time + ns / 10 ^ 9 } : History) = _
  rw [elapse_eq_owe r.clock h]

/-- A span that fits under the second is accounted for in full. -/
theorem accounted_serve_of_le (h : 60 * ns ≤ 10 ^ 9)
    (hfit : r.clock.debt t + ns * r.clock.nanosecond ≤ r.clock.second) :
    (r.serve ns).accounted t = r.accounted t + ns / 10 ^ 9 := by
  rw [accounted_serve, apply_elapse r h, accounted_owe_of_le hfit, nanosecond_div_second]

/-- With two or more ticks a second, what is left after draining leaves room for a sixtieth. -/
theorem accounted_serve_of_two_le (h : 60 * ns ≤ 10 ^ 9) (hpop : r.clock.pop = none)
    (hrate : 2 ≤ r.clock.rate t) :
    (r.serve ns).accounted t = r.accounted t + ns / 10 ^ 9 := by
  apply accounted_serve_of_le h
  have hdebt := pop_eq_none_iff_debt.mp hpop t
  have hunits := units_le r.clock h
  have hsecond : 2 * r.clock.period t ≤ r.clock.second := by
    rw [r.clock.second_eq t]
    exact Nat.mul_le_mul_right _ hrate
  omega

/-- No more than a sixtieth of a second is lost to each tick that is handed out. -/
theorem time_serve_le (h : 60 * ns ≤ 10 ^ 9) (hpop : r.clock.pop = none)
    (hr : r.time ≤ r.accounted t + r.popped.count t / 60) :
    (r.serve ns).time ≤ (r.serve ns).accounted t + (r.serve ns).popped.count t / 60 := by
  have hdue := pop_eq_none_iff_debt.mp hpop t
  have hunits := units_le r.clock h
  rw [time_serve]
  by_cases hfit : r.clock.debt t + ns * r.clock.nanosecond ≤ r.clock.second
  · have hcount : (r.popped.count t : ℚ) ≤ (r.serve ns).popped.count t := by
      rw [count_serve]
      exact_mod_cast Nat.le_add_right _ _
    rw [accounted_serve_of_le h hfit]
    linarith
  · -- The debt is cut down to a second, out of which at least one tick is paid for.
    have hfull : (r.clock.elapse ns).debt t = r.clock.second := by
      rw [elapse_eq_owe r.clock h]
      exact debt_owe_of_second_le (by omega)
    have hcount : (r.popped.count t : ℚ) + 1 ≤ (r.serve ns).popped.count t := by
      rw [count_serve, hfull, period_of_hz_eq (hz_elapse _ _), r.clock.second_eq t,
        Nat.mul_div_cancel _ (r.clock.period_pos t)]
      exact_mod_cast Nat.add_le_add_left (r.clock.rate_pos t) _
    have hmore : r.accounted t ≤ (r.serve ns).accounted t := by
      have hlt : (r.clock.debt t : ℚ) / r.clock.second ≤ r.clock.second / r.clock.second := by
        rw [div_le_div_iff_of_pos_right r.clock.second_pos']
        have := r.clock.second_eq t
        have := Nat.le_mul_of_pos_left (r.clock.period t) (r.clock.rate_pos t)
        exact_mod_cast (by omega : r.clock.debt t ≤ r.clock.second)
      rw [accounted_serve]
      show _ ≤ ((r.clock.elapse ns).debt t : ℚ) / (r.clock.elapse ns).second +
        r.popped.count t / (r.clock.elapse ns).rate t
      rw [hfull, second_of_hz_eq (hz_elapse _ _), rate_of_hz_eq (hz_elapse _ _)]
      unfold accounted
      linarith
    have hns : (ns : ℚ) / 10 ^ 9 ≤ 1 / 60 := by
      rw [div_le_div_iff₀ (by norm_num) (by norm_num)]
      exact_mod_cast (by omega : ns * 60 ≤ 1 * 10 ^ 9)
    linarith

/-! ## Every list of spans -/

theorem time_serveAll : ∀ (ds : List ℕ) (r : History),
    (r.serveAll ds).time = r.time + (ds.sum : ℕ) / 10 ^ 9 := by
  intro ds
  induction ds with
  | nil => intro r; simp [serveAll]
  | cons ns ds ih =>
    intro r
    show ((r.serve ns).serveAll ds).time = _
    rw [ih, time_serve, List.sum_cons, Nat.cast_add]
    ring

theorem hz_serveAll : ∀ (ds : List ℕ) (r : History), (r.serveAll ds).clock.hz = r.clock.hz := by
  intro ds
  induction ds with
  | nil => intro r; rfl
  | cons ns ds ih => intro r; exact (ih (r.serve ns)).trans (hz_serve r ns)

theorem time_serveAll_start (cpuHz : UInt32) (ds : List ℕ) :
    ((start cpuHz).serveAll ds).time = (ds.sum : ℕ) / 10 ^ 9 := by
  rw [time_serveAll]
  exact zero_add _

/-- At two or more ticks a second all time is accounted for, so every tick is handed out. -/
theorem count_serveAll_of_two_le (cpuHz : UInt32) {ds : List ℕ}
    (h : ∀ ns ∈ ds, 60 * ns ≤ 10 ^ 9) (hrate : 2 ≤ (start cpuHz).clock.rate t) :
    ((start cpuHz).serveAll ds).popped.count t =
      ⌊((ds.sum : ℕ) / 10 ^ 9 : ℚ) * (start cpuHz).clock.rate t⌋₊ := by
  have hstep : ∀ (r : History) (ns : ℕ), 60 * ns ≤ 10 ^ 9 → r.clock.pop = none →
      2 ≤ r.clock.rate t ∧ r.accounted t = r.time →
      2 ≤ (r.serve ns).clock.rate t ∧ (r.serve ns).accounted t = (r.serve ns).time := by
    rintro r ns hns hpop ⟨hr, heq⟩
    rw [rate_of_hz_eq (hz_serve r ns), accounted_serve_of_two_le hns hpop hr, heq]
    exact ⟨hr, rfl⟩
  obtain ⟨hpop, -, heq⟩ := serveAll_preserves hstep ds (start cpuHz) h (pop_reset { cpuHz })
    ⟨hrate, accounted_start cpuHz t⟩
  rw [count_eq_floor_accounted hpop, heq, time_serveAll_start,
    rate_of_hz_eq (hz_serveAll ds _)]

/-- What is accounted for lies between the time that passed and a sixtieth of a second less for each
tick. -/
theorem accounted_serveAll (cpuHz : UInt32) {ds : List ℕ} (h : ∀ ns ∈ ds, 60 * ns ≤ 10 ^ 9)
    (t : Tick) :
    let r := (start cpuHz).serveAll ds
    r.clock.pop = none ∧ r.accounted t ≤ r.time ∧
      r.time ≤ r.accounted t + r.popped.count t / 60 := by
  have hstep : ∀ (r : History) (ns : ℕ), 60 * ns ≤ 10 ^ 9 → r.clock.pop = none →
      r.accounted t ≤ r.time ∧ r.time ≤ r.accounted t + r.popped.count t / 60 →
      (r.serve ns).accounted t ≤ (r.serve ns).time ∧
        (r.serve ns).time ≤ (r.serve ns).accounted t + (r.serve ns).popped.count t / 60 := by
    rintro r ns hns hpop ⟨hle, hlost⟩
    refine ⟨?_, time_serve_le hns hpop hlost⟩
    rw [accounted_serve]
    exact accounted_apply_le hle (.elapse ns)
  refine serveAll_preserves hstep ds (start cpuHz) h (pop_reset { cpuHz }) ?_
  rw [accounted_start]
  exact ⟨le_rfl, by simp [start]⟩

/-- **A host that is not stalled loses no timer tick, and no instruction at two or more a second.**
At one instruction a second it is handed no instruction too early, and each at most a sixtieth of a
second late. -/
theorem count_serveAll (cpuHz : UInt32) (ds : List ℕ) (h : ∀ ns ∈ ds, 60 * ns ≤ 10 ^ 9) :
    let ticks : List Tick := ((start cpuHz).serveAll ds).popped
    let T : ℚ := (ds.sum : ℕ) / 10 ^ 9
    ticks.count .timer = ⌊T * 60⌋₊ ∧
      (2 ≤ cpuHz.toNat → ticks.count .processor = ⌊T * cpuHz.toNat⌋₊) ∧
      (cpuHz.toNat ≤ 1 → ticks.count .processor ≤ ⌊T⌋₊ ∧
        T < 1 + ticks.count .processor * (1 + 1 / 60)) := by
  intro ticks T
  refine ⟨?_, fun htwo => ?_, fun hone => ?_⟩
  · have hrate : (start cpuHz).clock.rate .timer = 60 := rfl
    have hcount := count_serveAll_of_two_le cpuHz h (hrate.symm ▸ (by decide : 2 ≤ 60))
    rwa [hrate] at hcount
  · have hrate : (start cpuHz).clock.rate .processor = cpuHz.toNat :=
      Nat.max_eq_left (by omega : 1 ≤ cpuHz.toNat)
    have hcount := count_serveAll_of_two_le cpuHz h (hrate.symm ▸ htwo)
    rwa [hrate] at hcount
  · -- A tick is as long as a second here: what is left after draining is less than one.
    have hrate : ((start cpuHz).serveAll ds).clock.rate .processor = 1 :=
      (hz_serveAll ds _).trans (Nat.max_eq_right hone)
    obtain ⟨hpop, hle, hlost⟩ := accounted_serveAll cpuHz h .processor
    have hleft : (((start cpuHz).serveAll ds).clock.debt .processor : ℚ) /
        ((start cpuHz).serveAll ds).clock.second < 1 := by
      rw [div_lt_one (second_pos' _), second_eq _ .processor, hrate, Nat.one_mul]
      exact_mod_cast pop_eq_none_iff_debt.mp hpop .processor
    have hcount := count_le_floor_accounted ((start cpuHz).serveAll ds) .processor
    rw [hrate, Nat.cast_one, mul_one] at hcount
    rw [time_serveAll_start] at hle hlost
    refine ⟨hcount.trans (Nat.floor_le_floor hle), hlost.trans_lt ?_⟩
    unfold accounted
    rw [hrate, Nat.cast_one, div_one]
    show _ < 1 + (ticks.count .processor : ℚ) * (1 + 1 / 60)
    linarith

/-- At six hundred instructions a second, after three spans. -/
theorem count_serveAll_three :
    let ds := List.replicate 3 16666666
    let ticks := ((start 600).serveAll ds).popped
    (∀ ns ∈ ds, 60 * ns ≤ 10 ^ 9) ∧ ticks.count .timer = 2 ∧ ticks.count .processor = 29 := by
  intro ds ticks
  have h : ∀ ns ∈ ds, 60 * ns ≤ 10 ^ 9 := by decide
  obtain ⟨ht, hp, -⟩ := count_serveAll 600 ds h
  have hsum : ds.sum = 49999998 := by decide
  have hhz : (600 : UInt32).toNat = 600 := rfl
  rw [hsum] at ht hp
  rw [hhz] at hp
  refine ⟨h, ht.trans ?_, (hp (by decide)).trans ?_⟩
  · rw [Nat.floor_eq_iff (by norm_num)]
    norm_num
  · rw [Nat.floor_eq_iff (by norm_num)]
    norm_num

/-- At one instruction a second, two seconds pass in spans of at most a sixtieth, and a single
instruction is handed out. -/
theorem count_serveAll_one_lt_floor :
    let ds := List.replicate 121 16666666
    let T : ℚ := (ds.sum : ℕ) / 10 ^ 9
    (∀ ns ∈ ds, 60 * ns ≤ 10 ^ 9) ∧ ((start 1).serveAll ds).popped.count .processor = 1 ∧
      ⌊T⌋₊ = 2 := by
  have hcount : ((start 1).serveAll (List.replicate 121 16666666)).popped.count .processor = 1 := by
    decide +kernel
  have hsum : (List.replicate 121 16666666).sum = 2016666586 := by
    rw [List.sum_replicate]
    rfl
  refine ⟨fun ns hns => ?_, hcount, ?_⟩
  · obtain rfl := List.eq_of_mem_replicate hns
    norm_num
  · rw [hsum, Nat.floor_eq_iff (by norm_num)]
    norm_num

end ChipEight.Clock.History
