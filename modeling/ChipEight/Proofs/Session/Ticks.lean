import ChipEight.Proofs.Clock.Meter
import ChipEight.Proofs.Session.Chopping

/-!
# Letting time pass, tick by tick

What is due is settled before anything is executed: catching up drains the clock and carries the
ticks out in order, up to a fault (`catchUp_eq_carryOut`). So letting time pass is a recursion on a
finite list (`advance_eq_carryOut`), however much time passes.

Ticks are carried out to the end, or one of the instructions is the first that fails (`FailsAt`).

`work_bounded` gathers what bounds that list: no debt exceeds a second, no number of the clock gets
too long, and the clock is never ahead of the time that passed.
-/

namespace ChipEight.Session

variable {σ : Type} [Host σ] {s s' : Session σ} {e : Outcome} {f : Fault}

/-- Carries ticks out in order, up to a fault. -/
def carryOut (s : Session σ) : List Tick → Session σ × Except Fault Unit
  | [] => (s, .ok ())
  | .timer :: ticks => s.countDown.carryOut ticks
  | .processor :: ticks =>
    match s.step with
    | (s, .ok _) => s.carryOut ticks
    | (s, .error f) => (s, .error f)

theorem carryOut_processor_of_ok (h : s.step = (s', .ok e)) (ticks : List Tick) :
    s.carryOut (.processor :: ticks) = s'.carryOut ticks := by
  rw [carryOut, h]

theorem carryOut_processor_of_error (h : s.step = (s', .error f)) (ticks : List Tick) :
    s.carryOut (.processor :: ticks) = (s', .error f) := by
  rw [carryOut, h]

/-- A step that fails forgets whatever time is owed, so it does not matter how much it was. -/
theorem step_of_reset_eq (hr : s.running = true) (h : s.step = (s', .error f)) {c : Clock}
    (hc : c.reset = s.clock.reset) : ({ s with clock := c } : Session σ).step = (s', .error f) := by
  rcases hm : s.machine.step s.keypad with ⟨m, f' | e⟩
  · rw [step_of_error hr hm] at h
    cases h
    have hr' : ({ s with clock := c } : Session σ).running = true := hr
    rw [step_of_error hr' hm, host_announce_with_clock, hc]
  · rw [step_of_ok hr hm] at h
    cases h

/-- Catching up carries out what the drained clock hands out. -/
theorem catchUp_eq_carryOut : ∀ s : Session σ, s.running = true →
    s.catchUp = ({ s with clock := s.clock.drain.2 } : Session σ).carryOut s.clock.drain.1 := by
  intro s
  -- The cases are those of `catchUp`: nothing is due, a timer tick is, a step succeeds or fails.
  induction s using catchUp.induct with
  | case1 s h =>
    intro _
    rw [catchUp_of_none h, Clock.drain_of_none h]
    rfl
  | case2 s c h ih =>
    intro hr
    rw [catchUp_of_timer h, Clock.drain_of_some h]
    exact ih hr
  | case3 s c h s' e hstep ih =>
    intro hr
    have hclock : s'.clock = c := clock_of_step_ok hstep
    have hr' : ({ s with clock := c } : Session σ).running = true := hr
    rw [catchUp_of_processor_ok h hstep, Clock.drain_of_some h, ih (running_of_step_ok hr' hstep),
      hclock, carryOut_processor_of_ok (step_with_clock_of_ok hr' hstep c.drain.2)]
  | case4 s c h s' f hstep =>
    intro hr
    have hr' : ({ s with clock := c } : Session σ).running = true := hr
    rw [catchUp_of_processor_error h hstep, Clock.drain_of_some h,
      carryOut_processor_of_error (step_of_reset_eq hr' hstep c.reset_drain)]

theorem advance_eq_carryOut (hr : s.running = true) (ns : ℕ) :
    s.advance ns = ({ s with clock := (s.clock.elapse ns).drain.2 } : Session σ).carryOut
      (s.clock.elapse ns).drain.1 := by
  unfold advance
  rw [if_pos hr]
  exact catchUp_eq_carryOut { s with clock := s.clock.elapse ns } hr

/-! ## Where carrying out ends -/

section

variable {t : Session σ} {ticks : List Tick} {k : ℕ}

/-- Of these ticks the `k`-th instruction is the first that fails, and it leaves `t`. -/
def FailsAt (s : Session σ) (ticks : List Tick) (k : ℕ) (t : Session σ) (f : Fault) : Prop :=
  ∃ done later s', ticks = done ++ .processor :: later ∧ done.count .processor + 1 = k ∧
    s.carryOut done = (s', .ok ()) ∧ s'.step = (t, .error f)

theorem carryOut_append_of_ok (h : s.carryOut ticks = (s', .ok ())) (later : List Tick) :
    s.carryOut (ticks ++ later) = s'.carryOut later := by
  -- The cases are those of `carryOut`: no tick, a timer tick, a step succeeds or fails.
  induction s, ticks using carryOut.induct with
  | case1 s =>
    cases h
    rfl
  | case2 s ticks ih => exact ih h
  | case3 s ticks s₁ e hstep ih =>
    rw [carryOut_processor_of_ok hstep] at h
    rw [List.cons_append, carryOut_processor_of_ok hstep]
    exact ih h
  | case4 s ticks s₁ f hstep =>
    rw [carryOut_processor_of_error hstep] at h
    cases h

/-- Carrying out takes no time of its own, and until it fails it does not matter how much is
owed. -/
theorem carryOut_with_clock_of_ok (hr : s.running = true) (h : s.carryOut ticks = (s', .ok ())) :
    s'.running = true ∧ s'.clock = s.clock ∧ ∀ c : Clock,
      ({ s with clock := c } : Session σ).carryOut ticks = ({ s' with clock := c }, .ok ()) := by
  induction s, ticks using carryOut.induct with
  | case1 s =>
    cases h
    exact ⟨hr, rfl, fun _ => rfl⟩
  | case2 s ticks ih => exact ih hr h
  | case3 s ticks s₁ e hstep ih =>
    rw [carryOut_processor_of_ok hstep] at h
    obtain ⟨hrun, hclock, hwith⟩ := ih (running_of_step_ok hr hstep) h
    refine ⟨hrun, hclock.trans (clock_of_step_ok hstep), fun c => ?_⟩
    rw [carryOut_processor_of_ok (step_with_clock_of_ok hr hstep c)]
    exact hwith c
  | case4 s ticks s₁ f hstep =>
    rw [carryOut_processor_of_error hstep] at h
    cases h

/-- Ticks that are not carried out to the end come to an instruction that fails. -/
theorem exists_failsAt (h : s.carryOut ticks = (t, .error f)) : ∃ k, s.FailsAt ticks k t f := by
  induction s, ticks using carryOut.induct with
  | case1 s => cases h
  | case2 s ticks ih =>
    obtain ⟨k, done, later, s', rfl, hk, hdone, hlast⟩ := ih h
    exact ⟨k, .timer :: done, later, s', rfl, hk, hdone, hlast⟩
  | case3 s ticks s₁ e hstep ih =>
    rw [carryOut_processor_of_ok hstep] at h
    obtain ⟨k, done, later, s', rfl, rfl, hdone, hlast⟩ := ih h
    refine ⟨_, .processor :: done, later, s', rfl, rfl, ?_, hlast⟩
    rw [carryOut_processor_of_ok hstep]
    exact hdone
  | case4 s ticks s₁ f hstep =>
    rw [carryOut_processor_of_error hstep] at h
    cases h
    exact ⟨1, [], ticks, s, rfl, rfl, rfl, hstep⟩

namespace FailsAt

theorem carryOut_eq (h : s.FailsAt ticks k t f) : s.carryOut ticks = (t, .error f) := by
  obtain ⟨done, later, s', rfl, -, hdone, hlast⟩ := h
  rw [carryOut_append_of_ok hdone, carryOut_processor_of_error hlast]

/-- The instruction that fails is one of the list. -/
theorem le_count (h : s.FailsAt ticks k t f) : 0 < k ∧ k ≤ ticks.count .processor := by
  obtain ⟨done, later, s', rfl, rfl, -, -⟩ := h
  rw [List.count_append, List.count_cons_self]
  omega

/-- The instruction that fails has fallen due. -/
theorem due {hz : ℕ} {T : ℚ} (h : s.FailsAt ((timetable hz T).map Appointment.tick) k t f)
    (hz_pos : 0 < hz) : (k / hz : ℚ) ≤ T := by
  obtain ⟨hpos, hle⟩ := h.le_count
  rw [(count_timetable hz T).1] at hle
  exact (div_le_iff_le_floor hz_pos hpos).mpr hle

theorem append (h : s.FailsAt ticks k t f) (more : List Tick) :
    s.FailsAt (ticks ++ more) k t f := by
  obtain ⟨done, later, s', rfl, hk, hdone, hlast⟩ := h
  exact ⟨done, later ++ more, s', by rw [List.append_assoc]; rfl, hk, hdone, hlast⟩

/-- What was carried out before counts as well. -/
theorem after {before : List Tick} (h : s'.FailsAt ticks k t f)
    (hbefore : s.carryOut before = (s', .ok ())) :
    s.FailsAt (before ++ ticks) (before.count .processor + k) t f := by
  obtain ⟨done, later, s₁, rfl, rfl, hdone, hlast⟩ := h
  refine ⟨before ++ done, later, s₁, (List.append_assoc _ _ _).symm, ?_, ?_, hlast⟩
  · rw [List.count_append, Nat.add_assoc]
  · rw [carryOut_append_of_ok hbefore, hdone]

theorem with_clock (h : s.FailsAt ticks k t f) (hr : s.running = true) {c : Clock}
    (hc : c.reset = s.clock.reset) : ({ s with clock := c } : Session σ).FailsAt ticks k t f := by
  obtain ⟨done, later, s', hticks, hk, hdone, hlast⟩ := h
  obtain ⟨hrun, hclock, hwith⟩ := carryOut_with_clock_of_ok hr hdone
  rw [← hclock] at hc
  exact ⟨done, later, _, hticks, hk, hwith c, step_of_reset_eq hrun hlast hc⟩

end FailsAt

end

/-! ## Bounds -/

/-- **Work is bounded and the clock never runs ahead.** Whatever happened to a clock: neither debt
is above a second; in 128 bits nothing overflowed; no more ticks were handed out since the last
reset than fall due in the time since then; no more are to be had than fall due in a second, and
asking for that many drains the clock; and a second or more leaves the timetable of one second to
hand out, with nothing owed after it. A running session that lets time pass carries out no more than
that. -/
theorem work_bounded (cpuHz : UInt32) (es : List Clock.Event)
    (h : ∀ ns, .elapse ns ∈ es → ns < 2 ^ 64 * 10 ^ 9) :
    let hz := max cpuHz.toNat 1
    let r := (Clock.History.start cpuHz).follow es
    (∀ t, r.clock.debt t ≤ r.clock.second) ∧
      Meter.run cpuHz es = some (Meter.ofClock r.clock, r.popped) ∧
      r.popped.count .processor ≤ ⌊r.time * hz⌋₊ ∧ r.popped.count .timer ≤ ⌊r.time * 60⌋₊ ∧
      r.clock.drain.1.count .processor ≤ hz ∧ r.clock.drain.1.count .timer ≤ 60 ∧
      r.follow (List.replicate (hz + 60) .pop) = r.drain ∧ r.drain.clock.pop = none ∧
      (∀ ns, 10 ^ 9 ≤ ns →
        (r.clock.elapse ns).drain = ((timetable hz 1).map Appointment.tick, r.clock.reset) ∧
          (r.clock.elapse ns).drain.1.count .processor = hz ∧
          (r.clock.elapse ns).drain.1.count .timer = 60) ∧
      ∀ (s : Session σ) (ns : ℕ), s.running = true →
        let due := (s.clock.elapse ns).drain
        s.advance ns = ({ s with clock := due.2 } : Session σ).carryOut due.1 ∧
          due.1.count .processor ≤ s.clock.hz ∧ due.1.count .timer ≤ 60 := by
  intro hz r
  have hhz : r.clock.hz = hz := Clock.History.hz_follow es _
  have hdebt : ∀ t, r.clock.debt t ≤ r.clock.second := fun t =>
    Clock.History.debt_follow_le es (by cases t <;> exact Nat.zero_le _)
  have hcount := fun t => Clock.History.count_follow_le cpuHz es t
  have hdrain := fun t => Clock.count_drain_le (hdebt t)
  -- So many questions are enough, for each that is answered is a tick of one kind.
  have hlength : r.clock.drain.1.length ≤ hz + 60 := by
    rw [Clock.length_eq_count, ← hhz]
    exact Nat.add_le_add (hdrain .processor) (hdrain .timer)
  have hfull : ∀ ns, 10 ^ 9 ≤ ns → ∀ t,
      (r.clock.elapse ns).drain.1.count t = r.clock.rate t := fun ns hns t => by
    have hhz' := Clock.hz_elapse r.clock ns
    rw [Clock.count_drain, Clock.debt_elapse_of_le hns, Clock.period_of_hz_eq hhz',
      r.clock.second_eq t, Nat.mul_div_cancel _ (r.clock.period_pos t)]
  refine ⟨hdebt, Meter.run_eq cpuHz h, ?_, hcount .timer, ?_, hdrain .timer,
    Clock.History.follow_replicate_pop _ r hlength, r.clock.pop_drain, fun ns hns => ⟨?_, ?_, ?_⟩,
    fun s ns hr => ⟨advance_eq_carryOut hr ns, Clock.count_drain_elapse_le s.clock ns .processor,
      Clock.count_drain_elapse_le s.clock ns .timer⟩⟩
  · rw [← hhz]
    exact hcount .processor
  · rw [← hhz]
    exact hdrain .processor
  · rw [← hhz]
    exact Clock.drain_elapse_of_le hns
  · rw [hfull ns hns, ← hhz]
    rfl
  · exact hfull ns hns .timer

/-- At the highest speed, with the longest span of time before and after a tick. -/
theorem work_bounded_longest :
    let es : List Clock.Event :=
      [.elapse (2 ^ 64 * 10 ^ 9 - 1), .pop, .elapsePeriod, .elapse (2 ^ 64 * 10 ^ 9 - 1)]
    let r := (Clock.History.start 4294967295).follow es
    (∀ ns, .elapse ns ∈ es → ns < 2 ^ 64 * 10 ^ 9) ∧
      (∀ t, r.clock.debt t ≤ r.clock.second) ∧
      Meter.run 4294967295 es = some (Meter.ofClock r.clock, r.popped) := by
  intro es r
  have h : ∀ ns, .elapse ns ∈ es → ns < 2 ^ 64 * 10 ^ 9 := by
    intro ns hns
    simp only [es, List.mem_cons, Clock.Event.elapse.injEq, reduceCtorEq, List.not_mem_nil,
      or_false, false_or, or_self] at hns
    omega
  obtain ⟨hdebt, hrun, -⟩ := @work_bounded Transcript _ 4294967295 es h
  exact ⟨h, hdebt, hrun⟩

end ChipEight.Session
