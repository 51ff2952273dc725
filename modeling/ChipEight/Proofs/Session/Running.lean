import ChipEight.Session.Call
import ChipEight.Proofs.Clock.Accrual

/-!
# What running does to a session

`step_of_ok` and `step_of_error` say all that one step of a running session does, and the equations
`catchUp_of_none` to `catchUp_of_processor_error` what happens to the next tick that is due. What
every tick preserves, catching up preserves (`catchUp_preserves`).

Catching up leaves nothing due (`pop_catchUp`), whether it succeeds or a fault ends the run. A
session is `Settled` if nothing is due while it runs. A program that fits is started on a fresh
machine (`start_of_le`), and one that does not changes nothing (`start_of_lt`). Reports of keys have
nothing to do with any of this (`call_key`). What every call preserves, a list of calls preserves
(`calls_preserves`).
-/

namespace ChipEight

/-- Reports a key. -/
def Call.isKey : Call → Bool
  | .keyDown _ | .keyUp _ | .releaseKeys => true
  | _ => false

namespace Session

variable {σ : Type} [Host σ] {s s' : Session σ} {m : Machine} {c : Clock} {e : Outcome} {f : Fault}

/-! ## One step -/

/-- Putting the instruction on record concerns the host alone. -/
theorem announce_eq (s : Session σ) : s.announce = { s with host := s.announce.host } := by
  unfold announce
  split <;> rfl

/-- After a step that succeeds the machine is the one after the instruction, once its picture is
shown. -/
theorem step_of_ok (hr : s.running = true) (hm : s.machine.step s.keypad = (m, .ok e)) :
    s.step = ({ s with host := s.announce.host, machine := m }.refresh, .ok e) := by
  unfold step
  rw [if_pos hr, announce_eq s]
  simp only [hm]

/-- A step that fails ends the run, remembers the fault and forgets the time owed. -/
theorem step_of_error (hr : s.running = true) (hm : s.machine.step s.keypad = (m, .error f)) :
    s.step = ({ s with
      host := Host.note (.halted m.pc f) s.announce.host
      machine := m
      running := false
      clock := s.clock.reset
      fault := some f }, .error f) := by
  unfold step
  rw [if_pos hr, announce_eq s]
  simp only [hm]
  rfl

theorem step_of_not_running (hr : s.running = false) :
    s.step = (s, match s.fault with | some f => .error f | none => .ok .plain) := by
  unfold step
  rw [if_neg (by rw [hr]; exact Bool.false_ne_true)]
  rcases s.fault with _ | f
  · rfl
  · rfl

/-- Showing the picture concerns the host and the mark that there is something to show. -/
theorem refresh_eq (s : Session σ) :
    s.refresh = { s with
      host := s.refresh.host
      machine := { s.machine with dirty := false } } := by
  unfold refresh
  split
  · rfl
  · rename_i h
    rw [← Bool.eq_false_iff.mpr h]

/-! ## One tick -/

theorem catchUp_of_none (h : s.clock.pop = none) : s.catchUp = (s, .ok ()) := by
  rw [catchUp]
  split <;> simp_all

theorem catchUp_of_timer (h : s.clock.pop = some (.timer, c)) :
    s.catchUp = { s with clock := c }.countDown.catchUp := by
  rw [catchUp]
  split <;> simp_all

theorem catchUp_of_processor_ok (h : s.clock.pop = some (.processor, c))
    (hs : { s with clock := c }.step = (s', .ok e)) : s.catchUp = s'.catchUp := by
  rw [catchUp]
  split <;> rename_i hp <;> rw [h] at hp <;> cases hp
  split <;> rename_i hs' <;> rw [hs] at hs' <;> cases hs'
  rfl

theorem catchUp_of_processor_error (h : s.clock.pop = some (.processor, c))
    (hs : { s with clock := c }.step = (s', .error f)) : s.catchUp = (s', .error f) := by
  rw [catchUp]
  split <;> rename_i hp <;> rw [h] at hp <;> cases hp
  split <;> rename_i hs' <;> rw [hs] at hs' <;> cases hs'
  rfl

/-- What every tick preserves, catching up preserves. -/
theorem catchUp_preserves {P : Session σ → Prop}
    (timer : ∀ s c, P s → s.clock.pop = some (.timer, c) → P { s with clock := c }.countDown)
    (processor : ∀ s c, P s → s.clock.pop = some (.processor, c) → P { s with clock := c }.step.1) :
    ∀ s, P s → P s.catchUp.1 := by
  intro s
  induction s using catchUp.induct with
  | case1 s h => intro hs; rwa [catchUp_of_none h]
  | case2 s c h ih => intro hs; rw [catchUp_of_timer h]; exact ih (timer s c hs h)
  | case3 s c h s' e hstep ih =>
    intro hs
    have := processor s c hs h
    rw [hstep] at this
    rw [catchUp_of_processor_ok h hstep]
    exact ih this
  | case4 s c h s' f hstep =>
    intro hs
    have := processor s c hs h
    rw [hstep] at this
    rw [catchUp_of_processor_error h hstep]
    exact this

theorem advance_of_running (hr : s.running = true) (ns : ℕ) :
    s.advance ns = ({ s with clock := s.clock.elapse ns } : Session σ).catchUp := if_pos hr

theorem advance_of_not_running (hr : s.running = false) (ns : ℕ) : s.advance ns = (s, .ok ()) :=
  if_neg (ne_true_of_eq_false hr)

theorem cycle_of_running (hr : s.running = true) :
    s.cycle = ({ s with clock := s.clock.elapsePeriod } : Session σ).catchUp := if_pos hr

theorem cycle_of_not_running (hr : s.running = false) : s.cycle = (s, .ok ()) :=
  if_neg (ne_true_of_eq_false hr)

/-! ## Running and stopping -/

theorem running_of_step_ok (hr : s.running = true) (h : s.step = (s', .ok e)) :
    s'.running = true := by
  rcases hm : s.machine.step s.keypad with ⟨m, f | e'⟩
  · rw [step_of_error hr hm] at h
    cases h
  · rw [step_of_ok hr hm, refresh_eq] at h
    cases h
    exact hr

/-- After a failed step of a running session nothing is owed. -/
theorem of_step_error (hr : s.running = true) (h : s.step = (s', .error f)) :
    s'.running = false ∧ s'.clock = s.clock.reset ∧ s'.fault = some f := by
  rcases hm : s.machine.step s.keypad with ⟨m, f' | e⟩
  · rw [step_of_error hr hm] at h
    cases h
    exact ⟨rfl, rfl, rfl⟩
  · rw [step_of_ok hr hm] at h
    cases h

/-- Catching up succeeds with nothing due any more, or ends the run with nothing owed. -/
theorem catchUp_cases : ∀ s : Session σ, s.running = true →
    (∃ s', s.catchUp = (s', .ok ()) ∧ s'.running = true ∧ s'.clock.pop = none) ∨
      ∃ s' f, s.catchUp = (s', .error f) ∧ s'.running = false ∧ s'.fault = some f ∧
        s'.clock = s'.clock.reset := by
  intro s
  induction s using catchUp.induct with
  | case1 s h => exact fun hr => Or.inl ⟨s, catchUp_of_none h, hr, h⟩
  | case2 s c h ih => intro hr; rw [catchUp_of_timer h]; exact ih hr
  | case3 s c h s' e hstep ih =>
    intro hr
    have hr' : ({ s with clock := c } : Session σ).running = true := hr
    rw [catchUp_of_processor_ok h hstep]
    exact ih (running_of_step_ok hr' hstep)
  | case4 s c h s' f hstep =>
    intro hr
    have hr' : ({ s with clock := c } : Session σ).running = true := hr
    obtain ⟨hrun, hclock, hfault⟩ := of_step_error hr' hstep
    exact Or.inr ⟨s', f, catchUp_of_processor_error h hstep, hrun, hfault, by rw [hclock]; rfl⟩

/-! ## The speed of the processor stays -/

theorem cpuHz_step (s : Session σ) : s.step.1.clock.cpuHz = s.clock.cpuHz := by
  rcases hr : s.running with _ | _
  · rw [step_of_not_running hr]
  · rcases hm : s.machine.step s.keypad with ⟨m, f | e⟩
    · rw [step_of_error hr hm]
      rfl
    · rw [step_of_ok hr hm, refresh_eq]

theorem cpuHz_catchUp (s : Session σ) : s.catchUp.1.clock.cpuHz = s.clock.cpuHz := by
  refine catchUp_preserves (P := fun t => t.clock.cpuHz = s.clock.cpuHz) ?_ ?_ s rfl
  · intro t c ht hpop
    exact (Clock.cpuHz_of_pop hpop).trans ht
  · intro t c ht hpop
    exact (cpuHz_step _).trans ((Clock.cpuHz_of_pop hpop).trans ht)

theorem hz_catchUp (s : Session σ) : s.catchUp.1.clock.hz = s.clock.hz :=
  Clock.hz_of_cpuHz_eq s.cpuHz_catchUp

/-! ## Settled sessions -/

theorem pop_catchUp (hr : s.running = true) : s.catchUp.1.clock.pop = none := by
  rcases catchUp_cases s hr with ⟨s', h, -, hpop⟩ | ⟨s', f, h, -, -, hclock⟩
  · rw [h]
    exact hpop
  · rw [h]
    show s'.clock.pop = none
    rw [hclock]
    exact Clock.pop_reset _

/-- Nothing is due while the session runs. -/
def Settled (s : Session σ) : Prop := s.running = true → s.clock.pop = none

theorem settled_catchUp (hr : s.running = true) : Settled s.catchUp.1 := fun _ => pop_catchUp hr

/-! ## Starting -/

theorem start_of_le {program : List UInt8} (h : program.length ≤ Machine.maxProgram)
    (s : Session σ) (drawn : ChaCha.Key) :
    ∃ m, Machine.load program s.settings drawn = .ok m ∧
      s.start program drawn = (
        { settings := s.settings
          host := Host.note (.started program.length s.settings.cpuHz)
            (Host.note (.loaded program.length) s.host)
          machine := m
          keypad := {}
          clock := { cpuHz := s.clock.cpuHz }
          running := true
          fault := none }, .ok ()) := by
  obtain ⟨m, hload⟩ : ∃ m, Machine.load program s.settings drawn = .ok m := ⟨_, if_pos h⟩
  refine ⟨m, hload, ?_⟩
  unfold start
  rw [hload]
  rfl

theorem start_of_lt {program : List UInt8} (h : Machine.maxProgram < program.length)
    (s : Session σ) (drawn : ChaCha.Key) :
    s.start program drawn =
      (s.note (.startRefused (.programTooLarge program.length Machine.maxProgram)),
        .error (.programTooLarge program.length Machine.maxProgram)) := by
  have hload : Machine.load program s.settings drawn =
      .error (.programTooLarge program.length Machine.maxProgram) := if_neg (Nat.not_le.mpr h)
  unfold start
  rw [hload]

/-! ## Calls -/

theorem calls_cons (s : Session σ) (c : Call) (cs : List Call) :
    s.calls (c :: cs) =
      (((s.call c).1.calls cs).1, (s.call c).2 :: ((s.call c).1.calls cs).2) := rfl

/-- What every call preserves, a list of calls preserves. -/
theorem calls_preserves {P : Session σ → Prop} (hP : ∀ s c, P s → P (s.call c).1) :
    ∀ (cs : List Call) (s : Session σ), P s → P (s.calls cs).1 := by
  intro cs
  induction cs with
  | nil => exact fun s hs => hs
  | cons c cs ih => exact fun s hs => ih (s.call c).1 (hP s c hs)

/-- A report of a key has nothing to do with time. -/
theorem call_key {k : Call} (hk : k.isKey = true) (s : Session σ) :
    (s.call k).1.running = s.running ∧ (s.call k).1.clock = s.clock := by
  cases k with
  | keyDown code =>
    show (s.keyDown code).1.running = _ ∧ (s.keyDown code).1.clock = _
    unfold keyDown
    dsimp only
    split <;> exact ⟨rfl, rfl⟩
  | keyUp code =>
    show (s.keyUp code).1.running = _ ∧ (s.keyUp code).1.clock = _
    unfold keyUp
    dsimp only
    split <;> exact ⟨rfl, rfl⟩
  | releaseKeys => exact ⟨rfl, rfl⟩
  | start | stop | step | cycle | advance => cases hk

end Session

end ChipEight
