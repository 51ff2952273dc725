import ChipEight.Proofs.Clock.Punctual
import ChipEight.Proofs.Session.Chopping
import ChipEight.Proofs.Session.Halting
import ChipEight.Proofs.Session.Restarting

/-!
# Keeping to the timetable

The turns of catching up are the ticks that the drained clock hands out, as far as no instruction
fails (`ticks_catchUpTurns`). So a session that is up to date stays so when it lets time pass for
which there is room: its turns go on with the timetable (`Punctual.call`, `Punctual.calls`), or a
fault ends the run.

A cycle lets the time from one instruction to the next pass. `cycle_paces` says what follows: one
instruction for each cycle, whatever came before, and the counts of the timers in between at their
places.
-/

namespace ChipEight

namespace Call

/-- Lets time pass or reports a key. -/
def isTimed : Call → Bool
  | .cycle => true
  | c => c.isReport

/-- The seconds that a call lets pass. -/
def span (hz : ℕ) : Call → ℚ
  | .advance ns => ns / 10 ^ 9
  | .cycle => 1 / hz
  | _ => 0

theorem isTimed_cases {c : Call} (h : c.isTimed = true) :
    c = .cycle ∨ (∃ ns, c = .advance ns) ∨ c.isKey = true := by
  cases c with
  | cycle => exact Or.inl rfl
  | advance ns => exact Or.inr (Or.inl ⟨ns, rfl⟩)
  | keyDown | keyUp | releaseKeys => exact Or.inr (Or.inr rfl)
  | start | stop | step => cases h

theorem span_of_isKey {c : Call} (h : c.isKey = true) (hz : ℕ) : c.span hz = 0 := by
  cases c <;> first | rfl | cases h

end Call

/-- The seconds that a list of calls lets pass. -/
def totalSpan (hz : ℕ) (cs : List Call) : ℚ := (cs.map (Call.span hz)).sum

/-- There is room for every call at its moment; the first of them comes at `T`. -/
def Roomy (hz : ℕ) (T : ℚ) : List Call → Prop
  | [] => True
  | c :: cs => Room hz T (c.span hz) ∧ Roomy hz (T + c.span hz) cs

theorem totalSpan_cons (hz : ℕ) (c : Call) (cs : List Call) :
    totalSpan hz (c :: cs) = c.span hz + totalSpan hz cs := List.sum_cons

namespace Clock

variable {c : Clock}

/-- A cycle leaves one period owed, and less than two. At one instruction a second the debt would go
above a second and is cut down to it, which is the period. -/
theorem debt_elapsePeriod (h : c.debt .processor < c.period .processor) :
    c.period .processor ≤ c.elapsePeriod.debt .processor ∧
      c.elapsePeriod.debt .processor < 2 * c.period .processor := by
  have hsecond := c.second_eq .processor
  have hrate := c.rate_pos .processor
  have hle := c.debt_owe_le (c.period .processor) .processor
  have hfit := @debt_owe_of_le c .processor (c.period .processor)
  have hfull := @debt_owe_of_second_le c .processor (c.period .processor)
  have hunfold : c.elapsePeriod = c.owe (c.period .processor) := rfl
  rw [hunfold]
  -- The period is a variable, because it is a large number that is not to be looked into.
  generalize c.period .processor = p at *
  rcases le_total (c.debt .processor + p) c.second with hcap | hcap
  · rw [hfit hcap]
    omega
  · rw [hfull hcap] at hle ⊢
    have := Nat.le_mul_of_pos_left p hrate
    omega

/-- Exactly one instruction falls due in a cycle. -/
theorem count_drain_elapsePeriod (h : c.pop = none) :
    c.elapsePeriod.drain.1.count .processor = 1 := by
  obtain ⟨hlower, hupper⟩ := debt_elapsePeriod (pop_eq_none_iff_debt.mp h .processor)
  have hhz : c.elapsePeriod.hz = c.hz := hz_owe _ _
  rw [count_drain, period_of_hz_eq hhz]
  apply Nat.div_eq_of_lt_le
  · rw [Nat.one_mul]
    exact hlower
  · exact hupper

/-- If a period is a whole number of nanoseconds, a cycle is as long. -/
theorem elapse_of_dvd (h : c.hz ∣ 10 ^ 9) : c.elapse (10 ^ 9 / c.hz) = c.elapsePeriod := by
  have hunits : 10 ^ 9 / c.hz * c.nanosecond = c.processorPeriod := by
    unfold nanosecond processorPeriod
    rw [← Nat.mul_assoc, Nat.div_mul_cancel h]
    norm_num
  have hle : c.processorPeriod ≤ ceiling := by
    refine le_trans ?_ c.second_le_ceiling
    rw [c.second_eq_processor]
    exact Nat.le_mul_of_pos_left _ c.hz_pos
  unfold elapse elapsePeriod
  rw [hunits, Nat.min_eq_left hle]

end Clock

namespace Session

variable {σ : Type} [Host σ] {s : Session σ} {hz : ℕ} {T : ℚ} {c : Call} {cs : List Call}

/-! ## The ticks of turns -/

/-- The turns of catching up are the ticks that are due, up to the first instruction that fails. -/
theorem ticks_catchUpTurns (s : Session σ) :
    (s.catchUp.2 = .ok () ∧ s.catchUpTurns.map Turn.tick = s.clock.drain.1 ∧
        s.catchUp.1.clock = s.clock.drain.2) ∨
      ∃ before after f, s.clock.drain.1 = before ++ .processor :: after ∧
        s.catchUpTurns.map Turn.tick = before ++ [.processor] ∧ s.catchUp.2 = .error f := by
  -- The cases are those of `catchUpTurns`: nothing is due, a turn succeeds, a turn fails.
  induction s using catchUpTurns.induct with
  | case1 s h =>
    rw [catchUpTurns_of_none h, catchUp_of_none h, Clock.drain_of_none h]
    exact Or.inl ⟨rfl, rfl, rfl⟩
  | case2 s tick c h turn e ha ih =>
    have hclock : turn.after.clock = c := Turn.clock_after ha
    rw [catchUpTurns_of_ok h ha, catchUp_of_turn_ok h ha, Clock.drain_of_some h, List.map_cons]
    rw [hclock] at ih
    rcases ih with ⟨hok, hticks, hafter⟩ | ⟨before, after, f, hdue, hticks, hfail⟩
    · exact Or.inl ⟨hok, congrArg (tick :: ·) hticks, hafter⟩
    · exact Or.inr ⟨tick :: before, after, f, congrArg (tick :: ·) hdue,
        congrArg (tick :: ·) hticks, hfail⟩
  | case3 s tick c h turn f ha =>
    rw [catchUpTurns_of_error h ha, catchUp_of_turn_error h ha, Clock.drain_of_some h]
    cases tick with
    | processor => exact Or.inr ⟨[], c.drain.1, f, rfl, rfl, rfl⟩
    | timer => cases ha

theorem callTurns_cycle (hr : s.running = true) :
    s.callTurns .cycle = ({ s with clock := s.clock.elapsePeriod } : Session σ).catchUpTurns :=
  if_pos hr

theorem callTurns_advance (hr : s.running = true) (ns : ℕ) :
    s.callTurns (.advance ns) = ({ s with clock := s.clock.elapse ns } : Session σ).catchUpTurns :=
  if_pos hr

theorem callTurns_of_isKey (hc : c.isKey = true) (s : Session σ) : s.callTurns c = [] := by
  unfold callTurns
  split_ifs
  · cases c <;> first | rfl | cases hc
  · rfl

/-- Whatever was owed before, a cycle of a running session attempts one instruction. -/
theorem count_callTurns_cycle (hr : s.running = true) (hpop : s.clock.pop = none) :
    ((s.callTurns .cycle).map Turn.tick).count .processor = 1 := by
  have hone := Clock.count_drain_elapsePeriod hpop
  rw [callTurns_cycle hr]
  rcases ticks_catchUpTurns ({ s with clock := s.clock.elapsePeriod } : Session σ) with
    ⟨-, hticks, -⟩ | ⟨before, after, f, hdue, hticks, -⟩
  · rw [hticks]
    exact hone
  · have hdue' : s.clock.elapsePeriod.drain.1 = before ++ .processor :: after := hdue
    rw [hdue', List.count_append, List.count_cons_self] at hone
    rw [hticks, List.count_append, List.count_singleton_self]
    omega

theorem cycle_eq_advance (h : s.clock.hz ∣ 10 ^ 9) : s.cycle = s.advance (10 ^ 9 / s.clock.hz) := by
  unfold cycle advance
  rw [Clock.elapse_of_dvd h]

/-! ## Sessions that are up to date -/

/-- The session runs, and everything due by `T` was carried out. -/
structure Punctual (hz : ℕ) (T : ℚ) (s : Session σ) : Prop where
  running : s.running = true
  hz_eq : s.clock.hz = hz
  clock : s.clock.Punctual T

theorem punctual_start {program : List UInt8} (fits : program.length ≤ Machine.maxProgram)
    (s : Session σ) (drawn : ChaCha.Key) :
    (s.start program drawn).1.Punctual s.clock.hz 0 := by
  obtain ⟨m, -, hstart⟩ := start_of_le fits s drawn
  rw [hstart]
  exact ⟨rfl, rfl, Clock.punctual_reset s.clock⟩

omit [Host σ] in
theorem Punctual.bears_advance (h : s.Punctual hz T) {ns : ℕ} (hroom : Room hz T (ns / 10 ^ 9)) :
    s.clock.Bears (ns * s.clock.nanosecond) := by
  apply h.clock.bears
  rw [h.hz_eq, Clock.nanosecond_div_second]
  exact hroom

omit [Host σ] in
theorem Punctual.bears_cycle (h : s.Punctual hz T) (hroom : Room hz T (1 / hz)) :
    s.clock.Bears s.clock.processorPeriod := by
  apply h.clock.bears
  rw [Clock.processorPeriod_div_second, h.hz_eq]
  exact hroom

/-- Time that is owed in full is lived through by the timetable, or a fault ends the run. -/
theorem Punctual.catchUp (h : s.Punctual hz T) {u : ℕ} {T' : ℚ} (hT' : T' = T + u / s.clock.second)
    {t : Session σ} (ht : t = { s with clock := s.clock.accrue u }) :
    (t.catchUp.1.Punctual hz T' ∧ (timetable hz T').map Appointment.tick =
        (timetable hz T).map Appointment.tick ++ t.catchUpTurns.map Turn.tick) ∨
      t.catchUp.1.running = false ∧ ∃ f, t.catchUp.1.fault = some f := by
  obtain ⟨hdue, hpunctual⟩ := h.clock.drain_accrue u
  have hrunning : t.running = true := by rw [ht]; exact h.running
  have hclock : t.clock = s.clock.accrue u := by rw [ht]
  have hhz : t.catchUp.1.clock.hz = hz := by rw [hz_catchUp, hclock]; exact h.hz_eq
  rw [h.hz_eq, ← hT', ← hclock] at hdue
  rw [← hT', ← hclock] at hpunctual
  rcases catchUp_cases t hrunning with ⟨s', hcatch, hrun, -⟩ | ⟨s', f, hcatch, hrun, hfault, -⟩
  · rcases ticks_catchUpTurns t with ⟨-, hticks, hafter⟩ | ⟨_, _, f, -, -, hfail⟩
    · refine Or.inl ⟨⟨?_, hhz, ?_⟩, ?_⟩
      · rw [hcatch]
        exact hrun
      · rw [hafter]
        exact hpunctual
      · rw [hticks]
        exact hdue
    · rw [hcatch] at hfail
      cases hfail
  · rw [hcatch]
    exact Or.inr ⟨hrun, f, hfault⟩

/-- A call for which there is room is lived through by the timetable, or a fault ends the run. -/
theorem Punctual.call (h : s.Punctual hz T) (hc : c.isTimed = true)
    (hroom : Room hz T (c.span hz)) :
    ((s.call c).1.Punctual hz (T + c.span hz) ∧
        (timetable hz (T + c.span hz)).map Appointment.tick =
          (timetable hz T).map Appointment.tick ++ (s.callTurns c).map Turn.tick) ∨
      (s.call c).1.running = false ∧ ∃ f, (s.call c).1.fault = some f := by
  rcases Call.isTimed_cases hc with rfl | ⟨ns, rfl⟩ | hkey
  · have hclock := Clock.elapsePeriod_eq_accrue (h.bears_cycle hroom)
    have hT : T + Call.span hz .cycle = T + s.clock.processorPeriod / s.clock.second := by
      rw [Clock.processorPeriod_div_second, h.hz_eq]
      rfl
    have hcall : (s.call .cycle).1 = s.cycle.1 := rfl
    rw [hcall, cycle_of_running h.running, callTurns_cycle h.running]
    exact h.catchUp hT (by rw [hclock])
  · have hclock := Clock.elapse_eq_accrue (h.bears_advance hroom)
    have hT : T + Call.span hz (.advance ns) =
        T + (ns * s.clock.nanosecond : ℕ) / s.clock.second := by
      rw [Clock.nanosecond_div_second]
      rfl
    have hcall : (s.call (.advance ns)).1 = (s.advance ns).1 := rfl
    rw [hcall, advance_of_running h.running, callTurns_advance h.running]
    exact h.catchUp hT (by rw [hclock])
  · obtain ⟨hrun, hclock⟩ := call_key hkey s
    rw [Call.span_of_isKey hkey, add_zero, callTurns_of_isKey hkey]
    refine Or.inl ⟨⟨hrun.trans h.running, ?_, ?_⟩, (List.append_nil _).symm⟩
    · rw [hclock]
      exact h.hz_eq
    · rw [hclock]
      exact h.clock

/-! ## Lists of calls -/

theorem start_not_mem (h : ∀ c ∈ cs, c.isTimed = true) :
    ∀ program drawn, .start program drawn ∈ cs → Machine.maxProgram < program.length :=
  fun program drawn hp => nomatch h (.start program drawn) hp

/-- Calls for which there is room are lived through by the timetable, if no fault ends the run. -/
theorem Punctual.calls : ∀ (cs : List Call) {s : Session σ} {T : ℚ}, s.Punctual hz T →
    (∀ c ∈ cs, c.isTimed = true) → Roomy hz T cs → (s.calls cs).1.fault = none →
    (s.calls cs).1.Punctual hz (T + totalSpan hz cs) ∧
      (timetable hz (T + totalSpan hz cs)).map Appointment.tick =
        (timetable hz T).map Appointment.tick ++ (s.callsTurns cs).map Turn.tick := by
  intro cs
  induction cs with
  | nil =>
    intro s T h _ _ _
    rw [show T + totalSpan hz [] = T from add_zero T]
    exact ⟨h, (List.append_nil _).symm⟩
  | cons c cs ih =>
    intro s T h hcs hroomy hfault
    have hc : c.isTimed = true := hcs c List.mem_cons_self
    have hlater : ∀ c ∈ cs, c.isTimed = true := fun d hd => hcs d (List.mem_cons_of_mem c hd)
    rw [calls_cons] at hfault ⊢
    rcases h.call hc hroomy.1 with ⟨hcall, hticks⟩ | ⟨hrun, f, hf⟩
    · obtain ⟨hcalls, hrest⟩ := ih hcall hlater hroomy.2 hfault
      rw [totalSpan_cons, ← add_assoc]
      refine ⟨hcalls, ?_⟩
      rw [hrest, hticks, List.append_assoc, ← List.map_append]
      rfl
    · -- The fault would be kept to the end.
      have hkept := calls_of_not_running hrun (start_not_mem hlater)
      rw [hkept] at hfault
      exact absurd (hf.symm.trans hfault) (Option.some_ne_none f)

theorem unstalled_of_not_running (hr : s.running = false) (h : ∀ c ∈ cs, c.isTimed = true) :
    s.Unstalled cs := by
  induction cs generalizing s with
  | nil => exact trivial
  | cons c cs ih =>
    have hlong := start_not_mem h
    have hstill : (s.call c).1.running = false := by
      rw [call_of_not_running hr fun program drawn hc =>
        hlong program drawn (hc ▸ List.mem_cons_self)]
      exact hr
    refine ⟨?_, ih hstill fun d hd => h d (List.mem_cons_of_mem c hd)⟩
    have hnot : s.running ≠ true := ne_true_of_eq_false hr
    cases c <;> first | exact trivial | exact fun hrun => absurd hrun hnot

/-- Calls for which there is room cut nothing off. -/
theorem Punctual.unstalled : ∀ (cs : List Call) {s : Session σ} {T : ℚ}, s.Punctual hz T →
    (∀ c ∈ cs, c.isTimed = true) → Roomy hz T cs → s.Unstalled cs := by
  intro cs
  induction cs with
  | nil => exact fun _ _ _ => trivial
  | cons c cs ih =>
    intro s T h hcs hroomy
    have hc : c.isTimed = true := hcs c List.mem_cons_self
    have hlater : ∀ c ∈ cs, c.isTimed = true := fun d hd => hcs d (List.mem_cons_of_mem c hd)
    refine ⟨?_, ?_⟩
    · rcases Call.isTimed_cases hc with rfl | ⟨ns, rfl⟩ | hkey
      · exact fun _ => h.bears_cycle hroomy.1
      · exact fun _ => h.bears_advance hroomy.1
      · cases c <;> first | exact trivial | cases hkey
    · rcases h.call hc hroomy.1 with ⟨hcall, -⟩ | ⟨hrun, -⟩
      · exact ih hcall hlater hroomy.2
      · exact unstalled_of_not_running hrun hlater

end Session

/-! ## Cycles -/

section Cycles

variable {hz : ℕ}

/-- After any number of cycles there is room for another one. -/
theorem room_cycle (hz_pos : 0 < hz) (n : ℕ) : Room hz (n / hz) (1 / hz) := by
  rcases Nat.lt_or_ge hz 2 with hlt | htwo
  · -- The period is a second, and at full seconds nothing is owed.
    obtain rfl : hz = 1 := by omega
    refine ⟨?_, ?_⟩
    · rw [floor_div_mul, Nat.mul_div_cancel _ hz_pos]
      norm_num
    · rw [floor_div_mul_sixty, Nat.div_one]
      push_cast
      linarith
  · have hperiod := one_div_le_of_le (by norm_num) htwo
    rw [Nat.cast_ofNat] at hperiod
    exact room_of_two_le htwo hperiod

theorem isTimed_of_cycle_or_key {ds : List Call} (h : ∀ d ∈ ds, d = .cycle ∨ d.isKey = true) :
    ∀ d ∈ ds, d.isTimed = true := by
  intro d hd
  rcases h d hd with rfl | hkey
  · rfl
  · cases d <;> first | rfl | cases hkey

theorem roomy_cycles (hz_pos : 0 < hz) : ∀ {ds : List Call} (n : ℕ),
    (∀ d ∈ ds, d = .cycle ∨ d.isKey = true) →
    Roomy hz (n / hz) ds ∧ totalSpan hz ds = ds.count .cycle / hz := by
  intro ds
  induction ds with
  | nil => exact fun n _ => ⟨trivial, by simp [totalSpan]⟩
  | cons d ds ih =>
    intro n h
    have hlater : ∀ d ∈ ds, d = .cycle ∨ d.isKey = true := fun c hc =>
      h c (List.mem_cons_of_mem d hc)
    rw [totalSpan_cons]
    rcases h d List.mem_cons_self with rfl | hkey
    · obtain ⟨hroomy, hspan⟩ := ih (n + 1) hlater
      have hnext : (n / hz : ℚ) + Call.span hz .cycle = (n + 1 : ℕ) / hz := by
        rw [Nat.cast_add, Nat.cast_one, add_div]
        rfl
      refine ⟨⟨room_cycle hz_pos n, ?_⟩, ?_⟩
      · rw [hnext]
        exact hroomy
      · rw [hspan, List.count_cons_self, Nat.cast_add, Nat.cast_one, add_div, add_comm]
        rfl
    · obtain ⟨hroomy, hspan⟩ := ih n hlater
      have hne : d ≠ .cycle := fun hd => by rw [hd] at hkey; cases hkey
      rw [Roomy, Call.span_of_isKey hkey, add_zero, zero_add, List.count_cons_of_ne hne]
      exact ⟨⟨room_zero hz_pos _, hroomy⟩, hspan⟩

end Cycles

namespace Session

variable {σ : Type} [Host σ]

/-- **A cycle is one instruction, paced against the timers.** Whatever calls were made of a session:
if it runs, a cycle attempts exactly one instruction; and if the period is a whole number of
nanoseconds, to let it pass in nanoseconds is the same. From a start, as long as nothing fails and
only cycles let time pass, `n` cycles execute `n` instructions and count the timers
`⌊60 * n / hz⌋` times, and before the `j`-th count come exactly `⌊j * hz / 60⌋` instructions. -/
theorem cycle_paces (settings : Settings) (host : σ) (drawn : ChaCha.Key) (cs : List Call) :
    let hz := max settings.cpuHz.toNat 1
    let s := ((create settings host drawn).calls cs).1
    (s.running = true → Turn.Path s.machine (s.callTurns .cycle) s.cycle.1.machine ∧
      ((s.callTurns .cycle).map Turn.tick).count .processor = 1) ∧
    (hz ∣ 10 ^ 9 → s.cycle = s.advance (10 ^ 9 / hz)) ∧
    ∀ (program : List UInt8) (again : ChaCha.Key) (ds : List Call),
      program.length ≤ Machine.maxProgram → (∀ d ∈ ds, d = .cycle ∨ d.isKey = true) →
      let t := (s.start program again).1
      (t.calls ds).1.fault = none →
      let n := ds.count .cycle
      let ticks := (t.callsTurns ds).map Turn.tick
      Turn.Path t.machine (t.callsTurns ds) (t.calls ds).1.machine ∧
        ticks.count .processor = n ∧ ticks.count .timer = 60 * n / hz ∧
        ∀ before after, ticks = before ++ .timer :: after →
          before.count .processor = (before.count .timer + 1) * hz / 60 := by
  intro hz s
  have hhz : s.clock.hz = hz := by
    have hfurnished := furnished_calls settings host drawn cs
    exact congrArg (fun v : UInt32 => max v.toNat 1) hfurnished.cpuHz_eq
  have hpop : s.clock.pop = none :=
    pop_calls (Clock.pop_reset (create settings host drawn).clock) cs
  have hz_pos : 0 < hz := hhz ▸ s.clock.hz_pos
  clear_value s hz
  refine ⟨fun hr => ⟨path_callTurns (c := .cycle) (fun _ _ hc => nomatch hc),
    count_callTurns_cycle hr hpop⟩, fun hdvd => ?_, fun program again ds hfits hds => ?_⟩
  · rw [← hhz] at hdvd ⊢
    exact cycle_eq_advance hdvd
  · intro t hfault n ticks
    have htimed := isTimed_of_cycle_or_key hds
    have hstart : t.Punctual hz 0 := hhz ▸ punctual_start hfits s again
    obtain ⟨hroomy, hspan⟩ := roomy_cycles hz_pos 0 hds
    rw [Nat.cast_zero, zero_div] at hroomy
    obtain ⟨-, htimetable⟩ := hstart.calls ds htimed hroomy hfault
    -- At the start nothing is due, so the turns are the whole timetable.
    rw [hspan, timetable_zero, zero_add, List.map_nil, List.nil_append] at htimetable
    obtain ⟨hp, ht⟩ := count_timetable hz (n / hz : ℚ)
    rw [htimetable] at hp ht
    refine ⟨path_callsTurns (start_not_mem htimed), ?_, ?_, fun before after hticks => ?_⟩
    · rw [hp, floor_div_mul, Nat.mul_div_cancel _ hz_pos]
    · rw [ht, floor_div_mul_sixty, Nat.mul_comm]
    have hplace := count_before_timer hz_pos before (p := 0) (t := 0) (by omega)
      (htimetable.trans hticks)
    rwa [Nat.zero_add, Nat.zero_add] at hplace

/-- At eight instructions a second, with half a count of the timers to an instruction over seven. A
session that was let run for a while goes on with a cycle; after a start there are three cycles, and
the second instruction falls due together with the fifteenth count. -/
theorem cycle_paces_eight :
    let settings : Settings := { cpuHz := 8, seed := some 7 }
    let s := ((create settings ({} : Transcript) default).calls
      [.start [0xC0, 0xFF, 0x12, 0x00] default, .advance 200000001, .step]).1
    let program : List UInt8 := [0x60, 0x09, 0xF0, 0x18, 0xD0, 0x05, 0x12, 0x06]
    let t := (s.start program default).1
    let ds : List Call := [.cycle, .keyDown 3, .cycle, .cycle]
    let ticks := (t.callsTurns ds).map Turn.tick
    let before : List Tick := List.replicate 7 .timer ++ .processor ::
      (List.replicate 7 .timer ++ [.processor])
    let after : List Tick := List.replicate 7 .timer ++ [.processor]
    (s.running = true ∧ max settings.cpuHz.toNat 1 ∣ 10 ^ 9) ∧
      (((s.callTurns .cycle).map Turn.tick).count .processor = 1 ∧
        s.cycle = s.advance 125000000) ∧
      (program.length ≤ Machine.maxProgram ∧ (∀ d ∈ ds, d = .cycle ∨ d.isKey = true) ∧
        (t.calls ds).1.fault = none ∧ ticks = before ++ .timer :: after) ∧
      ticks.count .processor = 3 ∧ ticks.count .timer = 22 ∧
      before.count .processor = (14 + 1) * 8 / 60 := by
  intro settings s program t ds ticks before after
  obtain ⟨hrun, hfault, hticks⟩ :
      s.running = true ∧ (t.calls ds).1.fault = none ∧ ticks = before ++ .timer :: after := by
    decide +kernel
  have hhz : max settings.cpuHz.toNat 1 = 8 := rfl
  have hdvd : max settings.cpuHz.toNat 1 ∣ 10 ^ 9 := by decide
  have hfits : program.length ≤ Machine.maxProgram := by decide
  have hds : ∀ d ∈ ds, d = .cycle ∨ d.isKey = true := by decide
  obtain ⟨hone, hsame, hpaced⟩ := cycle_paces settings ({} : Transcript) default
    [.start [0xC0, 0xFF, 0x12, 0x00] default, .advance 200000001, .step]
  obtain ⟨-, hprocessor, htimer, hplace⟩ := hpaced program default ds hfits hds hfault
  have hsecond := hplace before after hticks
  have hcount : 60 * ds.count .cycle / max settings.cpuHz.toNat 1 = 22 := by decide
  rw [hhz] at hsame hsecond
  exact ⟨⟨hrun, hdvd⟩, ⟨(hone hrun).2, hsame (by decide)⟩, ⟨hfits, hds, hfault, hticks⟩,
    hprocessor, htimer.trans hcount, hsecond⟩

end Session

end ChipEight
