import ChipEight.Proofs.Machine.Guarded
import ChipEight.Proofs.Session.Running

/-!
# What holds between calls

`Session.Sound` is what holds of a session whenever its host may call it: addresses lie within
memory, the picture has been shown, nothing is due, a wait for a key is at its instruction, and a
fault that ended the run is one of five. `sound_calls` says that every list of calls leads to a
sound session.

Two ticks of one call need less than that: time is still owed between them. What holds at every
moment is `Session.Coherent`, which every tick preserves (`coherent_step`, `coherent_countDown`).
-/

namespace ChipEight

/-! ## Keys -/

theorem Keypad.edges_le_press (p : Keypad) (k : Key) : p.edges ≤ (p.press k).edges := by
  unfold press
  split_ifs
  · exact le_rfl
  · exact Nat.le_succ _

namespace Session

variable {σ : Type} {settings : Settings} {s : Session σ}

/-- What holds of a session at every moment. -/
structure Coherent (settings : Settings) (s : Session σ) : Prop where
  settings_eq : s.settings = settings
  inMemory : s.machine.InMemory
  dialect_eq : s.machine.dialect = settings.dialect
  shown : s.machine.dirty = false
  waits : s.machine.Waits s.keypad.edges
  halted : ∀ f, s.fault = some f → s.running = false ∧ s.machine.Fails f

theorem Coherent.with_host (h : s.Coherent settings) (host : σ) :
    ({ s with host } : Session σ).Coherent settings :=
  ⟨h.settings_eq, h.inMemory, h.dialect_eq, h.shown, h.waits, h.halted⟩

theorem Coherent.with_clock (h : s.Coherent settings) (clock : Clock) :
    ({ s with clock } : Session σ).Coherent settings :=
  ⟨h.settings_eq, h.inMemory, h.dialect_eq, h.shown, h.waits, h.halted⟩

theorem Coherent.with_keypad (h : s.Coherent settings) {keypad : Keypad}
    (hk : s.keypad.edges ≤ keypad.edges) : ({ s with keypad } : Session σ).Coherent settings :=
  ⟨h.settings_eq, h.inMemory, h.dialect_eq, h.shown, h.waits.mono hk, h.halted⟩

theorem Coherent.fault_eq_none (h : s.Coherent settings) (hr : s.running = true) :
    s.fault = none := by
  rw [Option.eq_none_iff_forall_ne_some]
  intro f hf
  have hstop := (h.halted f hf).1
  rw [hr] at hstop
  cases hstop

theorem coherent_create (settings : Settings) (host : σ) (drawn : ChaCha.Key) :
    (create settings host drawn).Coherent settings :=
  ⟨rfl, Machine.inMemory_fresh settings drawn, rfl, rfl, fun _ hp => (nomatch hp),
    fun _ hf => (nomatch hf)⟩

variable [Host σ]

/-! ## Ticks -/

theorem coherent_step (h : s.Coherent settings) : s.step.1.Coherent settings := by
  rcases hr : s.running with _ | _
  · rw [step_of_not_running hr]
    exact h
  · rcases hm : s.machine.step s.keypad with ⟨m, f | e⟩
    · have hf : s.machine.Fails f := Machine.fails_of_step (congrArg Prod.snd hm)
      rw [step_of_error hr hm, Machine.eq_of_step_error hm]
      refine ⟨h.settings_eq, h.inMemory, h.dialect_eq, h.shown, h.waits, fun f' hf' => ?_⟩
      obtain rfl : f = f' := Option.some.inj hf'
      exact ⟨rfl, hf⟩
    · have hmem := Machine.inMemory_of_step h.inMemory hm
      have hwaits := Machine.waits_of_step h.waits hm
      rw [step_of_ok hr hm, refresh_eq]
      refine ⟨h.settings_eq, ⟨hmem.pc_le, hmem.index_le, hmem.stack_le⟩,
        (Machine.dialect_of_step hm).trans h.dialect_eq, rfl, hwaits, fun f hf => ?_⟩
      exact absurd (hf.symm.trans (h.fault_eq_none hr)) (Option.some_ne_none f)

theorem coherent_countDown (h : s.Coherent settings) : s.countDown.Coherent settings :=
  ⟨h.settings_eq, ⟨h.inMemory.pc_le, h.inMemory.index_le, h.inMemory.stack_le⟩, h.dialect_eq,
    h.shown, h.waits, fun f hf => ⟨(h.halted f hf).1, (h.halted f hf).2.tick⟩⟩

theorem coherent_catchUp (h : s.Coherent settings) : s.catchUp.1.Coherent settings := by
  refine catchUp_preserves ?_ ?_ s h
  · intro t c ht _
    exact coherent_countDown (ht.with_clock c)
  · intro t c ht _
    exact coherent_step (ht.with_clock c)

/-! ## Calls -/

theorem coherent_start (h : s.Coherent settings) (program : List UInt8) (drawn : ChaCha.Key) :
    (s.start program drawn).1.Coherent settings := by
  unfold start
  rcases hl : Machine.load program s.settings drawn with f | m
  · exact h.with_host _
  · obtain ⟨hmem, hdialect, hshown, hwait⟩ := Machine.inMemory_load hl
    refine ⟨h.settings_eq, hmem, ?_, hshown, fun p hp => ?_, fun f hf => nomatch hf⟩
    · rw [← h.settings_eq]
      exact hdialect
    · have hp' : m.keyWait = some p := hp
      rw [hwait] at hp'
      cases hp'

theorem coherent_keyDown (h : s.Coherent settings) (code : UInt8) :
    (s.keyDown code).1.Coherent settings := by
  have hn := h.with_host (Host.note (.keyDown code) s.host)
  unfold keyDown Keypad.keyDown
  rcases Key.ofCode code with f | k
  · exact hn.with_host _
  · exact hn.with_keypad (s.keypad.edges_le_press k)

theorem coherent_keyUp (h : s.Coherent settings) (code : UInt8) :
    (s.keyUp code).1.Coherent settings := by
  have hn := h.with_host (Host.note (.keyUp code) s.host)
  unfold keyUp Keypad.keyUp
  rcases Key.ofCode code with f | k
  · exact hn.with_host _
  · exact hn.with_keypad le_rfl

theorem coherent_stop (h : s.Coherent settings) : s.stop.Coherent settings := by
  unfold stop
  dsimp only
  split_ifs
  all_goals
    exact ⟨h.settings_eq, h.inMemory, h.dialect_eq, h.shown, h.waits,
      fun f hf => ⟨rfl, (h.halted f hf).2⟩⟩

theorem coherent_call (h : s.Coherent settings) (c : Call) : (s.call c).1.Coherent settings := by
  cases c with
  | start program drawn => exact coherent_start h program drawn
  | stop => exact coherent_stop h
  | step => exact coherent_step h
  | cycle =>
    show s.cycle.1.Coherent settings
    unfold cycle
    split_ifs
    · exact coherent_catchUp (h.with_clock _)
    · exact h
  | advance ns =>
    show (s.advance ns).1.Coherent settings
    unfold advance
    split_ifs
    · exact coherent_catchUp (h.with_clock _)
    · exact h
  | keyDown code => exact coherent_keyDown h code
  | keyUp code => exact coherent_keyUp h code
  | releaseKeys => exact h.with_keypad le_rfl

theorem coherent_calls (h : s.Coherent settings) (cs : List Call) :
    (s.calls cs).1.Coherent settings :=
  calls_preserves (P := fun s => s.Coherent settings) (fun _ c hs => coherent_call hs c) cs s h

/-! ## Nothing is due between calls -/

theorem pop_step (h : s.clock.pop = none) : s.step.1.clock.pop = none := by
  rcases hr : s.running with _ | _
  · rw [step_of_not_running hr]
    exact h
  · rcases hs : s.step with ⟨s', f | e⟩
    · rw [(of_step_error hr hs).2.1]
      exact Clock.pop_reset _
    · rw [clock_of_step_ok hs]
      exact h

theorem pop_call (h : s.clock.pop = none) (c : Call) : (s.call c).1.clock.pop = none := by
  cases c with
  | start program drawn =>
    show (s.start program drawn).1.clock.pop = none
    unfold start
    rcases Machine.load program s.settings drawn with f | m
    · exact h
    · exact Clock.pop_reset _
  | stop =>
    show s.stop.clock.pop = none
    unfold stop
    dsimp only
    split_ifs <;> exact h
  | step => exact pop_step h
  | cycle =>
    show s.cycle.1.clock.pop = none
    unfold cycle
    split_ifs with hr
    · exact pop_catchUp hr
    · exact h
  | advance ns =>
    show (s.advance ns).1.clock.pop = none
    unfold advance
    split_ifs with hr
    · exact pop_catchUp hr
    · exact h
  | keyDown | keyUp | releaseKeys =>
    rw [(call_key rfl s).2]
    exact h

theorem pop_calls (h : s.clock.pop = none) (cs : List Call) : (s.calls cs).1.clock.pop = none :=
  calls_preserves (P := fun s => s.clock.pop = none) (fun _ c hs => pop_call hs c) cs s h

/-! ## Every list of calls -/

/-- What holds of a session that plays with these settings whenever its host may call it. -/
structure Sound (settings : Settings) (s : Session σ) : Prop where
  pc_le : s.machine.pc ≤ 0xFFF
  index_le : s.machine.index ≤ 0xFFF
  depth_le : s.machine.stack.depth ≤ 16
  stack_le : ∀ a ∈ s.machine.stack.toList, a ≤ 0xFFF
  dialect_eq : s.machine.dialect = settings.dialect
  /-- There is no picture left to show. -/
  shown : s.machine.dirty = false
  stopped : ∀ f, s.fault = some f → s.running = false
  processorDebt_lt : s.clock.processorDebt < s.clock.processorPeriod
  timerDebt_lt : s.clock.timerDebt < s.clock.timerPeriod
  /-- A wait for a key began at an edge that the keypad has counted, and the program counter is at
  an instruction that waits. -/
  waits : ∀ p, s.machine.keyWait = some p →
    p ≤ s.keypad.edges ∧ s.machine.pc ≤ 0xFFE ∧ s.machine.word.fits "Fx0A" = true
  /-- The five faults that can end a run. -/
  faults : ∀ f, s.fault = some f →
    f = .pcOutOfRange 0xFFF ∨ f = .addressOutOfRange 0x1000 ∨ f = .unknownOpcode s.machine.word ∨
      f = .stackOverflow ∨ f = .stackUnderflow

omit [Host σ] in
theorem Coherent.sound (h : s.Coherent settings) (hpop : s.clock.pop = none) :
    s.Sound settings where
  pc_le := h.inMemory.pc_le
  index_le := h.inMemory.index_le
  depth_le := s.machine.stack.depth_le
  stack_le := h.inMemory.stack_le
  dialect_eq := h.dialect_eq
  shown := h.shown
  stopped f hf := (h.halted f hf).1
  processorDebt_lt := (Clock.pop_eq_none_iff.mp hpop).1
  timerDebt_lt := (Clock.pop_eq_none_iff.mp hpop).2
  waits := h.waits
  faults f hf := (h.halted f hf).2.cases_of_inMemory h.inMemory

/-- **Every list of calls leads to a sound session**, whatever the settings, the host and the
programs that are started; and no step looks up an index outside of an array or forms a sum that
does not fit, in those sessions or between two ticks of one of the calls. -/
theorem sound_calls (settings : Settings) (host : σ) (drawn : ChaCha.Key) (cs : List Call) :
    ((create settings host drawn).calls cs).1.Sound settings ∧
      ∀ (m : Machine) (pad : Keypad), m.guardedStep pad = some (m.step pad) := by
  refine ⟨?_, Machine.guardedStep_eq⟩
  exact (coherent_calls (coherent_create settings host drawn) cs).sound
    (pop_calls (Clock.pop_reset (create settings host drawn).clock) cs)

end Session

end ChipEight
