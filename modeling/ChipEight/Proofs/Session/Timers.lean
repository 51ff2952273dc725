import ChipEight.Proofs.Session.Rendering

/-!
# Timers and beeps

A `Machine.Timer` goes down by one, but not below zero, in each turn that counts, and stays as it is
in all others but those that set it (`Turn.timer_after`). So over a stretch of turns in which it is
not set, it goes down by the number of counts (`Path.timer`). The host hears a beep at a count while
the sound timer runs, which is at the first counts of the stretch, as many as the timer says
(`Path.count_beep`). `timers_count_down` puts this together for every stretch of a run, whatever
else is executed in it.
-/

namespace ChipEight

/-! ## Machines -/

namespace Machine

variable {m : Machine}

/-- One of the timers, which only words of one form set. -/
structure Timer (timer : Machine → UInt8) (form : String) : Prop where
  step : ∀ m : Machine, m.executes form = false → ∀ pad, timer (m.step pad).1 = timer m
  tick : ∀ m : Machine, timer m.tick = countDown (timer m)
  /-- The mark of the picture has nothing to do with it. -/
  mark : ∀ (m : Machine) (dirty : Bool), timer { m with dirty } = timer m

theorem timer_delay : Timer delay "Fx15" where
  step _ h pad := by
    refine same_step (f := .delay) (by decide) (fun i hi => ?_) h pad
    cases i with
    | setDelay x => rfl
    | _ => simp [Instruction.writes] at hi
  tick _ := rfl
  mark _ _ := rfl

theorem timer_sound : Timer sound "Fx18" where
  step _ h pad := by
    refine same_step (f := .sound) (by decide) (fun i hi => ?_) h pad
    cases i with
    | setSound x => rfl
    | _ => simp [Instruction.writes] at hi
  tick _ := rfl
  mark _ _ := rfl

/-- At a word `Fx07` the delay timer is put into Vx. -/
theorem step_of_executes_readDelay (h : m.executes "Fx07" = true) (pad : Keypad) :
    m.step pad = (m.advance.putV m.word.x m.delay, .ok .plain) := by
  unfold executes at h
  obtain ⟨hpc, hfit⟩ := Bool.and_eq_true_iff.mp h
  exact step_of_fits (i := .readDelay m.word.x) (of_decide_eq_true hpc) hfit rfl
    (by simp [Instruction.form]) rfl

theorem toNat_countDown (b : UInt8) : (countDown b).toNat = b.toNat - 1 := by
  unfold countDown
  split_ifs with h
  · rw [h]
    rfl
  · have hpos : 1 ≤ b := by
      rw [UInt8.le_iff_toNat_le]
      exact Nat.one_le_iff_ne_zero.mpr fun h0 => h (UInt8.toNat_inj.mp h0)
    rw [UInt8.toNat_sub_of_le _ _ hpos]
    rfl

end Machine

/-! ## Turns -/

namespace Turn

variable {σ : Type} [Host σ] {t : Turn σ} {turns : List (Turn σ)} {m m' : Machine} {form : String}

/-- The turn executes a word of this form. -/
def executes (form : String) (t : Turn σ) : Bool :=
  match t.tick with
  | .processor => t.before.machine.executes form
  | .timer => false

/-- The turn counts the timers down. -/
def counts (t : Turn σ) : Bool := t.tick == .timer

/-- A turn that does not set a timer counts it down if it counts, and leaves it alone if not. -/
theorem timer_after {timer : Machine → UInt8} (htimer : Machine.Timer timer form)
    (hr : t.before.running = true) (h : t.executes form = false) :
    (timer t.after.machine).toNat = (timer t.before.machine).toNat - t.counts.toNat := by
  rcases t with ⟨_ | _, s⟩
  · obtain ⟨dirty, hm⟩ := machine_after hr
    rw [hm, htimer.mark, htimer.step s.machine h s.keypad]
    rfl
  · have htick : (Turn.mk .timer s).after.machine = s.machine.tick := rfl
    rw [htick, htimer.tick]
    exact Machine.toNat_countDown (timer s.machine)

theorem v_after_of_readDelay (hr : t.before.running = true) (h : t.executes "Fx07" = true) :
    t.after.machine.v.get t.before.machine.word.x = t.before.machine.delay := by
  rcases t with ⟨_ | _, s⟩
  · obtain ⟨dirty, hm⟩ := machine_after hr
    rw [hm, Machine.step_of_executes_readDelay h]
    exact (Machine.v_putV ..).trans (if_pos rfl)
  · cases h

theorem performances_of_counts (h : t.counts = true) :
    t.performances = if 0 < t.before.machine.sound.toNat then [.beep] else [] := by
  rcases t with ⟨_ | _, s⟩
  · cases h
  · show (if s.machine.sound = 0 then [] else [Performance.beep]) = _
    by_cases h0 : s.machine.sound = 0
    · rw [if_pos h0, h0]
      rfl
    · have hpos : 0 < s.machine.sound.toNat := by
        rw [Nat.pos_iff_ne_zero]
        exact fun hz => h0 (UInt8.toNat_inj.mp hz)
      rw [if_neg h0, if_pos hpos]

theorem beep_not_mem_performances (h : t.counts = false) : .beep ∉ t.performances := by
  rcases t with ⟨_ | _, s⟩
  · unfold performances
    split
    · simp
    · simp
    · contradiction
  · cases h

/-- A beep is performed at a count while the sound timer runs, and at no other time. -/
theorem performances_eq_beep_iff :
    t.performances = [.beep] ↔ t.counts = true ∧ 0 < t.before.machine.sound.toNat := by
  rcases h : t.counts with _ | _
  · refine iff_of_false (fun hbeep => beep_not_mem_performances h ?_) fun h => nomatch h.1
    rw [hbeep]
    exact List.mem_singleton_self _
  · rw [performances_of_counts h]
    split_ifs with hpos
    · exact iff_of_true rfl ⟨rfl, hpos⟩
    · exact iff_of_false (fun h => nomatch h) fun h => hpos h.2

/-! ## Stretches of turns -/

omit [Host σ] in
theorem countP_counts_cons (turn : Turn σ) (turns : List (Turn σ)) :
    (turn :: turns).countP counts = turn.counts.toNat + turns.countP counts := by
  rw [List.countP_cons, Nat.add_comm]
  cases turn.counts <;> rfl

/-- A timer that is not set goes down by the number of counts. -/
theorem Path.timer {timer : Machine → UInt8} (htimer : Machine.Timer timer form)
    (hr : ∀ turn ∈ turns, turn.before.running = true)
    (hnone : ∀ turn ∈ turns, turn.executes form = false) (h : Path m turns m') :
    (timer m').toNat = (timer m).toNat - turns.countP counts := by
  induction turns generalizing m with
  | nil =>
    obtain rfl : m' = m := h
    rfl
  | cons turn turns ih =>
    obtain ⟨rfl, hrest⟩ := h
    obtain ⟨hrun, hruns⟩ := List.forall_mem_cons.mp hr
    obtain ⟨hturn, hturns⟩ := List.forall_mem_cons.mp hnone
    rw [ih hruns hturns hrest, timer_after htimer hrun hturn, Nat.sub_sub, countP_counts_cons]

/-- The beeps are as many as the counts, up to what the sound timer says at first. -/
theorem Path.count_beep (hr : ∀ turn ∈ turns, turn.before.running = true)
    (hnone : ∀ turn ∈ turns, turn.executes "Fx18" = false) (h : Path m turns m') :
    (turns.flatMap performances).count .beep = min m.sound.toNat (turns.countP counts) := by
  induction turns generalizing m with
  | nil => exact (Nat.min_zero _).symm
  | cons turn turns ih =>
    obtain ⟨rfl, hrest⟩ := h
    obtain ⟨hrun, hruns⟩ := List.forall_mem_cons.mp hr
    obtain ⟨hturn, hturns⟩ := List.forall_mem_cons.mp hnone
    have hafter := timer_after Machine.timer_sound hrun hturn
    rw [List.flatMap_cons, List.count_append, ih hruns hturns hrest, hafter, countP_counts_cons]
    rcases hcounts : turn.counts with _ | _
    · rw [List.count_eq_zero.mpr (beep_not_mem_performances hcounts), Bool.toNat_false,
        Nat.zero_add, Nat.zero_add, Nat.sub_zero]
    · -- The first count beeps if the timer runs, and what is left of the timer is for the others.
      rw [performances_of_counts hcounts, Bool.toNat_true]
      split_ifs with hpos
      · rw [List.count_singleton_self]
        omega
      · rw [List.count_nil]
        omega

end Turn

/-! ## Sessions -/

namespace Session

variable {σ : Type} [Host σ]

/-- **Timers count down and the sound timer beeps.** Take any stretch of the turns from a start to
the next, wherever the machine is before it, and let `k` be the number of counts in it.

If no turn of the stretch executes `Fx18`, then the host hears a beep at each of the first counts
while the sound timer runs, as many as the timer says at first but not more than `k`; in the end
the timer has gone down by `k`, but not below zero, and a beep should sound if it is not there yet.
If no turn of the stretch executes `Fx15`, the delay timer goes down in the same way, and each
`Fx07` reads what is left after the counts so far. -/
theorem timers_count_down (s : Session σ) {program : List UInt8} (drawn : ChaCha.Key)
    (hfits : program.length ≤ Machine.maxProgram) {cs : List Call}
    (hcs : ∀ program drawn, .start program drawn ∈ cs → Machine.maxProgram < program.length) :
    let t := (s.start program drawn).1
    let turns := t.callsTurns cs
    Turn.Path t.machine turns (t.calls cs).1.machine ∧
      (t.calls cs).1.host = hear t.host (t.cues cs) ∧
      (t.cues cs).filterMap Cue.performance? = turns.flatMap Turn.performances ∧
      (∀ turn ∈ turns, turn.after.host = hear turn.before.host turn.cues ∧
        turn.cues.filterMap Cue.performance? = turn.performances) ∧
      ∀ before mid later, turns = before ++ mid ++ later →
        let m₁ := Turn.reached t.machine before
        let m₂ := Turn.reached t.machine (before ++ mid)
        let next := later.head?.elim (t.calls cs).1 Turn.before
        let k := mid.countP Turn.counts
        next.machine = m₂ ∧
        ((∀ turn ∈ mid, turn.executes "Fx18" = false) →
          (mid.flatMap Turn.performances).count .beep = min m₁.sound.toNat k ∧
          (∀ earlier turn rest, mid = earlier ++ turn :: rest →
            (turn.performances = [.beep] ↔
              turn.counts = true ∧ earlier.countP Turn.counts < m₁.sound.toNat)) ∧
          m₂.sound.toNat = m₁.sound.toNat - k ∧
          (next.sounds = true ↔ k < m₁.sound.toNat)) ∧
        ((∀ turn ∈ mid, turn.executes "Fx15" = false) →
          m₂.delay.toNat = m₁.delay.toNat - k ∧
          ∀ earlier turn rest, mid = earlier ++ turn :: rest → turn.executes "Fx07" = true →
            (turn.after.machine.v.get turn.before.machine.word.x).toNat =
              m₁.delay.toNat - earlier.countP Turn.counts) := by
  intro t turns
  have hclean : t.machine.dirty = false := (picture_start hfits s drawn).2
  have hpath : Turn.Path t.machine turns (t.calls cs).1.machine := path_callsTurns hcs
  have hruns : ∀ turn ∈ turns, turn.before.running = true := running_of_mem_callsTurns cs
  have hhost : ∀ turn ∈ turns, turn.after.host = hear turn.before.host turn.cues :=
    fun turn hturn =>
      turn.host_after (hruns turn hturn) (lasting_clean.callsTurns hclean hcs turn hturn)
  refine ⟨hpath, host_calls t cs, performances_calls hclean hcs,
    fun turn hturn => ⟨hhost turn hturn, turn.filterMap_cues⟩,
    fun before mid later hsplit => ?_⟩
  clear_value turns
  subst hsplit
  intro m₁ m₂ next k
  obtain ⟨hleft, hlater⟩ := hpath.of_append
  have hmid : Turn.Path m₁ mid m₂ := hleft.of_append.2
  have hrun : ∀ turn ∈ mid, turn.before.running = true := fun turn hturn =>
    hruns turn (List.mem_append_left _ (List.mem_append_right _ hturn))
  have hnext : next.machine = m₂ := by
    cases later with
    | nil => exact hlater
    | cons turn later => exact hlater.1
  refine ⟨hnext, fun hnone => ?_, fun hnone => ?_⟩
  · have hend : m₂.sound.toNat = m₁.sound.toNat - k := hmid.timer Machine.timer_sound hrun hnone
    refine ⟨hmid.count_beep hrun hnone, fun earlier turn rest hsplit => ?_, hend, ?_⟩
    · subst hsplit
      obtain ⟨hrun', -⟩ := List.forall_mem_append.mp hrun
      obtain ⟨hnone', -⟩ := List.forall_mem_append.mp hnone
      have hleft := hmid.split.timer Machine.timer_sound hrun' hnone'
      rw [Turn.performances_eq_beep_iff, hleft, Nat.sub_pos_iff_lt]
    · show decide (0 < next.machine.sound) = true ↔ _
      rw [hnext, decide_eq_true_iff, UInt8.lt_iff_toNat_lt, hend]
      exact Nat.sub_pos_iff_lt
  · refine ⟨hmid.timer Machine.timer_delay hrun hnone, fun earlier turn rest hsplit hread => ?_⟩
    subst hsplit
    obtain ⟨hrun', hlast⟩ := List.forall_mem_append.mp hrun
    obtain ⟨hnone', -⟩ := List.forall_mem_append.mp hnone
    rw [Turn.v_after_of_readDelay (hlast turn List.mem_cons_self) hread]
    exact hmid.split.timer Machine.timer_delay hrun' hnone'

/-- Both timers count down from three while a wait for a key goes on and ends; then the delay timer
is read, and the sound timer is set again and runs out. -/
theorem timers_count_down_waiting :
    let s : Session Transcript := create { cpuHz := 60, seed := some 7 } {} default
    let program : List UInt8 :=
      [0x60, 0x03, 0xF0, 0x18, 0xF0, 0x15, 0xF2, 0x0A, 0xF3, 0x07, 0x61, 0x02, 0xF1, 0x18, 0x12,
        0x0E]
    let cs : List Call :=
      [.step, .step, .step, .advance 33333334, .keyDown 5, .step, .step, .step, .step,
        .advance 50000000]
    let t := (s.start program default).1
    let turns := t.callsTurns cs
    let waiting := (turns.drop 3).take 7
    let last := turns.drop 11
    program.length ≤ Machine.maxProgram ∧
      (∀ program drawn, .start program drawn ∈ cs → Machine.maxProgram < program.length) ∧
      (∀ turn ∈ waiting ++ last, turn.executes "Fx18" = false) ∧
      (∀ turn ∈ waiting, turn.executes "Fx15" = false) ∧
      (waiting.flatMap Turn.performances).count .beep = 2 ∧
      (∃ turn ∈ waiting, turn.executes "Fx07" = true ∧ turn.after.machine.v.get 3 = 1) ∧
      (last.flatMap Turn.performances).count .beep = 2 ∧
      (t.calls cs).1.sounds = false := by
  intro s program cs t turns waiting last
  have hfits : program.length ≤ Machine.maxProgram := by decide
  have hcs : ∀ program drawn, .start program drawn ∈ cs → Machine.maxProgram < program.length := by
    simp [cs]
  obtain ⟨-, -, -, -, hstretch⟩ := timers_count_down s default hfits hcs
  have hrun : (∀ turn ∈ waiting ++ last, turn.executes "Fx18" = false) ∧
      (∀ turn ∈ waiting, turn.executes "Fx15" = false) ∧
      (Turn.reached t.machine (turns.take 3)).sound.toNat = 3 ∧
      (Turn.reached t.machine (turns.take 3)).delay.toNat = 3 ∧
      (Turn.reached t.machine (turns.take 11)).sound.toNat = 2 ∧
      last.countP Turn.counts = 3 ∧
      waiting.map (fun turn => (turn.counts, turn.executes "Fx07", turn.before.machine.word.x)) =
        [(false, false, 2), (true, false, 2), (false, false, 2), (true, false, 2),
          (false, false, 2)] ++ (false, true, 3) :: [(false, false, 1)] := by
    decide +kernel
  obtain ⟨hsound, hdelay, hs₁, hd₁, hs₂, hk₂, hmap⟩ := hrun
  have hdrop : turns.drop 10 = (turns.drop 3).drop 7 := by rw [List.drop_drop]
  have hwaiting : turns = turns.take 3 ++ waiting ++ turns.drop 10 := by
    rw [List.append_assoc, hdrop, List.take_append_drop, List.take_append_drop]
  have hlast : turns = turns.take 11 ++ last ++ [] := by
    rw [List.append_nil, List.take_append_drop]
  clear_value waiting last (ht : t = _)
  rw [← ht] at hstretch
  obtain ⟨-, hbeeps₁, hreads⟩ := hstretch (turns.take 3) waiting (turns.drop 10) hwaiting
  obtain ⟨-, hbeeps₂, -⟩ := hstretch (turns.take 11) last [] hlast
  obtain ⟨hcount₁, -⟩ := hbeeps₁ fun turn hturn => hsound turn (List.mem_append_left _ hturn)
  obtain ⟨hcount₂, -, -, hsounds⟩ :=
    hbeeps₂ fun turn hturn => hsound turn (List.mem_append_right _ hturn)
  obtain ⟨-, hread⟩ := hreads hdelay
  -- Two counts come before the turn that reads the delay timer, and none after it.
  obtain ⟨earlier, rest', rfl, hearlier, hrest⟩ := List.map_eq_append_iff.mp hmap
  obtain ⟨turn, rest, rfl, hturn, hrest⟩ := List.map_eq_cons_iff.mp hrest
  have hk : earlier.countP Turn.counts = 2 := by
    simpa [List.countP_map, Function.comp_def] using congrArg (List.countP Prod.fst) hearlier
  have hk' : rest.countP Turn.counts = 0 := by
    simpa [List.countP_map, Function.comp_def] using congrArg (List.countP Prod.fst) hrest
  simp only [Prod.mk.injEq] at hturn
  obtain ⟨hcounts, hexecutes, hx⟩ := hturn
  have hv := hread earlier turn rest rfl hexecutes
  rw [hk, hd₁, hx] at hv
  rw [List.countP_append, List.countP_cons, hk, hk', hcounts, hs₁] at hcount₁
  rw [hs₂, hk₂] at hcount₂ hsounds
  rw [List.head?_nil, Option.elim_none] at hsounds
  exact ⟨hfits, hcs, hsound, hdelay, hcount₁, ⟨turn, by simp, hexecutes, UInt8.toNat_inj.mp hv⟩,
    hcount₂, Bool.eq_false_iff.mpr fun h => absurd (hsounds.mp h) (by decide)⟩

end Session

end ChipEight
