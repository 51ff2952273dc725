import ChipEight.Proofs.Session.Frames
import ChipEight.Proofs.Session.Halting

/-!
# Runs that are too long

A run may be asked for as many frames as 64 bits can count. The nanosecond at which a frame begins,
however, is found by way of a product of 64 bits, and frame 18446744073 is the first whose end has
none (`frameLength_eq_none`). Up to so many frames nothing overflows, every frame lasts 16666666 or
16666667 nanoseconds, and together they last as long as they should. A run for more crashes in that
frame, unless its program failed before (`exact_frames_iff`); a program that loops for ever comes to
that (`crashes_of_loop`).
-/

namespace ChipEight

/-- What the first frames last together, in nanoseconds, if the length of none of them overflows. -/
def totalLength : ℕ → Option ℕ
  | 0 => some 0
  | n + 1 => do
    let total ← totalLength n
    let length ← frameLength (UInt64.ofNat n)
    return total + length.toNat

/-! ## Lengths -/

section Lengths

variable {frame frames : UInt64} {n : ℕ}

theorem product_fits_iff : n * 10 ^ 9 < 2 ^ 64 ↔ n ≤ 18446744073 := by omega

/-- Every third frame is a nanosecond shorter than the others. -/
theorem frameSpan_eq (n : ℕ) : frameSpan n = if 3 ∣ n then 16666666 else 16666667 := by
  unfold frameSpan
  obtain ⟨m, r, hr, rfl⟩ : ∃ m r, r < 3 ∧ n = 3 * m + r := ⟨n / 3, n % 3, by omega, by omega⟩
  interval_cases r <;> split_ifs <;> omega

theorem frameLength_eq (h : (frame.toNat + 1) * 10 ^ 9 < 2 ^ 64) :
    frameLength frame = some (if 3 ∣ frame.toNat then 16666666 else 16666667) := by
  obtain ⟨length, hlength, hspan⟩ := exists_frameLength h
  rw [hlength, Option.some_inj, ← UInt64.toNat_inj, hspan, frameSpan_eq, apply_ite UInt64.toNat]
  rfl

/-- The lengths of frames add up to the moment at which the last of them ends. -/
theorem totalLength_eq (h : n * 10 ^ 9 < 2 ^ 64) : totalLength n = some (n * 10 ^ 9 / 60) := by
  induction n with
  | zero => rfl
  | succ n ih =>
    have hsmall : n < 2 ^ 64 := by omega
    have hbefore : n * 10 ^ 9 < 2 ^ 64 := (Nat.mul_le_mul_right _ (Nat.le_succ n)).trans_lt h
    have hn : (UInt64.ofNat n).toNat = n := UInt64.toNat_ofNat_of_lt' hsmall
    have hend : ((UInt64.ofNat n).toNat + 1) * 10 ^ 9 < 2 ^ 64 := by
      rw [hn]
      exact h
    obtain ⟨length, hlength, hspan⟩ := exists_frameLength hend
    rw [hn, frameSpan] at hspan
    have hsum : n * 10 ^ 9 / 60 + length.toNat = (n + 1) * 10 ^ 9 / 60 := by omega
    rw [totalLength, ih hbefore, hlength]
    exact congrArg some hsum

theorem totalLength_eq_none (h : 2 ^ 64 ≤ n * 10 ^ 9) (hn : n < 2 ^ 64) :
    totalLength n = none := by
  cases n with
  | zero => exact absurd h (by decide)
  | succ n =>
    have hsmall : n < 2 ^ 64 := by omega
    have htoNat : (UInt64.ofNat n).toNat = n := UInt64.toNat_ofNat_of_lt' hsmall
    have hend : 2 ^ 64 ≤ ((UInt64.ofNat n).toNat + 1) * 10 ^ 9 := by
      rw [htoNat]
      exact h
    rw [totalLength, frameLength_eq_none hend]
    rcases totalLength n with _ | total
    · rfl
    · rfl

/-- The product for the end of a frame fits where there are so few of them. -/
theorem next_product_fits (hframes : frames.toNat ≤ 18446744073) (hf : frame < frames) :
    (frame.toNat + 1) * 10 ^ 9 < 2 ^ 64 :=
  product_fits_iff.mpr (Nat.le_trans (UInt64.lt_iff_toNat_lt.mp hf) hframes)

/-- Where there are more of them, the first whose end does not fit is one of them. -/
theorem overflow_lt (h : ¬ frames.toNat ≤ 18446744073) : 18446744073 < frames :=
  UInt64.lt_iff_toNat_lt.mpr (Nat.lt_of_not_le h)

theorem frameLength_overflow : frameLength 18446744073 = none := by decide

end Lengths

namespace Session

variable {σ : Type} [Host σ] {s : Session σ} {count : ℕ} {frame frames : UInt64}

/-! ## Runs that crash -/

/-- Frames that all fit do not crash. -/
theorem passFrames_ne_crashed (h : (frame.toNat + count) * 10 ^ 9 < 2 ^ 64) (last : UInt64) :
    (s.passFrames frame count).2 ≠ .error (.crashed last) := by
  induction count generalizing s frame with
  | zero => exact nofun
  | succ count ih =>
    have hnext : (frame.toNat + 1) * 10 ^ 9 < 2 ^ 64 :=
      (Nat.mul_le_mul_right _ (by omega)).trans_lt h
    obtain ⟨length, hlength, -⟩ := exists_frameLength hnext
    rcases hadvance : s.advance length.toNat with ⟨t, f | ⟨⟩⟩
    · rw [passFrames_of_error hlength hadvance]
      exact nofun
    · rw [passFrames_of_ok hlength hadvance]
      have hsucc : (frame + 1).toNat = frame.toNat + 1 := toNat_frame_succ (by omega)
      refine ih ?_
      rw [hsucc, Nat.add_right_comm]
      exact h

/-- Frames that lead past the last that fits crash there, or end before. -/
theorem passFrames_of_long (hframe : frame ≤ 18446744073)
    (hlong : 18446744073 < frame.toNat + count) :
    (s.passFrames frame count).2 = .error (.crashed 18446744073) ∨
      ∃ last f, last < 18446744073 ∧ (s.passFrames frame count).2 = .error (.ended last f) := by
  induction count generalizing s frame with
  | zero => exact absurd (UInt64.le_iff_toNat_le.mp hframe) (Nat.not_le.mpr hlong)
  | succ count ih =>
    rcases UInt64.lt_or_eq_of_le hframe with hlt | rfl
    · have hlt' : frame.toNat < 18446744073 := UInt64.lt_iff_toNat_lt.mp hlt
      obtain ⟨length, hlength, -⟩ := @exists_frameLength frame (by omega)
      rcases hadvance : s.advance length.toNat with ⟨t, f | ⟨⟩⟩
      · rw [passFrames_of_error hlength hadvance]
        exact Or.inr ⟨frame, f, hlt, rfl⟩
      · have hsucc : (frame + 1).toNat = frame.toNat + 1 := toNat_frame_succ (by omega)
        rw [passFrames_of_ok hlength hadvance]
        refine ih (UInt64.le_iff_toNat_le.mpr ?_) (by omega)
        rw [hsucc]
        exact hlt'
    · rw [passFrames_of_none frameLength_overflow]
      exact Or.inl rfl

/-! ## A program that loops for ever -/

/-- The machine is where programs start, at a jump to where it is. -/
structure Loops (s : Session σ) : Prop where
  pc_eq : s.machine.pc = 0x200
  word_eq : s.machine.memory.wordAt 0x200 = 0x1200

omit [Host σ] in
theorem Loops.step_eq (h : s.Loops) : s.machine.step s.keypad = (s.machine, .ok .plain) := by
  obtain ⟨settings, host, m, keypad, clock, running, fault⟩ := s
  obtain ⟨hpc, hword⟩ := h
  have hword' : m.word = 0x1200 := by
    unfold Machine.word
    rw [hpc]
    exact hword
  have hback : m.advance.perform keypad (.jump 0x200) = (m, .plain) := by
    show (({ m with pc := 0x200 } : Machine), _) = _
    rw [← hpc]
  have hstep : m.step keypad = (_, .ok _) :=
    Machine.step_of_fits (i := .jump 0x200) (by rw [hpc]; decide) (by rw [hword']; decide)
      (by rw [hword']; rfl) (by decide) rfl
  rw [hback] at hstep
  exact hstep

theorem lasting_loops : Lasting fun s : Session σ => s.Loops where
  note _ _ h := ⟨h.pc_eq, h.word_eq⟩
  clock _ _ h := ⟨h.pc_eq, h.word_eq⟩
  stopped _ h := ⟨h.pc_eq, h.word_eq⟩
  keypad _ _ h := ⟨h.pc_eq, h.word_eq⟩
  countDown _ h := ⟨h.pc_eq, h.word_eq⟩
  step s h := by
    rcases hr : s.running with _ | _
    · rw [step_of_not_running hr]
      exact h
    · rw [step_of_ok hr h.step_eq, refresh_eq]
      exact ⟨h.pc_eq, h.word_eq⟩

/-- However much time passes, no jump fails. -/
theorem Loops.advance_ne_error (h : s.Loops) (ns : ℕ) (f : Fault) :
    (s.advance ns).2 ≠ .error f := by
  intro hfail
  rcases hr : s.running with _ | _
  · rw [advance_of_not_running hr] at hfail
    cases hfail
  · have hcall : (s.call (.advance ns)).2 = .error f :=
      congrArg (Except.map fun _ => Outcome.plain) hfail
    obtain ⟨turn, hmem, hanswer⟩ := (call_eq_error_iff hr rfl).mp hcall
    have hloops : turn.before.Loops := lasting_loops.callTurns h (.advance ns) turn hmem
    obtain ⟨-, hfails, -⟩ := failed_turn (s.running_of_mem_callTurns _ turn hmem) hanswer
    have hstep := Machine.step_of_fails hfails turn.before.keypad
    rw [hloops.step_eq] at hstep
    cases hstep

theorem Loops.passFrames_ne_ended (h : s.Loops) (last : UInt64) (f : Fault) :
    (s.passFrames frame count).2 ≠ .error (.ended last f) := by
  induction count generalizing s frame with
  | zero => exact nofun
  | succ count ih =>
    rcases hlength : frameLength frame with _ | length
    · rw [passFrames_of_none hlength]
      exact nofun
    rcases hadvance : s.advance length.toNat with ⟨t, f' | ⟨⟩⟩
    · exact absurd (congrArg Prod.snd hadvance) (h.advance_ne_error _ f')
    · rw [passFrames_of_ok hlength hadvance]
      have hafter : (s.advance length.toNat).1.Loops :=
        lasting_loops.call h (.advance length.toNat) nofun
      rw [hadvance] at hafter
      exact ih hafter

section Runs

variable {program : List UInt8} {settings : Settings} {journal : Journal}
  {first second : ChaCha.Key}

theorem loops_start (s : Session σ) (drawn : ChaCha.Key) :
    (s.start [0x12, 0x00] drawn).1.Loops := by
  have fits : ([0x12, 0x00] : List UInt8).length ≤ Machine.maxProgram := by decide
  obtain ⟨m, hload, hstart⟩ := start_of_le fits s drawn
  obtain rfl := Except.ok.inj hload
  have hword : (Font.memory.pokes 0x200 [0x12, 0x00]).wordAt 0x200 = 0x1200 := by decide +kernel
  rw [hstart]
  exact ⟨rfl, hword⟩

theorem runFrames_of_lt (h : Machine.maxProgram < program.length) (settings : Settings)
    (frames : UInt64) (journal : Journal) (first second : ChaCha.Key) :
    (runFrames program settings frames journal first second).2 =
      .error (.refused (.programTooLarge program.length Machine.maxProgram)) := by
  rw [runFrames, start_of_lt h]

/-- A run that is not refused comes out as its frames do. -/
theorem runFrames_of_le (fits : program.length ≤ Machine.maxProgram) (settings : Settings)
    (frames : UInt64) (journal : Journal) (first second : ChaCha.Key) :
    (runFrames program settings frames journal first second).2 =
      (((create settings ({ journal } : Spectator) first).start program second).1.passFrames 0
        frames.toNat).2 := by
  have hs := start_eq_ok fits (create settings ({ journal } : Spectator) first) second
  rcases hpass : ((create settings ({ journal } : Spectator) first).start program
    second).1.passFrames 0 frames.toNat with ⟨t, e | ⟨⟩⟩
  · rw [runFrames_of_error hs hpass]
  · rw [runFrames_of_ok hs hpass]

theorem runFrames_ne_crashed (small : frames.toNat * 10 ^ 9 < 2 ^ 64) (last : UInt64) :
    (runFrames program settings frames journal first second).2 ≠ .error (.crashed last) := by
  rcases Nat.lt_or_ge Machine.maxProgram program.length with hlong | fits
  · rw [runFrames_of_lt hlong]
    exact nofun
  · rw [runFrames_of_le fits]
    refine passFrames_ne_crashed ?_ last
    rw [UInt64.toNat_zero, Nat.zero_add]
    exact small

/-- A run that is too long crashes, or its program fails before. -/
theorem runFrames_of_long (fits : program.length ≤ Machine.maxProgram)
    (long : 18446744073 < frames) :
    (runFrames program settings frames journal first second).2 = .error (.crashed 18446744073) ∨
      ∃ last f, last < 18446744073 ∧
        (runFrames program settings frames journal first second).2 = .error (.ended last f) := by
  rw [runFrames_of_le fits]
  refine passFrames_of_long (by decide) ?_
  rw [UInt64.toNat_zero, Nat.zero_add]
  exact UInt64.lt_iff_toNat_lt.mp long

theorem crashes_of_loop (settings : Settings) (journal : Journal) (first second : ChaCha.Key)
    (long : 18446744073 < frames) :
    (runFrames [0x12, 0x00] settings frames journal first second).2 =
      .error (.crashed 18446744073) := by
  have fits : ([0x12, 0x00] : List UInt8).length ≤ Machine.maxProgram := by decide
  rcases runFrames_of_long fits long with hcrash | ⟨last, f, -, hended⟩
  · exact hcrash
  · rw [runFrames_of_le fits] at hended
    exact absurd hended ((loops_start _ second).passFrames_ne_ended last f)

end Runs

end Session

section

variable {frames : UInt64}

theorem exists_frameBegin_iff :
    (∀ f < frames, ∃ start stop, frameBegin f = some start ∧ frameBegin (f + 1) = some stop ∧
      start.toNat = f.toNat * 10 ^ 9 / 60 ∧ stop.toNat = (f.toNat + 1) * 10 ^ 9 / 60 ∧
      start ≤ stop) ↔ frames.toNat ≤ 18446744073 := by
  constructor
  · intro h
    by_contra hlong
    obtain ⟨-, stop, -, hstop, -⟩ := h _ (overflow_lt hlong)
    have hnone : frameBegin (18446744073 + 1) = none := by decide
    rw [hnone] at hstop
    cases hstop
  · intro hframes f hf
    exact exists_begin_end (next_product_fits hframes hf)

theorem frameLength_eq_iff :
    (∀ f < frames, frameLength f = some 16666666 ∨ frameLength f = some 16666667) ↔
      frames.toNat ≤ 18446744073 := by
  constructor
  · intro h
    by_contra hlong
    have hlast := h _ (overflow_lt hlong)
    rw [frameLength_overflow] at hlast
    rcases hlast with hlast | hlast <;> cases hlast
  · intro hframes f hf
    rw [frameLength_eq (next_product_fits hframes hf)]
    split_ifs
    · exact Or.inl rfl
    · exact Or.inr rfl

theorem totalLength_eq_iff :
    totalLength frames.toNat = some (frames.toNat * 10 ^ 9 / 60) ↔
      frames.toNat ≤ 18446744073 := by
  rw [← product_fits_iff]
  refine ⟨fun h => ?_, totalLength_eq⟩
  by_contra hlong
  rw [totalLength_eq_none (Nat.not_lt.mp hlong) frames.toNat_lt] at h
  cases h

/-- **The frames of a run are what they should be up to frame 18446744073, and that one has no
length.** Up to so many frames the moments at which they begin and end are exact, each lasts
16666666 or 16666667 nanoseconds, together they last a sixtieth of a second each up to a fraction of
a nanosecond, and no run crashes. With more frames none of this is so: whatever program is run then,
it does not fit, or it fails in an earlier frame, or the run crashes in that frame. -/
theorem exact_frames_iff (frames : UInt64) :
    let n := frames.toNat
    ((∀ f < frames, ∃ start stop, frameBegin f = some start ∧ frameBegin (f + 1) = some stop ∧
        start.toNat = f.toNat * 10 ^ 9 / 60 ∧ stop.toNat = (f.toNat + 1) * 10 ^ 9 / 60 ∧
        start ≤ stop) ↔ n ≤ 18446744073) ∧
      ((∀ f < frames, frameLength f = some 16666666 ∨ frameLength f = some 16666667) ↔
        n ≤ 18446744073) ∧
      (totalLength n = some (n * 10 ^ 9 / 60) ↔ n ≤ 18446744073) ∧
      ∀ (program : List UInt8) (settings : Settings) (journal : Journal)
          (first second : ChaCha.Key),
        let outcome := (Session.runFrames program settings frames journal first second).2
        (n ≤ 18446744073 → ∀ last, outcome ≠ .error (.crashed last)) ∧
          (18446744073 < n →
            outcome =
                .error (.refused (.programTooLarge program.length Machine.maxProgram)) ∨
              (∃ last f, last < 18446744073 ∧ outcome = .error (.ended last f)) ∨
              outcome = .error (.crashed 18446744073)) := by
  intro n
  refine ⟨exists_frameBegin_iff, frameLength_eq_iff, totalLength_eq_iff,
    fun program settings journal first second => ⟨fun h last => ?_, fun h => ?_⟩⟩
  · exact Session.runFrames_ne_crashed (product_fits_iff.mpr h) last
  · rcases Nat.lt_or_ge Machine.maxProgram program.length with hlong | fits
    · exact Or.inl (Session.runFrames_of_lt hlong settings frames journal first second)
    · exact Or.inr (Session.runFrames_of_long fits (overflow_lt (Nat.not_le.mpr h))).symm

/-- One frame more than fit, for a program that would have run for ever. -/
theorem not_exact_frames_one_more :
    let frames : UInt64 := 18446744074
    (∃ f < frames, (frameBegin f).isSome ∧ frameBegin (f + 1) = none ∧ frameLength f = none) ∧
      frames.toNat * 10 ^ 9 / 60 = 307445734566666666 ∧ totalLength frames.toNat = none ∧
      (Session.runFrames [0x12, 0x00] {} frames {} default default).2 =
        .error (.crashed 18446744073) := by
  intro frames
  refine ⟨⟨18446744073, by decide, by decide, by decide, frameLength_overflow⟩, by decide, ?_,
    Session.crashes_of_loop {} {} default default (by decide)⟩
  exact totalLength_eq_none (by decide) frames.toNat_lt

end

end ChipEight
