import ChipEight.Session.Frames
import ChipEight.Proofs.Session.Pacing
import ChipEight.Proofs.Session.Ticks

/-!
# Frames

A frame begins at a whole nanosecond, so frames differ in length. A run for a number of frames
nevertheless follows the timetable from beginning to end: after each frame the session is where the
timetable leaves it, or an instruction of that frame has failed (`Reached.advance`,
`Reached.passFrames`). `runFrames_unbroken` says so of the whole run.

The last frame ends at a nanosecond, too. Where that is short of a sixtieth of a second, what falls
due at the end of the last frame is left out: `count_runFrames`.
-/

namespace ChipEight

/-- The second at which the frame with this number begins. -/
def frameMoment (n : ℕ) : ℚ := (n * 10 ^ 9 / 60 : ℕ) / 10 ^ 9

/-- The nanoseconds from the moment of a frame to the moment of the next. -/
def frameSpan (n : ℕ) : ℕ := (n + 1) * 10 ^ 9 / 60 - n * 10 ^ 9 / 60

/-- What a run for a number of frames asks of the session, from the frame with the given number to
the first one whose length overflows. -/
def frameCalls (frame : UInt64) : ℕ → List Call
  | 0 => []
  | count + 1 =>
    match frameLength frame with
    | none => []
    | some length => .advance length.toNat :: frameCalls (frame + 1) count

/-! ## Words that fit -/

section Lengths

variable {frame length : UInt64} {n : ℕ}

theorem fitted_of_lt (h : n < 2 ^ 64) : fitted n = some (UInt64.ofNat n) := if_pos h

theorem fitted_of_le (h : 2 ^ 64 ≤ n) : fitted n = none := if_neg (Nat.not_lt.mpr h)

theorem exists_frameBegin (h : frame.toNat * 10 ^ 9 < 2 ^ 64) :
    ∃ start, frameBegin frame = some start ∧ start.toNat = frame.toNat * 10 ^ 9 / 60 := by
  have hfits : fitted (frame.toNat * 1000000000) = some (UInt64.ofNat (frame.toNat * 10 ^ 9)) :=
    fitted_of_lt h
  refine ⟨UInt64.ofNat (frame.toNat * 10 ^ 9) / 60, ?_, ?_⟩
  · rw [frameBegin, hfits]
    rfl
  · rw [UInt64.toNat_div, UInt64.toNat_ofNat_of_lt' h]
    rfl

theorem frameBegin_eq_none (h : 2 ^ 64 ≤ frame.toNat * 10 ^ 9) : frameBegin frame = none := by
  have hnone : fitted (frame.toNat * 1000000000) = none := fitted_of_le h
  rw [frameBegin, hnone]
  rfl

theorem toNat_frame_succ (h : frame.toNat + 1 < 2 ^ 64) : (frame + 1).toNat = frame.toNat + 1 := by
  rw [UInt64.toNat_add]
  exact Nat.mod_eq_of_lt h

theorem fitted_frame_succ (h : frame.toNat + 1 < 2 ^ 64) :
    fitted (frame.toNat + 1) = some (frame + 1) := by
  rw [fitted_of_lt h, ← toNat_frame_succ h, UInt64.ofNat_toNat]

/-- A frame whose end fits begins and ends where it should. -/
theorem exists_begin_end (h : (frame.toNat + 1) * 10 ^ 9 < 2 ^ 64) :
    ∃ start stop, frameBegin frame = some start ∧ frameBegin (frame + 1) = some stop ∧
      start.toNat = frame.toNat * 10 ^ 9 / 60 ∧ stop.toNat = (frame.toNat + 1) * 10 ^ 9 / 60 ∧
      start ≤ stop := by
  have hsucc : (frame + 1).toNat = frame.toNat + 1 := toNat_frame_succ (by omega)
  have hle : frame.toNat * 10 ^ 9 ≤ (frame.toNat + 1) * 10 ^ 9 :=
    Nat.mul_le_mul_right _ (Nat.le_succ _)
  have hend : (frame + 1).toNat * 10 ^ 9 < 2 ^ 64 := by rwa [hsucc]
  obtain ⟨start, hstart, hstart'⟩ := exists_frameBegin (hle.trans_lt h)
  obtain ⟨stop, hstop, hstop'⟩ := exists_frameBegin hend
  rw [hsucc] at hstop'
  refine ⟨start, stop, hstart, hstop, hstart', hstop', ?_⟩
  rw [UInt64.le_iff_toNat_le, hstart', hstop']
  exact Nat.div_le_div_right hle

/-- A frame whose end fits lasts as long as it should. -/
theorem exists_frameLength (h : (frame.toNat + 1) * 10 ^ 9 < 2 ^ 64) :
    ∃ length, frameLength frame = some length ∧ length.toNat = frameSpan frame.toNat := by
  have hsmall : frame.toNat + 1 < 2 ^ 64 := by omega
  obtain ⟨start, stop, hstart, hstop, hstart', hstop', hmono⟩ := exists_begin_end h
  refine ⟨stop - start, ?_, ?_⟩
  · rw [frameLength, fitted_frame_succ hsmall, Option.bind_eq_bind, Option.bind_some, hstop, hstart]
    exact if_pos hmono
  · rw [UInt64.toNat_sub_of_le _ _ hmono, hstart', hstop']
    rfl

/-- A frame whose end does not fit has no length. -/
theorem frameLength_eq_none (h : 2 ^ 64 ≤ (frame.toNat + 1) * 10 ^ 9) :
    frameLength frame = none := by
  by_cases hsmall : frame.toNat + 1 < 2 ^ 64
  · have hend : 2 ^ 64 ≤ (frame + 1).toNat * 10 ^ 9 := by rwa [toNat_frame_succ hsmall]
    rw [frameLength, fitted_frame_succ hsmall, Option.bind_eq_bind, Option.bind_some,
      frameBegin_eq_none hend]
    rfl
  · rw [frameLength, fitted_of_le (Nat.not_lt.mp hsmall)]
    rfl

end Lengths

/-! ## Moments -/

/-- A frame lasts from its moment to the next. -/
theorem frameMoment_succ (n : ℕ) : frameMoment n + frameSpan n / 10 ^ 9 = frameMoment (n + 1) := by
  have hle : n * 10 ^ 9 / 60 ≤ (n + 1) * 10 ^ 9 / 60 :=
    Nat.div_le_div_right (Nat.mul_le_mul_right _ (Nat.le_succ _))
  unfold frameMoment frameSpan
  rw [← add_div, ← Nat.cast_add, Nat.add_sub_cancel' hle]

/-! ## Room for a frame -/

theorem floor_frameMoment_mul (n rate : ℕ) :
    ⌊frameMoment n * rate⌋₊ = n * 10 ^ 9 / 60 * rate / 10 ^ 9 := by
  have hfloor := floor_div_mul (n * 10 ^ 9 / 60) (10 ^ 9) rate
  rwa [Nat.cast_pow, Nat.cast_ofNat] at hfloor

/-- At any speed there is room for a frame at the moment at which it begins. -/
theorem room_frame {hz : ℕ} (hz_pos : 0 < hz) (n : ℕ) :
    Room hz (frameMoment n) (frameSpan n / 10 ^ 9) := by
  have hspan : (frameSpan n / 10 ^ 9 : ℚ) ≤ 1 / 2 := by
    rw [div_le_div_iff₀ (by norm_num) (by norm_num)]
    have hle : frameSpan n * 2 ≤ 1 * 10 ^ 9 := by
      unfold frameSpan
      omega
    exact_mod_cast hle
  rcases Nat.lt_or_ge hz 2 with hlt | htwo
  · -- At one instruction a second a frame is over when the next one falls due.
    obtain rfl : hz = 1 := by omega
    refine ⟨?_, (room_of_two_le le_rfl hspan).2⟩
    rw [frameMoment_succ, floor_frameMoment_mul]
    unfold frameMoment
    rw [div_le_iff₀ (by norm_num), Nat.cast_one, div_one]
    have hle : (n + 1) * 10 ^ 9 / 60 ≤ (n * 10 ^ 9 / 60 * 1 / 10 ^ 9 + 1) * 10 ^ 9 := by omega
    exact_mod_cast hle
  · exact room_of_two_le htwo hspan

theorem frameMoment_zero : frameMoment 0 = 0 := by
  unfold frameMoment
  norm_num

theorem frameMoment_mono {m n : ℕ} (h : m ≤ n) : frameMoment m ≤ frameMoment n := by
  have hle : m * 10 ^ 9 / 60 ≤ n * 10 ^ 9 / 60 :=
    Nat.div_le_div_right (Nat.mul_le_mul_right _ h)
  unfold frameMoment
  exact div_le_div_of_nonneg_right (by exact_mod_cast hle) (by norm_num)

/-! ## What falls due in a number of frames -/

/-- Three frames are a whole number of nanoseconds. -/
theorem frameMoment_of_dvd {n : ℕ} (h : 3 ∣ n) : frameMoment n = n / 60 := by
  have hwhole : n * 10 ^ 9 / 60 * 60 = n * 10 ^ 9 := by omega
  unfold frameMoment
  rw [div_eq_div_iff (by norm_num) (by norm_num)]
  exact_mod_cast hwhole

/-- A frame begins too early by at most two thirds of a nanosecond. -/
theorem frameMoment_bounds (n : ℕ) :
    frameMoment n ≤ n / 60 ∧ (n / 60 : ℚ) ≤ frameMoment n + 2 / 3 / 10 ^ 9 := by
  have hlow : n * 10 ^ 9 / 60 * 60 ≤ n * 10 ^ 9 := Nat.div_mul_le_self _ _
  have hhigh : n * 10 ^ 9 ≤ n * 10 ^ 9 / 60 * 60 + 40 := by omega
  have hlow' : ((n * 10 ^ 9 / 60 : ℕ) : ℚ) * 60 ≤ n * 10 ^ 9 := by exact_mod_cast hlow
  have hhigh' : (n * 10 ^ 9 : ℚ) ≤ ((n * 10 ^ 9 / 60 : ℕ) : ℚ) * 60 + 40 := by exact_mod_cast hhigh
  unfold frameMoment
  constructor <;> linarith

/-- The last count of the timers is due at the end of the last frame, and is missed if the frame
ends too early. -/
theorem floor_frameMoment_mul_sixty (n : ℕ) :
    ⌊frameMoment n * 60⌋₊ = if 3 ∣ n then n else n - 1 := by
  have hfloor := floor_frameMoment_mul n 60
  rw [Nat.cast_ofNat] at hfloor
  rw [hfloor]
  obtain ⟨m, r, hr, rfl⟩ : ∃ m r, r < 3 ∧ n = 3 * m + r := ⟨n / 3, n % 3, by omega, by omega⟩
  interval_cases r <;> split_ifs <;> omega

theorem floor_sixtieths_mul (n hz : ℕ) : ⌊(n / 60 : ℚ) * hz⌋₊ = n * hz / 60 := by
  have hfloor := floor_div_mul n 60 hz
  rwa [Nat.cast_ofNat] at hfloor

/-- At the speeds that fit into 32 bits, at most three instructions are missed for it. -/
theorem floor_frameMoment_mul_bounds (n : ℕ) {hz : ℕ} (h : hz < 2 ^ 32) :
    ⌊frameMoment n * hz⌋₊ ≤ n * hz / 60 ∧ n * hz / 60 ≤ ⌊frameMoment n * hz⌋₊ + 3 := by
  obtain ⟨hlow, hhigh⟩ := frameMoment_bounds n
  have hhz : (hz : ℚ) < 2 ^ 32 := by exact_mod_cast h
  have hpos : (0 : ℚ) ≤ hz := Nat.cast_nonneg hz
  have hmoment : 0 ≤ frameMoment n := frameMoment_zero ▸ frameMoment_mono n.zero_le
  have hlow' := mul_le_mul_of_nonneg_right hlow hpos
  have hhigh' := mul_le_mul_of_nonneg_right hhigh hpos
  rw [← floor_sixtieths_mul, ← Nat.floor_add_ofNat (mul_nonneg hmoment hpos)]
  exact ⟨Nat.floor_le_floor hlow', Nat.floor_le_floor (by linarith)⟩

namespace Session

variable {σ : Type} [Host σ] {s₀ s : Session σ} {T : ℚ}

/-! ## Following the timetable -/

/-- The session is what the ticks due by `T` make of `s₀`, and its clock is up to date. -/
structure Reached (s₀ : Session σ) (T : ℚ) (s : Session σ) : Prop where
  punctual : s.Punctual s₀.clock.hz T
  reset_eq : s.clock.reset = s₀.clock.reset
  carried : s₀.carryOut ((timetable s₀.clock.hz T).map Appointment.tick) =
    ({ s with clock := s₀.clock }, .ok ())

theorem reached_start {program : List UInt8} (fits : program.length ≤ Machine.maxProgram)
    (s : Session σ) (drawn : ChaCha.Key) :
    (s.start program drawn).1.Reached 0 (s.start program drawn).1 where
  punctual := by
    have hhz : (s.start program drawn).1.clock.hz = s.clock.hz := by
      rw [clock_start fits]
      rfl
    rw [hhz]
    exact punctual_start fits s drawn
  reset_eq := rfl
  carried := by
    rw [timetable_zero]
    rfl

/-- A span for which there is room leads on along the timetable, or an instruction that falls due in
it is the first that fails. -/
theorem Reached.advance (h : s₀.Reached T s) {ns : ℕ}
    (hroom : Room s₀.clock.hz T (ns / 10 ^ 9)) :
    (∃ s', s.advance ns = (s', .ok ()) ∧ s₀.Reached (T + ns / 10 ^ 9) s') ∨
      ∃ k t f, s.advance ns = (t, .error f) ∧
        s₀.FailsAt ((timetable s₀.clock.hz (T + ns / 10 ^ 9)).map Appointment.tick) k t f ∧
        T < k / s₀.clock.hz ∧ (k / s₀.clock.hz : ℚ) ≤ T + ns / 10 ^ 9 := by
  have hr := h.punctual.running
  obtain ⟨hdue, hpunctual⟩ := h.punctual.clock.drain_accrue (ns * s.clock.nanosecond)
  rw [Clock.nanosecond_div_second, ← Clock.elapse_eq_accrue (h.punctual.bears_advance hroom)]
    at hdue hpunctual
  rw [h.punctual.hz_eq] at hdue
  have hreset : (s.clock.elapse ns).drain.2.reset = s₀.clock.reset :=
    (s.clock.elapse ns).reset_drain.trans h.reset_eq
  have hadvance := advance_eq_carryOut hr ns
  generalize (s.clock.elapse ns).drain = due at hdue hpunctual hreset hadvance
  have hr' : ({ s with clock := due.2 } : Session σ).running = true := hr
  rcases hcarry : ({ s with clock := due.2 } : Session σ).carryOut due.1 with ⟨t, f | ⟨⟩⟩
  · obtain ⟨k, hfails⟩ := exists_failsAt hcarry
    have hafter := (hfails.with_clock hr' hreset.symm).after h.carried
    rw [← hdue, (count_timetable _ _).1] at hafter
    refine Or.inr ⟨_, t, f, hadvance.trans hcarry, hafter, ?_, hafter.due s₀.clock.hz_pos⟩
    -- All instructions with lower numbers were executed before.
    rw [← not_le, div_le_iff_le_floor s₀.clock.hz_pos hafter.le_count.1]
    exact Nat.not_le.mpr (Nat.lt_add_of_pos_right hfails.le_count.1)
  · obtain ⟨hrun, hclock, hwith⟩ := carryOut_with_clock_of_ok hr' hcarry
    have hhz : due.2.reset.hz = s₀.clock.reset.hz := by rw [hreset]
    refine Or.inl ⟨t, hadvance.trans hcarry, ⟨hrun, ?_, ?_⟩, ?_, ?_⟩
    · rw [hclock]
      exact hhz
    · rw [hclock]
      exact hpunctual
    · rw [hclock]
      exact hreset
    · rw [hdue, carryOut_append_of_ok h.carried]
      exact hwith s₀.clock

theorem passFrames_of_none {frame : UInt64} (hlength : frameLength frame = none) (s : Session σ)
    (count : ℕ) : s.passFrames frame (count + 1) = (s, .error (.crashed frame)) := by
  rw [passFrames, hlength]

theorem passFrames_of_ok {frame length : UInt64} {s' : Session σ} {count : ℕ}
    (hlength : frameLength frame = some length) (h : s.advance length.toNat = (s', .ok ())) :
    s.passFrames frame (count + 1) = s'.passFrames (frame + 1) count := by
  rw [passFrames, hlength]
  dsimp only
  rw [h]

theorem passFrames_of_error {frame length : UInt64} {t : Session σ} {f : Fault} {count : ℕ}
    (hlength : frameLength frame = some length) (h : s.advance length.toNat = (t, .error f)) :
    s.passFrames frame (count + 1) = (t, .error (.ended frame f)) := by
  rw [passFrames, hlength]
  dsimp only
  rw [h]

/-- Frames lead on along the timetable, or an instruction that falls due in one of them is the first
that fails. -/
theorem Reached.passFrames {n : ℕ} (small : n * 10 ^ 9 < 2 ^ 64) :
    ∀ (count : ℕ) {frame : UInt64} {s : Session σ}, frame.toNat + count = n →
      s₀.Reached (frameMoment frame.toNat) s →
      (∃ s', s.passFrames frame count = (s', .ok ()) ∧ s₀.Reached (frameMoment n) s') ∨
        ∃ k t f last, s.passFrames frame count = (t, .error (.ended last f)) ∧
          s₀.FailsAt ((timetable s₀.clock.hz (frameMoment n)).map Appointment.tick) k t f ∧
          last.toNat < n ∧ frameMoment last.toNat < k / s₀.clock.hz ∧
          (k / s₀.clock.hz : ℚ) ≤ frameMoment (last.toNat + 1) := by
  intro count
  induction count with
  | zero =>
    intro frame s hn h
    rw [← hn]
    exact Or.inl ⟨s, rfl, h⟩
  | succ count ih =>
    intro frame s hn h
    have hlt : frame.toNat < n := by omega
    have hnext : (frame.toNat + 1) * 10 ^ 9 < 2 ^ 64 := (Nat.mul_le_mul_right _ hlt).trans_lt small
    have hsucc : (frame + 1).toNat = frame.toNat + 1 := toNat_frame_succ (by omega)
    obtain ⟨length, hlength, hspan⟩ := exists_frameLength hnext
    have hroom := room_frame s₀.clock.hz_pos frame.toNat
    rw [← hspan] at hroom
    rcases h.advance hroom with
      ⟨s', hadvance, hreached⟩ | ⟨k, t, f, hadvance, hfails, hlow, hhigh⟩
    · rw [hspan, frameMoment_succ, ← hsucc] at hreached
      rw [passFrames_of_ok hlength hadvance]
      exact ih (by omega) hreached
    · rw [hspan, frameMoment_succ] at hfails hhigh
      obtain ⟨more, hmore⟩ := timetable_isPrefix s₀.clock.hz_pos (frameMoment_mono hlt)
      refine Or.inr ⟨k, t, f, frame, passFrames_of_error hlength hadvance, ?_, hlt, hlow, hhigh⟩
      rw [← hmore, List.map_append]
      exact hfails.append _

theorem Reached.passFrames_zero (h : s.Reached 0 s) {n : ℕ} (small : n * 10 ^ 9 < 2 ^ 64) :
    (∃ s', s.passFrames 0 n = (s', .ok ()) ∧ s.Reached (frameMoment n) s') ∨
      ∃ k t f last, s.passFrames 0 n = (t, .error (.ended last f)) ∧
        s.FailsAt ((timetable s.clock.hz (frameMoment n)).map Appointment.tick) k t f ∧
        last.toNat < n ∧ frameMoment last.toNat < k / s.clock.hz ∧
        (k / s.clock.hz : ℚ) ≤ frameMoment (last.toNat + 1) := by
  rw [← frameMoment_zero] at h
  exact Reached.passFrames small n (Nat.zero_add n) h

/-! ## As calls -/

omit [Host σ] in
theorem frameCalls_of_some {frame length : UInt64} (hlength : frameLength frame = some length)
    (count : ℕ) :
    frameCalls frame (count + 1) = .advance length.toNat :: frameCalls (frame + 1) count := by
  rw [frameCalls, hlength]

omit [Host σ] in
theorem isTimed_of_mem_frameCalls {frame : UInt64} {count : ℕ} :
    ∀ c ∈ frameCalls frame count, c.isTimed = true := by
  induction count generalizing frame with
  | zero => exact List.forall_mem_nil _
  | succ count ih =>
    rcases hlength : frameLength frame with _ | length
    · rw [frameCalls, hlength]
      exact List.forall_mem_nil _
    · rw [frameCalls_of_some hlength]
      exact List.forall_mem_cons.mpr ⟨rfl, ih⟩

theorem calls_frameCalls : ∀ (count : ℕ) {frame : UInt64} {s s' : Session σ},
    s.passFrames frame count = (s', .ok ()) → (s.calls (frameCalls frame count)).1 = s' := by
  intro count
  induction count with
  | zero =>
    intro frame s s' h
    exact congrArg Prod.fst h
  | succ count ih =>
    intro frame s s' h
    rcases hlength : frameLength frame with _ | length
    · rw [passFrames_of_none hlength] at h
      cases h
    rcases hadvance : s.advance length.toNat with ⟨t, f | ⟨⟩⟩
    · rw [passFrames_of_error hlength hadvance] at h
      cases h
    · rw [passFrames_of_ok hlength hadvance] at h
      have hcall : (s.call (.advance length.toNat)).1 = t := congrArg Prod.fst hadvance
      rw [frameCalls_of_some hlength, calls_cons, hcall]
      exact ih h

theorem roomy_frameCalls {hz n : ℕ} (hz_pos : 0 < hz) (small : n * 10 ^ 9 < 2 ^ 64) :
    ∀ (count : ℕ) {frame : UInt64}, frame.toNat + count = n →
      Roomy hz (frameMoment frame.toNat) (frameCalls frame count) ∧
        frameMoment frame.toNat + totalSpan hz (frameCalls frame count) = frameMoment n := by
  intro count
  induction count with
  | zero =>
    intro frame hn
    rw [← hn]
    exact ⟨trivial, add_zero _⟩
  | succ count ih =>
    intro frame hn
    have hlt : frame.toNat < n := by omega
    have hnext : (frame.toNat + 1) * 10 ^ 9 < 2 ^ 64 := (Nat.mul_le_mul_right _ hlt).trans_lt small
    have hsucc : (frame + 1).toNat = frame.toNat + 1 := toNat_frame_succ (by omega)
    obtain ⟨length, hlength, hlasts⟩ := exists_frameLength hnext
    have hroom := room_frame hz_pos frame.toNat
    rw [← hlasts] at hroom
    have hspan : frameMoment frame.toNat + Call.span hz (.advance length.toNat) =
        frameMoment (frame + 1).toNat := by
      rw [hsucc, ← frameMoment_succ, ← hlasts]
      rfl
    have hlater : (frame + 1).toNat + count = n := by omega
    obtain ⟨hroomy, htotal⟩ := ih hlater
    rw [frameCalls_of_some hlength]
    refine ⟨⟨hroom, ?_⟩, ?_⟩
    · rw [hspan]
      exact hroomy
    · rw [totalSpan_cons, ← add_assoc, hspan]
      exact htotal

theorem roomy_frameCalls_zero {hz n : ℕ} (hz_pos : 0 < hz) (small : n * 10 ^ 9 < 2 ^ 64) :
    Roomy hz 0 (frameCalls 0 n) ∧ totalSpan hz (frameCalls 0 n) = frameMoment n := by
  have hzero : frameMoment (0 : UInt64).toNat = 0 := frameMoment_zero
  have hsum : (0 : UInt64).toNat + n = n := Nat.zero_add n
  have hroomy := roomy_frameCalls hz_pos small n hsum
  rwa [hzero, zero_add] at hroomy

/-! ## Whole runs -/

section Runs

variable {program : List UInt8} {settings : Settings} {frames : UInt64} {journal : Journal}
  {first second : ChaCha.Key}

theorem start_eq_ok (fits : program.length ≤ Machine.maxProgram) (s : Session σ)
    (drawn : ChaCha.Key) : s.start program drawn = ((s.start program drawn).1, .ok ()) := by
  obtain ⟨m, -, hstart⟩ := start_of_le fits s drawn
  rw [hstart]

/-- Where a program is started, what remains of the run are its frames. -/
theorem runFrames_of_ok {s s' : Session Spectator}
    (hs : (create settings { journal } first).start program second = (s, .ok ()))
    (hpass : s.passFrames 0 frames.toNat = (s', .ok ())) :
    runFrames program settings frames journal first second =
      (s'.note (.framesRun frames s'.host.pictures s'.host.beeps), .ok ()) := by
  unfold runFrames
  simp only [hs, hpass]

theorem runFrames_of_error {s s' : Session Spectator} {e : RunFailure}
    (hs : (create settings { journal } first).start program second = (s, .ok ()))
    (hpass : s.passFrames 0 frames.toNat = (s', .error e)) :
    runFrames program settings frames journal first second = (s', .error e) := by
  unfold runFrames
  simp only [hs, hpass]

/-- A program that does not fit is not run for any frames. -/
theorem fits_of_runFrames_ok
    (h : (runFrames program settings frames journal first second).2 = .ok ()) :
    program.length ≤ Machine.maxProgram := by
  by_contra hlong
  rw [runFrames, start_of_lt (Nat.lt_of_not_le hlong)] at h
  cases h

/-- **A run for a number of frames follows one timetable.** At no speed does a frame cut anything
off. If every instruction succeeds that is due by the end of the last frame, the run ends with the
session that the ticks due by then lead to, and with a clock that is up to date. Otherwise it ends
with the first instruction that fails, and names the frame in which that instruction is due. -/
theorem runFrames_unbroken (program : List UInt8) (settings : Settings) (frames : UInt64)
    (journal : Journal) (first second : ChaCha.Key)
    (fits : program.length ≤ Machine.maxProgram) (small : frames.toNat * 10 ^ 9 < 2 ^ 64) :
    let hz := max settings.cpuHz.toNat 1
    let s := ((create settings ({ journal } : Spectator) first).start program second).1
    let T : ℚ := (frames.toNat * 10 ^ 9 / 60 : ℕ) / 10 ^ 9
    let ticks := (timetable hz T).map Appointment.tick
    let run := runFrames program settings frames journal first second
    s.Unstalled (frameCalls 0 frames.toNat) ∧
    ((∃ s' c, s.carryOut ticks = (s', .ok ()) ∧ c.cpuHz = settings.cpuHz ∧ c.Punctual T ∧
        run = (({ s' with clock := c } : Session Spectator).note
          (.framesRun frames s'.host.pictures s'.host.beeps), .ok ())) ∨
      ∃ k t f frame start stop, s.carryOut ticks = (t, .error f) ∧ s.FailsAt ticks k t f ∧
        run = (t, .error (.ended frame f)) ∧ frame < frames ∧
        frameBegin frame = some start ∧ frameBegin (frame + 1) = some stop ∧
        (start.toNat : ℚ) < k * 10 ^ 9 / hz ∧ (k * 10 ^ 9 / hz : ℚ) ≤ stop.toNat ∧
        (RunFailure.ended frame f).chain =
          ("the program stopped during frame " ++ toString frame.toNat) :: f.message ::
            f.causes) := by
  intro hz s T ticks run
  have hclock : s.clock = { cpuHz := settings.cpuHz } := clock_start fits
  have hhz : s.clock.hz = hz := by rw [hclock]; rfl
  have hs := start_eq_ok fits (create settings ({ journal } : Spectator) first) second
  have hstart : s.Reached 0 s := reached_start fits _ second
  have hroomy := (roomy_frameCalls_zero s.clock.hz_pos small).1
  have hframes := hstart.passFrames_zero small
  have hT : frameMoment frames.toNat = T := rfl
  rw [hhz, hT] at hframes
  refine ⟨hstart.punctual.unstalled _ isTimed_of_mem_frameCalls hroomy, ?_⟩
  rcases hframes with ⟨s', hpass, hreached⟩ | ⟨k, t, f, frame, hpass, hfails, hlt, hlow, hhigh⟩
  · have hcarried := hreached.carried
    have hcpu : s'.clock.reset.cpuHz = s.clock.reset.cpuHz := by rw [hreached.reset_eq]
    rw [hhz] at hcarried
    rw [hclock] at hcpu
    exact Or.inl ⟨_, s'.clock, hcarried, hcpu, hreached.punctual.clock, runFrames_of_ok hs hpass⟩
  · have hnext : (frame.toNat + 1) * 10 ^ 9 < 2 ^ 64 := (Nat.mul_le_mul_right _ hlt).trans_lt small
    obtain ⟨start, stop, hbegins, hends, hstart', hstop', -⟩ := exists_begin_end hnext
    -- Seconds are turned into nanoseconds.
    rw [frameMoment, ← hstart', div_lt_iff₀ (by norm_num), div_mul_eq_mul_div] at hlow
    rw [frameMoment, ← hstop', le_div_iff₀ (by norm_num), div_mul_eq_mul_div] at hhigh
    exact Or.inr ⟨k, t, f, frame, start, stop, hfails.carryOut_eq, hfails,
      runFrames_of_error hs hpass, UInt64.lt_iff_toNat_lt.mpr hlt, hbegins, hends, hlow, hhigh, rfl⟩

/-- At sixty instructions a second the second one fails. It is due where the second frame should
end, and counts to the third, because the second one ends a fraction of a nanosecond before. -/
theorem runFrames_unbroken_second :
    let settings : Settings := { cpuHz := 60, seed := some 7 }
    let program : List UInt8 := [0x60, 0x01, 0x00, 0xEE]
    let s := ((create settings ({} : Spectator) default).start program default).1
    let T : ℚ := (4 * 10 ^ 9 / 60 : ℕ) / 10 ^ 9
    (program.length ≤ Machine.maxProgram ∧ (4 : UInt64).toNat * 10 ^ 9 < 2 ^ 64) ∧
      s.Unstalled (frameCalls 0 4) ∧
      ∃ k t start stop,
        s.FailsAt ((timetable 60 T).map Appointment.tick) k t .stackUnderflow ∧
        runFrames program settings 4 {} default default =
          (t, .error (.ended 2 .stackUnderflow)) ∧
        frameBegin 2 = some start ∧ frameBegin 3 = some stop ∧
        (start.toNat : ℚ) < k * 10 ^ 9 / 60 ∧ (k * 10 ^ 9 / 60 : ℚ) ≤ stop.toNat := by
  intro settings program s T
  have hfits : program.length ≤ Machine.maxProgram := by decide
  have hsmall : (4 : UInt64).toNat * 10 ^ 9 < 2 ^ 64 := by decide
  have hfail : (runFrames program settings 4 {} default default).2 =
      .error (.ended 2 .stackUnderflow) := by decide +kernel
  have hhz : max settings.cpuHz.toNat 1 = 60 := rfl
  obtain ⟨hunstalled, hrun⟩ :=
    runFrames_unbroken program settings 4 {} default default hfits hsmall
  refine ⟨⟨hfits, hsmall⟩, hunstalled, ?_⟩
  rcases hrun with ⟨s', c, -, -, -, hrun⟩ |
    ⟨k, t, f, frame, start, stop, -, hfails, hrun, -, hstart, hstop, hlow, hhigh, -⟩
  · rw [hrun] at hfail
    cases hfail
  · rw [hrun] at hfail
    obtain ⟨rfl, rfl⟩ := RunFailure.ended.inj (Except.error.inj hfail)
    rw [hhz] at hfails hlow hhigh
    exact ⟨k, t, start, stop, hfails, hrun, hstart, hstop, hlow, hhigh⟩

/-- **A run for a number of frames may fall short of so many sixtieths of a second.** If no
instruction fails, the run takes the ticks that are due by the nanosecond at which the last frame
ends. After a multiple of three frames these are one count of the timers for each frame and the
instructions of so many sixtieths of a second. After any other number of frames the last count is
missed, and so are at most three instructions. -/
theorem count_runFrames (program : List UInt8) (settings : Settings) (frames : UInt64)
    (journal : Journal) (first second : ChaCha.Key) (small : frames.toNat * 10 ^ 9 < 2 ^ 64)
    (ok : (runFrames program settings frames journal first second).2 = .ok ()) :
    let hz := max settings.cpuHz.toNat 1
    let n := frames.toNat
    let s := ((create settings ({ journal } : Spectator) first).start program second).1
    let cs := frameCalls 0 n
    let t := (s.calls cs).1
    let ticks := (s.callsTurns cs).map Turn.tick
    (runFrames program settings frames journal first second).1 =
        t.note (.framesRun frames t.host.pictures t.host.beeps) ∧
      Turn.Path s.machine (s.callsTurns cs) t.machine ∧
      ticks.count .timer = (if 3 ∣ n then n else n - 1) ∧
      ticks.count .processor = n * 10 ^ 9 / 60 * hz / 10 ^ 9 ∧
      (3 ∣ n → ticks.count .processor = n * hz / 60) ∧
      ticks.count .processor ≤ n * hz / 60 ∧ n * hz / 60 ≤ ticks.count .processor + 3 := by
  intro hz n s cs t ticks
  have fits := fits_of_runFrames_ok ok
  have hlt : hz < 2 ^ 32 := max_lt settings.cpuHz.toNat_lt (by norm_num)
  have hclock : s.clock = { cpuHz := settings.cpuHz } := clock_start fits
  have hhz : s.clock.hz = hz := by rw [hclock]; rfl
  have hs := start_eq_ok fits (create settings ({ journal } : Spectator) first) second
  have hstart : s.Reached 0 s := reached_start fits _ second
  obtain ⟨hroomy, hspan⟩ := roomy_frameCalls_zero s.clock.hz_pos small
  rcases hstart.passFrames_zero small with ⟨s', hpass, hreached⟩ | ⟨k, t, f, frame, hpass, -⟩
  · have ht : t = s' := calls_frameCalls n hpass
    have hcoherent : t.Coherent settings :=
      coherent_calls (coherent_start (coherent_create _ _ first) program second) cs
    have hfault : t.fault = none := hcoherent.fault_eq_none (ht ▸ hreached.punctual.running)
    obtain ⟨-, htimetable⟩ := hstart.punctual.calls cs isTimed_of_mem_frameCalls hroomy hfault
    rw [hspan, timetable_zero, List.map_nil, List.nil_append, zero_add] at htimetable
    obtain ⟨hprocessor, htimer⟩ := count_timetable s.clock.hz (frameMoment n)
    have hbounds := floor_frameMoment_mul_bounds n hlt
    rw [htimetable, hhz] at hprocessor
    rw [htimetable, floor_frameMoment_mul_sixty] at htimer
    rw [← hprocessor] at hbounds
    refine ⟨?_, path_callsTurns (start_not_mem isTimed_of_mem_frameCalls), htimer,
      hprocessor.trans (floor_frameMoment_mul n hz), fun hdvd => hprocessor.trans ?_, hbounds⟩
    · rw [runFrames_of_ok hs hpass, ht]
    · rw [frameMoment_of_dvd hdvd, floor_sixtieths_mul]
  · rw [runFrames_of_error hs hpass] at ok
    cases ok

/-- In four frames at ninety instructions a second the fourth count and the sixth instruction are
missed, which are due together. -/
theorem count_runFrames_four :
    let settings : Settings := { cpuHz := 90, seed := some 7 }
    let program : List UInt8 := [0x60, 0x05, 0xF0, 0x15, 0x71, 0x01, 0x12, 0x04]
    let s := ((create settings ({} : Spectator) default).start program default).1
    let ticks := (s.callsTurns (frameCalls 0 4)).map Turn.tick
    ((4 : UInt64).toNat * 10 ^ 9 < 2 ^ 64 ∧
        (runFrames program settings 4 {} default default).2 = .ok ()) ∧
      ticks.count .timer = 3 ∧ ticks.count .processor = 5 := by
  intro settings program s ticks
  have hsmall : (4 : UInt64).toNat * 10 ^ 9 < 2 ^ 64 := by decide
  have hok : (runFrames program settings 4 {} default default).2 = .ok () := by decide +kernel
  have hhz : max settings.cpuHz.toNat 1 = 90 := rfl
  have hframes : (4 : UInt64).toNat = 4 := rfl
  obtain ⟨-, -, htimer, hprocessor, -⟩ :=
    count_runFrames program settings 4 {} default default hsmall hok
  rw [hframes, if_neg (by decide)] at htimer
  rw [hframes, hhz] at hprocessor
  exact ⟨⟨hsmall, hok⟩, htimer, hprocessor⟩

/-- In one frame at a hundred and eighty instructions a second there are two instructions and no
count of the timers, though a sixtieth of a second is enough for three and one. -/
theorem count_runFrames_one_ne :
    let settings : Settings := { cpuHz := 180, seed := some 7 }
    let program : List UInt8 := [0x60, 0x05, 0xF0, 0x15, 0x71, 0x01, 0x12, 0x04]
    let s := ((create settings ({} : Spectator) default).start program default).1
    let ticks := (s.callsTurns (frameCalls 0 1)).map Turn.tick
    (runFrames program settings 1 {} default default).2 = .ok () ∧
      ticks.count .timer ≠ 1 ∧ ticks.count .processor ≠ 1 * 180 / 60 ∧
      (runFrames program settings 1 {} default default).1.machine.delay ≠ 4 := by
  decide +kernel

end Runs

end Session

end ChipEight
