import ChipEight.Proofs.Clock.Draining
import Mathlib.Algebra.Order.Floor.Semifield

/-!
# A clock that is up to date

A clock is `Punctual` at a moment if it has handed out everything that is due by then and owes what
is left of the time, with nothing cut off. If there is `Room` for a span of time, letting it pass
cuts nothing off (`Punctual.bears`), and draining the clock hands out the rest of the timetable and
leaves it punctual again (`Punctual.drain_accrue`). At two or more instructions a second there is
room for half a second at any moment (`room_of_two_le`).
-/

namespace ChipEight

/-- Less than a second lies between the last tick of either kind and the end of the span. -/
def Room (hz : ℕ) (T span : ℚ) : Prop :=
  T + span ≤ ⌊T * hz⌋₊ / hz + 1 ∧ T + span ≤ ⌊T * 60⌋₊ / 60 + 1

/-- What is left after the last tick is less than one period. -/
theorem floor_room {rate : ℕ} {T span : ℚ} (hrate : 0 < rate) (hspan : span + 1 / rate ≤ 1) :
    T + span ≤ ⌊T * rate⌋₊ / rate + 1 := by
  have hrate' : (0 : ℚ) < rate := by exact_mod_cast hrate
  have hlt : T < (⌊T * rate⌋₊ + 1) / rate := (lt_div_iff₀ hrate').mpr (Nat.lt_floor_add_one _)
  rw [add_div] at hlt
  linarith

theorem room_of_le {hz : ℕ} {T span : ℚ} (hz_pos : 0 < hz) (hp : span + 1 / hz ≤ 1)
    (ht : span + 1 / 60 ≤ 1) : Room hz T span := by
  have hroom : T + span ≤ ⌊T * (60 : ℕ)⌋₊ / (60 : ℕ) + 1 :=
    floor_room (by norm_num) (by exact_mod_cast ht)
  exact ⟨floor_room hz_pos hp, by exact_mod_cast hroom⟩

theorem one_div_le_of_le {hz n : ℕ} (hn : 0 < n) (h : n ≤ hz) : (1 : ℚ) / hz ≤ 1 / n :=
  one_div_le_one_div_of_le (by exact_mod_cast hn) (by exact_mod_cast h)

/-- There is always room for no time at all. -/
theorem room_zero {hz : ℕ} (hz_pos : 0 < hz) (T : ℚ) : Room hz T 0 := by
  have hperiod := one_div_le_of_le Nat.one_pos hz_pos
  rw [Nat.cast_one, div_one] at hperiod
  exact room_of_le hz_pos (by linarith) (by norm_num)

/-- At two or more instructions a second there is room for half a second. -/
theorem room_of_two_le {hz : ℕ} {T span : ℚ} (hhz : 2 ≤ hz) (hspan : span ≤ 1 / 2) :
    Room hz T span := by
  have hperiod := one_div_le_of_le (by norm_num) hhz
  rw [Nat.cast_ofNat] at hperiod
  exact room_of_le (by omega) (by linarith) (by linarith)

/-- How many ticks fall due by a moment that is itself a fraction. -/
theorem floor_div_mul (m d rate : ℕ) : ⌊(m / d : ℚ) * rate⌋₊ = m * rate / d := by
  rw [div_mul_eq_mul_div, ← Nat.cast_mul, Nat.floor_div_eq_div]

theorem floor_div_mul_sixty (m d : ℕ) : ⌊(m / d : ℚ) * 60⌋₊ = m * 60 / d := by
  have hfloor := floor_div_mul m d 60
  rwa [Nat.cast_ofNat] at hfloor

namespace Clock

/-- Everything due by `T` was handed out, and nothing of the time was cut off. -/
def Punctual (c : Clock) (T : ℚ) : Prop := Tracks c T ⌊T * c.hz⌋₊ ⌊T * 60⌋₊

variable {c : Clock} {T : ℚ}

theorem punctual_reset (c : Clock) : c.reset.Punctual 0 where
  processor := by simp [reset]
  timer := by simp [reset]

/-- The history of a punctual clock is the timetable. -/
theorem Punctual.onTime (h : c.Punctual T) :
    History.OnTime
      { clock := c, time := T, popped := (timetable c.hz T).map Appointment.tick } := by
  obtain ⟨hp, ht⟩ := count_timetable c.hz T
  refine ⟨?_, ?_⟩
  · show Tracks c T _ _
    rw [hp, ht]
    exact h
  · show _ = (timetable c.hz T).map Appointment.tick ++ _
    dsimp only
    rw [hp, ht, List.self_eq_append_right, List.map_eq_nil_iff, ← List.length_eq_zero_iff]
    unfold upcoming
    rw [strand_of_le le_rfl, strand_of_le le_rfl, List.merge_right]
    rfl

theorem Punctual.bears (h : c.Punctual T) {u : ℕ} (hroom : Room c.hz T (u / c.second)) :
    c.Bears u := by
  have hle : ∀ {d : ℕ} {x : ℚ}, (d : ℚ) / c.second = T - x → T + u / c.second ≤ x + 1 →
      d + u ≤ c.second := fun {d x} hd hx => by
    have hsum : ((d + u : ℕ) : ℚ) / c.second ≤ 1 := by
      rw [Nat.cast_add, add_div, hd]
      linarith
    rw [div_le_one c.second_pos'] at hsum
    exact_mod_cast hsum
  exact ⟨hle h.processor hroom.1, hle h.timer hroom.2⟩

/-- What a punctual clock hands out after some more time is the rest of the timetable. -/
theorem Punctual.drain_accrue (h : c.Punctual T) (u : ℕ) :
    (timetable c.hz (T + u / c.second)).map Appointment.tick =
        (timetable c.hz T).map Appointment.tick ++ (c.accrue u).drain.1 ∧
      (c.accrue u).drain.2.Punctual (T + u / c.second) := by
  have hlater := h.onTime.accrue u
  have hpopped := hlater.popped_drain.symm
  refine ⟨hpopped, ?_⟩
  have htracks := hlater.drain.tracks
  obtain ⟨hp, ht⟩ := count_timetable c.hz (T + u / c.second)
  have hdrained : (History.drain
      { clock := c.accrue u, time := T + u / c.second,
        popped := (timetable c.hz T).map Appointment.tick }).popped =
      (timetable c.hz (T + u / c.second)).map Appointment.tick := hpopped.symm
  rw [hdrained, hp, ht] at htracks
  unfold Punctual
  rw [hz_drain]
  exact htracks

end Clock

end ChipEight
