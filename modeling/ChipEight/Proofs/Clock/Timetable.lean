import ChipEight.Clock
import Mathlib.Algebra.Order.Floor.Semiring
import Mathlib.Data.Rat.Floor
import Mathlib.Tactic

/-!
# The timetable

The ideal against which the clock is judged, in exact seconds and without debts: at `hz`
instructions a second the `k`-th instruction falls due at `k / hz` and the `j`-th count of the
timers at `j / 60`. `timetable hz T` lists everything due by the moment `T`, the earlier first and
the instruction first if two fall due together (`mem_timetable`, `pairwise_timetable`). A later
timetable only adds to an earlier one (`timetable_isPrefix`). How many ticks of either kind it holds
says `count_timetable`, and how many instructions come before a count `count_before_timer`.

`upcoming hz p t T` is what is left of it after `p` instructions and `t` counts.
-/

namespace ChipEight

/-- Two sorted lists may be merged piece by piece if nothing of a later piece belongs before
anything of an earlier one. -/
theorem merge_append_append {α : Type} {le : α → α → Bool} {xs' ys' : List α} :
    ∀ {xs ys : List α}, (∀ x ∈ xs, ∀ y ∈ ys', le x y) → (∀ y ∈ ys, ∀ x ∈ xs', ¬ le x y) →
      List.merge (xs ++ xs') (ys ++ ys') le = List.merge xs ys le ++ List.merge xs' ys' le := by
  intro xs
  induction xs with
  | nil =>
    intro ys _ hys
    rw [List.nil_append, List.nil_merge]
    induction ys with
    | nil => rfl
    | cons y ys ih =>
      have ih' := ih fun y' hy' => hys y' (List.mem_cons_of_mem y hy')
      rcases xs' with _ | ⟨x', xs'⟩
      · rw [List.nil_merge, List.nil_merge]
      · rw [List.cons_append, List.cons_merge_cons_neg _ _ _ (hys y (by simp) x' (by simp)), ih']
        rfl
  | cons x xs ihx =>
    intro ys hxs hys
    have hxs' : ∀ x' ∈ xs, ∀ y ∈ ys', le x' y := fun x' hx' => hxs x' (List.mem_cons_of_mem x hx')
    induction ys with
    | nil =>
      have ih := @ihx [] hxs' hys
      rw [List.nil_append, List.merge_right] at ih ⊢
      rcases ys' with _ | ⟨y', ys'⟩
      · rw [List.merge_right, List.merge_right]
      · rw [List.cons_append, List.cons_merge_cons_pos _ _ _ (hxs x (by simp) y' (by simp)), ih]
        rfl
    | cons y ys ihy =>
      rw [List.cons_append, List.cons_append]
      by_cases h : le x y = true
      · rw [List.cons_merge_cons_pos _ _ _ h, List.cons_merge_cons_pos _ _ _ h,
          ← List.cons_append, ihx hxs' hys]
        rfl
      · rw [List.cons_merge_cons_neg _ _ _ h, List.cons_merge_cons_neg _ _ _ h,
          ← List.cons_append, ihy fun y' hy' => hys y' (List.mem_cons_of_mem y hy')]
        rfl

/-- A tick with the moment at which it falls due, in seconds. -/
structure Appointment where
  tick : Tick
  due : ℚ
  deriving DecidableEq

namespace Appointment

/-- Falls due no later; decides which of two is handed out first. -/
def le (a b : Appointment) : Bool := decide (a.due ≤ b.due)

/-- The order of the timetable: by the moment, and of one moment the instruction first. -/
def Before (a b : Appointment) : Prop :=
  a.due < b.due ∨ a.due = b.due ∧ a.tick = .processor ∧ b.tick = .timer

theorem le_iff {a b : Appointment} : a.le b = true ↔ a.due ≤ b.due := decide_eq_true_iff

end Appointment

/-! ## One kind of tick -/

/-- The ticks of one kind with the numbers `p + 1` to `n`, of which `rate` fall due a second. -/
def strand (tick : Tick) (rate p n : ℕ) : List Appointment :=
  (List.range' (p + 1) (n - p)).map fun k : ℕ => ⟨tick, k / rate⟩

section Strand

variable {tick : Tick} {rate p m n : ℕ}

theorem strand_of_le (h : n ≤ p) : strand tick rate p n = [] := by
  unfold strand
  rw [Nat.sub_eq_zero_of_le h]
  rfl

theorem strand_of_lt (h : p < n) :
    strand tick rate p n = ⟨tick, ↑(p + 1) / rate⟩ :: strand tick rate (p + 1) n := by
  unfold strand
  rw [show n - p = n - (p + 1) + 1 by omega, List.range'_succ, List.map_cons]

theorem strand_append (hp : p ≤ m) (hn : m ≤ n) :
    strand tick rate p n = strand tick rate p m ++ strand tick rate m n := by
  unfold strand
  have h : List.range' (p + 1) (m - p) ++ List.range' (p + 1 + 1 * (m - p)) (n - m) =
      List.range' (p + 1) (m - p + (n - m)) := List.range'_append
  rw [show p + 1 + 1 * (m - p) = m + 1 by omega, show m - p + (n - m) = n - p by omega] at h
  rw [← h, List.map_append]

theorem mem_strand {a : Appointment} :
    a ∈ strand tick rate p n ↔ ∃ k : ℕ, p < k ∧ k ≤ n ∧ a = ⟨tick, k / rate⟩ := by
  unfold strand
  simp only [List.mem_map, List.mem_range'_1]
  constructor
  · rintro ⟨k, hk, rfl⟩
    exact ⟨k, by omega, by omega, rfl⟩
  · rintro ⟨k, hp, hn, rfl⟩
    exact ⟨k, by omega, rfl⟩

theorem map_tick_strand (tick : Tick) (rate p n : ℕ) :
    (strand tick rate p n).map Appointment.tick = List.replicate (n - p) tick := by
  unfold strand
  rw [List.map_map]
  exact List.map_const'.trans (by rw [List.length_range'])

end Strand

/-- A tick has fallen due by `T` exactly if its number is at most `⌊T * r⌋`. -/
theorem div_le_iff_le_floor {r k : ℕ} {T : ℚ} (hr : 0 < r) (hk : 0 < k) :
    (k : ℚ) / r ≤ T ↔ k ≤ ⌊T * r⌋₊ := by
  have hr' : (0 : ℚ) < r := by exact_mod_cast hr
  rw [div_le_iff₀ hr', Nat.le_floor_iff' hk.ne']

/-! ## Both kinds -/

/-- What is due by `T` after `p` instructions and `t` counts of the timers. -/
def upcoming (hz p t : ℕ) (T : ℚ) : List Appointment :=
  List.merge (strand .processor hz p ⌊T * hz⌋₊) (strand .timer 60 t ⌊T * 60⌋₊) Appointment.le

/-- Everything due by `T`. -/
def timetable (hz : ℕ) (T : ℚ) : List Appointment := upcoming hz 0 0 T

section Upcoming

variable {hz p t : ℕ} {T T' : ℚ}

theorem upcoming_eq_nil_iff (hz_pos : 0 < hz) :
    upcoming hz p t T = [] ↔ T < ↑(p + 1) / hz ∧ T < ↑(t + 1) / 60 := by
  have hp := div_le_iff_le_floor (T := T) hz_pos p.succ_pos
  have ht := div_le_iff_le_floor (r := 60) (T := T) (by norm_num) t.succ_pos
  unfold upcoming
  rw [← List.length_eq_zero_iff, List.length_merge]
  unfold strand
  rw [List.length_map, List.length_map, List.length_range', List.length_range', ← not_le, ← not_le,
    hp]
  push_cast at ht ⊢
  rw [ht]
  omega

theorem upcoming_of_processor (hz_pos : 0 < hz) (hp : (↑(p + 1) / hz : ℚ) ≤ T)
    (ht : (↑(p + 1) / hz : ℚ) ≤ ↑(t + 1) / 60) :
    upcoming hz p t T = ⟨.processor, ↑(p + 1) / hz⟩ :: upcoming hz (p + 1) t T := by
  have hp' := (div_le_iff_le_floor hz_pos p.succ_pos).mp hp
  unfold upcoming
  rw [strand_of_lt hp']
  by_cases h : t < ⌊T * 60⌋₊
  · rw [strand_of_lt h]
    exact List.cons_merge_cons_pos _ _ _ (Appointment.le_iff.mpr (by exact_mod_cast ht))
  · rw [strand_of_le (Nat.le_of_not_lt h), List.merge_right, List.merge_right]

theorem upcoming_of_timer (ht : (↑(t + 1) / 60 : ℚ) ≤ T)
    (hp : (↑(t + 1) / 60 : ℚ) < ↑(p + 1) / hz) :
    upcoming hz p t T = ⟨.timer, ↑(t + 1) / 60⟩ :: upcoming hz p (t + 1) T := by
  have ht' : t + 1 ≤ ⌊T * 60⌋₊ := by
    exact_mod_cast (div_le_iff_le_floor (r := 60) (by norm_num) t.succ_pos).mp
      (by exact_mod_cast ht)
  unfold upcoming
  rw [strand_of_lt ht']
  by_cases h : p < ⌊T * hz⌋₊
  · rw [strand_of_lt h]
    refine List.cons_merge_cons_neg _ _ _ fun hle => ?_
    have := Appointment.le_iff.mp hle
    exact absurd hp (not_lt.mpr (by exact_mod_cast this))
  · rw [strand_of_le (Nat.le_of_not_lt h), List.nil_merge, List.nil_merge]
    norm_num

/-- What is left holds the instructions and counts with higher numbers. -/
theorem mem_upcoming (hz_pos : 0 < hz) {a : Appointment} :
    a ∈ upcoming hz p t T ↔ a.due ≤ T ∧
      ((∃ k : ℕ, p < k ∧ a = ⟨.processor, k / hz⟩) ∨ ∃ j : ℕ, t < j ∧ a = ⟨.timer, j / 60⟩) := by
  have h60 : ⌊T * (60 : ℕ)⌋₊ = ⌊T * 60⌋₊ := by norm_num
  unfold upcoming
  rw [List.mem_merge, mem_strand, mem_strand]
  constructor
  · rintro (⟨k, hk, hkn, rfl⟩ | ⟨j, hj, hjn, rfl⟩)
    · exact ⟨(div_le_iff_le_floor hz_pos (by omega)).mpr hkn, Or.inl ⟨k, hk, rfl⟩⟩
    · exact ⟨(div_le_iff_le_floor (by norm_num) (by omega)).mpr (h60 ▸ hjn), Or.inr ⟨j, hj, rfl⟩⟩
  · rintro ⟨hT, ⟨k, hk, rfl⟩ | ⟨j, hj, rfl⟩⟩
    · exact Or.inl ⟨k, hk, (div_le_iff_le_floor hz_pos (by omega)).mp hT, rfl⟩
    · have h := (div_le_iff_le_floor (r := 60) (by norm_num) (by omega : 0 < j)).mp hT
      exact Or.inr ⟨j, hj, h60 ▸ h, rfl⟩

/-- Of what is left the first entry is the next instruction or the next count, whichever falls due
first, and the instruction if they fall due together. -/
theorem upcoming_cases (hz_pos : 0 < hz) (p t : ℕ) (T : ℚ) :
    upcoming hz p t T = [] ∨
      ((↑(p + 1) / hz : ℚ) ≤ ↑(t + 1) / 60 ∧
        upcoming hz p t T = ⟨.processor, ↑(p + 1) / hz⟩ :: upcoming hz (p + 1) t T) ∨
      ((↑(t + 1) / 60 : ℚ) < ↑(p + 1) / hz ∧
        upcoming hz p t T = ⟨.timer, ↑(t + 1) / 60⟩ :: upcoming hz p (t + 1) T) := by
  by_cases hnil : upcoming hz p t T = []
  · exact Or.inl hnil
  · have hdue := (upcoming_eq_nil_iff hz_pos).not.mp hnil
    rw [not_and_or, not_lt, not_lt] at hdue
    rcases le_or_gt (↑(p + 1) / hz : ℚ) (↑(t + 1) / 60) with hle | hlt
    · exact Or.inr (Or.inl ⟨hle, upcoming_of_processor hz_pos (hdue.elim id hle.trans) hle⟩)
    · exact Or.inr (Or.inr ⟨hlt, upcoming_of_timer (hdue.elim hlt.le.trans id) hlt⟩)

/-- What is left is in order: its first entry is before all others, and so on. -/
theorem pairwise_upcoming (hz_pos : 0 < hz) :
    ∀ (n : ℕ) {p t : ℕ}, (upcoming hz p t T).length = n →
      (upcoming hz p t T).Pairwise Appointment.Before := by
  have hz' : (0 : ℚ) < hz := by exact_mod_cast hz_pos
  have mono : ∀ {r : ℚ} {k l : ℕ}, 0 < r → k ≤ l → (k : ℚ) / r ≤ l / r := fun hr hkl =>
    (div_le_div_iff_of_pos_right hr).mpr (by exact_mod_cast hkl)
  have smono : ∀ {r : ℚ} {k l : ℕ}, 0 < r → k < l → (k : ℚ) / r < l / r := fun hr hkl =>
    (div_lt_div_iff_of_pos_right hr).mpr (by exact_mod_cast hkl)
  intro n
  induction n with
  | zero =>
    intro p t h
    rw [List.length_eq_zero_iff.mp h]
    exact List.Pairwise.nil
  | succ n ih =>
    intro p t h
    rcases upcoming_cases hz_pos p t T with hnil | ⟨hle, hstep⟩ | ⟨hlt, hstep⟩
    · rw [hnil]
      exact List.Pairwise.nil
    · rw [hstep, List.length_cons] at h
      rw [hstep]
      refine List.Pairwise.cons (fun b hb => ?_) (ih (Nat.succ.inj h))
      rcases ((mem_upcoming hz_pos).mp hb).2 with ⟨k, hk, rfl⟩ | ⟨j, hj, rfl⟩
      · exact Or.inl (smono hz' hk)
      · rcases (hle.trans (mono (by norm_num) hj)).lt_or_eq with hlt | heq
        · exact Or.inl hlt
        · exact Or.inr ⟨heq, rfl, rfl⟩
    · rw [hstep, List.length_cons] at h
      rw [hstep]
      refine List.Pairwise.cons (fun b hb => ?_) (ih (Nat.succ.inj h))
      rcases ((mem_upcoming hz_pos).mp hb).2 with ⟨k, hk, rfl⟩ | ⟨j, hj, rfl⟩
      · exact Or.inl (hlt.trans_le (mono hz' hk))
      · exact Or.inl (smono (by norm_num) hj)

/-- What falls due after `T` comes after everything that is due by `T`. -/
theorem upcoming_append (hz_pos : 0 < hz) (hp : p ≤ ⌊T * hz⌋₊) (ht : t ≤ ⌊T * 60⌋₊)
    (h : T ≤ T') :
    upcoming hz p t T' = upcoming hz p t T ++ upcoming hz ⌊T * hz⌋₊ ⌊T * 60⌋₊ T' := by
  have hhz : ⌊T * hz⌋₊ ≤ ⌊T' * hz⌋₊ :=
    Nat.floor_le_floor (mul_le_mul_of_nonneg_right h (by positivity))
  have h60 : ⌊T * 60⌋₊ ≤ ⌊T' * 60⌋₊ :=
    Nat.floor_le_floor (mul_le_mul_of_nonneg_right h (by norm_num))
  have h60' : ⌊T * (60 : ℕ)⌋₊ = ⌊T * 60⌋₊ := by norm_num
  unfold upcoming
  rw [strand_append hp hhz, strand_append ht h60]
  apply merge_append_append
  · intro x hx y hy
    obtain ⟨k, hk, hkn, rfl⟩ := mem_strand.mp hx
    obtain ⟨j, hj, -, rfl⟩ := mem_strand.mp hy
    have hkT := (div_le_iff_le_floor (T := T) hz_pos (by omega : 0 < k)).mpr hkn
    have hjT := (div_le_iff_le_floor (r := 60) (T := T) (by norm_num) (by omega : 0 < j)).not.mpr
      (by omega)
    exact Appointment.le_iff.mpr (hkT.trans (le_of_not_ge hjT))
  · intro y hy x hx
    obtain ⟨j, hj, hjn, rfl⟩ := mem_strand.mp hy
    obtain ⟨k, hk, -, rfl⟩ := mem_strand.mp hx
    have hkT := (div_le_iff_le_floor (T := T) hz_pos (by omega : 0 < k)).not.mpr (by omega)
    have hjT := (div_le_iff_le_floor (r := 60) (T := T) (by norm_num) (by omega : 0 < j)).mpr
      (by omega)
    exact fun hle => hkT ((Appointment.le_iff.mp hle).trans hjT)

/-- All that falls due and was not yet handed out is left. -/
theorem count_upcoming (hz p t : ℕ) (T : ℚ) :
    ((upcoming hz p t T).map Appointment.tick).count .processor = ⌊T * hz⌋₊ - p ∧
      ((upcoming hz p t T).map Appointment.tick).count .timer = ⌊T * 60⌋₊ - t := by
  have hperm : ((upcoming hz p t T).map Appointment.tick).Perm
      (List.replicate (⌊T * hz⌋₊ - p) .processor ++ List.replicate (⌊T * 60⌋₊ - t) .timer) := by
    rw [← map_tick_strand .processor hz, ← map_tick_strand .timer 60, ← List.map_append]
    exact (List.merge_perm_append _).map _
  rw [hperm.count_eq, hperm.count_eq]
  simp [List.count_replicate]

/-- Before a count of the timers comes every instruction that falls due no later, and no other. -/
theorem count_before_timer (hz_pos : 0 < hz) : ∀ (xs : List Tick) {ys : List Tick} {p t : ℕ},
    p * 60 ≤ (t + 1) * hz →
    (upcoming hz p t T).map Appointment.tick = xs ++ .timer :: ys →
    p + xs.count .processor = (t + xs.count .timer + 1) * hz / 60 := by
  have hz' : (0 : ℚ) < hz := by exact_mod_cast hz_pos
  have hle_iff : ∀ {p t : ℕ}, (↑(p + 1) / hz : ℚ) ≤ ↑(t + 1) / 60 ↔
      (p + 1) * 60 ≤ (t + 1) * hz := fun {p t} => by
    rw [div_le_div_iff₀ hz' (by norm_num)]
    exact_mod_cast Iff.rfl
  intro xs
  -- The invariant is that the instruction before falls due no later than the next count.
  induction xs with
  | nil =>
    intro ys p t hpt h
    rcases upcoming_cases hz_pos p t T with hnil | ⟨-, hstep⟩ | ⟨hlt, -⟩
    · rw [hnil] at h
      cases h
    · rw [hstep] at h
      cases h
    · have hlt' : (t + 1) * hz < (p + 1) * 60 := not_le.mp (hle_iff.not.mp (not_le.mpr hlt))
      exact (Nat.div_eq_of_lt_le hpt hlt').symm
  | cons x xs ih =>
    intro ys p t hpt h
    rcases upcoming_cases hz_pos p t T with hnil | ⟨hle, hstep⟩ | ⟨-, hstep⟩
    · rw [hnil] at h
      cases h
    · rw [hstep] at h
      obtain ⟨rfl, hrest⟩ := List.cons.inj h
      have hcount := ih (hle_iff.mp hle) hrest
      have hne : Tick.processor ≠ .timer := by decide
      rw [List.count_cons_self, List.count_cons_of_ne hne, ← hcount]
      omega
    · rw [hstep] at h
      obtain ⟨rfl, hrest⟩ := List.cons.inj h
      have hcount := ih (t := t + 1) (hpt.trans (Nat.mul_le_mul_right _ (Nat.le_succ _))) hrest
      have hne : Tick.timer ≠ .processor := by decide
      rw [List.count_cons_self, List.count_cons_of_ne hne, hcount, Nat.add_right_comm t,
        Nat.add_assoc t]

end Upcoming

/-! ## The whole timetable -/

section Timetable

variable {hz : ℕ} {T T' : ℚ}

theorem length_timetable : (timetable hz T).length = ⌊T * hz⌋₊ + ⌊T * 60⌋₊ := by
  unfold timetable upcoming strand
  rw [List.length_merge, List.length_map, List.length_map, List.length_range', List.length_range']
  rfl

theorem count_timetable (hz : ℕ) (T : ℚ) :
    ((timetable hz T).map Appointment.tick).count .processor = ⌊T * hz⌋₊ ∧
      ((timetable hz T).map Appointment.tick).count .timer = ⌊T * 60⌋₊ :=
  count_upcoming hz 0 0 T

/-- At the start nothing has fallen due. -/
theorem timetable_zero (hz : ℕ) : timetable hz 0 = [] := by
  rw [← List.length_eq_zero_iff, length_timetable]
  simp

/-- The timetable holds exactly the instructions and counts that fall due by `T`. -/
theorem mem_timetable (hz_pos : 0 < hz) {a : Appointment} :
    a ∈ timetable hz T ↔ a.due ≤ T ∧
      ((∃ k : ℕ, 0 < k ∧ a = ⟨.processor, k / hz⟩) ∨ ∃ j : ℕ, 0 < j ∧ a = ⟨.timer, j / 60⟩) :=
  mem_upcoming hz_pos

/-- The timetable is in order. -/
theorem pairwise_timetable (hz_pos : 0 < hz) : (timetable hz T).Pairwise Appointment.Before :=
  pairwise_upcoming hz_pos _ rfl

/-- A later timetable begins with the earlier one. -/
theorem timetable_isPrefix (hz_pos : 0 < hz) (h : T ≤ T') : timetable hz T <+: timetable hz T' :=
  ⟨_, (upcoming_append hz_pos (Nat.zero_le _) (Nat.zero_le _) h).symm⟩

end Timetable

end ChipEight
