import ChipEight.Picture
import Mathlib.Algebra.BigOperators.Ring.Finset
import Mathlib.Tactic

/-!
# Pictures laid over each other

`Picture.overlay` turns over, one after the other, the pixels that are lit in the pictures of a
list. A pixel comes out turned over if it is lit in an odd number of them (`pixel_overlay`), so it
matters neither in what order they come nor how often, but only whether a picture comes an even or
an odd number of times (`overlay_map_eq`).
-/

namespace ChipEight

/-- If every item comes an even number of times, so do those of any kind together. -/
theorem even_countP {α : Type} [DecidableEq α] {l : List α} (h : ∀ a, Even (l.count a))
    (q : α → Bool) : Even (l.countP q) := by
  rw [List.countP_eq_length_filter, ← List.sum_toFinset_count_eq_length, even_iff_two_dvd]
  refine Finset.dvd_sum fun a ha => even_iff_two_dvd.mp ?_
  have hq : q a = true := List.of_mem_filter (List.mem_toFinset.mp ha)
  rw [List.count_filter hq]
  exact h a

namespace Picture

variable {p : Picture}

theorem isBlank_eq_false_iff :
    p.isBlank = false ↔ ∃ x < width, ∃ y < height, p.pixel x y = true := by
  constructor
  · intro h
    by_contra hnone
    have hblank : p = blank := ext_pixel fun x y hx hy => by
      rw [pixel_blank]
      exact Bool.eq_false_iff.mpr fun hlit => hnone ⟨x, hx, y, hy, hlit⟩
    exact Bool.false_ne_true (h.symm.trans (isBlank_iff.mpr hblank))
  · rintro ⟨x, -, y, -, hlit⟩
    refine Bool.eq_false_iff.mpr fun h => ?_
    rw [isBlank_iff.mp h, pixel_blank] at hlit
    exact Bool.false_ne_true hlit

theorem xor_xor_cancel (p q : Picture) : (p.xor q).xor q = p :=
  ext_pixel fun x y _ _ => by rw [pixel_xor, pixel_xor, Bool.xor_assoc, Bool.xor_self, Bool.xor_false]

/-- A picture is another one once any of its pixels is turned over. -/
theorem xor_ne_self_iff {p q : Picture} : p.xor q ≠ p ↔ q.isBlank = false := by
  rw [isBlank_eq_false_iff]
  constructor
  · intro hne
    by_contra hnone
    refine hne (ext_pixel fun x y hx hy => ?_)
    have hdark : q.pixel x y = false := Bool.eq_false_iff.mpr fun hlit => hnone ⟨x, hx, y, hy, hlit⟩
    rw [pixel_xor, hdark, Bool.xor_false]
  · rintro ⟨x, -, y, -, hlit⟩ heq
    have hpixel : (p.xor q).pixel x y = p.pixel x y := by rw [heq]
    rw [pixel_xor, hlit, Bool.xor_true] at hpixel
    exact Bool.not_ne_self _ hpixel

theorem ite_isBlank {c : Prop} [Decidable c] (h : p.isBlank = false ↔ c) {α : Type} (a b : α) :
    (if p.isBlank then a else b) = if c then b else a := by
  rcases hp : p.isBlank with _ | _
  · rw [if_pos (h.mp hp)]
    rfl
  · rw [if_neg fun hc => Bool.false_ne_true ((h.mpr hc).symm.trans hp)]
    rfl

/-- Once a picture is laid over another, the two meet in the pixels that this lit. -/
theorem isBlank_xor_inter_eq_false_iff (p q : Picture) :
    ((p.xor q).inter q).isBlank = false ↔
      ∃ x < width, ∃ y < height, p.pixel x y = false ∧ (p.xor q).pixel x y = true := by
  have hpixel : ∀ x y, ((p.xor q).inter q).pixel x y = true ↔
      p.pixel x y = false ∧ (p.xor q).pixel x y = true := fun x y => by
    rw [pixel_inter, pixel_xor]
    cases p.pixel x y <;> cases q.pixel x y <;> decide
  simp only [isBlank_eq_false_iff, hpixel]

/-- The picture once the pixels of all the others are turned over. -/
def overlay (p : Picture) (qs : List Picture) : Picture := qs.foldl xor p

theorem pixel_overlay (p : Picture) (qs : List Picture) (x y : ℕ) :
    (p.overlay qs).pixel x y =
      Bool.xor (p.pixel x y) (decide (Odd (qs.countP fun q => q.pixel x y))) := by
  induction qs generalizing p with
  | nil => simp [overlay]
  | cons q qs ih =>
    have hcons : p.overlay (q :: qs) = (p.xor q).overlay qs := rfl
    rw [hcons, ih, pixel_xor, Bool.xor_assoc, List.countP_cons]
    rcases hq : q.pixel x y with _ | _
    · simp
    · simp [Nat.odd_add_one, -Nat.not_odd_iff_even]

/-- Two lists lay the same over a picture if every item comes an even number of times in both or an
odd number of times in both. -/
theorem overlay_map_eq {α : Type} [DecidableEq α] {l l' : List α}
    (h : ∀ a, Even (l.count a) ↔ Even (l'.count a)) (p : Picture) (f : α → Picture) :
    p.overlay (l.map f) = p.overlay (l'.map f) := by
  refine ext_pixel fun x y _ _ => ?_
  have hcount : ∀ a, Even ((l ++ l').count a) := fun a => by
    rw [List.count_append]
    exact Nat.even_add.mpr (h a)
  have hlit := even_countP hcount fun a => (f a).pixel x y
  rw [List.countP_append, Nat.even_add] at hlit
  have hodd : decide (Odd (l.countP fun a => (f a).pixel x y)) =
      decide (Odd (l'.countP fun a => (f a).pixel x y)) := by
    rw [decide_eq_decide, ← Nat.not_even_iff_odd, ← Nat.not_even_iff_odd, hlit]
  rw [pixel_overlay, pixel_overlay, List.countP_map, List.countP_map]
  exact congrArg (Bool.xor (p.pixel x y)) hodd

end Picture

end ChipEight
