import ChipEight.Keypad
import Mathlib.Tactic

/-!
# The key that went down last

A keypad counts the edges at which keys go down and remembers for each key the number of its last
one. Against this stands the history itself: `strikes p es` lists the keys that go from up to down
while the events `es` happen to the keypad `p`, read off from which keys are down before and after
each event. Asked which key went down since some moment, the keypad names the last of the list
(`downSince_follow`), and none if the list is empty.
-/

namespace ChipEight.Keypad

/-! ## Histories -/

/-- What can happen to a keypad. -/
inductive Event where
  | keyDown (code : UInt8)
  | keyUp (code : UInt8)
  | releaseAll
  deriving DecidableEq

/-- The keypad after an event; a code without a key changes nothing. -/
def apply (p : Keypad) : Event → Keypad
  | .keyDown code =>
    match p.keyDown code with
    | .ok q => q
    | .error _ => p
  | .keyUp code =>
    match p.keyUp code with
    | .ok q => q
    | .error _ => p
  | .releaseAll => p.releaseAll

def follow (p : Keypad) (es : List Event) : Keypad := es.foldl apply p

/-- The keys that are up on `p` and down on `q`. -/
def struck (p q : Keypad) : List Key :=
  (List.finRange 16).filter fun k => !p.isHeld k && q.isHeld k

/-- The keys that go from up to down while events happen, the earliest first. -/
def strikes (p : Keypad) : List Event → List Key
  | [] => []
  | e :: es => p.struck (p.apply e) ++ (p.apply e).strikes es

theorem strikes_append (p : Keypad) (es fs : List Event) :
    p.strikes (es ++ fs) = p.strikes es ++ (p.follow es).strikes fs := by
  induction es generalizing p with
  | nil => rfl
  | cons e es ih =>
    rw [List.cons_append, strikes, strikes, ih, List.append_assoc]
    rfl

/-! ## Codes -/

section Codes

variable {code : UInt8} {k : Key}

theorem ofCode_of_lt (h : code < 16) : ∃ k : Key, code.toNat = k ∧ Key.ofCode code = .ok k :=
  ⟨⟨code.toNat, h⟩, rfl, dif_pos h⟩

theorem ofCode_of_not_lt (h : ¬ code < 16) : Key.ofCode code = .error (.invalidKey code) :=
  dif_neg h

theorem apply_keyDown_of_ok (h : Key.ofCode code = .ok k) (p : Keypad) :
    p.apply (.keyDown code) = p.press k := by
  unfold apply keyDown
  dsimp only
  rw [h]
  rfl

theorem apply_keyUp_of_ok (h : Key.ofCode code = .ok k) (p : Keypad) :
    p.apply (.keyUp code) = p.release k := by
  unfold apply keyUp
  dsimp only
  rw [h]
  rfl

theorem keyDown_of_lt (h : code < 16) (p : Keypad) :
    p.keyDown code = .ok (p.apply (.keyDown code)) := by
  obtain ⟨k, -, hk⟩ := ofCode_of_lt h
  rw [apply_keyDown_of_ok hk]
  unfold keyDown
  rw [hk]
  rfl

theorem keyUp_of_lt (h : code < 16) (p : Keypad) :
    p.keyUp code = .ok (p.apply (.keyUp code)) := by
  obtain ⟨k, -, hk⟩ := ofCode_of_lt h
  rw [apply_keyUp_of_ok hk]
  unfold keyUp
  rw [hk]
  rfl

theorem keyDown_of_not_lt (h : ¬ code < 16) (p : Keypad) :
    p.keyDown code = .error (.invalidKey code) ∧ p.apply (.keyDown code) = p := by
  unfold apply keyDown
  dsimp only
  rw [ofCode_of_not_lt h]
  exact ⟨rfl, rfl⟩

theorem keyUp_of_not_lt (h : ¬ code < 16) (p : Keypad) :
    p.keyUp code = .error (.invalidKey code) ∧ p.apply (.keyUp code) = p := by
  unfold apply keyUp
  dsimp only
  rw [ofCode_of_not_lt h]
  exact ⟨rfl, rfl⟩

end Codes

variable {p q : Keypad} {k : Key} {mark : ℕ} {latest : Option Key} {e : Event}

/-! ## Keys and stamps after a move -/

theorem press_of_isHeld (hk : p.isHeld k = true) : p.press k = p := if_pos hk

theorem isHeld_press (p : Keypad) (k j : Key) :
    (p.press k).isHeld j = (decide (j = k) || p.isHeld j) := by
  rcases hk : p.isHeld k with _ | _
  · rw [press, hk, if_neg Bool.false_ne_true]
    unfold isHeld
    by_cases hj : j = k
    · subst hj
      simp
    · have hval : k.val ≠ j.val := fun h => hj (Fin.ext h.symm)
      simp [hval, hj]
  · rw [press_of_isHeld hk]
    by_cases hj : j = k
    · simp [hj, hk]
    · simp [hj]

theorem stamp_press (hk : p.isHeld k = false) (j : Key) :
    (p.press k).stamp j = if j = k then p.edges + 1 else p.stamp j := by
  rw [press, hk, if_neg Bool.false_ne_true]
  unfold stamp
  by_cases hj : j = k
  · subst hj
    simp
  · have hval : k.val ≠ j.val := fun h => hj (Fin.ext h.symm)
    simp [hval, hj]

theorem edges_press (hk : p.isHeld k = false) : (p.press k).edges = p.edges + 1 := by
  rw [press, hk, if_neg Bool.false_ne_true]

theorem isHeld_release (p : Keypad) (k j : Key) :
    (p.release k).isHeld j = (!decide (j = k) && p.isHeld j) := by
  show (p.held.set k false)[j] = (!decide (j = k) && p.held[j])
  by_cases hj : j = k
  · subst hj
    simp
  · have hval : k.val ≠ j.val := fun h => hj (Fin.ext h.symm)
    simp [hval, hj]

theorem isHeld_of_isHeld_release {j : Key} (h : (p.release k).isHeld j = true) :
    p.isHeld j = true := by
  rw [isHeld_release] at h
  exact (Bool.and_eq_true_iff.mp h).2

theorem isHeld_releaseAll (j : Key) : p.releaseAll.isHeld j = false := by
  show (Vector.replicate 16 false)[j] = false
  simp

/-! ## Which keys are struck -/

theorem struck_of_isHeld_le (h : ∀ k : Key, q.isHeld k = true → p.isHeld k = true) :
    p.struck q = [] := by
  rw [struck, List.filter_eq_nil_iff]
  intro k _ hk
  simp only [Bool.and_eq_true, Bool.not_eq_true'] at hk
  rw [h k hk.2] at hk
  exact Bool.noConfusion hk.1

theorem struck_press (hk : p.isHeld k = false) : p.struck (p.press k) = [k] := by
  have hnew : ∀ j : Key, (!p.isHeld j && (p.press k).isHeld j) = (j == k) := by
    intro j
    rw [isHeld_press]
    by_cases hj : j = k
    · subst hj
      simp [hk]
    · simp [hj]
  rw [struck, List.filter_congr fun j _ => hnew j, List.filter_beq,
    List.count_eq_one_of_mem (List.nodup_finRange 16) (List.mem_finRange k)]
  rfl

/-- An event is a key that goes down, or it leaves the stamps and the count of edges alone. -/
theorem apply_cases (p : Keypad) (e : Event) :
    (∃ k, p.isHeld k = false ∧ p.apply e = p.press k ∧ p.struck (p.apply e) = [k]) ∨
      ((∀ k, (p.apply e).stamp k = p.stamp k) ∧ (p.apply e).edges = p.edges ∧
        p.struck (p.apply e) = []) := by
  have same : p.struck p = [] := struck_of_isHeld_le fun _ h => h
  cases e with
  | keyDown code =>
    simp only [apply, keyDown]
    rcases Key.ofCode code with f | k
    · exact Or.inr ⟨fun _ => rfl, rfl, same⟩
    · show (∃ j, _ ∧ p.press k = _ ∧ p.struck (p.press k) = _) ∨
        (∀ j, (p.press k).stamp j = _) ∧ (p.press k).edges = _ ∧ p.struck (p.press k) = _
      rcases hk : p.isHeld k with _ | _
      · exact Or.inl ⟨k, hk, rfl, struck_press hk⟩
      · rw [press_of_isHeld hk]
        exact Or.inr ⟨fun _ => rfl, rfl, same⟩
  | keyUp code =>
    simp only [apply, keyUp]
    rcases Key.ofCode code with f | k
    · exact Or.inr ⟨fun _ => rfl, rfl, same⟩
    · exact Or.inr ⟨fun _ => rfl, rfl, struck_of_isHeld_le fun _ => isHeld_of_isHeld_release⟩
  | releaseAll =>
    refine Or.inr ⟨fun _ => rfl, rfl, struck_of_isHeld_le fun j hj => ?_⟩
    have hj' : p.releaseAll.isHeld j = true := hj
    rw [isHeld_releaseAll] at hj'
    cases hj'

/-! ## Stamps -/

/-- No key bears the number of an edge that is still to come. -/
def Stamped (p : Keypad) : Prop := ∀ k : Key, p.stamp k ≤ p.edges

/-- Since edge `mark` the key `latest` went down last, or none did. -/
structure Latest (p : Keypad) (mark : ℕ) (latest : Option Key) : Prop where
  stamped : p.Stamped
  mark_le : mark ≤ p.edges
  edges_le : latest = none → p.edges ≤ mark
  newest : ∀ k, latest = some k → mark < p.stamp k ∧ ∀ j, j ≠ k → p.stamp j < p.stamp k

theorem Stamped.latest_none (h : p.Stamped) : p.Latest p.edges none :=
  ⟨h, le_rfl, fun _ => le_rfl, fun _ hk => nomatch hk⟩

theorem Latest.apply (h : p.Latest mark latest) (e : Event) :
    (p.apply e).Latest mark ((p.struck (p.apply e)).getLast?.or latest) := by
  rcases apply_cases p e with ⟨k, hk, happly, hstruck⟩ | ⟨hstamp, hedges, hstruck⟩
  · -- The new stamp is above all others, and so the key that bears it is the newest.
    have hle := h.mark_le
    rw [hstruck, happly]
    refine ⟨fun j => ?_, ?_, fun hn => (nomatch hn), fun j hj => ?_⟩
    · have := h.stamped j
      rw [stamp_press hk, edges_press hk]
      split_ifs <;> omega
    · rw [edges_press hk]
      omega
    · obtain rfl : k = j := Option.some.inj hj
      rw [stamp_press hk, if_pos rfl]
      refine ⟨by omega, fun i hi => ?_⟩
      have := h.stamped i
      rw [stamp_press hk, if_neg hi]
      omega
  · have hlast : (p.struck (p.apply e)).getLast?.or latest = latest := by rw [hstruck]; rfl
    rw [hlast]
    refine ⟨fun j => ?_, ?_, fun hn => ?_, fun j hj => ?_⟩
    · rw [hstamp, hedges]
      exact h.stamped j
    · rw [hedges]
      exact h.mark_le
    · rw [hedges]
      exact h.edges_le hn
    · obtain ⟨hmark, hnew⟩ := h.newest j hj
      rw [hstamp]
      exact ⟨hmark, fun i hi => by rw [hstamp]; exact hnew i hi⟩

theorem Latest.follow : ∀ (es : List Event) {p : Keypad} {latest : Option Key},
    p.Latest mark latest → (p.follow es).Latest mark ((p.strikes es).getLast?.or latest) := by
  intro es
  induction es with
  | nil => intro p latest h; exact h
  | cons e es ih =>
    intro p latest h
    rw [strikes, List.getLast?_append, Option.or_assoc]
    exact ih (h.apply e)

theorem Stamped.follow (h : p.Stamped) (es : List Event) : (p.follow es).Stamped :=
  (Latest.follow es h.latest_none).stamped

theorem stamped_new : ({} : Keypad).Stamped := fun k => by
  show (Vector.replicate 16 0)[k] ≤ 0
  simp

/-! ## Asking the keypad -/

/-- Of the keys in a list, the one with the highest stamp is found. -/
theorem foldl_later (hnew : ∀ j : Key, j ≠ k → p.stamp j < p.stamp k) :
    ∀ (ks : List Key) {best : Option Key}, best = some k ∨ k ∈ ks →
      ks.foldl p.later best = some k := by
  intro ks
  induction ks with
  | nil =>
    rintro best (rfl | hk)
    · rfl
    · cases hk
  | cons i ks ih =>
    intro best hbest
    rw [List.foldl_cons]
    apply ih
    -- Key `k` is never given up once it is found, and it is found when its turn comes.
    rcases hbest with rfl | hk
    · left
      by_cases hi : i = k
      · subst hi
        simp [later]
      · have := hnew i hi
        simp only [later]
        rw [if_neg (by omega)]
    · rcases List.mem_cons.mp hk with rfl | hk
      · left
        rcases best with _ | b
        · rfl
        · by_cases hb : b = k
          · subst hb
            simp [later]
          · have := hnew b hb
            simp only [later]
            rw [if_pos (by omega)]
      · exact Or.inr hk

theorem Latest.downSince_eq (h : p.Latest mark latest) : p.downSince mark = latest := by
  rcases latest with _ | k
  · have hnil : (List.finRange 16).filter (fun k => mark < p.stamp k) = [] := by
      rw [List.filter_eq_nil_iff]
      intro k _ hk
      have := h.stamped k
      have := h.edges_le rfl
      have := of_decide_eq_true hk
      omega
    rw [downSince, hnil]
    rfl
  · obtain ⟨hmark, hnew⟩ := h.newest k rfl
    refine foldl_later hnew _ (Or.inr (List.mem_filter.mpr ⟨List.mem_finRange k, ?_⟩))
    exact decide_eq_true hmark

/-- **The keypad names the key that went down last.** Asked about an earlier moment, it answers with
the last key that has gone from up to down since, also if that key was let go again. -/
theorem downSince_follow (h : p.Stamped) (es : List Event) :
    (p.follow es).downSince p.edges = (p.strikes es).getLast? := by
  have := (Latest.follow es h.latest_none).downSince_eq
  rwa [Option.or_none] at this

theorem downSince_edges (h : p.Stamped) : p.downSince p.edges = none := downSince_follow h []

end ChipEight.Keypad
