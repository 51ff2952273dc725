import ChipEight.Proofs.Keypad.Strikes

/-!
# The keypad as a digest of its history

A keypad keeps two flags and numbers for each key, however much has happened to it. What has
happened is a list of events, and what there is to know can be read off that list without a keypad:
whether a key is down (`isDownAfter`) and which keys went from up to down, in order
(`transitionsAfter`).

A keypad that followed the list knows the same (`isHeld_follow`, `strikes_follow`, `edges_follow`),
and a code without a key leaves no trace: `digest_of_history`.
-/

namespace ChipEight.Keypad

/-! ## What a history says -/

/-- Whether an event leaves a key down or up, if it affects the key at all. -/
def Event.leaves (k : Key) : Event → Option Bool
  | .keyDown code => if code.toNat = k then some true else none
  | .keyUp code => if code.toNat = k then some false else none
  | .releaseAll => some false

/-- A key is down if the last event that affected it left it down. -/
def isDownAfter (es : List Event) (k : Key) : Bool :=
  (es.filterMap (Event.leaves k)).getLast? == some true

/-- The keys that are up after one history and down after another. -/
def newlyDown (es fs : List Event) : List Key :=
  (List.finRange 16).filter fun k => !isDownAfter es k && isDownAfter fs k

/-- The keys that go from up to down while events happen, the earliest first; `past` is what has
happened before. -/
def transitionsAfter (past : List Event) : List Event → List Key
  | [] => []
  | e :: es => newlyDown past (past ++ [e]) ++ transitionsAfter (past ++ [e]) es

/-- The last event decides about the keys that it affects and leaves the others as they were. -/
theorem isDownAfter_concat (past : List Event) (e : Event) (k : Key) :
    isDownAfter (past ++ [e]) k = (e.leaves k).getD (isDownAfter past k) := by
  unfold isDownAfter
  rw [List.filterMap_append]
  rcases h : e.leaves k with _ | down
  · simp [h]
  · simp [h]

/-! ## A keypad that followed the history -/

variable {p : Keypad} {k : Key} {past : List Event}

theorem toNat_ne_of_not_lt {code : UInt8} (h : ¬ code < 16) (k : Key) : code.toNat ≠ k := by
  intro heq
  have hlt : code.toNat < 16 := heq ▸ k.isLt
  exact h hlt

theorem isHeld_apply (p : Keypad) (e : Event) (k : Key) :
    (p.apply e).isHeld k = (e.leaves k).getD (p.isHeld k) := by
  cases e with
  | keyDown code =>
    show _ = (if code.toNat = k then some true else none).getD _
    by_cases h : code < 16
    · obtain ⟨j, hj, hcode⟩ := ofCode_of_lt h
      rw [apply_keyDown_of_ok hcode, isHeld_press, hj]
      by_cases hk : k = j
      · simp [hk]
      · simp [hk, Fin.val_inj, Ne.symm hk]
    · rw [(keyDown_of_not_lt h p).2, if_neg (toNat_ne_of_not_lt h k)]
      rfl
  | keyUp code =>
    show _ = (if code.toNat = k then some false else none).getD _
    by_cases h : code < 16
    · obtain ⟨j, hj, hcode⟩ := ofCode_of_lt h
      rw [apply_keyUp_of_ok hcode, isHeld_release, hj]
      by_cases hk : k = j
      · simp [hk]
      · simp [hk, Fin.val_inj, Ne.symm hk]
    · rw [(keyUp_of_not_lt h p).2, if_neg (toNat_ne_of_not_lt h k)]
      rfl
  | releaseAll => exact isHeld_releaseAll k

/-- The keys that are down are those that the history left down. -/
theorem isHeld_follow_of_past : ∀ (es : List Event) {past : List Event} {p : Keypad},
    (∀ k, p.isHeld k = isDownAfter past k) →
    ∀ k, (p.follow es).isHeld k = isDownAfter (past ++ es) k := by
  intro es
  induction es with
  | nil =>
    intro past p h k
    rw [List.append_nil]
    exact h k
  | cons e es ih =>
    intro past p h k
    have hstep : ∀ k, (p.apply e).isHeld k = isDownAfter (past ++ [e]) k := fun k => by
      rw [isHeld_apply, isDownAfter_concat, h]
    rw [List.append_cons]
    exact ih hstep k

theorem isHeld_follow (es : List Event) (k : Key) :
    (({} : Keypad).follow es).isHeld k = isDownAfter es k := by
  have hnew : ∀ k, ({} : Keypad).isHeld k = isDownAfter [] k := isHeld_releaseAll (p := {})
  exact isHeld_follow_of_past es hnew k

/-- The keys that go down on the keypad are those that go down by the history. -/
theorem strikes_follow : ∀ (es past : List Event),
    (({} : Keypad).follow past).strikes es = transitionsAfter past es := by
  intro es
  induction es with
  | nil => exact fun past => rfl
  | cons e es ih =>
    intro past
    have happly : (({} : Keypad).follow past).apply e = ({} : Keypad).follow (past ++ [e]) := by
      unfold follow
      rw [List.foldl_append]
      rfl
    have hstruck : (({} : Keypad).follow past).struck (({} : Keypad).follow (past ++ [e])) =
        newlyDown past (past ++ [e]) := by
      unfold struck newlyDown
      exact List.filter_congr fun k _ => by rw [isHeld_follow, isHeld_follow]
    rw [strikes, transitionsAfter, happly, hstruck, ih]

/-- Every edge that is counted is a key that goes down. -/
theorem edges_follow : ∀ (es : List Event) (p : Keypad),
    (p.follow es).edges = p.edges + (p.strikes es).length := by
  intro es
  induction es with
  | nil => exact fun p => rfl
  | cons e es ih =>
    intro p
    have hstep : (p.apply e).edges = p.edges + (p.struck (p.apply e)).length := by
      rcases apply_cases p e with ⟨k, hk, happly, hstruck⟩ | ⟨-, hedges, hstruck⟩
      · rw [hstruck, happly, edges_press hk]
        rfl
      · rw [hstruck, hedges]
        rfl
    show ((p.apply e).follow es).edges = _
    rw [ih, hstep, strikes, List.length_append, Nat.add_assoc]

/-- A code is down if it is that of a key and the key is down. -/
theorem isDown_eq_true_iff (p : Keypad) (code : UInt8) :
    p.isDown code = true ↔ ∃ k : Key, code.toNat = k ∧ p.isHeld k = true := by
  unfold isDown
  constructor
  · intro h
    split_ifs at h with hlt
    exact ⟨⟨code.toNat, hlt⟩, rfl, h⟩
  · rintro ⟨k, hk, hheld⟩
    have hlt : code.toNat < 16 := hk ▸ k.isLt
    have heq : k = ⟨code.toNat, hlt⟩ := Fin.ext hk.symm
    rw [dif_pos hlt]
    rw [heq] at hheld
    exact hheld

/-- **A keypad is a digest of its history.** Whatever happened to a new keypad, with codes of every
kind: a code is down exactly if it is that of a key and the last event that affected the key was
that it went down; as many edges are counted as keys went from up to down; and asked about an
earlier moment, the keypad names the key that went down last since then, also if it was let go, or
none if none did. A report with a code that no key has is refused and changes nothing, and any other
is accepted. -/
theorem digest_of_history (past later : List Event) :
    let p := ({} : Keypad).follow past
    let q := p.follow later
    (∀ code, q.isDown code = true ↔
      ∃ k : Key, code.toNat = k ∧ isDownAfter (past ++ later) k = true) ∧
    q.edges = (transitionsAfter [] (past ++ later)).length ∧
    q.downSince p.edges = (transitionsAfter past later).getLast? ∧
    (∀ code < 16, q.keyDown code = .ok (q.follow [.keyDown code]) ∧
      q.keyUp code = .ok (q.follow [.keyUp code])) ∧
    ∀ code ≥ 16, q.keyDown code = .error (.invalidKey code) ∧ q.follow [.keyDown code] = q ∧
      q.keyUp code = .error (.invalidKey code) ∧ q.follow [.keyUp code] = q := by
  intro p q
  have hq : q = ({} : Keypad).follow (past ++ later) := List.foldl_append.symm
  refine ⟨fun code => ?_, ?_, ?_, fun code hcode => ?_, fun code hcode => ?_⟩
  · rw [isDown_eq_true_iff, hq]
    simp only [isHeld_follow]
  · rw [hq, edges_follow, ← strikes_follow]
    exact Nat.zero_add _
  · rw [← strikes_follow]
    exact downSince_follow (stamped_new.follow past) later
  · exact ⟨keyDown_of_lt hcode q, keyUp_of_lt hcode q⟩
  · obtain ⟨hdown, hsame⟩ := keyDown_of_not_lt (Nat.not_lt.mpr hcode) q
    obtain ⟨hup, hsame'⟩ := keyUp_of_not_lt (Nat.not_lt.mpr hcode) q
    exact ⟨hdown, hsame, hup, hsame'⟩

/-- A key held from before the moment, another one tapped twice, and a code without a key; then all
are let go and one goes down again. -/
theorem digest_of_history_taps :
    let past : List Event := [.keyDown 3, .keyDown 7, .keyUp 7]
    let later : List Event :=
      [.keyDown 3, .keyDown 7, .keyDown 77, .keyUp 7, .keyDown 7, .releaseAll, .keyDown 3, .keyUp 3]
    let p := ({} : Keypad).follow past
    let q := p.follow later
    transitionsAfter past later = [7, 7, 3] ∧ q.downSince p.edges = some 3 ∧ q.edges = 5 ∧
      q.isDown 3 = false ∧ (77 : UInt8) ≥ 16 ∧ q.keyDown 77 = .error (.invalidKey 77) := by
  intro past later p q
  have hcode : (77 : UInt8) ≥ 16 := by decide
  have htransitions : transitionsAfter past later = [7, 7, 3] := by decide
  obtain ⟨hdown, hedges, hsince, -, hrefused⟩ := digest_of_history past later
  refine ⟨htransitions, ?_, ?_, ?_, hcode, (hrefused 77 hcode).1⟩
  · rw [hsince, htransitions]
    rfl
  · rw [hedges]
    decide
  · rw [Bool.eq_false_iff, ne_eq, hdown 3]
    decide

end ChipEight.Keypad
