import ChipEight.Keypad.Hold
import Mathlib.Tactic

/-!
# Keys that are let go on time

What has been seen of the held keys is a log: the presses and releases as they came, and each key
that was reported because its time had run out. By the log alone a key is due (`IsDue`) if the last
entry about it is a press that is long enough ago. Of all the presses in the log a `KeyHold` keeps
no more than one moment for each key; that this is enough is `due_follow`, and `expires_on_time`
says what comes of it.
-/

namespace ChipEight.KeyHold

/-! ## Histories -/

/-- What can happen to the held keys. -/
inductive Event where
  | press (code time : ℕ)
  | release (code : ℕ)
  | poll (now : ℕ)
  deriving DecidableEq

/-- What was seen of the held keys. -/
inductive Entry where
  | pressed (code time : ℕ)
  | released (code : ℕ)
  | reported (k : Key)
  deriving DecidableEq

/-- The key or code that an entry is about. -/
def Entry.code : Entry → ℕ
  | .pressed code _ => code
  | .released code => code
  | .reported k => k.val

def apply (h : KeyHold) : Event → KeyHold
  | .press code time => h.press code time
  | .release code => h.release code
  | .poll now => (h.expired now).2

def follow (h : KeyHold) (es : List Event) : KeyHold := es.foldl apply h

/-- What is seen of an event. -/
def entries (h : KeyHold) : Event → List Entry
  | .press code time => [.pressed code time]
  | .release code => [.released code]
  | .poll now => (h.expired now).1.map .reported

/-- What is seen of events, the earliest first. -/
def log (h : KeyHold) : List Event → List Entry
  | [] => []
  | e :: es => h.entries e ++ (h.apply e).log es

/-- The last entry about a key. -/
def latest (l : List Entry) (k : Key) : Option Entry := (l.filter (·.code == k.val)).getLast?

/-- The last entry about a key is a press at least 150 milliseconds ago. -/
def IsDue (l : List Entry) (k : Key) (now : ℕ) : Prop :=
  ∃ p, latest l k = some (.pressed k.val p) ∧ p + length ≤ now

variable {h : KeyHold} {k : Key} {code now t : ℕ} {e : Event} {es : List Event}
  {l : List Entry}

theorem follow_append (h : KeyHold) (es fs : List Event) :
    h.follow (es ++ fs) = (h.follow es).follow fs := List.foldl_append

theorem log_append (h : KeyHold) (es fs : List Event) :
    h.log (es ++ fs) = h.log es ++ (h.follow es).log fs := by
  induction es generalizing h with
  | nil => rfl
  | cons e es ih =>
    rw [List.cons_append, log, log, ih, List.append_assoc]
    rfl

theorem latest_append (l l' : List Entry) (k : Key) :
    latest (l ++ l') k = (latest l' k).or (latest l k) := by
  rw [latest, List.filter_append, List.getLast?_append]
  rfl

theorem latest_singleton (a : Entry) (k : Key) :
    latest [a] k = if a.code = k.val then some a else none := by
  by_cases hk : a.code = k.val <;> simp [latest, hk]

theorem code_of_latest {a : Entry} (ha : latest l k = some a) : a ∈ l ∧ a.code = k.val := by
  obtain ⟨hmem, hcode⟩ := List.mem_filter.mp (List.mem_of_getLast? ha)
  exact ⟨hmem, beq_iff_eq.mp hcode⟩

/-- Of the keys that a poll reports, each has the report as its last entry, and no other has any. -/
theorem latest_reported (ks : List Key) (k : Key) :
    latest (ks.map .reported) k = if k ∈ ks then some (.reported k) else none := by
  rcases hlatest : latest (ks.map .reported) k with _ | a
  · have hnone : ¬ k ∈ ks := fun hk => by
      have hfilter := List.getLast?_eq_none_iff.mp hlatest
      have hmem : Entry.reported k ∈ (ks.map .reported).filter (·.code == k.val) :=
        List.mem_filter.mpr ⟨List.mem_map_of_mem hk, beq_self_eq_true _⟩
      rw [hfilter] at hmem
      cases hmem
    rw [if_neg hnone]
  · obtain ⟨hmem, hcode⟩ := code_of_latest hlatest
    obtain ⟨j, hj, rfl⟩ := List.mem_map.mp hmem
    obtain rfl : j = k := Fin.ext hcode
    rw [if_pos hj]

/-! ## The moments at which keys are due -/

theorem get_setDue (h : KeyHold) (code : ℕ) (t : Option ℕ) (k : Key) :
    (h.setDue code t).due.get k = if code = k.val then t else h.due.get k := by
  unfold setDue
  split_ifs with hcode hk hk
  · exact (Vector.getElem_set hcode k.isLt).trans (if_pos hk)
  · exact (Vector.getElem_set hcode k.isLt).trans (if_neg hk)
  · exact absurd (hk ▸ k.isLt) hcode
  · rfl

theorem setDue_of_le (h : KeyHold) (hcode : 16 ≤ code) (t : Option ℕ) : h.setDue code t = h :=
  dif_neg (Nat.not_lt.mpr hcode)

theorem isExpired_iff (h : KeyHold) (now : ℕ) (k : Key) :
    h.isExpired now k = true ↔ ∃ d, h.due.get k = some d ∧ d ≤ now := by
  unfold isExpired
  rcases h.due.get k with _ | d
  · simp
  · simp

theorem mem_expired_iff (h : KeyHold) (now : ℕ) (k : Key) :
    k ∈ (h.expired now).1 ↔ ∃ d, h.due.get k = some d ∧ d ≤ now := by
  rw [← isExpired_iff]
  exact List.mem_filter.trans (and_iff_right (List.mem_finRange k))

theorem get_expired (h : KeyHold) (now : ℕ) (k : Key) :
    (h.expired now).2.due.get k = if k ∈ (h.expired now).1 then none else h.due.get k := by
  have hget : (h.expired now).2.due.get k =
      if h.isExpired now k = true then none else h.due.get k := Vector.getElem_ofFn k.isLt
  rw [hget]
  exact if_congr ((isExpired_iff h now k).trans (mem_expired_iff h now k).symm) rfl rfl

/-- When a key is due after the last entry about it. -/
def deadline : Option Entry → Option ℕ
  | some (.pressed _ p) => some (p + length)
  | _ => none

/-- An event leaves a key due as what is seen of it says, or as it was if nothing is. -/
theorem get_apply (h : KeyHold) (e : Event) (k : Key) :
    (h.apply e).due.get k =
      (latest (h.entries e) k).elim (h.due.get k) fun a => deadline (some a) := by
  cases e with
  | press code time =>
    rw [entries, latest_singleton, Entry.code]
    refine (get_setDue h code _ k).trans ?_
    split_ifs <;> rfl
  | release code =>
    rw [entries, latest_singleton, Entry.code]
    refine (get_setDue h code _ k).trans ?_
    split_ifs <;> rfl
  | poll now =>
    rw [entries, latest_reported]
    refine (get_expired h now k).trans ?_
    split_ifs <;> rfl

/-- The moment that is kept for a key is the one that the log says. -/
theorem due_follow (es : List Event) (k : Key) :
    (({} : KeyHold).follow es).due.get k = deadline (latest (({} : KeyHold).log es) k) := by
  induction es using List.reverseRecOn with
  | nil => exact Vector.getElem_replicate k.isLt
  | append_singleton es e ih =>
    rw [follow_append, log_append, latest_append]
    show ((({} : KeyHold).follow es).apply e).due.get k = _
    have hone : (({} : KeyHold).follow es).log [e] = (({} : KeyHold).follow es).entries e :=
      List.append_nil _
    rw [get_apply, hone, ih]
    rcases latest ((({} : KeyHold).follow es).entries e) k with _ | a <;> rfl

theorem deadline_eq_some_iff {d : ℕ} :
    deadline (latest l k) = some d ↔
      ∃ p, latest l k = some (.pressed k.val p) ∧ p + length = d := by
  constructor
  · intro hd
    rcases hlatest : latest l k with _ | ⟨code, p⟩ | code | j
    · rw [hlatest] at hd
      cases hd
    · obtain rfl : code = k.val := (code_of_latest hlatest).2
      rw [hlatest] at hd
      exact ⟨p, rfl, Option.some.inj hd⟩
    · rw [hlatest] at hd
      cases hd
    · rw [hlatest] at hd
      cases hd
  · rintro ⟨p, hp, rfl⟩
    rw [hp]
    rfl

theorem mem_expired_follow_iff (es : List Event) (now : ℕ) (k : Key) :
    k ∈ ((({} : KeyHold).follow es).expired now).1 ↔ IsDue (({} : KeyHold).log es) k now := by
  simp only [mem_expired_iff, due_follow, deadline_eq_some_iff]
  constructor
  · rintro ⟨-, ⟨p, hp, rfl⟩, hle⟩
    exact ⟨p, hp, hle⟩
  · rintro ⟨p, hp, hle⟩
    exact ⟨_, ⟨p, hp, rfl⟩, hle⟩

theorem pairwise_expired (h : KeyHold) (now : ℕ) : (h.expired now).1.Pairwise (· < ·) :=
  List.Pairwise.filter _ (List.sortedLT_finRange 16).pairwise

/-! ## After a press, and without one -/

/-- The event is a press of the key. -/
def Event.Presses (k : Key) : Event → Prop
  | .press code _ => code = k.val
  | .release _ | .poll _ => False

/-- The event is about the key, or a poll at which a key due at `d` is reported. -/
def Event.Disturbs (k : Key) (d : ℕ) : Event → Prop
  | .press code _ | .release code => code = k.val
  | .poll now => d ≤ now

theorem get_apply_of_none (hnone : h.due.get k = none) (he : ¬ e.Presses k) :
    (h.apply e).due.get k = none := by
  cases e with
  | press code time => exact (get_setDue h code _ k).trans ((if_neg he).trans hnone)
  | release code =>
    refine (get_setDue h code none k).trans ?_
    rw [hnone, ite_self]
  | poll now =>
    refine (get_expired h now k).trans ?_
    rw [hnone, ite_self]

/-- A key that is not held is not reported before it is pressed. -/
theorem not_mem_expired_of_none {later : List Event} (hnone : h.due.get k = none)
    (hlater : ∀ e ∈ later, ¬ e.Presses k) (now : ℕ) : k ∉ ((h.follow later).expired now).1 := by
  induction later generalizing h with
  | nil =>
    rw [mem_expired_iff]
    show ¬ ∃ d, h.due.get k = some d ∧ d ≤ now
    rw [hnone]
    rintro ⟨d, hd, -⟩
    cases hd
  | cons e later ih =>
    obtain ⟨he, hlater⟩ := List.forall_mem_cons.mp hlater
    exact ih (get_apply_of_none hnone he) hlater

theorem get_apply_of_some {d : ℕ} (hsome : h.due.get k = some d) (he : ¬ e.Disturbs k d) :
    (h.apply e).due.get k = some d := by
  cases e with
  | press code time => exact (get_setDue h code _ k).trans ((if_neg he).trans hsome)
  | release code => exact (get_setDue h code none k).trans ((if_neg he).trans hsome)
  | poll now =>
    refine (get_expired h now k).trans ((if_neg fun hmem => ?_).trans hsome)
    obtain ⟨d', hd', hle⟩ := (mem_expired_iff h now k).mp hmem
    obtain rfl := Option.some.inj (hsome.symm.trans hd')
    exact he hle

/-- A key that is held is reported when it is due, if nothing happens to it before. -/
theorem mem_expired_iff_of_some {d : ℕ} {later : List Event} (hsome : h.due.get k = some d)
    (hlater : ∀ e ∈ later, ¬ e.Disturbs k d) (now : ℕ) :
    k ∈ ((h.follow later).expired now).1 ↔ d ≤ now := by
  induction later generalizing h with
  | nil =>
    rw [mem_expired_iff]
    show (∃ d', h.due.get k = some d' ∧ d' ≤ now) ↔ d ≤ now
    simp [hsome]
  | cons e later ih =>
    obtain ⟨he, hlater⟩ := List.forall_mem_cons.mp hlater
    exact ih (get_apply_of_some hsome he) hlater

/-- **Holds expire once and on time.** After any history a poll reports the keys that are due by the
log, in ascending order and none of them twice. So a key that was pressed, for the first time or
again, and left alone since, is reported at the first poll that comes 150 milliseconds later; a key
that was released or reported is not reported before it is pressed again; and a code without a key
changes nothing. -/
theorem expires_on_time (es : List Event) (now : ℕ) :
    let new : KeyHold := {}
    let h := new.follow es
    (h.expired now).1.Pairwise (· < ·) ∧
    (∀ k, k ∈ (h.expired now).1 ↔ IsDue (new.log es) k now) ∧
    (∀ (k : Key) (t : ℕ) (later : List Event), (∀ e ∈ later, ¬ e.Disturbs k (t + length)) →
      ∀ now', k ∈ ((new.follow (es ++ .press k.val t :: later)).expired now').1 ↔
        t + length ≤ now') ∧
    (∀ (k : Key) (later : List Event), (∀ e ∈ later, ¬ e.Presses k) → ∀ now',
      k ∉ ((new.follow (es ++ .release k.val :: later)).expired now').1 ∧
      (k ∈ (h.expired now).1 → k ∉ ((new.follow (es ++ .poll now :: later)).expired now').1)) ∧
    ∀ code ≥ 16, ∀ t, h.press code t = h ∧ h.release code = h := by
  intro new h
  have hcons : ∀ (e : Event) (later : List Event),
      new.follow (es ++ e :: later) = (h.apply e).follow later := fun e later => by
    rw [follow_append]
    rfl
  refine ⟨pairwise_expired h now, mem_expired_follow_iff es now, fun k t later hlater now' => ?_,
    fun k later hlater now' => ⟨?_, fun hmem => ?_⟩, fun code hcode t => ?_⟩
  · have hpressed : (h.apply (.press k.val t)).due.get k = some (t + length) :=
      (get_setDue h k.val _ k).trans (if_pos rfl)
    rw [hcons]
    exact mem_expired_iff_of_some hpressed hlater now'
  · have hreleased : (h.apply (.release k.val)).due.get k = none :=
      (get_setDue h k.val none k).trans (if_pos rfl)
    rw [hcons]
    exact not_mem_expired_of_none hreleased hlater now'
  · have hreported : (h.apply (.poll now)).due.get k = none :=
      (get_expired h now k).trans (if_pos hmem)
    rw [hcons]
    exact not_mem_expired_of_none hreported hlater now'
  · exact ⟨setDue_of_le h hcode _, setDue_of_le h hcode none⟩

/-- Two keys and a code without one are pressed; then one key is let go, and the other is pressed
again by a clock that was set back. Its second press alone decides, to the nanosecond, when it is
reported, once. -/
theorem expires_on_time_repeat :
    let new : KeyHold := {}
    let es : List Event := [.press 5 1000, .press 9 2000, .press 77 0, .release 9, .press 5 500]
    let later : List Event := [.press 9 0, .poll 150000499]
    (∀ e ∈ later, ¬ e.Disturbs 5 (500 + length)) ∧ (∀ e ∈ later, ¬ e.Presses 5) ∧
      ((new.follow es).expired 150000500).1.Pairwise (· < ·) ∧
      5 ∉ ((new.follow es).expired 150000499).1 ∧
      5 ∈ ((new.follow es).expired 150000500).1 ∧ IsDue (new.log es) 5 150000500 ∧
      5 ∈ ((new.follow (es ++ .press 5 500 :: later)).expired 150000500).1 ∧
      5 ∉ ((new.follow (es ++ .poll 150000500 :: later)).expired 400000000).1 ∧
      9 ∉ ((new.follow (es ++ .release 9 :: [])).expired 400000000).1 ∧
      77 ≥ 16 ∧ (new.follow es).press 77 0 = new.follow es := by
  intro new es later
  have hleft : ∀ e ∈ later, ¬ e.Disturbs 5 (500 + length) := by
    simp [later, Event.Disturbs, length]
  have hlater : ∀ e ∈ later, ¬ e.Presses 5 := by simp [later, Event.Presses]
  have hmem : 5 ∈ ((new.follow es).expired 150000500).1 := by decide
  have hearly : 5 ∉ ((new.follow es).expired 150000499).1 := by decide
  obtain ⟨hascending, hdue, hpress, hrest, hcode⟩ := expires_on_time es 150000500
  have hpressed := hpress 5 500 later hleft 150000500
  have hreported := (hrest 5 later hlater 400000000).2
  have hreleased := (hrest 9 [] (by simp) 400000000).1
  exact ⟨hleft, hlater, hascending, hearly, hmem, (hdue 5).mp hmem, hpressed.mpr (by decide),
    hreported hmem, hreleased, by decide, (hcode 77 (by decide) 0).1⟩

end ChipEight.KeyHold
