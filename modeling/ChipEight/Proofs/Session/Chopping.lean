import ChipEight.Proofs.Session.Running
import ChipEight.Proofs.Session.Transcript

/-!
# Chopping time

A host may report the time that passes in any pieces. As long as nothing is cut off
(`Session.Unstalled`), only two things matter: at which moments it reported its keys
(`keyMoments`) and how much time passed in all (`totalTime`).

1. Time that is owed while ticks are handed out comes after them (`catchUp_accrue`), so letting two
   spans pass is letting their sum pass (`live_add`), also if a fault ends the run in between.
2. Every list of reports amounts to `play`: live up to the moment of the next key, report it, and
   so on to the end (`calls_eq_play`).
3. Two lists with the same moments and the same end lead to the same session, host and all
   (`calls_eq_of_keyMoments_eq`).
-/

namespace ChipEight

/-! ## Lists of reports -/

/-- Reports a key or that time passed. -/
def Call.isReport : Call → Bool
  | .advance _ => true
  | c => c.isKey

/-- The reports of keys in a list, with the nanoseconds that had passed; the count starts at
`now`. -/
def keyMoments (now : ℕ) : List Call → List (ℕ × Call)
  | [] => []
  | .advance ns :: cs => keyMoments (now + ns) cs
  | c :: cs => (now, c) :: keyMoments now cs

/-- The nanoseconds that pass in a list of reports. -/
def totalTime : List Call → ℕ
  | [] => 0
  | .advance ns :: cs => ns + totalTime cs
  | _ :: cs => totalTime cs

theorem keyMoments_of_isKey {c : Call} (h : c.isKey = true) (now : ℕ) (cs : List Call) :
    keyMoments now (c :: cs) = (now, c) :: keyMoments now cs := by
  cases c <;> first | rfl | cases h

theorem totalTime_of_isKey {c : Call} (h : c.isKey = true) (cs : List Call) :
    totalTime (c :: cs) = totalTime cs := by
  cases c <;> first | rfl | cases h

theorem isReport_cases {c : Call} (h : c.isReport = true) :
    (∃ ns, c = .advance ns) ∨ c.isKey = true := by
  cases c <;> first | exact Or.inl ⟨_, rfl⟩ | exact Or.inr h

theorem le_of_mem_keyMoments : ∀ {cs : List Call} {now : ℕ} {m : ℕ × Call},
    (∀ c ∈ cs, c.isReport = true) → m ∈ keyMoments now cs → now ≤ m.1 := by
  intro cs
  induction cs with
  | nil => intro now m _ hm; cases hm
  | cons c cs ih =>
    intro now m h hm
    have hcs : ∀ c ∈ cs, c.isReport = true := fun c hc => h c (List.mem_cons_of_mem _ hc)
    rcases isReport_cases (h c List.mem_cons_self) with ⟨ns, rfl⟩ | hk
    · exact (Nat.le_add_right _ _).trans (ih hcs hm)
    · rw [keyMoments_of_isKey hk] at hm
      rcases List.mem_cons.mp hm with rfl | hm
      · exact le_rfl
      · exact ih hcs hm

namespace Session

variable {σ : Type} [Host σ]

/-! ## Calls that cut nothing off -/

/-- A call does not bring a debt of a running session above one second. -/
def Bears (s : Session σ) : Call → Prop
  | .advance ns => s.running = true → s.clock.Bears (ns * s.clock.nanosecond)
  | .cycle => s.running = true → s.clock.Bears s.clock.processorPeriod
  | _ => True

/-- No call in a list brings a debt above one second. -/
def Unstalled (s : Session σ) : List Call → Prop
  | [] => True
  | c :: cs => s.Bears c ∧ (s.call c).1.Unstalled cs

/-! ## Living through a span of time -/

section

variable {s s' : Session σ} {e : Outcome} {f : Fault}

/-- What is put on record before an instruction does not depend on the time. -/
theorem host_announce_with_clock (s : Session σ) (c : Clock) :
    ({ s with clock := c } : Session σ).announce.host = s.announce.host := by
  unfold announce
  dsimp only
  cases s.machine.announcement <;> rfl

theorem refresh_with_clock (s : Session σ) (c : Clock) :
    ({ s with clock := c } : Session σ).refresh = { s.refresh with clock := c } := by
  unfold refresh
  dsimp only
  split <;> rfl

/-- A step that succeeds does the same whatever time is owed. -/
theorem step_with_clock_of_ok (hr : s.running = true) (h : s.step = (s', .ok e)) (c : Clock) :
    ({ s with clock := c } : Session σ).step = ({ s' with clock := c }, .ok e) := by
  rcases hm : s.machine.step s.keypad with ⟨m, f | e'⟩
  · rw [step_of_error hr hm] at h
    cases h
  · rw [step_of_ok hr hm] at h
    cases h
    have hr' : ({ s with clock := c } : Session σ).running = true := hr
    rw [step_of_ok hr' hm, host_announce_with_clock]
    congr 1
    exact refresh_with_clock { s with host := s.announce.host, machine := m } c

/-- A step that fails forgets whatever time is owed. -/
theorem step_with_clock_of_error (hr : s.running = true) (h : s.step = (s', .error f)) (u : ℕ) :
    ({ s with clock := s.clock.accrue u } : Session σ).step = (s', .error f) := by
  rcases hm : s.machine.step s.keypad with ⟨m, f' | e⟩
  · rw [step_of_error hr hm] at h
    cases h
    have hr' : ({ s with clock := s.clock.accrue u } : Session σ).running = true := hr
    rw [step_of_error hr' hm, host_announce_with_clock]
    rfl
  · rw [step_of_ok hr hm] at h
    cases h

/-- Time that is owed before the due ticks are handed out comes after them; after a fault it is
forgotten. -/
theorem catchUp_accrue (u : ℕ) : ∀ s : Session σ, s.running = true →
    ({ s with clock := s.clock.accrue u } : Session σ).catchUp =
      match s.catchUp with
      | (s', .ok ()) => ({ s' with clock := s'.clock.accrue u } : Session σ).catchUp
      | (s', .error f) => (s', .error f) := by
  intro s
  induction s using catchUp.induct with
  | case1 s h => intro _; rw [catchUp_of_none h]
  | case2 s c h ih =>
    intro hr
    have hpop : ({ s with clock := s.clock.accrue u } : Session σ).clock.pop =
        some (.timer, c.accrue u) := Clock.pop_accrue h u
    rw [catchUp_of_timer h, catchUp_of_timer hpop]
    exact ih hr
  | case3 s c h s' e hstep ih =>
    intro hr
    have hr' : ({ s with clock := c } : Session σ).running = true := hr
    have hclock : s'.clock = c := clock_of_step_ok hstep
    have hpop : ({ s with clock := s.clock.accrue u } : Session σ).clock.pop =
        some (.processor, c.accrue u) := Clock.pop_accrue h u
    have hstep' : ({ s with clock := c.accrue u } : Session σ).step =
        ({ s' with clock := c.accrue u }, .ok e) := step_with_clock_of_ok hr' hstep _
    rw [catchUp_of_processor_ok h hstep, catchUp_of_processor_ok hpop hstep', ← hclock]
    exact ih (running_of_step_ok hr' hstep)
  | case4 s c h s' f hstep =>
    intro hr
    have hr' : ({ s with clock := c } : Session σ).running = true := hr
    have hpop : ({ s with clock := s.clock.accrue u } : Session σ).clock.pop =
        some (.processor, c.accrue u) := Clock.pop_accrue h u
    have hstep' : ({ s with clock := c.accrue u } : Session σ).step = (s', .error f) :=
      step_with_clock_of_error hr' hstep u
    rw [catchUp_of_processor_error h hstep, catchUp_of_processor_error hpop hstep']

end

/-- The session after a number of nanoseconds, none of them cut off. -/
def live (s : Session σ) (ns : ℕ) : Session σ :=
  if s.running then
    ({ s with clock := s.clock.accrue (ns * s.clock.nanosecond) } : Session σ).catchUp.1
  else s

section

variable {s : Session σ}

theorem live_of_running (hr : s.running = true) (ns : ℕ) :
    s.live ns =
      ({ s with clock := s.clock.accrue (ns * s.clock.nanosecond) } : Session σ).catchUp.1 :=
  if_pos hr

theorem live_of_not_running (hr : s.running = false) (ns : ℕ) : s.live ns = s :=
  if_neg (by rw [hr]; exact Bool.false_ne_true)

/-- A settled session does nothing in no time. -/
theorem live_zero (h : s.Settled) : s.live 0 = s := by
  rcases hr : s.running with _ | _
  · exact live_of_not_running hr 0
  · rw [live_of_running hr, Nat.zero_mul, Clock.accrue_zero]
    exact congrArg Prod.fst (catchUp_of_none (h hr))

theorem settled_live (h : s.Settled) (ns : ℕ) : (s.live ns).Settled := by
  rcases hr : s.running with _ | _
  · rw [live_of_not_running hr]
    exact h
  · rw [live_of_running hr]
    exact settled_catchUp hr

/-- Living through two spans is living through their sum. -/
theorem live_add (s : Session σ) (a b : ℕ) : s.live (a + b) = (s.live a).live b := by
  rcases hr : s.running with _ | _
  · rw [live_of_not_running hr, live_of_not_running hr, live_of_not_running hr]
  · have hcatch := catchUp_accrue (b * s.clock.nanosecond)
      { s with clock := s.clock.accrue (a * s.clock.nanosecond) } hr
    have hhz := hz_catchUp { s with clock := s.clock.accrue (a * s.clock.nanosecond) }
    rw [live_of_running hr, live_of_running hr, Nat.add_mul, ← Clock.accrue_accrue]
    rcases catchUp_cases { s with clock := s.clock.accrue (a * s.clock.nanosecond) } hr with
      ⟨s', h, hrun, -⟩ | ⟨s', f, h, hrun, -⟩
    · rw [h] at hcatch hhz ⊢
      have hns : s'.clock.nanosecond = s.clock.nanosecond := congrArg (· * 60) hhz
      rw [live_of_running hrun, hns]
      exact congrArg Prod.fst hcatch
    · rw [h] at hcatch ⊢
      rw [live_of_not_running hrun]
      exact congrArg Prod.fst hcatch

theorem hz_live (s : Session σ) (ns : ℕ) : (s.live ns).clock.hz = s.clock.hz := by
  rcases hr : s.running with _ | _
  · rw [live_of_not_running hr]
  · rw [live_of_running hr, hz_catchUp]
    rfl

/-- A report of time that cuts nothing off is lived through. -/
theorem call_advance {ns : ℕ} (hb : s.Bears (.advance ns)) :
    (s.call (.advance ns)).1 = s.live ns := by
  show (s.advance ns).1 = s.live ns
  unfold advance
  rcases hr : s.running with _ | _
  · rw [live_of_not_running hr, if_neg Bool.false_ne_true]
  · rw [live_of_running hr, if_pos rfl, Clock.elapse_eq_accrue (hb hr), hr]

theorem settled_call_key {k : Call} (hk : k.isKey = true) (h : s.Settled) :
    (s.call k).1.Settled := by
  obtain ⟨hrun, hclock⟩ := call_key hk s
  unfold Settled
  rw [hrun, hclock]
  exact h

theorem clock_start {program : List UInt8} {drawn : ChaCha.Key}
    (fits : program.length ≤ Machine.maxProgram) :
    (s.start program drawn).1.clock = s.clock.reset := by
  unfold start Machine.load
  rw [if_pos fits]
  rfl

/-- A program that fits is started with nothing owed. -/
theorem settled_start {program : List UInt8} {drawn : ChaCha.Key}
    (fits : program.length ≤ Machine.maxProgram) :
    (s.start program drawn).1.Settled := by
  intro _
  rw [clock_start fits]
  exact Clock.pop_reset _

/-- Spans that leave room for one period of each kind in a second cut nothing off. -/
theorem unstalled_of_le : ∀ {cs : List Call} {s : Session σ}, s.Settled →
    (∀ c ∈ cs, c.isReport = true) →
    (∀ ns, .advance ns ∈ cs → ns * s.clock.nanosecond + s.clock.processorPeriod ≤ s.clock.second ∧
      ns * s.clock.nanosecond + s.clock.timerPeriod ≤ s.clock.second) → s.Unstalled cs := by
  intro cs
  induction cs with
  | nil => intro s _ _ _; exact trivial
  | cons c cs ih =>
    intro s hs hc hle
    have hcs : ∀ c ∈ cs, c.isReport = true := fun c hc' => hc c (List.mem_cons_of_mem _ hc')
    have hle' := fun ns h => hle ns (List.mem_cons_of_mem _ h)
    rcases isReport_cases (hc c List.mem_cons_self) with ⟨ns, rfl⟩ | hk
    · obtain ⟨hp, ht⟩ := hle ns List.mem_cons_self
      have hb : s.Bears (.advance ns) := fun hr => by
        have hnone := Clock.pop_eq_none_iff.mp (hs hr)
        exact ⟨by omega, by omega⟩
      refine ⟨hb, ?_⟩
      rw [call_advance hb]
      refine ih (settled_live hs ns) hcs ?_
      unfold Clock.nanosecond Clock.second Clock.processorPeriod Clock.timerPeriod at hle' ⊢
      rw [hz_live]
      exact hle'
    · obtain ⟨-, hclock⟩ := call_key hk s
      have hb : s.Bears c := by cases c <;> first | exact trivial | cases hk
      refine ⟨hb, ih (settled_call_key hk hs) hcs ?_⟩
      rw [hclock]
      exact hle'

/-! ## Playing a list of reports -/

/-- Lives up to the moment of each key in turn, reports it, and lives on to the end; `now` is the
moment at which the session is. -/
def play (s : Session σ) (now : ℕ) : List (ℕ × Call) → ℕ → Session σ
  | [], last => s.live (last - now)
  | (t, k) :: ms, last => ((s.live (t - now)).call k).1.play t ms last

/-- Playing on from a later moment, if that is not past the next key and not past the end. -/
theorem play_live {now ns last : ℕ} {ms : List (ℕ × Call)} (hms : ∀ m ∈ ms, now + ns ≤ m.1)
    (hl : now + ns ≤ last) : (s.live ns).play (now + ns) ms last = s.play now ms last := by
  rcases ms with _ | ⟨⟨t, k⟩, ms⟩
  · unfold play
    rw [← live_add]
    congr 1
    omega
  · have ht := hms (t, k) List.mem_cons_self
    unfold play
    rw [← live_add]
    congr 4
    omega

/-- A list of reports that cuts nothing off comes down to the moments of its keys and its end. -/
theorem calls_eq_play : ∀ {cs : List Call} {s : Session σ} (now : ℕ), s.Settled →
    (∀ c ∈ cs, c.isReport = true) → s.Unstalled cs →
    (s.calls cs).1 = s.play now (keyMoments now cs) (now + totalTime cs) := by
  intro cs
  induction cs with
  | nil =>
    intro s now hs _ _
    show s = s.live (now + 0 - now)
    rw [Nat.add_zero, Nat.sub_self, live_zero hs]
  | cons c cs ih =>
    intro s now hs hc hu
    have hcs : ∀ c ∈ cs, c.isReport = true := fun c hc' => hc c (List.mem_cons_of_mem _ hc')
    show ((s.call c).1.calls cs).1 = _
    rcases isReport_cases (hc c List.mem_cons_self) with ⟨ns, rfl⟩ | hk
    · have hu' := hu.2
      rw [call_advance hu.1] at hu' ⊢
      rw [ih (now + ns) (settled_live hs ns) hcs hu', play_live]
      · show s.play now (keyMoments (now + ns) cs) _ = s.play now (keyMoments (now + ns) cs) _
        rw [Nat.add_assoc]
        rfl
      · exact fun m hm => le_of_mem_keyMoments hcs hm
      · exact Nat.le_add_right _ _
    · rw [keyMoments_of_isKey hk, totalTime_of_isKey hk,
        ih now (settled_call_key hk hs) hcs hu.2]
      conv_rhs => unfold play
      rw [Nat.sub_self, live_zero hs]

/-- **How a host chops time does not matter.** After a start, two lists of reports with the same
keys at the same moments and the same end, neither of which brings a debt above one second, lead to
the same session: machine, keypad, clock, whether it runs, its fault, and the state of the host,
whatever it makes of the pictures, beeps and records it is handed. -/
theorem calls_eq_of_keyMoments_eq (s : Session σ) {program : List UInt8} (drawn : ChaCha.Key)
    (fits : program.length ≤ Machine.maxProgram) {cs ds : List Call}
    (hc : ∀ c ∈ cs, c.isReport = true) (hd : ∀ d ∈ ds, d.isReport = true)
    (keys : keyMoments 0 cs = keyMoments 0 ds) (total : totalTime cs = totalTime ds)
    (hcu : (s.start program drawn).1.Unstalled cs)
    (hdu : (s.start program drawn).1.Unstalled ds) :
    ((s.start program drawn).1.calls cs).1 = ((s.start program drawn).1.calls ds).1 := by
  have hs : (s.start program drawn).1.Settled := settled_start fits
  calc ((s.start program drawn).1.calls cs).1
      = (s.start program drawn).1.play 0 (keyMoments 0 cs) (0 + totalTime cs) :=
        calls_eq_play 0 hs hc hcu
    _ = (s.start program drawn).1.play 0 (keyMoments 0 ds) (0 + totalTime ds) := by
        rw [keys, total]
    _ = ((s.start program drawn).1.calls ds).1 := (calls_eq_play 0 hs hd hdu).symm

/-- A program that waits for a key, shows a digit and comes to a word that is no instruction; the
key is pressed after five milliseconds, which are reported at once or in two pieces. -/
theorem calls_eq_of_keyMoments_eq_fault :
    let program : List UInt8 := [0xF0, 0x0A, 0xD0, 0x05, 0xFF, 0xFF]
    let cs : List Call := [.advance 5000000, .keyDown 5, .advance 5000000]
    let ds : List Call :=
      [.advance 2000000, .advance 3000000, .keyDown 5, .advance 0, .advance 1, .advance 4999999]
    let s := (create { seed := some 7 } ({} : Transcript) default).start program default
    keyMoments 0 cs = keyMoments 0 ds ∧ totalTime cs = totalTime ds ∧ s.1.Unstalled cs ∧
      s.1.Unstalled ds ∧ (s.1.calls cs).1 = (s.1.calls ds).1 ∧
      (s.1.calls [.advance 5000000]).1.machine.keyWait = some 0 ∧
      (s.1.calls cs).1.machine.v.get 0 = 5 ∧
      (s.1.calls cs).1.host.performances = [.picture (s.1.calls cs).1.machine.picture] ∧
      (s.1.calls cs).1.machine.picture.isBlank = false ∧
      (s.1.calls cs).1.fault = some (.unknownOpcode 0xFFFF) := by
  intro program cs ds s
  have fits : program.length ≤ Machine.maxProgram := by decide
  have hhz : s.1.clock.hz = 600 := by rw [clock_start fits]; rfl
  have hle : ∀ ns ≤ 5000000,
      ns * s.1.clock.nanosecond + s.1.clock.processorPeriod ≤ s.1.clock.second ∧
        ns * s.1.clock.nanosecond + s.1.clock.timerPeriod ≤ s.1.clock.second := by
    intro ns hns
    unfold Clock.nanosecond Clock.second Clock.processorPeriod Clock.timerPeriod
    rw [hhz]
    omega
  have hc : ∀ c ∈ cs, c.isReport = true := by decide
  have hd : ∀ d ∈ ds, d.isReport = true := by decide
  have hcu : s.1.Unstalled cs := unstalled_of_le (settled_start fits) hc fun ns hns =>
    hle ns (by simp [cs] at hns; omega)
  have hdu : s.1.Unstalled ds := unstalled_of_le (settled_start fits) hd fun ns hns =>
    hle ns (by simp [ds] at hns; omega)
  refine ⟨rfl, rfl, hcu, hdu, calls_eq_of_keyMoments_eq _ default fits hc hd rfl rfl hcu hdu, ?_⟩
  decide +kernel

end

end Session

end ChipEight
