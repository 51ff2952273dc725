import ChipEight.Proofs.Session.Hearing
import ChipEight.Proofs.Session.Lasting

/-!
# Turns

A `Turn` is one tick with the session right before it, which takes a step or counts the timers down.
`catchUpTurns` lists the turns of catching up in order, `callTurns` those of a call and `callsTurns`
those of a list of calls.

Only the last turn of a call can fail, and then the call ends with what that turn leaves of the
session (`callTurns_cases`). A session runs before each of its turns (`running_of_mem_callsTurns`),
what is `Lasting` holds before each of them (`Lasting.callsTurns`), and they are the same in front
of any host (`callsTurns_map`). From one start to the next they are all that happens to the machine
(`path_callsTurns`).
-/

namespace ChipEight

/-- A call in which instructions may be executed. -/
def Call.executes : Call → Bool
  | .step | .cycle | .advance _ => true
  | _ => false

/-- One tick, with the session right before it. -/
structure Turn (σ : Type) where
  tick : Tick
  /-- The session when the tick is taken from its clock and nothing else has happened. -/
  before : Session σ

namespace Turn

variable {σ : Type} [Host σ]

/-- What is left of the session after the tick, with its answer. -/
def result (t : Turn σ) : Session σ × Except Fault Outcome :=
  match t.tick with
  | .processor => t.before.step
  | .timer => (t.before.countDown, .ok .plain)

def after (t : Turn σ) : Session σ := t.result.1

def answer (t : Turn σ) : Except Fault Outcome := t.result.2

variable {t : Turn σ} {e : Outcome} {f : Fault}

theorem clock_after (h : t.answer = .ok e) : t.after.clock = t.before.clock := by
  rcases t with ⟨_ | _, s⟩
  · have hstep : s.step = (s.step.1, .ok e) := Prod.ext rfl h
    exact Session.clock_of_step_ok hstep
  · rfl

theorem running_after (hr : t.before.running = true) (h : t.answer = .ok e) :
    t.after.running = true := by
  rcases t with ⟨_ | _, s⟩
  · have hstep : s.step = (s.step.1, .ok e) := Prod.ext rfl h
    exact Session.running_of_step_ok hr hstep
  · exact hr

/-- From one machine to another by way of turns, with nothing in between that touches it. -/
def Path (m : Machine) : List (Turn σ) → Machine → Prop
  | [], m' => m' = m
  | turn :: turns, m' => turn.before.machine = m ∧ Path turn.after.machine turns m'

theorem Path.append {turns turns' : List (Turn σ)} {m m' m'' : Machine}
    (h : Path m turns m') (h' : Path m' turns' m'') : Path m (turns ++ turns') m'' := by
  induction turns generalizing m with
  | nil =>
    obtain rfl : m' = m := h
    exact h'
  | cons turn turns ih => exact ⟨h.1, ih h.2⟩

/-- The machine that turns lead to. -/
def reached (m : Machine) : List (Turn σ) → Machine
  | [] => m
  | turn :: turns => reached turn.after.machine turns

theorem Path.of_append {turns turns' : List (Turn σ)} {m m' : Machine}
    (h : Path m (turns ++ turns') m') :
    Path m turns (reached m turns) ∧ Path (reached m turns) turns' m' := by
  induction turns generalizing m with
  | nil => exact ⟨rfl, h⟩
  | cons turn turns ih => exact ⟨⟨h.1, (ih h.2).1⟩, (ih h.2).2⟩

/-- What comes before a turn leads to it. -/
theorem Path.split {turn : Turn σ} {before later : List (Turn σ)} {m m' : Machine}
    (h : Path m (before ++ turn :: later) m') : Path m before turn.before.machine := by
  obtain ⟨hbefore, hlater⟩ := h.of_append
  rw [hlater.1]
  exact hbefore

/-- A step of a session is one of its machine, but for the mark of the picture. -/
theorem machine_after {s : Session σ} (hr : s.running = true) :
    ∃ dirty, (Turn.mk .processor s).after.machine =
      { (s.machine.step s.keypad).1 with dirty } := by
  show ∃ dirty, s.step.1.machine = _
  rcases hm : s.machine.step s.keypad with ⟨m, f | e⟩
  · rw [Session.step_of_error hr hm]
    exact ⟨m.dirty, rfl⟩
  · rw [Session.step_of_ok hr hm, Session.refresh_eq]
    exact ⟨false, rfl⟩

theorem lasting_after {P : Session σ → Prop} (hP : Session.Lasting P) (h : P t.before) :
    P t.after := by
  rcases t with ⟨_ | _, s⟩
  · exact hP.step s h
  · exact hP.countDown s h

end Turn

namespace Session

theorem host_foldl_note {σ : Type} [Host σ] (rs : List Record) (s : Session σ) :
    (rs.foldl note s).host = hear s.host (rs.map .record) := by
  induction rs generalizing s with
  | nil => rfl
  | cons r rs ih => exact ih (s.note r)

variable {σ : Type} [Host σ] {P : Session σ → Prop} {s : Session σ} {c : Clock} {tick : Tick}
  {e : Outcome} {f : Fault}

/-! ## The turns of catching up -/

theorem catchUp_of_turn_ok (h : s.clock.pop = some (tick, c))
    (ha : (Turn.mk tick { s with clock := c }).answer = .ok e) :
    s.catchUp = (Turn.mk tick { s with clock := c }).after.catchUp := by
  cases tick with
  | processor => exact catchUp_of_processor_ok h (Prod.ext rfl ha)
  | timer => exact catchUp_of_timer h

theorem catchUp_of_turn_error (h : s.clock.pop = some (tick, c))
    (ha : (Turn.mk tick { s with clock := c }).answer = .error f) :
    s.catchUp = ((Turn.mk tick { s with clock := c }).after, .error f) := by
  cases tick with
  | processor => exact catchUp_of_processor_error h (Prod.ext rfl ha)
  | timer => cases ha

/-- The turns that a session takes when it catches up. -/
def catchUpTurns (s : Session σ) : List (Turn σ) :=
  match _due : s.clock.pop with
  | none => []
  | some (tick, clock) =>
    let turn : Turn σ := ⟨tick, { s with clock }⟩
    match _done : turn.answer with
    | .ok _ => turn :: turn.after.catchUpTurns
    | .error _ => [turn]
termination_by s.clock.owed
decreasing_by
  rw [Turn.clock_after _done]
  exact Clock.owed_lt_of_pop _due

theorem catchUpTurns_of_none (h : s.clock.pop = none) : s.catchUpTurns = [] := by
  rw [catchUpTurns]
  split <;> simp_all

theorem catchUpTurns_of_ok (h : s.clock.pop = some (tick, c))
    (ha : (Turn.mk tick { s with clock := c }).answer = .ok e) :
    s.catchUpTurns = ⟨tick, { s with clock := c }⟩ ::
      (Turn.mk tick { s with clock := c }).after.catchUpTurns := by
  rw [catchUpTurns]
  split <;> rename_i hp <;> rw [h] at hp <;> cases hp
  dsimp only
  split
  · rfl
  · rename_i ha'
    rw [ha] at ha'
    cases ha'

theorem catchUpTurns_of_error (h : s.clock.pop = some (tick, c))
    (ha : (Turn.mk tick { s with clock := c }).answer = .error f) :
    s.catchUpTurns = [⟨tick, { s with clock := c }⟩] := by
  rw [catchUpTurns]
  split <;> rename_i hp <;> rw [h] at hp <;> cases hp
  dsimp only
  split
  · rename_i ha'
    rw [ha] at ha'
    cases ha'
  · rfl

/-- Either every turn succeeds, or the last one fails and nothing happens after it. -/
theorem catchUpTurns_cases (s : Session σ) :
    ((∀ turn ∈ s.catchUpTurns, ∃ e, turn.answer = .ok e) ∧ s.catchUp.2 = .ok ()) ∨
      ∃ turns turn f, s.catchUpTurns = turns ++ [turn] ∧
        (∀ turn ∈ turns, ∃ e, turn.answer = .ok e) ∧ turn.answer = .error f ∧
        s.catchUp = (turn.after, .error f) := by
  -- The cases are those of `catchUpTurns`: nothing is due, a turn succeeds, a turn fails.
  induction s using catchUpTurns.induct with
  | case1 s h =>
    rw [catchUpTurns_of_none h, catchUp_of_none h]
    exact Or.inl ⟨List.forall_mem_nil _, rfl⟩
  | case2 s tick c h turn e ha ih =>
    rw [catchUpTurns_of_ok h ha, catchUp_of_turn_ok h ha]
    rcases ih with ⟨hall, hok⟩ | ⟨turns, last, f, hturns, hall, hlast, hcatch⟩
    · exact Or.inl ⟨List.forall_mem_cons.mpr ⟨⟨e, ha⟩, hall⟩, hok⟩
    · refine Or.inr ⟨turn :: turns, last, f, ?_, List.forall_mem_cons.mpr ⟨⟨e, ha⟩, hall⟩, hlast,
        hcatch⟩
      rw [hturns]
      rfl
  | case3 s tick c h turn f ha =>
    rw [catchUpTurns_of_error h ha, catchUp_of_turn_error h ha]
    exact Or.inr ⟨[], turn, f, rfl, List.forall_mem_nil _, ha, rfl⟩

theorem running_of_mem_catchUpTurns (hr : s.running = true) :
    ∀ turn ∈ s.catchUpTurns, turn.before.running = true := by
  induction s using catchUpTurns.induct with
  | case1 s h =>
    rw [catchUpTurns_of_none h]
    exact List.forall_mem_nil _
  | case2 s tick c h turn e ha ih =>
    rw [catchUpTurns_of_ok h ha]
    exact List.forall_mem_cons.mpr ⟨hr, ih (Turn.running_after (t := turn) hr ha)⟩
  | case3 s tick c h turn f ha =>
    rw [catchUpTurns_of_error h ha]
    exact List.forall_mem_singleton.mpr hr

theorem Lasting.catchUpTurns (hP : Lasting P) (h : P s) :
    ∀ turn ∈ s.catchUpTurns, P turn.before := by
  induction s using catchUpTurns.induct with
  | case1 s hpop =>
    rw [catchUpTurns_of_none hpop]
    exact List.forall_mem_nil _
  | case2 s tick c hpop turn e ha ih =>
    have hbefore : P turn.before := hP.clock s c h
    rw [catchUpTurns_of_ok hpop ha]
    exact List.forall_mem_cons.mpr ⟨hbefore, ih (Turn.lasting_after hP hbefore)⟩
  | case3 s tick c hpop turn f ha =>
    rw [catchUpTurns_of_error hpop ha]
    exact List.forall_mem_singleton.mpr (hP.clock s c h)

theorem path_catchUpTurns (s : Session σ) :
    Turn.Path s.machine s.catchUpTurns s.catchUp.1.machine := by
  induction s using catchUpTurns.induct with
  | case1 s h =>
    rw [catchUpTurns_of_none h, catchUp_of_none h]
    rfl
  | case2 s tick c h turn e ha ih =>
    rw [catchUpTurns_of_ok h ha, catchUp_of_turn_ok h ha]
    exact ⟨rfl, ih⟩
  | case3 s tick c h turn f ha =>
    rw [catchUpTurns_of_error h ha, catchUp_of_turn_error h ha]
    exact ⟨rfl, rfl⟩

/-! ## The turns of calls -/

/-- A call that neither executes nor starts anything puts something on record, changes the keypad,
or ends the run. -/
theorem call_idle {c : Call} (hidle : ¬ (s.running = true ∧ c.executes = true))
    (hc : ∀ program drawn, c = .start program drawn → Machine.maxProgram < program.length) :
    ∃ (rs : List Record) (keypad : Keypad) (running : Bool),
      (s.call c).1 = { s with host := hear s.host (rs.map .record), keypad, running } := by
  have hkey : ∀ e : Keypad.Event, ∃ (rs : List Record) (keypad : Keypad) (running : Bool),
      (s.call (.ofKey e)).1 = { s with host := hear s.host (rs.map .record), keypad, running } := by
    intro e
    obtain ⟨rs, hrs⟩ := s.call_ofKey e
    refine ⟨rs, s.keypad.apply e, s.running, ?_⟩
    rw [hrs, foldl_note_eq, host_foldl_note]
  have hexecutes : c.executes = true → s.running = false := fun h =>
    Bool.eq_false_iff.mpr fun hr => hidle ⟨hr, h⟩
  cases c with
  | start program drawn =>
    refine ⟨[.startRefused (.programTooLarge program.length Machine.maxProgram)], s.keypad,
      s.running, ?_⟩
    show (s.start program drawn).1 = _
    rw [start_of_lt (hc program drawn rfl)]
    rfl
  | stop =>
    refine ⟨if s.running then [.stopped s.machine.pc] else [], s.keypad, false, ?_⟩
    show s.stop = _
    rw [stop_eq]
    split_ifs <;> rfl
  | step =>
    refine ⟨[], s.keypad, s.running, ?_⟩
    exact congrArg Prod.fst (step_of_not_running (hexecutes rfl))
  | cycle =>
    refine ⟨[], s.keypad, s.running, ?_⟩
    exact congrArg Prod.fst (cycle_of_not_running (hexecutes rfl))
  | advance ns =>
    refine ⟨[], s.keypad, s.running, ?_⟩
    exact congrArg Prod.fst (advance_of_not_running (hexecutes rfl) ns)
  | keyDown code => exact hkey (.keyDown code)
  | keyUp code => exact hkey (.keyUp code)
  | releaseKeys => exact hkey .releaseAll

def callTurns (s : Session σ) (c : Call) : List (Turn σ) :=
  if s.running then
    match c with
    | .step => [⟨.processor, s⟩]
    | .cycle => ({ s with clock := s.clock.elapsePeriod } : Session σ).catchUpTurns
    | .advance ns => ({ s with clock := s.clock.elapse ns } : Session σ).catchUpTurns
    | _ => []
  else []

def callsTurns (s : Session σ) : List Call → List (Turn σ)
  | [] => []
  | c :: cs => s.callTurns c ++ (s.call c).1.callsTurns cs

/-- A call that may execute instructions takes one turn to execute one, or it catches up after some
time; any other takes no turn. -/
theorem callTurns_elim (s : Session σ) (c : Call) :
    (s.callTurns c = [] ∧ ¬ (s.running = true ∧ c.executes = true)) ∨
      s.running = true ∧ ((s.callTurns c = [⟨.processor, s⟩] ∧ s.call c = s.step) ∨
        ∃ clock, s.callTurns c = ({ s with clock } : Session σ).catchUpTurns ∧
          s.call c = quietly ({ s with clock } : Session σ).catchUp) := by
  unfold callTurns
  split_ifs with hr
  · cases c with
    | step => exact Or.inr ⟨hr, Or.inl ⟨rfl, rfl⟩⟩
    | cycle => exact Or.inr ⟨hr, Or.inr ⟨_, rfl, congrArg quietly (cycle_of_running hr)⟩⟩
    | advance ns => exact Or.inr ⟨hr, Or.inr ⟨_, rfl, congrArg quietly (advance_of_running hr ns)⟩⟩
    | _ => exact Or.inl ⟨rfl, fun h => Bool.false_ne_true h.2⟩
  · exact Or.inl ⟨rfl, fun h => hr h.1⟩

/-- Either every turn of a call succeeds, or the last one fails and the call does nothing more. -/
theorem callTurns_cases (s : Session σ) (c : Call) :
    ((∀ turn ∈ s.callTurns c, ∃ e, turn.answer = .ok e) ∧
        (s.running = true ∧ c.executes = true → ∃ e, (s.call c).2 = .ok e)) ∨
      ∃ turns turn f, s.callTurns c = turns ++ [turn] ∧
        (∀ turn ∈ turns, ∃ e, turn.answer = .ok e) ∧ turn.answer = .error f ∧
        s.call c = (turn.after, .error f) := by
  rcases s.callTurns_elim c with ⟨hnil, hidle⟩ | ⟨-, ⟨hone, hcall⟩ | ⟨clock, hturns, hcall⟩⟩
  · rw [hnil]
    exact Or.inl ⟨List.forall_mem_nil _, fun h => absurd h hidle⟩
  · rw [hone, hcall]
    rcases hstep : s.step with ⟨s', f | e⟩
    · have hresult : (Turn.mk .processor s).result = (s', .error f) := hstep
      refine Or.inr ⟨[], _, f, rfl, List.forall_mem_nil _, congrArg Prod.snd hresult, ?_⟩
      rw [Turn.after, hresult]
    · have hresult : (Turn.mk .processor s).result = (s', .ok e) := hstep
      exact Or.inl ⟨List.forall_mem_singleton.mpr ⟨e, congrArg Prod.snd hresult⟩, fun _ => ⟨e, rfl⟩⟩
  · rw [hturns, hcall]
    rcases catchUpTurns_cases ({ s with clock } : Session σ) with
      ⟨hall, hok⟩ | ⟨turns, turn, f, heq, hall, hfail, hcatch⟩
    · exact Or.inl ⟨hall, fun _ => ⟨.plain, congrArg (Except.map fun _ => Outcome.plain) hok⟩⟩
    · exact Or.inr ⟨turns, turn, f, heq, hall, hfail, congrArg quietly hcatch⟩

theorem running_of_mem_callTurns (s : Session σ) (c : Call) :
    ∀ turn ∈ s.callTurns c, turn.before.running = true := by
  rcases s.callTurns_elim c with ⟨hnil, -⟩ | ⟨hr, ⟨hone, -⟩ | ⟨clock, hturns, -⟩⟩
  · rw [hnil]
    exact List.forall_mem_nil _
  · rw [hone]
    exact List.forall_mem_singleton.mpr hr
  · rw [hturns]
    exact running_of_mem_catchUpTurns hr

theorem path_callTurns {c : Call}
    (hc : ∀ program drawn, c = .start program drawn → Machine.maxProgram < program.length) :
    Turn.Path s.machine (s.callTurns c) (s.call c).1.machine := by
  rcases s.callTurns_elim c with ⟨hnil, hidle⟩ | ⟨-, ⟨hone, hcall⟩ | ⟨clock, hturns, hcall⟩⟩
  · obtain ⟨rs, keypad, running, hcall⟩ := call_idle hidle hc
    rw [hnil, hcall]
    rfl
  · rw [hone, hcall]
    exact ⟨rfl, rfl⟩
  · rw [hturns, hcall]
    exact path_catchUpTurns ({ s with clock } : Session σ)

theorem path_callsTurns {cs : List Call}
    (hcs : ∀ program drawn, .start program drawn ∈ cs → Machine.maxProgram < program.length) :
    Turn.Path s.machine (s.callsTurns cs) (s.calls cs).1.machine := by
  induction cs generalizing s with
  | nil => rfl
  | cons c cs ih =>
    have hcall := path_callTurns (s := s) fun program drawn hc =>
      hcs program drawn (hc ▸ List.mem_cons_self)
    exact hcall.append (ih fun program drawn hp => hcs program drawn (List.mem_cons_of_mem c hp))

theorem Lasting.callTurns (hP : Lasting P) (h : P s) (c : Call) :
    ∀ turn ∈ s.callTurns c, P turn.before := by
  rcases s.callTurns_elim c with ⟨hnil, -⟩ | ⟨-, ⟨hone, -⟩ | ⟨clock, hturns, -⟩⟩
  · rw [hnil]
    exact List.forall_mem_nil _
  · rw [hone]
    exact List.forall_mem_singleton.mpr h
  · rw [hturns]
    exact hP.catchUpTurns (hP.clock s clock h)

/-- A turn of a list of calls is a turn of one of them. -/
theorem mem_callsTurns {turn : Turn σ} {cs : List Call} (h : turn ∈ s.callsTurns cs) :
    ∃ before c later, cs = before ++ c :: later ∧ turn ∈ (s.calls before).1.callTurns c := by
  induction cs generalizing s with
  | nil => exact absurd h List.not_mem_nil
  | cons c cs ih =>
    rcases List.mem_append.mp h with h | h
    · exact ⟨[], c, cs, rfl, h⟩
    · obtain ⟨before, d, later, rfl, hmem⟩ := ih h
      exact ⟨c :: before, d, later, rfl, hmem⟩

theorem running_of_mem_callsTurns (cs : List Call) :
    ∀ turn ∈ s.callsTurns cs, turn.before.running = true := by
  intro turn hturn
  obtain ⟨earlier, c, -, -, hmem⟩ := mem_callsTurns hturn
  exact running_of_mem_callTurns (s.calls earlier).1 c turn hmem

theorem Lasting.callsTurns (hP : Lasting P) (h : P s) {cs : List Call}
    (hcs : ∀ program drawn, .start program drawn ∈ cs → Machine.maxProgram < program.length) :
    ∀ turn ∈ s.callsTurns cs, P turn.before := by
  intro turn hturn
  obtain ⟨before, c, later, rfl, hmem⟩ := mem_callsTurns hturn
  have hbefore := hP.calls before h fun program drawn hp =>
    hcs program drawn (List.mem_append_left _ hp)
  exact hP.callTurns hbefore c turn hmem

end Session

/-! ## The host makes no difference -/

section

variable {σ τ : Type} [Host σ] [Host τ] {φ : σ → τ}

def Turn.map (φ : σ → τ) (t : Turn σ) : Turn τ := ⟨t.tick, t.before.map φ⟩

variable (hφ : Relays φ)
include hφ

theorem Turn.result_map (t : Turn σ) : (t.map φ).result = (t.result.1.map φ, t.result.2) := by
  rcases t with ⟨_ | _, s⟩
  · exact Session.step_map hφ s
  · exact congrArg (·, _) (Session.countDown_map hφ s)

theorem Turn.after_map (t : Turn σ) : (t.map φ).after = t.after.map φ :=
  congrArg Prod.fst (t.result_map hφ)

theorem Turn.answer_map (t : Turn σ) : (t.map φ).answer = t.answer :=
  congrArg Prod.snd (t.result_map hφ)

namespace Session

theorem catchUpTurns_map (s : Session σ) :
    (s.map φ).catchUpTurns = s.catchUpTurns.map (Turn.map φ) := by
  induction s using catchUpTurns.induct with
  | case1 s h =>
    have h' : (s.map φ).clock.pop = none := h
    rw [catchUpTurns_of_none h, catchUpTurns_of_none h']
    rfl
  | case2 s tick c h turn e ha ih =>
    have h' : (s.map φ).clock.pop = some (tick, c) := h
    have ha' : (turn.map φ).answer = .ok e := (turn.answer_map hφ).trans ha
    rw [catchUpTurns_of_ok h ha, catchUpTurns_of_ok h' ha', List.map_cons, ← ih,
      ← turn.after_map hφ]
    rfl
  | case3 s tick c h turn f ha =>
    have h' : (s.map φ).clock.pop = some (tick, c) := h
    have ha' : (turn.map φ).answer = .error f := (turn.answer_map hφ).trans ha
    rw [catchUpTurns_of_error h ha, catchUpTurns_of_error h' ha']
    rfl

theorem callTurns_map (s : Session σ) (c : Call) :
    (s.map φ).callTurns c = (s.callTurns c).map (Turn.map φ) := by
  unfold callTurns
  by_cases hr : s.running = true
  · have hr' : (s.map φ).running = true := hr
    rw [if_pos hr, if_pos hr']
    cases c with
    | cycle => exact catchUpTurns_map hφ { s with clock := s.clock.elapsePeriod }
    | advance ns => exact catchUpTurns_map hφ { s with clock := s.clock.elapse ns }
    | _ => rfl
  · have hr' : ¬ (s.map φ).running = true := hr
    rw [if_neg hr, if_neg hr']
    rfl

theorem callsTurns_map (s : Session σ) (cs : List Call) :
    (s.map φ).callsTurns cs = (s.callsTurns cs).map (Turn.map φ) := by
  induction cs generalizing s with
  | nil => rfl
  | cons c cs ih =>
    unfold callsTurns
    rw [callTurns_map hφ, call_map hφ, ih, List.map_append]

end Session

end

end ChipEight
