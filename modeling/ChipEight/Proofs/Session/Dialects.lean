import ChipEight.Proofs.Machine.Dialects
import ChipEight.Proofs.Session.Restarting
import ChipEight.Proofs.Session.Turns

/-!
# The same calls in two dialects

Two sessions that differ in nothing but the dialect take the same turns up to and including the
first one that executes a disputed instruction (`agree_callsTurns`). If no turn does so, the calls
have the same answers and lead to sessions that still differ in nothing but the dialect
(`calls_speak`). `dialects_agree` says both of two new sessions with the same seed.
-/

namespace ChipEight

section

variable {σ : Type}

/-- The same session with another dialect. -/
def Session.speak (s : Session σ) (d : Dialect) : Session σ :=
  { s with settings := s.settings.withDialect d, machine := s.machine.speak d }

def Turn.speak (d : Dialect) (t : Turn σ) : Turn σ := ⟨t.tick, t.before.speak d⟩

/-- Whether the turn executes an instruction that is disputed between the dialect of the machine and
another one. -/
def Turn.disputed (t : Turn σ) (d : Dialect) : Bool :=
  match t.tick with
  | .processor => t.before.machine.disputed d
  | .timer => false

/-- The other turns are the same in another dialect, up to and including the first turn that is
disputed; nothing is said of what comes after it. -/
def Turn.Agree (d : Dialect) : List (Turn σ) → List (Turn σ) → Prop
  | [], others => others = []
  | turn :: turns, others =>
    ∃ rest, others = turn.speak d :: rest ∧ (turn.disputed d = false → Agree d turns rest)

variable {d : Dialect} {turns others turns' others' before later : List (Turn σ)} {turn : Turn σ}

theorem Turn.Agree.append (h : Agree d turns others)
    (h' : (∀ turn ∈ turns, turn.disputed d = false) → Agree d turns' others') :
    Agree d (turns ++ turns') (others ++ others') := by
  induction turns generalizing others with
  | nil =>
    obtain rfl : others = [] := h
    exact h' (List.forall_mem_nil _)
  | cons turn turns ih =>
    obtain ⟨rest, rfl, hrest⟩ := h
    refine ⟨rest ++ others', rfl, fun hturn => ih (hrest hturn) fun hall => ?_⟩
    exact h' (List.forall_mem_cons.mpr ⟨hturn, hall⟩)

theorem Turn.Agree.split (h : Agree d (before ++ turn :: later) others)
    (hbefore : ∀ turn ∈ before, turn.disputed d = false) :
    ∃ rest, others = before.map (Turn.speak d) ++ turn.speak d :: rest := by
  induction before generalizing others with
  | nil =>
    obtain ⟨rest, rfl, -⟩ := h
    exact ⟨rest, rfl⟩
  | cons first before ih =>
    obtain ⟨others, rfl, hothers⟩ := h
    obtain ⟨hfirst, hbefore⟩ := List.forall_mem_cons.mp hbefore
    obtain ⟨rest, rfl⟩ := ih (hothers hfirst) hbefore
    exact ⟨rest, rfl⟩

end

namespace Session

variable {σ : Type} [Host σ] {d : Dialect} {s : Session σ}

/-! ## Turns -/

theorem announce_speak (s : Session σ) (d : Dialect) :
    (s.speak d).announce = s.announce.speak d := by
  have hsame : (s.speak d).machine.announcement = s.machine.announcement := rfl
  unfold announce
  rw [hsame]
  rcases s.machine.announcement with _ | r <;> rfl

theorem refresh_speak (s : Session σ) (d : Dialect) : (s.speak d).refresh = s.refresh.speak d := by
  unfold refresh
  show (if s.machine.dirty then _ else s.speak d) = _
  split_ifs <;> rfl

theorem step_speak (h : s.machine.disputed d = false) :
    (s.speak d).step = (s.step.1.speak d, s.step.2) := by
  rcases hr : s.running with _ | _
  · have hr' : (s.speak d).running = false := hr
    rw [step_of_not_running hr, step_of_not_running hr']
    rfl
  · have hr' : (s.speak d).running = true := hr
    have hannounce : (s.speak d).announce.host = s.announce.host :=
      (congrArg Session.host (announce_speak s d)).trans rfl
    have hstep : (s.speak d).machine.step (s.speak d).keypad = _ :=
      Machine.step_speak h s.keypad
    rcases hm : s.machine.step s.keypad with ⟨m, f | e⟩
    · rw [hm] at hstep
      rw [step_of_error hr hm, step_of_error hr' hstep, hannounce]
      rfl
    · rw [hm] at hstep
      rw [step_of_ok hr hm, step_of_ok hr' hstep, hannounce]
      exact congrArg (·, _) (refresh_speak { s with host := s.announce.host, machine := m } d)

end Session

namespace Turn

variable {σ : Type} [Host σ] {d : Dialect} {t : Turn σ}

theorem result_speak (h : t.disputed d = false) :
    (t.speak d).result = (t.result.1.speak d, t.result.2) := by
  rcases t with ⟨_ | _, s⟩
  · exact Session.step_speak h
  · rfl

theorem after_speak (h : t.disputed d = false) : (t.speak d).after = t.after.speak d :=
  congrArg Prod.fst (result_speak h)

theorem answer_speak (h : t.disputed d = false) : (t.speak d).answer = t.answer :=
  (congrArg Prod.snd (result_speak h)).trans rfl

end Turn

namespace Session

variable {σ : Type} [Host σ] {d : Dialect} {s : Session σ}

/-! ## Catching up -/

theorem exists_catchUpTurns_eq_cons {tick : Tick} {c : Clock} (h : s.clock.pop = some (tick, c)) :
    ∃ rest, s.catchUpTurns = ⟨tick, { s with clock := c }⟩ :: rest := by
  rcases ha : (Turn.mk tick { s with clock := c }).answer with f | e
  · exact ⟨[], catchUpTurns_of_error h ha⟩
  · exact ⟨_, catchUpTurns_of_ok h ha⟩

theorem agree_catchUpTurns (s : Session σ) (d : Dialect) :
    Turn.Agree d s.catchUpTurns (s.speak d).catchUpTurns := by
  -- Both clocks are the same, so the next tick is; after a turn that is not disputed the sessions
  -- differ in the dialect alone again.
  induction s using catchUpTurns.induct with
  | case1 s h =>
    have h' : (s.speak d).clock.pop = none := h
    rw [catchUpTurns_of_none h, catchUpTurns_of_none h']
    rfl
  | case2 s tick c h turn e ha ih =>
    have h' : (s.speak d).clock.pop = some (tick, c) := h
    obtain ⟨rest, hrest⟩ := exists_catchUpTurns_eq_cons h'
    rw [catchUpTurns_of_ok h ha]
    refine ⟨rest, hrest, fun hturn => ?_⟩
    have ha' : (turn.speak d).answer = .ok e := (Turn.answer_speak hturn).trans ha
    rw [catchUpTurns_of_ok h' ha'] at hrest
    rw [← (List.cons.inj hrest).2]
    have hafter : (turn.speak d).after = turn.after.speak d := Turn.after_speak hturn
    exact hafter ▸ ih
  | case3 s tick c h turn f ha =>
    have h' : (s.speak d).clock.pop = some (tick, c) := h
    obtain ⟨rest, hrest⟩ := exists_catchUpTurns_eq_cons h'
    rw [catchUpTurns_of_error h ha]
    refine ⟨rest, hrest, fun hturn => ?_⟩
    have ha' : (turn.speak d).answer = .error f := (Turn.answer_speak hturn).trans ha
    rw [catchUpTurns_of_error h' ha'] at hrest
    exact (List.cons.inj hrest).2.symm

theorem catchUp_speak (h : ∀ turn ∈ s.catchUpTurns, turn.disputed d = false) :
    (s.speak d).catchUp = (s.catchUp.1.speak d, s.catchUp.2) := by
  induction s using catchUpTurns.induct with
  | case1 s hpop =>
    have hpop' : (s.speak d).clock.pop = none := hpop
    rw [catchUp_of_none hpop, catchUp_of_none hpop']
  | case2 s tick c hpop turn e ha ih =>
    rw [catchUpTurns_of_ok hpop ha] at h
    obtain ⟨hturn, hrest⟩ := List.forall_mem_cons.mp h
    have hpop' : (s.speak d).clock.pop = some (tick, c) := hpop
    have ha' : (turn.speak d).answer = .ok e := (Turn.answer_speak hturn).trans ha
    have hafter : (turn.speak d).after = turn.after.speak d := Turn.after_speak hturn
    rw [catchUp_of_turn_ok hpop ha, catchUp_of_turn_ok hpop' ha', ← ih hrest]
    exact congrArg catchUp hafter
  | case3 s tick c hpop turn f ha =>
    rw [catchUpTurns_of_error hpop ha] at h
    have hturn : turn.disputed d = false := h turn (List.mem_singleton_self _)
    have hpop' : (s.speak d).clock.pop = some (tick, c) := hpop
    have ha' : (turn.speak d).answer = .error f := (Turn.answer_speak hturn).trans ha
    have hafter : (turn.speak d).after = turn.after.speak d := Turn.after_speak hturn
    rw [catchUp_of_turn_error hpop ha, catchUp_of_turn_error hpop' ha']
    exact congrArg (·, _) hafter

/-! ## Calls -/

theorem start_speak (s : Session σ) (d : Dialect) (program : List UInt8) (drawn : ChaCha.Key) :
    (s.speak d).start program drawn =
      ((s.start program drawn).1.speak d, (s.start program drawn).2) := by
  rcases Nat.lt_or_ge Machine.maxProgram program.length with h | h
  · rw [start_of_lt h, start_of_lt h]
    rfl
  · obtain ⟨m, hm, hstart⟩ := start_of_le h s drawn
    obtain ⟨m', hm', hstart'⟩ := start_of_le h (s.speak d) drawn
    unfold Machine.load at hm hm'
    rw [if_pos h] at hm hm'
    obtain rfl := Except.ok.inj hm
    obtain rfl := Except.ok.inj hm'
    rw [hstart, hstart']
    rfl

theorem stop_speak (s : Session σ) (d : Dialect) : (s.speak d).stop = s.stop.speak d := by
  rw [stop_eq, stop_eq]
  rfl

omit [Host σ] in
theorem quietly_speak {r r' : Session σ × Except Fault Unit} (h : r' = (r.1.speak d, r.2)) :
    quietly r' = ((quietly r).1.speak d, (quietly r).2) := by
  rw [h]
  rfl

theorem receive_speak (s : Session σ) (d : Dialect) (keypad : Except Fault Keypad)
    (refused : Fault → Record) :
    (s.speak d).receive keypad refused =
      ((s.receive keypad refused).1.speak d, (s.receive keypad refused).2) := by
  rcases keypad with f | p <;> rfl

theorem keyDown_speak (s : Session σ) (d : Dialect) (code : UInt8) :
    (s.speak d).keyDown code = ((s.keyDown code).1.speak d, (s.keyDown code).2) := by
  rw [keyDown_eq, keyDown_eq]
  exact receive_speak (s.note (.keyDown code)) d _ _

theorem keyUp_speak (s : Session σ) (d : Dialect) (code : UInt8) :
    (s.speak d).keyUp code = ((s.keyUp code).1.speak d, (s.keyUp code).2) := by
  rw [keyUp_eq, keyUp_eq]
  exact receive_speak (s.note (.keyUp code)) d _ _

/-- A call during which nothing executes does the same in every dialect. -/
theorem call_speak_of_idle {c : Call} (h : ¬ (s.running = true ∧ c.executes = true)) :
    (s.speak d).call c = ((s.call c).1.speak d, (s.call c).2) := by
  have hstopped : c.executes = true → s.running = false := fun hc =>
    Bool.eq_false_iff.mpr fun hr => h ⟨hr, hc⟩
  have hstopped' : c.executes = true → (s.speak d).running = false := hstopped
  cases c with
  | start program drawn => exact quietly_speak (start_speak s d program drawn)
  | stop => exact congrArg (·, _) (stop_speak s d)
  | step =>
    show (s.speak d).step = (s.step.1.speak d, s.step.2)
    rw [step_of_not_running (hstopped rfl), step_of_not_running (hstopped' rfl)]
    rfl
  | cycle =>
    refine quietly_speak ?_
    rw [cycle_of_not_running (hstopped rfl), cycle_of_not_running (hstopped' rfl)]
  | advance ns =>
    refine quietly_speak ?_
    rw [advance_of_not_running (hstopped rfl), advance_of_not_running (hstopped' rfl)]
  | keyDown code => exact quietly_speak (keyDown_speak s d code)
  | keyUp code => exact quietly_speak (keyUp_speak s d code)
  | releaseKeys => rfl

/-- A call that takes no disputed turn does the same in both dialects. -/
theorem call_speak {c : Call} (h : ∀ turn ∈ s.callTurns c, turn.disputed d = false) :
    (s.speak d).call c = ((s.call c).1.speak d, (s.call c).2) := by
  rcases s.callTurns_elim c with ⟨-, hidle⟩ | ⟨hr, -⟩
  · exact call_speak_of_idle hidle
  have hr' : (s.speak d).running = true := hr
  unfold callTurns at h
  rw [if_pos hr] at h
  cases c with
  | step => exact step_speak (h ⟨.processor, s⟩ (List.mem_singleton_self _))
  | cycle =>
    refine quietly_speak ?_
    rw [cycle_of_running hr]
    exact (cycle_of_running hr').trans
      (catchUp_speak (s := { s with clock := s.clock.elapsePeriod }) h)
  | advance ns =>
    refine quietly_speak ?_
    rw [advance_of_running hr]
    exact (advance_of_running hr' ns).trans
      (catchUp_speak (s := { s with clock := s.clock.elapse ns }) h)
  | _ => exact call_speak_of_idle fun hc => Bool.false_ne_true hc.2

theorem agree_callTurns (s : Session σ) (d : Dialect) (c : Call) :
    Turn.Agree d (s.callTurns c) ((s.speak d).callTurns c) := by
  unfold callTurns
  show Turn.Agree d _ (if s.running then _ else _)
  split_ifs
  · cases c with
    | step => exact ⟨[], rfl, fun _ => rfl⟩
    | cycle => exact agree_catchUpTurns ({ s with clock := s.clock.elapsePeriod } : Session σ) d
    | advance ns => exact agree_catchUpTurns ({ s with clock := s.clock.elapse ns } : Session σ) d
    | _ => rfl
  · rfl

theorem agree_callsTurns (s : Session σ) (d : Dialect) (cs : List Call) :
    Turn.Agree d (s.callsTurns cs) ((s.speak d).callsTurns cs) := by
  induction cs generalizing s with
  | nil => rfl
  | cons c cs ih =>
    refine (agree_callTurns s d c).append fun hturns => ?_
    rw [call_speak hturns]
    exact ih (s.call c).1

theorem calls_speak {cs : List Call} (h : ∀ turn ∈ s.callsTurns cs, turn.disputed d = false) :
    (s.speak d).calls cs = ((s.calls cs).1.speak d, (s.calls cs).2) := by
  induction cs generalizing s with
  | nil => rfl
  | cons c cs ih =>
    obtain ⟨hcall, hcalls⟩ := List.forall_mem_append.mp h
    rw [calls_cons, calls_cons, call_speak hcall, ih hcalls]

/-! ## The dialect of a session -/

theorem dialect_of_mem_callsTurns (settings : Settings) (host : σ) (drawn : ChaCha.Key)
    (cs : List Call) :
    ∀ turn ∈ (create settings host drawn).callsTurns cs,
      turn.before.machine.dialect = settings.dialect := by
  have hlasting : Lasting fun s : Session σ => s.machine.dialect = settings.dialect := {
    note := fun _ _ h => h
    clock := fun _ _ h => h
    stopped := fun _ h => h
    keypad := fun _ _ h => h
    countDown := fun _ h => h
    step := fun s h => by
      rcases hr : s.running with _ | _
      · rw [step_of_not_running hr]
        exact h
      · rcases hm : s.machine.step s.keypad with ⟨m, f | e⟩
        · rw [step_of_error hr hm, Machine.eq_of_step_error hm]
          exact h
        · rw [step_of_ok hr hm, refresh_eq]
          exact (Machine.dialect_of_step hm).trans h }
  intro turn hturn
  obtain ⟨earlier, c, later, -, hmem⟩ := mem_callsTurns hturn
  have hcoherent := coherent_calls (coherent_create settings host drawn) earlier
  exact hlasting.callTurns hcoherent.dialect_eq c turn hmem

/-- With a seed the turns are the same whatever is drawn for the starts. -/
theorem callsTurns_redraw {seed : UInt64} (hseed : s.settings.seed = some seed)
    (f : ChaCha.Key → ChaCha.Key) (cs : List Call) :
    s.callsTurns (cs.map (Call.redraw f)) = s.callsTurns cs := by
  induction cs generalizing s with
  | nil => rfl
  | cons c cs ih =>
    have hcall : s.callTurns (c.redraw f) = s.callTurns c := by cases c <;> rfl
    have hnext : (s.call c).1.settings.seed = some seed := by rw [settings_call, hseed]
    show s.callTurns (c.redraw f) ++ (s.call (c.redraw f)).1.callsTurns _ = _
    rw [hcall, call_redraw hseed, ih hnext]
    rfl

/-- **A dialect matters only where it is defined.** Two new sessions with the same seed and speed
but different dialects are asked the same calls, in front of any host, with keys drawn for each of
them. Their turns are the same, but for the dialect itself, up to and including the first that
executes a disputed instruction, and so are what the turns before it leave of the session, the host
included, and their answers. If there is no such turn, the calls have the same answers, and in the
end the sessions still are the same but for the dialect. -/
theorem dialects_agree (settings : Settings) (seed : UInt64) (d : Dialect) (host : σ)
    (drawn drawn' : ChaCha.Key) (f : ChaCha.Key → ChaCha.Key) (cs : List Call) :
    let s := create (settings.withSeed seed) host drawn
    let t := create ((settings.withSeed seed).withDialect d) host drawn'
    let cs' := cs.map (Call.redraw f)
    (∀ turn ∈ s.callsTurns cs, turn.before.machine.dialect = settings.dialect) ∧
      (∀ before turn later, s.callsTurns cs = before ++ turn :: later →
        (∀ turn ∈ before, turn.disputed d = false) →
          (∃ later', t.callsTurns cs' = before.map (Turn.speak d) ++ turn.speak d :: later') ∧
            ∀ turn ∈ before,
              (turn.speak d).after = turn.after.speak d ∧ (turn.speak d).answer = turn.answer) ∧
      ((∀ turn ∈ s.callsTurns cs, turn.disputed d = false) →
        t.calls cs' = ((s.calls cs).1.speak d, (s.calls cs).2)) := by
  intro s t cs'
  have ht : t = s.speak d := rfl
  have hseed : t.settings.seed = some seed := rfl
  rw [callsTurns_redraw hseed, calls_redraw hseed, ht]
  refine ⟨dialect_of_mem_callsTurns (settings.withSeed seed) host drawn cs,
    fun before turn later hsplit hbefore => ?_, calls_speak⟩
  have hagree := agree_callsTurns s d cs
  rw [hsplit] at hagree
  exact ⟨hagree.split hbefore, fun turn hturn =>
    ⟨Turn.after_speak (hbefore turn hturn), Turn.answer_speak (hbefore turn hturn)⟩⟩

/-- A random byte, a shift of a register by itself and a sprite that stays inside are the same
though the dialects differ on every point; then a shift of one register by another finds them
different, and there the sessions part. -/
theorem dialects_agree_shift :
    let d : Dialect := ⟨true, true, true, true, true⟩
    let host : Transcript := {}
    let settings := ({} : Settings).withSeed 7
    let program : List UInt8 := [0xC3, 0xFF, 0x81, 0x16, 0xD0, 0x01, 0x81, 0x36]
    let s := create settings host default
    let t := create (settings.withDialect d) host (Random.keyOfSeed 1)
    let cs := [.start program default, .step, .step, .step]
    let cs' := [.start program (Random.keyOfSeed 2), .step, .step, .step]
    let turns := s.callsTurns (cs ++ [.step])
    (∀ turn ∈ s.callsTurns cs, turn.disputed d = false) ∧
      t.calls cs' = ((s.calls cs).1.speak d, (s.calls cs).2) ∧
      (∃ before turn later later', turns = before ++ turn :: later ∧
        (∀ turn ∈ before, turn.disputed d = false) ∧ turn.disputed d = true ∧
        t.callsTurns (cs' ++ [.step]) = before.map (Turn.speak d) ++ turn.speak d :: later') ∧
      (t.calls (cs' ++ [.step])).1.machine.v ≠ (s.calls (cs ++ [.step])).1.machine.v := by
  intro d host settings program s t cs cs' turns
  let f : ChaCha.Key → ChaCha.Key := fun _ => Random.keyOfSeed 2
  obtain ⟨-, -, hcalls⟩ := dialects_agree {} 7 d host default (Random.keyOfSeed 1) f cs
  obtain ⟨-, hturns, -⟩ :=
    dialects_agree {} 7 d host default (Random.keyOfSeed 1) f (cs ++ [.step])
  have hrun : (∀ turn ∈ s.callsTurns cs, turn.disputed d = false) ∧
      turns.map (Turn.disputed · d) = List.replicate 3 false ++ [true] ∧
      (t.calls (cs' ++ [.step])).1.machine.v ≠ (s.calls (cs ++ [.step])).1.machine.v := by
    decide +kernel
  obtain ⟨hundisputed, hdisputed, hpart⟩ := hrun
  refine ⟨hundisputed, hcalls hundisputed, ?_, hpart⟩
  obtain ⟨before, rest, hsplit, hbefore, hrest⟩ := List.map_eq_append_iff.mp hdisputed
  obtain ⟨turn, later, rfl, hturn, -⟩ := List.map_eq_cons_iff.mp hrest
  have hundisputed' : ∀ turn ∈ before, turn.disputed d = false := fun turn hmem =>
    List.eq_of_mem_replicate (hbefore ▸ List.mem_map_of_mem hmem)
  obtain ⟨⟨later', hlater⟩, -⟩ := hturns before turn later hsplit hundisputed'
  exact ⟨before, turn, later, later', hsplit, hundisputed', hturn, hlater⟩

end Session

end ChipEight
