import ChipEight.Proofs.Session.Turns

/-!
# Sessions that do not run

A session stops running because it is told to or because an instruction fails. A turn that fails is
the last of its call and leaves the machine as it was (`failed_turn`). From then on, whatever is
asked of the session but to start a program that fits, its machine, clock and fault stay, and all
its host gets is records (`calls_of_not_running`). `halts_and_stays` puts the two together.
-/

namespace ChipEight

namespace Call

/-- What a call does to the keypad, if it starts no program. -/
def keyEvents : Call → List Keypad.Event
  | .keyDown code => [.keyDown code]
  | .keyUp code => [.keyUp code]
  | .releaseKeys => [.releaseAll]
  | _ => []

/-- What a session that does not run puts on record. -/
def idleRecords : Call → List Record
  | .start program _ => [.startRefused (.programTooLarge program.length Machine.maxProgram)]
  | .keyDown code =>
    if code < 16 then [.keyDown code] else [.keyDown code, .pressIgnored (.invalidKey code)]
  | .keyUp code =>
    if code < 16 then [.keyUp code] else [.keyUp code, .releaseIgnored (.invalidKey code)]
  | .stop | .step | .cycle | .advance _ | .releaseKeys => []

/-- What a session that does not run answers, by the fault that ended its run. -/
def idleAnswer (fault : Option Fault) : Call → Except Fault Outcome
  | .start program _ => .error (.programTooLarge program.length Machine.maxProgram)
  | .step =>
    match fault with
    | some f => .error f
    | none => .ok .plain
  | .keyDown code | .keyUp code => if code < 16 then .ok .plain else .error (.invalidKey code)
  | _ => .ok .plain

end Call

namespace Session

variable {σ : Type} [Host σ] {s : Session σ} {f : Fault}

/-! ## A turn that fails -/

/-- A turn can only fail at an instruction. Then it ends the run, and the machine is as it was. -/
theorem failed_turn {turn : Turn σ} (hr : turn.before.running = true)
    (h : turn.answer = .error f) :
    turn.tick = .processor ∧ turn.before.machine.Fails f ∧
      turn.after = { turn.before with
        host := Host.note (.halted turn.before.machine.pc f) turn.before.announce.host
        running := false
        clock := turn.before.clock.reset
        fault := some f } := by
  rcases turn with ⟨_ | _, s⟩
  · rcases hm : s.machine.step s.keypad with ⟨m, f' | e⟩
    · have hstep := step_of_error hr hm
      have hf : f' = f := Except.error.inj ((congrArg Prod.snd hstep).symm.trans h)
      subst hf
      have hfails : s.machine.Fails f' := Machine.fails_of_step (congrArg Prod.snd hm)
      rw [Machine.eq_of_step_error hm] at hstep
      exact ⟨rfl, hfails, congrArg Prod.fst hstep⟩
    · have hstep : s.step.2 = .ok e := congrArg Prod.snd (step_of_ok hr hm)
      exact absurd (hstep.symm.trans h) (by simp)
  · cases h

/-- A turn that fails is the last of its call, and the call ends with it. -/
theorem callTurns_of_error {c : Call} {turn : Turn σ} (hmem : turn ∈ s.callTurns c)
    (h : turn.answer = .error f) :
    (∃ turns, s.callTurns c = turns ++ [turn] ∧ ∀ u ∈ turns, ∃ e, u.answer = .ok e) ∧
      s.call c = (turn.after, .error f) := by
  rcases s.callTurns_cases c with ⟨hall, -⟩ | ⟨turns, last, f', hturns, hall, hlast, hcall⟩
  · obtain ⟨e, he⟩ := hall turn hmem
    rw [he] at h
    cases h
  · have hsame : turn = last := by
      rw [hturns] at hmem
      rcases List.mem_append.mp hmem with hmem | hmem
      · obtain ⟨e, he⟩ := hall turn hmem
        rw [he] at h
        cases h
      · exact List.mem_singleton.mp hmem
    subst hsame
    obtain rfl : f = f' := Except.error.inj (h.symm.trans hlast)
    exact ⟨⟨turns, hturns, hall⟩, hcall⟩

/-- A call fails in a session that runs exactly if one of its turns does. -/
theorem call_eq_error_iff (hr : s.running = true) {c : Call} (hc : c.executes = true) :
    (s.call c).2 = .error f ↔ ∃ turn ∈ s.callTurns c, turn.answer = .error f := by
  constructor
  · intro h
    rcases s.callTurns_cases c with ⟨-, hok⟩ | ⟨turns, last, f', hturns, -, hlast, hcall⟩
    · obtain ⟨e, he⟩ := hok ⟨hr, hc⟩
      rw [he] at h
      cases h
    · rw [hcall] at h
      cases h
      exact ⟨last, hturns ▸ List.mem_append_right _ List.mem_cons_self, hlast⟩
  · rintro ⟨turn, hmem, hfail⟩
    rw [(callTurns_of_error hmem hfail).2]

/-! ## What is asked of a session that does not run -/

/-- A report of a key that exists happens to the keypad; any other is refused. -/
theorem report_eq (s : Session σ) {code : UInt8} {keypad : Except Fault Keypad} {e : Keypad.Event}
    (told : Record) (refused : Fault → Record)
    (hlt : code < 16 → keypad = .ok (s.keypad.apply e))
    (hle : ¬ code < 16 → keypad = .error (.invalidKey code) ∧ s.keypad.apply e = s.keypad) :
    quietly ((s.note told).receive keypad refused) = ({ s with
      host := hear s.host
        ((if code < 16 then [told] else [told, refused (.invalidKey code)]).map .record)
      keypad := s.keypad.apply e },
      if code < 16 then .ok .plain else .error (.invalidKey code)) := by
  split_ifs with h
  · rw [hlt h]
    rfl
  · obtain ⟨hkeypad, hsame⟩ := hle h
    rw [hkeypad, hsame]
    rfl

theorem call_of_not_running (hr : s.running = false) {c : Call}
    (hc : ∀ program drawn, c = .start program drawn → Machine.maxProgram < program.length) :
    s.call c = ({ s with
      host := hear s.host (c.idleRecords.map .record)
      keypad := s.keypad.follow c.keyEvents }, c.idleAnswer s.fault) := by
  cases c with
  | start program drawn => exact congrArg quietly (start_of_lt (hc program drawn rfl) s drawn)
  | stop =>
    have hstop : s.stop = { s with running := false } := by
      unfold stop
      rw [hr]
      rfl
    show (s.stop, _) = _
    rw [hstop, ← hr]
    rfl
  | step => exact step_of_not_running hr
  | cycle => exact congrArg quietly (cycle_of_not_running hr)
  | advance ns => exact congrArg quietly (advance_of_not_running hr ns)
  | keyDown code =>
    show quietly (s.keyDown code) = _
    rw [keyDown_eq]
    exact report_eq s _ _ (fun h => Keypad.keyDown_of_lt h _) fun h => Keypad.keyDown_of_not_lt h _
  | keyUp code =>
    show quietly (s.keyUp code) = _
    rw [keyUp_eq]
    exact report_eq s _ _ (fun h => Keypad.keyUp_of_lt h _) fun h => Keypad.keyUp_of_not_lt h _
  | releaseKeys => rfl

/-- Whatever is asked of a session that does not run, but to start a program that fits: its keypad
follows the keys and its host is told nothing but records. -/
theorem calls_of_not_running {cs : List Call} (hr : s.running = false)
    (hcs : ∀ program drawn, .start program drawn ∈ cs → Machine.maxProgram < program.length) :
    s.calls cs = ({ s with
      host := hear s.host ((cs.flatMap Call.idleRecords).map .record)
      keypad := s.keypad.follow (cs.flatMap Call.keyEvents) },
      cs.map (Call.idleAnswer s.fault)) := by
  induction cs generalizing s with
  | nil => rfl
  | cons c cs ih =>
    let t : Session σ := { s with
      host := hear s.host (c.idleRecords.map .record)
      keypad := s.keypad.follow c.keyEvents }
    have hcall : s.call c = (t, c.idleAnswer s.fault) :=
      call_of_not_running hr fun program drawn hc => hcs program drawn (hc ▸ List.mem_cons_self)
    have hlater := ih (s := t) hr fun program drawn hp =>
      hcs program drawn (List.mem_cons_of_mem c hp)
    have hhear : hear s.host (((c :: cs).flatMap Call.idleRecords).map .record) =
        hear t.host ((cs.flatMap Call.idleRecords).map .record) := by
      rw [List.flatMap_cons, List.map_append, hear_append]
    have hfollow : s.keypad.follow ((c :: cs).flatMap Call.keyEvents) =
        t.keypad.follow (cs.flatMap Call.keyEvents) := by
      rw [List.flatMap_cons]
      exact List.foldl_append
    rw [calls_cons, hcall, hlater, hhear, hfollow]
    rfl

/-- **A session that does not run is inert and remembers why.** A call fails in a session that runs
exactly if an instruction does. That instruction is at the program counter, nothing comes after it
in the call, the machine stays as it was before it, the run is over, the fault is kept and no time
is owed. To stop a session ends the run and changes nothing else. As long as a session does not run
and no program that fits is started, calls change the keypad alone and put records before the host;
a step answers with the fault that is kept, or with nothing, and time may pass without a fault. -/
theorem halts_and_stays (s : Session σ) :
    (∀ c f, s.running = true → c.executes = true →
      ((s.call c).2 = .error f ↔ ∃ turn ∈ s.callTurns c, turn.answer = .error f)) ∧
    (∀ c f, ∀ turn ∈ s.callTurns c, turn.answer = .error f →
      (∃ turns, s.callTurns c = turns ++ [turn] ∧ ∀ u ∈ turns, ∃ e, u.answer = .ok e) ∧
        turn.tick = .processor ∧ turn.before.machine.Fails f ∧
        s.call c = ({ turn.before with
          host := Host.note (.halted turn.before.machine.pc f) turn.before.announce.host
          running := false
          clock := turn.before.clock.reset
          fault := some f }, .error f)) ∧
    s.stop = { s with
      host := hear s.host (if s.running then [.record (.stopped s.machine.pc)] else [])
      running := false } ∧
    (s.running = false → ∀ cs : List Call,
      (∀ program drawn, .start program drawn ∈ cs → Machine.maxProgram < program.length) →
      s.calls cs = ({ s with
        host := hear s.host ((cs.flatMap Call.idleRecords).map .record)
        keypad := s.keypad.follow (cs.flatMap Call.keyEvents) },
        cs.map (Call.idleAnswer s.fault))) := by
  refine ⟨fun c f hr hc => call_eq_error_iff hr hc, fun c f turn hmem hfail => ?_, stop_eq s,
    fun hr cs hcs => calls_of_not_running hr hcs⟩
  obtain ⟨htick, hfails, hafter⟩ := failed_turn (s.running_of_mem_callTurns c turn hmem) hfail
  obtain ⟨hlast, hcall⟩ := callTurns_of_error hmem hfail
  exact ⟨hlast, htick, hfails, by rw [hcall, hafter]⟩

theorem hear_map_record (h : Transcript) (rs : List Record) : hear h (rs.map .record) = h := by
  induction rs with
  | nil => rfl
  | cons r rs ih => exact ih

/-- A program that sounds, draws and comes to a word that is no instruction, in a call that lets a
second pass; then calls of every other kind, with a key and a program that are refused. -/
theorem halts_and_stays_second :
    let s := ((create { seed := some 7 } ({} : Transcript) default).start
      [0x60, 0x09, 0xF0, 0x18, 0xD0, 0x05, 0xFF, 0xFF] default).1
    let t := (s.call (.advance 1000000000)).1
    let long : List UInt8 := List.replicate 3585 0
    let cs : List Call := [.advance 1000000000, .step, .keyDown 3, .keyUp 77, .start long default,
      .stop, .cycle]
    let f := Fault.unknownOpcode 0xFFFF
    (s.running = true ∧ (s.call (.advance 1000000000)).2 = .error f) ∧
      (t.running = false ∧ t.fault = some f ∧ t.machine.pc = 0x206 ∧ t.host.performances ≠ []) ∧
      (∀ program drawn, .start program drawn ∈ cs → Machine.maxProgram < program.length) ∧
      (t.calls cs).2 = [.ok .plain, .error f, .ok .plain, .error (.invalidKey 77),
        .error (.programTooLarge 3585 3584), .ok .plain, .ok .plain] ∧
      (t.calls cs).1 = { t with keypad := t.keypad.follow [.keyDown 3, .keyUp 77] } ∧
      s.stop = { s with running := false } := by
  intro s t long cs f
  have ht : t = (s.call (.advance 1000000000)).1 := rfl
  obtain ⟨hs, hpc, hshown⟩ :
      (s.running = true ∧ (s.call (.advance 1000000000)).2 = .error f) ∧
        (s.call (.advance 1000000000)).1.machine.pc = 0x206 ∧
        (s.call (.advance 1000000000)).1.host.performances ≠ [] := by decide +kernel
  rw [← ht] at hpc hshown
  have hlong : long.length = 3585 := List.length_replicate
  have hcs : ∀ program drawn, .start program drawn ∈ cs → Machine.maxProgram < program.length := by
    intro program drawn hmem
    have hstart : program = long ∧ drawn = default := by simpa [cs] using hmem
    rw [hstart.1, hlong]
    decide
  obtain ⟨hiff, hfailed, hstop, -⟩ := halts_and_stays s
  obtain ⟨turn, hmem, hfail⟩ := (hiff _ f hs.1 rfl).mp hs.2
  obtain ⟨-, -, -, hcall⟩ := hfailed _ f turn hmem hfail
  have hafter := ht.trans (congrArg Prod.fst hcall)
  have hrun : t.running = false := by rw [hafter]
  have hfault : t.fault = some f := by rw [hafter]
  -- What follows holds of every session that stopped for this fault.
  clear_value t
  obtain ⟨-, -, -, hidle⟩ := halts_and_stays t
  have hcalls := hidle hrun cs hcs
  refine ⟨hs, ⟨hrun, hfault, hpc, hshown⟩, hcs, ?_, ?_, ?_⟩
  · rw [hcalls, hfault, ← hlong]
    rfl
  · rw [hcalls, hear_map_record]
    rfl
  · rw [hstop]
    rfl

end Session

end ChipEight
