import ChipEight.Proofs.Machine.Waiting
import ChipEight.Proofs.Session.Invariant
import ChipEight.Proofs.Session.Lasting
import ChipEight.Proofs.Session.Transcript

/-!
# Waiting for a key in a session

What happens to the console of a running session happens through reports of keys, counts of the
timers and steps. `wait_protocol` follows a session that is about to wait for a key, whatever calls
led there: the first step begins the wait, the wait goes on while no key goes down, and the first
step after one did ends it.
-/

namespace ChipEight

namespace Session

variable {σ : Type} {s : Session σ} {m : Machine} {e : Outcome}

def console (s : Session σ) : Console := ⟨s.machine, s.keypad⟩

variable [Host σ]

/-- What is left of a session after something happened. -/
def after (s : Session σ) : Happening → Session σ
  | .key e => (s.call (.ofKey e)).1
  | .tick => s.countDown
  | .step => s.step.1

def happen (s : Session σ) (hs : List Happening) : Session σ := hs.foldl after s

theorem console_ofKey (s : Session σ) (e : Keypad.Event) :
    (s.after (.key e)).console = s.console.after (.key e) ∧
      (s.after (.key e)).running = s.running := by
  obtain ⟨rs, hcall⟩ := s.call_ofKey e
  show (s.call (.ofKey e)).1.console = _ ∧ (s.call (.ofKey e)).1.running = _
  rw [hcall, foldl_note_eq]
  exact ⟨rfl, rfl⟩

/-! ## The keypad of a session -/

theorem keypad_step (s : Session σ) : s.step.1.keypad = s.keypad := by
  rcases hr : s.running with _ | _
  · rw [step_of_not_running hr]
  · rcases hm : s.machine.step s.keypad with ⟨m, f | e⟩
    · rw [step_of_error hr hm]
    · rw [step_of_ok hr hm, refresh_eq]

theorem lasting_stamped : Lasting fun s : Session σ => s.keypad.Stamped where
  note _ _ h := h
  clock _ _ h := h
  stopped _ h := h
  keypad _ e h := h.follow [e]
  countDown _ h := h
  step s h := by
    rw [keypad_step]
    exact h

theorem stamped_call (h : s.keypad.Stamped) (c : Call) : (s.call c).1.keypad.Stamped := by
  refine lasting_stamped.call h c fun program drawn _ => ?_
  unfold start
  rcases Machine.load program s.settings drawn with f | m
  · exact h
  · exact Keypad.stamped_new

/-! ## A session that waits -/

/-- A running session takes the step of its console, if that succeeds and draws nothing. -/
theorem console_step_of_ok (hr : s.running = true) (hm : s.machine.step s.keypad = (m, .ok e))
    (hshown : m.dirty = false) :
    s.step.1.console = s.console.after .step ∧ s.step.1.running = true ∧
      s.step.1.machine.dirty = false ∧ s.step.2 = (s.machine.step s.keypad).2 := by
  have hafter : s.console.after .step = ⟨m, s.keypad⟩ := by
    show (⟨(s.machine.step s.keypad).1, s.keypad⟩ : Console) = _
    rw [hm]
  rw [step_of_ok hr hm, refresh_eq, hafter, hm]
  refine ⟨?_, hr, rfl, rfl⟩
  show (⟨{ m with dirty := false }, s.keypad⟩ : Console) = ⟨m, s.keypad⟩
  rw [← hshown]

theorem console_step_of_waitsSince (hr : s.running = true) (hshown : s.machine.dirty = false)
    {mark : ℕ} {latest : Option Key} (hwait : s.console.WaitsSince mark latest) :
    s.step.1.console = s.console.after .step ∧ s.step.1.running = true ∧
      s.step.1.machine.dirty = false ∧ s.step.2 = (s.machine.step s.keypad).2 := by
  have hstep : s.machine.step s.keypad = s.machine.resume latest := hwait.step_eq
  rcases latest with _ | k
  · exact console_step_of_ok hr hstep hshown
  · exact console_step_of_ok hr hstep hshown

/-- While it waits, a running session does what its console does. -/
theorem console_happen (hr : s.running = true) (hshown : s.machine.dirty = false) {mark : ℕ}
    {latest : Option Key} (hwait : s.console.WaitsSince mark latest) (hs : List Happening) :
    (.step ∈ hs → latest = none ∧ s.keypad.strikes (keyEvents hs) = []) →
      (s.happen hs).console = s.console.run hs ∧ (s.happen hs).running = true ∧
        (s.happen hs).machine.dirty = false := by
  -- From the end: what happens last happens to a console that is known to wait still.
  induction hs using List.reverseRecOn with
  | nil => exact fun _ => ⟨rfl, hr, hshown⟩
  | append_singleton hs happening ih =>
    intro hquiet
    have hquiet' : .step ∈ hs ++ [happening] →
        latest = none ∧ s.console.keypad.strikes (keyEvents hs) = [] := by
      intro hmem
      obtain ⟨hnone, hnil⟩ := hquiet hmem
      rw [keyEvents, List.filterMap_append, Keypad.strikes_append, List.append_eq_nil_iff] at hnil
      exact ⟨hnone, hnil.1⟩
    obtain ⟨hconsole, hrun, hclean⟩ := ih fun hmem => hquiet' (List.mem_append_left _ hmem)
    have hwait' := (hwait.run hs fun hmem => hquiet' (List.mem_append_left _ hmem)).1
    have hhappen : s.happen (hs ++ [happening]) = (s.happen hs).after happening := by
      rw [happen, List.foldl_append]
      rfl
    rw [hhappen, Console.run_append, ← hconsole]
    cases happening with
    | key e =>
      obtain ⟨hcall, hrunning⟩ := console_ofKey (s.happen hs) e
      refine ⟨hcall, hrunning.trans hrun, ?_⟩
      exact (congrArg (fun c : Console => c.machine.dirty) hcall).trans hclean
    | tick => exact ⟨rfl, hrun, hclean⟩
    | step =>
      obtain ⟨rfl, hnil⟩ := hquiet' (List.mem_append_right _ List.mem_cons_self)
      rw [hnil, List.getLast?_nil, Option.or_none, ← hconsole] at hwait'
      obtain ⟨hstep, hrunning, hclean', -⟩ := console_step_of_waitsSince hrun hclean hwait'
      exact ⟨hstep, hrunning, hclean'⟩

theorem console_happen_append (hr : s.running = true) (hshown : s.machine.dirty = false) {mark : ℕ}
    (hwait : s.console.WaitsSince mark none) {hs ks : List Happening}
    (hquiet : s.keypad.strikes (keyEvents hs) = []) (hks : .step ∉ ks) :
    (s.happen (hs ++ ks)).console = s.console.run (hs ++ ks) ∧
      (s.happen (hs ++ ks)).running = true ∧ (s.happen (hs ++ ks)).machine.dirty = false := by
  obtain ⟨hconsole, hrun, hclean⟩ := console_happen hr hshown hwait hs fun _ => ⟨rfl, hquiet⟩
  obtain ⟨hidle, -⟩ := hwait.run_append hs ks hquiet hks
  rw [← hconsole] at hidle
  obtain ⟨hconsole', hend⟩ := console_happen hrun hclean hidle ks fun hmem => absurd hmem hks
  rw [happen, List.foldl_append, Console.run_append, ← hconsole]
  exact ⟨hconsole', hend⟩

/-- **The wait for a key.** Whatever calls led to a machine that is about to wait, the first step
begins the wait, whatever keys are down. Until a key goes down, keys and timers may do what they
like and every further step leaves the machine as it is. The first step after a key went down puts
the one that went down last into the register and moves on, also if that key was let go again. In a
session that runs, all this is what the calls of its host do. -/
theorem wait_protocol (settings : Settings) (host : σ) (drawn : ChaCha.Key) (cs : List Call)
    (hcalls : s = ((create settings host drawn).calls cs).1) (hpc : s.machine.pc ≤ 0xFFE)
    (hfit : s.machine.word.fits "Fx0A" = true) (hnone : s.machine.keyWait = none)
    (hs ks : List Happening) (hquiet : s.keypad.strikes (keyEvents hs) = []) (hks : .step ∉ ks) :
    let begun := { s.machine with keyWait := some s.keypad.edges }
    let c := s.console.run (.step :: (hs ++ ks))
    let t := s.happen (.step :: (hs ++ ks))
    s.machine.step s.keypad = (begun, .ok .waiting) ∧
      c.machine = Machine.tick^[(hs ++ ks).count .tick] begun ∧
      c.machine.step c.keypad =
        c.machine.resume (s.keypad.strikes (keyEvents (hs ++ ks))).getLast? ∧
      (s.running = true →
        s.step.2 = .ok .waiting ∧ t.console = c ∧ t.step.1.console = c.after .step ∧
          t.step.2 = (c.machine.step c.keypad).2) := by
  intro begun c t
  have hpad : s.keypad.Stamped := by
    rw [hcalls]
    exact calls_preserves (P := fun s => s.keypad.Stamped) (fun s c h => stamped_call h c) cs _
      Keypad.stamped_new
  have hshown : s.machine.dirty = false := by
    rw [hcalls]
    exact (coherent_calls (coherent_create settings host drawn) cs).shown
  obtain ⟨hfirst, hwait⟩ := Console.waitsSince_after_step (c := s.console) hpc hfit hnone hpad
  have hbegun : s.console.after .step = ⟨begun, s.keypad⟩ := by
    show (⟨(s.machine.step s.keypad).1, s.keypad⟩ : Console) = _
    rw [show s.machine.step s.keypad = (begun, .ok .waiting) from hfirst]
  obtain ⟨-, hend, hmachine⟩ := hwait.run_append hs ks hquiet hks
  refine ⟨hfirst, ?_, hend.step_eq, fun hr => ?_⟩
  · exact hmachine.trans (congrArg (Machine.tick^[_] ∘ Console.machine) hbegun)
  · obtain ⟨hconsole, hrun, hclean, hanswer⟩ := console_step_of_ok hr hfirst hshown
    have hquiet' : s.step.1.keypad.strikes (keyEvents hs) = [] := by
      rw [keypad_step]
      exact hquiet
    rw [← hconsole] at hwait
    -- From here on the session does what its console does, up to the step that ends the wait.
    obtain ⟨hlater, hrun', hclean'⟩ := console_happen_append hrun hclean hwait hquiet' hks
    have ht : t.console = c := by
      rw [hconsole] at hlater
      exact hlater
    have hend' : t.console.WaitsSince s.keypad.edges
        (s.keypad.strikes (keyEvents (hs ++ ks))).getLast? := by
      rw [ht]
      exact hend
    have hlast : t.step.1.console = t.console.after .step ∧ t.step.1.running = true ∧
        t.step.1.machine.dirty = false ∧
        t.step.2 = (t.console.machine.step t.console.keypad).2 :=
      console_step_of_waitsSince hrun' hclean' hend'
    rw [ht] at hlast
    refine ⟨?_, ht, hlast.1, hlast.2.2.2⟩
    rw [hanswer, show s.machine.step s.keypad = (begun, .ok .waiting) from hfirst]

/-- A program that puts the instruction that waits at the end of memory and jumps there: the key
that was down already and the one that does not exist do not count, the one let go again does. -/
theorem wait_protocol_end_of_memory :
    let s := ((create { seed := some 7 } ({} : Transcript) default).calls (
      [.start [0x60, 0xF3, 0x61, 0x0A, 0xAF, 0xFE, 0xF1, 0x55, 0x1F, 0xFE] default] ++
      List.replicate 5 .step ++ [.keyDown 3])).1
    let hs := [.key (.keyDown 3), .tick, .step, .key (.keyDown 16), .step, .key (.keyUp 3)]
    let ks := [.key (.keyDown 3), .key (.keyDown 7), .tick, .key .releaseAll]
    let c := s.console.run (.step :: (hs ++ ks))
    s.machine.pc = 0xFFE ∧ s.machine.word = 0xF30A ∧ s.machine.keyWait = none ∧
      s.keypad.strikes (keyEvents hs) = [] ∧ .step ∉ ks ∧ s.running = true ∧
      (s.happen (.step :: (hs ++ ks))).console = c ∧
      c.machine.step c.keypad = (c.machine.answered 7, .ok .plain) := by
  intro s hs ks c
  obtain ⟨hpc, hword, hnone, hrun, hquiet, hkey⟩ :
      s.machine.pc = 0xFFE ∧ s.machine.word = 0xF30A ∧ s.machine.keyWait = none ∧
        s.running = true ∧ s.keypad.strikes (keyEvents hs) = [] ∧
        (s.keypad.strikes (keyEvents (hs ++ ks))).getLast? = some 7 := by decide +kernel
  have hks : .step ∉ ks := by decide
  obtain ⟨-, -, hstep, hsession⟩ := wait_protocol (s := s) { seed := some 7 } {} default _ rfl
    (by rw [hpc]; decide) (by rw [hword]; decide) hnone hs ks hquiet hks
  rw [hkey] at hstep
  exact ⟨hpc, hword, hnone, hquiet, hks, hrun, (hsession hrun).2.1, hstep⟩

end Session

end ChipEight
