import ChipEight.Proofs.Session.Hearing
import ChipEight.Proofs.Session.Invariant
import ChipEight.Proofs.Session.Lasting

/-!
# Starting over

A start keeps the settings, the host and the speed of the clock, and nothing else of the session it
is asked of (`start_of_le`). The settings and the speed are those the session was created with
(`furnished_calls`), so after a start it does not matter what was played before: `start_afresh`.

Nor does it matter what the system draws for a session with a seed (`calls_redraw`).
-/

namespace ChipEight

/-- The same call, with other keys drawn for it. -/
def Call.redraw (f : ChaCha.Key → ChaCha.Key) : Call → Call
  | .start program drawn => .start program (f drawn)
  | c => c

namespace Session

variable {σ : Type} {settings : Settings} {s t : Session σ}

/-- The session plays with these settings, and its clock at their speed. -/
structure Furnished (settings : Settings) (s : Session σ) : Prop where
  settings_eq : s.settings = settings
  cpuHz_eq : s.clock.cpuHz = settings.cpuHz

variable [Host σ] {program : List UInt8} {drawn : ChaCha.Key}

/-- Sessions with the same settings are the same after a start, if their hosts are. -/
theorem start_eq_of_furnished (h : program.length ≤ Machine.maxProgram)
    (hs : s.Furnished settings) (ht : t.Furnished settings) (hhost : s.host = t.host)
    (drawn : ChaCha.Key) :
    s.start program drawn = t.start program drawn := by
  obtain ⟨m, hm, hstart⟩ := start_of_le h s drawn
  obtain ⟨m', hm', hstart'⟩ := start_of_le h t drawn
  rw [hs.settings_eq] at hm hstart
  rw [ht.settings_eq] at hm' hstart'
  obtain rfl : m = m' := Except.ok.inj (hm.symm.trans hm')
  rw [hstart, hstart', hs.cpuHz_eq, ht.cpuHz_eq, hhost]

/-! ## Settings and speed stay -/

theorem cpuHz_call (s : Session σ) (c : Call) : (s.call c).1.clock.cpuHz = s.clock.cpuHz := by
  cases c with
  | start program drawn =>
    show (s.start program drawn).1.clock.cpuHz = s.clock.cpuHz
    rcases Nat.lt_or_ge Machine.maxProgram program.length with h | h
    · rw [start_of_lt h]
      rfl
    · obtain ⟨m, -, hstart⟩ := start_of_le h s drawn
      rw [hstart]
  | stop =>
    show s.stop.clock.cpuHz = s.clock.cpuHz
    unfold stop
    dsimp only
    split_ifs <;> rfl
  | step => exact cpuHz_step s
  | cycle =>
    show s.cycle.1.clock.cpuHz = s.clock.cpuHz
    rcases hr : s.running with _ | _
    · rw [cycle_of_not_running hr]
    · rw [cycle_of_running hr, cpuHz_catchUp]
      exact s.clock.cpuHz_owe _
  | advance ns =>
    show (s.advance ns).1.clock.cpuHz = s.clock.cpuHz
    rcases hr : s.running with _ | _
    · rw [advance_of_not_running hr]
    · rw [advance_of_running hr, cpuHz_catchUp]
      exact s.clock.cpuHz_owe _
  | keyDown | keyUp | releaseKeys => rw [(call_key rfl s).2]

theorem lasting_settings (settings : Settings) :
    Lasting fun s : Session σ => s.settings = settings where
  note _ _ h := h
  clock _ _ h := h
  stopped _ h := h
  keypad _ _ h := h
  countDown _ h := h
  step s h := by
    rcases hr : s.running with _ | _
    · rw [step_of_not_running hr]
      exact h
    · rcases hm : s.machine.step s.keypad with ⟨m, f | e⟩
      · rw [step_of_error hr hm]
        exact h
      · rw [step_of_ok hr hm, refresh_eq]
        exact h

theorem settings_call (s : Session σ) (c : Call) : (s.call c).1.settings = s.settings := by
  refine (lasting_settings s.settings).call rfl c fun program drawn _ => ?_
  unfold start
  rcases Machine.load program s.settings drawn with f | m <;> rfl

theorem furnished_calls (settings : Settings) (host : σ) (drawn : ChaCha.Key) (cs : List Call) :
    ((create settings host drawn).calls cs).1.Furnished settings where
  settings_eq := calls_preserves (P := fun s => s.settings = settings)
    (fun s c hs => (s.settings_call c).trans hs) cs _ rfl
  cpuHz_eq := calls_preserves (P := fun s => s.clock.cpuHz = settings.cpuHz)
    (fun s c hs => (s.cpuHz_call c).trans hs) cs _ rfl

/-! ## What is drawn for a session with a seed -/

theorem start_of_seed {seed : UInt64} (hseed : s.settings.seed = some seed) (program : List UInt8)
    (drawn drawn' : ChaCha.Key) : s.start program drawn = s.start program drawn' := by
  have hfresh : Machine.fresh s.settings drawn = Machine.fresh s.settings drawn' := by
    unfold Machine.fresh
    rw [hseed]
    rfl
  unfold start Machine.load
  rw [hfresh]

/-- A session with a seed does the same whatever is drawn for it. -/
theorem call_redraw {seed : UInt64} (hseed : s.settings.seed = some seed)
    (f : ChaCha.Key → ChaCha.Key) (c : Call) : s.call (c.redraw f) = s.call c := by
  cases c with
  | start program drawn => exact congrArg quietly (start_of_seed hseed program (f drawn) drawn)
  | _ => rfl

theorem calls_redraw {seed : UInt64} (hseed : s.settings.seed = some seed)
    (f : ChaCha.Key → ChaCha.Key) (cs : List Call) :
    s.calls (cs.map (Call.redraw f)) = s.calls cs := by
  induction cs generalizing s with
  | nil => rfl
  | cons c cs ih =>
    have hnext : (s.call c).1.settings.seed = some seed := by rw [settings_call, hseed]
    rw [List.map_cons, calls_cons, calls_cons, call_redraw hseed, ih hnext]

omit [Host σ] in
theorem script_redraw {seed : UInt64} (hseed : s.settings.seed = some seed)
    (f : ChaCha.Key → ChaCha.Key) (cs : List Call) :
    s.script (cs.map (Call.redraw f)) = s.script cs :=
  calls_redraw (s := s.map fun _ => ({} : Script)) hseed f cs

/-! ## A used session and a new one -/

omit [Host σ] in
/-- After a start the script does not tell what was played before. -/
theorem script_start_eq (h : program.length ≤ Machine.maxProgram) (hs : s.Furnished settings)
    (ht : t.Furnished settings) (drawn : ChaCha.Key) (later : List Call) :
    s.script (.start program drawn :: later) = t.script (.start program drawn :: later) := by
  have hs' : (s.map fun _ => ({} : Script)).Furnished settings := ⟨hs.settings_eq, hs.cpuHz_eq⟩
  have ht' : (t.map fun _ => ({} : Script)).Furnished settings := ⟨ht.settings_eq, ht.cpuHz_eq⟩
  have hcall : (s.map fun _ => ({} : Script)).call (.start program drawn) =
      (t.map fun _ => ({} : Script)).call (.start program drawn) :=
    congrArg quietly (start_eq_of_furnished h hs' ht' rfl drawn)
  unfold script
  rw [calls_cons, calls_cons, hcall]

/-- **A start is all or nothing and leaks nothing.** Whatever calls were made of a session with a
seed, whether it runs, stopped or failed: a program of more than 3584 bytes is refused, and all that
changes is that the refusal is put on record. A shorter one begins a session like any other. From
then on the calls have the same answers, lead to the same session but for the host, and tell the
host the same, as they do when the session was just created, whatever keys are drawn in the one
case and in the other. -/
theorem start_afresh (settings : Settings) (seed : UInt64) (host host' : σ)
    (drawn drawn' again : ChaCha.Key) (cs : List Call) (program : List UInt8) :
    let s := ((create (settings.withSeed seed) host drawn).calls cs).1
    let new := create (settings.withSeed seed) host' drawn'
    (3584 < program.length →
      let f := Fault.programTooLarge program.length 3584
      s.call (.start program again) =
        ({ s with host := Host.note (.startRefused f) s.host }, .error f)) ∧
    (program.length ≤ 3584 → ∀ (later : List Call) (f : ChaCha.Key → ChaCha.Key),
      let ds := .start program again :: later
      let ds' := ds.map (Call.redraw f)
      (s.calls ds).2 = (new.calls ds').2 ∧ s.cues ds = new.cues ds' ∧
        (s.calls ds).1 = { (new.calls ds').1 with host := hear s.host (new.cues ds') } ∧
        (new.calls ds').1.host = hear host' (new.cues ds')) := by
  intro s new
  have hs : s.Furnished (settings.withSeed seed) := furnished_calls _ host drawn cs
  have hnew : new.Furnished (settings.withSeed seed) := ⟨rfl, rfl⟩
  have hseed : new.settings.seed = some seed := rfl
  have hhost : new.host = host' := rfl
  have hmax : Machine.maxProgram = 3584 := by decide
  clear_value s new
  rw [← hmax, ← hhost]
  refine ⟨fun hlong => congrArg quietly (start_of_lt hlong s again), fun hfits later f => ?_⟩
  intro ds ds'
  -- Both sessions play the same script, so they differ in who listens to it and in nothing else.
  have hscript : s.script ds = new.script ds' :=
    (script_start_eq hfits hs hnew again later).trans (script_redraw hseed f ds).symm
  have hcues : s.cues ds = new.cues ds' := congrArg (fun r => r.1.host.cues) hscript
  refine ⟨?_, hcues, ?_, host_calls new ds'⟩
  · rw [calls_eq_script s, calls_eq_script new, hscript]
  · rw [calls_eq_script s, calls_eq_script new, hscript]
    rfl

/-- A run with a random byte, a key held and a fault; then a program that is too long, and another
one that waits for a key and draws a random digit. -/
theorem start_afresh_fault :
    let new := create (({} : Settings).withSeed 7) ({} : Transcript) (Random.keyOfSeed 1)
    let s := ((create (({} : Settings).withSeed 7) ({} : Transcript) default).calls
      [.start [0xC0, 0xFF, 0x60, 0x09, 0xF0, 0x18, 0x00, 0xEE] default, .keyDown 3,
        .advance 20000000]).1
    let long : List UInt8 := List.replicate 3585 0
    let f := Fault.programTooLarge long.length 3584
    let short : List UInt8 := [0xF0, 0x0A, 0xC1, 0x0F, 0xF1, 0x29, 0xD0, 0x05]
    let ds := [.start short default, .step, .keyDown 3, .advance 7000000]
    let ds' := [.start short (Random.keyOfSeed 2), .step, .keyDown 3, .advance 7000000]
    (3584 < long.length ∧ short.length ≤ 3584) ∧
      (s.fault = some .stackUnderflow ∧ s.keypad.isHeld 3 = true) ∧
      s.call (.start long default) =
        ({ s with host := Host.note (.startRefused f) s.host }, .error f) ∧
      (s.calls ds).2 = (new.calls ds').2 ∧ s.cues ds = new.cues ds' ∧
      (new.calls ds').1.host.performances ≠ [] := by
  intro new s long f short ds ds'
  have hlong : 3584 < long.length := by
    rw [List.length_replicate]
    decide
  have hshort : short.length ≤ 3584 := by decide
  obtain ⟨hrefused, -⟩ := start_afresh {} 7 ({} : Transcript) {} default default default _ long
  obtain ⟨-, hfits⟩ :=
    start_afresh {} 7 ({} : Transcript) {} default (Random.keyOfSeed 1) default _ short
  obtain ⟨hanswers, hcues, -, -⟩ := hfits hshort ds.tail fun _ => Random.keyOfSeed 2
  refine ⟨⟨hlong, hshort⟩, ?_, hrefused hlong, hanswers, hcues, ?_⟩
  · decide +kernel
  · decide +kernel

end Session

end ChipEight
