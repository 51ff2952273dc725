import ChipEight.Proofs.Session.Running
import ChipEight.Proofs.Session.Transcript

/-!
# A session does not look at its host

A session tells its host things and never asks it anything. A `Cue` is one thing it tells: a
performance or a record. `Session.cues` lists what a session says during a list of calls, found by
letting it play to a `Script`, a host that copies everything out.

A map of hosts that `Relays` whatever it is told may be applied before or after the calls
(`calls_map`). To `hear` the cues of a script is such a map, so in front of any host the calls do
what they do in front of a script, and in the end the host has heard the cues (`calls_eq_script`).
-/

namespace ChipEight

/-! ## Cues -/

/-- One thing that a session tells its host. -/
inductive Cue where
  | play (p : Performance)
  | record (r : Record)
  deriving DecidableEq

/-- What a cue performs, if it is not just a record. -/
def Cue.performance? : Cue → Option Performance
  | play p => some p
  | record _ => none

/-- A host that copies out every cue, the earliest first. -/
structure Script where
  cues : List Cue := []
  deriving DecidableEq

instance : Host Script where
  render p h := ⟨h.cues ++ [.play (.picture p)]⟩
  beep h := ⟨h.cues ++ [.play .beep]⟩
  note r h := ⟨h.cues ++ [.record r]⟩

section

variable {σ : Type} [Host σ]

/-- What is left of a host that was told one thing. -/
def told (h : σ) : Cue → σ
  | .play (.picture p) => Host.render p h
  | .play .beep => Host.beep h
  | .record r => Host.note r h

/-- What is left of a host that heard a list of cues. -/
def hear (h : σ) (cues : List Cue) : σ := cues.foldl told h

theorem hear_append (h : σ) (as bs : List Cue) : hear h (as ++ bs) = hear (hear h as) bs :=
  List.foldl_append

theorem cues_hear (h : Script) (cues : List Cue) : (hear h cues).cues = h.cues ++ cues := by
  induction cues generalizing h with
  | nil => exact (List.append_nil _).symm
  | cons c cues ih =>
    have hc : (told h c).cues = h.cues ++ [c] := by
      rcases c with (p | _) | r <;> rfl
    show (hear (told h c) cues).cues = h.cues ++ c :: cues
    rw [ih, hc, List.append_assoc, List.singleton_append]

end

/-! ## Hosts that pass on what they are told -/

/-- A map of hosts that passes on everything it is told. -/
structure Relays {σ τ : Type} [Host σ] [Host τ] (φ : σ → τ) : Prop where
  render : ∀ p h, φ (Host.render p h) = Host.render p (φ h)
  beep : ∀ h, φ (Host.beep h) = Host.beep (φ h)
  note : ∀ r h, φ (Host.note r h) = Host.note r (φ h)

theorem relays_hear {σ : Type} [Host σ] (h : σ) : Relays fun s : Script => hear h s.cues where
  render _ s := hear_append h s.cues _
  beep s := hear_append h s.cues _
  note _ s := hear_append h s.cues _

namespace Session

variable {σ τ : Type}

/-- The session in front of another host. -/
def map (φ : σ → τ) (s : Session σ) : Session τ where
  settings := s.settings
  host := φ s.host
  machine := s.machine
  keypad := s.keypad
  clock := s.clock
  running := s.running
  fault := s.fault

variable [Host σ] [Host τ] {φ : σ → τ}

/-! ## Reports of one key -/

/-- Takes over the keypad after a report, or puts on record why the report was refused. -/
def receive (s : Session σ) (keypad : Except Fault Keypad) (refused : Fault → Record) :
    Session σ × Except Fault Unit :=
  match keypad with
  | .ok keypad => ({ s with keypad }, .ok ())
  | .error f => (s.note (refused f), .error f)

theorem keypad_note (s : Session σ) (r : Record) : (s.note r).keypad = s.keypad := rfl

theorem keyDown_eq (s : Session σ) (code : UInt8) :
    s.keyDown code =
      (s.note (.keyDown code)).receive (s.keypad.keyDown code) .pressIgnored := by
  rcases h : s.keypad.keyDown code with f | p
  · simp only [keyDown, receive, keypad_note, h]
  · simp only [keyDown, receive, keypad_note, h]

theorem keyUp_eq (s : Session σ) (code : UInt8) :
    s.keyUp code =
      (s.note (.keyUp code)).receive (s.keypad.keyUp code) .releaseIgnored := by
  rcases h : s.keypad.keyUp code with f | p
  · simp only [keyUp, receive, keypad_note, h]
  · simp only [keyUp, receive, keypad_note, h]

theorem stop_eq (s : Session σ) :
    s.stop = { s with
      host := hear s.host (if s.running then [.record (.stopped s.machine.pc)] else [])
      running := false } := by
  unfold stop
  split_ifs <;> rfl

/-! ## Calls in front of another host -/

omit [Host σ] [Host τ] in
theorem quietly_map {r : Session τ × Except Fault Unit} {r' : Session σ × Except Fault Unit}
    (h : r = (r'.1.map φ, r'.2)) : quietly r = ((quietly r').1.map φ, (quietly r').2) := by
  rw [h]
  rfl

section

variable (hφ : Relays φ)
include hφ

theorem note_map (s : Session σ) (r : Record) : (s.map φ).note r = (s.note r).map φ := by
  unfold note map
  rw [hφ.note]

theorem announce_map (s : Session σ) : (s.map φ).announce = s.announce.map φ := by
  have hmachine : (s.map φ).machine = s.machine := rfl
  unfold announce
  rw [hmachine]
  rcases s.machine.announcement with _ | r
  · rfl
  · exact note_map hφ s r

theorem refresh_map (s : Session σ) : (s.map φ).refresh = s.refresh.map φ := by
  unfold refresh
  show (if s.machine.dirty then _ else s.map φ) = _
  split_ifs
  · unfold map
    rw [hφ.render]
  · rfl

theorem countDown_map (s : Session σ) : (s.map φ).countDown = s.countDown.map φ := by
  unfold countDown map
  dsimp only
  split_ifs
  · rfl
  · rw [hφ.beep]

theorem step_map (s : Session σ) : (s.map φ).step = (s.step.1.map φ, s.step.2) := by
  rcases hr : s.running with _ | _
  · have hr' : (s.map φ).running = false := hr
    rw [step_of_not_running hr, step_of_not_running hr']
    rfl
  · have hr' : (s.map φ).running = true := hr
    have hannounce : (s.map φ).announce.host = φ s.announce.host :=
      congrArg Session.host (announce_map hφ s)
    rcases hm : s.machine.step s.keypad with ⟨m, f | e⟩
    · have hm' : (s.map φ).machine.step (s.map φ).keypad = (m, .error f) := hm
      rw [step_of_error hr hm, step_of_error hr' hm', hannounce, ← hφ.note]
      rfl
    · have hm' : (s.map φ).machine.step (s.map φ).keypad = (m, .ok e) := hm
      rw [step_of_ok hr hm, step_of_ok hr' hm', hannounce]
      exact congrArg (·, _) (refresh_map hφ { s with host := s.announce.host, machine := m })

theorem catchUp_map (s : Session σ) : (s.map φ).catchUp = (s.catchUp.1.map φ, s.catchUp.2) := by
  -- Both clocks are the same, so both sessions catch up tick by tick with the same cases.
  induction s using catchUp.induct with
  | case1 s h =>
    have h' : (s.map φ).clock.pop = none := h
    rw [catchUp_of_none h, catchUp_of_none h']
  | case2 s c h ih =>
    have h' : (s.map φ).clock.pop = some (.timer, c) := h
    rw [catchUp_of_timer h, catchUp_of_timer h', ← ih]
    exact congrArg catchUp (countDown_map hφ { s with clock := c })
  | case3 s c h s' e hstep ih =>
    have h' : (s.map φ).clock.pop = some (.processor, c) := h
    have hstep' : ({ s.map φ with clock := c } : Session τ).step = (s'.map φ, .ok e) := by
      have hmap := step_map hφ { s with clock := c }
      rwa [hstep] at hmap
    rw [catchUp_of_processor_ok h hstep, catchUp_of_processor_ok h' hstep', ih]
  | case4 s c h s' f hstep =>
    have h' : (s.map φ).clock.pop = some (.processor, c) := h
    have hstep' : ({ s.map φ with clock := c } : Session τ).step = (s'.map φ, .error f) := by
      have hmap := step_map hφ { s with clock := c }
      rwa [hstep] at hmap
    rw [catchUp_of_processor_error h hstep, catchUp_of_processor_error h' hstep']

theorem start_map (s : Session σ) (program : List UInt8) (drawn : ChaCha.Key) :
    (s.map φ).start program drawn =
      ((s.start program drawn).1.map φ, (s.start program drawn).2) := by
  have hsettings : (s.map φ).settings = s.settings := rfl
  unfold start
  rw [hsettings]
  rcases Machine.load program s.settings drawn with f | m
  · dsimp only
    rw [note_map hφ]
  · dsimp only
    rw [note_map hφ, note_map hφ]
    rfl

theorem stop_map (s : Session σ) : (s.map φ).stop = s.stop.map φ := by
  unfold stop
  dsimp only
  show ({ (if s.running then _ else _ : Session τ) with running := false } : Session τ) = _
  split_ifs
  · rw [note_map hφ]
    rfl
  · rfl

theorem receive_map (s : Session σ) (keypad : Except Fault Keypad) (refused : Fault → Record) :
    (s.map φ).receive keypad refused =
      ((s.receive keypad refused).1.map φ, (s.receive keypad refused).2) := by
  rcases keypad with f | p
  · exact congrArg (·, _) (note_map hφ s (refused f))
  · rfl

theorem advance_map (s : Session σ) (ns : ℕ) :
    (s.map φ).advance ns = ((s.advance ns).1.map φ, (s.advance ns).2) := by
  rcases hr : s.running with _ | _
  · have hr' : (s.map φ).running = false := hr
    rw [advance_of_not_running hr, advance_of_not_running hr']
  · have hr' : (s.map φ).running = true := hr
    rw [advance_of_running hr, advance_of_running hr']
    exact catchUp_map hφ { s with clock := s.clock.elapse ns }

theorem cycle_map (s : Session σ) : (s.map φ).cycle = (s.cycle.1.map φ, s.cycle.2) := by
  rcases hr : s.running with _ | _
  · have hr' : (s.map φ).running = false := hr
    rw [cycle_of_not_running hr, cycle_of_not_running hr']
  · have hr' : (s.map φ).running = true := hr
    rw [cycle_of_running hr, cycle_of_running hr']
    exact catchUp_map hφ { s with clock := s.clock.elapsePeriod }

theorem keyDown_map (s : Session σ) (code : UInt8) :
    (s.map φ).keyDown code = ((s.keyDown code).1.map φ, (s.keyDown code).2) := by
  rw [keyDown_eq, keyDown_eq, note_map hφ]
  exact receive_map hφ _ _ _

theorem keyUp_map (s : Session σ) (code : UInt8) :
    (s.map φ).keyUp code = ((s.keyUp code).1.map φ, (s.keyUp code).2) := by
  rw [keyUp_eq, keyUp_eq, note_map hφ]
  exact receive_map hφ _ _ _

theorem call_map (s : Session σ) (c : Call) :
    (s.map φ).call c = ((s.call c).1.map φ, (s.call c).2) := by
  cases c with
  | start program drawn => exact quietly_map (start_map hφ s program drawn)
  | stop => exact congrArg (·, _) (stop_map hφ s)
  | step => exact step_map hφ s
  | cycle => exact quietly_map (cycle_map hφ s)
  | advance ns => exact quietly_map (advance_map hφ s ns)
  | keyDown code => exact quietly_map (keyDown_map hφ s code)
  | keyUp code => exact quietly_map (keyUp_map hφ s code)
  | releaseKeys => rfl

/-- Calls do the same to the host before and after it is replaced. -/
theorem calls_map (cs : List Call) (s : Session σ) :
    (s.map φ).calls cs = ((s.calls cs).1.map φ, (s.calls cs).2) := by
  induction cs generalizing s with
  | nil => rfl
  | cons c cs ih =>
    rw [calls_cons, calls_cons, call_map hφ, ih]

end

/-! ## What a session says -/

/-- The calls, with a script in the place of the host. -/
def script (s : Session σ) (cs : List Call) : Session Script × List (Except Fault Outcome) :=
  (s.map fun _ => {}).calls cs

/-- What a session tells its host during a list of calls. -/
def cues (s : Session σ) (cs : List Call) : List Cue := (s.script cs).1.host.cues

/-- In front of its host a session does the same, and the host hears the cues. -/
theorem calls_eq_script (s : Session σ) (cs : List Call) :
    s.calls cs = ((s.script cs).1.map fun c => hear s.host c.cues, (s.script cs).2) :=
  calls_map (relays_hear s.host) cs (s.map fun _ => {})

theorem host_calls (s : Session σ) (cs : List Call) :
    (s.calls cs).1.host = hear s.host (s.cues cs) := by
  rw [calls_eq_script]
  rfl

end Session

end ChipEight
