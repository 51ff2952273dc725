import ChipEight.Clock
import ChipEight.Host
import ChipEight.Machine.Step

/-!
# Sessions

A session runs a program on a machine in front of a host. The host reports keys and lets time pass;
the session executes what falls due, shows every changed picture before the next instruction, and
beeps on every count of the sound timer. A fault ends the run and is remembered until the next
start. A session that is not running does not react to time.
-/

namespace ChipEight

/-- The event that the next instruction is about to be executed, if it can be fetched. -/
def Machine.announcement (m : Machine) : Option Record :=
  match m.fetch with
  | .ok (w, _) => some (.executing w m.v m.index m.pc)
  | .error _ => none

/-- A machine with its keypad, its clock and the host it plays to. -/
structure Session (σ : Type) where
  settings : Settings
  host : σ
  machine : Machine
  keypad : Keypad
  clock : Clock
  /-- Time has an effect. -/
  running : Bool
  /-- The fault that ended the run. -/
  fault : Option Fault

namespace Session

variable {σ : Type}

/-- A session in which no program was started yet, with a key that was drawn for its machine. -/
def create (settings : Settings) (host : σ) (drawn : ChaCha.Key) : Session σ where
  settings := settings
  host := host
  machine := Machine.fresh settings drawn
  keypad := {}
  clock := { cpuHz := settings.cpuHz }
  running := false
  fault := none

variable [Host σ]

/-- Puts an event on record. -/
def note (s : Session σ) (r : Record) : Session σ := { s with host := Host.note r s.host }

/-! ## Starting and stopping -/

/-- Starts a program on a fresh machine, for which a key of its own was drawn. A program that does
not fit changes nothing. -/
def start (s : Session σ) (program : List UInt8) (drawn : ChaCha.Key) :
    Session σ × Except Fault Unit :=
  match Machine.load program s.settings drawn with
  | .error f => (s.note (.startRefused f), .error f)
  | .ok machine =>
    let s := (s.note (.loaded program.length)).note (.started program.length s.settings.cpuHz)
    ({ s with machine, keypad := {}, clock := s.clock.reset, running := true, fault := none },
      .ok ())

/-- Ends the run. -/
def stop (s : Session σ) : Session σ :=
  let s := if s.running then s.note (.stopped s.machine.pc) else s
  { s with running := false }

/-- Ends the run for a fault. -/
def halt (s : Session σ) (f : Fault) : Session σ :=
  { s.note (.halted s.machine.pc f) with
    running := false, clock := s.clock.reset, fault := some f }

/-! ## Executing -/

/-- Puts the instruction at the program counter on record, if there is one. -/
def announce (s : Session σ) : Session σ :=
  match s.machine.announcement with
  | some r => s.note r
  | none => s

/-- Shows a picture that has changed since it was last shown. -/
def refresh (s : Session σ) : Session σ :=
  if s.machine.dirty then
    { s with
      host := Host.render s.machine.picture s.host
      machine := { s.machine with dirty := false } }
  else s

/-- Executes one instruction, whatever the time. A session that is not running executes nothing and
answers with the fault that ended its run, if one did. -/
def step (s : Session σ) : Session σ × Except Fault Outcome :=
  if s.running then
    let s := s.announce
    match s.machine.step s.keypad with
    | (machine, .ok e) => ({ s with machine }.refresh, .ok e)
    | (machine, .error f) => ({ s with machine }.halt f, .error f)
  else
    match s.fault with
    | some f => (s, .error f)
    | none => (s, .ok .plain)

/-- One count of the timers; the host beeps if the sound timer is running. -/
def countDown (s : Session σ) : Session σ :=
  { s with
    host := if s.machine.sound = 0 then s.host else Host.beep s.host
    machine := s.machine.tick }

/-! ## Letting time pass -/

@[simp]
theorem clock_note (s : Session σ) (r : Record) : (s.note r).clock = s.clock := rfl

@[simp]
theorem clock_announce (s : Session σ) : s.announce.clock = s.clock := by
  unfold announce
  split <;> rfl

@[simp]
theorem clock_refresh (s : Session σ) : s.refresh.clock = s.clock := by
  unfold refresh
  split <;> rfl

/-- An instruction takes no time of its own. -/
theorem clock_of_step_ok {s s' : Session σ} {e : Outcome} (h : s.step = (s', .ok e)) :
    s'.clock = s.clock := by
  unfold step at h
  grind [clock_announce, clock_refresh]

/-- Executes everything that has fallen due, in the order in which it fell due, up to a fault. -/
def catchUp (s : Session σ) : Session σ × Except Fault Unit :=
  match _due : s.clock.pop with
  | none => (s, .ok ())
  | some (.timer, clock) => { s with clock }.countDown.catchUp
  | some (.processor, clock) =>
    match _done : { s with clock }.step with
    | (s', .ok _) => s'.catchUp
    | (s', .error f) => (s', .error f)
termination_by s.clock.owed
decreasing_by
  · exact Clock.owed_lt_of_pop _due
  · rw [clock_of_step_ok _done]
    exact Clock.owed_lt_of_pop _due

/-- Lets a number of nanoseconds pass. -/
def advance (s : Session σ) (nanoseconds : Nat) : Session σ × Except Fault Unit :=
  if s.running then { s with clock := s.clock.elapse nanoseconds }.catchUp else (s, .ok ())

/-- Lets the time from one instruction to the next pass. -/
def cycle (s : Session σ) : Session σ × Except Fault Unit :=
  if s.running then { s with clock := s.clock.elapsePeriod }.catchUp else (s, .ok ())

/-! ## Keys -/

/-- The key with this code goes down. -/
def keyDown (s : Session σ) (code : UInt8) : Session σ × Except Fault Unit :=
  let s := s.note (.keyDown code)
  match s.keypad.keyDown code with
  | .ok keypad => ({ s with keypad }, .ok ())
  | .error f => (s.note (.pressIgnored f), .error f)

/-- The key with this code goes up. -/
def keyUp (s : Session σ) (code : UInt8) : Session σ × Except Fault Unit :=
  let s := s.note (.keyUp code)
  match s.keypad.keyUp code with
  | .ok keypad => ({ s with keypad }, .ok ())
  | .error f => (s.note (.releaseIgnored f), .error f)

/-- Every key goes up. -/
def releaseKeys (s : Session σ) : Session σ := { s with keypad := s.keypad.releaseAll }

/-! ## Questions -/

/-- Whether the picture has changed since it was last shown. -/
def stale (s : Session σ) : Bool := s.machine.dirty

/-- Whether a beep should sound now. -/
def sounds (s : Session σ) : Bool := decide (0 < s.machine.sound)

end Session

end ChipEight
