import ChipEight.Proofs.Keypad.Strikes
import ChipEight.Proofs.Machine.Effect

/-!
# Waiting for a key

A machine that waits for a key shares its time with others: keys go down and up, the timers count,
and the instruction that waits is executed again and again. `Console.run` lets this happen to a
machine and its keypad in any order.

A console `WaitsSince` an edge if its machine is at the instruction that waits and has kept the
number of that edge. The wait goes on through whatever happens while no key goes down, and through
whatever happens without a step (`WaitsSince.run`), and nothing but the timers of the machine
changes in the meantime. The next step depends on the key that went down last alone
(`WaitsSince.step_eq`).
-/

namespace ChipEight

/-- A machine and the keypad it reads. -/
structure Console where
  machine : Machine
  keypad : Keypad

/-- What can happen to a console. -/
inductive Happening where
  | key (e : Keypad.Event)
  | tick
  | step
  deriving DecidableEq

def Happening.key? : Happening → Option Keypad.Event
  | .key e => some e
  | .tick | .step => none

/-- What happens to the keypad. -/
def keyEvents (hs : List Happening) : List Keypad.Event := hs.filterMap Happening.key?

namespace Machine

variable {m : Machine} {pad : Keypad}

/-- The machine past the instruction that waits, with the key in the register that was to take
it. -/
def answered (m : Machine) (k : Key) : Machine :=
  { m.putV m.word.x (UInt8.ofNat k) with pc := (m.pc + 2) % 0x1000, keyWait := none }

/-- The outcome of a step while the machine waits, by the key that went down last, if one did. -/
def resume (m : Machine) : Option Key → Machine × Except Fault Outcome
  | some k => (m.answered k, .ok .plain)
  | none => (m, .ok .waiting)

/-- At the instruction that waits, a step asks for the key that went down last since the wait
began, which is now unless it began before. -/
theorem step_of_fits_wait (hpc : m.pc ≤ 0xFFE) (hfit : m.word.fits "Fx0A" = true) (pad : Keypad) :
    m.step pad =
      { m with keyWait := some (m.keyWait.getD pad.edges) }.resume
        (pad.downSince (m.keyWait.getD pad.edges)) := by
  have hstep : m.step pad = ((m.advance.awaitKey pad m.word.x).1,
      .ok (m.advance.awaitKey pad m.word.x).2) :=
    step_of_fits (i := .awaitKey m.word.x) hpc hfit rfl (by simp [Instruction.form]) rfl
  have hmark : m.advance.keyWait.getD pad.edges = m.keyWait.getD pad.edges := rfl
  rw [hstep, awaitKey]
  dsimp only
  rw [hmark]
  rcases pad.downSince (m.keyWait.getD pad.edges) with _ | k
  · dsimp only
    rw [pc_advance_sub hpc]
    rfl
  · rfl

end Machine

namespace Console

/-- What is left after something happened. -/
def after (c : Console) : Happening → Console
  | .key e => { c with keypad := c.keypad.apply e }
  | .tick => { c with machine := c.machine.tick }
  | .step => { c with machine := (c.machine.step c.keypad).1 }

def run (c : Console) (hs : List Happening) : Console := hs.foldl after c

variable {c : Console} {mark : ℕ} {latest : Option Key}

/-- The machine waits since edge `mark`, and of the keys that went down since then `latest` was the
last. -/
structure WaitsSince (c : Console) (mark : ℕ) (latest : Option Key) : Prop where
  pc_le : c.machine.pc ≤ 0xFFE
  fits : c.machine.word.fits "Fx0A" = true
  keyWait_eq : c.machine.keyWait = some mark
  keypad : c.keypad.Latest mark latest

/-- A step of a machine that waits changes nothing if no key went down; else it ends the wait with
the key that went down last, which need not be down any more. -/
theorem WaitsSince.step_eq (h : c.WaitsSince mark latest) :
    c.machine.step c.keypad = c.machine.resume latest := by
  have hmark : c.machine.keyWait.getD c.keypad.edges = mark := by rw [h.keyWait_eq]; rfl
  rw [Machine.step_of_fits_wait h.pc_le h.fits, hmark, h.keypad.downSince_eq, ← h.keyWait_eq]

theorem WaitsSince.key (h : c.WaitsSince mark latest) (e : Keypad.Event) :
    (c.after (.key e)).WaitsSince mark
      ((c.keypad.struck (c.keypad.apply e)).getLast?.or latest) :=
  ⟨h.pc_le, h.fits, h.keyWait_eq, h.keypad.apply e⟩

theorem WaitsSince.tick (h : c.WaitsSince mark latest) :
    (c.after .tick).WaitsSince mark latest :=
  ⟨h.pc_le, h.fits, h.keyWait_eq, h.keypad⟩

theorem WaitsSince.after_step (h : c.WaitsSince mark none) : c.after .step = c := by
  show { c with machine := (c.machine.step c.keypad).1 } = c
  rw [h.step_eq]
  rfl

/-- The wait goes on if no key goes down or no step is taken, and only timers and keys change. -/
theorem WaitsSince.run : ∀ (hs : List Happening) {c : Console} {latest : Option Key},
    c.WaitsSince mark latest →
    (.step ∈ hs → latest = none ∧ c.keypad.strikes (keyEvents hs) = []) →
    (c.run hs).WaitsSince mark ((c.keypad.strikes (keyEvents hs)).getLast?.or latest) ∧
      c.run hs = ⟨Machine.tick^[hs.count .tick] c.machine, c.keypad.follow (keyEvents hs)⟩ := by
  intro hs
  induction hs with
  | nil => exact fun h _ => ⟨h, rfl⟩
  | cons happening hs ih =>
    intro c latest h hquiet
    cases happening with
    | key e =>
      have hevents : keyEvents (.key e :: hs) = e :: keyEvents hs := rfl
      rw [hevents, Keypad.strikes] at hquiet ⊢
      obtain ⟨hwait, hrun⟩ := ih (h.key e) fun hmem => by
        obtain ⟨rfl, hnil⟩ := hquiet (List.mem_cons_of_mem _ hmem)
        rw [List.append_eq_nil_iff] at hnil
        rw [hnil.1]
        exact ⟨rfl, hnil.2⟩
      rw [List.getLast?_append, Option.or_assoc, List.count_cons_of_ne (by simp)]
      exact ⟨hwait, hrun⟩
    | tick =>
      rw [List.count_cons_self, Function.iterate_succ_apply]
      exact ih h.tick fun hmem => hquiet (List.mem_cons_of_mem _ hmem)
    | step =>
      -- No key went down before this step, so it changes nothing and can be left out.
      obtain ⟨rfl, hnil⟩ := hquiet List.mem_cons_self
      have hsame : c.run (.step :: hs) = c.run hs :=
        congrArg (fun d : Console => d.run hs) h.after_step
      rw [hsame, List.count_cons_of_ne (by simp)]
      exact ih h fun _ => ⟨rfl, hnil⟩

theorem run_append (c : Console) (hs ks : List Happening) :
    c.run (hs ++ ks) = (c.run hs).run ks := List.foldl_append

/-- The wait lasts until the first step after a key went down. -/
theorem WaitsSince.run_append (h : c.WaitsSince mark none) (hs ks : List Happening)
    (hquiet : c.keypad.strikes (keyEvents hs) = []) (hks : .step ∉ ks) :
    (c.run hs).WaitsSince mark none ∧
      (c.run (hs ++ ks)).WaitsSince mark (c.keypad.strikes (keyEvents (hs ++ ks))).getLast? ∧
      (c.run (hs ++ ks)).machine = Machine.tick^[(hs ++ ks).count .tick] c.machine := by
  obtain ⟨hwait, hstate⟩ := h.run hs fun _ => ⟨rfl, hquiet⟩
  rw [hquiet, List.getLast?_nil, Option.or_none] at hwait
  obtain ⟨hwait', hstate'⟩ := WaitsSince.run ks hwait fun hmem => absurd hmem hks
  have hstrikes : c.keypad.strikes (keyEvents (hs ++ ks)) =
      (c.run hs).keypad.strikes (keyEvents ks) := by
    rw [keyEvents, List.filterMap_append, Keypad.strikes_append, hstate]
    exact congrArg (· ++ _) hquiet
  refine ⟨hwait, ?_, ?_⟩
  · rw [Console.run_append, hstrikes]
    rwa [Option.or_none] at hwait'
  · rw [Console.run_append, hstate', hstate, List.count_append, Nat.add_comm,
      Function.iterate_add_apply]

/-- A wait that has not begun begins with the next step, whatever keys are down. -/
theorem waitsSince_after_step (hpc : c.machine.pc ≤ 0xFFE)
    (hfit : c.machine.word.fits "Fx0A" = true) (hnone : c.machine.keyWait = none)
    (hpad : c.keypad.Stamped) :
    c.machine.step c.keypad =
        ({ c.machine with keyWait := some c.keypad.edges }, .ok .waiting) ∧
      (c.after .step).WaitsSince c.keypad.edges none := by
  have hstep : c.machine.step c.keypad =
      ({ c.machine with keyWait := some c.keypad.edges }, .ok .waiting) := by
    rw [Machine.step_of_fits_wait hpc hfit, hnone, Option.getD_none, Keypad.downSince_edges hpad]
    rfl
  refine ⟨hstep, ?_⟩
  show WaitsSince { c with machine := (c.machine.step c.keypad).1 } _ _
  rw [hstep]
  exact ⟨hpc, hfit, rfl, hpad.latest_none⟩

end Console

end ChipEight
