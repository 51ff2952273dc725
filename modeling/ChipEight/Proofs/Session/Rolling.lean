import ChipEight.Proofs.Machine.Rolling
import ChipEight.Proofs.Random.Reading
import ChipEight.Proofs.Session.Restarting
import ChipEight.Proofs.Session.Turns

/-!
# The random bytes of a run

A start begins the random bytes again (`random_start`), those of the seed if there is one. From then
on the turns that execute `Cxkk` use them up, each the next one (`after_of_rolls`), and nothing else
does (`random_after`); so the number used is the number of these turns (`Turn.Path.random`).
-/

namespace ChipEight

namespace Turn

variable {σ : Type} [Host σ] {t : Turn σ} {turns : List (Turn σ)} {m m' : Machine}

/-- The turn executes an instruction that asks for a random byte. -/
def rolls (t : Turn σ) : Bool :=
  match t.tick with
  | .processor => t.before.machine.rolls
  | .timer => false

theorem after_of_rolls (hr : t.before.running = true) (h : t.rolls = true) :
    t.answer = .ok .plain ∧ t.after.machine = { t.before.machine.rolled with dirty := false } := by
  rcases t with ⟨_ | _, s⟩
  · have hstep := Session.step_of_ok hr (Machine.step_of_rolls h s.keypad)
    rw [Session.refresh_eq] at hstep
    have hresult : (Turn.mk .processor s).result = _ := hstep
    exact ⟨congrArg Prod.snd hresult, congrArg (fun r => r.1.machine) hresult⟩
  · cases h

theorem random_after (hr : t.before.running = true) (h : t.rolls = false) :
    t.after.machine.random = t.before.machine.random := by
  rcases t with ⟨_ | _, s⟩
  · obtain ⟨dirty, hm⟩ := machine_after hr
    rw [hm]
    exact Machine.random_step h s.keypad
  · rfl

/-- A path uses as many random bytes as it has turns that ask for one. -/
theorem Path.random (hr : ∀ turn ∈ turns, turn.before.running = true) (h : Path m turns m') :
    m'.random = { m.random with used := m.random.used + turns.countP rolls } := by
  induction turns generalizing m with
  | nil =>
    obtain rfl : m' = m := h
    rfl
  | cons turn turns ih =>
    obtain ⟨rfl, hrest⟩ := h
    obtain ⟨hrun, hruns⟩ := List.forall_mem_cons.mp hr
    rw [ih hruns hrest, List.countP_cons]
    rcases hturn : turn.rolls with _ | _
    · rw [random_after hrun hturn]
      rfl
    · rw [(after_of_rolls hrun hturn).2]
      simp [Machine.rolled, Machine.putV, Machine.advance]
      omega

end Turn

namespace Session

variable {σ : Type} [Host σ] {s : Session σ}

theorem random_start {settings : Settings} {program : List UInt8}
    (h : program.length ≤ Machine.maxProgram) (hs : s.Furnished settings) (drawn : ChaCha.Key) :
    (s.start program drawn).1.machine.random = Random.forRun settings.seed drawn := by
  obtain ⟨m, hm, hstart⟩ := start_of_le h s drawn
  rw [Machine.load, if_pos h, hs.settings_eq] at hm
  obtain rfl := Except.ok.inj hm
  rw [hstart]
  rfl

/-- **The random bytes of a run are those of its seed, in order.** Whatever was played before, a
start begins the words of the seed's generator again, and until the next start that is not refused
the turns are all that happens to the machine. A turn that executes `Cxkk` after `k` others have
done so puts the low byte of the generator's word `k`, masked with `kk`, into Vx. Any other turn
uses none: a count of the timers, a wait that goes on, an instruction that fails. So in the end as
many words are used as there were turns that executed `Cxkk`. -/
theorem rolls_in_order (settings : Settings) (seed : UInt64) (host : σ)
    (drawn again : ChaCha.Key) (cs : List Call) (program : List UInt8)
    (hprogram : program.length ≤ 3584) (ds : List Call)
    (hds : ∀ program drawn, .start program drawn ∈ ds → 3584 < program.length) :
    let key := Random.keyOfSeed seed
    let s := (((create (settings.withSeed seed) host drawn).calls cs).1.call
      (.start program again)).1
    let turns := s.callsTurns ds
    s.machine.random = ⟨key, 0⟩ ∧
      Turn.Path s.machine turns (s.calls ds).1.machine ∧
      (∀ before turn later, turns = before ++ turn :: later →
        let k := before.countP Turn.rolls
        let m := turn.before.machine
        let m' := turn.after.machine
        m.random = ⟨key, k⟩ ∧
          (turn.rolls = true → turn.answer = .ok .plain ∧
            m'.v = (m.putV m.word.x ((Random.Reader.word key k).toUInt8 &&& m.word.byte)).v ∧
            m'.random = ⟨key, k + 1⟩) ∧
          (turn.rolls = false → m'.random = m.random)) ∧
      (s.calls ds).1.machine.random = ⟨key, turns.countP Turn.rolls⟩ := by
  intro key s turns
  have hmax : Machine.maxProgram = 3584 := by decide
  have hle : program.length ≤ Machine.maxProgram := hmax.symm ▸ hprogram
  have hfurnished := furnished_calls (settings.withSeed seed) host drawn cs
  have hstart := random_start hle hfurnished again
  have hrandom : s.machine.random = ⟨key, 0⟩ := hstart
  have hpath : Turn.Path s.machine turns (s.calls ds).1.machine :=
    path_callsTurns fun program drawn hp => hmax ▸ hds program drawn hp
  have hruns : ∀ turn ∈ turns, turn.before.running = true := running_of_mem_callsTurns ds
  clear_value s
  refine ⟨hrandom, hpath, fun before turn later hsplit => ?_, ?_⟩
  · rw [hsplit] at hpath hruns
    have hbefore := hpath.split.random fun turn ht => hruns turn (List.mem_append_left _ ht)
    rw [hrandom, Nat.zero_add] at hbefore
    have hrun := hruns turn (List.mem_append_right before List.mem_cons_self)
    refine ⟨hbefore, fun hroll => ?_, Turn.random_after hrun⟩
    obtain ⟨hanswer, hafter⟩ := Turn.after_of_rolls hrun hroll
    rw [← Random.byteAt_eq_word]
    refine ⟨hanswer, ?_, ?_⟩
    · rw [hafter]
      simp [Machine.rolled, hbefore, Machine.putV, Machine.advance]
    · rw [hafter]
      simp [Machine.rolled, hbefore]
  · rw [hpath.random hruns, hrandom, Nat.zero_add]

/-- A second start, a random byte, a wait for a key that goes on and then ends, and another random
byte: it is the second of the seed, though the session used a byte before it was started again. -/
theorem rolls_in_order_waiting :
    let key := Random.keyOfSeed 42
    let program : List UInt8 := [0xC0, 0xFF, 0xF2, 0x0A, 0xC1, 0x0F]
    let cs := [.start [0xC3, 0xFF] default, .step]
    let ds := [.step, .step, .keyDown 5, .step, .step]
    let s := (((create (({} : Settings).withSeed 42) ({} : Transcript) default).calls cs).1.call
      (.start program default)).1
    (program.length ≤ 3584 ∧ ∀ program drawn, .start program drawn ∈ ds → 3584 < program.length) ∧
      (s.callsTurns ds).map Turn.rolls = [true, false, false, true] ∧
      (∃ turn ∈ s.callsTurns ds, turn.before.machine.word = 0xC10F ∧
        turn.before.machine.random = ⟨key, 1⟩ ∧ turn.after.machine.random = ⟨key, 2⟩ ∧
        turn.after.machine.v =
          (turn.before.machine.putV 1 ((Random.Reader.word key 1).toUInt8 &&& 0x0F)).v) ∧
      (s.calls ds).1.machine.random = ⟨key, 2⟩ := by
  intro key program cs ds s
  have hprogram : program.length ≤ 3584 := by decide
  have hds : ∀ program drawn, .start program drawn ∈ ds → 3584 < program.length := by simp [ds]
  have hrun : (s.callsTurns ds).map (fun turn => (turn.rolls, turn.before.machine.word)) =
      [(true, 0xC0FF), (false, 0xF20A), (false, 0xF20A)] ++ [(true, 0xC10F)] := by decide +kernel
  have hrolls : (s.callsTurns ds).map Turn.rolls = [true, false, false, true] := by
    simpa [Function.comp_def] using congrArg (List.map Prod.fst) hrun
  obtain ⟨-, -, hturns, hfinal⟩ := rolls_in_order {} 42 ({} : Transcript) default default cs program
    hprogram ds hds
  clear_value (hs : s = _)
  rw [← hs] at hturns hfinal
  refine ⟨⟨hprogram, hds⟩, hrolls, ?_, ?_⟩
  · obtain ⟨before, rest, hsplit, hbefore, hrest⟩ := List.map_eq_append_iff.mp hrun
    obtain ⟨turn, later, rfl, hturn, -⟩ := List.map_eq_cons_iff.mp hrest
    obtain ⟨hroll, hword⟩ := Prod.mk.inj hturn
    obtain ⟨hk, hdone, -⟩ := hturns before turn later hsplit
    obtain ⟨-, hv, hrandom⟩ := hdone hroll
    have hcount : before.countP Turn.rolls = 1 := by
      simpa [List.countP_map, Function.comp_def] using congrArg (List.countP Prod.fst) hbefore
    rw [hcount] at hk hv hrandom
    simp only [hword] at hv
    exact ⟨turn, hsplit ▸ List.mem_append_right before List.mem_cons_self, hword, hk, hrandom, hv⟩
  · have hcount : (s.callsTurns ds).countP Turn.rolls = 2 := by
      simpa [List.countP_map, Function.comp_def] using congrArg (List.countP id) hrolls
    rw [hfinal, hcount]

end Session

end ChipEight
