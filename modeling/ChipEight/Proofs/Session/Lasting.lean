import ChipEight.Proofs.Keypad.Strikes
import ChipEight.Proofs.Machine.Failure
import ChipEight.Proofs.Session.Running

/-!
# What lasts from one start to the next

A call is carried out in moves of a few kinds: something is put on record, the clock is set, the run
ends, keys go down or up, the timers count, an instruction is executed. A property that no such move
ends is `Lasting`. It holds after catching up (`Lasting.catchUp`) and after every call that does not
start a program (`Lasting.call`), so it holds until the next start (`Lasting.calls`).
-/

namespace ChipEight

/-- The report of an event of a key. -/
def Call.ofKey : Keypad.Event → Call
  | .keyDown code => .keyDown code
  | .keyUp code => .keyUp code
  | .releaseAll => .releaseKeys

namespace Session

variable {σ : Type} [Host σ] {P : Session σ → Prop} {s : Session σ}

/-- No move but a start ends the property. -/
structure Lasting (P : Session σ → Prop) : Prop where
  note : ∀ s r, P s → P (s.note r)
  clock : ∀ s c, P s → P { s with clock := c }
  stopped : ∀ s, P s → P { s with running := false }
  keypad : ∀ s e, P s → P { s with keypad := s.keypad.apply e }
  countDown : ∀ s, P s → P s.countDown
  step : ∀ s, P s → P s.step.1

/-- Whatever the report is, some notes are taken and the event happens to the keypad. -/
theorem call_ofKey (s : Session σ) (e : Keypad.Event) :
    ∃ rs : List Record,
      (s.call (.ofKey e)).1 = { rs.foldl note s with keypad := s.keypad.apply e } := by
  cases e with
  | keyDown code =>
    show ∃ rs : List Record, (s.keyDown code).1 =
      { rs.foldl note s with keypad := s.keypad.apply (.keyDown code) }
    unfold keyDown Keypad.apply
    rcases hp : s.keypad.keyDown code with f | q
    · exact ⟨[.keyDown code, .pressIgnored f], by simp [note, hp]⟩
    · exact ⟨[.keyDown code], by simp [note, hp]⟩
  | keyUp code =>
    show ∃ rs : List Record, (s.keyUp code).1 =
      { rs.foldl note s with keypad := s.keypad.apply (.keyUp code) }
    unfold keyUp Keypad.apply
    rcases hp : s.keypad.keyUp code with f | q
    · exact ⟨[.keyUp code, .releaseIgnored f], by simp [note, hp]⟩
    · exact ⟨[.keyUp code], by simp [note, hp]⟩
  | releaseAll => exact ⟨[], rfl⟩

theorem foldl_note_eq (rs : List Record) (s : Session σ) :
    rs.foldl note s = { s with host := (rs.foldl note s).host } := by
  induction rs generalizing s with
  | nil => rfl
  | cons r rs ih => exact ih (s.note r)

theorem Lasting.catchUp (h : Lasting P) (hs : P s) : P s.catchUp.1 :=
  catchUp_preserves (fun s c hs _ => h.countDown _ (h.clock s c hs))
    (fun s c hs _ => h.step _ (h.clock s c hs)) s hs

theorem Lasting.ofKey (h : Lasting P) (hs : P s) (e : Keypad.Event) :
    P (s.call (.ofKey e)).1 := by
  obtain ⟨rs, hcall⟩ := s.call_ofKey e
  have hnotes : P (rs.foldl Session.note s) := by
    clear hcall
    induction rs generalizing s with
    | nil => exact hs
    | cons r rs ih => exact ih (h.note s r hs)
  have hkeypad := congrArg Session.keypad (foldl_note_eq rs s)
  rw [hcall, ← show (rs.foldl Session.note s).keypad = s.keypad from hkeypad]
  exact h.keypad _ e hnotes

/-- What no move ends holds after every call that does not start a program. -/
theorem Lasting.call (h : Lasting P) (hs : P s) (c : Call)
    (hstart : ∀ program drawn, c = .start program drawn → P (s.start program drawn).1) :
    P (s.call c).1 := by
  cases c with
  | start program drawn => exact hstart program drawn rfl
  | stop =>
    show P s.stop
    unfold stop
    dsimp only
    split_ifs
    · exact h.stopped _ (h.note s _ hs)
    · exact h.stopped s hs
  | step => exact h.step s hs
  | cycle =>
    show P s.cycle.1
    unfold cycle
    split_ifs
    · exact h.catchUp (h.clock s _ hs)
    · exact hs
  | advance ns =>
    show P (s.advance ns).1
    unfold advance
    split_ifs
    · exact h.catchUp (h.clock s _ hs)
    · exact hs
  | keyDown code => exact h.ofKey hs (.keyDown code)
  | keyUp code => exact h.ofKey hs (.keyUp code)
  | releaseKeys => exact h.ofKey hs .releaseAll

/-- What no move ends holds until the next start that is not refused. -/
theorem Lasting.calls (h : Lasting P) : ∀ (cs : List Call) {s : Session σ}, P s →
    (∀ program drawn, .start program drawn ∈ cs → Machine.maxProgram < program.length) →
    P (s.calls cs).1 := by
  intro cs
  induction cs with
  | nil => exact fun hs _ => hs
  | cons c cs ih =>
    intro s hs hcs
    have hcall : P (s.call c).1 := by
      refine h.call hs c fun program drawn hc => ?_
      rw [start_of_lt (hcs program drawn (hc ▸ List.mem_cons_self))]
      exact h.note s _ hs
    exact ih hcall fun program drawn hp => hcs program drawn (List.mem_cons_of_mem _ hp)

end Session

end ChipEight
