import ChipEight.Proofs.Terminal.Writing
import ChipEight.Terminal.Screen

/-!
# A terminal that fails

What a screen is asked to do determines what it has to say (`output`), whatever the terminal takes
of it: sixteen lines for every picture, each after a move of the cursor, and one bell for every
stretch of beeps. A terminal with room for `n` bytes gets the first `n` bytes of that, and each
request of which something is lost puts one warning on record (`run_truncates`).
-/

namespace ChipEight

theorem Picture.length_line (p : Picture) (k : ℕ) : (p.line k).length = 64 := by
  rw [line, List.length_map, List.length_range]

namespace Screen

/-- What a screen can be asked to do. -/
inductive Request where
  | render (p : Picture)
  | beep
  | quiet
  deriving DecidableEq

def ask (d : Screen) : Request → Screen
  | .render p => d.render p
  | .beep => d.beep
  | .quiet => d.quiet

def run (d : Screen) (rs : List Request) : Screen := rs.foldl ask d

/-- What the terminal answers to a request. -/
def outcome (d : Screen) : Request → Except SinkError Unit
  | .render p => (d.sink.send (encode (script p))).2
  | .beep => if d.sounding then .ok () else (d.sink.send (encode [bell])).2
  | .quiet => .ok ()

/-! ## What there is to say -/

/-- Whether the requests end with a stretch of beeps: there was one, and no `quiet` after it. -/
def beeping (rs : List Request) : Bool := (rs.reverse.takeWhile (· != .quiet)).contains .beep

/-- What a request has to say after others. -/
def utterance (before : List Request) : Request → List Char
  | .render p => (List.range 16).flatMap fun row =>
    ("\x1b[" ++ toString (row + 1) ++ ";1H").toList ++ p.line row
  | .beep => if beeping before then [] else ['\x07']
  | .quiet => []

/-- What requests have to say after others. -/
def outputAfter (before : List Request) : List Request → List Char
  | [] => []
  | r :: rs => utterance before r ++ outputAfter (before ++ [r]) rs

def output (rs : List Request) : List Char := outputAfter [] rs

theorem beeping_append_singleton (rs : List Request) (r : Request) :
    beeping (rs ++ [r]) = match r with
      | .render _ => beeping rs
      | .beep => true
      | .quiet => false := by
  cases r <;> simp [beeping]

theorem outputAfter_append (before rs rs' : List Request) :
    outputAfter before (rs ++ rs') = outputAfter before rs ++ outputAfter (before ++ rs) rs' := by
  induction rs generalizing before with
  | nil => simp [outputAfter]
  | cons r rs ih => simp [outputAfter, ih]

theorem output_append_singleton (rs : List Request) (r : Request) :
    output (rs ++ [r]) = output rs ++ utterance rs r := by
  simp [output, outputAfter_append, outputAfter]

theorem encode_append (text text' : List Char) :
    encode (text ++ text') = encode text ++ encode text' := List.flatMap_append

theorem encode_ne_nil {text : List Char} (h : text ≠ []) : encode text ≠ [] := by
  obtain ⟨c, rest, rfl⟩ := List.exists_cons_of_ne_nil h
  have hpos : 0 < (String.utf8EncodeChar c).length := by
    rw [String.length_utf8EncodeChar]
    exact c.utf8Size_pos
  intro hnil
  have hc : String.utf8EncodeChar c = [] := (List.append_eq_nil_iff.mp hnil).1
  rw [hc] at hpos
  exact Nat.lt_irrefl 0 hpos

theorem script_eq (p : Picture) (before : List Request) :
    script p = utterance before (.render p) := by
  have hmove : ∀ row, moveTo row = ("\x1b[" ++ toString (row + 1) ++ ";1H").toList := by
    intro row
    simp [moveTo, toString, Nat.repr]
  unfold script utterance
  simp only [hmove]
  rfl

/-! ## One request -/

section

variable {d : Screen} {before : List Request}

theorem send_eq (d : Screen) (text : List Char) (loss : String → Record) :
    d.send text loss =
      { d with
        sink := (d.sink.write (encode text)).1
        journal := match (d.sink.send (encode text)).2 with
          | .ok () => d.journal
          | .error e => d.journal.note (loss e.message) } := by
  unfold send
  rw [← Sink.send_fst]
  rcases d.sink.send (encode text) with ⟨sink, e | ⟨⟩⟩ <;> rfl

/-- A screen that knows whether a stretch of beeps goes on says what the request has to say, if
anything, and goes on knowing it. -/
theorem ask_cases (h : d.sounding = beeping before) (r : Request) :
    let d' : Screen := { d with sounding := beeping (before ++ [r]) }
    (utterance before r = [] ∧ d.outcome r = .ok () ∧ d.ask r = d') ∨
      (utterance before r ≠ [] ∧ d.outcome r = (d.sink.send (encode (utterance before r))).2 ∧
        ∃ loss : String → Record, (∀ cause, (loss cause).level = .warn) ∧
          d.ask r = d'.send (utterance before r) loss) := by
  intro d'
  have hd' : d' = { d with sounding := beeping (before ++ [r]) } := rfl
  clear_value d'
  rw [beeping_append_singleton] at hd'
  cases r with
  | render p =>
    have hsame : d' = d := hd'.trans (h ▸ rfl)
    have hne : utterance before (.render p) ≠ [] := by simp [utterance, List.range_succ]
    refine Or.inr ⟨hne, ?_, .pictureLost, fun _ => rfl, ?_⟩
    · rw [← script_eq]
      rfl
    · rw [hsame, ← script_eq]
      rfl
  | beep =>
    rcases hs : beeping before with _ | _
    · have hspeak : utterance before .beep = [bell] := by simp [utterance, hs, bell]
      rw [hspeak]
      rw [hs] at h
      refine Or.inr ⟨List.cons_ne_nil _ _, by simp [outcome, h], .bellLost, fun _ => rfl, ?_⟩
      simp [ask, beep, h, hd']
    · have hsame : d' = d := hd'.trans (by rw [← hs, ← h])
      rw [hs] at h
      exact Or.inl ⟨by simp [utterance, hs], by simp [outcome, h], by simp [ask, beep, h, hsame]⟩
  | quiet => exact Or.inl ⟨rfl, rfl, hd'.symm⟩

theorem sounding_ask (h : d.sounding = beeping before) (r : Request) :
    (d.ask r).sounding = beeping (before ++ [r]) := by
  rcases ask_cases h r with ⟨-, -, hask⟩ | ⟨-, -, loss, -, hask⟩
  · rw [hask]
  · rw [hask, send_eq]

theorem sink_ask (h : d.sounding = beeping before) (r : Request) :
    (d.ask r).sink = (d.sink.write (encode (utterance before r))).1 := by
  rcases ask_cases h r with ⟨hnil, -, hask⟩ | ⟨-, -, loss, -, hask⟩
  · rw [hask, hnil, encode, List.flatMap_nil, Sink.write_nil]
  · rw [hask, send_eq]

theorem outcome_ok_iff (h : d.sounding = beeping before) (r : Request) :
    d.outcome r = .ok () ↔ utterance before r = [] ∨
      (d.sink.write (encode (utterance before r))).2 = .ok () ∧ d.sink.refusesFlush = false := by
  rcases ask_cases h r with ⟨hnil, hok, -⟩ | ⟨hne, hsend, -⟩
  · exact iff_of_true hok (Or.inl hnil)
  · rw [or_iff_right hne, hsend, Sink.send_ok_iff]

/-- One warning is put on record if something was lost, and nothing otherwise. -/
theorem journal_ask (h : d.sounding = beeping before) (r : Request) :
    (d.outcome r = .ok () → (d.ask r).journal = d.journal) ∧
      ∀ e, d.outcome r = .error e →
        ∃ loss : Record, loss.level = .warn ∧ (d.ask r).journal = d.journal.note loss := by
  rcases ask_cases h r with ⟨-, hok, hask⟩ | ⟨-, hsend, loss, hwarn, hask⟩
  · rw [hok, hask]
    exact ⟨fun _ => rfl, nofun⟩
  · rw [hsend, hask, send_eq]
    refine ⟨fun hok => ?_, fun e herror => ⟨loss e.message, hwarn _, ?_⟩⟩
    · simp only [hok]
    · simp only [herror]

end

/-! ## Many requests -/

/-- The screen began with some room, and was asked these requests since. -/
structure Told (d : Screen) (room : Option ℕ) (refuses : Bool) (rs : List Request) : Prop where
  sounding_eq : d.sounding = beeping rs
  took : d.sink.Took room (encode (output rs))
  refuses_eq : d.sink.refusesFlush = refuses

variable {d : Screen} {room : Option ℕ} {refuses : Bool} {rs : List Request}

theorem Told.ask (h : d.Told room refuses rs) (r : Request) :
    (d.ask r).Told room refuses (rs ++ [r]) where
  sounding_eq := sounding_ask h.sounding_eq r
  took := by
    rw [sink_ask h.sounding_eq, output_append_singleton, encode_append]
    exact h.took.write _
  refuses_eq := by rw [sink_ask h.sounding_eq, Sink.write_fst, ← h.refuses_eq]

theorem run_append_singleton (d : Screen) (rs : List Request) (r : Request) :
    d.run (rs ++ [r]) = (d.run rs).ask r := List.foldl_append

theorem told_run (room : Option ℕ) (refuses : Bool) (journal : Journal) (rs : List Request) :
    (run { sink := { room, refusesFlush := refuses }, journal } rs).Told room refuses rs := by
  induction rs using List.reverseRecOn with
  | nil =>
    refine ⟨rfl, ⟨?_, ?_⟩, rfl⟩
    · rcases room with _ | n <;> simp [run, output, outputAfter, encode, Sink.kept]
    · rcases room with _ | n <;> simp [run, output, outputAfter, encode]
  | append_singleton rs r ih =>
    rw [run_append_singleton]
    exact ih.ask r

/-- **A failing terminal only ever cuts the output off.** Take any list of requests, a terminal with
room for any number of bytes, and one with room for all, which may both refuse to be flushed. The
roomy one gets the whole output and the other the first bytes of it, as many as there is room for.
After every request both screens know the same of the beeps. The sink is left as if the bytes of the
request had been written piece by piece, however they are cut, up to the first piece that is not
taken whole. A request is carried out if it has nothing to say, or if the output so far fits and can
be flushed; then nothing is put on record, and otherwise one warning is. A line has 64 characters. -/
theorem run_truncates (room : ℕ) (refuses : Bool) (journal : Journal) (rs : List Request) :
    let limited : Screen := { sink := { room := some room, refusesFlush := refuses }, journal }
    let free : Screen := { sink := { refusesFlush := refuses }, journal }
    (free.run rs).sink.written.toList = encode (output rs) ∧
      (limited.run rs).sink.written.toList = (encode (output rs)).take room ∧
      (∀ before r,
        let d := limited.run before
        let d' := limited.run (before ++ [r])
        d'.sounding = (free.run (before ++ [r])).sounding ∧
          (∀ pieces : List (List UInt8), pieces.flatten = encode (utterance before r) →
            d'.sink = (d.sink.writeEach pieces).1) ∧
          (d.outcome r = .ok () ↔ utterance before r = [] ∨
            (encode (output (before ++ [r]))).length ≤ room ∧ refuses = false) ∧
          (d.outcome r = .ok () → d'.journal = d.journal) ∧
          ∀ e, d.outcome r = .error e →
            ∃ loss : Record, loss.level = .warn ∧ d'.journal = d.journal.note loss) ∧
      ∀ (p : Picture) (row : ℕ), (p.line row).length = 64 := by
  intro limited free
  have hlimited : ∀ rs, (limited.run rs).Told (some room) refuses rs :=
    told_run (some room) refuses journal
  have hfree : ∀ rs, (free.run rs).Told none refuses rs := told_run none refuses journal
  refine ⟨(hfree rs).took.written_eq, (hlimited rs).took.written_eq, fun before r => ?_,
    Picture.length_line⟩
  intro d d'
  have hd : d.Told (some room) refuses before := hlimited before
  have hd' : d' = d.ask r := run_append_singleton limited before r
  refine ⟨?_, fun pieces hpieces => ?_, ?_, ?_⟩
  · exact (hlimited (before ++ [r])).sounding_eq.trans (hfree (before ++ [r])).sounding_eq.symm
  · rw [hd', sink_ask hd.sounding_eq, Sink.writeEach_eq, hpieces]
  · rw [outcome_ok_iff hd.sounding_eq, hd.refuses_eq, output_append_singleton, encode_append]
    by_cases hnil : utterance before r = []
    · simp only [hnil, true_or]
    · rw [hd.took.write_ok_iff (encode_ne_nil hnil)]
      simp
  · rw [hd']
    exact journal_ask hd.sounding_eq r

/-- Room for three bytes is room for a bell and two characters of a picture; the rest of the picture
is lost, and so is the bell of another stretch of beeps. -/
theorem run_truncates_three :
    let journal : Journal := { filter := .everything }
    let limited : Screen := { sink := { room := some 3 }, journal }
    let free : Screen := { sink := {}, journal }
    let rs : List Request := [.beep, .beep, .render .blank, .quiet]
    let pieces := [[0x07]]
    let d := limited.run rs
    let d' := limited.run (rs ++ [.beep])
    (free.run rs).sink.written.toList.take 4 = [0x07, 0x1B, 0x5B, 0x31] ∧
      d.sink.written.toList = [0x07, 0x1B, 0x5B] ∧
      d'.sounding = (free.run (rs ++ [.beep])).sounding ∧
      (pieces.flatten = encode (utterance rs .beep) ∧ d'.sink = (d.sink.writeEach pieces).1) ∧
      (d.outcome .beep = .error .full ∧
        ∃ loss : Record, loss.level = .warn ∧ d'.journal = d.journal.note loss) ∧
      d'.journal.records = #[.pictureLost "sink full", .bellLost "sink full"] := by
  intro journal limited free rs pieces d d'
  obtain ⟨hfree, hlimited, hrequest, -⟩ := run_truncates 3 false journal rs
  obtain ⟨hsounding, hsink, -, -, hloss⟩ := hrequest rs .beep
  have hpieces : pieces.flatten = encode (utterance rs .beep) := by decide
  have hfails : d.outcome .beep = .error .full := by decide +kernel
  refine ⟨?_, ?_, hsounding, ⟨hpieces, hsink pieces hpieces⟩, ⟨hfails, hloss .full hfails⟩, ?_⟩
  · rw [hfree]
    decide +kernel
  · rw [hlimited]
    decide +kernel
  · decide +kernel

end Screen

end ChipEight
