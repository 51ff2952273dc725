import ChipEight.Proofs.Machine.Frame
import ChipEight.Proofs.Session.Lasting

/-!
# Whether the host has seen the picture

A session shows a picture when an instruction has drawn on it, and then the host has seen it. What
else can happen leaves the picture alone, except for a start: it puts a dark picture in the place of
the old one and shows nothing. `truthful_iff` says what comes of this. From one start to the next
the host has seen the picture, or nothing was shown and the picture is dark; so a session that is
not stale tells the truth exactly from the first picture it shows, or if what the host saw before
the start was dark as well. After a restart it may not (`not_truthful_restart`).
-/

namespace ChipEight

theorem Picture.xor_blank (p : Picture) : p.xor Picture.blank = p := by
  refine Picture.ext_row fun y _ => ?_
  rw [Picture.row_xor, Picture.row_blank]
  simp

namespace Machine

variable {m m' : Machine} {pad : Keypad} {e : Outcome}

/-- The picture is the same, and it is marked as changed if it was. -/
def SamePicture (m m' : Machine) : Prop := m'.picture = m.picture ∧ m'.dirty = m.dirty

/-- A sprite without a lit pixel changes nothing. -/
theorem drawn_draw (m : Machine) (x y : Register) (n : ℕ) :
    ((m.draw x y n).2 = .drawn ∧ (m.draw x y n).1.dirty = true) ∨
      ((m.draw x y n).2 ≠ .drawn ∧ m.SamePicture (m.draw x y n).1) := by
  unfold draw
  dsimp only
  split_ifs with hblank
  · refine Or.inr ⟨nofun, ?_, rfl⟩
    show m.picture.xor (m.stencil x y n) = m.picture
    rw [Picture.isBlank_iff.mp hblank, Picture.xor_blank]
  · exact Or.inl ⟨rfl, rfl⟩

theorem awaitKey_ne_drawn (m : Machine) (pad : Keypad) (x : Register) :
    (m.awaitKey pad x).2 ≠ .drawn := by
  unfold awaitKey
  dsimp only
  split <;> exact nofun

/-- An instruction that says it has drawn marks the picture as changed, and any other leaves the
picture and its mark alone. -/
theorem drawn_perform (m : Machine) (pad : Keypad) (i : Instruction) :
    ((m.perform pad i).2 = .drawn ∧ (m.perform pad i).1.dirty = true) ∨
      ((m.perform pad i).2 ≠ .drawn ∧ m.SamePicture (m.perform pad i).1) := by
  cases i with
  | clear => exact Or.inl ⟨rfl, rfl⟩
  | draw x y n =>
    rw [perform_draw]
    exact drawn_draw m x y n
  | awaitKey x =>
    refine Or.inr ⟨awaitKey_ne_drawn m pad x, same_perform (f := .picture) ?_,
      same_perform (f := .dirty) ?_⟩
    · simp [Instruction.writes]
    · simp [Instruction.writes]
  | _ =>
    refine Or.inr ⟨nofun, same_perform (f := .picture) ?_, same_perform (f := .dirty) ?_⟩
    · simp [Instruction.writes]
    · simp [Instruction.writes]

theorem drawn_of_step (h : m.step pad = (m', .ok e)) :
    (e = .drawn ∧ m'.dirty = true) ∨ (e ≠ .drawn ∧ m.SamePicture m') := by
  obtain ⟨i, -, -, -, hperform⟩ := perform_of_step h
  obtain rfl : (m.advance.perform pad i).1 = m' := congrArg Prod.fst hperform
  obtain rfl : (m.advance.perform pad i).2 = e := congrArg Prod.snd hperform
  exact drawn_perform m.advance pad i

end Machine

namespace Session

variable {s t u : Session Spectator}

/-! ## What a host has seen -/

/-- Between two moments the host was shown pictures, the last of them the one there is now, or it
was shown nothing and the picture is the same. At the later of them there is no picture left to
show. -/
structure Shows (s t : Session Spectator) : Prop where
  shown : t.machine.dirty = false
  seen :
    (s.host.pictures < t.host.pictures ∧ t.host.last = some t.machine.picture) ∨
      (t.host.pictures = s.host.pictures ∧ t.host.last = s.host.last ∧
        t.machine.picture = s.machine.picture)

theorem Shows.refl (h : s.machine.dirty = false) : s.Shows s := ⟨h, Or.inr ⟨rfl, rfl, rfl⟩⟩

theorem Shows.trans (hst : s.Shows t) (htu : t.Shows u) : s.Shows u := by
  refine ⟨htu.shown, ?_⟩
  rcases htu.seen with ⟨hlt, hlast⟩ | ⟨hpictures, hlast, hpicture⟩
  · refine Or.inl ⟨?_, hlast⟩
    rcases hst.seen with ⟨hlt', -⟩ | ⟨heq, -⟩
    · exact hlt'.trans hlt
    · rwa [heq] at hlt
  · rw [hpictures, hlast, hpicture]
    exact hst.seen

theorem announce_host_seen (s : Session Spectator) :
    s.announce.host.pictures = s.host.pictures ∧ s.announce.host.last = s.host.last := by
  unfold announce
  split <;> exact ⟨rfl, rfl⟩

theorem shows_step (h : s.machine.dirty = false) : s.Shows s.step.1 := by
  obtain ⟨hpictures, hlast⟩ := announce_host_seen s
  rcases hr : s.running with _ | _
  · rw [step_of_not_running hr]
    exact .refl h
  · rcases hm : s.machine.step s.keypad with ⟨m, f | e⟩
    · -- A step that fails leaves the machine as it was.
      rw [step_of_error hr hm, Machine.eq_of_step_error hm]
      exact ⟨h, Or.inr ⟨hpictures, hlast, rfl⟩⟩
    · rw [step_of_ok hr hm]
      unfold refresh
      split_ifs with hd
      · refine ⟨rfl, Or.inl ⟨?_, rfl⟩⟩
        show s.host.pictures < s.announce.host.pictures + 1
        omega
      · -- Nothing is shown; but then nothing was drawn, for that would have been marked.
        refine ⟨Bool.eq_false_iff.mpr hd, Or.inr ⟨hpictures, hlast, ?_⟩⟩
        rcases Machine.drawn_of_step hm with ⟨-, hdirty⟩ | ⟨-, hpicture, -⟩
        · exact absurd hdirty hd
        · exact hpicture

theorem shows_countDown (h : s.machine.dirty = false) : s.Shows s.countDown := by
  refine ⟨h, Or.inr ?_⟩
  unfold countDown
  split_ifs <;> exact ⟨rfl, rfl, rfl⟩

theorem lasting_shows (s : Session Spectator) : Lasting s.Shows where
  note _ _ h := ⟨h.shown, h.seen⟩
  clock _ _ h := ⟨h.shown, h.seen⟩
  stopped _ h := ⟨h.shown, h.seen⟩
  keypad _ _ h := ⟨h.shown, h.seen⟩
  countDown _ h := h.trans (shows_countDown h.shown)
  step _ h := h.trans (shows_step h.shown)

/-- A start puts a dark picture in the place of the old one, with nothing left to show. -/
theorem picture_start {σ : Type} [Host σ] {program : List UInt8}
    (h : program.length ≤ Machine.maxProgram) (s : Session σ) (drawn : ChaCha.Key) :
    (s.start program drawn).1.machine.picture = Picture.blank ∧
      (s.start program drawn).1.machine.dirty = false := by
  obtain ⟨m, hload, hstart⟩ := start_of_le h s drawn
  rw [Machine.load, if_pos h] at hload
  rw [hstart, ← Except.ok.inj hload]
  exact ⟨rfl, rfl⟩

/-! ## Telling the truth -/

/-- When there is said to be nothing to show, the host has seen the picture, or it has seen none and
the picture is dark. -/
def Truthful (s : Session Spectator) : Prop :=
  s.stale = false → s.host.last = some s.machine.picture ∨
    (s.host.last = none ∧ s.machine.picture = Picture.blank)

instance (s : Session Spectator) : Decidable s.Truthful :=
  inferInstanceAs (Decidable (_ → _))

/-- **What the host has seen since the last start.** Let `t` be a session that was just created, or
one in which a program was just started, whatever calls came before. Until another program is
started the session is never stale, and either the host was shown pictures, the last of them the one
there is, or it was shown nothing and the picture is dark. So the session tells the truth exactly if
it has shown a picture since `t`, or if the host had seen none before, or a dark one. -/
theorem truthful_iff (settings : Settings) (drawn : ChaCha.Key)
    (ht : t = create settings {} drawn ∨ ∃ cs program again, program.length ≤ Machine.maxProgram ∧
      t = (((create settings {} drawn).calls cs).1.start program again).1)
    (later : List Call)
    (hlater : ∀ program drawn, .start program drawn ∈ later →
      Machine.maxProgram < program.length) :
    let s := (t.calls later).1
    s.stale = false ∧
      (t.host.pictures < s.host.pictures ∧ s.host.last = some s.machine.picture ∨
        s.host.pictures = t.host.pictures ∧ s.host.last = t.host.last ∧
          s.machine.picture = Picture.blank) ∧
      (s.Truthful ↔ t.host.pictures < s.host.pictures ∨ t.host.last = none ∨
        t.host.last = some Picture.blank) := by
  intro s
  have hdark : t.machine.picture = Picture.blank ∧ t.machine.dirty = false := by
    rcases ht with rfl | ⟨cs, program, again, hfit, rfl⟩
    · exact ⟨rfl, rfl⟩
    · exact picture_start hfit _ again
  obtain ⟨hstale, hseen⟩ := (lasting_shows t).calls later (.refl hdark.2) hlater
  rw [hdark.1] at hseen
  refine ⟨hstale, hseen, ?_, ?_⟩
  · intro htrue
    rcases hseen with ⟨hlt, -⟩ | ⟨-, hlast, hpicture⟩
    · exact Or.inl hlt
    · rcases htrue hstale with hsome | ⟨hnone, -⟩
      · exact Or.inr (Or.inr (hlast ▸ hpicture ▸ hsome))
      · exact Or.inr (Or.inl (hlast ▸ hnone))
  · intro hcause _
    rcases hseen with ⟨-, hlast⟩ | ⟨heq, hlast, hpicture⟩
    · exact Or.inl hlast
    · rw [hlast, hpicture]
      rcases hcause with hlt | hnone | hblank
      · rw [heq] at hlt
        exact absurd hlt (Nat.lt_irrefl _)
      · exact Or.inr ⟨hnone, rfl⟩
      · exact Or.inl hblank

/-- A program that draws a digit, another one started after it, and its first picture. -/
theorem truthful_iff_second_program :
    let settings := ({} : Settings).withSeed 7
    let first := ((create settings {} default).calls [.start [0xD0, 0x05] default, .step]).1
    let t := (first.start [0x60, 0x01, 0xD0, 0x05] default).1
    let s := (t.calls [.step, .step]).1
    (∀ program drawn, Call.start program drawn ∈ [.step, .step] →
        Machine.maxProgram < program.length) ∧
      t.host.last ≠ some Picture.blank ∧ s.machine.picture ≠ Picture.blank ∧
      s.stale = false ∧ s.Truthful := by
  intro settings first t s
  have hlater : ∀ program drawn, Call.start program drawn ∈ [.step, .step] →
      Machine.maxProgram < program.length := by simp
  obtain ⟨hstale, -, htrue⟩ :=
    truthful_iff settings default (t := t) (Or.inr ⟨_, _, _, by decide, rfl⟩) [.step, .step] hlater
  refine ⟨hlater, by decide +kernel, by decide +kernel, hstale, htrue.mpr (Or.inl ?_)⟩
  decide +kernel

/-- Before that picture the host still sees the digit, and is not told that the picture is dark. -/
theorem not_truthful_restart :
    let s := ((create (({} : Settings).withSeed 7) {} default).calls
      [.start [0xD0, 0x05] default, .step, .start [0x60, 0x01] default]).1
    s.stale = false ∧ ¬ s.Truthful := by
  decide +kernel

end Session

end ChipEight
