import ChipEight.Proofs.Session.Showing
import ChipEight.Proofs.Session.Turns

/-!
# Every picture is shown once

Two signals tell that a picture changed: what an instruction answers, and the mark on the picture
that makes the session show it. They agree (`drawn_perform`), so what is performed in a turn can be
read off its answer (`Turn.performances`), and a turn tells its host no more than that and a few
records (`Turn.host_after`). Turn by turn, what a session performs from one start to the next is
what its turns perform (`renders_once`).
-/

namespace ChipEight

theorem filterMap_record (rs : List Record) :
    (rs.map Cue.record).filterMap Cue.performance? = [] := by
  induction rs with
  | nil => rfl
  | cons r rs ih => exact ih

theorem filterMap_play (ps : List Performance) :
    (ps.map Cue.play).filterMap Cue.performance? = ps := by
  induction ps with
  | nil => rfl
  | cons p ps ih => exact congrArg (p :: ·) ih

/-! ## Turns -/

namespace Turn

variable {σ τ : Type} [Host σ] [Host τ] {φ : σ → τ} {t : Turn σ}

/-- What is put on record when a turn begins. -/
def opening (t : Turn σ) : List Record :=
  match t.tick with
  | .processor => t.before.machine.announcement.toList
  | .timer => []

/-- What the host is shown in a turn: the picture, if the instruction says that it has drawn, and a
beep, if the sound timer was running when it was counted down. -/
def performances (t : Turn σ) : List Performance :=
  match t.tick, t.answer with
  | .processor, .ok .drawn => [.picture t.after.machine.picture]
  | .processor, _ => []
  | .timer, _ => if t.before.machine.sound = 0 then [] else [.beep]

/-- What is put on record when a turn ends. -/
def closing (t : Turn σ) : List Record :=
  match t.answer with
  | .ok _ => []
  | .error f => [.halted t.after.machine.pc f]

def cues (t : Turn σ) : List Cue :=
  t.opening.map .record ++ t.performances.map .play ++ t.closing.map .record

theorem filterMap_cues (t : Turn σ) : t.cues.filterMap Cue.performance? = t.performances := by
  unfold cues
  rw [List.filterMap_append, List.filterMap_append, filterMap_record, filterMap_record,
    filterMap_play, List.nil_append, List.append_nil]

theorem performances_map (hφ : Relays φ) (t : Turn σ) :
    (t.map φ).performances = t.performances := by
  unfold performances
  rw [t.answer_map hφ, t.after_map hφ]
  rfl

theorem host_announce (s : Session σ) :
    s.announce.host = hear s.host (s.machine.announcement.toList.map .record) := by
  unfold Session.announce
  cases s.machine.announcement <;> rfl

theorem performances_processor {s : Session σ} {e : Outcome} (h : s.step.2 = .ok e) :
    (Turn.mk .processor s).performances =
      if e = .drawn then [.picture s.step.1.machine.picture] else [] := by
  have hanswer : (Turn.mk .processor s).answer = .ok e := h
  unfold performances
  rw [hanswer]
  cases e <;> rfl

/-- In a turn the host hears its cues. -/
theorem host_after (hr : t.before.running = true) (hclean : t.before.machine.dirty = false) :
    t.after.host = hear t.before.host t.cues := by
  rcases t with ⟨_ | _, s⟩
  · show s.step.1.host = hear s.host (Turn.mk .processor s).cues
    unfold cues
    rw [hear_append, hear_append]
    show _ = hear (hear (hear s.host (s.machine.announcement.toList.map .record)) _) _
    rw [← host_announce]
    rcases hm : s.machine.step s.keypad with ⟨m, f | e⟩
    · have hstep := Session.step_of_error hr hm
      have hanswer : (Turn.mk .processor s).answer = .error f := congrArg Prod.snd hstep
      have hafter : (Turn.mk .processor s).after.machine = m :=
        congrArg (fun r => r.1.machine) hstep
      unfold performances closing
      rw [hanswer, hafter, hstep]
      rfl
    · have hstep := Session.step_of_ok hr hm
      have hok : s.step.2 = .ok e := congrArg Prod.snd hstep
      have hanswer : (Turn.mk .processor s).answer = .ok e := hok
      rw [performances_processor hok]
      unfold closing
      rw [hanswer, hstep]
      -- The picture is shown if it is marked as changed, which it is if the instruction has drawn.
      unfold Session.refresh
      rcases Machine.drawn_of_step hm with ⟨rfl, hdirty⟩ | ⟨hne, -, hsame⟩
      · rw [if_pos rfl, if_pos hdirty]
        rfl
      · have hdirty : ¬ m.dirty = true := by
          rw [hsame, hclean]
          exact Bool.false_ne_true
        rw [if_neg hne, if_neg hdirty]
        rfl
  · show (if s.machine.sound = 0 then s.host else Host.beep s.host) = _
    unfold cues opening performances
    dsimp only
    split_ifs <;> rfl

/-- A turn changes the picture only if an instruction says that it has drawn. -/
theorem picture_after (hr : t.before.running = true) (h : t.answer ≠ .ok .drawn) :
    t.after.machine.picture = t.before.machine.picture := by
  rcases t with ⟨_ | _, s⟩
  · show s.step.1.machine.picture = s.machine.picture
    have hanswer : s.step.2 ≠ .ok .drawn := h
    rcases hm : s.machine.step s.keypad with ⟨m, f | e⟩
    · rw [Session.step_of_error hr hm]
      exact congrArg Machine.picture (Machine.eq_of_step_error hm)
    · rw [Session.step_of_ok hr hm] at hanswer
      rw [Session.step_of_ok hr hm, Session.refresh_eq]
      rcases Machine.drawn_of_step hm with ⟨rfl, -⟩ | ⟨-, hsame, -⟩
      · exact absurd rfl hanswer
      · exact hsame
  · rfl

end Turn

/-! ## Sessions -/

namespace Session

variable {σ : Type} [Host σ] {s : Session σ}

/-- There is no picture left to show. -/
theorem lasting_clean : Lasting fun s : Session σ => s.machine.dirty = false where
  note _ _ h := h
  clock _ _ h := h
  stopped _ h := h
  keypad _ _ h := h
  countDown _ h := h
  step s h := by
    rcases hr : s.running with _ | _
    · rw [step_of_not_running hr]
      exact h
    · rcases hm : s.machine.step s.keypad with ⟨m, f | e⟩
      · rw [step_of_error hr hm, Machine.eq_of_step_error hm]
        exact h
      · rw [step_of_ok hr hm, refresh_eq]

theorem host_catchUp (hr : s.running = true) (hclean : s.machine.dirty = false) :
    s.catchUp.1.host = hear s.host (s.catchUpTurns.flatMap Turn.cues) := by
  induction s using catchUpTurns.induct with
  | case1 s h =>
    rw [catchUpTurns_of_none h, catchUp_of_none h]
    rfl
  | case2 s tick c h turn e ha ih =>
    have hrun : turn.after.running = true := Turn.running_after (t := turn) hr ha
    have hclean' : turn.after.machine.dirty = false :=
      Turn.lasting_after (t := turn) lasting_clean hclean
    have hhost : turn.after.host = hear s.host turn.cues := turn.host_after hr hclean
    rw [catchUpTurns_of_ok h ha, catchUp_of_turn_ok h ha, ih hrun hclean', hhost,
      List.flatMap_cons, hear_append]
  | case3 s tick c h turn f ha =>
    have hhost : turn.after.host = hear s.host turn.cues := turn.host_after hr hclean
    rw [catchUpTurns_of_error h ha, catchUp_of_turn_error h ha, List.flatMap_singleton]
    exact hhost

/-- Besides the cues of its turns a call has nothing for its host but records. -/
theorem hear_call (hclean : s.machine.dirty = false) {c : Call}
    (hc : ∀ program drawn, c = .start program drawn → Machine.maxProgram < program.length) :
    ∃ cues, (s.call c).1.host = hear s.host cues ∧
      cues.filterMap Cue.performance? = (s.callTurns c).flatMap Turn.performances := by
  rcases s.callTurns_elim c with ⟨hnil, hidle⟩ | ⟨hr, ⟨hone, hcall⟩ | ⟨clock, hturns, hcall⟩⟩
  · obtain ⟨rs, keypad, running, hcall⟩ := call_idle hidle hc
    refine ⟨rs.map .record, by rw [hcall], ?_⟩
    rw [hnil, filterMap_record]
    rfl
  · refine ⟨(Turn.mk .processor s).cues, ?_, ?_⟩
    · rw [hcall]
      exact (Turn.mk .processor s).host_after hr hclean
    · rw [hone, Turn.filterMap_cues, List.flatMap_singleton]
  · refine ⟨({ s with clock } : Session σ).catchUpTurns.flatMap Turn.cues, ?_, ?_⟩
    · rw [hcall]
      exact host_catchUp (s := { s with clock }) hr hclean
    · rw [hturns, List.filterMap_flatMap]
      exact List.flatMap_congr fun turn _ => turn.filterMap_cues

theorem hear_calls (hclean : s.machine.dirty = false) {cs : List Call}
    (hcs : ∀ program drawn, .start program drawn ∈ cs → Machine.maxProgram < program.length) :
    ∃ cues, (s.calls cs).1.host = hear s.host cues ∧
      cues.filterMap Cue.performance? = (s.callsTurns cs).flatMap Turn.performances := by
  induction cs generalizing s with
  | nil => exact ⟨[], rfl, rfl⟩
  | cons c cs ih =>
    have hc : ∀ program drawn, c = .start program drawn → Machine.maxProgram < program.length :=
      fun program drawn hp => hcs program drawn (hp ▸ List.mem_cons_self)
    obtain ⟨cues, hhost, hcues⟩ := hear_call hclean hc
    have hclean' : (s.call c).1.machine.dirty = false :=
      lasting_clean.calls [c] hclean fun program drawn hp =>
        hc program drawn (List.mem_singleton.mp hp).symm
    obtain ⟨cues', hhost', hcues'⟩ :=
      ih hclean' fun program drawn hp => hcs program drawn (List.mem_cons_of_mem c hp)
    refine ⟨cues ++ cues', ?_, ?_⟩
    · rw [hear_append, ← hhost]
      exact hhost'
    · rw [List.filterMap_append, hcues, hcues', ← List.flatMap_append]
      rfl

/-- What a session performs during calls is what its turns perform. -/
theorem performances_calls (hclean : s.machine.dirty = false) {cs : List Call}
    (hcs : ∀ program drawn, .start program drawn ∈ cs → Machine.maxProgram < program.length) :
    (s.cues cs).filterMap Cue.performance? = (s.callsTurns cs).flatMap Turn.performances := by
  let script : Session Script := s.map fun _ => {}
  let φ : Script → σ := fun c => hear s.host c.cues
  have hφ : Relays φ := relays_hear s.host
  have hclean' : script.machine.dirty = false := hclean
  -- A script keeps what it hears, so there is only one list of cues it can have heard.
  obtain ⟨cues, hhost, hcues⟩ := hear_calls hclean' hcs
  have hscript : s.cues cs = cues := by
    have hhear : (script.calls cs).1.host.cues = ({} : Script).cues ++ cues := by
      rw [hhost]
      exact cues_hear _ _
    exact hhear
  have hturns : s.callsTurns cs = (script.callsTurns cs).map (Turn.map φ) :=
    callsTurns_map hφ script cs
  rw [hscript, hcues, hturns, List.flatMap_map]
  exact List.flatMap_congr fun turn _ => (turn.performances_map hφ).symm

/-- **Every picture is shown once.** From a start to the next the turns of a session are all that
happens to its machine. What it performs for its host is what they perform, turn by turn: the
picture right after each instruction that says it has drawn, one time, and a beep at each count of
the timers while the sound timer runs. A turn with any other answer leaves the picture alone. Every
instruction says that it has drawn exactly if it marks the picture as changed. -/
theorem renders_once (s : Session σ) {program : List UInt8} (drawn : ChaCha.Key)
    (hfits : program.length ≤ Machine.maxProgram) {cs : List Call}
    (hcs : ∀ program drawn, .start program drawn ∈ cs → Machine.maxProgram < program.length) :
    let t := (s.start program drawn).1
    let turns := t.callsTurns cs
    Turn.Path t.machine turns (t.calls cs).1.machine ∧
      (t.calls cs).1.host = hear t.host (t.cues cs) ∧
      (t.cues cs).filterMap Cue.performance? = turns.flatMap Turn.performances ∧
      (∀ turn ∈ turns, turn.after.host = hear turn.before.host turn.cues ∧
        turn.cues.filterMap Cue.performance? = turn.performances ∧
        (turn.answer ≠ .ok .drawn →
          turn.after.machine.picture = turn.before.machine.picture)) ∧
      ∀ (m : Machine) (pad : Keypad) (i : Instruction),
        ((m.perform pad i).2 = .drawn ∧ (m.perform pad i).1.dirty = true) ∨
          ((m.perform pad i).2 ≠ .drawn ∧ m.SamePicture (m.perform pad i).1) := by
  intro t turns
  have hclean : t.machine.dirty = false := (picture_start hfits s drawn).2
  refine ⟨path_callsTurns hcs, host_calls t cs, performances_calls hclean hcs,
    fun turn hturn => ?_, Machine.drawn_perform⟩
  obtain ⟨before, c, later, -, hmem⟩ := mem_callsTurns hturn
  have hr : turn.before.running = true := running_of_mem_callTurns _ c turn hmem
  have hclean' : turn.before.machine.dirty = false := lasting_clean.callsTurns hclean hcs turn hturn
  exact ⟨turn.host_after hr hclean', turn.filterMap_cues, turn.picture_after hr⟩

/-- A digit drawn by a single step; then, in a call that ends at a word that is no instruction, a
sprite that covers nothing, a beep, a cleared picture and another beep. -/
theorem renders_once_beeps :
    let s : Session Transcript := create { cpuHz := 60, seed := some 7 } {} default
    let program : List UInt8 :=
      [0x60, 0x02, 0xF0, 0x18, 0xD1, 0x15, 0xD0, 0x00, 0x00, 0xE0, 0xFF, 0xFF]
    let cs : List Call := [.step, .step, .step, .keyDown 3, .advance 1000000000, .stop, .cycle]
    let t := (s.start program default).1
    let digit := (t.calls [.step, .step, .step]).1.machine.picture
    program.length ≤ Machine.maxProgram ∧
      (∀ program drawn, .start program drawn ∈ cs → Machine.maxProgram < program.length) ∧
      (t.calls cs).1.fault = some (.unknownOpcode 0xFFFF) ∧ digit ≠ Picture.blank ∧
      (t.callsTurns cs).flatMap Turn.performances =
        [.picture digit, .beep, .picture Picture.blank, .beep] ∧
      (t.calls cs).1.host.performances =
        [.picture digit, .beep, .picture Picture.blank, .beep] := by
  intro s program cs t digit
  have hfits : program.length ≤ Machine.maxProgram := by decide
  have hcs : ∀ program drawn, .start program drawn ∈ cs → Machine.maxProgram < program.length := by
    simp [cs]
  have hcues : (t.cues cs).filterMap Cue.performance? =
      [.picture digit, .beep, .picture Picture.blank, .beep] := by decide +kernel
  obtain ⟨-, -, hperform, -⟩ := renders_once s default hfits hcs
  refine ⟨hfits, hcs, by decide +kernel, by decide +kernel, hperform.symm.trans hcues, ?_⟩
  decide +kernel

end Session

end ChipEight
