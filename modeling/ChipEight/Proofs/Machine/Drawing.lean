import ChipEight.Proofs.Machine.Guarded
import ChipEight.Proofs.Picture.Overlay

/-!
# Drawing one sprite after another

A sprite is laid over the picture, and what it is laid over with depends on nothing that drawing
changes: on I, on memory, on the dialect and on two registers that are not VF (`stencilOf_repaint`).
So a list of drawings is an overlay (`executeAll_of_draws`), which does not depend on the order, and
in which what is drawn an even number of times has no part (`draws_cancel`).
-/

namespace ChipEight.Machine

variable {m m' : Machine} {pad : Keypad} {w : Word} {ws : List Word}

/-- Carries out the instruction that a word stands for, wherever the word comes from. -/
def execute (m : Machine) (pad : Keypad) (w : Word) : Machine × Except Fault Outcome :=
  match Instruction.decode w with
  | some i => m.tried pad i
  | none => (m, .error (.unknownOpcode w))

/-- A step executes the word at the program counter, once the program counter is past it. -/
theorem step_of_execute {e : Outcome} (hpc : m.pc ≤ 0xFFE)
    (h : m.advance.execute pad m.word = (m', .ok e)) : m.step pad = (m', .ok e) := by
  unfold execute at h
  rcases hi : Instruction.decode m.word with _ | i
  · rw [hi] at h
    cases h
  · rw [hi] at h
    dsimp only at h
    rw [step_of_decode hpc hi, h]

/-- Executes words one after the other, up to a fault. -/
def executeAll (m : Machine) (pad : Keypad) : List Word → Except Fault Machine
  | [] => .ok m
  | w :: ws =>
    match m.execute pad w with
    | (m, .ok _) => m.executeAll pad ws
    | (_, .error f) => .error f

/-- The word draws a sprite that lies within memory, at a place that VF has no part in. -/
structure Draws (m : Machine) (w : Word) : Prop where
  fits : w.fits "Dxyn" = true
  x_ne : w.x ≠ 0xF
  y_ne : w.y ≠ 0xF
  inMemory : m.index.toNat + w.n.val ≤ 4096

/-- The pixels that the sprite of a word covers. -/
def stencilOf (m : Machine) (w : Word) : Picture := m.stencil w.x w.y w.n

/-! ## What drawing changes -/

/-- The machine with another picture, another VF and another mark that the picture has changed. -/
def repaint (m : Machine) (picture : Picture) (flag : UInt8) (dirty : Bool) : Machine :=
  { m.putV (Fin.last 15) flag with picture, dirty }

variable {p : Picture} {flag : UInt8} {dirty : Bool}

theorem repaint_repaint (p' : Picture) (flag' : UInt8) (dirty' : Bool) :
    (m.repaint p flag dirty).repaint p' flag' dirty' = m.repaint p' flag' dirty' := by
  simp [repaint, putV]

theorem repaint_self (m : Machine) : m.repaint m.picture (m.v.get (Fin.last 15)) m.dirty = m := by
  have hset : m.v.set (Fin.last 15) (m.v.get (Fin.last 15)) = m.v := Vector.set_getElem_self _
  unfold repaint putV
  rw [hset]

theorem v_repaint_of_ne {k : Register} (hk : k ≠ 0xF) :
    (m.repaint p flag dirty).v.get k = m.v.get k := by
  have hne : (Fin.last 15).val ≠ k.val := fun h => hk (Fin.ext h.symm)
  exact Vector.getElem_set_ne (by decide) k.isLt hne

theorem v_repaint_last : (m.repaint p flag dirty).v.get 0xF = flag :=
  Vector.getElem_set_self _

/-- What a sprite covers depends on nothing that drawing changes. -/
theorem stencilOf_repaint (h : m.Draws w) :
    (m.repaint p flag dirty).stencilOf w = m.stencilOf w := by
  have hx : (m.repaint p flag dirty).v[w.x] = m.v[w.x] := v_repaint_of_ne h.x_ne
  have hy : (m.repaint p flag dirty).v[w.y] = m.v[w.y] := v_repaint_of_ne h.y_ne
  unfold stencilOf stencil
  rw [hx, hy]
  rfl

theorem Draws.repaint (h : m.Draws w) : (m.repaint p flag dirty).Draws w :=
  ⟨h.fits, h.x_ne, h.y_ne, h.inMemory⟩

/-! ## Drawing -/

theorem draw_eq (m : Machine) (w : Word) :
    (m.draw w.x w.y w.n).1 =
      m.repaint (m.picture.xor (m.stencilOf w))
        (if (m.picture.inter (m.stencilOf w)).isBlank then 0 else 1)
        (m.dirty || !(m.stencilOf w).isBlank) := by
  have hstencil : m.stencil w.x w.y w.n = m.stencilOf w := rfl
  unfold draw
  rw [hstencil]
  generalize m.stencilOf w = s
  rcases hhit : (m.picture.inter s).isBlank with _ | _ <;> rcases hs : s.isBlank with _ | _ <;>
    simp [repaint, putFlag, putV, hhit, hs]

theorem execute_of_draws (h : m.Draws w) (pad : Keypad) :
    ∃ e, m.execute pad w =
      (m.repaint (m.picture.xor (m.stencilOf w))
        (if (m.picture.inter (m.stencilOf w)).isBlank then 0 else 1)
        (m.dirty || !(m.stencilOf w).isBlank), .ok e) := by
  have hdecode : Instruction.decode w = some (.draw w.x w.y w.n) :=
    Instruction.decode_of_describes ⟨h.fits, rfl, rfl, rfl⟩ (by simp [Instruction.form])
  have hrefusal : m.refusal (.draw w.x w.y w.n) = none :=
    Memory.rangeFault_eq_none_iff.mpr h.inMemory
  have hexecute : m.execute pad w = done (m.draw w.x w.y w.n) := by
    unfold execute
    rw [hdecode]
    exact tried_of_none hrefusal
  refine ⟨(m.draw w.x w.y w.n).2, ?_⟩
  rw [hexecute, ← draw_eq]
  rfl

theorem executeAll_cons {e : Outcome} (h : m.execute pad w = (m', .ok e)) :
    m.executeAll pad (w :: ws) = m'.executeAll pad ws := by
  rw [executeAll, h]

/-- A list of drawings lays their stencils over the picture. -/
theorem executeAll_of_draws (h : ∀ w ∈ ws, m.Draws w) (pad : Keypad) :
    ∃ flag dirty, m.executeAll pad ws =
      .ok (m.repaint (m.picture.overlay (ws.map m.stencilOf)) flag dirty) := by
  induction ws generalizing m with
  | nil => exact ⟨m.v.get (Fin.last 15), m.dirty, congrArg Except.ok (repaint_self m).symm⟩
  | cons w ws ih =>
    obtain ⟨hw, hws⟩ := List.forall_mem_cons.mp h
    obtain ⟨e, hexecute⟩ := execute_of_draws hw pad
    generalize hm' : m.repaint _ _ _ = m' at hexecute
    have hdraws : ∀ w ∈ ws, m'.Draws w := fun w hmem => hm' ▸ (hws w hmem).repaint
    have hsame : ws.map m'.stencilOf = ws.map m.stencilOf :=
      List.map_congr_left fun w hmem => hm' ▸ stencilOf_repaint (hws w hmem)
    obtain ⟨flag, dirty, hrest⟩ := ih hdraws
    refine ⟨flag, dirty, ?_⟩
    rw [executeAll_cons hexecute, hrest, hsame, ← hm', repaint_repaint]
    rfl

/-- Lists in which the same words come an odd number of times draw the same. -/
theorem picture_eq_of_parity {vs : List Word} (hws : ∀ w ∈ ws, m.Draws w)
    (hvs : ∀ w ∈ vs, m.Draws w) (h : ∀ w, Even (vs.count w) ↔ Even (ws.count w))
    (hm' : m.executeAll pad ws = .ok m') :
    ∃ m'', m.executeAll pad vs = .ok m'' ∧ m''.picture = m'.picture := by
  obtain ⟨flag, dirty, hws'⟩ := executeAll_of_draws hws pad
  obtain ⟨flag', dirty', hvs'⟩ := executeAll_of_draws hvs pad
  obtain rfl := Except.ok.inj (hws'.symm.trans hm')
  exact ⟨_, hvs', Picture.overlay_map_eq h m.picture m.stencilOf⟩

/-- A sprite that is drawn twice is gone again, and nothing is left of it but VF and the mark that
the picture has changed. -/
theorem draw_twice (h : m.Draws w) (pad : Keypad) :
    ∃ m₁ m₂, m.executeAll pad [w] = .ok m₁ ∧ m.executeAll pad [w, w] = .ok m₂ ∧
      m₂ = { m with v := m₂.v, dirty := m₂.dirty } ∧
      (∀ k : Register, k ≠ 0xF → m₂.v.get k = m.v.get k) ∧
      m₂.v.get 0xF = if ∃ x < Picture.width, ∃ y < Picture.height,
        m.picture.pixel x y = false ∧ m₁.picture.pixel x y = true then 1 else 0 := by
  obtain ⟨e, hfirst⟩ := execute_of_draws h pad
  generalize hm₁ : m.repaint _ _ _ = m₁ at hfirst
  have hdraws : m₁.Draws w := hm₁ ▸ h.repaint
  have hsame : m₁.stencilOf w = m.stencilOf w := hm₁ ▸ stencilOf_repaint h
  have hpicture : m₁.picture = m.picture.xor (m.stencilOf w) := hm₁ ▸ rfl
  obtain ⟨e', hsecond⟩ := execute_of_draws hdraws pad
  rw [hsame, hpicture, Picture.xor_xor_cancel, ← hm₁, repaint_repaint] at hsecond
  rw [hm₁] at hsecond
  refine ⟨m₁, _, executeAll_cons hfirst, (executeAll_cons hfirst).trans (executeAll_cons hsecond),
    rfl, fun k hk => v_repaint_of_ne hk, v_repaint_last.trans ?_⟩
  rw [hpicture]
  split_ifs with hblank hlit hlit
  · rw [(Picture.isBlank_xor_inter_eq_false_iff _ _).mpr hlit] at hblank
    cases hblank
  · rfl
  · rfl
  · exact absurd ((Picture.isBlank_xor_inter_eq_false_iff _ _).mp (Bool.eq_false_iff.mpr hblank)) hlit

/-- **Drawings commute and cancel.** A list of words each of which draws a sprite within memory, at
a place given by registers other than VF, is executed without a fault, whatever the state of the
machine and whether it clips sprites. In any other order the words lead to the same picture, and so
do they without those that come an even number of times. A sprite that is drawn twice in a row
leaves the picture and every register but VF as they were; and then VF is 1 or 0 according to
whether the first drawing lit a pixel that was dark. -/
theorem draws_cancel (m : Machine) (pad : Keypad) (ws : List Word) (h : ∀ w ∈ ws, m.Draws w) :
    ∃ m', m.executeAll pad ws = .ok m' ∧
      (∀ vs : List Word, vs.Perm ws →
        ∃ m'', m.executeAll pad vs = .ok m'' ∧ m''.picture = m'.picture) ∧
      (∀ kept : Word → Bool, (∀ w, kept w = false → Even (ws.count w)) →
        ∃ m'', m.executeAll pad (ws.filter kept) = .ok m'' ∧ m''.picture = m'.picture) ∧
      ∀ w ∈ ws, ∃ m₁ m₂, m.executeAll pad [w] = .ok m₁ ∧ m.executeAll pad [w, w] = .ok m₂ ∧
        m₂ = { m with v := m₂.v, dirty := m₂.dirty } ∧
        (∀ k : Register, k ≠ 0xF → m₂.v.get k = m.v.get k) ∧
        m₂.v.get 0xF = if ∃ x < Picture.width, ∃ y < Picture.height,
          m.picture.pixel x y = false ∧ m₁.picture.pixel x y = true then 1 else 0 := by
  obtain ⟨flag, dirty, hrun⟩ := executeAll_of_draws h pad
  refine ⟨_, hrun, fun vs hperm => ?_, fun kept hkept => ?_, fun w hw => draw_twice (h w hw) pad⟩
  · have hvs : ∀ w ∈ vs, m.Draws w := fun w hw => h w (hperm.mem_iff.mp hw)
    exact picture_eq_of_parity h hvs (fun w => by rw [hperm.count_eq]) hrun
  · have hfilter : ∀ w ∈ ws.filter kept, m.Draws w := fun w hw => h w (List.mem_of_mem_filter hw)
    refine picture_eq_of_parity h hfilter (fun w => ?_) hrun
    rcases hk : kept w with _ | _
    · have hnone : (ws.filter kept).count w = 0 :=
        List.count_eq_zero.mpr fun hw => by simp [hk] at hw
      rw [hnone]
      exact ⟨fun _ => hkept w hk, fun _ => Even.zero⟩
    · rw [List.count_filter hk]

/-- A digit that comes in again at the edges is drawn before and after another that it overlaps. -/
theorem draws_cancel_overlapping :
    let m := (((Machine.fresh { seed := some 7 } default).putV 0 62).putV 1 30).putV 2 1
    let pad : Keypad := {}
    let ws : List Word := [0xD015, 0xD223, 0xD015]
    (∀ w ∈ ws, m.Draws w) ∧
      ∃ m', m.executeAll pad ws = .ok m' ∧
        (∃ m'', m.executeAll pad [0xD223, 0xD015, 0xD015] = .ok m'' ∧
          m''.picture = m'.picture) ∧
        (∃ m'', m.executeAll pad [0xD223] = .ok m'' ∧ m''.picture = m'.picture) ∧
        m'.picture.isBlank = false ∧
        ∃ m₁ m₂, m.executeAll pad [0xD015] = .ok m₁ ∧ m₁.picture.isBlank = false ∧
          m.executeAll pad [0xD015, 0xD015] = .ok m₂ ∧ m₂.picture = m.picture ∧
          m₂.v.get 0xF = 1 := by
  intro m pad ws
  have hwrapped : m.Draws 0xD015 := ⟨by decide, by decide, by decide, by decide⟩
  have hinside : m.Draws 0xD223 := ⟨by decide, by decide, by decide, by decide⟩
  have hdraws : ∀ w ∈ ws, m.Draws w := by simp [ws, hwrapped, hinside]
  have hrun : ((m.executeAll pad ws).map (·.picture.isBlank) = .ok false) ∧
      ((m.executeAll pad [0xD015]).map (·.picture.isBlank) = .ok false) ∧
      (m.executeAll pad [0xD015, 0xD015]).map (·.v.get 0xF) = .ok 1 := by
    decide +kernel
  obtain ⟨hlit, hlit₁, hflag⟩ := hrun
  obtain ⟨m', hm', horder, hkept, htwice⟩ := draws_cancel m pad ws hdraws
  have hperm : List.Perm [0xD223, 0xD015, 0xD015] ws := by decide
  have heven : ∀ w : Word, (w == 0xD223) = false → Even (ws.count w) := fun w hw => by
    by_cases hmem : w ∈ ws
    · have hcases : w = 0xD015 ∨ w = 0xD223 ∨ w = 0xD015 := by simpa [ws] using hmem
      rcases hcases with rfl | rfl | rfl
      · decide
      · cases hw
      · decide
    · rw [List.count_eq_zero.mpr hmem]
      exact Even.zero
  have hfilter : ws.filter (· == 0xD223) = [0xD223] := by decide
  have hkept' := hkept (· == 0xD223) heven
  rw [hfilter] at hkept'
  obtain ⟨m₁, m₂, hm₁, hm₂, hsame, -, -⟩ := htwice 0xD015 (by decide)
  rw [hm'] at hlit
  rw [hm₁] at hlit₁
  rw [hm₂] at hflag
  clear_value m
  exact ⟨hdraws, m', hm', horder _ hperm, hkept', Except.ok.inj hlit, m₁, m₂, hm₁,
    Except.ok.inj hlit₁, hm₂, (congrArg Machine.picture hsame).trans rfl, Except.ok.inj hflag⟩

end ChipEight.Machine
