import ChipEight.Program.Reading
import Mathlib.Tactic

/-!
# Reading from a steady source

A source is steady if it hands out some bytes whenever it is asked, in pieces of any size, and is
at most interrupted in between. How it cuts its bytes into pieces makes no difference to what is
read, and what comes behind them is only looked at if there is room for more:
`read_append_of_length_lt` and `read_append_of_le_length`. So a program that is read is the one that
would be loaded from its bytes, and a source that has too many of them, or fails, is given up at an
exact place (`loadFrom_steady`).
-/

namespace ChipEight

/-- The source hands out some bytes, or was interrupted and will if it is asked again. -/
def Delivery.IsSteady : Delivery → Prop
  | .bytes data => data ≠ []
  | .failure cause => cause.kind = .interrupted

namespace Source

/-- The source keeps handing out bytes up to its end. -/
def Steady (s : Source) : Prop := ∀ d ∈ s, d.IsSteady

variable {limit : ℕ} {data more : List UInt8} {s t : Source}

theorem after_nil (r : Except ReadError (List UInt8) × Source) : after [] r = r := by
  obtain ⟨e | d, t⟩ := r <;> rfl

theorem after_after (r : Except ReadError (List UInt8) × Source) :
    after data (after more r) = after (data ++ more) r := by
  obtain ⟨e | d, t⟩ := r
  · rfl
  · exact congrArg (fun l => (Except.ok l, t)) (List.append_assoc data more d).symm

/-! ## One delivery -/

theorem read_zero (s : Source) : s.read 0 = (.ok [], s) := by
  cases s <;> rfl

theorem read_bytes_of_le (hlimit : limit ≠ 0) (hdata : data ≠ []) (hle : data.length ≤ limit) :
    read limit (.bytes data :: s) = after data (s.read (limit - data.length)) := by
  rw [read, if_neg hlimit, if_pos hle]
  exact hdata

theorem read_bytes_of_lt (hlimit : limit ≠ 0) (hlt : limit < data.length) :
    read limit (.bytes data :: s) = (.ok (data.take limit), .bytes (data.drop limit) :: s) := by
  rw [read, if_neg hlimit, if_neg (Nat.not_le.mpr hlt)]
  exact List.ne_nil_of_length_pos (Nat.zero_lt_of_lt hlt)

theorem read_interrupted (hlimit : limit ≠ 0) {cause : ReadError}
    (hcause : cause.kind = .interrupted) : read limit (.failure cause :: s) = s.read limit := by
  rw [read, if_neg hlimit]
  exact if_pos hcause

theorem read_failure (hlimit : limit ≠ 0) {cause : ReadError}
    (hcause : cause.kind ≠ .interrupted) :
    read limit (.failure cause :: s) = (.error cause, s) := by
  rw [read, if_neg hlimit]
  exact if_neg hcause

/-! ## Many deliveries -/

/-- If there is room for more than a steady source has, all of it is read, and then what follows. -/
theorem read_append_of_length_lt (hs : s.Steady) (hlt : s.content.length < limit) (t : Source) :
    read limit (s ++ t) = after s.content (t.read (limit - s.content.length)) := by
  induction s generalizing limit with
  | nil => exact (after_nil _).symm
  | cons d s ih =>
    obtain ⟨hd, hsteady⟩ := List.forall_mem_cons.mp hs
    have hlimit : limit ≠ 0 := Nat.ne_zero_of_lt hlt
    cases d with
    | bytes data =>
      rw [content, List.length_append] at hlt
      rw [List.cons_append, read_bytes_of_le hlimit hd (by omega), ih hsteady (by omega),
        after_after, content, List.length_append, Nat.sub_sub]
    | failure cause =>
      rw [List.cons_append, read_interrupted hlimit hd]
      exact ih hsteady hlt

/-- If there is no room for more than a steady source has, what follows is not looked at. -/
theorem read_append_of_le_length (hs : s.Steady) (hle : limit ≤ s.content.length) :
    ∃ rest : Source, rest.content = s.content.drop limit ∧
      ∀ t, read limit (s ++ t) = (.ok (s.content.take limit), rest ++ t) := by
  induction s generalizing limit with
  | nil =>
    obtain rfl : limit = 0 := Nat.le_zero.mp hle
    exact ⟨[], rfl, fun t => read_zero t⟩
  | cons d s ih =>
    obtain ⟨hd, hsteady⟩ := List.forall_mem_cons.mp hs
    by_cases hlimit : limit = 0
    · subst hlimit
      exact ⟨d :: s, rfl, fun t => read_zero _⟩
    · cases d with
      | bytes data =>
        rw [content, List.length_append] at hle
        by_cases hdata : data.length ≤ limit
        · have hle' : limit - data.length ≤ (content s).length := by omega
          obtain ⟨rest, hrest, hread⟩ := ih hsteady hle'
          refine ⟨rest, ?_, fun t => ?_⟩
          · rw [hrest, content, List.drop_append, List.drop_eq_nil_of_le hdata, List.nil_append]
          · rw [List.cons_append, read_bytes_of_le hlimit hd hdata, hread, content,
              List.take_append, List.take_of_length_le hdata]
            rfl
        · have hlt := Nat.lt_of_not_le hdata
          refine ⟨.bytes (data.drop limit) :: s, ?_, fun t => ?_⟩
          · rw [content, content, List.drop_append_of_le_length hlt.le]
          · rw [List.cons_append, read_bytes_of_lt hlimit hlt, content,
              List.take_append_of_le_length hlt.le]
            rfl
      | failure cause =>
        obtain ⟨rest, hrest, hread⟩ := ih hsteady hle
        refine ⟨rest, hrest, fun t => ?_⟩
        rw [List.cons_append, read_interrupted hlimit hd]
        exact hread t

end Source

/-! ## Programs -/

namespace Machine

variable {s t rest : Source} {program : List UInt8} {settings : Settings} {f : Fault}

theorem readProgram_of_read (h : s.read (maxProgram + 1) = (.ok program, rest)) :
    readProgram s =
      if program.length ≤ maxProgram then (.ok program, rest)
      else (.error (.programTooLarge program.length maxProgram), rest) := by
  rw [readProgram, h]

theorem readProgram_of_read_error {cause : ReadError}
    (h : s.read (maxProgram + 1) = (.error cause, rest)) :
    readProgram s = (.error (.unreadable cause), rest) := by
  rw [readProgram, h]

/-- A steady source that has no more bytes than fit is read to its end. -/
theorem readProgram_steady (hs : s.Steady) (hle : s.content.length ≤ maxProgram) :
    readProgram s = (.ok s.content, []) := by
  have hread := Source.read_append_of_length_lt hs (Nat.lt_succ_of_le hle) []
  have hdata : Source.after s.content (Source.read (maxProgram + 1 - s.content.length) []) =
      (.ok s.content, []) := by
    simp [Source.read, Source.after, Except.map]
  rw [List.append_nil, hdata] at hread
  rw [readProgram_of_read hread, if_pos hle]

/-- A steady source that has more is given up one byte past the largest program. -/
theorem readProgram_of_maxProgram_lt (hs : s.Steady) (hlt : maxProgram < s.content.length) :
    ∃ rest : Source, rest.content = s.content.drop (maxProgram + 1) ∧
      ∀ t, readProgram (s ++ t) =
        (.error (.programTooLarge (maxProgram + 1) maxProgram), rest ++ t) := by
  obtain ⟨rest, hrest, hread⟩ := Source.read_append_of_le_length hs hlt
  have hlength : (s.content.take (maxProgram + 1)).length = maxProgram + 1 :=
    List.length_take_of_le hlt
  refine ⟨rest, hrest, fun t => ?_⟩
  rw [readProgram_of_read (hread t), hlength, if_neg (Nat.not_succ_le_self maxProgram)]

/-- A source that fails while there is room is given up there. -/
theorem readProgram_of_failure (hs : s.Steady) (hle : s.content.length ≤ maxProgram)
    {cause : ReadError} (hcause : cause.kind ≠ .interrupted) (t : Source) :
    readProgram (s ++ .failure cause :: t) = (.error (.unreadable cause), t) := by
  have hread := Source.read_append_of_length_lt hs (Nat.lt_succ_of_le hle) (.failure cause :: t)
  have hroom : maxProgram + 1 - s.content.length ≠ 0 := by omega
  rw [Source.read_failure hroom hcause] at hread
  exact readProgram_of_read_error hread

theorem loadFrom_of_ok (h : readProgram s = (.ok program, rest)) (settings : Settings)
    (drawn : ChaCha.Key) : loadFrom s settings drawn = (load program settings drawn, rest) := by
  rw [loadFrom, h]

theorem loadFrom_of_error (h : readProgram s = (.error f, rest)) (settings : Settings)
    (drawn : ChaCha.Key) : loadFrom s settings drawn = (.error f, rest) := by
  rw [loadFrom, h]

/-- A program that fits is found in memory, between the font and zeros. -/
theorem memory_of_load (hle : program.length ≤ maxProgram) (settings : Settings)
    (drawn : ChaCha.Key) :
    ∃ m, load program settings drawn = .ok m ∧ m.memory.peeks 0 80 = Font.rows ∧
      m.memory.peeks 0x200 program.length = program ∧
      ∀ a, 80 ≤ a → a < 0x200 ∨ 0x200 + program.length ≤ a → m.memory.peek a = 0 := by
  have hmax : maxProgram = 3584 := rfl
  have hfont : Font.memory.peeks 0 Font.rows.length = Font.rows :=
    Memory.peeks_pokes Memory.zero (by decide)
  have hzero : ∀ a, 80 ≤ a → Font.memory.peek a = 0 := fun a ha => by
    have hrows : Font.rows.length = 80 := rfl
    rw [Font.memory, Memory.peek_pokes_of_outside _ (by omega)]
    simp [Memory.zero, Memory.peek]
  rw [load, if_pos hle]
  refine ⟨_, rfl, ?_, ?_, fun a ha hout => ?_⟩
  · exact (Memory.peeks_pokes_of_disjoint Font.memory (Or.inl (by decide))).trans hfont
  · have hfits : programStart.toNat + program.length ≤ 4096 := by
      show 512 + program.length ≤ 4096
      omega
    exact Memory.peeks_pokes Font.memory hfits
  · have hbeside : ¬ (0x200 ≤ a ∧ a < 0x200 + program.length) := by omega
    exact (Memory.peek_pokes_of_outside Font.memory hbeside).trans (hzero a ha)

/-- **Loading from a source is loading its bytes.** A steady source hands out bytes in pieces of any
size and may be interrupted between them; `t` is whatever it does afterwards. If the bytes fit and
nothing follows, they are what is read, and loading from the source and loading the bytes give the
same machine, which has the font at zero, the program at 0x200 and zeros elsewhere. If there are too
many, the source is given up after 3585 bytes, whatever follows. If it fails before it has handed
out too many, it is given up there, for the cause that it names. -/
theorem loadFrom_steady (settings : Settings) (drawn : ChaCha.Key) {s : Source} (hs : s.Steady)
    (t : Source) :
    (s.content.length ≤ 3584 → readProgram s = (.ok s.content, []) ∧
      loadFrom s settings drawn = (load s.content settings drawn, []) ∧
      ∃ m, load s.content settings drawn = .ok m ∧ m.memory.peeks 0 80 = Font.rows ∧
        m.memory.peeks 0x200 s.content.length = s.content ∧
        ∀ a, 80 ≤ a → a < 0x200 ∨ 0x200 + s.content.length ≤ a → m.memory.peek a = 0) ∧
    (3584 < s.content.length → ∃ rest : Source, rest.content = s.content.drop 3585 ∧
      readProgram (s ++ t) = (.error (.programTooLarge 3585 3584), rest ++ t) ∧
      loadFrom (s ++ t) settings drawn = (.error (.programTooLarge 3585 3584), rest ++ t)) ∧
    ∀ cause, cause.kind ≠ .interrupted → s.content.length ≤ 3584 →
      readProgram (s ++ .failure cause :: t) = (.error (.unreadable cause), t) ∧
      loadFrom (s ++ .failure cause :: t) settings drawn = (.error (.unreadable cause), t) := by
  refine ⟨fun hle => ?_, fun hlt => ?_, fun cause hcause hle => ?_⟩
  · have hread := readProgram_steady hs hle
    exact ⟨hread, loadFrom_of_ok hread settings drawn, memory_of_load hle settings drawn⟩
  · obtain ⟨rest, hrest, hread⟩ := readProgram_of_maxProgram_lt hs hlt
    exact ⟨rest, hrest, hread t, loadFrom_of_error (hread t) settings drawn⟩
  · have hread := readProgram_of_failure hs hle hcause t
    exact ⟨hread, loadFrom_of_error hread settings drawn⟩

/-- A jump in two pieces is read through interruptions, or lost to a failure behind it. A source
that hands out 3000 bytes twice is cut off inside of its second piece, and its failure goes
unnoticed. -/
theorem loadFrom_steady_pieces :
    let settings : Settings := { seed := some 7 }
    let pause : Delivery := .failure ⟨.interrupted, "interrupted"⟩
    let denied : ReadError := ⟨.other "PermissionDenied", "denied"⟩
    let short : Source := [pause, .bytes [0x12], pause, pause, .bytes [0x00]]
    let long : Source := [.bytes (List.replicate 3000 1), pause, .bytes (List.replicate 3000 2)]
    (short.Steady ∧ short.content.length ≤ 3584) ∧ (long.Steady ∧ 3584 < long.content.length) ∧
      (readProgram short = (.ok [0x12, 0x00], []) ∧
        ∃ m, loadFrom short settings default = (.ok m, []) ∧ m.memory.peeks 0x200 2 = [0x12, 0x00]) ∧
      (denied.kind ≠ .interrupted ∧
        loadFrom (short ++ [.failure denied]) settings default = (.error (.unreadable denied), [])) ∧
      ∃ rest : Source, rest.content.length = 2415 ∧
        readProgram (long ++ [.failure denied]) =
          (.error (.programTooLarge 3585 3584), rest ++ [.failure denied]) := by
  intro settings pause denied short long
  have hshort : short.Steady := by simp [short, pause, Source.Steady, Delivery.IsSteady]
  have hpiece : ∀ b : UInt8, List.replicate 3000 b ≠ [] := fun b =>
    List.ne_nil_of_length_pos (by rw [List.length_replicate]; decide)
  have hlong : long.Steady := List.forall_mem_cons.mpr
    ⟨hpiece 1, List.forall_mem_cons.mpr ⟨rfl, List.forall_mem_singleton.mpr (hpiece 2)⟩⟩
  have hlength : long.content.length = 6000 := by
    show (List.replicate 3000 (1 : UInt8) ++ (List.replicate 3000 2 ++ [])).length = 6000
    rw [List.length_append, List.length_append, List.length_replicate, List.length_replicate]
    rfl
  have hle : short.content.length ≤ 3584 := by decide
  have hlt : 3584 < long.content.length := by omega
  have hdenied : denied.kind ≠ .interrupted := by decide
  obtain ⟨hfits, -, hfails⟩ := loadFrom_steady settings default hshort []
  obtain ⟨-, hcut, -⟩ := loadFrom_steady settings default hlong [.failure denied]
  obtain ⟨hread, hload, m, hm, -, hprogram, -⟩ := hfits hle
  obtain ⟨rest, hrest, hrefused, -⟩ := hcut hlt
  refine ⟨⟨hshort, hle⟩, ⟨hlong, hlt⟩, ⟨hread, m, hload.trans (by rw [hm]), hprogram⟩,
    ⟨hdenied, (hfails denied hdenied hle).2⟩, rest, ?_, hrefused⟩
  rw [hrest, List.length_drop, hlength]

end Machine

end ChipEight
