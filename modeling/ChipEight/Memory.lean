import ChipEight.Fault

/-!
# Memory

The 4096 bytes a program can address. `peek` and `poke` are total and take any number for an
address: past the end they read zero and write nothing. The accesses that can fail, by byte, by
range and by word, are built on them. A range is checked before anything is written, so a failed
write leaves memory as it was. `peek_poke` and `peek_pokes` say what is read after a write,
`peeks_pokes` that a whole run of bytes comes back, and memories that read the same everywhere are
equal (`ext_peek`).
-/

namespace ChipEight

/-- The number of bytes of memory. -/
abbrev Memory.size : Nat := 4096

/-- The addressable bytes. -/
structure Memory where
  bytes : Vector UInt8 Memory.size
  deriving DecidableEq

namespace Memory

/-- Memory that holds zero everywhere. -/
def zero : Memory := ⟨Vector.replicate size 0⟩

/-- The byte at `a`, or zero past the end. -/
def peek (m : Memory) (a : Nat) : UInt8 := if h : a < size then m.bytes[a] else 0

/-- Puts `b` at `a`; past the end nothing changes. -/
def poke (m : Memory) (a : Nat) (b : UInt8) : Memory :=
  if h : a < size then ⟨m.bytes.set a b⟩ else m

/-- Puts a run of bytes from `a` on. -/
def pokes (m : Memory) (a : Nat) : List UInt8 → Memory
  | [] => m
  | b :: bs => (m.poke a b).pokes (a + 1) bs

/-- The `len` bytes from `a` on. -/
def peeks (m : Memory) (a len : Nat) : List UInt8 := (List.range len).map fun k => m.peek (a + k)

theorem peek_poke (m : Memory) (a k : Nat) (b : UInt8) :
    (m.poke a b).peek k = if k = a ∧ a < size then b else m.peek k := by
  unfold peek poke
  by_cases ha : a < size
  · rw [dif_pos ha]
    by_cases hk : k < size
    · rw [dif_pos hk, dif_pos hk, Vector.getElem_set]
      by_cases hka : k = a
      · rw [if_pos hka.symm, if_pos ⟨hka, ha⟩]
      · rw [if_neg (Ne.symm hka), if_neg fun h => hka h.1]
    · rw [dif_neg hk, dif_neg hk, if_neg fun h : k = a ∧ a < size => hk (h.1 ▸ ha)]
  · rw [dif_neg ha, if_neg fun h => ha h.2]

theorem ext_peek {m m' : Memory} (h : ∀ a, m.peek a = m'.peek a) : m = m' := by
  obtain ⟨bytes⟩ := m
  obtain ⟨bytes'⟩ := m'
  congr 1
  ext a ha : 1
  simpa [peek, ha] using h a

theorem length_peeks (m : Memory) (a len : Nat) : (m.peeks a len).length = len := by
  simp [peeks]

/-- A run of bytes is found where it was put, as far as memory reaches; the rest is as before. -/
theorem peek_pokes (m : Memory) (a k : Nat) (bs : List UInt8) :
    (m.pokes a bs).peek k =
      if a ≤ k ∧ k < a + bs.length ∧ k < size then bs.getD (k - a) 0 else m.peek k := by
  induction bs generalizing m a with
  | nil =>
    rw [if_neg (by simp; omega)]
    rfl
  | cons b bs ih =>
    rw [pokes, ih, peek_poke]
    by_cases h : k = a
    · subst h
      grind [List.getD_cons_zero]
    · have hd : a < k → (b :: bs).getD (k - a) 0 = bs.getD (k - (a + 1)) 0 := fun hk => by
        rw [show k - a = k - (a + 1) + 1 by omega, List.getD_cons_succ]
      simp only [h, false_and, if_false, List.length_cons]
      grind

/-- A byte of a run is found at its place. -/
theorem peek_pokes_add (m : Memory) {a k : Nat} {bs : List UInt8} (hk : k < bs.length)
    (hsize : a + k < size) : (m.pokes a bs).peek (a + k) = bs.getD k 0 := by
  rw [peek_pokes, if_pos ⟨Nat.le_add_right a k, Nat.add_lt_add_left hk a, hsize⟩,
    Nat.add_sub_cancel_left]

/-- A byte beside a run is not touched. -/
theorem peek_pokes_of_outside (m : Memory) {a k : Nat} {bs : List UInt8}
    (h : ¬ (a ≤ k ∧ k < a + bs.length)) : (m.pokes a bs).peek k = m.peek k := by
  rw [peek_pokes, if_neg fun h' => h ⟨h'.1, h'.2.1⟩]

/-- A run of bytes that lies within memory is read back as it was put. -/
theorem peeks_pokes (m : Memory) {a : Nat} {bs : List UInt8} (h : a + bs.length ≤ size) :
    (m.pokes a bs).peeks a bs.length = bs := by
  refine List.ext_getElem (length_peeks _ a _) fun k hk hk' => ?_
  simp only [peeks, List.getElem_map, List.getElem_range]
  rw [peek_pokes_add m hk' (by omega)]
  simp [hk']

/-- Bytes are not touched by a run that begins behind them or ends before them. -/
theorem peeks_pokes_of_disjoint (m : Memory) {a b len : Nat} {bs : List UInt8}
    (h : b + len ≤ a ∨ a + bs.length ≤ b) : (m.pokes a bs).peeks b len = m.peeks b len := by
  refine List.map_congr_left fun k hk => ?_
  have hk := List.mem_range.1 hk
  rw [peek_pokes_of_outside m (by omega)]

/-! ## Checked access -/

/-- What is wrong with an access to `len` bytes from `a` on: the first address past the end. -/
def rangeFault (a : UInt16) (len : Nat) : Option Fault :=
  if a.toNat + len ≤ size then none else some (.addressOutOfRange (max a 0x1000))

theorem rangeFault_eq_none_iff {a : UInt16} {len : Nat} :
    rangeFault a len = none ↔ a.toNat + len ≤ size := by
  unfold rangeFault
  split <;> simp [*]

/-- Reads one byte. -/
def readByte (m : Memory) (a : UInt16) : Except Fault UInt8 :=
  if a.toNat < size then .ok (m.peek a.toNat) else .error (.addressOutOfRange a)

/-- Writes one byte. -/
def writeByte (m : Memory) (a : UInt16) (b : UInt8) : Except Fault Memory :=
  if a.toNat < size then .ok (m.poke a.toNat b) else .error (.addressOutOfRange a)

/-- Reads `len` bytes from `a` on. -/
def readBytes (m : Memory) (a : UInt16) (len : Nat) : Except Fault (List UInt8) :=
  match rangeFault a len with
  | some f => .error f
  | none => .ok (m.peeks a.toNat len)

/-- Writes bytes from `a` on, all of them or none. -/
def writeBytes (m : Memory) (a : UInt16) (data : List UInt8) : Except Fault Memory :=
  match rangeFault a data.length with
  | some f => .error f
  | none => .ok (m.pokes a.toNat data)

/-- The word at `a`, its high byte first. -/
def wordAt (m : Memory) (a : Nat) : UInt16 :=
  (m.peek a).toUInt16 * 256 + (m.peek (a + 1)).toUInt16

/-- Reads the word at `a` and `a + 1`. -/
def readWord (m : Memory) (a : UInt16) : Except Fault UInt16 :=
  match rangeFault a 2 with
  | some f => .error f
  | none => .ok (m.wordAt a.toNat)

end Memory

end ChipEight
