import ChipEight.Proofs.Machine.Guarded

/-!
# Memory byte by byte

A run of bytes is read and written as a whole, after its range has been checked. `Memory.readEach`
and `Memory.writeEach` take the bytes one at a time instead, and find out at each of them whether it
lies within memory. Both ways come to the same bytes and stop at the same address
(`readEach_eq`, `writeEach_eq`), but a write byte by byte that fails leaves the bytes behind that it
has come to, and a write of the whole leaves none. `Machine.bulk_bytewise` says so for every start
and every run of bytes, and says what is read after a write.
-/

namespace ChipEight

section

variable {α : Type} {p : Prop} [Decidable p] {x y : α} {f g : Fault}

/-- An access that a condition decides on succeeds just under it. -/
theorem ite_eq_ok_iff : (if p then Except.ok x else .error f) = .ok y ↔ p ∧ y = x := by
  split_ifs with h
  · rw [Except.ok.injEq, eq_comm, and_iff_right h]
  · exact iff_of_false (by rintro ⟨⟩) fun h' => h h'.1

theorem ite_eq_error_iff : (if p then Except.ok x else .error f) = .error g ↔ ¬ p ∧ g = f := by
  split_ifs with h
  · exact iff_of_false (by rintro ⟨⟩) fun h' => h'.1 h
  · rw [Except.error.injEq, eq_comm, and_iff_right h]

end

namespace Memory

/-- Writes bytes one at a time, from `a` on. What has been written when an address is refused
stays. -/
def writeEach (m : Memory) (a : UInt16) : List UInt8 → Memory × Except Fault Unit
  | [] => (m, .ok ())
  | b :: bs =>
    match m.writeByte a b with
    | .error f => (m, .error f)
    | .ok m => m.writeEach (a + 1) bs

/-- Reads bytes one at a time, from `a` on. -/
def readEach (m : Memory) (a : UInt16) : ℕ → Except Fault (List UInt8)
  | 0 => .ok []
  | len + 1 => do
    let b ← m.readByte a
    let bs ← m.readEach (a + 1) len
    .ok (b :: bs)

/-- Writes bytes in place: the range is checked first, and then every byte is put by its index.
`none` if the end of the range cannot be counted or an index lies outside. -/
def guardedWrite (m : Memory) (a : UInt16) (data : List UInt8) :
    Option (Memory × Except Fault Unit) := do
  let fault ← guardedFault a data.length
  match fault with
  | some f => some (m, .error f)
  | none => do
    let m' ← m.splice a.toNat data
    some (m', .ok ())

/-- Reads bytes by their indices after the range has been checked. -/
def guardedRead (m : Memory) (a : UInt16) (len : ℕ) : Option (Except Fault (List UInt8)) := do
  let fault ← guardedFault a len
  match fault with
  | some f => some (.error f)
  | none => do
    let bs ← m.slice a.toNat len
    some (.ok bs)

/-- The number whose digits to the base 256 are bytes, the highest of them first. -/
def bigEndian (bs : List UInt8) : ℕ := bs.foldl (fun n b => 256 * n + b.toNat) 0

section

variable {m : Memory} {a : UInt16} {b : UInt8} {bs data : List UInt8} {f : Fault} {len : ℕ}

/-! ## Ranges -/

theorem rangeFault_of_lt (h : size < a.toNat + len) :
    rangeFault a len = some (.addressOutOfRange (max a 0x1000)) :=
  Machine.rangeFault_eq_some_iff.mpr ⟨h, rfl⟩

/-- Within memory an address can be counted on. -/
theorem toNat_succ (h : a.toNat < size) : (a + 1).toNat = a.toNat + 1 := by
  have hlt : a.toNat < 4096 := h
  show (a.toNat + 1) % 65536 = a.toNat + 1
  omega

theorem max_of_le_size (h : a.toNat ≤ size) : max a 0x1000 = 0x1000 :=
  if_pos (UInt16.le_iff_toNat_le.mpr h)

theorem max_of_size_le (h : size ≤ a.toNat) : max a 0x1000 = a := by
  rcases Nat.eq_or_lt_of_le h with heq | hlt
  · rw [max_of_le_size heq.ge]
    exact UInt16.toNat_inj.mp heq
  · have hlt' : 0x1000 < a := UInt16.lt_iff_toNat_lt.mpr hlt
    exact if_neg (UInt16.not_le.mpr hlt')

/-- A range keeps its fault when its first byte, which lies within memory, is taken off. -/
theorem rangeFault_succ (h : a.toNat < size) (len : ℕ) :
    rangeFault (a + 1) len = rangeFault a (len + 1) := by
  have hsucc := toNat_succ h
  rcases Nat.lt_or_ge size (a.toNat + (len + 1)) with hlt | hle
  · rw [rangeFault_of_lt hlt, rangeFault_of_lt (by omega), max_of_le_size h.le,
      max_of_le_size (hsucc ▸ h)]
  · rw [rangeFault_eq_none_iff.mpr hle, rangeFault_eq_none_iff.mpr (by omega)]

/-- A range that holds something and begins past the end of memory is refused where it begins. -/
theorem rangeFault_of_size_le (h : size ≤ a.toNat) (hlen : 0 < len) :
    rangeFault a len = some (.addressOutOfRange a) := by
  rw [rangeFault_of_lt (by omega), max_of_size_le h]

/-! ## Writing -/

theorem writeByte_of_lt (h : a.toNat < size) : m.writeByte a b = .ok (m.poke a.toNat b) := if_pos h

theorem writeByte_of_size_le (h : size ≤ a.toNat) :
    m.writeByte a b = .error (.addressOutOfRange a) := if_neg (Nat.not_lt.mpr h)

theorem pokes_of_size_le {a : ℕ} (h : size ≤ a) : m.pokes a bs = m := by
  refine ext_peek fun k => ?_
  rw [peek_pokes, if_neg (by omega)]

/-- Bytes that are written one at a time are those of the whole, as far as memory reaches, and the
fault is that of the whole. -/
theorem writeEach_eq (h : data ≠ [] ∨ a.toNat ≤ size) :
    m.writeEach a data = (m.pokes a.toNat data,
      match rangeFault a data.length with
      | some f => .error f
      | none => .ok ()) := by
  induction data generalizing m a with
  | nil =>
    have ha : a.toNat ≤ size := h.resolve_left fun h => h rfl
    rw [List.length_nil, rangeFault_eq_none_iff.mpr ha]
    rfl
  | cons b bs ih =>
    rcases Nat.lt_or_ge a.toNat size with ha | ha
    · have hsucc := toNat_succ ha
      have hnext : bs ≠ [] ∨ (a + 1).toNat ≤ size := Or.inr (hsucc ▸ ha)
      rw [writeEach, writeByte_of_lt ha]
      dsimp only
      rw [ih hnext, hsucc, List.length_cons, rangeFault_succ ha]
      rfl
    · rw [writeEach, writeByte_of_size_le ha, pokes_of_size_le ha, List.length_cons,
        rangeFault_of_size_le ha (Nat.succ_pos _)]

theorem writeBytes_eq (m : Memory) (a : UInt16) (data : List UInt8) :
    m.writeBytes a data = if a.toNat + data.length ≤ size then .ok (m.pokes a.toNat data)
      else .error (.addressOutOfRange (max a 0x1000)) := by
  unfold writeBytes rangeFault
  split_ifs <;> rfl

/-! ## Reading -/

theorem readByte_of_lt (h : a.toNat < size) : m.readByte a = .ok (m.peek a.toNat) := if_pos h

theorem readByte_of_size_le (h : size ≤ a.toNat) :
    m.readByte a = .error (.addressOutOfRange a) := if_neg (Nat.not_lt.mpr h)

theorem readBytes_eq (m : Memory) (a : UInt16) (len : ℕ) :
    m.readBytes a len = if a.toNat + len ≤ size then .ok (m.peeks a.toNat len)
      else .error (.addressOutOfRange (max a 0x1000)) := by
  unfold readBytes rangeFault
  split_ifs <;> rfl

theorem readBytes_of_le (h : a.toNat + len ≤ size) :
    m.readBytes a len = .ok (m.peeks a.toNat len) := by
  rw [readBytes_eq, if_pos h]

theorem readBytes_eq_ok_iff :
    m.readBytes a len = .ok bs ↔ a.toNat + len ≤ size ∧ bs = m.peeks a.toNat len := by
  rw [readBytes_eq, ite_eq_ok_iff]

theorem readBytes_eq_error_iff :
    m.readBytes a len = .error f ↔
      size < a.toNat + len ∧ f = .addressOutOfRange (max a 0x1000) := by
  rw [readBytes_eq, ite_eq_error_iff, Nat.not_le]

/-- Bytes that are read one at a time are those of the whole, and so is the fault. -/
theorem readEach_eq (h : 0 < len ∨ a.toNat ≤ size) : m.readEach a len = m.readBytes a len := by
  induction len generalizing a with
  | zero =>
    have ha : a.toNat ≤ size := h.resolve_left (Nat.lt_irrefl 0)
    rw [readBytes_of_le ha]
    rfl
  | succ len ih =>
    rcases Nat.lt_or_ge a.toNat size with ha | ha
    · have hsucc := toNat_succ ha
      have hnext : 0 < len ∨ (a + 1).toNat ≤ size := Or.inr (hsucc ▸ ha)
      rw [readEach, readByte_of_lt ha, ih hnext, readBytes, readBytes, rangeFault_succ ha]
      rcases rangeFault a (len + 1) with _ | f
      · rw [hsucc, peeks_succ]
        rfl
      · rfl
    · rw [readEach, readByte_of_size_le ha, readBytes,
        rangeFault_of_size_le ha (Nat.succ_pos len)]
      rfl

theorem toNat_wordAt (m : Memory) (a : ℕ) : (m.wordAt a).toNat = bigEndian (m.peeks a 2) := by
  have hhigh := (m.peek a).toNat_lt
  have hlow := (m.peek (a + 1)).toNat_lt
  have hword : (m.wordAt a).toNat =
      ((m.peek a).toNat * 256 % 65536 + (m.peek (a + 1)).toNat) % 65536 := rfl
  have hdigits : bigEndian (m.peeks a 2) =
      256 * (256 * 0 + (m.peek a).toNat) + (m.peek (a + 1)).toNat := rfl
  omega

theorem readWord_eq (m : Memory) (a : UInt16) :
    (m.readWord a).map UInt16.toNat = (m.readBytes a 2).map bigEndian := by
  unfold readWord readBytes
  rcases rangeFault a 2 with _ | f
  · exact congrArg Except.ok (m.toNat_wordAt a.toNat)
  · rfl

theorem getElem?_peeks {a k : ℕ} (hk : k < len) : (m.peeks a len)[k]? = some (m.peek (a + k)) := by
  rw [peeks, List.getElem?_map, List.getElem?_range hk]
  rfl

/-- What is read after a write: the new bytes where the two runs overlap, and elsewhere the old. -/
theorem getElem?_peeks_pokes {a b k : ℕ} (h : b + len ≤ size) (hk : k < len) :
    ((m.pokes a data).peeks b len)[k]? =
      if a ≤ b + k ∧ b + k < a + data.length then data[b + k - a]? else (m.peeks b len)[k]? := by
  have hlt : b + k < size := by omega
  rw [getElem?_peeks hk, getElem?_peeks hk, peek_pokes]
  by_cases hinside : a ≤ b + k ∧ b + k < a + data.length
  · have hbyte : b + k - a < data.length := by omega
    rw [if_pos hinside, if_pos ⟨hinside.1, hinside.2, hlt⟩, List.getD_eq_getElem?_getD,
      List.getElem?_eq_getElem hbyte, Option.getD_some]
  · rw [if_neg hinside, if_neg fun h => hinside ⟨h.1, h.2.1⟩]

/-! ## By index -/

theorem guardedWrite_eq (h : a.toNat + data.length < 2 ^ 64) :
    m.guardedWrite a data = some
      (match m.writeBytes a data with
      | .ok m' => (m', .ok ())
      | .error f => (m, .error f)) := by
  rw [guardedWrite, guardedFault_eq h, Option.bind_eq_bind, Option.bind_some, writeBytes_eq]
  split_ifs with hle
  · rw [rangeFault_eq_none_iff.mpr hle, splice_eq hle]
    rfl
  · rw [rangeFault_of_lt (Nat.lt_of_not_le hle)]

theorem guardedRead_eq (h : a.toNat + len < 2 ^ 64) :
    m.guardedRead a len = some (m.readBytes a len) := by
  rw [guardedRead, guardedFault_eq h, Option.bind_eq_bind, Option.bind_some, readBytes_eq]
  split_ifs with hle
  · rw [rangeFault_eq_none_iff.mpr hle, slice_eq hle]
    rfl
  · rw [rangeFault_of_lt (Nat.lt_of_not_le hle)]

end

/-- An empty run past the end of memory is refused as a whole, though no byte of it could be. -/
example : zero.readBytes 0x1001 0 = .error (.addressOutOfRange 0x1001) ∧
    zero.readEach 0x1001 0 = .ok [] := ⟨rfl, rfl⟩

end Memory

namespace Machine

variable {m m' : Machine} {a : UInt16} {data : List UInt8} {f : Fault}

theorem writeBytes_eq (m : Machine) (a : UInt16) (data : List UInt8) :
    m.writeBytes a data =
      if a.toNat + data.length ≤ 4096 then
        .ok { m with memory := m.memory.pokes a.toNat data }
      else .error (.addressOutOfRange (max a 0x1000)) := by
  rw [writeBytes, Memory.writeBytes_eq]
  split_ifs <;> rfl

theorem writeBytes_eq_ok_iff :
    m.writeBytes a data = .ok m' ↔ a.toNat + data.length ≤ 4096 ∧
      m' = { m with memory := m.memory.pokes a.toNat data } := by
  rw [writeBytes_eq, ite_eq_ok_iff]

theorem writeBytes_eq_error_iff :
    m.writeBytes a data = .error f ↔
      4096 < a.toNat + data.length ∧ f = .addressOutOfRange (max a 0x1000) := by
  rw [writeBytes_eq, ite_eq_error_iff, Nat.not_le]

/-- A write of the whole that succeeds is one byte by byte, and finds every index. -/
theorem writeEach_of_writeBytes_eq_ok (h : m.writeBytes a data = .ok m') :
    m.memory.writeEach a data = (m'.memory, .ok ()) ∧
      m.memory.guardedWrite a data = some (m'.memory, .ok ()) := by
  obtain ⟨hle, rfl⟩ := writeBytes_eq_ok_iff.mp h
  have ha : a.toNat ≤ Memory.size := (Nat.le_add_right _ _).trans hle
  constructor
  · rw [Memory.writeEach_eq (Or.inr ha), Memory.rangeFault_eq_none_iff.mpr hle]
  · rw [Memory.guardedWrite_eq (by omega), Memory.writeBytes_eq, if_pos hle]

/-- A write of the whole that fails does so where one byte by byte does, and writes nothing. -/
theorem writeEach_of_writeBytes_eq_error (hdata : data ≠ []) (h : m.writeBytes a data = .error f) :
    (m.memory.writeEach a data).2 = .error f ∧ (a.toNat + data.length < 2 ^ 64 →
      m.memory.guardedWrite a data = some (m.memory, .error f)) := by
  obtain ⟨hlt, rfl⟩ := writeBytes_eq_error_iff.mp h
  constructor
  · rw [Memory.writeEach_eq (Or.inl hdata), Memory.rangeFault_of_lt hlt]
  · intro hcount
    rw [Memory.guardedWrite_eq hcount, Memory.writeBytes_eq, if_neg (Nat.not_le.mpr hlt)]

/-- **Bytes are read and written as a whole as they are one by one.** A run of bytes can be read or
written just if it lies within memory, and otherwise the access is refused with the address at which
one byte by byte would come to a stop. A write that succeeds leaves the bytes that one byte by byte
leaves, and one that is refused leaves everything as it was. A word is read with its high byte
first. And whatever is read after a write has the new bytes where the two overlap and the old ones
elsewhere. The end of a range is counted in 64 bits and bytes are looked up by their indices;
nothing of it goes wrong, as long as the end can be counted at all. -/
theorem bulk_bytewise (m : Machine) (a : UInt16) {data : List UInt8} (hdata : data ≠ []) :
    let fault : Fault := .addressOutOfRange (max a 0x1000)
    ((∃ m', m.writeBytes a data = .ok m') ↔ a.toNat + data.length ≤ 4096) ∧
    (∀ m', m.writeBytes a data = .ok m' → m' = { m with memory := m'.memory } ∧
      m.memory.writeEach a data = (m'.memory, .ok ()) ∧
      m.memory.guardedWrite a data = some (m'.memory, .ok ())) ∧
    (∀ f, m.writeBytes a data = .error f → f = fault ∧
      (m.memory.writeEach a data).2 = .error f ∧
      (a.toNat + data.length < 2 ^ 64 →
        m.memory.guardedWrite a data = some (m.memory, .error f))) ∧
    (∀ len, 0 < len → a.toNat + len < 2 ^ 64 →
      ((∃ bs, m.memory.readBytes a len = .ok bs) ↔ a.toNat + len ≤ 4096) ∧
      (∀ f, m.memory.readBytes a len = .error f → f = fault) ∧
      m.memory.readEach a len = m.memory.readBytes a len ∧
      m.memory.guardedRead a len = some (m.memory.readBytes a len)) ∧
    (m.memory.readWord a).map UInt16.toNat = (m.memory.readBytes a 2).map Memory.bigEndian ∧
    ∀ m', m.writeBytes a data = .ok m' → ∀ (b : UInt16) (len : ℕ), b.toNat + len ≤ 4096 →
      ∃ old new, m.memory.readBytes b len = .ok old ∧ m'.memory.readBytes b len = .ok new ∧
        old.length = len ∧ new.length = len ∧ ∀ k < len, new[k]? =
          if a.toNat ≤ b.toNat + k ∧ b.toNat + k < a.toNat + data.length then
            data[b.toNat + k - a.toNat]?
          else old[k]? := by
  intro fault
  refine ⟨⟨?_, fun h => ⟨_, writeBytes_eq_ok_iff.mpr ⟨h, rfl⟩⟩⟩, fun m' h => ⟨?_, ?_⟩,
    fun f h => ⟨(writeBytes_eq_error_iff.mp h).2, writeEach_of_writeBytes_eq_error hdata h⟩,
    fun len hlen hcount => ⟨⟨?_, fun h => ⟨_, Memory.readBytes_of_le h⟩⟩,
      fun f h => (Memory.readBytes_eq_error_iff.mp h).2, Memory.readEach_eq (Or.inl hlen),
      Memory.guardedRead_eq hcount⟩,
    m.memory.readWord_eq a, fun m' h b len hle => ?_⟩
  · rintro ⟨m', h⟩
    exact (writeBytes_eq_ok_iff.mp h).1
  · rw [(writeBytes_eq_ok_iff.mp h).2]
  · exact writeEach_of_writeBytes_eq_ok h
  · rintro ⟨bs, h⟩
    exact (Memory.readBytes_eq_ok_iff.mp h).1
  · obtain ⟨-, rfl⟩ := writeBytes_eq_ok_iff.mp h
    exact ⟨_, _, Memory.readBytes_of_le hle, Memory.readBytes_of_le hle,
      Memory.length_peeks _ _ _, Memory.length_peeks _ _ _,
      fun k hk => Memory.getElem?_peeks_pokes hle hk⟩

/-- Three bytes find room at the end of memory and are read back there. One address further on they
are refused, where one byte by byte would have left two. -/
theorem bulk_bytewise_end_of_memory :
    let m := fresh { seed := some 7 } default
    let data : List UInt8 := [17, 34, 51]
    data ≠ [] ∧
    (∃ m', m.writeBytes 0xFFD data = .ok m' ∧
      m.memory.writeEach 0xFFD data = (m'.memory, .ok ()) ∧
      ∃ new, m'.memory.readBytes 0xFFB 4 = .ok new ∧ new[1]? = some 0 ∧ new[2]? = some 17 ∧
        new[3]? = some 34) ∧
    m.writeBytes 0xFFE data = .error (.addressOutOfRange 0x1000) ∧
    m.memory.guardedWrite 0xFFE data = some (m.memory, .error (.addressOutOfRange 0x1000)) ∧
    (m.memory.writeEach 0xFFE data).2 = .error (.addressOutOfRange 0x1000) ∧
    (m.memory.writeEach 0xFFE data).1.peek 0xFFF = 34 ∧
    m.memory.readEach 0x1234 2 = .error (.addressOutOfRange 0x1234) := by
  intro m data
  have hdata : data ≠ [] := by decide
  obtain ⟨hfits, hwrite, -, -, -, hafter⟩ := bulk_bytewise m 0xFFD hdata
  obtain ⟨hfits', -, hrefused, -⟩ := bulk_bytewise m 0xFFE hdata
  obtain ⟨-, -, -, hread, -⟩ := bulk_bytewise m 0x1234 hdata
  obtain ⟨m', hm'⟩ := hfits.mpr (by decide)
  obtain ⟨old, new, hold, hnew, -, -, hbytes⟩ := hafter m' hm' 0xFFB 4 (by decide)
  have hzero : old = [0, 0, 0, 0] := by
    have hfont : m.memory.peeks 0xFFB 4 = Memory.zero.peeks 0xFFB 4 :=
      Memory.peeks_pokes_of_disjoint Memory.zero (Or.inr (by decide))
    have hblank : Memory.zero.peeks 0xFFB 4 = [0, 0, 0, 0] := by
      simp [Memory.zero, Memory.peeks, Memory.peek, List.range_succ]
    exact (Memory.readBytes_eq_ok_iff.mp hold).2.trans (hfont.trans hblank)
  refine ⟨hdata, ⟨m', hm', (hwrite m' hm').2.1, new, hnew, ?_, ?_, ?_⟩, ?_⟩
  · rw [hbytes 1 (by decide), if_neg (by decide), hzero]
    rfl
  · rw [hbytes 2 (by decide), if_pos (by decide)]
    rfl
  · rw [hbytes 3 (by decide), if_pos (by decide)]
    rfl
  · rcases hrun : m.writeBytes 0xFFE data with f | m''
    · obtain ⟨rfl, heach, hguarded⟩ := hrefused f hrun
      refine ⟨rfl, hguarded (by decide), heach, ?_, ?_⟩
      · rw [Memory.writeEach_eq (Or.inl hdata)]
        exact m.memory.peek_pokes_add (a := 0xFFE) (k := 1) (by decide) (by decide)
      obtain ⟨-, -, heach', -⟩ := hread 2 (by decide) (by decide)
      rw [heach']
      decide +kernel
    · exact absurd (hfits'.mp ⟨m'', hrun⟩) (by decide)

end Machine

end ChipEight
