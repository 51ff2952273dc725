import ChipEight.Random
import Mathlib.Tactic

/-!
# Reading the key stream word by word

The generator makes four blocks at a time and hands their words out one by one; when the last is
gone it makes the next four. A `Reader` is such a generator, and `Reader.word` is the word it hands
out after a number of others. No word is lost or handed out twice where the buffer is filled again:
byte `k` of the random bytes is the low byte of the word handed out after `k` others
(`byteAt_eq_word`). Blocks and words are those that are published for the generator
(`keyBlock_zero`, `word_of_published_key`).
-/

namespace ChipEight.Random

theorem mod_sixteen_lt (k : ℕ) : k % 16 < 16 := Nat.mod_lt k (by decide)

/-- Word `k` of a block, where the words after the last are those from the first on again. -/
def wordOf (block : ChaCha.Block) (k : ℕ) : UInt32 := block.get ⟨k % 16, mod_sixteen_lt k⟩

/-- The words of four blocks, of which the first has this number. -/
def fourBlocks (key : ChaCha.Key) (number : UInt64) : Vector UInt32 64 :=
  Vector.ofFn fun i => wordOf (ChaCha.keyBlock key (number + UInt64.ofNat (i / 16))) i

/-- A generator that makes blocks ahead of their use. -/
structure Reader where
  key : ChaCha.Key
  /-- The number of the block to make next. -/
  number : UInt64 := 0
  /-- The words made last. -/
  buffer : Vector UInt32 64 := Vector.replicate 64 0
  /-- How many of them were handed out. -/
  handed : ℕ := 64

namespace Reader

/-- Hands a word out, from blocks made for the purpose if there is none left. -/
def read (r : Reader) : UInt32 × Reader :=
  if h : r.handed < 64 then (r.buffer[r.handed], { r with handed := r.handed + 1 })
  else
    let buffer := fourBlocks r.key r.number
    (buffer[0], { r with number := r.number + 4, buffer, handed := 1 })

/-- The reader once `k` words were handed out. -/
def afterReading (key : ChaCha.Key) : ℕ → Reader
  | 0 => { key }
  | k + 1 => (afterReading key k).read.2

/-- The word handed out after `k` others. -/
def word (key : ChaCha.Key) (k : ℕ) : UInt32 := (afterReading key k).read.1

/-- Word `k` of the key stream. -/
def wordAt (key : ChaCha.Key) (k : ℕ) : UInt32 :=
  wordOf (ChaCha.keyBlock key (UInt64.ofNat (k / 16))) k

/-- Four blocks from number `4 * q` on are the words from number `64 * q` on. -/
theorem getElem_fourBlocks (key : ChaCha.Key) (q : ℕ) {i : ℕ} (hi : i < 64) :
    (fourBlocks key (UInt64.ofNat (4 * q)))[i] = wordAt key (64 * q + i) := by
  have hdiv : (64 * q + i) / 16 = 4 * q + i / 16 := by omega
  have hmod : (64 * q + i) % 16 = i % 16 := by omega
  unfold fourBlocks wordAt wordOf
  rw [Vector.getElem_ofFn, hdiv, UInt64.ofNat_add]
  simp only [hmod]

/-- The reader has handed out `k` words: it has made the blocks of `q` buffers, and what is left of
the last of them are the words that follow. -/
structure At (key : ChaCha.Key) (k : ℕ) (r : Reader) : Prop where
  key_eq : r.key = key
  filled : ∃ q, r.number = UInt64.ofNat (4 * q) ∧ k + 64 = 64 * q + r.handed ∧
    r.handed ≤ 64 ∧ ∀ i : Fin 64, r.handed ≤ i → r.buffer[i] = wordAt key (64 * q + i - 64)

theorem at_new (key : ChaCha.Key) : At key 0 { key } where
  key_eq := rfl
  filled := ⟨0, rfl, rfl, le_rfl, fun i hi => absurd hi (Nat.not_le.mpr i.isLt)⟩

/-- A reader that has handed out `k` words hands out word `k` next. -/
theorem At.read {key : ChaCha.Key} {k : ℕ} {r : Reader} (h : At key k r) :
    r.read.1 = wordAt key k ∧ At key (k + 1) r.read.2 := by
  obtain ⟨q, hnumber, hk, hle, hrest⟩ := h.filled
  unfold Reader.read
  split_ifs with hlt
  · refine ⟨?_, h.key_eq, q, hnumber, ?_, hlt, fun i hi => hrest i (Nat.le_of_succ_le hi)⟩
    · have hk' : 64 * q + r.handed - 64 = k := by omega
      exact (hrest ⟨r.handed, hlt⟩ le_rfl).trans (congrArg (wordAt key) hk')
    · exact congrArg (· + 1) hk
  · -- The buffer is used up, and the next word is the first of the blocks made now.
    have hfull : r.handed = 64 := le_antisymm hle (Nat.not_lt.mp hlt)
    have hk' : k = 64 * q := by omega
    have hfill := fun i : Fin 64 => getElem_fourBlocks key q i.isLt
    rw [h.key_eq, hnumber]
    refine ⟨?_, rfl, q + 1, ?_, ?_, ?_, fun i _ => ?_⟩
    · rw [hk']
      exact hfill 0
    · rw [Nat.mul_succ, UInt64.ofNat_add]
      rfl
    · dsimp only
      omega
    · exact (by decide : 1 ≤ 64)
    · have hnext : 64 * q + i = 64 * (q + 1) + i - 64 := by omega
      exact (hfill i).trans (congrArg (wordAt key) hnext)

theorem at_afterReading (key : ChaCha.Key) (k : ℕ) : At key k (afterReading key k) := by
  induction k with
  | zero => exact at_new key
  | succ k ih => exact ih.read.2

end Reader

/-- **The random bytes are the low bytes of the words of the generator**, one word a byte, whichever
buffer the word comes from. -/
theorem byteAt_eq_word (key : ChaCha.Key) (k : ℕ) :
    byteAt key k = (Reader.word key k).toUInt8 := by
  have hword : Reader.word key k = Reader.wordAt key k := (Reader.at_afterReading key k).read.1
  rw [hword]
  rfl

/-! ## Published values -/

/-- The first block of the key of zeros, as it is published for twelve rounds. -/
theorem keyBlock_zero :
    ChaCha.keyBlock (Vector.replicate 8 0) 0 =
      #v[0x6A9AF49B, 0x53F95507, 0x12CE1F81, 0xD583265F,
        0xBBC32904, 0x1474E049, 0xA589007E, 0x5F15AE2E,
        0x79F86405, 0xC0E37AD2, 0x3428E82C, 0x798CFAAC,
        0x2C9F623A, 0x1969DEA0, 0x2FE80B61, 0xBE261341] := by
  decide +kernel

/-- The first number of 64 bits that the generator is published to make of a key, from two words
with the low one first. -/
theorem word_of_published_key :
    let key : ChaCha.Key := #v[1, 23, 456, 7890, 0, 0, 0, 0]
    (Reader.word key 0).toNat + 2 ^ 32 * (Reader.word key 1).toNat = 10719222850664546238 := by
  decide +kernel

/-- The low bytes of the first block for seed 42, which are the first bytes of its sequence. -/
theorem keyBlock_seed_forty_two :
    ((ChaCha.keyBlock (keyOfSeed 42) 0).toList.map UInt32.toUInt8).take 8 =
      [0xA2, 0x63, 0x7D, 0x13, 0xD1, 0x71, 0xB2, 0x78] := by
  decide +kernel

end ChipEight.Random
