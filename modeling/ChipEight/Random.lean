import ChipEight.Random.ChaCha

/-!
# Random bytes

The random bytes of a run are a sequence that a key determines. `byteAt` is that sequence: byte `k`
is the low byte of word `k` of the key stream. A `Random` is the sequence with the number of bytes
already used. The key is the one that a seed stands for or, where no seed was chosen, one that the
system draws: `forRun` takes what was drawn as an argument, so what is said of runs without a seed
is said of every draw.
-/

namespace ChipEight

/-- A sequence of random bytes and how many of them were used. -/
structure Random where
  key : ChaCha.Key
  used : Nat := 0
  deriving DecidableEq

namespace Random

/-- One step of the generator that stretches a seed into a key. -/
def stretch (s : UInt64) : UInt64 := s * 6364136223846793005 + 11634580027462260723

/-- The word that a state of the seed generator gives: its high bits folded together and turned by
the highest five. -/
def stretchedWord (s : UInt64) : UInt32 :=
  ChaCha.turnRight (((s >>> 18) ^^^ s) >>> 27).toUInt32 (s >>> 59).toUInt32

/-- The key that a seed stands for. -/
def keyOfSeed (seed : UInt64) : ChaCha.Key :=
  Vector.ofFn fun k => stretchedWord (Nat.repeat stretch (k.val + 1) seed)

/-- The sequence of a seed, none of it used. -/
def ofSeed (seed : UInt64) : Random := { key := keyOfSeed seed }

/-- The sequence of a run, none of it used: that of its seed, or of the key drawn for it. -/
def forRun (seed : Option UInt64) (drawn : ChaCha.Key) : Random :=
  match seed with
  | some seed => ofSeed seed
  | none => { key := drawn }

/-- Byte `k` of the sequence of a key. -/
def byteAt (key : ChaCha.Key) (k : Nat) : UInt8 :=
  ((ChaCha.keyBlock key (UInt64.ofNat (k / 16))).get ⟨k % 16, Nat.mod_lt k (by decide)⟩).toUInt8

/-- The next byte of the sequence. -/
def next (r : Random) : UInt8 × Random := (byteAt r.key r.used, { r with used := r.used + 1 })

end Random

end ChipEight
