/-!
# The ChaCha block function

A block is sixteen words. `keyBlock` takes eight words of key and a block number to sixteen words
that look random: twelve rounds, alternately over the columns and the diagonals of the four by four
square of words, added to the square they started from.
-/

namespace ChipEight.ChaCha

/-- Sixteen words, read as a square of four rows. -/
abbrev Block := Vector UInt32 16

/-- A place in a block. -/
abbrev Place := Fin 16

/-- The place in a row and a column of the square; the column after the last is the first. -/
def place (row column : Nat) : Place := ⟨(4 * row + column % 4) % 16, Nat.mod_lt _ (by decide)⟩

/-- The secret from which blocks are made. -/
abbrev Key := Vector UInt32 8

/-- The word with its bits turned `n` places to the left. -/
def turnLeft (w n : UInt32) : UInt32 := (w <<< n) ||| (w >>> (32 - n))

/-- The word with its bits turned `n` places to the right. -/
def turnRight (w n : UInt32) : UInt32 := (w >>> n) ||| (w <<< (32 - n))

/-- One quarter of a round: word `i` takes in word `j`, and word `k`, changed by that, is turned. -/
def mix (i j k : Place) (n : UInt32) (s : Block) : Block :=
  let s := s.set i (s[i] + s[j])
  s.set k (turnLeft (s[k] ^^^ s[i]) n)

/-- The quarter round on four words of a block. -/
def quarterRound (a b c d : Place) (s : Block) : Block :=
  s |> mix a b d 16 |> mix c d b 12 |> mix a b d 8 |> mix c d b 7

/-- A round over the columns. -/
def columnRound (s : Block) : Block :=
  (List.range 4).foldl
    (fun s j => quarterRound (place 0 j) (place 1 j) (place 2 j) (place 3 j) s) s

/-- A round over the diagonals. -/
def diagonalRound (s : Block) : Block :=
  (List.range 4).foldl
    (fun s j => quarterRound (place 0 j) (place 1 (j + 1)) (place 2 (j + 2)) (place 3 (j + 3)) s) s

/-- The square that block `number` starts from: a constant row, the key, the number and zeros. -/
def start (key : Key) (number : UInt64) : Block :=
  #v[0x61707865, 0x3320646E, 0x79622D32, 0x6B206574,
     key[0], key[1], key[2], key[3], key[4], key[5], key[6], key[7],
     number.toUInt32, (number >>> 32).toUInt32, 0, 0]

/-- Twelve rounds. -/
def scramble (s : Block) : Block := Nat.repeat (diagonalRound ∘ columnRound) 6 s

/-- Block `number` of the key stream. -/
def keyBlock (key : Key) (number : UInt64) : Block :=
  let s := start key number
  Vector.zipWith (· + ·) s (scramble s)

end ChipEight.ChaCha
