/-!
# Settings

Interpreters of the sixteen-key machine disagree on five points; a `Dialect` says how one of them
decides each. `Settings` adds the speed and the seed of a run.
-/

namespace ChipEight

/-- How a program expects the five disputed points to be decided. -/
structure Dialect where
  /-- The shifts `8xy6` and `8xyE` read Vy; otherwise they read Vx. -/
  shiftReadsVy : Bool := false
  /-- The transfers `Fx55` and `Fx65` leave I just past the last byte; otherwise I stays. -/
  transferMovesI : Bool := false
  /-- Sprites stop at the edges of the picture; otherwise they come in again on the other side. -/
  clipsSprites : Bool := false
  /-- The logical operations `8xy1`, `8xy2` and `8xy3` clear VF; otherwise VF stays. -/
  logicClearsFlag : Bool := false
  /-- The jump `Bxnn` adds Vx; otherwise it adds V0. -/
  jumpReadsVx : Bool := false
  deriving DecidableEq

/-- What is chosen once for a run. -/
structure Settings where
  /-- Instructions executed per second; zero counts as one. -/
  cpuHz : UInt32 := 600
  /-- The seed of the random bytes; a run without one draws a key for them. -/
  seed : Option UInt64 := none
  dialect : Dialect := {}
  deriving DecidableEq

namespace Settings

/-- The settings at another speed, where zero is taken for one. -/
def withCpuHz (s : Settings) (hz : UInt32) : Settings := { s with cpuHz := max hz 1 }

/-- The settings with a seed of their own. -/
def withSeed (s : Settings) (seed : UInt64) : Settings := { s with seed := some seed }

/-- The settings for programs of another dialect. -/
def withDialect (s : Settings) (dialect : Dialect) : Settings := { s with dialect }

end Settings

end ChipEight
