import ChipEight.CommandLine.Numeral
import ChipEight.Settings

/-!
# The arguments of the command line

One argument names the program file. Six switches and three options with a value may stand before
or after it; an option's value follows it as the next argument or after an equals sign. After `--`
every argument is taken as it stands. `Arguments.parse` reads the arguments from left to right and
stops at the first that is wrong. A value is looked at only when the next argument has been
recognised, so an argument that nobody knows is reported before a bad value in front of it.
-/

namespace ChipEight

/-- What is wrong with the arguments. -/
inductive UsageError where
  /-- No program was named. -/
  | missingPath
  /-- An argument that is no switch, no option and no first program. -/
  | unknownArgument
  /-- An option's value is no number in its range. -/
  | badValue
  /-- A switch or an option was given twice. -/
  | repeated
  /-- A switch was given a value. -/
  | unwantedValue
  /-- An option without a value, or a program with an empty name. -/
  | missingValue
  deriving DecidableEq

/-- Why the arguments ask for nothing to be run. -/
inductive Detour where
  | help
  | version
  | misuse (e : UsageError)
  deriving DecidableEq

/-- The arguments that are either given or not. -/
inductive Switch where
  | shiftVy
  | incrementI
  | clip
  | vfReset
  | jumpVx
  | headless
  deriving DecidableEq

namespace Switch

/-- The name of a switch, after two dashes. -/
def name : Switch → String
  | shiftVy => "shift-vy"
  | incrementI => "increment-i"
  | clip => "clip"
  | vfReset => "vf-reset"
  | jumpVx => "jump-vx"
  | headless => "headless"

/-- All switches. -/
def all : List Switch := [shiftVy, incrementI, clip, vfReset, jumpVx, headless]

end Switch

/-- The arguments that take a number. -/
inductive NumberOption where
  | cpuHz
  | seed
  | frames
  deriving DecidableEq

namespace NumberOption

/-- The name of an option, after two dashes. -/
def name : NumberOption → String
  | cpuHz => "cpu-hz"
  | seed => "seed"
  | frames => "frames"

/-- All options. -/
def all : List NumberOption := [cpuHz, seed, frames]

end NumberOption

/-- What the arguments ask for. -/
structure Arguments where
  path : String
  cpuHz : UInt32 := 600
  seed : Option UInt64 := none
  switches : List Switch := []
  frames : UInt64 := 60
  deriving DecidableEq

namespace Arguments

/-- Whether the program is to run with nobody attached. -/
def headless (a : Arguments) : Bool := a.switches.contains .headless

/-- The dialect that the switches choose. -/
def dialect (a : Arguments) : Dialect where
  shiftReadsVy := a.switches.contains .shiftVy
  transferMovesI := a.switches.contains .incrementI
  clipsSprites := a.switches.contains .clip
  logicClearsFlag := a.switches.contains .vfReset
  jumpReadsVx := a.switches.contains .jumpVx

/-- The settings of the run. -/
def settings (a : Arguments) : Settings :=
  { ({} : Settings).withCpuHz a.cpuHz with seed := a.seed, dialect := a.dialect }

/-! ## Reading -/

/-- What has been read and accepted. -/
structure Draft where
  path : Option String := none
  cpuHz : Option UInt32 := none
  seed : Option UInt64 := none
  frames : Option UInt64 := none
  switches : List Switch := []

/-- What has been read and not been looked at yet. -/
inductive Pending where
  | nothing
  | path (p : String)
  /-- An option and its value, if that has been read too. -/
  | option (o : NumberOption) (value : Option String)

/-- The state of the reader. -/
structure Reader where
  draft : Draft := {}
  pending : Pending := .nothing
  /-- Two dashes have been read: every further argument is taken as it stands. -/
  literal : Bool := false

namespace Draft

/-- Takes a number that must not have been given before. -/
def once {α : Type} (old : Option α) (read : List Char → Option α) (value : String) :
    Except UsageError (Option α) :=
  match old with
  | some _ => .error .repeated
  | none =>
    match read value.toList with
    | some n => .ok (some n)
    | none => .error .badValue

/-- Takes the value of an option. -/
def setOption (d : Draft) (o : NumberOption) (value : String) : Except UsageError Draft :=
  match o with
  | .cpuHz => (fun cpuHz => { d with cpuHz }) <$> once d.cpuHz Numeral.word32 value
  | .seed => (fun seed => { d with seed }) <$> once d.seed Numeral.word64 value
  | .frames => (fun frames => { d with frames }) <$> once d.frames Numeral.word64 value

/-- Takes a switch. -/
def setSwitch (d : Draft) (w : Switch) : Except UsageError Draft :=
  if d.switches.contains w then .error .repeated
  else .ok { d with switches := d.switches ++ [w] }

/-- Looks at what is pending. -/
def settle (d : Draft) : Pending → Except UsageError Draft
  | .nothing => .ok d
  | .path p => if p = "" then .error .missingValue else .ok { d with path := some p }
  | .option _ none => .error .missingValue
  | .option o (some value) => d.setOption o value

end Draft

namespace Reader

/-- Looks at what is pending, after which nothing is. -/
def settled (r : Reader) : Except Detour Reader :=
  match r.draft.settle r.pending with
  | .ok draft => .ok { r with draft, pending := .nothing }
  | .error e => .error (.misuse e)

/-- Whether a program has been named. -/
def hasPath (r : Reader) : Bool :=
  r.draft.path.isSome ||
    match r.pending with
    | .path _ => true
    | _ => false

/-- Takes an argument for the name of the program. -/
def readPath (r : Reader) (arg : String) : Except Detour Reader :=
  if r.hasPath then .error (.misuse .unknownArgument)
  else do
    let r ← r.settled
    return { r with pending := .path arg }

/-- Leaves for the help or the version, once what is pending has been found right. -/
def leave (r : Reader) (d : Detour) : Except Detour Reader := do
  let _ ← r.settled
  .error d

/-- Reads an option with its value, or without one if that is still to come. -/
def readOption (r : Reader) (o : NumberOption) : Option String → Except Detour Reader
  | none => do
    let r ← r.settled
    return { r with pending := .option o none }
  | some value => do
    let r ← r.settled
    match r.draft.setOption o value with
    | .ok draft => .ok { r with draft }
    | .error e => .error (.misuse e)

/-- Reads a switch. -/
def readSwitch (r : Reader) (w : Switch) : Except Detour Reader := do
  let r ← r.settled
  match r.draft.setSwitch w with
  | .ok draft => .ok { r with draft }
  | .error e => .error (.misuse e)

/-- Reads an argument that takes no value, which is refused if it has one. -/
def plain (value : Option String) (read : Except Detour Reader) : Except Detour Reader :=
  match value with
  | some _ => .error (.misuse .unwantedValue)
  | none => read

/-- Reads the argument with this name and value after two dashes. -/
def readLong (r : Reader) (name : String) (value : Option String) : Except Detour Reader :=
  match NumberOption.all.find? (·.name == name) with
  | some o => r.readOption o value
  | none =>
    match Switch.all.find? (·.name == name) with
    | some w => plain value (r.readSwitch w)
    | none =>
      if name = "help" then plain value (r.leave .help)
      else if name = "version" then plain value (r.leave .version)
      else .error (.misuse .unknownArgument)

/-- Reads letters after one dash, of which the first decides. -/
def readShort (r : Reader) (letter : Char) : Except Detour Reader :=
  if letter = 'h' then r.leave .help
  else if letter = 'V' then r.leave .version
  else .error (.misuse .unknownArgument)

/-- The part before the first equals sign and, if there is one, the part after it. -/
def splitValue (cs : List Char) : String × Option String :=
  (String.ofList (cs.takeWhile (· != '=')),
    match cs.dropWhile (· != '=') with
    | [] => none
    | _ :: value => some (String.ofList value))

/-- Reads one argument. -/
def read (r : Reader) (arg : String) : Except Detour Reader :=
  if r.literal then r.readPath arg
  else
    match arg.toList with
    | ['-', '-'] => .ok { r with literal := true }
    | '-' :: '-' :: cs =>
      let (name, value) := splitValue cs
      r.readLong name value
    | '-' :: letter :: _ => r.readShort letter
    | _ =>
      match r.pending with
      | .option o none => .ok { r with pending := .option o (some arg) }
      | _ => r.readPath arg

/-- Ends reading; what was not given has its default. -/
def finish (r : Reader) : Except Detour Arguments := do
  let r ← r.settled
  match r.draft.path with
  | none => .error (.misuse .missingPath)
  | some path =>
    return {
      path
      cpuHz := r.draft.cpuHz.getD 600
      seed := r.draft.seed
      switches := r.draft.switches
      frames := r.draft.frames.getD 60 }

end Reader

/-- Reads the arguments of a command line. -/
def parse (args : List String) : Except Detour Arguments := do
  let r ← args.foldlM Reader.read {}
  r.finish

end Arguments

end ChipEight
