import ChipEight.CommandLine.Arguments
import ChipEight.Picture.HalfBlock
import ChipEight.Program.Reading
import ChipEight.Session.Frames

/-!
# The command

`Command.plan` reads the arguments: either they name a program to run, or the command is over at
once with the help, the version or a complaint. `Command.run` runs the program, given what opening
its file gave. Both answer with an `Exit`: the exit code and what is written to the two outputs.
-/

namespace ChipEight

/-- How a command ended. -/
structure Exit where
  code : UInt8
  out : String := ""
  err : String := ""
  deriving DecidableEq

namespace Command

/-- The text of `--version`. -/
def versionText : String := "chip8 0.1.0\n"

/-- The text of `--help`. -/
def helpText : String :=
  "Runs a Chip-8 program in the terminal\n" ++
  "\n" ++
  "Usage: chip8 [OPTIONS] <ROM>\n" ++
  "\n" ++
  "Arguments:\n" ++
  "  <ROM>  Path to the ROM to run\n" ++
  "\n" ++
  "Options:\n" ++
  "      --cpu-hz <CPU_HZ>  Instructions executed per second [default: 600]\n" ++
  "      --seed <SEED>      Seed for Cxkk, for reproducible runs\n" ++
  "      --shift-vy         8xy6/8xyE shift Vy into Vx\n" ++
  "      --increment-i      Fx55/Fx65 leave I past the last register\n" ++
  "      --clip             Clip sprites at the screen edges instead of wrapping them\n" ++
  "      --vf-reset         8xy1/8xy2/8xy3 reset VF\n" ++
  "      --jump-vx          Bxnn jumps to xnn + Vx\n" ++
  "      --headless         Run without the terminal and print the final frame\n" ++
  "      --frames <FRAMES>  Number of 60Hz frames to run for when headless [default: 60]\n" ++
  "  -h, --help             Print help\n" ++
  "  -V, --version          Print version\n"

/-- What is wrong with the arguments, in words. -/
def complaint : UsageError → String
  | .missingPath => "the following required arguments were not provided: <ROM>"
  | .unknownArgument => "unexpected argument found"
  | .badValue => "invalid value for an option"
  | .repeated => "an argument cannot be used multiple times"
  | .unwantedValue => "unexpected value for a switch"
  | .missingValue => "a value is required but none was supplied"

/-- The end of a command whose arguments ask for nothing to be run: misuse has exit code two. -/
def leave : Detour → Exit
  | .help => { code := 0, out := helpText }
  | .version => { code := 0, out := versionText }
  | .misuse e =>
    { code := 2
      err := "error: " ++ complaint e ++ "\n\nUsage: chip8 [OPTIONS] <ROM>\n\n"
        ++ "For more information, try '--help'.\n" }

/-- What the arguments ask for, or how the command ends at once. -/
def plan (args : List String) : Except Exit Arguments :=
  (Arguments.parse args).mapError leave

/-- The lines of a text, each ended. -/
def unlines (ls : List String) : String := String.join (ls.map (· ++ "\n"))

/-- The causes of an error, indented, and numbered if there are several. -/
def causeLines : List String → List String
  | [cause] => ["    " ++ cause]
  | causes => causes.zipIdx.map fun (cause, k) => "    " ++ toString k ++ ": " ++ cause

/-- The report of an error with its causes, nearest first. -/
def report (error : String) (causes : List String) : String :=
  match causes with
  | [] => unlines ["Error: " ++ error]
  | _ => unlines (["Error: " ++ error, "", "Caused by:"] ++ causeLines causes)

/-- The end of a command that failed: the journal and then the report, with exit code one. -/
def fail (journal : List String) (error : String) (causes : List String) : Exit :=
  { code := 1, err := unlines journal ++ report error causes }

/-- The lines of a picture as they are printed, without the blanks at their ends. -/
def printed (p : Picture) : List String :=
  p.lines.map fun l => String.ofList (Picture.trimmed l)

/-- The end of a command whose run failed. A crash is not reported as an error and has an exit code
of its own. -/
def failRun (journal : List String) (e : RunFailure) : Exit :=
  match e, e.chain with
  | .crashed _, messages => { code := 101, err := unlines (journal ++ messages) }
  | _, error :: causes => fail journal error causes
  | _, [] => fail journal "" []

/-- Runs a program with nobody attached and prints its last picture. -/
def runUnattended (a : Arguments) (journal : Journal) (program : List UInt8)
    (first second : ChaCha.Key) : Exit :=
  match Session.runFrames program a.settings a.frames journal first second with
  | (s, .ok ()) =>
    { code := 0, out := unlines (printed s.machine.picture), err := unlines s.host.journal.lines }
  | (s, .error e) => failRun s.host.journal.lines e

/-- Runs what the arguments ask for, with what `filter` lets through put on record. Playing needs a
terminal, and a command that has none ends with the error of the device that is missing. -/
def runFiltered (a : Arguments) (filter : Filter) (opened : Except ReadError Source)
    (first second : ChaCha.Key) : Exit :=
  match opened with
  | .error e => fail [] ("unable to open " ++ a.path) [e.text]
  | .ok source =>
    match (Machine.readProgram source).1 with
    | .error f => fail [] ("unable to read " ++ a.path) (f.message :: f.causes)
    | .ok program =>
      let journal := ({ filter } : Journal).note (.programRead program.length a.path)
      if a.headless then runUnattended a journal program first second
      else
        fail journal.lines "unable to set up the terminal"
          ["No such device or address (os error 6)"]

/-- Runs what the arguments ask for. `filter` is the text that chooses what is put on record, and
the warnings about it come first; `opened` is what opening the file gave; the keys are what the
system draws for a run without a seed. -/
def run (a : Arguments) (filter : String) (opened : Except ReadError Source)
    (first second : ChaCha.Key) : Exit :=
  let (filter, warnings) := Filter.read filter
  let e := runFiltered a filter opened first second
  { e with err := unlines warnings ++ e.err }

end Command

end ChipEight
